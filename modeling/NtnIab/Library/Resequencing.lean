import NtnIab.Library.Run

/-!
# Putting numbered units into their order

A receiver gets units with numbers, some of them late, twice or never. It holds what is ahead of the
number that it waits for, and hands on what has come without a gap. When it has waited for too long
it gives up what is missing, up to a mark that was set when the waiting began.

The numbers here never wrap. Where a receiver counts in laps, it may stop at the end of a lap
although the first unit of the next one is there, and goes on with the next arrival; the length of a
lap is a parameter for this.

## Strategy

Everything follows from `Sound`, which holds as long as what arrives is in the window: what is
handed on comes in the order of the numbers, the last of it is what comes before the next number,
and nothing is held unless the receiver is waiting.
-/

structure Resequencer where
  /-- The number that is waited for. -/
  next : ℕ := 0
  /-- The number after the highest one that has arrived. -/
  high : ℕ := 0
  /-- What is before it is given up when the waiting ends. -/
  mark : ℕ := 0
  waiting : Bool := false
  held : List ℕ := []
  passed : List ℕ := []
  deriving Repr, DecidableEq

namespace Resequencer

open Run

variable {size lap : ℕ} {s : Resequencer} {i : ℕ}

/-! ## Steps -/

/-- The first number from `n` on that is not held, at most the given number of turns further on. -/
def follow (held : List ℕ) : ℕ → ℕ → ℕ
  | 0, n => n
  | turns + 1, n => if n ∈ held then follow held turns (n + 1) else n

/-- What is held before a number is handed on, and the number is the next one. -/
def pass (upTo : ℕ) (s : Resequencer) : Resequencer :=
  { s with
    next := upTo
    held := s.held.filter fun n => upTo ≤ n
    passed := s.passed ++ (List.range' s.next (upTo - s.next)).filter fun n => n ∈ s.held }

/-- The waiting begins if something is missing. -/
def wait (s : Resequencer) : Resequencer :=
  if s.waiting = false ∧ s.next < s.high then { s with waiting := true, mark := s.high } else s

/-- The waiting ends if nothing before the mark is missing. -/
def rest (s : Resequencer) : Resequencer :=
  if s.waiting = true ∧ s.mark ≤ s.next then { s with waiting := false } else s

/-- The unit is held. -/
def hold (i : ℕ) (s : Resequencer) : Resequencer :=
  { s with
    held := if i ∈ s.held then s.held else i :: s.held
    high := max s.high (i + 1) }

/-- What has come without a gap is handed on, up to the end of the lap. -/
def advance (lap : ℕ) (s : Resequencer) : Resequencer :=
  if s.next ∈ s.held then
    s.pass (follow s.held (min s.high ((s.next / lap + 1) * lap) - (s.next + 1)) (s.next + 1))
  else s

/-- A unit arrives. One that was given up or has arrived before is dropped. -/
def arrive (lap i : ℕ) (s : Resequencer) : Resequencer :=
  if i < s.next ∨ (s.next < i ∧ i ∈ s.held) then s
  else (((s.hold i).advance lap).rest).wait

/-- The waiting has been too long. -/
def expire (s : Resequencer) : Resequencer :=
  if s.waiting then
    ({ s with waiting := false }.pass (follow s.held (s.high - s.mark) s.mark)).wait
  else s

/-- A unit that is not older than the window, and does not move the window beyond what is waited
for. -/
def InWindow (size i : ℕ) (s : Resequencer) : Prop := s.high ≤ i + size ∧ i < s.next + size

instance : Decidable (InWindow size i s) := inferInstanceAs (Decidable (_ ∧ _))

theorem mem_held_hold {n : ℕ} : n ∈ (s.hold i).held ↔ n = i ∨ n ∈ s.held := by
  unfold hold
  dsimp only
  split
  · rename_i hin
    exact ⟨Or.inr, fun hn => hn.elim (fun heq => heq ▸ hin) id⟩
  · exact List.mem_cons

@[simp] theorem high_advance : (s.advance lap).high = s.high := by
  unfold advance
  split <;> rfl

@[simp] theorem mark_advance : (s.advance lap).mark = s.mark := by
  unfold advance
  split <;> rfl

@[simp] theorem waiting_advance : (s.advance lap).waiting = s.waiting := by
  unfold advance
  split <;> rfl

@[simp] theorem next_rest : s.rest.next = s.next := by
  unfold rest
  split <;> rfl

@[simp] theorem high_rest : s.rest.high = s.high := by
  unfold rest
  split <;> rfl

@[simp] theorem passed_rest : s.rest.passed = s.passed := by
  unfold rest
  split <;> rfl

@[simp] theorem next_wait : s.wait.next = s.next := by
  unfold wait
  split <;> rfl

@[simp] theorem passed_wait : s.wait.passed = s.passed := by
  unfold wait
  split <;> rfl

/-! ## What is kept -/

/-- The state between two steps. -/
structure Sound (size : ℕ) (s : Resequencer) : Prop where
  next_le : s.next ≤ s.high
  high_le : s.high ≤ s.next + size
  held : ∀ n ∈ s.held, s.next ≤ n ∧ n < s.high
  high_held : s.next < s.high → s.high - 1 ∈ s.held
  waiting : s.waiting = true ↔ s.next < s.high
  mark : s.waiting = true → s.next < s.mark ∧ s.mark ≤ s.high ∧ s.mark - 1 ∈ s.held
  passed : ∀ n ∈ s.passed, n < s.next
  last : s.next = 0 ∨ s.next - 1 ∈ s.passed
  sorted : s.passed.Pairwise (· < ·)

theorem sound_start : Sound size {} :=
  ⟨Nat.le_refl 0, Nat.zero_le _, nofun, nofun, ⟨nofun, nofun⟩, nofun, nofun, Or.inl rfl,
    List.Pairwise.nil⟩

theorem follow_spec (held : List ℕ) (turns n : ℕ) :
    n ≤ follow held turns n ∧ follow held turns n ≤ n + turns ∧
      ∀ j, n ≤ j → j < follow held turns n → j ∈ held := by
  induction turns generalizing n with
  | zero => exact ⟨Nat.le_refl n, Nat.le_refl n, fun j hle hlt => absurd hlt (Nat.not_lt.2 hle)⟩
  | succ turns ih =>
      unfold follow
      split
      · rename_i hmem
        obtain ⟨hge, hle, hall⟩ := ih (n + 1)
        refine ⟨by omega, by omega, fun j hj hlt => ?_⟩
        rcases Nat.eq_or_lt_of_le hj with rfl | hj
        · exact hmem
        · exact hall j hj hlt
      · exact ⟨Nat.le_refl n, Nat.le_add_right n _, fun j hle hlt => absurd hlt (Nat.not_lt.2 hle)⟩

/-- What the state has in common with that between two steps while units are handed on. -/
structure Passing (size : ℕ) (s : Resequencer) : Prop where
  next_le : s.next ≤ s.high
  high_le : s.high ≤ s.next + size
  held : ∀ n ∈ s.held, s.next ≤ n ∧ n < s.high
  high_held : s.next < s.high → s.high - 1 ∈ s.held
  passed : ∀ n ∈ s.passed, n < s.next
  last : s.next = 0 ∨ s.next - 1 ∈ s.passed
  sorted : s.passed.Pairwise (· < ·)

theorem Sound.passing (h : Sound size s) : Passing size s :=
  ⟨h.next_le, h.high_le, h.held, h.high_held, h.passed, h.last, h.sorted⟩

/-- Handing on up to a number, the last one before which is held. -/
theorem Passing.pass (h : Passing size s) {upTo : ℕ} (hlt : s.next < upTo) (hle : upTo ≤ s.high)
    (hlast : upTo - 1 ∈ s.held) : Passing size (s.pass upTo) := by
  have hrange : ∀ n ∈ (List.range' s.next (upTo - s.next)).filter fun n => n ∈ s.held,
      s.next ≤ n ∧ n < upTo := by
    intro n hn
    have := List.mem_range'_1.1 (List.mem_filter.1 hn).1
    omega
  refine ⟨hle, ?_, ?_, ?_, ?_, Or.inr ?_, ?_⟩
  · have := h.high_le
    show s.high ≤ upTo + size
    omega
  · intro n hn
    obtain ⟨hmem, hto⟩ := List.mem_filter.1 hn
    exact ⟨of_decide_eq_true hto, (h.held n hmem).2⟩
  · intro hmore
    have hmore' : upTo < s.high := hmore
    exact List.mem_filter.2 ⟨h.high_held (Nat.lt_trans hlt hmore'),
      decide_eq_true (show upTo ≤ s.high - 1 by omega)⟩
  · intro n hn
    rcases List.mem_append.1 hn with hold | hnew
    · exact Nat.lt_trans (h.passed n hold) hlt
    · exact (hrange n hnew).2
  · refine List.mem_append_right _ (List.mem_filter.2
      ⟨List.mem_range'_1.2 ?_, decide_eq_true hlast⟩)
    show s.next ≤ upTo - 1 ∧ upTo - 1 < s.next + (upTo - s.next)
    omega
  · refine List.pairwise_append.2 ⟨h.sorted, ?_, fun m hm n hn => ?_⟩
    · exact (List.pairwise_lt_range' (s := s.next)).filter _
    · exact Nat.lt_of_lt_of_le (h.passed m hm) (hrange n hn).1

/-- The mark of a receiver that is waiting comes after something that is held, unless all before
it has been handed on. -/
def Marked (s : Resequencer) : Prop :=
  s.waiting = true → s.mark ≤ s.high ∧ (s.next < s.mark → s.mark - 1 ∈ s.held)

theorem Passing.sound (h : Passing size s) (hmark : Marked s) : Sound size s.rest.wait := by
  have hrest : Passing size s.rest ∧ s.rest.next = s.next ∧ s.rest.high = s.high ∧
      s.rest.held = s.held ∧ s.rest.mark = s.mark ∧
      (s.rest.waiting = true → s.next < s.mark ∧ s.waiting = true) := by
    unfold rest
    split
    · exact ⟨⟨h.next_le, h.high_le, h.held, h.high_held, h.passed, h.last, h.sorted⟩,
        rfl, rfl, rfl, rfl, nofun⟩
    · rename_i hgoes
      exact ⟨h, rfl, rfl, rfl, rfl, fun hwaiting => ⟨by
        by_contra hle
        exact hgoes ⟨hwaiting, Nat.le_of_not_lt hle⟩, hwaiting⟩⟩
  obtain ⟨hpassing, hnext, hhigh, hheld, hmark', hwaiting⟩ := hrest
  unfold wait
  split
  · rename_i hmissing
    exact ⟨hpassing.next_le, hpassing.high_le, hpassing.held, hpassing.high_held,
      ⟨fun _ => hmissing.2, fun _ => rfl⟩,
      fun _ => ⟨hmissing.2, Nat.le_refl _, hpassing.high_held hmissing.2⟩,
      hpassing.passed, hpassing.last, hpassing.sorted⟩
  · rename_i hnone
    have hmarked : s.rest.waiting = true →
        s.rest.next < s.rest.mark ∧ s.rest.mark ≤ s.rest.high ∧ s.rest.mark - 1 ∈ s.rest.held := by
      intro hw
      obtain ⟨hlt, hw'⟩ := hwaiting hw
      obtain ⟨hle, hmem⟩ := hmark hw'
      rw [hnext, hmark', hhigh, hheld]
      exact ⟨hlt, hle, hmem hlt⟩
    refine ⟨hpassing.next_le, hpassing.high_le, hpassing.held, hpassing.high_held,
      ⟨fun hw => ?_, fun hlt => ?_⟩, hmarked, hpassing.passed, hpassing.last, hpassing.sorted⟩
    · obtain ⟨hlt, hle, -⟩ := hmarked hw
      exact Nat.lt_of_lt_of_le hlt hle
    · by_contra hw
      exact hnone ⟨Bool.eq_false_iff.2 hw, hlt⟩

/-- A unit in the window that is not dropped is held. -/
theorem Sound.hold (h : Sound size s) (hwindow : InWindow size i s) (hle : s.next ≤ i) :
    Passing size (s.hold i) ∧ Marked (s.hold i) := by
  have hhigh : (s.hold i).high = max s.high (i + 1) := rfl
  have hnext : (s.hold i).next = s.next := rfl
  refine ⟨⟨?_, ?_, ?_, ?_, h.passed, h.last, h.sorted⟩, ?_⟩
  · rw [hhigh, hnext]
    omega
  · have := h.high_le
    have := hwindow.2
    rw [hhigh, hnext]
    omega
  · intro n hn
    rw [hhigh, hnext]
    rcases mem_held_hold.1 hn with rfl | hold
    · omega
    · have := h.held n hold
      omega
  · intro _
    rw [hhigh]
    rcases Nat.lt_or_ge i s.high with hlow | hnew
    · rw [Nat.max_eq_left (by omega)]
      exact mem_held_hold.2 (Or.inr (h.high_held (Nat.lt_of_le_of_lt hle hlow)))
    · rw [Nat.max_eq_right (by omega), Nat.add_sub_cancel]
      exact mem_held_hold.2 (Or.inl rfl)
  · intro hwaiting
    obtain ⟨hlt, hmark, hheld⟩ := h.mark hwaiting
    rw [hhigh]
    exact ⟨Nat.le_trans hmark (Nat.le_max_left _ _), fun _ => mem_held_hold.2 (Or.inr hheld)⟩

/-- The end of what has come without a gap. -/
theorem Passing.follow (h : Passing size s) (hmem : s.next ∈ s.held) (bound : ℕ) :
    let upTo := follow s.held (min s.high bound - (s.next + 1)) (s.next + 1)
    s.next < upTo ∧ upTo ≤ s.high ∧ ∀ n, s.next ≤ n → n < upTo → n ∈ s.held := by
  intro upTo
  obtain ⟨hge, hle, hall⟩ :=
    follow_spec s.held (min s.high bound - (s.next + 1)) (s.next + 1)
  have hlt := (h.held s.next hmem).2
  refine ⟨by omega, by omega, fun n hn hupTo => ?_⟩
  rcases Nat.eq_or_lt_of_le hn with rfl | hn
  · exact hmem
  · exact hall n hn hupTo

theorem Passing.advance (h : Passing size s) (hmark : Marked s) (lap : ℕ) :
    Passing size (s.advance lap) ∧ Marked (s.advance lap) := by
  unfold Resequencer.advance
  split
  · rename_i hmem
    obtain ⟨hlt, hle, hall⟩ := h.follow hmem ((s.next / lap + 1) * lap)
    refine ⟨h.pass hlt hle (hall _ (by omega) (by omega)), fun hwaiting => ?_⟩
    obtain ⟨hmarked, hheld⟩ := hmark hwaiting
    refine ⟨hmarked, fun hmore => ?_⟩
    have hmore' : Resequencer.follow s.held (min s.high ((s.next / lap + 1) * lap) - (s.next + 1))
        (s.next + 1) < s.mark := hmore
    exact List.mem_filter.2 ⟨hheld (by omega), decide_eq_true (by
      show _ ≤ s.mark - 1
      omega)⟩
  · exact ⟨h, hmark⟩

theorem Sound.arrive (h : Sound size s) (hwindow : InWindow size i s) (lap : ℕ) :
    Sound size (s.arrive lap i) := by
  unfold Resequencer.arrive
  split
  · exact h
  · rename_i hkept
    obtain ⟨hpassing, hmark⟩ := h.hold hwindow (Nat.le_of_not_lt fun hlt => hkept (Or.inl hlt))
    obtain ⟨hpassing, hmark⟩ := hpassing.advance hmark lap
    exact hpassing.sound hmark

/-- Up to where the receiver gives up. -/
theorem Sound.expired (h : Sound size s) (hwaiting : s.waiting = true) :
    let upTo := follow s.held (s.high - s.mark) s.mark
    s.next < upTo ∧ s.mark ≤ upTo ∧ upTo ≤ s.high ∧ upTo - 1 ∈ s.held := by
  intro upTo
  obtain ⟨hlt, hle, hmem⟩ := h.mark hwaiting
  obtain ⟨hge, hbound, hall⟩ := follow_spec s.held (s.high - s.mark) s.mark
  refine ⟨by omega, hge, by omega, ?_⟩
  rcases Nat.eq_or_lt_of_le hge with heq | hmore
  · have hupTo : upTo = s.mark := heq.symm
    rwa [hupTo]
  · exact hall _ (by omega) (by omega)

theorem Sound.expire (h : Sound size s) : Sound size s.expire := by
  unfold Resequencer.expire
  split
  · rename_i hwaiting
    obtain ⟨hlt, -, hle, hlast⟩ := h.expired hwaiting
    have hpassing : Passing size { s with waiting := false } :=
      ⟨h.next_le, h.high_le, h.held, h.high_held, h.passed, h.last, h.sorted⟩
    have hpass := hpassing.pass hlt hle hlast
    exact hpass.sound nofun
  · exact h

/-! ## What has arrived -/

/-- The numbers of the units that the receiver has or has handed on. -/
def known (s : Resequencer) : List ℕ := s.passed ++ s.held

@[simp] theorem held_rest : s.rest.held = s.held := by
  unfold rest
  split <;> rfl

@[simp] theorem held_wait : s.wait.held = s.held := by
  unfold wait
  split <;> rfl

@[simp] theorem high_wait : s.wait.high = s.high := by
  unfold wait
  split <;> rfl

theorem mem_known_pass {upTo n : ℕ} (hn : n ∈ (s.pass upTo).known) : n ∈ s.known := by
  unfold known pass at *
  simp only [List.mem_append, List.mem_filter, decide_eq_true_eq] at *
  tauto

theorem mem_known_arrive {n : ℕ} (hn : n ∈ (s.arrive lap i).known) : n = i ∨ n ∈ s.known := by
  unfold arrive at hn
  split at hn
  · exact Or.inr hn
  have hadvanced : n ∈ ((s.hold i).advance lap).known := by
    simpa only [known, passed_wait, passed_rest, held_wait, held_rest] using hn
  have hheld : n ∈ (s.hold i).known := by
    unfold advance at hadvanced
    split at hadvanced
    · exact mem_known_pass hadvanced
    · exact hadvanced
  rcases List.mem_append.1 hheld with hpassed | hheld
  · exact Or.inr (List.mem_append_left _ hpassed)
  · exact (mem_held_hold.1 hheld).imp_right (List.mem_append_right _)

theorem mem_known_expire {n : ℕ} (hn : n ∈ s.expire.known) : n ∈ s.known := by
  unfold expire at hn
  split at hn
  · have hpassed : n ∈ (({ s with waiting := false } : Resequencer).pass
        (follow s.held (s.high - s.mark) s.mark)).known := by
      simpa only [known, passed_wait, held_wait] using hn
    exact mem_known_pass hpassed
  · exact hn

/-- The upper end of the window is after everything that has arrived. -/
theorem Sound.high_arrive (h : Sound size s) (lap i : ℕ) :
    s.high ≤ (s.arrive lap i).high ∧ i < (s.arrive lap i).high := by
  unfold Resequencer.arrive
  split
  · rename_i hdrop
    refine ⟨Nat.le_refl _, ?_⟩
    rcases hdrop with hold | ⟨-, hmem⟩
    · exact Nat.lt_of_lt_of_le hold h.next_le
    · exact (h.held i hmem).2
  · rw [high_wait, high_rest, high_advance]
    show s.high ≤ max s.high (i + 1) ∧ i < max s.high (i + 1)
    omega

theorem high_arrive_le (s : Resequencer) (lap i : ℕ) :
    (s.arrive lap i).high ≤ max s.high (i + 1) := by
  unfold arrive
  split
  · exact Nat.le_max_left _ _
  · rw [high_wait, high_rest, high_advance]
    exact Nat.le_refl _

/-- What is waited for is handed on when it arrives. -/
theorem Sound.next_arrive (h : Sound size s) (hwindow : InWindow size i s) (hle : i ≤ s.next)
    (lap : ℕ) :
    i < (s.arrive lap i).next := by
  unfold Resequencer.arrive
  split
  · rename_i hdrop
    omega
  · rename_i hkept
    obtain ⟨hpassing, -⟩ := h.hold hwindow (Nat.le_of_not_lt fun hlt => hkept (Or.inl hlt))
    have heq : (s.hold i).next = i := by
      show s.next = i
      omega
    have hmem : (s.hold i).next ∈ (s.hold i).held := mem_held_hold.2 (Or.inl heq)
    obtain ⟨hlt, -⟩ := hpassing.follow hmem (((s.hold i).next / lap + 1) * lap)
    rw [next_wait, next_rest, Resequencer.advance, if_pos hmem]
    exact heq ▸ hlt

@[simp] theorem high_expire : s.expire.high = s.high := by
  unfold expire
  split
  · rw [high_wait]
    rfl
  · rfl

/-! ## Without giving up -/

theorem range_append_range' {m n : ℕ} (hle : m ≤ n) :
    List.range m ++ List.range' m (n - m) = List.range n := by
  have happend := List.range'_append_1 (s := 0) (m := m) (n := n - m)
  rw [Nat.zero_add, Nat.add_sub_cancel' hle] at happend
  rw [List.range_eq_range', List.range_eq_range', happend]

/-- Without giving up, everything before the next number has been handed on. -/
theorem Sound.passed_arrive (h : Sound size s) (hwindow : InWindow size i s)
    (hpassed : s.passed = List.range s.next) (lap : ℕ) :
    (s.arrive lap i).passed = List.range (s.arrive lap i).next := by
  unfold Resequencer.arrive
  split
  · exact hpassed
  rename_i hkept
  obtain ⟨hpassing, -⟩ := h.hold hwindow (Nat.le_of_not_lt fun hlt => hkept (Or.inl hlt))
  have hpassed' : (s.hold i).passed = List.range (s.hold i).next := hpassed
  simp only [passed_wait, passed_rest, next_wait, next_rest]
  generalize s.hold i = s' at hpassing hpassed'
  unfold Resequencer.advance
  split
  · rename_i hmem
    obtain ⟨hlt, -, hall⟩ := hpassing.follow hmem ((s'.next / lap + 1) * lap)
    have hheld : ∀ upTo, (∀ n, s'.next ≤ n → n < upTo → n ∈ s'.held) →
        (List.range' s'.next (upTo - s'.next)).filter (fun n => decide (n ∈ s'.held)) =
          List.range' s'.next (upTo - s'.next) := by
      intro upTo hall
      refine List.filter_eq_self.2 fun n hn => decide_eq_true ?_
      have := List.mem_range'_1.1 hn
      exact hall n this.1 (by omega)
    unfold pass
    dsimp only
    rw [hheld _ hall, hpassed', range_append_range' (Nat.le_of_lt hlt)]
  · exact hpassed'

end Resequencer
