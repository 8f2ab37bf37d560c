import Mathlib.Data.List.Count
import Mathlib.Logic.Function.Basic

/-!
# Acknowledgements that are answered while there is room

A list of acknowledgements is answered one after the other. A good one ends the transmission that
it is about. A bad one leads to another transmission if there is room for it, and is kept for later
if not. The answers stop when the room is used up, and what is behind is neither answered nor kept.

## Strategy

One transmission is followed along the list. Until it is sent again or ends, its count stays as it
was (`Waiting`), and once it was sent again its count is never the same (`Resent`). So nothing can
be lost but behind the stop, and `settled_iff` says which acknowledgements there are `Harmless`.
-/

namespace Retries

inductive Verdict
  | good
  | bad
  | unclear
  deriving Repr, DecidableEq

variable {K I R : Type*}

/-- What an acknowledgement is about and what it says, how often a transmission is sent at most,
what it takes of the room, and when the room is used up. -/
structure Rules (K I R : Type*) where
  key : I → K
  verdict : I → Verdict
  limit : Nat
  take : K → R → Option R
  spent : R → Bool

/-- The room that is left, how often each transmission was sent, with none for one that is over,
which were sent again after how many times, and what is kept. -/
structure Ledger (K I R : Type*) where
  room : R
  count : K → Nat
  resent : List (K × Nat) := []
  kept : List I := []

namespace Ledger

variable [DecidableEq K]

def finish (k : K) (l : Ledger K I R) : Ledger K I R :=
  { l with count := Function.update l.count k 0 }

def resend (k : K) (room : R) (l : Ledger K I R) : Ledger K I R where
  room := room
  count := Function.update l.count k (l.count k + 1)
  resent := l.resent ++ [(k, l.count k)]
  kept := l.kept

/-- One acknowledgement. -/
def answer (rules : Rules K I R) (l : Ledger K I R) (i : I) : Ledger K I R :=
  let k := rules.key i
  match rules.verdict i with
  | .good => l.finish k
  | .unclear => l
  | .bad =>
      if l.count k = 0 ∨ l.count k = rules.limit then l.finish k
      else
        match rules.take k l.room with
        | some room => l.resend k room
        | none => { l with kept := l.kept ++ [i] }

/-- The acknowledgements of a list, and those of them that are behind the stop. -/
def answerAll (rules : Rules K I R) : List I → Ledger K I R → Ledger K I R × List I
  | [], l => (l, [])
  | i :: rest, l =>
      if rules.spent l.room then (l, i :: rest) else answerAll rules rest (l.answer rules i)

/-- How often a transmission was sent again after it was sent so many times. -/
def timesResent (k : K) (c : Nat) (l : Ledger K I R) : Nat := l.resent.count (k, c)

end Ledger

section

variable (rules : Rules K I R) (count : K → Nat)

/-- No acknowledgement is lost. A good one ended its transmission. A bad one of a transmission
that may be sent again, and that was not acknowledged before, led to one more transmission or is
kept. -/
def Settled (infos : List I) (final : Ledger K I R) [DecidableEq K] : Prop :=
  ∀ before i after, infos = before ++ i :: after →
    (rules.verdict i = .good → final.count (rules.key i) = 0) ∧
    (rules.verdict i = .bad →
      (∀ j ∈ before, rules.key j = rules.key i → rules.verdict j ≠ .good) →
      0 < count (rules.key i) → count (rules.key i) < rules.limit →
      final.timesResent (rules.key i) (count (rules.key i)) = 1 ∨ i ∈ final.kept)

/-- An acknowledgement that need not be answered any more: a good one of a transmission that is
over, and a bad one of a transmission that is over, was sent too often, or was sent again or kept
before. -/
structure Harmless (final : Ledger K I R) (i : I) : Prop where
  good : rules.verdict i = .good → final.count (rules.key i) = 0
  bad : rules.verdict i = .bad → 0 < final.count (rules.key i) →
    final.count (rules.key i) = count (rules.key i) → count (rules.key i) < rules.limit →
    i ∈ final.kept

end

namespace Ledger

variable [DecidableEq K] {rules : Rules K I R} {l : Ledger K I R} {i : I} {k : K} {c : Nat}

/-! ## One acknowledgement -/

theorem answer_of_over (hover : rules.verdict i = .good ∨ rules.verdict i = .bad ∧
    (l.count (rules.key i) = 0 ∨ l.count (rules.key i) = rules.limit)) :
    l.answer rules i = l.finish (rules.key i) := by
  unfold answer
  rcases hover with hgood | ⟨hbad, hover⟩
  · rw [hgood]
  · rw [hbad]
    exact if_pos hover

theorem answer_of_unclear (hunclear : rules.verdict i = .unclear) : l.answer rules i = l := by
  unfold answer
  rw [hunclear]

theorem answer_of_bad (hbad : rules.verdict i = .bad) (hpos : l.count (rules.key i) ≠ 0)
    (hlimit : l.count (rules.key i) ≠ rules.limit) :
    l.answer rules i =
      match rules.take (rules.key i) l.room with
      | some room => l.resend (rules.key i) room
      | none => { l with kept := l.kept ++ [i] } := by
  unfold answer
  rw [hbad]
  exact if_neg (not_or.2 ⟨hpos, hlimit⟩)

/-- What an acknowledgement does. -/
theorem answer_cases (rules : Rules K I R) (l : Ledger K I R) (i : I) :
    (l.answer rules i = l.finish (rules.key i) ∧
        (rules.verdict i = .good ∨ rules.verdict i = .bad ∧
          (l.count (rules.key i) = 0 ∨ l.count (rules.key i) = rules.limit))) ∨
      (l.answer rules i = l ∧ rules.verdict i = .unclear) ∨
      rules.verdict i = .bad ∧ l.count (rules.key i) ≠ 0 ∧
        l.count (rules.key i) ≠ rules.limit ∧
        ((∃ room, l.answer rules i = l.resend (rules.key i) room) ∨
          l.answer rules i = { l with kept := l.kept ++ [i] }) := by
  cases hverdict : rules.verdict i with
  | good => exact Or.inl ⟨answer_of_over (Or.inl hverdict), Or.inl rfl⟩
  | unclear => exact Or.inr (Or.inl ⟨answer_of_unclear hverdict, rfl⟩)
  | bad =>
      by_cases hover : l.count (rules.key i) = 0 ∨ l.count (rules.key i) = rules.limit
      · exact Or.inl ⟨answer_of_over (Or.inr ⟨hverdict, hover⟩), Or.inr ⟨rfl, hover⟩⟩
      · obtain ⟨hpos, hlimit⟩ := not_or.1 hover
        rw [answer_of_bad hverdict hpos hlimit]
        refine Or.inr (Or.inr ⟨rfl, hpos, hlimit, ?_⟩)
        cases rules.take (rules.key i) l.room with
        | none => exact Or.inr rfl
        | some room => exact Or.inl ⟨room, rfl⟩

theorem mem_kept_answer {other : I} (hkept : other ∈ l.kept) :
    other ∈ (l.answer rules i).kept := by
  rcases answer_cases rules l i with ⟨heq, -⟩ | ⟨heq, -⟩ | ⟨-, -, -, ⟨room, heq⟩ | heq⟩
  all_goals rw [heq]
  · exact hkept
  · exact hkept
  · exact hkept
  · exact List.mem_append_left _ hkept

/-- A transmission that is over stays so. -/
theorem count_answer_of_over (hover : l.count k = 0) : (l.answer rules i).count k = 0 := by
  rcases answer_cases rules l i with ⟨heq, -⟩ | ⟨heq, -⟩ | ⟨-, hpos, -, ⟨room, heq⟩ | heq⟩
  all_goals rw [heq]
  · by_cases hk : k = rules.key i
    · rw [hk]
      exact Function.update_self ..
    · exact (Function.update_of_ne hk ..).trans hover
  · exact hover
  · have hk : k ≠ rules.key i := fun hk => hpos (hk ▸ hover)
    exact (Function.update_of_ne hk ..).trans hover
  · exact hover

theorem count_answer_of_good (hgood : rules.verdict i = .good) :
    (l.answer rules i).count (rules.key i) = 0 := by
  rw [answer_of_over (Or.inl hgood)]
  exact Function.update_self ..

/-! ## One transmission -/

/-- Where what was sent again is read off other items, these are counted. -/
theorem timesResent_eq_countP {S : Type*} {items : List S} {f : S → K × Nat}
    (hitems : items.map f = l.resent) (k : K) (c : Nat) :
    l.timesResent k c = items.countP fun item => f item = (k, c) := by
  unfold timesResent
  rw [← hitems, List.count, List.countP_map]
  refine List.countP_congr fun item _ => ?_
  rw [Function.comp_apply, beq_iff_eq, decide_eq_true_iff]

theorem timesResent_resend {room : R} : (l.resend (rules.key i) room).timesResent k c =
    l.timesResent k c + if rules.key i = k ∧ l.count (rules.key i) = c then 1 else 0 := by
  unfold timesResent resend
  rw [List.count_append, List.count_singleton]
  simp only [beq_iff_eq, Prod.mk.injEq]


/-- The transmission was sent `c` times, and not again. -/
structure Waiting (k : K) (c : Nat) (l : Ledger K I R) : Prop where
  count_eq : l.count k = c
  not_resent : (k, c) ∉ l.resent

/-- After it was sent `c` times the transmission was sent once more, and it is over or was sent
more often since. -/
structure Resent (k : K) (c : Nat) (l : Ledger K I R) : Prop where
  once : l.timesResent k c = 1
  since : l.count k = 0 ∨ c < l.count k

theorem Resent.answer (h : Resent k c l) (i : I) : Resent k c (l.answer rules i) := by
  rcases answer_cases rules l i with ⟨heq, -⟩ | ⟨heq, -⟩ | ⟨-, hpos, -, ⟨room, heq⟩ | heq⟩
  all_goals rw [heq]
  · refine ⟨h.once, ?_⟩
    by_cases hk : k = rules.key i
    · rw [hk]
      exact Or.inl (Function.update_self ..)
    · unfold finish
      dsimp only
      rw [Function.update_of_ne hk]
      exact h.since
  · exact h
  · by_cases hk : k = rules.key i
    · subst hk
      have hlater : c < l.count (rules.key i) := h.since.resolve_left hpos
      refine ⟨?_, Or.inr ?_⟩
      · rw [timesResent_resend, h.once, if_neg fun heq => Nat.ne_of_gt hlater heq.2]
      · show c < Function.update l.count _ _ _
        rw [Function.update_self]
        omega
    · refine ⟨?_, ?_⟩
      · rw [timesResent_resend, h.once, if_neg fun heq => hk heq.1.symm]
      · show Function.update l.count _ _ _ = 0 ∨ c < Function.update l.count _ _ _
        rw [Function.update_of_ne hk]
        exact h.since
  · exact ⟨h.once, h.since⟩

/-- A transmission that waits is sent again, or its bad acknowledgement is kept. -/
theorem Waiting.answer (h : Waiting k c l) (hpos : 0 < c) (hlimit : c < rules.limit)
    (hgood : rules.key i = k → rules.verdict i ≠ .good) :
    Resent k c (l.answer rules i) ∨ Waiting k c (l.answer rules i) ∧
      (rules.key i = k → rules.verdict i = .bad → i ∈ (l.answer rules i).kept) := by
  rcases answer_cases rules l i with ⟨heq, hover⟩ | ⟨heq, hunclear⟩ |
    ⟨-, -, -, ⟨room, heq⟩ | heq⟩
  all_goals rw [heq]
  · have hk : rules.key i ≠ k := by
      intro hk
      rcases hover with hverdict | ⟨-, hzero | hlast⟩
      · exact hgood hk hverdict
      · have := h.count_eq
        rw [← hk, hzero] at this
        omega
      · have := h.count_eq
        rw [← hk, hlast] at this
        omega
    refine Or.inr ⟨⟨?_, h.not_resent⟩, fun heq => (hk heq).elim⟩
    exact (Function.update_of_ne (Ne.symm hk) ..).trans h.count_eq
  · refine Or.inr ⟨h, fun _ hbad => ?_⟩
    rw [hunclear] at hbad
    cases hbad
  · by_cases hk : rules.key i = k
    · subst hk
      refine Or.inl ⟨?_, Or.inr ?_⟩
      · rw [timesResent_resend, if_pos ⟨rfl, h.count_eq⟩]
        exact congrArg (· + 1) (List.count_eq_zero.2 h.not_resent)
      · show c < Function.update l.count _ _ _
        rw [Function.update_self, h.count_eq]
        exact Nat.lt_succ_self c
    · refine Or.inr ⟨⟨?_, ?_⟩, fun heq => (hk heq).elim⟩
      · exact (Function.update_of_ne (Ne.symm hk) ..).trans h.count_eq
      · intro hmem
        rcases List.mem_append.1 hmem with hold | hnew
        · exact h.not_resent hold
        · exact hk (congrArg Prod.fst (List.mem_singleton.1 hnew)).symm
  · exact Or.inr ⟨⟨h.count_eq, h.not_resent⟩,
      fun _ _ => List.mem_append_right _ List.mem_cons_self⟩

/-! ## A list of acknowledgements -/

theorem mem_kept_foldl (infos : List I) (hkept : i ∈ l.kept) :
    i ∈ (infos.foldl (answer rules) l).kept := by
  induction infos generalizing l with
  | nil => exact hkept
  | cons first rest ih => exact ih (mem_kept_answer hkept)

theorem count_foldl_of_over (infos : List I) (hover : l.count k = 0) :
    (infos.foldl (answer rules) l).count k = 0 := by
  induction infos generalizing l with
  | nil => exact hover
  | cons first rest ih => exact ih (count_answer_of_over hover)

theorem Resent.foldl (h : Resent k c l) (infos : List I) :
    Resent k c (infos.foldl (Ledger.answer rules) l) := by
  induction infos generalizing l with
  | nil => exact h
  | cons first rest ih => exact ih (h.answer first)

/-- A transmission that waits was sent again in the end, or every bad acknowledgement of it is
kept. -/
theorem Waiting.foldl (h : Waiting k c l) (hpos : 0 < c) (hlimit : c < rules.limit)
    {infos : List I} (hgood : ∀ i ∈ infos, rules.key i = k → rules.verdict i ≠ .good) :
    Resent k c (infos.foldl (Ledger.answer rules) l) ∨
      Waiting k c (infos.foldl (Ledger.answer rules) l) ∧ ∀ i ∈ infos, rules.key i = k →
        rules.verdict i = .bad → i ∈ (infos.foldl (Ledger.answer rules) l).kept := by
  induction infos generalizing l with
  | nil => exact Or.inr ⟨h, fun i hi => (List.not_mem_nil hi).elim⟩
  | cons first rest ih =>
      rw [List.forall_mem_cons] at hgood
      rw [List.foldl_cons]
      rcases h.answer hpos hlimit hgood.1 with hresent | ⟨hwaiting, hkept⟩
      · exact Or.inl (hresent.foldl rest)
      · refine (ih hwaiting hgood.2).imp_right fun ⟨hrest, hall⟩ => ⟨hrest, ?_⟩
        rw [List.forall_mem_cons]
        refine ⟨fun hk hbad => ?_, hall⟩
        exact mem_kept_foldl rest (hkept hk hbad)

/-- The list is answered up to the stop. -/
theorem exists_answered (rules : Rules K I R) (infos : List I) (l : Ledger K I R) :
    ∃ answered, infos = answered ++ (answerAll rules infos l).2 ∧
      (answerAll rules infos l).1 = answered.foldl (answer rules) l := by
  induction infos generalizing l with
  | nil => exact ⟨[], rfl, rfl⟩
  | cons i rest ih =>
      unfold answerAll
      by_cases hspent : rules.spent l.room = true
      · rw [if_pos hspent]
        exact ⟨[], rfl, rfl⟩
      · rw [if_neg hspent]
        obtain ⟨answered, hinfos, hfinal⟩ := ih (l.answer rules i)
        exact ⟨i :: answered, congrArg (i :: ·) hinfos, hfinal⟩

/-- No acknowledgement is lost exactly if those behind the stop are harmless. -/
theorem settled_iff (rules : Rules K I R) (room : R) (count : K → Nat) (infos : List I) :
    let result := answerAll rules infos { room, count }
    Settled rules count infos result.1 ↔
      ∀ i ∈ result.2, Harmless rules count result.1 i := by
  obtain ⟨answered, hinfos, hfinal⟩ :=
    exists_answered rules infos ({ room, count } : Ledger K I R)
  dsimp only
  generalize (answerAll rules infos { room, count }).1 = final at *
  generalize (answerAll rules infos { room, count }).2 = behind at *
  have hstart : ∀ k, Waiting k (count k) ({ room, count } : Ledger K I R) :=
    fun k => ⟨rfl, List.not_mem_nil⟩
  constructor
  · intro hsettled i hi
    obtain ⟨before, after, rfl⟩ := List.append_of_mem hi
    have hat := hsettled (answered ++ before) i after (by rw [hinfos, List.append_assoc])
    refine ⟨hat.1, fun hbad hpos hsame hlimit => ?_⟩
    -- a good acknowledgement before would have ended the transmission
    have hnogood : ∀ j ∈ answered ++ before, rules.key j = rules.key i →
        rules.verdict j ≠ .good := by
      intro j hj hkey hverdict
      obtain ⟨earlier, later, hsplit⟩ := List.append_of_mem hj
      have hover := (hsettled earlier j (later ++ i :: after) (by
        rw [hinfos, ← List.append_assoc, hsplit, List.append_assoc, List.cons_append])).1 hverdict
      rw [hkey] at hover
      omega
    refine (hat.2 hbad hnogood (hsame ▸ hpos) hlimit).resolve_left fun honce => ?_
    have hended := (hstart (rules.key i)).foldl (hsame ▸ hpos) hlimit
      (fun j hj => hnogood j (List.mem_append_left _ hj))
    rw [← hfinal] at hended
    rcases hended with hresent | ⟨hwaiting, -⟩
    · rcases hresent.since with hzero | hlater <;> omega
    · have hnever := List.count_eq_zero.2 hwaiting.not_resent
      unfold timesResent at honce
      omega
  · intro hharmless before i after hsplit
    have hwhere : (∃ later, answered = before ++ i :: later) ∨
        ∃ more, before = answered ++ more ∧ i ∈ behind := by
      rcases List.append_eq_append_iff.1 (hinfos.symm.trans hsplit) with
        ⟨more, hbefore, hbehind⟩ | ⟨more, hanswered, hbehind⟩
      · exact Or.inr ⟨more, hbefore, hbehind ▸ List.mem_append_right _ List.mem_cons_self⟩
      · cases more with
        | nil =>
            refine Or.inr ⟨[], by rw [hanswered, List.append_nil, List.append_nil], ?_⟩
            rw [List.nil_append] at hbehind
            exact hbehind ▸ List.mem_cons_self
        | cons first later =>
            obtain ⟨rfl, -⟩ := List.cons.inj hbehind
            exact Or.inl ⟨later, hanswered⟩
    rcases hwhere with ⟨later, hanswered⟩ | ⟨more, hbefore, hi⟩
    · -- the acknowledgement was answered
      rw [hanswered, List.foldl_append, List.foldl_cons] at hfinal
      constructor
      · intro hgood
        rw [hfinal]
        exact count_foldl_of_over later (count_answer_of_good hgood)
      · intro hbad hnogood hpos hlimit
        have hall : ∀ j ∈ before ++ [i], rules.key j = rules.key i → rules.verdict j ≠ .good := by
          rw [List.forall_mem_append, List.forall_mem_singleton]
          exact ⟨hnogood, fun _ hgood => by rw [hbad] at hgood; cases hgood⟩
        have hended := (hstart (rules.key i)).foldl hpos hlimit hall
        rw [List.foldl_append, List.foldl_cons, List.foldl_nil] at hended
        rw [hfinal]
        rcases hended with hresent | ⟨-, hkept⟩
        · exact Or.inl (hresent.foldl later).once
        · refine Or.inr (mem_kept_foldl later ?_)
          exact hkept i (List.mem_append_right _ List.mem_cons_self) rfl hbad
    · -- it is behind the stop
      have hlost := hharmless i hi
      refine ⟨hlost.good, fun hbad hnogood hpos hlimit => ?_⟩
      have hended := (hstart (rules.key i)).foldl hpos hlimit
        (fun j hj => hnogood j (hbefore ▸ List.mem_append_left _ hj))
      rw [← hfinal] at hended
      rcases hended with hresent | ⟨hwaiting, -⟩
      · exact Or.inl hresent.once
      · exact Or.inr (hlost.bad hbad (hwaiting.count_eq ▸ hpos) hwaiting.count_eq hlimit)

end Ledger

end Retries
