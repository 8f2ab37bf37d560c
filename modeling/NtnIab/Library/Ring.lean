import Mathlib.Data.List.Nodup
import Mathlib.Data.List.Rotate
import Mathlib.Data.Nat.ModEq
import NtnIab.Library.Fallible

/-!
# A loop around a ring

A loop goes over the positions of a ring with an iterator. Each turn works on a state; it may fail,
and otherwise says whether the iterator moves on. After the turn the loop ends if the iterator is
where the loop began.

A loop whose turns all move makes one lap. A turn that does not move ends the loop at the first
position, and is followed by a turn at the same position everywhere else.
-/

namespace Ring

open Fallible

universe u

variable {σ ε : Type u} {length start it k m steps : Nat}
  {turn : Nat → σ → Except ε (σ × Bool)} {s s' : σ} {visits visits' : List Nat}
  {result result' : Except ε σ}

/-- The position after one. -/
def next (length it : Nat) : Nat := if it + 1 = length then 0 else it + 1

/-- The loop, if it ends in the given number of turns: where its turns were, and what it leaves. -/
def walk (length start : Nat) (turn : Nat → σ → Except ε (σ × Bool)) :
    Nat → Nat → σ → List Nat → Option (List Nat × Except ε σ)
  | 0, _, _, _ => none
  | steps + 1, it, s, visits =>
      match turn it s with
      | .error e => some (visits ++ [it], .error e)
      | .ok (s, moves) =>
          let it' := if moves then next length it else it
          if it' = start then some (visits ++ [it], .ok s)
          else walk length start turn steps it' s (visits ++ [it])

/-- The loop ends after turns at `visits`. -/
def Ends (length start : Nat) (turn : Nat → σ → Except ε (σ × Bool)) (s : σ) (visits : List Nat)
    (result : Except ε σ) : Prop :=
  ∃ steps, walk length start turn steps start s [] = some (visits, result)

/-- The loop ends, has no position twice, and leaves none out unless it fails. -/
def VisitsOnce (length start : Nat) (turn : Nat → σ → Except ε (σ × Bool)) (s : σ) : Prop :=
  ∃ visits result, Ends length start turn s visits result ∧ visits.Nodup ∧
    ∀ s', result = .ok s' → ∀ it < length, it ∈ visits

/-- The positions from the `k`-th one after the start on. -/
def legs (length start k m : Nat) : List Nat :=
  (List.range' k m).map fun j => (start + j) % length

/-- All positions, from the start on. -/
def lap (length start : Nat) : List Nat := legs length start 0 length

/-- Every turn at these positions, one after the other, moves on or fails. -/
def Moves (turn : Nat → σ → Except ε (σ × Bool)) : List Nat → σ → Prop
  | [], _ => True
  | it :: rest, s => ∀ s' moves, turn it s = .ok (s', moves) → moves = true ∧ Moves turn rest s'

/-- The turns at these positions, one after the other. -/
def follow (turn : Nat → σ → Except ε (σ × Bool)) (positions : List Nat) (s : σ) : Except ε σ :=
  positions.foldlM (fun s it => (turn it s).map (·.1)) s

theorem moves_of_forall (hmoves : ∀ it s s' moves, turn it s = .ok (s', moves) → moves = true)
    (positions : List Nat) (s : σ) : Moves turn positions s := by
  induction positions generalizing s with
  | nil => trivial
  | cons it rest ih => exact fun s' moves hturn => ⟨hmoves it s s' moves hturn, ih s'⟩

/-! ## Positions -/

theorem legs_succ : legs length start k (m + 1) =
    (start + k) % length :: legs length start (k + 1) m := rfl

theorem next_mod (hlength : 0 < length) :
    next length ((start + k) % length) = (start + (k + 1)) % length := by
  unfold next
  have hlt := Nat.mod_lt (start + k) hlength
  have hmod : (start + (k + 1)) % length = ((start + k) % length + 1) % length := by
    rw [Nat.mod_add_mod, Nat.add_assoc]
  rw [hmod]
  split_ifs with hlast
  · rw [hlast, Nat.mod_self]
  · exact (Nat.mod_eq_of_lt (by omega)).symm

/-- The loop is back where it began after a whole lap. -/
theorem mod_eq_start_iff (hstart : start < length) (hk : k ≤ length) :
    (start + k) % length = start ↔ k = 0 ∨ k = length := by
  constructor
  · intro heq
    rcases Nat.lt_or_ge (start + k) length with hlt | hge
    · rw [Nat.mod_eq_of_lt hlt] at heq
      omega
    · rw [Nat.mod_eq_sub_mod hge, Nat.mod_eq_of_lt (by omega)] at heq
      omega
  · rintro (rfl | rfl)
    · exact Nat.mod_eq_of_lt hstart
    · rw [Nat.add_mod_right, Nat.mod_eq_of_lt hstart]

theorem nodup_lap : (lap length start).Nodup := by
  unfold lap legs
  refine List.Nodup.map_on ?_ List.nodup_range'
  intro a ha b hb heq
  rw [List.mem_range'_1] at ha hb
  have hmod : a % length = b % length := Nat.ModEq.add_left_cancel' start heq
  rwa [Nat.mod_eq_of_lt (by omega), Nat.mod_eq_of_lt (by omega)] at hmod

theorem mem_lap (hstart : start < length) (hit : it < length) : it ∈ lap length start := by
  unfold lap legs
  rw [List.mem_map]
  rcases Nat.lt_or_ge it start with hbefore | hafter
  · refine ⟨it + length - start, List.mem_range'_1.2 (by omega), ?_⟩
    rw [show start + (it + length - start) = it + length by omega, Nat.add_mod_right,
      Nat.mod_eq_of_lt hit]
  · refine ⟨it - start, List.mem_range'_1.2 (by omega), ?_⟩
    rw [show start + (it - start) = it by omega, Nat.mod_eq_of_lt hit]

/-- The elements of a list at the positions of a lap. -/
theorem map_lap {α : Type*} (items : List α) (start : Nat) :
    (lap items.length start).map (items[·]?) = (items.rotate start).map some := by
  apply List.ext_getElem?
  intro i
  unfold lap legs
  rw [List.map_map, List.getElem?_map, List.getElem?_map]
  rcases Nat.lt_or_ge i items.length with hi | hi
  · rw [List.getElem?_range' hi, List.getElem?_rotate hi]
    have hpos := Nat.mod_lt (i + start) (show 0 < items.length by omega)
    simp [Nat.add_comm start i, List.getElem?_eq_getElem hpos]
  · rw [List.getElem?_eq_none (by simpa using hi), List.getElem?_eq_none (by simpa using hi)]
    rfl

/-! ## Loops -/

theorem walk_error {e : ε} (hturn : turn it s = .error e) :
    walk length start turn (steps + 1) it s visits = some (visits ++ [it], .error e) := by
  rw [walk, hturn]

theorem walk_ok {moves : Bool} (hturn : turn it s = .ok (s', moves)) :
    walk length start turn (steps + 1) it s visits =
      if (if moves then next length it else it) = start then some (visits ++ [it], .ok s')
      else walk length start turn steps (if moves then next length it else it) s'
        (visits ++ [it]) := by
  rw [walk, hturn]

/-- More turns than the loop needs make no difference. -/
theorem walk_mono {more : Nat} (hle : steps ≤ more) {out : List Nat × Except ε σ}
    (hwalk : walk length start turn steps it s visits = some out) :
    walk length start turn more it s visits = some out := by
  induction steps generalizing more it s visits with
  | zero => cases hwalk
  | succ steps ih =>
      obtain ⟨more, rfl⟩ : ∃ rest, more = rest + 1 := ⟨more - 1, by omega⟩
      cases hturn : turn it s with
      | error e => rwa [walk_error hturn] at hwalk ⊢
      | ok out' =>
          obtain ⟨s', moves⟩ := out'
          rw [walk_ok hturn] at hwalk ⊢
          split_ifs at hwalk ⊢ with hend
          all_goals first | exact hwalk | exact ih (Nat.le_of_succ_le_succ hle) hwalk

theorem Ends.unique (h : Ends length start turn s visits result)
    (h' : Ends length start turn s visits' result') : visits' = visits ∧ result' = result := by
  obtain ⟨steps, hwalk⟩ := h
  obtain ⟨steps', hwalk'⟩ := h'
  have hmore := walk_mono (Nat.le_max_left steps steps') hwalk
  have hmore' := walk_mono (Nat.le_max_right steps steps') hwalk'
  rw [hmore] at hmore'
  exact ⟨(Prod.mk.inj (Option.some.inj hmore')).1.symm, (Prod.mk.inj (Option.some.inj hmore')).2.symm⟩

theorem prefix_of_walk (hwalk : walk length start turn steps it s visits = some (visits', result)) :
    visits ++ [it] <+: visits' := by
  induction steps generalizing it s visits with
  | zero => cases hwalk
  | succ steps ih =>
      cases hturn : turn it s with
      | error e =>
          rw [walk_error hturn] at hwalk
          obtain ⟨rfl, -⟩ := Prod.mk.inj (Option.some.inj hwalk)
          exact List.prefix_refl _
      | ok out =>
          obtain ⟨s', moves⟩ := out
          rw [walk_ok hturn] at hwalk
          split_ifs at hwalk
          all_goals first
            | exact (List.prefix_append _ _).trans (ih hwalk)
            | (obtain ⟨rfl, -⟩ := Prod.mk.inj (Option.some.inj hwalk)
               exact List.prefix_refl _)

/-- A loop whose turns all move follows the positions that are left of its lap. -/
theorem walk_of_moves (visits : List Nat) (hstart : start < length) (hm : k + m = length)
    (hpos : 0 < m) (hmoves : Moves turn (legs length start k m) s) :
    ∃ more, walk length start turn m ((start + k) % length) s visits =
      some (visits ++ more, follow turn (legs length start k m) s) ∧
      more <+: legs length start k m ∧
      ∀ s', follow turn (legs length start k m) s = .ok s' → more = legs length start k m := by
  induction m generalizing k s visits with
  | zero => exact absurd hpos (Nat.lt_irrefl 0)
  | succ m ih =>
      rw [legs_succ] at hmoves ⊢
      unfold follow
      rw [List.foldlM_cons]
      cases hturn : turn ((start + k) % length) s with
      | error e =>
          refine ⟨[(start + k) % length], walk_error hturn, by simp, fun s' hs' => by cases hs'⟩
      | ok out =>
          obtain ⟨s', moves⟩ := out
          obtain ⟨rfl, hrest⟩ := hmoves s' moves hturn
          rw [walk_ok hturn, if_pos rfl, next_mod (Nat.zero_lt_of_lt hstart)]
          rcases Nat.eq_zero_or_pos m with rfl | hm'
          · -- the lap is complete
            rw [if_pos ((mod_eq_start_iff hstart (by omega)).2 (Or.inr (by omega)))]
            exact ⟨[(start + k) % length], rfl, List.prefix_refl _, fun _ _ => rfl⟩
          · rw [if_neg (mt (mod_eq_start_iff hstart (by omega)).1 (by omega))]
            obtain ⟨more, hwalk, hprefix, hall⟩ :=
              ih (visits ++ [(start + k) % length]) (by omega) hm' hrest
            refine ⟨(start + k) % length :: more, ?_, ?_, ?_⟩
            · rw [hwalk, List.append_assoc]
              rfl
            · exact (List.cons_prefix_cons).2 ⟨rfl, hprefix⟩
            · intro s'' hs''
              rw [hall s'' hs'']

/-- A loop with no position twice, which leaves none out unless it fails, moves in every turn. -/
theorem moves_of_walk (steps : Nat) (hstart : start < length) (htwo : length ≠ 1) (hm : k + m = length)
    (hfirst : k = 0 → visits = [])
    (hwalk : walk length start turn steps ((start + k) % length) s visits =
      some (visits', result))
    (hnodup : visits'.Nodup) (hall : ∀ s', result = .ok s' → ∀ it < length, it ∈ visits') :
    Moves turn (legs length start k m) s := by
  induction m generalizing k s visits steps with
  | zero => trivial
  | succ m ih =>
      rw [legs_succ]
      intro s' moves hturn
      cases steps with
      | zero => cases hwalk
      | succ steps =>
          rw [walk_ok hturn] at hwalk
          cases moves with
          | false =>
              exfalso
              rw [if_neg Bool.false_ne_true] at hwalk
              split_ifs at hwalk with hend
              · -- the loop ended at its first position
                obtain rfl : k = 0 := by
                  have := (mod_eq_start_iff hstart (by omega)).1 hend
                  omega
                obtain ⟨rfl, rfl⟩ := Prod.mk.inj (Option.some.inj hwalk)
                rw [hfirst rfl, hend] at hall
                have h0 := hall s' rfl 0 (by omega)
                have h1 := hall s' rfl 1 (by omega)
                simp only [List.nil_append, List.mem_singleton] at h0 h1
                omega
              · -- the next turn is at the same position
                have htwice := (prefix_of_walk hwalk).sublist.nodup hnodup
                have hmem : (start + k) % length ∈ visits ++ [(start + k) % length] := by simp
                exact (List.nodup_append.1 htwice).2.2 _ hmem _ List.mem_cons_self rfl
          | true =>
              refine ⟨rfl, ?_⟩
              rw [if_pos rfl, next_mod (Nat.zero_lt_of_lt hstart)] at hwalk
              split_ifs at hwalk with hend
              · have := (mod_eq_start_iff hstart (by omega)).1 hend
                obtain rfl : m = 0 := by omega
                trivial
              · exact ih steps (by omega) (fun h => absurd h (Nat.succ_ne_zero k)) hwalk

/-- A loop whose turns all move makes one lap, up to a failure. -/
theorem ends_of_moves (hstart : start < length) (hmoves : Moves turn (lap length start) s) :
    ∃ visits, Ends length start turn s visits (follow turn (lap length start) s) ∧
      visits <+: lap length start ∧
      ∀ s', follow turn (lap length start) s = .ok s' → visits = lap length start := by
  obtain ⟨more, hwalk, hprefix, hall⟩ := walk_of_moves [] hstart
    (Nat.zero_add length) (Nat.zero_lt_of_lt hstart) hmoves
  rw [Nat.add_zero, Nat.mod_eq_of_lt hstart] at hwalk
  exact ⟨more, ⟨length, hwalk⟩, hprefix, hall⟩

/-- A ring of one position is left after one turn. -/
theorem visitsOnce_one : VisitsOnce 1 0 turn s := by
  cases hturn : turn 0 s with
  | error e =>
      exact ⟨_, _, ⟨1, walk_error hturn⟩, List.nodup_singleton 0, fun s' hs' => by cases hs'⟩
  | ok out =>
      obtain ⟨s', moves⟩ := out
      refine ⟨[0], .ok s', ⟨1, ?_⟩, List.nodup_singleton 0, fun _ _ it hit => ?_⟩
      · rw [walk_ok hturn]
        cases moves <;> rfl
      · exact List.mem_singleton.2 (Nat.lt_one_iff.1 hit)

/-- A loop visits every position once exactly if all its turns move, or there is one position. -/
theorem visitsOnce_iff (hstart : start < length) :
    VisitsOnce length start turn s ↔ length = 1 ∨ Moves turn (lap length start) s := by
  constructor
  · rintro ⟨visits, result, ⟨steps, hwalk⟩, hnodup, hall⟩
    by_cases hone : length = 1
    · exact Or.inl hone
    · refine Or.inr (moves_of_walk steps hstart hone (Nat.zero_add length) (fun _ => rfl) ?_
        hnodup hall)
      rwa [Nat.add_zero, Nat.mod_eq_of_lt hstart]
  · rintro (rfl | hmoves)
    · obtain rfl : start = 0 := Nat.lt_one_iff.1 hstart
      exact visitsOnce_one
    · obtain ⟨visits, hends, hprefix, hlap⟩ := ends_of_moves hstart hmoves
      refine ⟨visits, _, hends, hprefix.sublist.nodup nodup_lap, fun s' hs' it hit => ?_⟩
      rw [hlap s' hs']
      exact mem_lap hstart hit

end Ring
