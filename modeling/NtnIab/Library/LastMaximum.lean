import Mathlib.Data.List.Basic
import Mathlib.Order.Lattice
import Mathlib.Order.Nat

/-!
# The last maximum of a score

A scan over the positions `0, …, n` that replaces its candidate whenever a score is at least as
high ends at the last position of highest score. What the scan finds is said by three facts:
the position is in range, no score is higher, and every later score is lower.

The position moves with the score. If a later position that does not lose to an earlier one under
`f` does not lose to it under `g` either, then the scan of `g` ends no earlier than the scan of
`f`. This is the form in which a family of scores with single crossings gives a monotone choice.
-/

namespace LastMaximum

variable {α : Type*} [LinearOrder α] {f g : ℕ → α} {n i : ℕ}

/-- The last position among `0, …, n` with the highest score. -/
def position (f : ℕ → α) : ℕ → ℕ
  | 0 => 0
  | n + 1 => if f (position f n) ≤ f (n + 1) then n + 1 else position f n

theorem position_succ :
    position f (n + 1) = if f (position f n) ≤ f (n + 1) then n + 1 else position f n := rfl

theorem position_le : position f n ≤ n := by
  induction n with
  | zero => exact le_refl 0
  | succ n ih =>
      rw [position_succ]
      split_ifs
      · exact le_refl _
      · exact ih.trans (Nat.le_succ n)

theorem le_score_position (hi : i ≤ n) : f i ≤ f (position f n) := by
  induction n with
  | zero => rw [Nat.le_zero.1 hi, position]
  | succ n ih =>
      rw [position_succ]
      rcases Nat.of_le_succ hi with hle | rfl
      · split_ifs with hrises
        · exact (ih hle).trans hrises
        · exact ih hle
      · split_ifs with hrises
        · exact le_refl _
        · exact le_of_not_ge hrises

/-- A tie goes to the later position, so every score after the maximum is lower. -/
theorem score_lt_of_position_lt (hlt : position f n < i) (hi : i ≤ n) :
    f i < f (position f n) := by
  induction n with
  | zero => exact absurd (hlt.trans_le hi) (Nat.not_lt_zero _)
  | succ n ih =>
      rw [position_succ] at hlt ⊢
      split_ifs at hlt ⊢ with hrises
      · omega
      · rcases Nat.of_le_succ hi with hle | rfl
        · exact ih hlt hle
        · exact lt_of_not_ge hrises

/-- The three facts determine the position. -/
theorem position_eq_iff :
    position f n = i ↔
      i ≤ n ∧ (∀ j ≤ n, f j ≤ f i) ∧ ∀ j ≤ n, i < j → f j < f i := by
  constructor
  · rintro rfl
    exact ⟨position_le, fun j hj => le_score_position hj,
      fun j hj hlt => score_lt_of_position_lt hlt hj⟩
  · rintro ⟨hi, hmax, hlast⟩
    rcases lt_trichotomy (position f n) i with hlt | heq | hgt
    · exact absurd (hmax _ position_le) (not_le.2 (score_lt_of_position_lt hlt hi))
    · exact heq
    · exact absurd (le_score_position hi) (not_le.2 (hlast _ position_le hgt))

/-- **The choice moves with the score.** -/
theorem position_le_position (hcross : ∀ i j, i < j → j ≤ n → f i ≤ f j → g i ≤ g j) :
    position f n ≤ position g n := by
  by_contra hlt
  rw [not_le] at hlt
  have hbest : f (position g n) ≤ f (position f n) := le_score_position position_le
  have hloses : g (position f n) < g (position g n) := score_lt_of_position_lt hlt position_le
  exact absurd (hcross _ _ hlt position_le hbest) (not_le.2 hloses)

/-! ## The scan as a loop -/

/-- One turn of the loop: the candidate and its score, if there is one yet. -/
def keepBetter (f : ℕ → α) (best : Option (ℕ × α)) (i : ℕ) : Option (ℕ × α) :=
  match best with
  | none => some (i, f i)
  | some (candidate, score) => if score ≤ f i then some (i, f i) else some (candidate, score)

/-- The loop over `0, …, n` ends with the last maximum and its score. -/
theorem foldl_keepBetter :
    (List.range (n + 1)).foldl (keepBetter f) none = some (position f n, f (position f n)) := by
  induction n with
  | zero => rfl
  | succ n ih =>
      rw [List.range_succ, List.foldl_append, ih, List.foldl_cons, List.foldl_nil]
      unfold keepBetter
      dsimp only
      rw [position_succ]
      split_ifs <;> rfl

end LastMaximum
