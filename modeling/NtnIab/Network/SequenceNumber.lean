import Mathlib.Algebra.Group.Int.Defs
import Mathlib.Algebra.Group.Nat.Defs
import Mathlib.Data.Nat.Basic

/-!
# 32-bit counters and sequence numbers

A `SequenceNumber32` is compared modulo the range: a number is greater than another if it is ahead
of it by at most half the range. On numbers that lie within half the range of a base this is the
order of their distances from the base.
-/

namespace NtnIab

/-- A sum of 32-bit numbers. -/
def wrapAdd (a b : Nat) : Nat := (a + b) % 2 ^ 32

/-- A difference of 32-bit numbers. -/
def wrapSub (a b : Nat) : Nat := (a + 2 ^ 32 - b % 2 ^ 32) % 2 ^ 32

theorem wrapSub_of_le {a b : Nat} (hle : b ≤ a) (hlt : a < 2 ^ 32) : wrapSub a b = a - b := by
  unfold wrapSub
  omega

namespace SequenceNumber32

/-- `operator >` -/
def gt (a b : Nat) : Bool :=
  (a > b && a - b ≤ 2 ^ 31 - 1) || (b > a && b - a > 2 ^ 31 - 1)

/-- `operator <=` -/
def le (a b : Nat) : Bool := !gt a b

/-- A conversion to a signed number of 32 bits. -/
def toInt32 (n : Nat) : Int := (n : Int).bmod (2 ^ 32)

theorem toInt32_eq {n : Nat} (hlt : n < 2 ^ 32) :
    toInt32 n = if n < 2 ^ 31 then (n : Int) else n - 2 ^ 32 := by
  unfold toInt32
  rw [Int.bmod_def]
  split <;> split <;> omega

/-- `operator -`, which returns a signed number. -/
def diff (a b : Nat) : Int :=
  if a > b then
    if a - b < 2 ^ 31 - 1 then toInt32 (a - b) else -toInt32 (2 ^ 32 - 1 - a + 1 + b)
  else
    if b - a < 2 ^ 31 - 1 then -toInt32 (b - a) else toInt32 (2 ^ 32 - 1 - b + 1 + a)

/-- How far a number is ahead of the base. -/
def ahead (base a : Nat) : Nat := wrapSub a base

/-- The number is in the half of the range that starts at the base. -/
structure InWindow (base a : Nat) : Prop where
  lt : a < 2 ^ 32
  ahead_lt : ahead base a < 2 ^ 31

instance (base a : Nat) : Decidable (InWindow base a) :=
  decidable_of_iff (a < 2 ^ 32 ∧ ahead base a < 2 ^ 31)
    ⟨fun h => ⟨h.1, h.2⟩, fun h => ⟨h.lt, h.ahead_lt⟩⟩

theorem gt_iff {base a b : Nat} (ha : InWindow base a) (hb : InWindow base b) :
    gt a b = true ↔ ahead base b < ahead base a := by
  obtain ⟨halt, ha⟩ := ha
  obtain ⟨hblt, hb⟩ := hb
  unfold ahead wrapSub at *
  simp only [gt, Bool.or_eq_true, Bool.and_eq_true, decide_eq_true_eq]
  have := Nat.mod_lt base (show 0 < 2 ^ 32 by decide)
  generalize base % 2 ^ 32 = base' at *
  omega

theorem le_iff {base a b : Nat} (ha : InWindow base a) (hb : InWindow base b) :
    le a b = true ↔ ahead base a ≤ ahead base b := by
  have hgt := gt_iff ha hb
  unfold le
  cases hcase : gt a b <;> simp_all

theorem ahead_inj {base a b : Nat} (ha : InWindow base a) (hb : InWindow base b)
    (heq : ahead base a = ahead base b) : a = b := by
  obtain ⟨halt, ha⟩ := ha
  obtain ⟨hblt, hb⟩ := hb
  unfold ahead wrapSub at *
  have := Nat.mod_lt base (show 0 < 2 ^ 32 by decide)
  generalize base % 2 ^ 32 = base' at *
  omega

/-- The difference of two numbers is the difference of their distances from the base. -/
theorem diff_eq {base a b : Nat} (ha : InWindow base a) (hb : InWindow base b) :
    diff a b = ahead base a - ahead base b := by
  obtain ⟨halt, ha⟩ := ha
  obtain ⟨hblt, hb⟩ := hb
  unfold ahead wrapSub at *
  have := Nat.mod_lt base (show 0 < 2 ^ 32 by decide)
  generalize base % 2 ^ 32 = base' at *
  unfold diff
  split
  · split
    · rw [toInt32_eq (by omega), if_pos (by omega)]
      omega
    · rw [toInt32_eq (by omega)]
      split <;> omega
  · split
    · rw [toInt32_eq (by omega), if_pos (by omega)]
      omega
    · rw [toInt32_eq (by omega)]
      split <;> omega

/-- The number before one that is not the base. -/
theorem exists_pred {base a : Nat} (ha : InWindow base a) (hpos : 0 < ahead base a) :
    ∃ pred, wrapSub a 1 = pred ∧ InWindow base pred ∧ ahead base pred = ahead base a - 1 := by
  obtain ⟨halt, ha⟩ := ha
  have hpred : ahead base (wrapSub a 1) = ahead base a - 1 := by
    unfold ahead wrapSub at *
    have := Nat.mod_lt base (show 0 < 2 ^ 32 by decide)
    generalize base % 2 ^ 32 = base' at *
    omega
  refine ⟨_, rfl, ⟨Nat.mod_lt _ (by decide), ?_⟩, hpred⟩
  omega

end SequenceNumber32

end NtnIab
