import Mathlib.Data.List.Basic

/-!
# Searching a row of cells by leaps

Some cells of a row are busy. A search for a number of free cells next to each other looks at that
many of them from one place on. If one of them is busy, it does not move on by one cell: it leaps
over all of them, to the first free cell behind. The places where it looks therefore depend on the
whole row, and free cells that begin in the middle of a leap are never seen.
-/

namespace Leaps

variable {busy : Nat → Prop} {n start place : Nat}

/-- The `n` cells from `start` on are free. -/
def Free (busy : Nat → Prop) (n start : Nat) : Prop :=
  ∀ i, start ≤ i → i < start + n → ¬ busy i

/-- The first free cell from `start` on. -/
structure FirstFree (busy : Nat → Prop) (start cell : Nat) : Prop where
  le : start ≤ cell
  free : ¬ busy cell
  busy_before : ∀ i, start ≤ i → i < cell → busy i

/-- A search for `n` cells that begins at one place looks at the other one, if it finds nothing
before. -/
inductive Leads (busy : Nat → Prop) (n : Nat) : Nat → Nat → Prop
  | here {start : Nat} : Leads busy n start start
  | leap {start next place : Nat} (first : FirstFree busy (start + n) next)
      (rest : Leads busy n next place) : Leads busy n start place

theorem FirstFree.unique {cell other : Nat} (h : FirstFree busy start cell)
    (hother : FirstFree busy start other) : cell = other := by
  rcases Nat.lt_trichotomy cell other with hlt | heq | hgt
  · exact (h.free (hother.busy_before cell h.le hlt)).elim
  · exact heq
  · exact (hother.free (h.busy_before other hother.le hgt)).elim

theorem Leads.le (h : Leads busy n start place) : start ≤ place := by
  induction h with
  | here => exact Nat.le_refl _
  | leap first _ ih => exact Nat.le_trans (Nat.le_of_add_right_le first.le) ih

/-- Where a search looks that does not stay at its first place. -/
theorem Leads.next {cell : Nat} (h : Leads busy n start place) (hne : start ≠ place)
    (hcell : FirstFree busy (start + n) cell) : Leads busy n cell place := by
  cases h with
  | here => exact (hne rfl).elim
  | leap first rest =>
      rw [hcell.unique first]
      exact rest

/-! ## Rows of bits -/

/-- What is taken of a list ends before an element that fails the test. -/
theorem getElem?_length_takeWhile {α : Type*} {p : α → Bool} {xs : List α} {x : α}
    (hget : xs[(xs.takeWhile p).length]? = some x) : p x = false := by
  induction xs with
  | nil => cases hget
  | cons y rest ih =>
      cases hy : p y with
      | false =>
          rw [List.takeWhile_cons, hy] at hget
          exact Option.some.inj hget ▸ hy
      | true =>
          rw [List.takeWhile_cons, hy] at hget
          exact ih hget

/-- The elements that are taken pass the test. -/
theorem getElem?_of_lt_takeWhile {α : Type*} {p : α → Bool} {xs : List α} {i : Nat}
    (hlt : i < (xs.takeWhile p).length) : ∃ x, xs[i]? = some x ∧ p x = true := by
  induction xs generalizing i with
  | nil => cases hlt
  | cons y rest ih =>
      cases hy : p y with
      | false =>
          rw [List.takeWhile_cons, hy] at hlt
          cases hlt
      | true =>
          rw [List.takeWhile_cons, hy] at hlt
          cases i with
          | zero => exact ⟨y, rfl, hy⟩
          | succ k => exact ih (Nat.lt_of_succ_lt_succ hlt)

/-- The first free cell of a row of bits, in which the busy ones are set. -/
theorem firstFree_takeWhile {bits : List Bool} :
    FirstFree (fun i => bits[i]? = some true) start
      (start + ((bits.drop start).takeWhile fun bit => bit).length) where
  le := Nat.le_add_right _ _
  free := by
    intro hset
    rw [← List.getElem?_drop] at hset
    cases getElem?_length_takeWhile hset
  busy_before := by
    intro i hle hlt
    obtain ⟨k, rfl⟩ := Nat.exists_eq_add_of_le hle
    obtain ⟨bit, hget, hbit⟩ := getElem?_of_lt_takeWhile (Nat.lt_of_add_lt_add_left hlt)
    rw [← List.getElem?_drop, hget, show bit = true from hbit]

/-- The bits that are read up to the first one that is set are as many as wanted exactly if none
of these is set. -/
theorem le_length_takeWhile_iff {bits : List Bool} (hin : start + n ≤ bits.length) :
    n ≤ (((bits.drop start).take n).takeWhile fun bit => !bit).length ↔
      Free (fun i => bits[i]? = some true) n start := by
  have hget : ∀ i, i < n → ((bits.drop start).take n)[i]? = bits[start + i]? := fun i hi => by
    rw [List.getElem?_take_of_lt hi, List.getElem?_drop]
  constructor
  · intro hle i hi hlt hset
    obtain ⟨k, rfl⟩ := Nat.exists_eq_add_of_le hi
    obtain ⟨bit, hbit, hclear⟩ :=
      getElem?_of_lt_takeWhile (Nat.lt_of_lt_of_le (Nat.lt_of_add_lt_add_left hlt) hle)
    rw [hget k (Nat.lt_of_add_lt_add_left hlt), hset] at hbit
    rw [← Option.some.inj hbit] at hclear
    cases hclear
  · intro hfree
    by_contra hshort
    have hlt := Nat.lt_of_not_le hshort
    have hread := (hget _ hlt).trans (List.getElem?_eq_getElem
      (Nat.lt_of_lt_of_le (Nat.add_lt_add_left hlt start) hin))
    have hset := getElem?_length_takeWhile hread
    rw [Bool.not_eq_false'] at hset
    refine hfree _ (Nat.le_add_right _ _) (Nat.add_lt_add_left hlt start) ?_
    exact (hget _ hlt).symm.trans (hread.trans (congrArg some hset))

/-- Whether one of the next bits is set. -/
theorem any_eq_true_iff {bits : List Bool} :
    (((bits.drop start).take n).any fun bit => bit) = true ↔
      ¬ Free (fun i => bits[i]? = some true) n start := by
  rw [List.any_eq_true]
  constructor
  · rintro ⟨bit, hmem, rfl⟩ hfree
    obtain ⟨k, hk⟩ := List.mem_iff_getElem?.1 hmem
    have hkn : k < n := by
      have := (List.getElem?_eq_some_iff.1 hk).1
      rw [List.length_take] at this
      omega
    rw [List.getElem?_take_of_lt hkn, List.getElem?_drop] at hk
    exact hfree (start + k) (by omega) (by omega) hk
  · intro hnot
    unfold Free at hnot
    push Not at hnot
    obtain ⟨i, hi, hlt, hset⟩ := hnot
    obtain ⟨k, rfl⟩ := Nat.exists_eq_add_of_le hi
    refine ⟨true, List.mem_of_getElem? (i := k) ?_, rfl⟩
    rw [List.getElem?_take_of_lt (by omega), List.getElem?_drop, hset]

end Leaps
