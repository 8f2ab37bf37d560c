import Mathlib.Data.List.Nodup

/-!
# Maps that are only looked up

A map over which nothing walks is the function from its keys to what it holds for them. An
assignment adds an entry or replaces the one that is there.
-/

abbrev Lookup (κ α : Type*) := κ → Option α

namespace Lookup

variable {κ α ι : Type*} [DecidableEq κ] {m : Lookup κ α} {key k : κ} {a : α}

def empty : Lookup κ α := fun _ => none

def assign (key : κ) (a : α) (m : Lookup κ α) : Lookup κ α :=
  fun k => if k = key then some a else m k

def erase (key : κ) (m : Lookup κ α) : Lookup κ α :=
  fun k => if k = key then none else m k

omit [DecidableEq κ] in
@[simp] theorem empty_apply : (empty : Lookup κ α) k = none := rfl

@[simp] theorem assign_apply : m.assign key a k = if k = key then some a else m k := rfl

@[simp] theorem erase_apply : m.erase key k = if k = key then none else m k := rfl

theorem assign_self : m.assign key a key = some a := if_pos rfl

theorem assign_of_ne (hne : k ≠ key) : m.assign key a k = m k := if_neg hne

theorem erase_of_ne (hne : k ≠ key) : m.erase key k = m k := if_neg hne

/-! ## Many keys at once

A loop over the items of a list, of whose state one component is a map.
-/

section
variable {σ : Type*} (p : σ → Lookup κ α) {step : σ → ι → σ} {keyOf : ι → κ} {valueOf : ι → α}

/-- A loop that erases the keys of its items. -/
theorem foldl_erase {items : List ι}
    (hstep : ∀ s, ∀ i ∈ items, p (step s i) = (p s).erase (keyOf i)) (s : σ) (k : κ) :
    p (items.foldl step s) k = if k ∈ items.map keyOf then none else p s k := by
  induction items generalizing s with
  | nil => rfl
  | cons i rest ih =>
      rw [List.foldl_cons, ih (fun s j hj => hstep s j (List.mem_cons_of_mem _ hj)),
        hstep s i List.mem_cons_self, erase_apply, List.map_cons]
      by_cases hrest : k ∈ rest.map keyOf
      · rw [if_pos hrest, if_pos (List.mem_cons_of_mem _ hrest)]
      · rw [if_neg hrest]
        by_cases hi : k = keyOf i
        · rw [if_pos hi, if_pos (hi ▸ List.mem_cons_self)]
        · rw [if_neg hi, if_neg fun hmem => (List.mem_cons.1 hmem).elim hi hrest]

/-- A loop that assigns the keys of its items leaves every other key as it is. -/
theorem foldl_assign_of_not_mem
    (hstep : ∀ s i, p (step s i) = (p s).assign (keyOf i) (valueOf i)) {items : List ι} {s : σ}
    (hk : k ∉ items.map keyOf) : p (items.foldl step s) k = p s k := by
  induction items generalizing s with
  | nil => rfl
  | cons i rest ih =>
      rw [List.map_cons, List.mem_cons, not_or] at hk
      rw [List.foldl_cons, ih hk.2, hstep, assign_of_ne hk.1]

/-- A key that an item assigns has in the end the value of an item with that key. -/
theorem foldl_assign_of_mem
    (hstep : ∀ s i, p (step s i) = (p s).assign (keyOf i) (valueOf i)) {items : List ι} {s : σ}
    (hk : k ∈ items.map keyOf) :
    ∃ i ∈ items, keyOf i = k ∧ p (items.foldl step s) k = some (valueOf i) := by
  induction items generalizing s with
  | nil => exact (List.not_mem_nil hk).elim
  | cons i rest ih =>
      rw [List.foldl_cons]
      by_cases hrest : k ∈ rest.map keyOf
      · obtain ⟨j, hj, hkey, hvalue⟩ := ih (s := step s i) hrest
        exact ⟨j, List.mem_cons_of_mem _ hj, hkey, hvalue⟩
      · have hi : k = keyOf i := by
          rw [List.map_cons, List.mem_cons] at hk
          exact hk.resolve_right hrest
        refine ⟨i, List.mem_cons_self, hi.symm, ?_⟩
        rw [foldl_assign_of_not_mem p hstep hrest, hstep, hi]
        exact assign_self

/-- If no two items have the same key, each key has the value of its own item. -/
theorem foldl_assign_of_nodup
    (hstep : ∀ s i, p (step s i) = (p s).assign (keyOf i) (valueOf i)) {items : List ι} {s : σ}
    (hnodup : (items.map keyOf).Nodup) {i : ι} (hi : i ∈ items) :
    p (items.foldl step s) (keyOf i) = some (valueOf i) := by
  obtain ⟨j, hj, hkey, hvalue⟩ := foldl_assign_of_mem p hstep (s := s) (List.mem_map_of_mem hi)
  rwa [List.inj_on_of_nodup_map hnodup hj hi hkey] at hvalue

end

end Lookup
