import Mathlib.Data.List.GetD

/-!
# Families of lists

A list of lists holds the elements of its lists. Rewriting the list at one index keeps what the
other lists hold, so only the rewritten list has to be looked at.
-/

namespace ListFamily

variable {α : Type*} {family : List (List α)} {i : Nat} {f : List α → List α}

/-- Some list of the family has an element with the property. -/
def Some (family : List (List α)) (P : α → Prop) : Prop :=
  ∃ items ∈ family, ∃ item ∈ items, P item

/-- Every element of every list of the family has the property. -/
def All (family : List (List α)) (P : α → Prop) : Prop :=
  ∀ items ∈ family, ∀ item ∈ items, P item

theorem mem_modify {items : List α} (hmem : items ∈ family.modify i f) :
    items ∈ family ∨ (i < family.length ∧ items = f (family.getD i [])) := by
  obtain ⟨j, hj, rfl⟩ := List.getElem_of_mem hmem
  rw [List.length_modify] at hj
  rw [List.getElem_modify]
  by_cases heq : i = j
  · subst heq
    rw [if_pos rfl]
    refine .inr ⟨hj, ?_⟩
    rw [List.getD_eq_getElem _ _ hj]
  · rw [if_neg heq]
    exact .inl (List.getElem_mem hj)

theorem All.modify {P : α → Prop} (hall : All family P)
    (hf : ∀ item ∈ f (family.getD i []), P item) : All (family.modify i f) P := by
  intro items hmem item hitem
  rcases mem_modify hmem with hold | ⟨-, rfl⟩
  · exact hall items hold item hitem
  · exact hf item hitem

/-- The elements of the list at an index are elements of the family. -/
theorem All.getD {P : α → Prop} (hall : All family P) (i : Nat) :
    ∀ item ∈ family.getD i [], P item := by
  by_cases hlt : i < family.length
  · rw [List.getD_eq_getElem _ _ hlt]
    exact hall _ (List.getElem_mem hlt)
  · rw [List.getD_eq_default _ _ (Nat.le_of_not_lt hlt)]
    simp

/-- What some list holds, some list holds after a rewriting that keeps it. -/
theorem Some.modify {P : α → Prop} (hsome : Some family P)
    (hf : ∀ item ∈ family.getD i [], P item → ∃ item' ∈ f (family.getD i []), P item') :
    Some (family.modify i f) P := by
  obtain ⟨items, hmem, item, hitem, hP⟩ := hsome
  obtain ⟨j, hj, rfl⟩ := List.getElem_of_mem hmem
  have hj' : j < (family.modify i f).length := by rwa [List.length_modify]
  refine ⟨(family.modify i f)[j], List.getElem_mem hj', ?_⟩
  rw [List.getElem_modify]
  by_cases heq : i = j
  · subst heq
    rw [if_pos rfl]
    rw [List.getD_eq_getElem _ _ hj] at hf
    exact hf item hitem hP
  · rw [if_neg heq]
    exact ⟨item, hitem, hP⟩

/-- The rewritten list is a list of the family. -/
theorem Some.of_modify {P : α → Prop} (hlt : i < family.length) {item : α}
    (hitem : item ∈ f (family.getD i [])) (hP : P item) : Some (family.modify i f) P := by
  have hlt' : i < (family.modify i f).length := by rwa [List.length_modify]
  refine ⟨(family.modify i f)[i], List.getElem_mem hlt', item, ?_, hP⟩
  rw [List.getElem_modify, if_pos rfl]
  rwa [List.getD_eq_getElem _ _ hlt] at hitem

theorem Some.imp {P Q : α → Prop} (hsome : Some family P) (himp : ∀ item, P item → Q item) :
    Some family Q := by
  obtain ⟨items, hmem, item, hitem, hP⟩ := hsome
  exact ⟨items, hmem, item, hitem, himp item hP⟩

end ListFamily
