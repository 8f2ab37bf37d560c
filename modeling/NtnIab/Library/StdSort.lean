import Mathlib.Data.List.Sort

/-!
# Sorting that is not stable

A sort by a comparison puts the elements in order, and leaves open in which order those come that
compare as equal. What is proved for every such sort does not depend on it. Merge sort is one of
them.
-/

variable {α : Type*}

/-- A comparison orders the elements in classes: of two elements at most one is less, and not to
be less is transitive. -/
structure StrictWeak (lt : α → α → Bool) : Prop where
  asymm : ∀ a b, lt a b = true → lt b a = false
  trans : ∀ a b c, lt b a = false → lt c b = false → lt c a = false

structure StdSort (α : Type*) where
  sort : (α → α → Bool) → List α → List α
  perm : ∀ lt items, (sort lt items).Perm items
  sorted : ∀ lt items, StrictWeak lt → (sort lt items).Pairwise fun a b => lt b a = false

namespace StdSort

variable {lt : α → α → Bool} {items : List α} {a : α}

/-- Merge sort, which keeps the order of elements that compare as equal. -/
def stable : StdSort α where
  sort lt items := items.mergeSort fun a b => !lt b a
  perm _ _ := List.mergeSort_perm _ _
  sorted lt items hlt := by
    have hsorted : (items.mergeSort fun a b => !lt b a).Pairwise fun a b => !lt b a := by
      refine List.pairwise_mergeSort (fun a b c hab hbc => ?_) (fun a b => ?_) items
      · rw [Bool.not_eq_true'] at hab hbc ⊢
        exact hlt.trans a b c hab hbc
      · cases hab : lt b a with
        | false => rfl
        | true => simp [hlt.asymm b a hab]
    exact hsorted.imp fun hab => by simpa using hab

/-- Insertion sort, which is run by its recursion. -/
def insertion : StdSort α where
  sort lt items := items.insertionSort fun a b => lt b a = false
  perm _ items := List.perm_insertionSort _ items
  sorted lt items hlt := by
    have htotal : Std.Total fun a b : α => lt b a = false := by
      refine ⟨fun a b => ?_⟩
      cases hba : lt b a with
      | false => exact Or.inl rfl
      | true => exact Or.inr (hlt.asymm b a hba)
    have htrans : IsTrans α fun a b => lt b a = false :=
      ⟨fun a b c hab hbc => hlt.trans a b c hab hbc⟩
    exact List.pairwise_insertionSort _ items

/-- A smaller element comes first in every sort. -/
theorem not_sublist_sort (sort : StdSort α) (hlt : StrictWeak lt) {b : α} (hab : lt a b = true) :
    ¬ [b, a].Sublist (sort.sort lt items) := by
  intro hsub
  have hpair := (sort.sorted lt items hlt).sublist hsub
  have hfalse : lt a b = false := by simpa using hpair
  rw [hab] at hfalse
  cases hfalse

variable [DecidableEq α]

/-- A sort that puts `a` before the elements that compare as equal. -/
def putFirst (a : α) : StdSort α where
  sort lt items := stable.sort lt (items.filter (· = a) ++ items.filter (¬ · = a))
  perm lt items := by
    refine (stable.perm lt _).trans ?_
    have hperm := List.filter_append_perm (· = a) items
    simpa using hperm
  sorted lt items hlt := stable.sorted lt _ hlt

theorem sublist_sort_putFirst (hlt : StrictWeak lt) {b : α} (ha : a ∈ items) (hb : b ∈ items)
    (hne : b ≠ a) (hba : lt b a = false) : [a, b].Sublist ((putFirst a).sort lt items) := by
  refine List.pair_sublist_mergeSort (fun x y z hxy hyz => ?_) (fun x y => ?_) (by simp [hba]) ?_
  · rw [Bool.not_eq_true'] at hxy hyz ⊢
    exact hlt.trans x y z hxy hyz
  · cases hxy : lt y x with
    | false => rfl
    | true => simp [hlt.asymm y x hxy]
  · have hfirst : [a].Sublist (items.filter (· = a)) :=
      List.singleton_sublist.2 (List.mem_filter.2 ⟨ha, by simp⟩)
    have hsecond : [b].Sublist (items.filter (¬ · = a)) :=
      List.singleton_sublist.2 (List.mem_filter.2 ⟨hb, by simpa using hne⟩)
    exact hfirst.append hsecond

/-- Of two elements one comes before the other in every sort exactly if it is smaller. -/
theorem forall_not_sublist_sort_iff (hlt : StrictWeak lt) {b : α} (ha : a ∈ items)
    (hb : b ∈ items) (hne : a ≠ b) :
    (∀ sort : StdSort α, ¬ [b, a].Sublist (sort.sort lt items)) ↔ lt a b = true := by
  refine ⟨fun hall => ?_, fun hab sort => sort.not_sublist_sort hlt hab⟩
  by_contra hnot
  exact hall (putFirst b)
    (sublist_sort_putFirst hlt hb ha hne (Bool.eq_false_iff.2 hnot))

end StdSort
