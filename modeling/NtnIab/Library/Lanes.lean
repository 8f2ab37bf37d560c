import Mathlib.Data.List.Basic
import Mathlib.Order.Basic

/-!
# Items on lanes

Items that take some time and have an owner are placed on numbered lanes, side by side. A lane is
filled from an origin on. What is placed is behind a frontier, or in the open block after it: the
block has at most one item on a lane and at most one of an owner, on the lanes before the current
one. When the block is closed the frontier moves to its end.

The lanes may be filled against the order of time: the times are then those of the dual order.

The second part merges the items of sorted lanes into one sorted list.
-/

namespace Lanes

universe u v w

/-- The time and the owner of an item. -/
structure Extent (α : Type u) (T : Type v) (ι : Type w) where
  begins : α → T
  ends : α → T
  owner : α → ι

section
variable {α : Type u} {T : Type v} {ι : Type w} [Preorder T] (x : Extent α T ι)

/-- What is placed on the lanes, with the frontier `lo`, and an open block that ends at `hi` and
has items of `owners` on the lanes before lane `k`. -/
structure Filling (lanes : Nat → List α) (origin lo hi : T) (k : Nat) (owners : List ι) : Prop
    where
  ordered : ∀ i, (lanes i).Pairwise fun a b => x.ends a ≤ x.begins b
  fromOrigin : ∀ i, ∀ a ∈ lanes i, origin ≤ x.begins a
  placed : ∀ i, ∀ a ∈ lanes i, x.ends a ≤ lo ∨
    (lo ≤ x.begins a ∧ x.ends a ≤ hi ∧ i < k ∧ x.owner a ∈ owners)
  apart : ∀ i j, i ≠ j → ∀ a ∈ lanes i, ∀ b ∈ lanes j, x.owner a = x.owner b →
    x.ends a ≤ x.begins b ∨ x.ends b ≤ x.begins a

namespace Filling

variable {x} {lanes : Nat → List α} {origin lo hi hi' : T} {k : Nat} {owners : List ι}

theorem empty : Filling x (fun _ => []) origin lo hi 0 [] where
  ordered := by simp
  fromOrigin := by simp
  placed := by simp
  apart := by simp

/-- The open block is closed, and the next one may end anywhere. -/
theorem close (h : Filling x lanes origin lo hi k owners) (hle : lo ≤ hi) :
    Filling x lanes origin hi hi' 0 [] where
  ordered := h.ordered
  fromOrigin := h.fromOrigin
  placed := by
    intro i a ha
    rcases h.placed i a ha with hbehind | hopen
    · exact Or.inl (hbehind.trans hle)
    · exact Or.inl hopen.2.1
  apart := h.apart

/-- A block without items may end anywhere. -/
theorem reopen (h : Filling x lanes origin lo hi 0 owners) : Filling x lanes origin lo hi' 0 [] where
  ordered := h.ordered
  fromOrigin := h.fromOrigin
  placed := by
    intro i a ha
    rcases h.placed i a ha with hbehind | hopen
    · exact Or.inl hbehind
    · exact absurd hopen.2.2.1 (Nat.not_lt_zero i)
  apart := h.apart

/-- An item of a new owner goes to the current lane of the open block. -/
theorem add (h : Filling x lanes origin lo hi k owners) {a : α} (horigin : origin ≤ lo)
    (hlo : lo ≤ x.begins a) (hhi : x.ends a ≤ hi) (hnew : x.owner a ∉ owners) :
    Filling x (fun i => if i = k then lanes i ++ [a] else lanes i) origin lo hi (k + 1)
      (x.owner a :: owners) := by
  have hmem : ∀ {i b}, b ∈ (if i = k then lanes i ++ [a] else lanes i) →
      b ∈ lanes i ∨ (i = k ∧ b = a) := by
    intro i b hb
    split at hb
    · rename_i hi
      rcases List.mem_append.1 hb with hb | hb
      · exact Or.inl hb
      · exact Or.inr ⟨hi, List.mem_singleton.1 hb⟩
    · exact Or.inl hb
  -- an item that was placed before is behind the frontier, or it has another owner
  have hother : ∀ i b, b ∈ lanes i → x.owner b = x.owner a → x.ends b ≤ x.begins a := by
    intro i b hb howner
    rcases h.placed i b hb with hbehind | hopen
    · exact hbehind.trans hlo
    · exact absurd (howner ▸ hopen.2.2.2) hnew
  refine ⟨?_, ?_, ?_, ?_⟩
  · intro i
    by_cases hi : i = k
    · simp only [hi, if_true]
      rw [List.pairwise_append]
      refine ⟨h.ordered k, List.pairwise_singleton _ _, ?_⟩
      intro b hb b' hb'
      obtain rfl := List.mem_singleton.1 hb'
      rcases h.placed k b hb with hbehind | hopen
      · exact hbehind.trans hlo
      · exact absurd hopen.2.2.1 (Nat.lt_irrefl k)
    · simp only [hi, if_false]
      exact h.ordered i
  · intro i b hb
    rcases hmem hb with hb | ⟨-, rfl⟩
    · exact h.fromOrigin i b hb
    · exact horigin.trans hlo
  · intro i b hb
    rcases hmem hb with hb | ⟨rfl, rfl⟩
    · rcases h.placed i b hb with hbehind | ⟨hbegins, hends, hlane, howner⟩
      · exact Or.inl hbehind
      · exact Or.inr ⟨hbegins, hends, Nat.lt_succ_of_lt hlane, List.mem_cons_of_mem _ howner⟩
    · exact Or.inr ⟨hlo, hhi, Nat.lt_succ_self i, List.mem_cons_self⟩
  · intro i j hij b hb b' hb' howner
    rcases hmem hb with hold | ⟨hi, hnow⟩
    · rcases hmem hb' with hold' | ⟨-, hnow'⟩
      · exact h.apart i j hij b hold b' hold' howner
      · rw [hnow'] at howner ⊢
        exact Or.inl (hother i b hold howner)
    · rcases hmem hb' with hold' | ⟨hj, -⟩
      · rw [hnow] at howner ⊢
        exact Or.inr (hother j b' hold' howner.symm)
      · exact absurd (hi.trans hj.symm) hij

/-- Everything that is placed ends before the end of the open block. -/
theorem ends_le (h : Filling x lanes origin lo hi k owners) (hle : lo ≤ hi) {i : Nat} {a : α}
    (ha : a ∈ lanes i) : x.ends a ≤ hi := by
  rcases h.placed i a ha with hbehind | hopen
  · exact hbehind.trans hle
  · exact hopen.2.1

end Filling

end

/-! ## Merging lanes -/

variable {α : Type u} (key : α → Nat) (bound : Nat)

/-- The lane among the first `n` whose first item has the least key, if one has a key below the
bound, and that key. -/
def first (n : Nat) (lanes : Nat → List α) : Option Nat × Nat :=
  (List.range n).foldl (fun best lane =>
    match (lanes lane).head? with
    | none => best
    | some a => if key a < best.2 then (some lane, key a) else best)
    (none, bound)

/-- The items of the lanes, always the one with the least key next. -/
def merge (n : Nat) : Nat → (Nat → List α) → List α
  | 0, _ => []
  | rounds + 1, lanes =>
      match (first key bound n lanes).1 with
      | none => []
      | some lane =>
          match lanes lane with
          | [] => []
          | a :: rest => a :: merge n rounds (fun i => if i = lane then rest else lanes i)

variable {key bound} {n : Nat} {lanes : Nat → List α}

/-- What is found is a first item with the least key. -/
theorem first_spec (key : α → Nat) (bound n : Nat) (lanes : Nat → List α) :
    (∀ i < n, ∀ a ∈ (lanes i).head?, (first key bound n lanes).2 ≤ key a) ∧
    (first key bound n lanes).2 ≤ bound ∧
    ((first key bound n lanes) = (none, bound) ∨
      ∃ i < n, ∃ a ∈ (lanes i).head?, first key bound n lanes = (some i, key a)) := by
  induction n with
  | zero => exact ⟨by simp, Nat.le_refl _, Or.inl rfl⟩
  | succ n ih =>
      obtain ⟨hleast, hbound, hfound⟩ := ih
      have hsucc : first key bound (n + 1) lanes =
          match (lanes n).head? with
          | none => first key bound n lanes
          | some a =>
              if key a < (first key bound n lanes).2 then (some n, key a)
              else first key bound n lanes := by
        unfold first
        rw [List.range_succ, List.foldl_append]
        rfl
      have hold : (first key bound n lanes) = (none, bound) ∨
          ∃ i < n + 1, ∃ a ∈ (lanes i).head?, first key bound n lanes = (some i, key a) := by
        rcases hfound with hnone | ⟨i, hi, hsome⟩
        · exact Or.inl hnone
        · exact Or.inr ⟨i, Nat.lt_succ_of_lt hi, hsome⟩
      cases hhead : (lanes n).head? with
      | none =>
          rw [hhead] at hsucc
          rw [hsucc]
          refine ⟨?_, hbound, hold⟩
          intro i hi a ha
          rcases Nat.lt_succ_iff_lt_or_eq.1 hi with hi | rfl
          · exact hleast i hi a ha
          · rw [hhead] at ha
            cases ha
      | some b =>
          rw [hhead] at hsucc
          simp only at hsucc
          rw [hsucc]
          split
          · rename_i hless
            refine ⟨?_, Nat.le_trans (Nat.le_of_lt hless) hbound,
              Or.inr ⟨n, Nat.lt_succ_self n, b, hhead, rfl⟩⟩
            intro i hi a ha
            rcases Nat.lt_succ_iff_lt_or_eq.1 hi with hi | rfl
            · exact Nat.le_trans (Nat.le_of_lt hless) (hleast i hi a ha)
            · rw [hhead] at ha
              exact Nat.le_of_eq (congrArg key (Option.some.inj ha))
          · rename_i hless
            refine ⟨?_, hbound, hold⟩
            intro i hi a ha
            rcases Nat.lt_succ_iff_lt_or_eq.1 hi with hi | rfl
            · exact hleast i hi a ha
            · rw [hhead] at ha
              obtain rfl := Option.some.inj ha
              exact Nat.le_of_not_lt hless

/-- The items, without the first one of a lane. -/
theorem perm_flatMap_update {lane : Nat} {a : α} {rest : List α} (hlane : lane < n)
    (hcons : lanes lane = a :: rest) :
    ((List.range n).flatMap lanes).Perm
      (a :: (List.range n).flatMap fun i => if i = lane then rest else lanes i) := by
  induction n with
  | zero => exact absurd hlane (Nat.not_lt_zero lane)
  | succ n ih =>
      simp only [List.range_succ, List.flatMap_append, List.flatMap_singleton]
      rcases Nat.lt_succ_iff_lt_or_eq.1 hlane with hlt | rfl
      · rw [if_neg (Nat.ne_of_gt hlt)]
        exact (ih hlt).append_right _
      · have hsame : ((List.range lane).flatMap fun i => if i = lane then rest else lanes i) =
            (List.range lane).flatMap lanes := by
          refine List.flatMap_congr fun i hi => ?_
          rw [if_neg (Nat.ne_of_lt (List.mem_range.1 hi))]
        rw [if_pos rfl, hsame, hcons]
        exact List.perm_middle

theorem length_flatMap_update {lane : Nat} {a : α} {rest : List α} (hlane : lane < n)
    (hcons : lanes lane = a :: rest) :
    ((List.range n).flatMap lanes).length =
      ((List.range n).flatMap fun i => if i = lane then rest else lanes i).length + 1 :=
  (perm_flatMap_update hlane hcons).length_eq

/-- Enough rounds merge all items, if every key is below the bound. -/
theorem merge_perm {rounds : Nat} (hbound : ∀ i < n, ∀ a ∈ lanes i, key a < bound)
    (hrounds : ((List.range n).flatMap lanes).length ≤ rounds) :
    (merge key bound n rounds lanes).Perm ((List.range n).flatMap lanes) := by
  induction rounds generalizing lanes with
  | zero =>
      rw [List.length_eq_zero_iff.1 (Nat.le_zero.1 hrounds)]
      exact List.Perm.refl _
  | succ rounds ih =>
      obtain ⟨hleast, -, hfound⟩ := first_spec key bound n lanes
      unfold merge
      rcases hfound with hnone | ⟨lane, hlane, a, ha, hsome⟩
      · -- no lane has an item, since its key would be below the bound
        rw [hnone]
        have hempty : (List.range n).flatMap lanes = [] := by
          rw [List.flatMap_eq_nil_iff]
          intro i hi
          cases hlanes : lanes i with
          | nil => rfl
          | cons b rest =>
              have hmem : b ∈ lanes i := hlanes ▸ List.mem_cons_self
              have hle := hleast i (List.mem_range.1 hi) b (by rw [hlanes]; rfl)
              rw [hnone] at hle
              exact absurd (hbound i (List.mem_range.1 hi) b hmem) (Nat.not_lt.2 hle)
        rw [hempty]
      · rw [hsome]
        cases hlanes : lanes lane with
        | nil =>
            rw [hlanes] at ha
            cases ha
        | cons b rest =>
            simp only [hlanes]
            have hlength := length_flatMap_update hlane hlanes
            refine ((ih ?_ (by omega)).cons b).trans (perm_flatMap_update hlane hlanes).symm
            intro i hi d hd
            split at hd
            · rename_i heq
              exact hbound i hi d (by rw [heq, hlanes]; exact List.mem_cons_of_mem _ hd)
            · exact hbound i hi d hd

theorem mem_merge {rounds : Nat} {a : α} (ha : a ∈ merge key bound n rounds lanes) :
    ∃ i < n, a ∈ lanes i := by
  induction rounds generalizing lanes with
  | zero => cases ha
  | succ rounds ih =>
      obtain ⟨-, -, hfound⟩ := first_spec key bound n lanes
      unfold merge at ha
      rcases hfound with hnone | ⟨lane, hlane, b, -, hsome⟩
      · rw [hnone] at ha
        cases ha
      · rw [hsome] at ha
        cases hlanes : lanes lane with
        | nil =>
            simp only [hlanes] at ha
            cases ha
        | cons d rest =>
            simp only [hlanes] at ha
            rcases List.mem_cons.1 ha with rfl | ha
            · exact ⟨lane, hlane, hlanes ▸ List.mem_cons_self⟩
            · obtain ⟨i, hi, hmem⟩ := ih ha
              refine ⟨i, hi, ?_⟩
              split at hmem
              · rename_i heq
                rw [heq, hlanes]
                exact List.mem_cons_of_mem _ hmem
              · exact hmem

/-- The merged list is sorted if the lanes are. -/
theorem merge_sorted {rounds : Nat}
    (hsorted : ∀ i < n, (lanes i).Pairwise fun a b => key a ≤ key b) :
    (merge key bound n rounds lanes).Pairwise fun a b => key a ≤ key b := by
  induction rounds generalizing lanes with
  | zero => exact List.Pairwise.nil
  | succ rounds ih =>
      obtain ⟨hleast, -, hfound⟩ := first_spec key bound n lanes
      unfold merge
      rcases hfound with hnone | ⟨lane, hlane, a, ha, hsome⟩
      · rw [hnone]
        exact List.Pairwise.nil
      · rw [hsome] at hleast ⊢
        cases hlanes : lanes lane with
        | nil =>
            rw [hlanes] at ha
            cases ha
        | cons b rest =>
            rw [hlanes] at ha
            obtain rfl := Option.some.inj ha
            simp only [hlanes]
            have hrest : ∀ i < n, ∀ d ∈ (if i = lane then rest else lanes i), d ∈ lanes i := by
              intro i hi d hd
              split at hd
              · rename_i heq
                rw [heq, hlanes]
                exact List.mem_cons_of_mem _ hd
              · exact hd
            -- the first item of a sorted lane has its least key
            have hkey : ∀ i < n, ∀ d ∈ lanes i, key b ≤ key d := by
              intro i hi d hd
              cases hcons : lanes i with
              | nil =>
                  rw [hcons] at hd
                  cases hd
              | cons e others =>
                  have hfirst := hleast i hi e (by rw [hcons]; rfl)
                  rw [hcons] at hd
                  rcases List.mem_cons.1 hd with rfl | hd
                  · exact hfirst
                  · have hlater := hsorted i hi
                    rw [hcons] at hlater
                    exact Nat.le_trans hfirst ((List.pairwise_cons.1 hlater).1 d hd)
            refine List.pairwise_cons.2 ⟨?_, ih ?_⟩
            · intro d hd
              obtain ⟨i, hi, hmem⟩ := mem_merge hd
              exact hkey i hi d (hrest i hi d hmem)
            · intro i hi
              split
              · rename_i heq
                have hlater := hsorted i hi
                rw [heq, hlanes] at hlater
                exact (List.pairwise_cons.1 hlater).2
              · exact hsorted i hi

end Lanes
