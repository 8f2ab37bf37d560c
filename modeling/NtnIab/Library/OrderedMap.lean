import Mathlib.Data.List.Basic

/-!
# Maps in the order of their keys

A map is the list of its entries. An entry that is added goes before the first greater key, so the
list is in the order of the keys, and a walk over the map is a walk over the list. What a map
holds is said by `find`, which needs no order.
-/

abbrev OrderedMap (α : Type*) := List (Nat × α)

namespace OrderedMap

variable {α β : Type*}

def find (key : Nat) : OrderedMap α → Option α
  | [] => none
  | (k, a) :: rest => if k = key then some a else find key rest

def keys (m : OrderedMap α) : List Nat := m.map (·.1)

/-- A new entry before the first greater key. -/
def insertAt (key : Nat) (a : α) : OrderedMap α → OrderedMap α
  | [] => [(key, a)]
  | (k, b) :: rest =>
      if key < k then (key, a) :: (k, b) :: rest else (k, b) :: insertAt key a rest

/-- An entry that is there stays as it is. -/
def insertNew (key : Nat) (a : α) (m : OrderedMap α) : OrderedMap α :=
  match m.find key with
  | some _ => m
  | none => m.insertAt key a

/-- Rewrites the entry of a key, if there is one. -/
def adjust (key : Nat) (f : α → α) (m : OrderedMap α) : OrderedMap α :=
  m.map fun entry => (entry.1, if entry.1 = key then f entry.2 else entry.2)

def erase (key : Nat) (m : OrderedMap α) : OrderedMap α :=
  m.filter fun entry => entry.1 ≠ key

/-- The entry of a key is replaced, or added if there is none. -/
def assign (key : Nat) (a : α) (m : OrderedMap α) : OrderedMap α :=
  (m.insertNew key a).adjust key fun _ => a

/-! ## What the operations find -/

variable {m : OrderedMap α} {key k : Nat} {a : α} {f : α → α}

@[simp] theorem find_nil : find key ([] : OrderedMap α) = none := rfl

theorem find_cons (entry : Nat × α) :
    find key (entry :: m) = if entry.1 = key then some entry.2 else find key m := rfl

theorem find_insertAt (hnone : m.find key = none) :
    find k (m.insertAt key a) = if k = key then some a else m.find k := by
  induction m with
  | nil =>
      simp only [insertAt, find_cons, find_nil]
      split_ifs <;> first | rfl | omega
  | cons entry rest ih =>
      rw [find_cons] at hnone
      split at hnone
      · cases hnone
      · rename_i hne
        have hrest := ih hnone
        unfold insertAt
        split
        · simp only [find_cons]
          split_ifs <;> first | rfl | omega
        · simp only [find_cons, hrest]
          split_ifs <;> first | rfl | omega

theorem find_insertNew :
    find k (m.insertNew key a) = if k = key then some ((m.find key).getD a) else m.find k := by
  unfold insertNew
  split
  · rename_i b hsome
    split
    · rename_i hk
      rw [hk, hsome, Option.getD_some]
    · rfl
  · rename_i hnone
    rw [find_insertAt hnone, hnone, Option.getD_none]

theorem find_adjust :
    find k (m.adjust key f) = if k = key then (m.find k).map f else m.find k := by
  induction m with
  | nil => simp [adjust]
  | cons entry rest ih =>
      have hcons : adjust key f (entry :: rest) =
          (entry.1, if entry.1 = key then f entry.2 else entry.2) :: adjust key f rest := rfl
      rw [hcons]
      simp only [find_cons, ih]
      split_ifs <;> first | rfl | omega

theorem find_erase : find k (m.erase key) = if k = key then none else m.find k := by
  induction m with
  | nil => simp [erase]
  | cons entry rest ih =>
      unfold erase at ih ⊢
      rw [List.filter_cons]
      split
      · rename_i hkeep
        simp only [find_cons, ih]
        have := of_decide_eq_true hkeep
        split_ifs <;> first | rfl | omega
      · rename_i hdrop
        have heq : entry.1 = key := by
          by_contra hne
          exact hdrop (decide_eq_true hne)
        rw [ih, find_cons]
        split_ifs <;> first | rfl | omega

theorem find_assign : find k (m.assign key a) = if k = key then some a else m.find k := by
  unfold assign
  rw [find_adjust, find_insertNew]
  split_ifs <;> rfl

/-! ## Keys -/

theorem mem_keys_iff : key ∈ m.keys ↔ (m.find key).isSome := by
  induction m with
  | nil => simp [keys]
  | cons entry rest ih =>
      have hcons : keys (entry :: rest) = entry.1 :: keys rest := rfl
      rw [hcons, List.mem_cons, ih, find_cons]
      split_ifs with heq
      · simp [heq]
      · simp [Ne.symm heq]

theorem find_eq_none_iff : m.find key = none ↔ key ∉ m.keys := by
  rw [mem_keys_iff, Option.not_isSome_iff_eq_none]

@[simp] theorem keys_adjust : (m.adjust key f).keys = m.keys := by
  simp [keys, adjust, Function.comp_def]

theorem mem_insertAt {entry : Nat × α} :
    entry ∈ m.insertAt key a ↔ entry = (key, a) ∨ entry ∈ m := by
  induction m with
  | nil => simp [insertAt]
  | cons other rest ih =>
      unfold insertAt
      split
      · rw [List.mem_cons]
      · rw [List.mem_cons, ih, List.mem_cons]
        exact or_left_comm

theorem mem_insertNew {entry : Nat × α} (hmem : entry ∈ m.insertNew key a) :
    entry ∈ m ∨ entry = (key, a) := by
  unfold insertNew at hmem
  split at hmem
  · exact Or.inl hmem
  · exact (mem_insertAt.1 hmem).symm

theorem mem_keys_insertAt : k ∈ (m.insertAt key a).keys ↔ k = key ∨ k ∈ m.keys := by
  induction m with
  | nil => simp [insertAt, keys]
  | cons entry rest ih =>
      unfold keys at ih ⊢
      unfold insertAt
      split
      · simp
      · simp only [List.map_cons, List.mem_cons, ih]
        exact or_left_comm

theorem mem_keys_insertNew : k ∈ (m.insertNew key a).keys ↔ k = key ∨ k ∈ m.keys := by
  unfold insertNew
  split
  · rename_i b hsome
    refine ⟨Or.inr, fun h => h.elim (fun heq => ?_) id⟩
    rw [heq, mem_keys_iff, hsome]
    rfl
  · exact mem_keys_insertAt

theorem nodup_insertAt (hm : m.keys.Nodup) (hnew : key ∉ m.keys) :
    (m.insertAt key a).keys.Nodup := by
  induction m with
  | nil => simp [insertAt, keys]
  | cons entry rest ih =>
      have hcons : keys (entry :: rest) = entry.1 :: keys rest := rfl
      rw [hcons, List.nodup_cons] at hm
      rw [hcons, List.mem_cons, not_or] at hnew
      unfold insertAt
      split
      · show (key :: entry.1 :: keys rest).Nodup
        exact List.nodup_cons.2 ⟨by simp [hnew], List.nodup_cons.2 hm⟩
      · show (entry.1 :: keys (insertAt key a rest)).Nodup
        refine List.nodup_cons.2 ⟨?_, ih hm.2 hnew.2⟩
        rw [mem_keys_insertAt, not_or]
        exact ⟨Ne.symm hnew.1, hm.1⟩

theorem nodup_insertNew (hm : m.keys.Nodup) : (m.insertNew key a).keys.Nodup := by
  unfold insertNew
  split
  · exact hm
  · rename_i hnone
    exact nodup_insertAt hm (find_eq_none_iff.1 hnone)

theorem nodup_adjust (hm : m.keys.Nodup) : (m.adjust key f).keys.Nodup := by
  rwa [keys_adjust]

theorem nodup_erase (hm : m.keys.Nodup) : (m.erase key).keys.Nodup :=
  List.Nodup.sublist (List.filter_sublist.map _) hm

theorem nodup_assign (hm : m.keys.Nodup) : (m.assign key a).keys.Nodup :=
  nodup_adjust (nodup_insertNew hm)

/-- If every key has one entry, each entry is the one that is found. -/
theorem find_of_mem (hm : m.keys.Nodup) {entry : Nat × α} (hentry : entry ∈ m) :
    m.find entry.1 = some entry.2 := by
  induction m with
  | nil => cases hentry
  | cons other rest ih =>
      have hcons : keys (other :: rest) = other.1 :: keys rest := rfl
      rw [hcons, List.nodup_cons] at hm
      rw [find_cons]
      rcases List.mem_cons.1 hentry with rfl | hentry
      · exact if_pos rfl
      · rw [if_neg, ih hm.2 hentry]
        rintro heq
        exact hm.1 (heq ▸ List.mem_map_of_mem hentry)

theorem mem_of_find (hfind : m.find key = some a) : (key, a) ∈ m := by
  induction m with
  | nil => cases hfind
  | cons entry rest ih =>
      rw [find_cons] at hfind
      split at hfind
      · rename_i heq
        obtain rfl := Option.some.inj hfind
        rw [← heq]
        exact List.mem_cons_self
      · exact List.mem_cons_of_mem _ (ih hfind)

/-! ## The order of the keys -/

/-- The keys increase from entry to entry. -/
def Ordered (m : OrderedMap α) : Prop := m.keys.Pairwise (· < ·)

theorem ordered_cons {entry : Nat × α} :
    Ordered (entry :: m) ↔ (∀ k ∈ m.keys, entry.1 < k) ∧ m.Ordered :=
  List.pairwise_cons

theorem ordered_insertAt (hm : m.Ordered) (hnew : key ∉ m.keys) : (m.insertAt key a).Ordered := by
  induction m with
  | nil => exact List.pairwise_singleton _ _
  | cons entry rest ih =>
      obtain ⟨hfirst, hrest⟩ := ordered_cons.1 hm
      have hcons : keys (entry :: rest) = entry.1 :: keys rest := rfl
      rw [hcons, List.mem_cons, not_or] at hnew
      unfold insertAt
      split
      · rename_i hlt
        refine ordered_cons.2 ⟨fun k hk => ?_, hm⟩
        rcases List.mem_cons.1 hk with rfl | hk
        · exact hlt
        · exact Nat.lt_trans hlt (hfirst k hk)
      · rename_i hle
        refine ordered_cons.2 ⟨fun k hk => ?_, ih hrest hnew.2⟩
        rcases mem_keys_insertAt.1 hk with rfl | hk
        · omega
        · exact hfirst k hk

theorem ordered_insertNew (hm : m.Ordered) : (m.insertNew key a).Ordered := by
  unfold insertNew
  split
  · exact hm
  · rename_i hnone
    exact ordered_insertAt hm (find_eq_none_iff.1 hnone)

theorem ordered_adjust (hm : m.Ordered) : (m.adjust key f).Ordered := by
  unfold Ordered at hm ⊢
  rwa [keys_adjust]

theorem ordered_erase (hm : m.Ordered) : (m.erase key).Ordered :=
  List.Pairwise.sublist (List.filter_sublist.map _) hm

/-- A map in the order of its keys is determined by what is found in it. -/
theorem Ordered.ext {m' : OrderedMap α} (hm : m.Ordered) (hm' : m'.Ordered)
    (hfind : ∀ k, m.find k = m'.find k) : m = m' := by
  -- the first key of a map is below every other one, so it is the first key of both
  have hfirst : ∀ {entry : Nat × α} {rest : OrderedMap α} {k : Nat}, Ordered (entry :: rest) →
      (find k (entry :: rest)).isSome → entry.1 ≤ k := by
    intro entry rest k hordered hsome
    rcases List.mem_cons.1 (mem_keys_iff.2 hsome) with rfl | hk
    · exact Nat.le_refl _
    · exact Nat.le_of_lt ((ordered_cons.1 hordered).1 k hk)
  induction m generalizing m' with
  | nil =>
      cases m' with
      | nil => rfl
      | cons entry' rest' =>
          have hnone := hfind entry'.1
          rw [find_nil, find_cons, if_pos rfl] at hnone
          cases hnone
  | cons entry rest ih =>
      have hentry : find entry.1 (entry :: rest) = some entry.2 := if_pos rfl
      cases m' with
      | nil =>
          rw [hfind, find_nil] at hentry
          cases hentry
      | cons entry' rest' =>
          have hentry' : find entry'.1 (entry' :: rest') = some entry'.2 := if_pos rfl
          have hkey : entry.1 = entry'.1 := by
            refine Nat.le_antisymm (hfirst hm ?_) (hfirst hm' ?_)
            · rw [hfind, hentry']
              rfl
            · rw [← hfind, hentry]
              rfl
          have hvalue : entry.2 = entry'.2 := by
            rw [hfind, hkey, hentry'] at hentry
            exact (Option.some.inj hentry).symm
          have hrest : rest = rest' := by
            refine ih (ordered_cons.1 hm).2 (ordered_cons.1 hm').2 fun k => ?_
            by_cases hk : entry.1 = k
            · have hnone : find k rest = none := find_eq_none_iff.2 fun hmem =>
                absurd ((ordered_cons.1 hm).1 k hmem) (by omega)
              have hnone' : find k rest' = none := find_eq_none_iff.2 fun hmem =>
                absurd ((ordered_cons.1 hm').1 k hmem) (by omega)
              rw [hnone, hnone']
            · have hboth := hfind k
              rwa [find_cons, find_cons, if_neg hk, if_neg (hkey ▸ hk)] at hboth
          rw [hrest, Prod.ext hkey hvalue]

theorem Ordered.nodup (hm : m.Ordered) : m.keys.Nodup := hm.imp fun hlt => Nat.ne_of_lt hlt

theorem find_eq_some_iff (hm : m.keys.Nodup) : m.find key = some a ↔ (key, a) ∈ m :=
  ⟨mem_of_find, fun hmem => find_of_mem hm hmem⟩

/-- A map in the order of its keys is determined by its entries. -/
theorem Ordered.ext_mem {m' : OrderedMap α} (hm : m.Ordered) (hm' : m'.Ordered)
    (hmem : ∀ entry, entry ∈ m ↔ entry ∈ m') : m = m' := by
  refine hm.ext hm' fun k => Option.ext fun a => ?_
  rw [find_eq_some_iff hm.nodup, find_eq_some_iff hm'.nodup]
  exact hmem (k, a)

/-! ## Entries in any order -/

theorem perm_insertAt : (m.insertAt key a).Perm ((key, a) :: m) := by
  induction m with
  | nil => exact List.Perm.refl _
  | cons entry rest ih =>
      unfold insertAt
      split
      · exact List.Perm.refl _
      · exact (ih.cons entry).trans (List.Perm.swap _ _ _)

theorem adjust_of_not_mem (hkey : key ∉ m.keys) : m.adjust key f = m := by
  calc m.adjust key f = m.map id := by
        refine List.map_congr_left fun entry hentry => Prod.ext rfl ?_
        exact if_neg fun heq => hkey (List.mem_map.2 ⟨entry, hentry, heq⟩)
    _ = m := List.map_id m

theorem erase_of_not_mem (hkey : key ∉ m.keys) : m.erase key = m := by
  refine List.filter_eq_self.2 fun entry hentry => decide_eq_true fun heq => ?_
  exact hkey (List.mem_map.2 ⟨entry, hentry, heq⟩)

theorem not_mem_keys_erase : key ∉ (m.erase key).keys := by
  rw [mem_keys_iff, find_erase, if_pos rfl]
  exact Bool.false_ne_true

/-- The entry of a key, and the others. -/
theorem perm_cons_erase (hm : m.keys.Nodup) (hfind : m.find key = some a) :
    m.Perm ((key, a) :: m.erase key) := by
  induction m with
  | nil => cases hfind
  | cons entry rest ih =>
      have hcons : keys (entry :: rest) = entry.1 :: keys rest := rfl
      rw [hcons, List.nodup_cons] at hm
      rw [find_cons] at hfind
      split at hfind
      · rename_i heq
        obtain rfl := Option.some.inj hfind
        have herase : erase key (entry :: rest) = rest := by
          have hrest := erase_of_not_mem (heq ▸ hm.1)
          unfold erase at hrest ⊢
          rw [List.filter_cons_of_neg (by simpa using heq), hrest]
        rw [herase, ← heq]
      · rename_i hne
        have herase : erase key (entry :: rest) = entry :: erase key rest :=
          List.filter_cons_of_pos (by simpa using hne)
        rw [herase]
        exact ((ih hm.2 hfind).cons entry).trans (List.Perm.swap _ _ _)

/-- An entry that is rewritten, with a new one in its place if there is none. -/
theorem perm_adjust_insertNew (hm : m.keys.Nodup) :
    ((m.insertNew key a).adjust key f).Perm
      ((key, f ((m.find key).getD a)) :: m.erase key) := by
  have hadjust : ∀ (m' : OrderedMap α) (b : α), key ∉ m'.keys →
      adjust key f ((key, b) :: m') = (key, f b) :: m' := by
    intro m' b hkey
    have hrest := adjust_of_not_mem (f := f) hkey
    unfold adjust at hrest ⊢
    rw [List.map_cons, hrest, if_pos rfl]
  unfold insertNew
  split
  · rename_i b hsome
    rw [hsome, Option.getD_some, ← hadjust _ _ not_mem_keys_erase]
    exact (perm_cons_erase hm hsome).map _
  · rename_i hnone
    have hkey := find_eq_none_iff.1 hnone
    rw [hnone, Option.getD_none, erase_of_not_mem hkey, ← hadjust _ _ hkey]
    exact perm_insertAt.map _

end OrderedMap
