import Mathlib.Data.List.SplitBy
import NtnIab.Mmwave.EnbPhyWalk

/-!
# The bundles of a subframe

The data slots of an allocation come in groups with one start symbol. The eNB PHY builds a bundle
for each group: the inner loop takes a whole group, and what it leaves begins with the next one.
The last round stops at the control slot of the uplink.
-/

namespace NtnIab.Mmwave

open Fallible

namespace EnbPhy

/-! ## The groups of a subframe -/

/-- The data slots, split where the start symbol changes. -/
def groups (data : List SlotAllocInfo) : List (List SlotAllocInfo) :=
  data.splitBy fun a b => a.dci.symStart == b.dci.symStart

/-- The bundle that a group should have. -/
def bundleOf (group : List SlotAllocInfo) : SlotBundleInfo where
  numLayers := group.length
  symStart := (group.head?.map (·.dci.symStart)).getD 0
  minNumSym := (group.map (·.dci.numSym)).min?.getD 0

/-- Each group has one start symbol, and what follows it has another one. -/
def Grouped (ul : SlotAllocInfo) : List (List SlotAllocInfo) → Prop
  | [] => True
  | group :: rest =>
      group ≠ [] ∧ (∀ slot ∈ group, slot.dci.symStart = (bundleOf group).symStart) ∧
        (rest.flatten.headD ul).dci.symStart ≠ (bundleOf group).symStart ∧ Grouped ul rest

section
variable {bundle : SlotBundleInfo} {slot ul : SlotAllocInfo} {group rest slots data :
  List SlotAllocInfo} {gs : List (List SlotAllocInfo)} {bundles : List SlotBundleInfo} {rounds : Nat}

theorem bundleOf_cons : bundleOf (slot :: rest) =
    { numLayers := rest.length + 1
      symStart := slot.dci.symStart
      minNumSym := (rest.map (·.dci.numSym)).foldl min slot.dci.numSym } := rfl

theorem minNumSym_le (hmem : slot ∈ group) : (bundleOf group).minNumSym ≤ slot.dci.numSym := by
  have hnum : slot.dci.numSym ∈ group.map (·.dci.numSym) := List.mem_map_of_mem hmem
  cases hmin : (group.map (·.dci.numSym)).min? with
  | none =>
      rw [List.min?_eq_none_iff] at hmin
      rw [hmin] at hnum
      exact (List.not_mem_nil hnum).elim
  | some least =>
      have hleast := (List.min?_eq_some_iff.1 hmin).2 _ hnum
      simpa [bundleOf, hmin] using hleast

theorem symStart_eq_of_chain
    (hchain : (slot :: rest).IsChain fun a b => a.dci.symStart == b.dci.symStart) :
    ∀ other ∈ slot :: rest, other.dci.symStart = slot.dci.symStart := by
  have htrans : IsTrans SlotAllocInfo fun a b => a.dci.symStart = b.dci.symStart :=
    ⟨fun _ _ _ => Eq.trans⟩
  have heq : (slot :: rest).IsChain fun a b => a.dci.symStart = b.dci.symStart :=
    hchain.imp fun _ _ => beq_iff_eq.1
  have hpair := List.pairwise_cons.1 (List.isChain_iff_pairwise.1 heq)
  exact List.forall_mem_cons.2 ⟨rfl, fun other hmem => (hpair.1 other hmem).symm⟩

theorem grouped_groups (hbefore : ∀ slot ∈ data, slot.dci.symStart < ul.dci.symStart) :
    Grouped ul (groups data) := by
  have hflatten : ∀ slot ∈ (groups data).flatten, slot.dci.symStart < ul.dci.symStart := by
    rw [groups, List.flatten_splitBy]
    exact hbefore
  have hne : [] ∉ groups data := List.nil_notMem_splitBy _ _
  have hchain : ∀ group ∈ groups data,
      group.IsChain fun a b => a.dci.symStart == b.dci.symStart :=
    fun group hmem => List.isChain_of_mem_splitBy hmem
  have hchange := List.isChain_getLast_head_splitBy
    (fun a b : SlotAllocInfo => a.dci.symStart == b.dci.symStart) data
  change (groups data).IsChain _ at hchange
  generalize groups data = gs at *
  induction gs with
  | nil => trivial
  | cons group rest ih =>
      rw [List.mem_cons, not_or] at hne
      rw [List.forall_mem_cons] at hchain
      rw [List.flatten_cons, List.forall_mem_append] at hflatten
      rw [List.isChain_cons] at hchange
      refine ⟨fun hnil => hne.1 hnil.symm, ?_, ?_, ih hflatten.2 hne.2 hchain.2 hchange.2⟩
      · cases group with
        | nil => exact (hne.1 rfl).elim
        | cons slot others => exact symStart_eq_of_chain hchain.1
      · cases group with
        | nil => exact (hne.1 rfl).elim
        | cons slot others =>
            have hall := symStart_eq_of_chain hchain.1
            cases rest with
            | nil => exact (hflatten.1 slot List.mem_cons_self).ne'
            | cons next more =>
                obtain ⟨_, hnext, hdiffer⟩ := hchange.1 next rfl
                rw [hall _ (List.getLast_mem _)] at hdiffer
                cases next with
                | nil => exact (hnext rfl).elim
                | cons first others => exact fun heq => beq_eq_false_iff_ne.1 hdiffer heq.symm

theorem Grouped.symStart_eq (hgroups : Grouped ul gs) (hgroup : group ∈ gs) :
    ∀ slot ∈ group, slot.dci.symStart = (bundleOf group).symStart := by
  induction gs with
  | nil => exact (List.not_mem_nil hgroup).elim
  | cons first rest ih =>
      rcases List.mem_cons.1 hgroup with rfl | hrest
      · exact hgroups.2.1
      · exact ih hgroups.2.2.2 hrest

/-! ## The bundles -/

theorem scanBundle_group (bundle : SlotBundleInfo)
    (hsame : ∀ slot ∈ group, slot.dci.symStart = bundle.symStart)
    (hnext : (rest.headD ul).dci.symStart ≠ bundle.symStart)
    (hlayers : bundle.numLayers + group.length < 2 ^ 8) :
    scanBundle bundle (group ++ (rest ++ [ul])) =
      ({ bundle with
          numLayers := bundle.numLayers + group.length
          minNumSym := (group.map (·.dci.numSym)).foldl min bundle.minNumSym }, rest ++ [ul]) := by
  induction group generalizing bundle with
  | nil =>
      cases rest with
      | nil => exact if_neg hnext.symm
      | cons slot others => exact if_neg hnext.symm
  | cons slot others ih =>
      rw [List.forall_mem_cons] at hsame
      rw [List.length_cons] at hlayers
      have hmod : (bundle.numLayers + 1) % 2 ^ 8 = bundle.numLayers + 1 :=
        Nat.mod_eq_of_lt (by omega)
      have hmin : (if bundle.minNumSym > slot.dci.numSym then slot.dci.numSym
          else bundle.minNumSym) = min bundle.minNumSym slot.dci.numSym := by
        split_ifs <;> omega
      have hadd : bundle.add slot =
          { bundle with
            numLayers := bundle.numLayers + 1
            minNumSym := min bundle.minNumSym slot.dci.numSym } := by
        rw [SlotBundleInfo.add, hmod, hmin]
      rw [List.cons_append, scanBundle, if_pos hsame.1.symm,
        ih (bundle.add slot) hsame.2 hnext (by rw [hadd]; dsimp only; omega), hadd]
      simp only [List.length_cons, List.map_cons, List.foldl_cons]
      rw [Nat.add_assoc, Nat.add_comm 1]

/-- The loops end, and build the bundles of the groups. -/
theorem buildBundles_groups (hgroups : Grouped ul gs) (hlength : gs.flatten.length < rounds)
    (hlayers : rounds < 2 ^ 8) :
    buildBundles rounds (gs.flatten ++ [ul]) = .ok (gs.map bundleOf) := by
  induction gs generalizing rounds with
  | nil =>
      cases rounds with
      | zero => exact (Nat.not_lt_zero _ hlength).elim
      | succ rounds => rfl
  | cons group rest ih =>
      obtain ⟨hne, hsame, hnext, hrest⟩ := hgroups
      cases group with
      | nil => exact (hne rfl).elim
      | cons slot others =>
          cases rounds with
          | zero => exact (Nat.not_lt_zero _ hlength).elim
          | succ rounds =>
              rw [List.flatten_cons, List.length_append, List.length_cons] at hlength
              rw [bundleOf_cons] at hsame hnext
              have hscan : scanBundle (.ofSlot slot) (others ++ (rest.flatten ++ [ul])) =
                  (bundleOf (slot :: others), rest.flatten ++ [ul]) := by
                rw [scanBundle_group (.ofSlot slot) (List.forall_mem_cons.1 hsame).2 hnext
                  (by dsimp only [SlotBundleInfo.ofSlot]; omega), bundleOf_cons]
                simp [SlotBundleInfo.ofSlot, Nat.add_comm]
              have hmore : (rest.flatten ++ [ul]).isEmpty = false := by simp
              rw [List.flatten_cons, List.append_assoc, List.cons_append, buildBundles, hscan,
                hmore, if_neg (by decide), ih hrest (by omega) (by omega)]
              rfl

theorem scanBundle_layers (bundle : SlotBundleInfo) (slots : List SlotAllocInfo) :
    (scanBundle bundle slots).1.numLayers + (scanBundle bundle slots).2.length ≤
      bundle.numLayers + slots.length := by
  induction slots generalizing bundle with
  | nil => exact le_rfl
  | cons slot rest ih =>
      unfold scanBundle
      split
      · calc
          _ ≤ (bundle.add slot).numLayers + rest.length := ih _
          _ ≤ bundle.numLayers + 1 + rest.length :=
              Nat.add_le_add_right (Nat.mod_le _ _) _
          _ = bundle.numLayers + (slot :: rest).length := by
              rw [List.length_cons]
              omega
      · exact le_rfl

/-- Whatever the slots are, the bundles have no more layers than there are slots. -/
theorem buildBundles_layers (hbuild : buildBundles rounds slots = .ok bundles) :
    (bundles.map (·.numLayers)).sum ≤ slots.length := by
  induction rounds generalizing slots bundles with
  | zero => cases hbuild
  | succ rounds ih =>
      cases slots with
      | nil => cases hbuild
      | cons slot rest =>
          have hscan := scanBundle_layers (.ofSlot slot) rest
          rw [buildBundles] at hbuild
          split at hbuild
          · obtain rfl := Except.ok.inj hbuild
            exact Nat.zero_le _
          · obtain ⟨others, hothers, rfl⟩ := map_eq_ok.1 hbuild
            have hsum := ih hothers
            rw [List.map_cons, List.sum_cons]
            calc
              _ ≤ _ := Nat.add_le_add_left hsum _
              _ ≤ _ := hscan
              _ = (slot :: rest).length := Nat.add_comm _ _

theorem groups_layers : (((groups data).map bundleOf).map (·.numLayers)).sum = data.length := by
  have hlayers : ((groups data).map bundleOf).map (·.numLayers) =
      (groups data).map List.length := by
    rw [List.map_map]
    rfl
  rw [hlayers, ← List.length_flatten, groups, List.flatten_splitBy]

end

end EnbPhy

end NtnIab.Mmwave
