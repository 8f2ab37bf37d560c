import NtnIab.Mmwave.HarqShapes
import NtnIab.Mmwave.TdmaProcesses

/-!
# The slots of a grant

A grant adds slots of its UE only, and no map of the processes gets or loses a UE.
-/

namespace NtnIab.Mmwave

open Fallible

/-- The slot is that of a UE, and so is its DCI. -/
structure SlotAllocInfo.IsFor (rnti : Nat) (slot : SlotAllocInfo) : Prop where
  dci : slot.dci.rnti = rnti
  slot : slot.rnti = some rnti

theorem HarqProcesses.outline_takeProcess (m : MmWavePhyMacCommon) (rnti : Nat)
    (elements : List Nat) (status : OrderedMap (List Nat)) :
    outline (takeProcess m rnti elements status).2 = outline status := by
  unfold takeProcess
  split
  · exact outline_setProcess
  · rfl

namespace Grants

variable {c : FlexTtiConfig} {B : Type} {book : BufferBook B} {d d' d'' : Grants B}
  {rnti mcs : Nat}

/-- A grant for a UE leads from `d` to `d'`. -/
structure Grows (rnti : Nat) (d d' : Grants B) : Prop where
  outlines : d'.harq.outlines = d.harq.outlines
  slots : ∀ slot ∈ d'.subframe.slotAllocInfo, slot ∈ d.subframe.slotAllocInfo ∨ slot.IsFor rnti

namespace Grows

/-- Nothing is added. -/
theorem of_same (houtlines : d'.harq.outlines = d.harq.outlines)
    (hslots : d'.subframe.slotAllocInfo = d.subframe.slotAllocInfo) : Grows rnti d d' :=
  ⟨houtlines, fun _ hslot => .inl (hslots ▸ hslot)⟩

theorem refl : Grows rnti d d := of_same rfl rfl

theorem trans (h : Grows rnti d d') (h' : Grows rnti d' d'') : Grows rnti d d'' := by
  refine ⟨h'.outlines.trans h.outlines, fun slot hslot => ?_⟩
  rcases h'.slots slot hslot with hold | hnew
  · exact h.slots slot hold
  · exact .inr hnew

/-- A slot of the UE goes behind the others. -/
theorem push {slot : SlotAllocInfo} (hslot : slot.IsFor rnti)
    (houtlines : d'.harq.outlines = d.harq.outlines)
    (hslots : d'.subframe.slotAllocInfo = d.subframe.slotAllocInfo ++ [slot]) :
    Grows rnti d d' := by
  refine ⟨houtlines, fun other hother => ?_⟩
  rw [hslots] at hother
  rcases List.mem_append.1 hother with hold | hnew
  · exact .inl hold
  · exact .inr (List.mem_singleton.1 hnew ▸ hslot)

end Grows

/-! ## Processes -/

theorem grows_updateDlHarqProcessId {result : Nat × Grants B}
    (hok : d.updateDlHarqProcessId c rnti = .ok result) : Grows rnti d result.2 := by
  unfold updateDlHarqProcessId at hok
  split at hok
  · obtain ⟨taken, htaken, hok⟩ := bind_eq_ok.1 hok
    obtain rfl := pure_eq_ok.1 hok
    obtain ⟨elements, -, htaken⟩ := bind_eq_ok.1 htaken
    obtain rfl := pure_eq_ok.1 htaken
    refine .of_same ?_ rfl
    simp [HarqProcesses.outlines, HarqProcesses.outline_takeProcess]
  · obtain rfl := pure_eq_ok.1 hok
    exact .of_same rfl rfl

theorem grows_updateUlHarqProcessId {result : Nat × Grants B}
    (hok : d.updateUlHarqProcessId c rnti = .ok result) : Grows rnti d result.2 := by
  unfold updateUlHarqProcessId at hok
  split at hok
  · obtain ⟨elements, helements, hok⟩ := bind_eq_ok.1 hok
    obtain rfl := pure_eq_ok.1 hok
    refine .of_same ?_ rfl
    unfold HarqProcesses.updateUlHarqProcessId
    rw [lookUp_eq_ok.1 helements]
    simp [HarqProcesses.outlines, HarqProcesses.outline_takeProcess]
  · obtain rfl := pure_eq_ok.1 hok
    exact .of_same rfl rfl

theorem grows_storeDl {dci : DciInfoElementTdma} (hok : d.storeDl c dci = .ok d') :
    Grows rnti d d' := by
  by_cases hharq : c.harqOn = true
  · obtain ⟨-, rfl⟩ := storeDl_ok hharq hok
    refine .of_same ?_ rfl
    simp [HarqProcesses.outlines, HarqProcesses.startDl]
  · unfold storeDl at hok
    rw [if_neg hharq] at hok
    obtain rfl := pure_eq_ok.1 hok
    exact .refl

theorem grows_storeUl {dci : DciInfoElementTdma} (hok : d.storeUl c dci = .ok d') :
    Grows rnti d d' := by
  by_cases hharq : c.harqOn = true
  · obtain ⟨-, rfl⟩ := storeUl_ok hharq hok
    refine .of_same ?_ rfl
    simp [HarqProcesses.outlines, HarqProcesses.startUl]
  · unfold storeUl at hok
    rw [if_neg hharq] at hok
    obtain rfl := pure_eq_ok.1 hok
    exact .refl

/-! ## Downlink -/

theorem slotAllocInfo_takeSymbols {sf sf' : Subframe} {symStart numSym : Nat}
    (hok : sf.takeSymbols c symStart numSym = .ok sf') : sf'.slotAllocInfo = sf.slotAllocInfo := by
  obtain ⟨⟨⟩, -, hok⟩ := bind_eq_ok.1 hok
  obtain rfl := pure_eq_ok.1 hok
  rfl

/-- The slot of a downlink block is made, and added later. -/
theorem grows_dlBlock {numSymNeeded : Nat} {block : SlotAllocInfo × Grants B}
    (hok : d.dlBlock c rnti mcs numSymNeeded = .ok block) :
    Grows rnti d block.2 ∧ block.1.IsFor rnti := by
  unfold dlBlock at hok
  obtain ⟨subframe, hsubframe, hok⟩ := bind_eq_ok.1 hok
  obtain ⟨result, hresult, hok⟩ := bind_eq_ok.1 hok
  obtain ⟨⟨⟩, -, hok⟩ := bind_eq_ok.1 hok
  obtain ⟨next, hnext, hok⟩ := bind_eq_ok.1 hok
  obtain rfl := pure_eq_ok.1 hok
  have hgrows : Grows rnti d next := (grows_updateDlHarqProcessId hresult).trans
    (grows_storeDl hnext)
  exact ⟨.of_same hgrows.outlines (slotAllocInfo_takeSymbols hsubframe), rfl, rfl⟩

theorem grows_dlBlocks {rounds numSymNeeded : Nat} {blocks : List SlotAllocInfo × Grants B}
    (hok : d.dlBlocks c rnti mcs rounds numSymNeeded = .ok blocks) :
    Grows rnti d blocks.2 ∧ ∀ slot ∈ blocks.1, slot.IsFor rnti := by
  induction rounds generalizing numSymNeeded d blocks with
  | zero => cases hok
  | succ rounds ih =>
      unfold dlBlocks at hok
      obtain ⟨block, hblock, hok⟩ := bind_eq_ok.1 hok
      obtain ⟨hgrows, hfor⟩ := grows_dlBlock hblock
      split at hok
      · obtain ⟨rest, hrest, hok⟩ := bind_eq_ok.1 hok
        obtain rfl := pure_eq_ok.1 hok
        obtain ⟨hmore, hall⟩ := ih hrest
        exact ⟨hgrows.trans hmore, List.forall_mem_cons.2 ⟨hfor, hall⟩⟩
      · obtain rfl := pure_eq_ok.1 hok
        exact ⟨hgrows, List.forall_mem_singleton.2 hfor⟩

theorem grows_storePdu {harqId : Nat} {pdu : RlcPduInfo}
    (hok : d.storePdu c rnti harqId pdu = .ok d') : Grows rnti d d' := by
  unfold storePdu at hok
  split at hok
  · obtain ⟨pdus, -, hok⟩ := bind_eq_ok.1 hok
    obtain ⟨stored, -, hok⟩ := bind_eq_ok.1 hok
    obtain rfl := pure_eq_ok.1 hok
    refine .of_same ?_ rfl
    simp [HarqProcesses.outlines]
  · obtain rfl := pure_eq_ok.1 hok
    exact .refl

theorem grows_fillPdus {harqId avgPduSize remTbSize : Nat} {pdus : List RlcPduInfo}
    {filled : List RlcPduInfo × List RlcPduInfo × Grants B}
    (hok : d.fillPdus c book rnti harqId avgPduSize remTbSize pdus = .ok filled) :
    Grows rnti d filled.2.2 := by
  induction pdus generalizing remTbSize d filled with
  | nil =>
      obtain rfl := pure_eq_ok.1 hok
      exact .refl
  | cons pdu rest ih =>
      unfold fillPdus at hok
      split at hok
      · obtain rfl := pure_eq_ok.1 hok
        exact .refl
      · obtain ⟨⟨⟩, -, hok⟩ := bind_eq_ok.1 hok
        obtain ⟨buffers, -, hok⟩ := bind_eq_ok.1 hok
        have hbuffers : Grows rnti d { d with buffers } := .of_same rfl rfl
        split at hok
        · obtain ⟨next, hnext, hok⟩ := bind_eq_ok.1 hok
          obtain rfl := pure_eq_ok.1 hok
          exact hbuffers.trans (grows_storePdu hnext)
        · obtain ⟨next, hnext, hok⟩ := bind_eq_ok.1 hok
          obtain ⟨more, hmore, hok⟩ := bind_eq_ok.1 hok
          obtain rfl := pure_eq_ok.1 hok
          have hrest : Grows rnti next more.2.2 := ih hmore
          exact (hbuffers.trans (grows_storePdu hnext)).trans hrest

theorem grows_allocateDl {slot : SlotAllocInfo} (hslot : slot.IsFor rnti)
    (rlcPduInfo : List RlcPduInfo) : Grows rnti d (allocateDl slot rlcPduInfo d) := by
  by_cases hempty : rlcPduInfo = []
  · refine .of_same rfl ?_
    unfold allocateDl
    dsimp only
    rw [if_pos hempty]
  · have hfilled : ({ slot with rlcPduInfo } : SlotAllocInfo).IsFor rnti := ⟨hslot.dci, hslot.slot⟩
    refine .push hfilled rfl ?_
    unfold allocateDl
    dsimp only
    rw [if_neg hempty]

theorem grows_fillSlots {avgPduSize : Nat} {slots : List SlotAllocInfo} {pdus : List RlcPduInfo}
    {result : List RlcPduInfo × Grants B} (hslots : ∀ slot ∈ slots, slot.IsFor rnti)
    (hok : d.fillSlots c book rnti avgPduSize slots pdus = .ok result) :
    Grows rnti d result.2 := by
  induction slots generalizing pdus d with
  | nil =>
      obtain rfl := pure_eq_ok.1 hok
      exact .refl
  | cons slot rest ih =>
      unfold fillSlots at hok
      obtain ⟨filled, hfilled, hok⟩ := bind_eq_ok.1 hok
      rw [List.forall_mem_cons] at hslots
      have hallocated := (grows_fillPdus hfilled).trans (grows_allocateDl hslots.1 filled.1)
      exact hallocated.trans (ih hslots.2 hok)

theorem grows_grantDl {numSym : Nat} {pdus : List RlcPduInfo}
    (hok : d.grantDl c book rnti mcs numSym pdus = .ok d') : Grows rnti d d' := by
  unfold grantDl at hok
  obtain ⟨blocks, hblocks, hok⟩ := bind_eq_ok.1 hok
  obtain ⟨avgPduSize, -, hok⟩ := bind_eq_ok.1 hok
  obtain ⟨result, hresult, hok⟩ := bind_eq_ok.1 hok
  obtain rfl := pure_eq_ok.1 hok
  obtain ⟨hgrows, hall⟩ := grows_dlBlocks hblocks
  exact hgrows.trans (grows_fillSlots hall hresult)

/-! ## Uplink -/

theorem grows_allocateUl {sfnSf : SfnSf} {slot : SlotAllocInfo} (hslot : slot.IsFor rnti) :
    Grows rnti d (allocateUl c sfnSf slot d) := .push hslot rfl rfl

theorem grows_ulBlock {sfnSf : SfnSf} {numSymNeeded : Nat} {block : SlotAllocInfo × Grants B}
    (hok : d.ulBlock c book sfnSf rnti mcs numSymNeeded = .ok block) : Grows rnti d block.2 := by
  unfold ulBlock at hok
  obtain ⟨subframe, hsubframe, hok⟩ := bind_eq_ok.1 hok
  obtain ⟨result, hresult, hok⟩ := bind_eq_ok.1 hok
  obtain ⟨⟨⟩, -, hok⟩ := bind_eq_ok.1 hok
  obtain ⟨buffers, -, hok⟩ := bind_eq_ok.1 hok
  obtain ⟨next, hnext, hok⟩ := bind_eq_ok.1 hok
  obtain rfl := pure_eq_ok.1 hok
  have htaken : Grows rnti d { result.2 with subframe, buffers } :=
    .of_same (grows_updateUlHarqProcessId hresult).outlines (slotAllocInfo_takeSymbols hsubframe)
  exact (htaken.trans (grows_allocateUl ⟨rfl, rfl⟩)).trans (grows_storeUl hnext)

theorem grows_grantUl {sfnSf : SfnSf} {numSym : Nat}
    (hok : d.grantUl c book sfnSf rnti mcs numSym = .ok d') : Grows rnti d d' := by
  unfold grantUl at hok
  generalize roundsFor c numSym = rounds at hok
  induction rounds generalizing numSym d with
  | zero => cases hok
  | succ rounds ih =>
      unfold ulBlocks at hok
      obtain ⟨block, hblock, hok⟩ := bind_eq_ok.1 hok
      have hgrows := grows_ulBlock hblock
      split at hok
      · exact hgrows.trans (ih hok)
      · obtain rfl := pure_eq_ok.1 hok
        exact hgrows

end Grants

end NtnIab.Mmwave
