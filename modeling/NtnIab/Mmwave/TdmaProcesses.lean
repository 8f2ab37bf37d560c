import NtnIab.Mmwave.FlexTtiPfTrigger
import NtnIab.Mmwave.TriggerPasses

/-!
# The HARQ processes of the TDMA schedulers

For every active process the scheduler keeps a DCI that names the UE and the process, and whose
redundancy version says how often the block was sent. New data take processes that were free, and
add slots with the first redundancy version only.

## Strategy

`Filed` is what is said of one direction. The answers to feedback and the grants keep it, and so do
the requests, so that it holds in every run of the two schedulers.
-/

namespace NtnIab.Mmwave

open Fallible

/-! ## Records of one direction -/

/-- A DCI of a process whose block was sent `count` times. -/
structure IsRecord (rnti id count : Nat) (dci : DciInfoElementTdma) : Prop where
  rnti_eq : dci.rnti = rnti
  harqProcess_eq : dci.harqProcess = id
  rv_eq : dci.rv + 1 = count
  count_le : count ≤ 4

/-- Every active process has its DCI. -/
def Filed (status : OrderedMap (List Nat)) (dcis : OrderedMap (List DciInfoElementTdma)) : Prop :=
  ∀ rnti id count, processOf status rnti id = some count → 0 < count →
    ∃ dci, processOf dcis rnti id = some dci ∧ IsRecord rnti id count dci

section

variable {status status' : OrderedMap (List Nat)} {dcis : OrderedMap (List DciInfoElementTdma)}
  {rnti id : Nat} {dci : DciInfoElementTdma}

/-- Fewer processes are active. -/
theorem Filed.mono (h : Filed status dcis)
    (hactive : ∀ rnti id count, processOf status' rnti id = some count → 0 < count →
      processOf status rnti id = some count) : Filed status' dcis :=
  fun rnti id count hcount hpos => h rnti id count (hactive rnti id count hcount hpos) hpos

theorem Filed.reset (h : Filed status dcis) : Filed (setProcess status rnti id 0) dcis := by
  refine h.mono fun k i count hcount hpos => ?_
  rw [processOf_setProcess] at hcount
  split at hcount
  · obtain ⟨_, -, rfl⟩ := Option.map_eq_some_iff.1 hcount
    exact absurd hpos (Nat.lt_irrefl 0)
  · exact hcount

theorem Filed.tick {m : MmWavePhyMacCommon} {timers : OrderedMap (List Nat)}
    {maps : OrderedMap (List Nat) × OrderedMap (List Nat)} (h : Filed status dcis)
    (hok : NtnIab.Mmwave.tick m timers status = .ok maps) : Filed maps.2 dcis := by
  refine h.mono fun k i count hcount hpos => ?_
  rcases tick_ok hok k i with hsame | ⟨hreset, -⟩
  · exact hsame ▸ hcount
  · rw [hreset] at hcount
    obtain ⟨_, -, rfl⟩ := Option.map_eq_some_iff.1 hcount
    exact absurd hpos (Nat.lt_irrefl 0)

/-- A block of the process is sent, and its DCI is kept in place of another. -/
theorem Filed.send (h : Filed status dcis) {count : Nat} (hold : (processOf dcis rnti id).isSome)
    (hdci : IsRecord rnti id count dci) :
    Filed (setProcess status rnti id count) (setProcess dcis rnti id dci) := by
  intro k i n hn hpos
  rw [processOf_setProcess] at hn
  rw [processOf_setProcess]
  by_cases heq : k = rnti ∧ i = id
  · rw [if_pos heq] at hn ⊢
    obtain ⟨rfl, rfl⟩ := heq
    obtain ⟨_, -, rfl⟩ := Option.map_eq_some_iff.1 hn
    obtain ⟨old, hold⟩ := Option.isSome_iff_exists.1 hold
    exact ⟨dci, by rw [hold, Option.map_some], hdci⟩
  · rw [if_neg heq] at hn ⊢
    exact h k i n hn hpos

/-- A UE gets processes that are not active. -/
theorem Filed.configure {n : Nat} (h : Filed status dcis) (hnew : status.find rnti = none) :
    Filed (status.insertNew rnti (List.replicate n 0))
      (dcis.insertNew rnti (List.replicate n {})) := by
  intro k i count hcount hpos
  rw [processOf_insertNew] at hcount ⊢
  by_cases hk : k = rnti
  · rw [if_pos hk, hk, hnew, Option.getD_none] at hcount
    obtain rfl := List.eq_of_mem_replicate (List.mem_of_getElem? hcount)
    exact absurd hpos (Nat.lt_irrefl 0)
  · rw [if_neg hk] at hcount ⊢
    exact h k i count hcount hpos

theorem Filed.release (h : Filed status dcis) : Filed (status.erase rnti) (dcis.erase rnti) := by
  intro k i count hcount hpos
  rw [processOf_erase] at hcount ⊢
  by_cases hk : k = rnti
  · rw [if_pos hk] at hcount
    cases hcount
  · rw [if_neg hk] at hcount ⊢
    exact h k i count hcount hpos

end

/-! ## Records of both directions -/

namespace HarqProcesses

structure Filed (h : HarqProcesses) : Prop where
  dl : NtnIab.Mmwave.Filed h.dlHarqProcessesStatus h.dlHarqProcessesDciInfoMap
  ul : NtnIab.Mmwave.Filed h.ulHarqProcessesStatus h.ulHarqProcessesDciInfoMap

/-- No process is active. -/
structure Idle (h : HarqProcesses) : Prop where
  dl : ∀ rnti id count, processOf h.dlHarqProcessesStatus rnti id = some count → count = 0
  ul : ∀ rnti id count, processOf h.ulHarqProcessesStatus rnti id = some count → count = 0

variable {h : HarqProcesses} {rnti : Nat}

theorem Filed.configureUe {m : MmWavePhyMacCommon} (hh : h.Filed) :
    (h.configureUe m rnti).Filed := by
  unfold HarqProcesses.configureUe
  cases hdl : h.dlHarqProcessesStatus.find rnti with
  | some _ =>
      cases hul : h.ulHarqProcessesStatus.find rnti with
      | some _ =>
          simp only [hul]
          exact hh
      | none =>
          simp only [hul]
          exact ⟨hh.dl, hh.ul.configure hul⟩
  | none =>
      cases hul : h.ulHarqProcessesStatus.find rnti with
      | some _ =>
          simp only [hul]
          exact ⟨hh.dl.configure hdl, hh.ul⟩
      | none =>
          simp only [hul]
          exact ⟨hh.dl.configure hdl, hh.ul.configure hul⟩

theorem Filed.releaseUe (hh : h.Filed) : (h.releaseUe rnti).Filed :=
  ⟨hh.dl.release, hh.ul.release⟩

end HarqProcesses

/-! ## New blocks -/

namespace Grants

variable {c : FlexTtiConfig} {B : Type} {book : BufferBook B} {d d' : Grants B} {rnti mcs : Nat}
  {base : List SlotAllocInfo}

/-- The records are kept, and behind the slots that were there before are slots of new blocks. -/
structure Adds (base : List SlotAllocInfo) (d : Grants B) : Prop where
  filed : d.harq.Filed
  slots : ∃ new, d.subframe.slotAllocInfo = base ++ new ∧ ∀ slot ∈ new, slot.dci.rv = 0

theorem updateDlHarqProcessId_ok (hharq : c.harqOn = true) {result : Nat × Grants B}
    (hok : d.updateDlHarqProcessId c rnti = .ok result)
    (hlt : result.1 < c.phyMac.numHarqProcess) :
    result.2 = { d with harq := { d.harq with
      dlHarqProcessesStatus := setProcess d.harq.dlHarqProcessesStatus rnti result.1 1 } } := by
  unfold updateDlHarqProcessId at hok
  rw [if_pos hharq] at hok
  obtain ⟨taken, htaken, hok⟩ := bind_eq_ok.1 hok
  obtain rfl := pure_eq_ok.1 hok
  obtain ⟨elements, -, htaken⟩ := bind_eq_ok.1 htaken
  obtain rfl := pure_eq_ok.1 htaken
  rcases HarqProcesses.takeProcess_cases c.phyMac rnti elements d.harq.dlHarqProcessesStatus with
    ⟨harqId, -, -, heq⟩ | heq
  · dsimp only
    rw [heq]
  · dsimp only at hlt
    rw [heq] at hlt
    exact absurd hlt (Nat.lt_irrefl _)

theorem updateUlHarqProcessId_ok (hharq : c.harqOn = true) {result : Nat × Grants B}
    (hok : d.updateUlHarqProcessId c rnti = .ok result)
    (hlt : result.1 < c.phyMac.numHarqProcess) :
    result.2 = { d with harq := { d.harq with
      ulHarqProcessesStatus := setProcess d.harq.ulHarqProcessesStatus rnti result.1 1 } } := by
  unfold updateUlHarqProcessId at hok
  rw [if_pos hharq] at hok
  obtain ⟨elements, helements, hok⟩ := bind_eq_ok.1 hok
  obtain rfl := pure_eq_ok.1 hok
  dsimp only at hlt ⊢
  unfold HarqProcesses.updateUlHarqProcessId at hlt ⊢
  rw [lookUp_eq_ok.1 helements] at hlt ⊢
  dsimp only at hlt ⊢
  rcases HarqProcesses.takeProcess_cases c.phyMac rnti elements d.harq.ulHarqProcessesStatus with
    ⟨harqId, -, -, heq⟩ | heq
  · rw [heq]
  · rw [heq] at hlt
    exact absurd hlt (Nat.lt_irrefl _)

theorem storeDl_ok (hharq : c.harqOn = true) {dci : DciInfoElementTdma}
    (hok : d.storeDl c dci = .ok d') :
    (processOf d.harq.dlHarqProcessesDciInfoMap dci.rnti dci.harqProcess).isSome ∧
      d' = { d with harq := d.harq.startDl dci } := by
  unfold storeDl at hok
  rw [if_pos hharq] at hok
  obtain ⟨dcis, hdcis, hok⟩ := bind_eq_ok.1 hok
  obtain ⟨old, hold, hok⟩ := bind_eq_ok.1 hok
  obtain ⟨_, -, hok⟩ := bind_eq_ok.1 hok
  obtain ⟨_, -, hok⟩ := bind_eq_ok.1 hok
  obtain rfl := pure_eq_ok.1 hok
  refine ⟨?_, rfl⟩
  rw [processOf_eq_some_iff.2 ⟨dcis, lookUp_eq_ok.1 hdcis, elementAt_eq_ok.1 hold⟩]
  rfl

theorem storeUl_ok (hharq : c.harqOn = true) {dci : DciInfoElementTdma}
    (hok : d.storeUl c dci = .ok d') :
    (processOf d.harq.ulHarqProcessesDciInfoMap dci.rnti dci.harqProcess).isSome ∧
      d' = { d with harq := d.harq.startUl dci } := by
  unfold storeUl at hok
  rw [if_pos hharq] at hok
  obtain ⟨dcis, hdcis, hok⟩ := bind_eq_ok.1 hok
  obtain ⟨old, hold, hok⟩ := bind_eq_ok.1 hok
  obtain ⟨_, -, hok⟩ := bind_eq_ok.1 hok
  obtain ⟨_, -, hok⟩ := bind_eq_ok.1 hok
  obtain ⟨_, -, hok⟩ := bind_eq_ok.1 hok
  obtain ⟨_, -, hok⟩ := bind_eq_ok.1 hok
  obtain ⟨_, -, hok⟩ := bind_eq_ok.1 hok
  obtain rfl := pure_eq_ok.1 hok
  refine ⟨?_, rfl⟩
  rw [processOf_eq_some_iff.2 ⟨dcis, lookUp_eq_ok.1 hdcis, elementAt_eq_ok.1 hold⟩]
  rfl

/-- A downlink block takes a process and makes a slot, which is added later. -/
theorem Adds.dlBlock (hharq : c.harqOn = true) (hd : Adds base d) {numSymNeeded : Nat}
    {block : SlotAllocInfo × Grants B} (hok : d.dlBlock c rnti mcs numSymNeeded = .ok block) :
    Adds base block.2 ∧ block.1.dci.rv = 0 := by
  unfold Grants.dlBlock at hok
  obtain ⟨subframe, hsubframe, hok⟩ := bind_eq_ok.1 hok
  obtain ⟨result, hresult, hok⟩ := bind_eq_ok.1 hok
  obtain ⟨_, hlt, hok⟩ := bind_eq_ok.1 hok
  obtain ⟨next, hnext, hok⟩ := bind_eq_ok.1 hok
  obtain rfl := pure_eq_ok.1 hok
  have htaken := updateDlHarqProcessId_ok hharq hresult (assert_eq_ok.1 hlt)
  obtain ⟨hold, rfl⟩ := storeDl_ok hharq hnext
  obtain ⟨_, -, hsubframe⟩ := bind_eq_ok.1 hsubframe
  obtain rfl := pure_eq_ok.1 hsubframe
  rw [htaken] at hold ⊢
  exact ⟨⟨⟨hd.filed.dl.send hold ⟨rfl, rfl, rfl, by decide⟩, hd.filed.ul⟩, hd.slots⟩, rfl⟩

theorem Adds.dlBlocks (hharq : c.harqOn = true) (hd : Adds base d) {rounds numSymNeeded : Nat}
    {blocks : List SlotAllocInfo × Grants B}
    (hok : d.dlBlocks c rnti mcs rounds numSymNeeded = .ok blocks) :
    Adds base blocks.2 ∧ ∀ slot ∈ blocks.1, slot.dci.rv = 0 := by
  induction rounds generalizing numSymNeeded d blocks with
  | zero => cases hok
  | succ rounds ih =>
      unfold Grants.dlBlocks at hok
      obtain ⟨block, hblock, hok⟩ := bind_eq_ok.1 hok
      obtain ⟨hadds, hrv⟩ := hd.dlBlock hharq hblock
      split at hok
      · obtain ⟨rest, hrest, hok⟩ := bind_eq_ok.1 hok
        obtain rfl := pure_eq_ok.1 hok
        obtain ⟨hmore, hall⟩ := ih hadds hrest
        exact ⟨hmore, List.forall_mem_cons.2 ⟨hrv, hall⟩⟩
      · obtain rfl := pure_eq_ok.1 hok
        exact ⟨hadds, List.forall_mem_singleton.2 hrv⟩

theorem Adds.storePdu (hd : Adds base d) {harqId : Nat} {pdu : RlcPduInfo}
    (hok : d.storePdu c rnti harqId pdu = .ok d') : Adds base d' := by
  unfold Grants.storePdu at hok
  split at hok
  · obtain ⟨_, -, hok⟩ := bind_eq_ok.1 hok
    obtain ⟨_, -, hok⟩ := bind_eq_ok.1 hok
    obtain rfl := pure_eq_ok.1 hok
    exact ⟨⟨hd.filed.dl, hd.filed.ul⟩, hd.slots⟩
  · obtain rfl := pure_eq_ok.1 hok
    exact hd

theorem Adds.fillPdus (hd : Adds base d) {harqId avgPduSize remTbSize : Nat}
    {pdus : List RlcPduInfo} {filled : List RlcPduInfo × List RlcPduInfo × Grants B}
    (hok : d.fillPdus c book rnti harqId avgPduSize remTbSize pdus = .ok filled) :
    Adds base filled.2.2 := by
  induction pdus generalizing remTbSize d filled with
  | nil =>
      obtain rfl := pure_eq_ok.1 hok
      exact hd
  | cons pdu rest ih =>
      unfold Grants.fillPdus at hok
      split at hok
      · obtain rfl := pure_eq_ok.1 hok
        exact hd
      · obtain ⟨_, -, hok⟩ := bind_eq_ok.1 hok
        obtain ⟨buffers, -, hok⟩ := bind_eq_ok.1 hok
        have hbuffers : Adds base { d with buffers } := ⟨hd.filed, hd.slots⟩
        split at hok
        · obtain ⟨next, hnext, hok⟩ := bind_eq_ok.1 hok
          obtain rfl := pure_eq_ok.1 hok
          exact hbuffers.storePdu hnext
        · obtain ⟨next, hnext, hok⟩ := bind_eq_ok.1 hok
          obtain ⟨more, hmore, hok⟩ := bind_eq_ok.1 hok
          obtain rfl := pure_eq_ok.1 hok
          have hkept : Adds base more.2.2 := ih (hbuffers.storePdu hnext) hmore
          exact hkept

/-- A slot of a new block goes behind the others. -/
theorem Adds.push (hd : Adds base d) {slot : SlotAllocInfo} (hrv : slot.dci.rv = 0)
    (heq : d'.subframe.slotAllocInfo = d.subframe.slotAllocInfo ++ [slot])
    (hharq : d'.harq = d.harq) : Adds base d' := by
  obtain ⟨new, hnew, hall⟩ := hd.slots
  refine ⟨hharq ▸ hd.filed, new ++ [slot], ?_, ?_⟩
  · rw [heq, hnew, List.append_assoc]
  · rw [List.forall_mem_append, List.forall_mem_singleton]
    exact ⟨hall, hrv⟩

theorem Adds.allocateDl (hd : Adds base d) {slot : SlotAllocInfo} (hrv : slot.dci.rv = 0)
    (rlcPduInfo : List RlcPduInfo) : Adds base (Grants.allocateDl slot rlcPduInfo d) := by
  by_cases hempty : rlcPduInfo = []
  · refine ⟨hd.filed, ?_⟩
    unfold Grants.allocateDl
    dsimp only
    rw [if_pos hempty]
    exact hd.slots
  · have hslots : (Grants.allocateDl slot rlcPduInfo d).subframe.slotAllocInfo =
        d.subframe.slotAllocInfo ++ [{ slot with rlcPduInfo }] := by
      unfold Grants.allocateDl
      dsimp only
      rw [if_neg hempty]
    have hrv' : ({ slot with rlcPduInfo } : SlotAllocInfo).dci.rv = 0 := hrv
    exact hd.push hrv' hslots rfl

theorem Adds.fillSlots (hd : Adds base d) {avgPduSize : Nat} {slots : List SlotAllocInfo}
    {pdus : List RlcPduInfo} {result : List RlcPduInfo × Grants B}
    (hrv : ∀ slot ∈ slots, slot.dci.rv = 0)
    (hok : d.fillSlots c book rnti avgPduSize slots pdus = .ok result) :
    Adds base result.2 := by
  induction slots generalizing pdus d with
  | nil =>
      obtain rfl := pure_eq_ok.1 hok
      exact hd
  | cons slot rest ih =>
      unfold Grants.fillSlots at hok
      obtain ⟨filled, hfilled, hok⟩ := bind_eq_ok.1 hok
      rw [List.forall_mem_cons] at hrv
      exact ih ((hd.fillPdus hfilled).allocateDl hrv.1 filled.1) hrv.2 hok

theorem Adds.grantDl (hharq : c.harqOn = true) (hd : Adds base d) {numSym : Nat}
    {pdus : List RlcPduInfo} (hok : d.grantDl c book rnti mcs numSym pdus = .ok d') :
    Adds base d' := by
  unfold Grants.grantDl at hok
  obtain ⟨blocks, hblocks, hok⟩ := bind_eq_ok.1 hok
  obtain ⟨avgPduSize, -, hok⟩ := bind_eq_ok.1 hok
  obtain ⟨result, hresult, hok⟩ := bind_eq_ok.1 hok
  obtain rfl := pure_eq_ok.1 hok
  obtain ⟨hadds, hall⟩ := hd.dlBlocks hharq hblocks
  exact hadds.fillSlots hall hresult

/-- An uplink block takes a process and adds its slot. -/
theorem Adds.ulBlock (hharq : c.harqOn = true) (hd : Adds base d) {sfnSf : SfnSf}
    {numSymNeeded : Nat} {block : SlotAllocInfo × Grants B}
    (hok : d.ulBlock c book sfnSf rnti mcs numSymNeeded = .ok block) : Adds base block.2 := by
  unfold Grants.ulBlock at hok
  obtain ⟨subframe, hsubframe, hok⟩ := bind_eq_ok.1 hok
  obtain ⟨result, hresult, hok⟩ := bind_eq_ok.1 hok
  obtain ⟨_, hlt, hok⟩ := bind_eq_ok.1 hok
  obtain ⟨buffers, -, hok⟩ := bind_eq_ok.1 hok
  obtain ⟨next, hnext, hok⟩ := bind_eq_ok.1 hok
  obtain rfl := pure_eq_ok.1 hok
  have htaken := updateUlHarqProcessId_ok hharq hresult (assert_eq_ok.1 hlt)
  obtain ⟨hold, rfl⟩ := storeUl_ok hharq hnext
  obtain ⟨_, -, hsubframe⟩ := bind_eq_ok.1 hsubframe
  obtain rfl := pure_eq_ok.1 hsubframe
  obtain ⟨new, hnew, hall⟩ := hd.slots
  unfold allocateUl at hold ⊢
  rw [htaken] at hold ⊢
  refine ⟨⟨hd.filed.dl, hd.filed.ul.send hold ⟨rfl, rfl, rfl, by decide⟩⟩, ?_⟩
  refine ⟨new ++ [_], (congrArg (· ++ [_]) hnew).trans (List.append_assoc ..), ?_⟩
  rw [List.forall_mem_append, List.forall_mem_singleton]
  exact ⟨hall, rfl⟩

theorem Adds.grantUl (hharq : c.harqOn = true) (hd : Adds base d) {sfnSf : SfnSf} {numSym : Nat}
    (hok : d.grantUl c book sfnSf rnti mcs numSym = .ok d') : Adds base d' := by
  unfold Grants.grantUl at hok
  generalize roundsFor c numSym = rounds at hok
  induction rounds generalizing numSym d with
  | zero => cases hok
  | succ rounds ih =>
      unfold ulBlocks at hok
      obtain ⟨block, hblock, hok⟩ := bind_eq_ok.1 hok
      have hadds := hd.ulBlock hharq hblock
      split at hok
      · exact ih hadds hok
      · obtain rfl := pure_eq_ok.1 hok
        exact hadds

end Grants

/-! ## Answers to feedback -/

/-- The DCI of a block that is sent once more. -/
theorem IsRecord.again {rnti id count : Nat} {dci : DciInfoElementTdma}
    (h : IsRecord rnti id count dci) (hrv : dci.rv ≠ 3) (layer start : Nat) :
    IsRecord rnti id ((count + 1) % 2 ^ 8) (dci.again layer start) := by
  obtain ⟨hrnti, hid, hcount, hle⟩ := h
  refine ⟨hrnti, hid, ?_, ?_⟩
  · show (dci.rv + 1) % 2 ^ 8 + 1 = _
    omega
  · omega

section

variable {c : FlexTtiConfig} {U : Type} {book : UeBook U}

/-- What a downlink retransmission does: it is kept, or it gets a slot. -/
theorem sendDl_ok {info : DlHarqInfo} {count : Nat} {dci : DciInfoElementTdma}
    {r r' : Retransmissions U DlHarqInfo} (hok : sendDl c book info count dci r = .ok r') :
    r.subframe.toRoom.findRetx c dci.numSym = .ok none ∧ r' = r.keep info ∨
      ∃ found slot, r.subframe.toRoom.findRetx c dci.numSym = .ok (some found) ∧
        slot.tddMode = .dl ∧ slot.slotType = .ctrlData ∧
        slot.dci = dci.again dci.layerInd found.symStart ∧
        r' = { r with
          harq := r.harq.sendDlAgain info.rnti info.harqProcessId count slot.dci
          subframe := { r.subframe with toRoom := found.room }.push slot
          ues := book.noteDl info.rnti dci.numSym r.ues } := by
  obtain ⟨found, hfound, hok⟩ := bind_eq_ok.1 hok
  cases found with
  | none =>
      cases hok
      exact Or.inl ⟨hfound, rfl⟩
  | some found =>
      obtain ⟨pdus, -, hok⟩ := bind_eq_ok.1 hok
      obtain ⟨rlcPduInfo, -, hok⟩ := bind_eq_ok.1 hok
      cases hok
      exact Or.inr ⟨found, dlRetxSlot _ _ rlcPduInfo r.subframe, hfound, rfl, rfl, rfl, rfl⟩

/-- What an uplink retransmission does: it is kept, or it gets a slot. -/
theorem sendUl_ok {info : UlHarqInfo} {count : Nat} {dci : DciInfoElementTdma}
    {r r' : Retransmissions U UlHarqInfo} (hok : sendUl c book info count dci r = .ok r') :
    r.subframe.toRoom.findRetx c dci.numSym = .ok none ∧ r' = r.keep info ∨
      ∃ found slot, r.subframe.toRoom.findRetx c dci.numSym = .ok (some found) ∧
        slot.tddMode = .ul ∧ slot.slotType = .ctrlData ∧
        slot.dci = dci.again dci.layerInd found.symStart ∧
        r' = { r with
          harq := r.harq.sendUlAgain info.rnti info.harqProcessId count slot.dci
          subframe := { r.subframe with toRoom := found.room }.push slot
          ues := book.noteUl info.rnti dci.numSym r.ues } := by
  obtain ⟨found, hfound, hok⟩ := bind_eq_ok.1 hok
  cases found with
  | none =>
      cases hok
      exact Or.inl ⟨hfound, rfl⟩
  | some found =>
      cases hok
      exact Or.inr ⟨found, ulRetxSlot _ info.rnti r.subframe, hfound, rfl, rfl, rfl, rfl⟩

/-- What an answer to downlink feedback does: the process is free after an acknowledgement and
after the last redundancy version, and another block is sent again. -/
theorem answerDl_ok {info : DlHarqInfo} {r r' : Retransmissions U DlHarqInfo}
    (hok : answerDl c book r info = .ok r') :
    ∃ count, processOf r.harq.dlHarqProcessesStatus info.rnti info.harqProcessId = some count ∧
      ((info.harqStatus = .ack ∨ count = 0) ∧
          r' = { r with harq := r.harq.resetDl info.rnti info.harqProcessId } ∨
        info.harqStatus = .nack ∧ count ≠ 0 ∧
          ∃ dci, processOf r.harq.dlHarqProcessesDciInfoMap info.rnti info.harqProcessId =
              some dci ∧
            (dci.rv = 3 ∧ r' = { r with harq := r.harq.resetDl info.rnti info.harqProcessId } ∨
              dci.rv ≠ 3 ∧ sendDl c book info count dci r = .ok r')) := by
  obtain ⟨⟨⟩, -, hok⟩ := bind_eq_ok.1 hok
  obtain ⟨status, hstatus, hok⟩ := bind_eq_ok.1 hok
  obtain ⟨pdus, -, hok⟩ := bind_eq_ok.1 hok
  obtain ⟨count, hcount, hok⟩ := bind_eq_ok.1 hok
  refine ⟨count, processOf_eq_some_iff.2 ⟨status, lookUp_eq_ok.1 hstatus,
    elementAt_eq_ok.1 hcount⟩, ?_⟩
  split at hok
  · rename_i hfree
    obtain ⟨stored, -, hok⟩ := bind_eq_ok.1 hok
    cases hok
    exact Or.inl ⟨hfree, rfl⟩
  · rename_i hlive
    obtain ⟨hnack, hpos⟩ := not_or.1 hlive
    obtain ⟨dcis, hdcis, hok⟩ := bind_eq_ok.1 hok
    obtain ⟨dci, hdci, hok⟩ := bind_eq_ok.1 hok
    obtain ⟨⟨⟩, -, hok⟩ := bind_eq_ok.1 hok
    obtain ⟨⟨⟩, -, hok⟩ := bind_eq_ok.1 hok
    have hverdict : info.harqStatus = .nack := by
      cases hsaid : info.harqStatus with
      | ack => exact absurd hsaid hnack
      | nack => rfl
    refine Or.inr ⟨hverdict, hpos, dci, processOf_eq_some_iff.2 ⟨dcis, lookUp_eq_ok.1 hdcis,
      elementAt_eq_ok.1 hdci⟩, ?_⟩
    split at hok
    · rename_i hlast
      obtain ⟨stored, -, hok⟩ := bind_eq_ok.1 hok
      cases hok
      exact Or.inl ⟨hlast, rfl⟩
    · rename_i hmore
      exact Or.inr ⟨hmore, hok⟩

/-- What an answer to uplink feedback does. Feedback that is good and of a UE without processes,
or that is not valid and of an active process, does nothing. -/
theorem answerUl_ok {info : UlHarqInfo} {r r' : Retransmissions U UlHarqInfo}
    (hok : answerUl c book r info = .ok r') :
    (info.receptionStatus = .ok ∧ r' = r ∧
        processOf r.harq.ulHarqProcessesStatus info.rnti info.harqProcessId = none) ∨
      ∃ count, processOf r.harq.ulHarqProcessesStatus info.rnti info.harqProcessId = some count ∧
        ((info.receptionStatus = .ok ∨ count = 0) ∧
            r' = { r with harq := r.harq.resetUl info.rnti info.harqProcessId } ∨
          info.receptionStatus = .notValid ∧ r' = r ∨
          info.receptionStatus = .notOk ∧ count ≠ 0 ∧
            ∃ dci, processOf r.harq.ulHarqProcessesDciInfoMap info.rnti info.harqProcessId =
                some dci ∧
              (dci.rv = 3 ∧ r' = { r with harq := r.harq.resetUl info.rnti info.harqProcessId } ∨
                dci.rv ≠ 3 ∧ sendUl c book info count dci r = .ok r')) := by
  obtain ⟨⟨⟩, -, hok⟩ := bind_eq_ok.1 hok
  split at hok
  · rename_i hgood
    split at hok
    · rename_i hnone
      cases hok
      refine Or.inl ⟨hgood, rfl, ?_⟩
      unfold processOf
      rw [hnone]
      rfl
    · rename_i status hstatus
      obtain ⟨count, hcount, hok⟩ := bind_eq_ok.1 hok
      cases hok
      exact Or.inr ⟨count, processOf_eq_some_iff.2 ⟨status, hstatus, elementAt_eq_ok.1 hcount⟩,
        Or.inl ⟨Or.inl hgood, rfl⟩⟩
  · rename_i hnot
    obtain ⟨status, hstatus, hok⟩ := bind_eq_ok.1 hok
    obtain ⟨count, hcount, hok⟩ := bind_eq_ok.1 hok
    refine Or.inr ⟨count, processOf_eq_some_iff.2 ⟨status, lookUp_eq_ok.1 hstatus,
      elementAt_eq_ok.1 hcount⟩, ?_⟩
    split at hok
    · rename_i hzero
      cases hok
      exact Or.inl ⟨Or.inr hzero, rfl⟩
    · rename_i hpos
      split at hok
      · rename_i hbad
        obtain ⟨dcis, hdcis, hok⟩ := bind_eq_ok.1 hok
        obtain ⟨dci, hdci, hok⟩ := bind_eq_ok.1 hok
        obtain ⟨⟨⟩, -, hok⟩ := bind_eq_ok.1 hok
        obtain ⟨⟨⟩, -, hok⟩ := bind_eq_ok.1 hok
        refine Or.inr (Or.inr ⟨hbad, hpos, dci, processOf_eq_some_iff.2 ⟨dcis,
          lookUp_eq_ok.1 hdcis, elementAt_eq_ok.1 hdci⟩, ?_⟩)
        split at hok
        · rename_i hlast
          cases hok
          exact Or.inl ⟨hlast, rfl⟩
        · rename_i hmore
          exact Or.inr ⟨hmore, hok⟩
      · rename_i hnotBad
        cases hok
        refine Or.inr (Or.inl ⟨?_, rfl⟩)
        cases hsaid : info.receptionStatus with
        | ok => exact absurd hsaid hnot
        | notOk => exact absurd hsaid hnotBad
        | notValid => rfl

theorem answerDl_filed {info : DlHarqInfo} {r r' : Retransmissions U DlHarqInfo}
    (hr : r.harq.Filed) (hok : answerDl c book r info = .ok r') : r'.harq.Filed := by
  obtain ⟨count, hcount, ⟨-, rfl⟩ | ⟨-, hpos, dci, hdci, ⟨-, rfl⟩ | ⟨hrv, hsend⟩⟩⟩ :=
    answerDl_ok hok
  · exact ⟨hr.dl.reset, hr.ul⟩
  · exact ⟨hr.dl.reset, hr.ul⟩
  · rcases sendDl_ok hsend with ⟨-, rfl⟩ | ⟨found, slot, -, -, -, hslot, rfl⟩
    · exact hr
    · obtain ⟨stored, hstored, hrecord⟩ := hr.dl _ _ _ hcount (Nat.pos_of_ne_zero hpos)
      obtain rfl := Option.some.inj (hdci.symm.trans hstored)
      refine ⟨hr.dl.send (by rw [hdci]; rfl) ?_, hr.ul⟩
      rw [hslot]
      exact hrecord.again hrv _ _

theorem answerUl_filed {info : UlHarqInfo} {r r' : Retransmissions U UlHarqInfo}
    (hr : r.harq.Filed) (hok : answerUl c book r info = .ok r') : r'.harq.Filed := by
  rcases answerUl_ok hok with ⟨-, rfl, -⟩ | ⟨count, hcount, ⟨-, rfl⟩ | ⟨-, rfl⟩ |
    ⟨-, hpos, dci, hdci, ⟨-, rfl⟩ | ⟨hrv, hsend⟩⟩⟩
  · exact hr
  · exact ⟨hr.dl, hr.ul.reset⟩
  · exact hr
  · exact ⟨hr.dl, hr.ul.reset⟩
  · rcases sendUl_ok hsend with ⟨-, rfl⟩ | ⟨found, slot, -, -, -, hslot, rfl⟩
    · exact hr
    · obtain ⟨stored, hstored, hrecord⟩ := hr.ul _ _ _ hcount (Nat.pos_of_ne_zero hpos)
      obtain rfl := Option.some.inj (hdci.symm.trans hstored)
      refine ⟨hr.dl, hr.ul.send (by rw [hdci]; rfl) ?_⟩
      rw [hslot]
      exact hrecord.again hrv _ _

/-- The answers of a trigger keep the records. -/
theorem answerFeedback_filed {pass pass' : RetxPass U} (hpass : pass.harq.Filed)
    (hok : answerFeedback c book pass = .ok pass') : pass'.harq.Filed := by
  unfold answerFeedback at hok
  split at hok
  · obtain ⟨dl, hdl, hok⟩ := bind_eq_ok.1 hok
    obtain ⟨ul, hul, hok⟩ := bind_eq_ok.1 hok
    cases hok
    have hbetween : dl.harq.Filed := answerInTurn_keeps (P := fun r => r.harq.Filed)
      (fun _ _ _ hr => answerDl_filed hr) hpass hdl
    exact answerInTurn_keeps (P := fun r => r.harq.Filed)
      (fun _ _ _ hr => answerUl_filed hr) hbetween hul
  · cases hok
    exact hpass

end

end NtnIab.Mmwave
