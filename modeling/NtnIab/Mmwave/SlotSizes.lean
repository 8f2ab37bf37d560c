import NtnIab.Mmwave.BlockSizes

/-!
# Whether the blocks of both directions fit into their grants

A downlink slot names the channels of its block, with the bytes that each of them has together with
its subheader. The uplink is in the module before.

## Strategy

The loop over the channels collects one PDU for each of them (`offer_spec`). If the slot is
accepted, the block has the size of these PDUs; and that of an empty subheader more, if the PDUs are
counted to 0 with 8 bits (`finish_spec`).
-/

namespace NtnIab.Mmwave

open Fallible

namespace DownlinkMac

section
variable (answer : List TxOpportunityParameters → List UInt8) (sfnSf : SfnSf)
  (slot : SlotAllocInfo) (m : DownlinkMac)

/-- The slot is accepted: its UE and channels are attached, its process is there, and no block
waits under its key. -/
def Ready : Prop :=
  slot.dci.format = 0 ∧ 0 < slot.rlcPduInfo.length ∧
  m.macPduMap.find (tbMapKey slot.dci.rnti slot.dci.harqProcess) = none ∧
  (processOf m.dlHarqProcesses slot.dci.rnti slot.dci.harqProcess).isSome ∧
  ∃ channels, m.rlcAttached.find slot.dci.rnti = some channels ∧
    ∀ info ∈ slot.rlcPduInfo, UInt8.ofNat info.lcid ∈ channels

/-- What is claimed of a slot: its block is within the grant, and no opportunity is larger than the
size it was taken from. -/
def SlotWithin : Prop :=
  ∀ m', m.schedSlot (fun ops => some (answer ops)) sfnSf slot = .ok m' →
    (∀ block, m'.sent = m.sent ++ [block] → block.bytes.length ≤ slot.dci.tbSize) ∧
    ∀ offered ∈ (m'.notified.drop m.notified.length).zip slot.rlcPduInfo,
      offered.1.bytes ≤ offered.2.size

/-- The bytes that are set aside for the subheader of a size. -/
def setAside (size : Nat) : Nat := if size > 127 then 3 else 2

/-- What the channels of the slot take if they fill their opportunities. -/
def slotDemand : Nat :=
  (slot.rlcPduInfo.map fun info => withHeader (info.size - setAside info.size)).sum +
    if slot.rlcPduInfo.length % 2 ^ 8 = 0 then 2 else 0

/-- What was collected for these opportunities. -/
structure Offered (ops : List TxOpportunityParameters) (m' : DownlinkMac) : Prop where
  notified : m'.notified = m.notified ++ ops
  sent : m'.sent = m.sent
  entry : ∃ it, m'.macPduMap.find (tbMapKey slot.dci.rnti slot.dci.harqProcess) = some it ∧
    it.toMacPduInfo = gather (answers answer m.notified ops) ∧
    it.numRlcPdu = ops.length % 2 ^ 8
  process : (processOf m'.dlHarqProcesses slot.dci.rnti slot.dci.harqProcess).isSome

variable {answer sfnSf slot m} {m' : DownlinkMac} {ops : List TxOpportunityParameters}

/-- The process may be rewritten. -/
theorem Offered.atProcess (h : Offered answer slot m ops m')
    (f : DlHarqProcessInfo → DlHarqProcessInfo) :
    ∃ processes, m'.atProcess slot f = .ok { m' with dlHarqProcesses := processes } ∧
      Offered answer slot m ops { m' with dlHarqProcesses := processes } := by
  obtain ⟨process, hprocess⟩ := Option.isSome_iff_exists.1 h.process
  obtain ⟨processes, hfind, hget⟩ := Option.bind_eq_some_iff.1 hprocess
  refine ⟨setProcess m'.dlHarqProcesses slot.dci.rnti slot.dci.harqProcess (f process), ?_,
    h.notified, h.sent, h.entry, ?_⟩
  · unfold DownlinkMac.atProcess
    rw [lookUp_eq_ok.2 hfind, ok_bind, elementAt_eq_ok.2 hget]
    rfl
  · dsimp only
    rw [processOf_setProcess, if_pos ⟨rfl, rfl⟩, hprocess]
    rfl

/-- A PDU is put into the block. -/
theorem notify_spec (h : Offered answer slot m ops m') (info : RlcPduInfo) :
    ∃ m'', m'.notifyTxOpportunity (fun ops => some (answer ops)) (txOpParams slot info) =
      .ok m'' ∧ Offered answer slot m (ops ++ [txOpParams slot info]) m'' := by
  obtain ⟨it, hfind, hinfo, hcount⟩ := h.entry
  have hlookUp : lookUp Fault.fatalError m'.macPduMap
      (tbMapKey slot.dci.rnti slot.dci.harqProcess) = .ok it := lookUp_eq_ok.2 hfind
  have hgathered : it.toMacPduInfo.addRlcPdu
      ⟨UInt8.ofNat info.lcid, answer (m'.notified ++ [txOpParams slot info])⟩ =
      gather (answers answer m.notified (ops ++ [txOpParams slot info])) := by
    rw [answers_append, hinfo, h.notified]
    exact (gather_concat ..).symm
  have hcounted : (it.numRlcPdu + 1) % 2 ^ 8 = (ops ++ [txOpParams slot info]).length % 2 ^ 8 := by
    rw [hcount, List.length_append, List.length_singleton]
    omega
  have hnotified : m'.notified ++ [txOpParams slot info] =
      m.notified ++ (ops ++ [txOpParams slot info]) := by
    rw [h.notified, List.append_assoc]
  unfold notifyTxOpportunity doTransmitPdu
  dsimp only [txOpParams] at hlookUp ⊢
  rw [hlookUp]
  exact ⟨_, rfl, hnotified, h.sent,
    ⟨_, OrderedMap.find_assign.trans (if_pos rfl), hgathered, hcounted⟩, h.process⟩

/-- One channel of the slot answers with one PDU. -/
theorem offer_spec (h : Offered answer slot m ops m') {channels : List UInt8} {info : RlcPduInfo}
    (hattached : UInt8.ofNat info.lcid ∈ channels) :
    ∃ m'', m'.offer (fun ops => some (answer ops)) slot channels info = .ok m'' ∧
      Offered answer slot m (ops ++ [txOpParams slot info]) m'' := by
  obtain ⟨next, hnext, h'⟩ := notify_spec h info
  obtain ⟨processes, hprocesses, h''⟩ := h'.atProcess fun process =>
    { process with lcidList := process.lcidList ++ [UInt8.ofNat info.lcid] }
  unfold offer
  rw [assert_eq_ok (u := ()).2 hattached, ok_bind, hnext, ok_bind]
  exact ⟨_, hprocesses, h''⟩

/-- The loop over the channels collects one PDU for each. -/
theorem offers_spec (h : Offered answer slot m ops m') {channels : List UInt8}
    {infos : List RlcPduInfo} (hattached : ∀ info ∈ infos, UInt8.ofNat info.lcid ∈ channels) :
    ∃ m'', infos.foldlM (offer (fun ops => some (answer ops)) slot channels) m' = .ok m'' ∧
      Offered answer slot m (ops ++ infos.map (txOpParams slot)) m'' := by
  induction infos generalizing m' ops with
  | nil => exact ⟨m', rfl, by rwa [List.map_nil, List.append_nil]⟩
  | cons info rest ih =>
      rw [List.forall_mem_cons] at hattached
      obtain ⟨next, hnext, h'⟩ := offer_spec h hattached.1
      obtain ⟨last, hlast, h''⟩ := ih h' hattached.2
      refine ⟨last, ?_, ?_⟩
      · rw [List.foldlM_cons, hnext]
        exact hlast
      · rwa [List.map_cons, List.append_cons]

/-- The opportunities of a slot have 32 bits. -/
theorem txOpParams_lt (info : RlcPduInfo) : (txOpParams slot info).bytes < 2 ^ 32 :=
  Nat.mod_lt _ (by decide)

/-- The bytes of a block, and those with the subheader of an empty PDU. -/
theorem length_serialize (pdus : List RlcPdu) :
    ((gather pdus).macHeader.serialize ++ (gather pdus).pdu).length = blockSize pdus :=
  length_macPdu 0 pdus

theorem length_serialize_empty {pdus : List RlcPdu} (hsmall : ∀ pdu ∈ pdus, pdu.Small) :
    (((gather pdus).macHeader.addSubheader ⟨3, 0⟩).serialize ++ (gather pdus).pdu).length =
      blockSize pdus + 2 := by
  have hempty : gather (pdus ++ [⟨3, []⟩]) =
      { pdu := (gather pdus).pdu
        macHeader := (gather pdus).macHeader.addSubheader ⟨3, 0⟩ } := by
    rw [gather_concat]
    unfold MacPduInfo.addRlcPdu
    rw [List.append_nil]
    rfl
  have hsmall' : ∀ pdu ∈ pdus ++ [⟨3, []⟩], pdu.Small :=
    List.forall_mem_append.2 ⟨hsmall, List.forall_mem_singleton.2 (Nat.two_pow_pos 32)⟩
  have hlength := length_serialize (pdus ++ [⟨3, []⟩])
  rw [hempty, blockSize_eq hsmall', List.map_append, List.sum_append,
    ← blockSize_eq hsmall] at hlength
  exact hlength

/-- A block with a PDU is not empty. -/
theorem blockSize_pos {pdus : List RlcPdu} (hsmall : ∀ pdu ∈ pdus, pdu.Small) (hne : pdus ≠ []) :
    0 < blockSize pdus := by
  rw [blockSize_eq hsmall]
  cases pdus with
  | nil => exact (hne rfl).elim
  | cons pdu rest =>
      have hheader : 0 < headerBytes pdu.bytes.length := by
        unfold headerBytes
        split_ifs <;> omega
      rw [List.map_cons, List.sum_cons]
      unfold withHeader
      omega

/-- The block that is sent: that of the PDUs, with the subheader of an empty one if they are counted
to 0. -/
theorem finish_spec (hcompliant : Compliant answer) (hops : ∀ params ∈ ops, params.bytes < 2 ^ 32)
    (h : Offered answer slot m ops m') :
    ∃ m'' block, m'.finish slot = .ok m'' ∧ m''.sent = m.sent ++ [block] ∧
      m''.notified = m'.notified ∧ block.bytes.length =
        blockSize (answers answer m.notified ops) + if ops.length % 2 ^ 8 = 0 then 2 else 0 := by
  obtain ⟨it, hfind, hinfo, hcount⟩ := h.entry
  have hsmall := answers_small m.notified hcompliant hops
  generalize hheader : (if it.numRlcPdu = 0 then it.macHeader.addSubheader ⟨3, 0⟩
    else it.macHeader) = header
  have hlength : (header.serialize ++ it.pdu).length =
      blockSize (answers answer m.notified ops) + if ops.length % 2 ^ 8 = 0 then 2 else 0 := by
    have hmacHeader : it.macHeader = (gather (answers answer m.notified ops)).macHeader :=
      congrArg MacPduInfo.macHeader hinfo
    have hpdu : it.pdu = (gather (answers answer m.notified ops)).pdu :=
      congrArg MacPduInfo.pdu hinfo
    rw [← hheader, hcount, hmacHeader, hpdu]
    split
    · exact length_serialize_empty hsmall
    · exact length_serialize _
  have hpos : 0 < (header.serialize ++ it.pdu).length := by
    rw [hlength]
    split
    · omega
    · rename_i hcounted
      refine blockSize_pos hsmall fun hnil => hcounted ?_
      cases ops with
      | nil => rfl
      | cons params rest => cases hnil
  obtain ⟨processes, hprocesses, h'⟩ := h.atProcess fun process =>
    { process with pktBurst := process.pktBurst ++ [{
        rnti := slot.dci.rnti
        bytes := header.serialize ++ it.pdu
        sfnSf := it.sfnSf
        layerInd := it.layerInd }] }
  unfold finish
  dsimp only
  rw [lookUp_eq_ok.2 hfind, ok_bind, hheader, assert_eq_ok (u := ()).2 hpos, ok_bind, hprocesses]
  exact ⟨_, _, rfl, congrArg (· ++ _) h.sent, rfl, hlength⟩

/-- A slot that is accepted is sent with one block. -/
theorem schedSlot_of_ready (sfnSf : SfnSf)
    (hdl : slot.slotType ≠ .ctrl ∧ slot.tddMode = .dl)
    (hnew : slot.dci.ndi = 1) (hcompliant : Compliant answer) (hready : Ready slot m) :
    ∃ m' block, m.schedSlot (fun ops => some (answer ops)) sfnSf slot = .ok m' ∧
      m'.sent = m.sent ++ [block] ∧
      m'.notified = m.notified ++ slot.rlcPduInfo.map (txOpParams slot) ∧
      block.bytes.length =
        blockSize (answers answer m.notified (slot.rlcPduInfo.map (txOpParams slot))) +
          if slot.rlcPduInfo.length % 2 ^ 8 = 0 then 2 else 0 := by
  obtain ⟨hformat, hinfos, hnone, hprocess, channels, hchannels, hattached⟩ := hready
  have hstart : Offered answer slot m [] { m with
      macPduMap := m.macPduMap.insertNew (tbMapKey slot.dci.rnti slot.dci.harqProcess) {
        sfnSf := { sfnSf with slotNum := slot.dci.symStart }
        layerInd := slot.dci.layerInd
        size := slot.dci.tbSize
        numRlcPdu := 0 } } := by
    refine ⟨(List.append_nil _).symm, rfl, ⟨{
      sfnSf := { sfnSf with slotNum := slot.dci.symStart }
      layerInd := slot.dci.layerInd
      size := slot.dci.tbSize
      numRlcPdu := 0 }, ?_, rfl, rfl⟩, hprocess⟩
    dsimp only
    rw [OrderedMap.find_insertNew, if_pos rfl, hnone]
    rfl
  obtain ⟨processes, hprocesses, hcleared⟩ := hstart.atProcess fun _ => {}
  obtain ⟨m', hm', hoffered⟩ := offers_spec hcleared hattached
  have hops : ∀ params ∈ [] ++ slot.rlcPduInfo.map (txOpParams slot), params.bytes < 2 ^ 32 := by
    intro params hparams
    obtain ⟨info, -, rfl⟩ := List.mem_map.1 hparams
    exact txOpParams_lt info
  obtain ⟨m'', block, hfinish, hsent, hnotified, hlength⟩ := finish_spec hcompliant hops hoffered
  rw [List.nil_append, List.length_map] at hlength
  refine ⟨m'', block, ?_, hsent, ?_, hlength⟩
  · unfold schedSlot
    rw [if_pos hdl, lookUp_eq_ok.2 hchannels, ok_bind, if_pos hnew]
    unfold newData
    dsimp only
    rw [assert_eq_ok (u := ()).2 hformat, ok_bind, assert_eq_ok (u := ()).2 hinfos, ok_bind, hnone]
    dsimp only
    rw [ok_bind, hprocesses, ok_bind, hm', ok_bind, hfinish]
  · rw [hnotified, hoffered.notified]
    rfl

/-- Each turn of the loop asserts that its channel is attached. -/
theorem attached_of_offers {rlc : RlcEntities} {channels : List UInt8} {infos : List RlcPduInfo}
    {last : DownlinkMac} (hloop : infos.foldlM (offer rlc slot channels) m' = .ok last) :
    ∀ info ∈ infos, UInt8.ofNat info.lcid ∈ channels := by
  induction infos generalizing m' with
  | nil => exact fun info hinfo => (List.not_mem_nil hinfo).elim
  | cons info rest ih =>
      rw [List.foldlM_cons] at hloop
      obtain ⟨next, hnext, hrest⟩ := bind_eq_ok.1 hloop
      obtain ⟨⟨⟩, hassert, -⟩ := bind_eq_ok.1 hnext
      exact List.forall_mem_cons.2 ⟨assert_eq_ok.1 hassert, ih hrest⟩

/-- A slot that is sent was accepted. -/
theorem ready_of_schedSlot (hdl : slot.slotType ≠ .ctrl ∧ slot.tddMode = .dl)
    (hnew : slot.dci.ndi = 1)
    (hok : m.schedSlot (fun ops => some (answer ops)) sfnSf slot = .ok m') : Ready slot m := by
  unfold schedSlot at hok
  rw [if_pos hdl] at hok
  obtain ⟨channels, hchannels, hok⟩ := bind_eq_ok.1 hok
  rw [if_pos hnew] at hok
  unfold newData at hok
  dsimp only at hok
  obtain ⟨⟨⟩, hformat, hok⟩ := bind_eq_ok.1 hok
  obtain ⟨⟨⟩, hinfos, hok⟩ := bind_eq_ok.1 hok
  split at hok
  · cases hok
  · rename_i hnone
    obtain ⟨inserted, hinserted, hok⟩ := bind_eq_ok.1 hok
    obtain ⟨cleared, hcleared, hok⟩ := bind_eq_ok.1 hok
    obtain ⟨last, hloop, -⟩ := bind_eq_ok.1 hok
    obtain rfl := Except.ok.inj hinserted
    obtain ⟨processes, hprocesses, hcleared⟩ := bind_eq_ok.1 hcleared
    obtain ⟨process, hprocess, -⟩ := bind_eq_ok.1 hcleared
    refine ⟨assert_eq_ok.1 hformat, assert_eq_ok.1 hinfos, hnone,
      Option.isSome_iff_exists.2 ⟨process, Option.bind_eq_some_iff.2
        ⟨processes, lookUp_eq_ok.1 hprocesses, elementAt_eq_ok.1 hprocess⟩⟩,
      channels, lookUp_eq_ok.1 hchannels, attached_of_offers hloop⟩

theorem txOpParams_bytes {info : RlcPduInfo} (hlt : info.size < 2 ^ 32) (hroom : 2 ≤ info.size) :
    (txOpParams slot info).bytes = info.size - setAside info.size := by
  unfold txOpParams setAside
  dsimp only
  rw [getSize_ofNat hlt]
  split
  · rw [sub32_of_le (by omega) hlt]
  · rw [sub32_of_le hroom hlt]

/-- An opportunity is no larger than its size exactly if there is room for a subheader. -/
theorem txOpParams_le_iff {info : RlcPduInfo} (hlt : info.size < 2 ^ 32) :
    (txOpParams slot info).bytes ≤ info.size ↔ 2 ≤ info.size := by
  constructor
  · intro hle
    by_contra hsmall
    have hbytes : (txOpParams slot info).bytes = sub32 info.size 2 := by
      unfold txOpParams
      dsimp only
      rw [getSize_ofNat hlt, if_neg (by omega)]
    rw [hbytes] at hle
    unfold sub32 at hle
    omega
  · intro hroom
    rw [txOpParams_bytes hlt hroom]
    exact Nat.sub_le _ _

/-- With room for the subheaders, filled opportunities take what the slot demands. -/
theorem demand_eq {infos : List RlcPduInfo} (hlt : ∀ info ∈ infos, info.size < 2 ^ 32)
    (hroom : ∀ info ∈ infos, 2 ≤ info.size) :
    demand (infos.map (txOpParams slot)) =
      (infos.map fun info => withHeader (info.size - setAside info.size)).sum := by
  unfold demand
  rw [List.map_map]
  refine congrArg List.sum (List.map_congr_left fun info hinfo => ?_)
  rw [Function.comp_apply, txOpParams_bytes (hlt info hinfo) (hroom info hinfo)]

/-- The opportunities of a slot, each with the element it is for. -/
theorem forall_mem_zip {infos : List RlcPduInfo} :
    (∀ offered ∈ (infos.map (txOpParams slot)).zip infos, offered.1.bytes ≤ offered.2.size) ↔
      ∀ info ∈ infos, (txOpParams slot info).bytes ≤ info.size := by
  induction infos with
  | nil => simp
  | cons info rest ih =>
      rw [List.map_cons, List.zip_cons_cons, List.forall_mem_cons, List.forall_mem_cons, ih]

/-- Whatever compliant RLC entities send, a slot is within its grant exactly if every size has room
for a subheader and the demand of the channels fits, unless the slot is not accepted. -/
theorem slotWithin_iff (hdl : slot.slotType ≠ .ctrl ∧ slot.tddMode = .dl)
    (hnew : slot.dci.ndi = 1) (hlt : ∀ info ∈ slot.rlcPduInfo, info.size < 2 ^ 32) :
    (∀ answer, Compliant answer → SlotWithin answer sfnSf slot m) ↔
      (Ready slot m →
        (∀ info ∈ slot.rlcPduInfo, 2 ≤ info.size) ∧ slotDemand slot ≤ slot.dci.tbSize) := by
  have hops : ∀ params ∈ slot.rlcPduInfo.map (txOpParams slot), params.bytes < 2 ^ 32 := by
    intro params hparams
    obtain ⟨info, -, rfl⟩ := List.mem_map.1 hparams
    exact txOpParams_lt info
  constructor
  · intro hall hready
    obtain ⟨m', block, hok, hsent, hnotified, hlength⟩ := schedSlot_of_ready sfnSf hdl
      hnew compliant_fillOpportunity hready
    obtain ⟨hblock, hoffered⟩ := hall _ compliant_fillOpportunity m' hok
    rw [hnotified, List.drop_left, forall_mem_zip] at hoffered
    have hroom : ∀ info ∈ slot.rlcPduInfo, 2 ≤ info.size := fun info hinfo =>
      (txOpParams_le_iff (hlt info hinfo)).1 (hoffered info hinfo)
    refine ⟨hroom, ?_⟩
    have hle := hblock block hsent
    rwa [hlength, blockSize_fill hops, demand_eq hlt hroom] at hle
  · intro hfits answer hcompliant m' hok
    have hready := ready_of_schedSlot hdl hnew hok
    obtain ⟨hroom, hdemand⟩ := hfits hready
    obtain ⟨m'', block, hok', hsent, hnotified, hlength⟩ := schedSlot_of_ready sfnSf hdl
      hnew hcompliant hready
    obtain rfl := Except.ok.inj (hok.symm.trans hok')
    constructor
    · intro other hother
      obtain ⟨-, heq⟩ := List.append_inj' (hother.symm.trans hsent) rfl
      rw [(List.cons.inj heq).1, hlength]
      refine Nat.le_trans (Nat.add_le_add_right (blockSize_le hcompliant hops) _) ?_
      rwa [demand_eq hlt hroom]
    · rw [hnotified, List.drop_left, forall_mem_zip]
      exact fun info hinfo => (txOpParams_le_iff (hlt info hinfo)).2 (hroom info hinfo)

end

end DownlinkMac

/-! ## The claim -/

/-- The blocks of both directions keep to their grants, for all compliant RLC entities, exactly
under these conditions: in the downlink every size has room for a subheader and the filled opportunities
fit with their subheaders, or the slot is not accepted; in the uplink the same of the opportunities
that the loop offers. -/
theorem blocks_within_grants_iff (c : UplinkConfig) (sfnSf : SfnSf) :
    (∀ (slot : SlotAllocInfo) (m : DownlinkMac), slot.slotType ≠ .ctrl ∧ slot.tddMode = .dl →
      slot.dci.ndi = 1 → (∀ info ∈ slot.rlcPduInfo, info.size < 2 ^ 32) →
      ((∀ answer, Compliant answer → m.SlotWithin answer sfnSf slot) ↔
        (m.Ready slot →
          (∀ info ∈ slot.rlcPduInfo, 2 ≤ info.size) ∧
            DownlinkMac.slotDemand slot ≤ slot.dci.tbSize))) ∧
    ∀ (dci : DciInfoElementTdma) (s : UplinkMac), dci.ndi = 1 → dci.tbSize < 2 ^ 32 →
      ((∀ answer, Compliant answer →
        s.WithinGrant dci (s.receiveUlDci c (fun ops => some (answer ops)) dci)) ↔
        s.GrantSuffices dci c) :=
  ⟨fun _ _ hdl hnew hlt => DownlinkMac.slotWithin_iff hdl hnew hlt,
    fun _ _ hnew htb => UplinkMac.withinGrant_iff hnew htb⟩

/-- A gNB with one UE, whose channel 3 is attached. -/
def oneUe : DownlinkMac where
  rlcAttached := [(1, [3])]
  dlHarqProcesses := [(1, [{}])]

/-- A slot of the UE with one PDU of this size, which is that of the block. -/
def onePdu (size : Nat) : SlotAllocInfo where
  tddMode := .dl
  slotType := .ctrlData
  rnti := some 1
  dci := { rnti := 1, tbSize := size, ndi := 1 }
  rlcPduInfo := [{ lcid := 3, size := size }]

/-- A UE with a status PDU of 19 bytes. -/
def oneStatus : UplinkMac where
  rnti := 1
  frameNum := 0
  ulHarqProcesses := [{}]
  sfNum := 0
  lcInfoMap := [3]
  ulBsrReceived := [(3, { statusPduSize := 19 })]
  lcsOrdered := by decide
  fewLcs := by decide
  bsrOrdered := by
    unfold OrderedMap.Ordered
    decide

theorem blocks_within_grants_of_small :
    (∀ answer, Compliant answer → oneUe.SlotWithin answer {} (onePdu 100)) ∧
    ∀ answer, Compliant answer → UplinkMac.WithinGrant { tbSize := 40, ndi := 1 }
      UplinkMac.statusAndData (UplinkMac.statusAndData.receiveUlDci {}
        (fun ops => some (answer ops)) { tbSize := 40, ndi := 1 }) := by
  obtain ⟨hdl, hul⟩ := blocks_within_grants_iff {} {}
  exact ⟨(hdl (onePdu 100) oneUe (by decide) rfl (by decide)).2 fun _ => by decide,
    (hul { tbSize := 40, ndi := 1 } UplinkMac.statusAndData rfl (by decide)).2 (by decide +kernel)⟩

/-- A PDU of 19997 bytes has a subheader of four, where three were set aside; and a status PDU of 19
bytes does not fit into 20 with its subheader. -/
theorem not_blocks_within_grants :
    (¬ ∀ (sfnSf : SfnSf) (slot : SlotAllocInfo) (m : DownlinkMac),
      slot.slotType ≠ .ctrl ∧ slot.tddMode = .dl → slot.dci.ndi = 1 →
      (∀ info ∈ slot.rlcPduInfo, info.size < 2 ^ 32) →
      (slot.rlcPduInfo.map (·.size)).sum ≤ slot.dci.tbSize →
      ∀ answer, Compliant answer → m.SlotWithin answer sfnSf slot) ∧
    ¬ ∀ (c : UplinkConfig) (dci : DciInfoElementTdma) (s : UplinkMac), dci.ndi = 1 →
      dci.tbSize < 2 ^ 32 → ∀ answer, Compliant answer →
      s.WithinGrant dci (s.receiveUlDci c (fun ops => some (answer ops)) dci) := by
  constructor
  · intro hall
    have hready : oneUe.Ready (onePdu 20000) :=
      ⟨rfl, by decide, rfl, by decide, [3], rfl, by decide⟩
    have hfits := (DownlinkMac.slotWithin_iff (by decide) rfl (by decide)).1
      (hall {} (onePdu 20000) oneUe (by decide) rfl (by decide) (by decide)) hready
    exact absurd hfits.2 (by decide)
  · intro hall
    have hsuffices := (UplinkMac.withinGrant_iff rfl (by decide)).1
      (hall {} { tbSize := 20, ndi := 1 } oneStatus rfl (by decide))
    exact absurd hsuffices (by decide +kernel)

end NtnIab.Mmwave
