import NtnIab.Mmwave.UplinkGrant

/-!
# Downlink blocks

The scheduler says which channels a downlink slot has, and how many bytes each of them gets with
its subheader. The MAC of the gNB offers each channel its bytes less what it sets aside for the
subheader, puts the PDUs that it gets into one MAC PDU, and keeps that for the HARQ process.
-/

namespace NtnIab.Mmwave

structure DlHarqProcessInfo where
  pktBurst : List TaggedPdu := []
  lcidList : List UInt8 := []
  deriving Repr, DecidableEq

/-- What the MAC of the gNB has for its blocks. -/
structure DownlinkMac extends MmWaveEnbMac where
  macPduMap : OrderedMap GrantPdu := []
  dlHarqProcesses : OrderedMap (List DlHarqProcessInfo)
  sent : List TaggedPdu := []
  notified : List TxOpportunityParameters := []
  deriving Repr, DecidableEq

namespace DownlinkMac

variable (rlc : RlcEntities) (sfnSf : SfnSf) (slot : SlotAllocInfo)

def tbMapKey (rnti tbUid : Nat) : Nat := rnti % 2 ^ 16 * 2 ^ 8 + tbUid % 2 ^ 8

def doTransmitPdu (params : TxOpportunityParameters) (pdu : List UInt8) (m : DownlinkMac) :
    Except Fault DownlinkMac := do
  let key := tbMapKey params.rnti params.harqId
  let it ← lookUp .fatalError m.macPduMap key
  pure { m with macPduMap := m.macPduMap.assign key { it with
    toMacPduInfo := it.toMacPduInfo.addRlcPdu ⟨params.lcid, pdu⟩
    numRlcPdu := (it.numRlcPdu + 1) % 2 ^ 8 } }

def notifyTxOpportunity (params : TxOpportunityParameters) (m : DownlinkMac) :
    Except Fault DownlinkMac :=
  match rlc (m.notified ++ [params]) with
  | none => .ok { m with notified := m.notified ++ [params] }
  | some pdu => { m with notified := m.notified ++ [params] }.doTransmitPdu params pdu

/-- The opportunity for an element of the slot; the difference has 32 bits. -/
def txOpParams (info : RlcPduInfo) : TxOpportunityParameters where
  bytes := sub32 info.size (MacSubheader.getSize ⟨UInt8.ofNat info.lcid, UInt32.ofNat info.size⟩)
  layer := slot.dci.layerInd
  harqId := slot.dci.harqProcess
  rnti := slot.dci.rnti
  lcid := UInt8.ofNat info.lcid

/-- Rewrites the element of the slot's process. -/
def atProcess (f : DlHarqProcessInfo → DlHarqProcessInfo) (m : DownlinkMac) :
    Except Fault DownlinkMac := do
  let processes ← lookUp .assertion m.dlHarqProcesses slot.dci.rnti
  let process ← elementAt processes slot.dci.harqProcess
  pure { m with
    dlHarqProcesses := setProcess m.dlHarqProcesses slot.dci.rnti slot.dci.harqProcess (f process) }

/-- One channel of the slot. -/
def offer (channels : List UInt8) (m : DownlinkMac) (info : RlcPduInfo) :
    Except Fault DownlinkMac := do
  assert (UInt8.ofNat info.lcid ∈ channels)
  let m ← m.notifyTxOpportunity rlc (txOpParams slot info)
  m.atProcess slot fun process =>
    { process with lcidList := process.lcidList ++ [UInt8.ofNat info.lcid] }

/-- The block is closed, kept and sent. -/
def finish (m : DownlinkMac) : Except Fault DownlinkMac := do
  let key := tbMapKey slot.dci.rnti slot.dci.harqProcess
  let it ← lookUp .fatalError m.macPduMap key
  let header :=
    if it.numRlcPdu = 0 then it.macHeader.addSubheader ⟨3, 0⟩ else it.macHeader
  let pdu : TaggedPdu := {
    rnti := slot.dci.rnti
    bytes := header.serialize ++ it.pdu
    sfnSf := it.sfnSf
    layerInd := it.layerInd }
  assert (0 < pdu.bytes.length)
  let m ← m.atProcess slot fun process => { process with pktBurst := process.pktBurst ++ [pdu] }
  pure { m with
    sent := m.sent ++ [pdu]
    macPduMap := m.macPduMap.erase key }

/-- A slot for new data. -/
def newData (channels : List UInt8) (m : DownlinkMac) : Except Fault DownlinkMac := do
  let key := tbMapKey slot.dci.rnti slot.dci.harqProcess
  assert (slot.dci.format = 0)
  assert (0 < slot.rlcPduInfo.length)
  let m ← match m.macPduMap.find key with
    | some _ => .error .fatalError
    | none => .ok { m with macPduMap := m.macPduMap.insertNew key {
        sfnSf := { sfnSf with slotNum := slot.dci.symStart }
        layerInd := slot.dci.layerInd
        size := slot.dci.tbSize
        numRlcPdu := 0 } }
  let m ← m.atProcess slot fun _ => {}
  let m ← slot.rlcPduInfo.foldlM (offer rlc slot channels) m
  m.finish slot

/-- A slot for data that was sent before: the packets of the process with new tags. -/
def retransmit (m : DownlinkMac) : Except Fault DownlinkMac :=
  if slot.dci.tbSize > 0 then do
    let processes ← lookUp .assertion m.dlHarqProcesses slot.dci.rnti
    let process ← elementAt processes slot.dci.harqProcess
    pure { m with sent := m.sent ++ process.pktBurst.map fun pdu =>
      { pdu with
        sfnSf := { sfnSf with slotNum := slot.dci.symStart }
        layerInd := slot.dci.layerInd } }
  else .ok m

/-- The body of the loop of `DoSchedConfigIndication` over the slots. -/
def schedSlot (m : DownlinkMac) (slot : SlotAllocInfo) : Except Fault DownlinkMac :=
  if slot.slotType ≠ .ctrl ∧ slot.tddMode = .dl then do
    let channels ← lookUp .fatalError m.rlcAttached slot.dci.rnti
    if slot.dci.ndi = 1 then m.newData rlc sfnSf slot channels else m.retransmit sfnSf slot
  else .ok m

def doSchedConfigIndication (slots : List SlotAllocInfo) (m : DownlinkMac) :
    Except Fault DownlinkMac :=
  slots.foldlM (schedSlot rlc sfnSf) m

end DownlinkMac

end NtnIab.Mmwave
