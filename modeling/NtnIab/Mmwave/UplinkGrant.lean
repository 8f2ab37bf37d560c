import NtnIab.Library.Fallible
import NtnIab.Mmwave.MacPdu
import NtnIab.Mmwave.PhyMacCommon

/-!
# Uplink grants

A DCI grants the UE a transport block. The MAC divides its size among the logical channels that
have something to send, and offers each of them one or two transmission opportunities; an RLC
entity answers with a PDU, which goes into the MAC PDU of the HARQ process. How many PDUs are to
come is counted before the channels are served: when the last one is there, the MAC PDU goes to
the PHY.
-/

namespace NtnIab.Mmwave

/-! ## Opportunities -/

structure TxOpportunityParameters where
  bytes : Nat
  layer : Nat
  harqId : Nat
  rnti : Nat
  lcid : UInt8
  deriving Repr, DecidableEq

/-- The answer of the RLC entities to the last of the opportunities offered so far. -/
abbrev RlcEntities := List TxOpportunityParameters → Option (List UInt8)

/-- The queues of an RLC entity, as it reported them. -/
structure ReportBufferStatusParameters where
  txQueueSize : Nat := 0
  retxQueueSize : Nat := 0
  statusPduSize : Nat := 0
  deriving Repr, DecidableEq

namespace ReportBufferStatusParameters

def HasData (b : ReportBufferStatusParameters) : Prop := b.retxQueueSize > 0 ∨ b.txQueueSize > 0

instance {b : ReportBufferStatusParameters} : Decidable b.HasData :=
  inferInstanceAs (Decidable (_ ∨ _))

def IsActive (b : ReportBufferStatusParameters) : Prop := b.statusPduSize > 0 ∨ b.HasData

instance {b : ReportBufferStatusParameters} : Decidable b.IsActive :=
  inferInstanceAs (Decidable (_ ∨ _))

end ReportBufferStatusParameters

/-- What is set aside for a subheader before the PDU is there. -/
def MacSubheader.getSize (s : MacSubheader) : Nat := if s.size > 127 then 3 else 2

inductive GrantFault
  /-- No MAC PDU storage element found for this TB UID/RNTI. -/
  | noMacPdu
  /-- Maximum TB size exceeded. -/
  | tbSizeExceeded
  /-- Insufficient Tx Opportunity for sending a status message. -/
  | insufficientTxOpportunity
  /-- The MAC PDU is counted up through an iterator after it was erased. -/
  | erased
  /-- The vector of the processes has no such element. -/
  | outOfRange
  deriving Repr, DecidableEq

/-! ## The state -/

/-- A MAC PDU that waits for the RLC PDUs of a transport block; the number has 8 bits. -/
structure GrantPdu extends MacPduInfo where
  sfnSf : SfnSf
  layerInd : Nat
  size : Nat
  numRlcPdu : Nat
  deriving Repr, DecidableEq

/-- A MAC PDU with the slot and the layer of its tag. -/
structure TaggedPdu extends PhyPdu where
  sfnSf : SfnSf
  layerInd : Nat
  deriving Repr, DecidableEq

structure UlHarqProcessInfo where
  pktBurst : List TaggedPdu := []
  lcidList : List UInt8 := []
  timer : Nat := 0
  deriving Repr, DecidableEq

/-- What the UE has for its transport blocks: the MAC PDUs that wait, the HARQ processes, what
went to the PHY, and the opportunities that were offered. -/
structure UlBlocks where
  rnti : Nat
  frameNum : Nat
  macPduMap : OrderedMap GrantPdu := []
  ulHarqProcesses : List UlHarqProcessInfo
  sent : List TaggedPdu := []
  notified : List TxOpportunityParameters := []
  deriving Repr, DecidableEq

/-- The channels and the reports are in the order of their identities. The RRC has 32 identities
of data bearers, so the channels can be counted with 8 bits. -/
structure UplinkMac extends UlBlocks where
  sfNum : Nat
  lcInfoMap : List UInt8
  ulBsrReceived : OrderedMap ReportBufferStatusParameters
  freshUlBsr : Bool := false
  lcsOrdered : lcInfoMap.Pairwise (· < ·)
  fewLcs : lcInfoMap.length < 255
  bsrOrdered : ulBsrReceived.Ordered
  deriving DecidableEq

structure UplinkConfig extends MmWavePhyMacCommon where
  ulSchedDelay : Nat := 1
  deriving Repr, DecidableEq

/-! ## RLC PDUs -/

namespace UlBlocks

variable (c : UplinkConfig)

/-- Rewrites the element of a process, which has to be there. -/
def atProcess (id : Nat) (f : UlHarqProcessInfo → UlHarqProcessInfo) (u : UlBlocks) :
    Except GrantFault UlBlocks :=
  if id < u.ulHarqProcesses.length then
    .ok { u with ulHarqProcesses := u.ulHarqProcesses.modify id f }
  else .error .outOfRange

/-- The MAC PDU is complete: it is kept in the buffer of the process and goes to the PHY. -/
def sendMacPdu (id : Nat) (pdu : TaggedPdu) (u : UlBlocks) : Except GrantFault UlBlocks := do
  let u ← u.atProcess id fun process =>
    { process with
      pktBurst := process.pktBurst ++ [pdu]
      timer := c.harqTimeout }
  pure { u with sent := u.sent ++ [pdu] }

def doTransmitPdu (params : TxOpportunityParameters) (pdu : List UInt8) (u : UlBlocks) :
    Except GrantFault UlBlocks :=
  match u.macPduMap.find params.harqId with
  | none => .error .noMacPdu
  | some it =>
      if it.sfnSf.frameNum < u.frameNum then .ok u
      else do
        let info := it.toMacPduInfo.addRlcPdu ⟨params.lcid, pdu⟩
        let u ← u.atProcess params.harqId fun process =>
          { process with lcidList := process.lcidList ++ [params.lcid] }
        if it.size < pdu.length + info.macHeader.headerSize then .error .tbSizeExceeded
        else if it.numRlcPdu ≤ 1 then do
          let u ← u.sendMacPdu c params.harqId {
            rnti := params.rnti
            bytes := info.macHeader.serialize ++ info.pdu
            sfnSf := it.sfnSf
            layerInd := it.layerInd }
          pure { u with macPduMap := u.macPduMap.erase params.harqId }
        else pure { u with macPduMap := u.macPduMap.assign params.harqId { it with
          toMacPduInfo := info
          numRlcPdu := it.numRlcPdu - 1 } }

variable (rlc : RlcEntities)

/-- An opportunity is offered, and the RLC entity may answer at once. -/
def notifyTxOpportunity (params : TxOpportunityParameters) (u : UlBlocks) :
    Except GrantFault UlBlocks :=
  match rlc (u.notified ++ [params]) with
  | none => .ok { u with notified := u.notified ++ [params] }
  | some pdu =>
      { u with notified := u.notified ++ [params] }.doTransmitPdu c params pdu

/-- One more RLC PDU is to come. -/
def anotherRlcPdu (id : Nat) (u : UlBlocks) : Except GrantFault UlBlocks :=
  match u.macPduMap.find id with
  | none => .error .erased
  | some it => .ok { u with macPduMap := u.macPduMap.assign id { it with
      numRlcPdu := (it.numRlcPdu + 1) % 2 ^ 8 } }

end UlBlocks

/-! ## Serving the channels -/

namespace UplinkMac

variable (c : UplinkConfig) (rlc : RlcEntities) (dci : DciInfoElementTdma)

/-- The opportunity of a channel in the block of a DCI. -/
def txOpParams (rnti : Nat) (lcid : UInt8) (bytes : Nat) : TxOpportunityParameters where
  bytes := bytes
  layer := dci.layerInd
  harqId := dci.harqProcess
  rnti := rnti
  lcid := lcid

/-- A status PDU that is smaller than the share of the channel: what is left of the share, and of
the queues. -/
def serveStatus (bytesPerActiveLc : Nat) (lcid : UInt8) (b : ReportBufferStatusParameters)
    (u : UlBlocks) : Except GrantFault (Nat × ReportBufferStatusParameters × UlBlocks) :=
  if b.statusPduSize > 0 ∧ bytesPerActiveLc > b.statusPduSize then do
    let u ← if b.HasData then u.anotherRlcPdu dci.harqProcess else .ok u
    let u ← u.notifyTxOpportunity c rlc (txOpParams dci u.rnti lcid b.statusPduSize)
    pure (bytesPerActiveLc - b.statusPduSize, { b with statusPduSize := 0 }, u)
  else if b.statusPduSize > bytesPerActiveLc then .error .insufficientTxOpportunity
  else .ok (bytesPerActiveLc, b, u)

/-- The queues after a share of data was offered. -/
def afterData (bytesForThisLc : Nat) (lcid : UInt8) (b : ReportBufferStatusParameters) :
    ReportBufferStatusParameters :=
  if b.retxQueueSize > 0 then
    { b with retxQueueSize :=
        if b.retxQueueSize ≥ bytesForThisLc then b.retxQueueSize - bytesForThisLc else 0 }
  else
    let rlcOverhead := if lcid = 1 then 4 else 2
    { b with txQueueSize :=
        if b.txQueueSize ≥ bytesForThisLc - rlcOverhead then
          b.txQueueSize - (bytesForThisLc - rlcOverhead)
        else 0 }

/-- The data of a channel, if the share is useful: otherwise a new report is to be sent. -/
def serveData (bytesForThisLc : Nat) (lcid : UInt8) (b : ReportBufferStatusParameters)
    (u : UlBlocks) : Except GrantFault (ReportBufferStatusParameters × Bool × UlBlocks) :=
  if bytesForThisLc > 7 ∧ b.HasData then do
    let subheader : MacSubheader := ⟨lcid, UInt32.ofNat bytesForThisLc⟩
    let u ← u.notifyTxOpportunity c rlc
      (txOpParams dci u.rnti lcid (sub32 (sub32 bytesForThisLc subheader.getSize) 1))
    pure (afterData bytesForThisLc lcid b, false, u)
  else .ok (b, decide b.HasData, u)

/-- The queues of a channel are what is left of them. -/
def setBsr (lcid : UInt8) (b : ReportBufferStatusParameters) (s : UplinkMac) : UplinkMac :=
  { s with
    ulBsrReceived := s.ulBsrReceived.adjust lcid.toNat fun _ => b
    bsrOrdered := OrderedMap.ordered_adjust s.bsrOrdered }

def serveLc (bytesPerActiveLc : Nat) (lcid : UInt8) (b : ReportBufferStatusParameters)
    (s : UplinkMac) : Except GrantFault UplinkMac := do
  let status ← serveStatus c rlc dci bytesPerActiveLc lcid b s.toUlBlocks
  let data ← serveData c rlc dci status.1 lcid status.2.1 status.2.2
  pure { s.setBsr lcid data.1 with
    toUlBlocks := data.2.2
    freshUlBsr := s.freshUlBsr || data.2.1 }

/-- The status PDU that has priority. -/
def servePriority (lcid : UInt8) (b : ReportBufferStatusParameters) (s : UplinkMac) :
    Except GrantFault UplinkMac := do
  let u ← s.toUlBlocks.notifyTxOpportunity c rlc (txOpParams dci s.rnti lcid b.statusPduSize)
  pure { s.setBsr lcid { b with statusPduSize := 0 } with toUlBlocks := u }

/-- The loop over the channels, which ends with a status PDU that has priority. -/
def serveLcs (bytesPerActiveLc statusPduMinSize : Nat) (statusPduPriority : Bool) :
    List UInt8 → UplinkMac → Except GrantFault UplinkMac
  | [], s => .ok s
  | lcid :: rest, s =>
      match s.ulBsrReceived.find lcid.toNat with
      | none => serveLcs bytesPerActiveLc statusPduMinSize statusPduPriority rest s
      | some b =>
          if b.IsActive then
            if statusPduPriority ∧ b.statusPduSize = statusPduMinSize then
              s.servePriority c rlc dci lcid b
            else do
              let s ← s.serveLc c rlc dci bytesPerActiveLc lcid b
              serveLcs bytesPerActiveLc statusPduMinSize statusPduPriority rest s
          else serveLcs bytesPerActiveLc statusPduMinSize statusPduPriority rest s

/-! ## A grant -/

/-- The reports that are counted: those of known channels with something to send. -/
def activeLcs (s : UplinkMac) : OrderedMap ReportBufferStatusParameters :=
  s.ulBsrReceived.filter fun entry =>
    entry.2.IsActive ∧ entry.1 ∈ s.lcInfoMap.map UInt8.toNat

/-- The smallest size of a status PDU, or 0. -/
def statusPduMinSize (reports : OrderedMap ReportBufferStatusParameters) : Nat :=
  reports.foldl (fun min entry =>
    let size := entry.2.statusPduSize
    let min := if size ≠ 0 ∧ size < min then size else min
    if size ≠ 0 ∧ min = 0 then size else min) 0

/-- The slot in which the block is sent. -/
def grantSfn (s : UplinkMac) : SfnSf :=
  if s.sfNum + c.ulSchedDelay ≥ c.subframesPerFrame then {
    frameNum := (s.frameNum + 1) % 2 ^ 16
    sfNum := (s.sfNum + c.ulSchedDelay - c.subframesPerFrame) % 2 ^ 8
    slotNum := dci.symStart % 2 ^ 8 }
  else {
    frameNum := s.frameNum % 2 ^ 16
    sfNum := (s.sfNum + c.ulSchedDelay) % 2 ^ 8
    slotNum := dci.symStart % 2 ^ 8 }

/-- A block without data: one subheader of the channel 3. -/
def emptyPdu (s : UplinkMac) : TaggedPdu where
  rnti := dci.rnti
  bytes := (MmWaveMacPduHeader.addSubheader ⟨3, 0⟩ {}).serialize
  sfnSf := s.grantSfn c dci
  layerInd := dci.layerInd

/-- A MAC PDU that is there already is dropped. -/
def addToMacPduMap (activeLcs : Nat) (s : UplinkMac) : UplinkMac :=
  { s with macPduMap := s.macPduMap.assign dci.harqProcess {
      sfnSf := s.grantSfn c dci
      layerInd := dci.layerInd
      size := dci.tbSize
      numRlcPdu := activeLcs % 2 ^ 8 } }

/-- A grant for new data. -/
def newTransmission (s : UplinkMac) : Except GrantFault UplinkMac := do
  let u ← s.toUlBlocks.atProcess dci.harqProcess fun process =>
    { process with
      pktBurst := []
      lcidList := [] }
  let s := { s with toUlBlocks := u }
  let activeLcs := s.activeLcs.length
  if activeLcs = 0 then do
    let u ← s.toUlBlocks.sendMacPdu c dci.harqProcess (s.emptyPdu c dci)
    pure { s with toUlBlocks := u }
  else
    let bytesPerActiveLc := dci.tbSize / activeLcs
    let min := statusPduMinSize s.activeLcs
    let statusPduPriority := decide (min ≠ 0 ∧ bytesPerActiveLc < min)
    if statusPduPriority ∧ dci.tbSize < min then .error .insufficientTxOpportunity
    else
      serveLcs c rlc dci bytesPerActiveLc min statusPduPriority s.lcInfoMap
        (s.addToMacPduMap c dci activeLcs)

/-- A grant for data that was sent before: the packets of the process, with the tag of the new
slot. -/
def retransmission (s : UplinkMac) : Except GrantFault UplinkMac :=
  match s.ulHarqProcesses[dci.harqProcess]? with
  | none => .error .outOfRange
  | some process => do
      let u ← s.toUlBlocks.atProcess dci.harqProcess fun process =>
        { process with timer := c.harqTimeout }
      pure { s with
        toUlBlocks := { u with sent := u.sent ++ process.pktBurst.map fun pdu =>
          { pdu with
            sfnSf := s.grantSfn c dci
            layerInd := dci.layerInd } } }

/-- The uplink DCI of `DoReceiveControlMessage`. -/
def receiveUlDci (s : UplinkMac) : Except GrantFault UplinkMac :=
  if dci.ndi = 1 then s.newTransmission c rlc dci
  else if dci.ndi = 0 then s.retransmission c dci
  else .ok s

end UplinkMac

end NtnIab.Mmwave
