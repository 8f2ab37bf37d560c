import NtnIab.Mmwave.PaddedHbfHarq

/-!
# New data of the padded HBF scheduler

What is left of the subframe after the retransmissions is divided between downlink and uplink in
proportion to the symbols they ask for. Each direction serves its UEs in turn, in blocks of one
length that hold one UE on each layer: downlink blocks from the start of what is left, uplink
blocks from its end.
-/

namespace NtnIab.Mmwave

/-- What the scheduler knows of a UE in a subframe. -/
structure UeSchedInfo where
  dlMcs : Nat := 0
  ulMcs : Nat := 0
  maxDlBufSize : Nat := 0
  maxUlBufSize : Nat := 0
  maxDlSymbols : Nat := 0
  maxUlSymbols : Nat := 0
  rlcPduInfo : List RlcPduInfo := []
  iab : Bool := false
  deriving Repr, DecidableEq

variable (c : PaddedHbfConfig)

/-- The bytes of a block. -/
def tbSizeOf (mcs numSym : Nat) : Nat :=
  (((c.amc.getTbSizeFromMcsSymbols mcs numSym).tdiv 8) % 2 ^ 32).toNat

/-! ## Flows -/

namespace UeSchedInfo

/-- The entry of a UE with the data of a logical channel. -/
def addDl (mcs : Nat) (iab : Bool) (req : SchedDlRlcBufferReqParameters) (ue : UeSchedInfo) :
    UeSchedInfo :=
  let ue := { ue with iab, dlMcs := mcs }
  let ue :=
    if 0 < req.rlcStatusPduSize then
      let size := req.rlcStatusPduSize + subHdrSize
      { ue with
        rlcPduInfo := ue.rlcPduInfo ++ [⟨req.logicalChannelIdentity, size⟩]
        maxDlBufSize := (ue.maxDlBufSize + size) % 2 ^ 32 }
    else ue
  let queued :=
    if 0 < req.rlcRetransmissionQueueSize then req.rlcRetransmissionQueueSize
    else req.rlcTransmissionQueueSize
  if 0 < queued then
    let size := (max queued 8 + rlcHdrSize + subHdrSize + 10) % 2 ^ 32
    { ue with
      rlcPduInfo := ue.rlcPduInfo ++ [⟨req.logicalChannelIdentity, size⟩]
      maxDlBufSize := (ue.maxDlBufSize + size) % 2 ^ 32 }
  else ue

end UeSchedInfo

/-- The UEs with data, and the numbers of flows. -/
structure Flows where
  ueInfo : OrderedMap UeSchedInfo
  nFlowsDl : Nat := 0
  nFlowsUl : Nat := 0

namespace Flows

/-- The data of a logical channel. -/
def addDl (s : PaddedHbf) (flows : Flows) (req : SchedDlRlcBufferReqParameters) : Flows :=
  let cqi := (s.wbCqiRxed.find req.rnti).getD 1
  if req.active ∧ (cqi ≠ 0 ∨ c.fixedMcsDl) then
    let iab := (s.rntiIabInfoMap.find req.rnti).getD false
    let mcs := if c.fixedMcsDl then s.mcsDefaultDl else c.amc.getMcsFromCqi cqi % 2 ^ 8
    let known := ((flows.ueInfo.find req.rnti).getD {}).maxDlBufSize
    { flows with
      nFlowsDl := if known = 0 then flows.nFlowsDl + 1 else flows.nFlowsDl
      ueInfo := (flows.ueInfo.insertNew req.rnti {}).adjust req.rnti (·.addDl mcs iab req) }
  else flows

/-- The CQI and the MCS of the uplink of a UE. -/
def ulCqi (s : PaddedHbf) (rnti : Nat) : Except Fault (Nat × Nat) :=
  match s.ueUlCqi.find rnti with
  | none => .ok (1, 0)
  | some cqi =>
      if cqi.ueUlCqi.length < c.phyMac.totalNumChunk then .error .absent
      else .ok (c.amc.createCqiFeedbackWbTdma (cqi.ueUlCqi.take c.phyMac.totalNumChunk)
        cqi.numSym cqi.tbSize)

/-- The data of the UEs that sent a report, up to one whose CQI is out of range. -/
def addUl (s : PaddedHbf) : OrderedMap Nat → Flows → Except Fault Flows
  | [], flows => pure flows
  | (rnti, buffer) :: rest, flows => do
      if buffer = 0 then addUl s rest flows
      else
        let (cqi, mcs) ← ulCqi c s rnti
        if cqi = 0 ∧ ¬c.fixedMcsUl then pure flows
        else
          let iab := (s.rntiIabInfoMap.find rnti).getD false
          let known := ((flows.ueInfo.find rnti).getD {}).maxUlBufSize
          addUl s rest { flows with
            nFlowsUl := if known = 0 then flows.nFlowsUl + 1 else flows.nFlowsUl
            ueInfo := (flows.ueInfo.insertNew rnti {}).adjust rnti fun ue =>
              { ue with
                iab := iab
                ulMcs := if c.fixedMcsUl then s.mcsDefaultUl else mcs % 2 ^ 8
                maxUlBufSize := (buffer + rlcHdrSize + macHdrSize + 8) % 2 ^ 32 } }

/-- The downlink flows, after the retransmissions gave some UEs an entry. -/
def collectDl (s : PaddedHbf) (pass : HarqPass) : Flows :=
  let flows : Flows := { ueInfo := pass.ueInfo.foldl (fun m rnti => m.insertNew rnti {}) [] }
  if 0 < pass.placement.symAvail ∧ ¬c.ulOnly then s.rlcBufferReq.foldl (addDl c s) flows
  else flows

/-- The flows. -/
def collect (s : PaddedHbf) (pass : HarqPass) : Except Fault Flows :=
  if 0 < pass.placement.symAvail ∧ ¬c.dlOnly then addUl c s s.ceBsrRxed (collectDl c s pass)
  else pure (collectDl c s pass)

end Flows

/-! ## Demands -/

/-- The bisection of `CalcMinTbSizeNumSym`, in at most the given number of steps: the symbols that
are enough for a buffer. `above` says that the last block tried was too long. -/
def bisect (mcs bufSize : Nat) : Nat → Bool → Nat → Nat → Nat
  | 0, _, _, numSymHigh => numSymHigh
  | steps + 1, above, numSymLow, numSymHigh =>
      let diff := (numSymHigh - numSymLow) / 2
      if diff = 0 then numSymHigh
      else if above then
        let tbSize := tbSizeOf c mcs (numSymHigh - diff)
        if bufSize < tbSize then bisect mcs bufSize steps true numSymLow (numSymHigh - diff)
        else if tbSize < bufSize then bisect mcs bufSize steps false numSymLow numSymHigh
        else numSymHigh
      else
        let tbSize := tbSizeOf c mcs (numSymLow + diff)
        if tbSize < bufSize then bisect mcs bufSize steps false (numSymLow + diff) numSymHigh
        else if bufSize < tbSize then bisect mcs bufSize steps true numSymLow numSymHigh
        else numSymHigh

/-- The symbols and the size of the block for a buffer. -/
def calcMinTbSizeNumSym (mcs bufSize : Nat) : Nat × Nat :=
  let numSymHigh := c.phyMac.symbolsPerSubframe
  let numSym :=
    if bufSize < tbSizeOf c mcs numSymHigh then
      bisect c mcs bufSize (2 * numSymHigh) true 0 numSymHigh
    else numSymHigh
  (numSym, tbSizeOf c mcs numSym)

/-- A number of symbols in whole slots, if slots have a fixed length. -/
def roundToSlots (numSym : Nat) : Nat :=
  if c.fixedTti then (numSym + c.symPerSlot - 1) / c.symPerSlot * c.symPerSlot % 2 ^ 8
  else numSym % 2 ^ 8

namespace UeSchedInfo

/-- The symbols and the blocks that the buffers of a UE need. -/
def demand (ue : UeSchedInfo) : UeSchedInfo :=
  let ue :=
    if 0 < ue.maxDlBufSize then
      let result := calcMinTbSizeNumSym c ue.dlMcs ue.maxDlBufSize
      { ue with maxDlSymbols := roundToSlots c (result.1 % 2 ^ 8), maxDlBufSize := result.2 }
    else ue
  if 0 < ue.maxUlBufSize then
    let result := calcMinTbSizeNumSym c ue.ulMcs ((ue.maxUlBufSize + 10) % 2 ^ 32)
    { ue with maxUlSymbols := roundToSlots c (result.1 % 2 ^ 8), maxUlBufSize := result.2 }
  else ue

/-- An IAB device gets at most half of the symbols. -/
def limitIab (symAvail : Int) (ue : UeSchedInfo) : UeSchedInfo :=
  let maxSymAvailableForIab := (symAvail.tdiv 2).toNat
  let totalSymbolsRequested := ue.maxUlSymbols + ue.maxDlSymbols
  let scale := fun old =>
    if 0 < old then
      max 1 (c.amc.scaleSymbols maxSymAvailableForIab totalSymbolsRequested old) % 2 ^ 8
    else old
  if ue.iab ∧ maxSymAvailableForIab < totalSymbolsRequested then
    { ue with maxUlSymbols := scale ue.maxUlSymbols, maxDlSymbols := scale ue.maxDlSymbols }
  else ue

end UeSchedInfo

/-- The quotient rounded to the nearest integer, away from zero in the middle. -/
def roundDiv (a : Int) (b : Nat) : Int :=
  if 0 ≤ a then (2 * a + b) / (2 * b) else -((2 * -a + b) / (2 * b))

/-- Where the uplink region begins. -/
def firstUlSymbol (p : Placement) (totDlSymReq totUlSymReq : Nat) : Nat :=
  if totDlSymReq + totUlSymReq = 0 then c.amc.ofNan % 2 ^ 32
  else
    let available : Int := p.lastSymAvail - p.nextSymAvail + 1
    ((p.nextSymAvail + roundDiv (available * totDlSymReq) (totDlSymReq + totUlSymReq)) % 2 ^ 32)
      |>.toNat

/-- The length of the blocks of a region. -/
def symPerBlock (nSymPerLayer nFlows : Nat) : Nat :=
  let nFlowsPerLayer := (nFlows + c.phyMac.numEnbLayers - 1) / c.phyMac.numEnbLayers % 2 ^ 8
  let symPerBlock :=
    if nFlowsPerLayer = 0 then c.amc.ofNan % 2 ^ 8 else nSymPerLayer / nFlowsPerLayer
  let symPerBlock := if symPerBlock = 0 then 1 else symPerBlock
  roundToSlots c symPerBlock

/-! ## Allocation -/

/-- The state of the passes over the UEs. -/
structure NewData where
  harq : HarqProcesses
  placement : Placement
  rlcBufferReq : List SchedDlRlcBufferReqParameters
  ceBsrRxed : OrderedMap Nat
  ulAllocationMap : OrderedMap AllocMapElem
  tbUid : Nat
  layerIdx : Nat := 0
  blockIdx : Nat := 0
  lastScheduledRnti : Nat := 0

/-- The region of a pass. -/
structure Region where
  firstUlSymbol : Nat
  symPerBlock : Nat
  nFlowsPerLayer : Nat

namespace NewData

/-- `UpdateDlHarqProcessId`. -/
def dlHarqId (rnti : Nat) (d : NewData) : Except Fault (Nat × NewData) :=
  if c.harqOn then do
    let (harqId, harq) ← d.harq.updateDlHarqProcessId c.phyMac rnti
    pure (harqId, { d with harq })
  else pure (d.tbUid, { d with tbUid := (d.tbUid + 1) % c.phyMac.numHarqProcess % 2 ^ 8 })

/-- `UpdateUlHarqProcessId`. -/
def ulHarqId (rnti : Nat) (d : NewData) : Nat × NewData :=
  if c.harqOn then
    let result := d.harq.updateUlHarqProcessId c.phyMac rnti
    (result.1, { d with harq := result.2 })
  else (d.tbUid, { d with tbUid := (d.tbUid + 1) % c.phyMac.numHarqProcess % 2 ^ 8 })

/-- The bytes of a block are shared by the RLC queues: short ones are sent whole, and the others
get the same. -/
def distribute (tbSize : Nat) (pdus : List RlcPduInfo) : List RlcPduInfo :=
  let avgPduSize := tbSize / pdus.length % 2 ^ 16
  let short := pdus.filter (·.size < avgPduSize)
  let bytesRem := short.foldl (fun rem pdu => sub32 rem pdu.size) tbSize
  let avgPduSize :=
    if short.length < pdus.length then bytesRem / (pdus.length - short.length) % 2 ^ 16
    else avgPduSize
  pdus.map fun pdu => { pdu with size := min pdu.size avgPduSize }

/-- One RLC PDU of a new downlink block. -/
def addPdu (rnti harqId : Nat) (d : NewData) (pdu : RlcPduInfo) : Except Fault NewData := do
  let _ ← assert (0 < pdu.size)
  let d := { d with rlcBufferReq :=
    PaddedHbf.updateDlRlcBufferInfo rnti pdu.lcid (sub32 pdu.size subHdrSize) d.rlcBufferReq }
  if c.harqOn then
    let pdus ← lookUp .fatalError d.harq.dlHarqProcessesRlcPduMap rnti
    let stored ← elementAt pdus harqId
    let harq := { d.harq with
      dlHarqProcessesRlcPduMap :=
        setProcess d.harq.dlHarqProcessesRlcPduMap rnti harqId (stored ++ [pdu]) }
    pure { d with harq }
  else pure d

/-- What is kept of a new downlink block. -/
def storeDl (dci : DciInfoElementTdma) (d : NewData) : Except Fault NewData := do
  if c.harqOn then
    let dcis ← lookUp .fatalError d.harq.dlHarqProcessesDciInfoMap dci.rnti
    let _ ← elementAt dcis dci.harqProcess
    let timers ← lookUp .fatalError d.harq.dlHarqProcessesTimer dci.rnti
    let _ ← elementAt timers dci.harqProcess
    pure { d with harq := d.harq.startDl dci }
  else pure d

/-- What is kept of a new uplink block. -/
def storeUl (dci : DciInfoElementTdma) (d : NewData) : Except Fault NewData := do
  if c.harqOn then
    let dcis ← lookUp .fatalError d.harq.ulHarqProcessesDciInfoMap dci.rnti
    let _ ← elementAt dcis dci.harqProcess
    let status ← lookUp .absent d.harq.ulHarqProcessesStatus dci.rnti
    let count ← elementAt status dci.harqProcess
    let _ ← assert (0 < count)
    let timers ← lookUp .fatalError d.harq.ulHarqProcessesTimer dci.rnti
    let _ ← elementAt timers dci.harqProcess
    pure { d with harq := d.harq.startUl dci }
  else pure d

/-- The DCI of a new downlink block at the cursor. -/
def dlDci (rnti : Nat) (ue : UeSchedInfo) (numSym harqId : Nat) (d : NewData) :
    DciInfoElementTdma where
  rnti := rnti
  format := 0
  layerInd := d.layerIdx
  symStart := d.placement.nextSymAvail % 2 ^ 8
  numSym := numSym
  ndi := 1
  mcs := ue.dlMcs
  tbSize := tbSizeOf c ue.dlMcs numSym
  rv := 0
  harqProcess := harqId

/-- The DCI of a new uplink block that begins at `start`. -/
def ulDci (rnti : Nat) (ue : UeSchedInfo) (numSym start harqId : Nat) (d : NewData) :
    DciInfoElementTdma where
  rnti := rnti
  format := 1
  layerInd := d.layerIdx
  symStart := start % 2 ^ 8
  numSym := numSym
  ndi := 1
  mcs := ue.ulMcs
  tbSize := tbSizeOf c ue.ulMcs numSym
  rv := 0
  harqProcess := harqId

def dlSlot (dci : DciInfoElementTdma) (rlcPduInfo : List RlcPduInfo) (d : NewData) :
    SlotAllocInfo where
  slotIdx := d.placement.tempDlslotIdx
  tddMode := .dl
  slotType := .ctrlData
  rnti := some dci.rnti
  layerInd := d.layerIdx
  dci := dci
  rlcPduInfo := rlcPduInfo

def ulSlot (dci : DciInfoElementTdma) (d : NewData) : SlotAllocInfo where
  slotIdx := d.placement.tempUlSlotIdx
  tddMode := .ul
  slotType := .ctrlData
  rnti := some dci.rnti
  layerInd := d.layerIdx
  dci := dci

/-- The next downlink block is on the next layer, or after this one. -/
def nextDlBlock (region : Region) (symStart : Nat) (d : NewData) : Except Fault NewData := do
  if d.layerIdx + 1 = c.phyMac.numEnbLayers then
    let _ ← assert (d.blockIdx + 1 ≤ region.nFlowsPerLayer)
    let nextSymAvail := (max d.placement.nextSymAvail symStart + region.symPerBlock) % 2 ^ 32
    pure { d with
      layerIdx := 0
      blockIdx := d.blockIdx + 1
      placement := { d.placement with nextSymAvail } }
  else pure { d with layerIdx := d.layerIdx + 1 }

/-- The next uplink block is on the next layer, or before this one, which begins at `start`. -/
def nextUlBlock (region : Region) (start : Nat) (d : NewData) : Except Fault NewData := do
  if d.layerIdx + 1 = c.phyMac.numEnbLayers then
    let _ ← assert (d.blockIdx + 1 ≤ region.nFlowsPerLayer)
    let lastSymAvail := if 0 < start then start - 1 else d.placement.lastSymAvail
    let _ ← assert (region.firstUlSymbol ≤ lastSymAvail + 1)
    pure { d with
      layerIdx := 0
      blockIdx := d.blockIdx + 1
      placement := { d.placement with lastSymAvail } }
  else pure { d with layerIdx := d.layerIdx + 1 }

/-- A UE has a new downlink block at the cursor. -/
def placeDl (region : Region) (rnti : Nat) (ue : UeSchedInfo) (numSym : Nat) (d : NewData) :
    Except Fault NewData := do
  let _ ← assert ((region.symPerBlock : Int) ≤ d.placement.symAvail)
  let _ ← assert (region.symPerBlock ≤ d.placement.symAvailLayer d.layerIdx)
  let d := { d with placement := d.placement.take d.layerIdx region.symPerBlock }
  let (harqId, d) ← d.dlHarqId c rnti
  let _ ← assert (harqId < c.phyMac.numHarqProcess)
  let dci := d.dlDci c rnti ue numSym harqId
  let d ← d.storeDl c dci
  let rlcPduInfo := distribute dci.tbSize ue.rlcPduInfo
  let d ← rlcPduInfo.foldlM (addPdu c rnti harqId) d
  let d := { d with
    placement := d.placement.pushDl d.layerIdx (d.dlSlot dci rlcPduInfo)
    lastScheduledRnti := rnti }
  d.nextDlBlock c region dci.symStart

/-- The turn of a UE in the downlink pass. -/
def dlTurn (region : Region) (d : NewData) (entry : Nat × UeSchedInfo) : Except Fault NewData :=
  let numSym := min region.symPerBlock entry.2.maxDlSymbols
  if 0 < entry.2.maxDlBufSize ∧ 0 < numSym ∧
      d.placement.nextSymAvail + numSym ≤ region.firstUlSymbol then
    d.placeDl c region entry.1 entry.2 numSym
  else pure d

/-- The start of the uplink block at the cursor. -/
def ulStart (region : Region) (p : Placement) : Nat :=
  if region.symPerBlock ≤ p.lastSymAvail + 1 then p.lastSymAvail + 1 - region.symPerBlock
  else region.firstUlSymbol

/-- A UE has a new uplink block that begins at `start`, in a process that was free. -/
def placeUl (sfnSf : SfnSf) (region : Region) (rnti : Nat) (ue : UeSchedInfo)
    (numSym start harqId : Nat) (d : NewData) : Except Fault NewData := do
  let dci := d.ulDci c rnti ue numSym start harqId
  let d ← d.storeUl c dci
  let slotSfn := { sfnSf with
    slotNum := (dci.symStart * c.phyMac.numEnbLayers + d.layerIdx) % 2 ^ 8 }
  let d := { d with
    ceBsrRxed :=
      PaddedHbf.updateUlRlcBufferInfo rnti (sub32 dci.tbSize subHdrSize % 2 ^ 16) d.ceBsrRxed
    placement := d.placement.pushUl d.layerIdx (d.ulSlot dci)
    lastScheduledRnti := rnti
    ulAllocationMap := d.ulAllocationMap.insertNew slotSfn.encode
      ⟨List.replicate c.phyMac.totalNumChunk rnti, dci.numSym, dci.tbSize⟩ }
  d.nextUlBlock c region start

/-- The uplink pass over the UEs, in turn. Without a free process the source neither marks a UE as
done nor goes on to the next: it stops at the first UE, and does not end at another one. -/
def ulTurns (sfnSf : SfnSf) (region : Region) (first : Bool) :
    OrderedMap UeSchedInfo → NewData → Except Fault NewData
  | [], d => pure d
  | (rnti, ue) :: rest, d => do
      let numSym := min region.symPerBlock ue.maxUlSymbols
      let start := ulStart region d.placement
      if 0 < ue.maxUlBufSize ∧ 0 < numSym ∧ region.firstUlSymbol ≤ start ∧
          start + numSym ≤ d.placement.lastSymAvail + 1 then
        let result := d.ulHarqId c rnti
        if c.phyMac.numHarqProcess ≤ result.1 then
          if first then pure result.2 else .error .endless
        else
          let d ← result.2.placeUl c sfnSf region rnti ue numSym start result.1
          ulTurns sfnSf region false rest d
      else ulTurns sfnSf region false rest d

end NewData

/-- The entries from that of a UE on, and then those before it. -/
def rotate (rnti : Nat) (ueInfo : OrderedMap UeSchedInfo) : OrderedMap UeSchedInfo :=
  if rnti ≠ 0 ∧ rnti ∈ ueInfo.keys then
    ueInfo.dropWhile (·.1 ≠ rnti) ++ ueInfo.takeWhile (·.1 ≠ rnti)
  else ueInfo

/-- The UE after one in the order of their RNTIs. -/
def nextAfter (rnti : Nat) (ueInfo : OrderedMap UeSchedInfo) : Nat :=
  let keys := ueInfo.keys
  (keys.getD (keys.idxOf rnti + 1) (keys.headD 0))

/-- The passes over the UEs with data. -/
def scheduleNewData (sfnSf : SfnSf) (s : PaddedHbf) (pass : HarqPass) :
    Except Fault (PaddedHbf × Placement) := do
  let flows ← Flows.collect c s pass
  let s := { s with
    harq := pass.harq
    dlHarqInfoList := pass.dlHarqInfoList
    ulHarqInfoList := pass.ulHarqInfoList }
  if flows.ueInfo = [] then pure (s, pass.placement)
  else
    let p := pass.placement
    let ueInfo : OrderedMap UeSchedInfo := flows.ueInfo.map fun entry =>
      (entry.1, (entry.2.demand c).limitIab c p.symAvail)
    let totDlSymReq := (ueInfo.map (·.2.maxDlSymbols)).sum
    let totUlSymReq := (ueInfo.map (·.2.maxUlSymbols)).sum
    let firstUl := firstUlSymbol c p totDlSymReq totUlSymReq
    let perLayer := fun nFlows =>
      (nFlows + c.phyMac.numEnbLayers - 1) / c.phyMac.numEnbLayers % 2 ^ 8
    let dlRegion : Region := {
      firstUlSymbol := firstUl
      symPerBlock := symPerBlock c (sub32 firstUl p.nextSymAvail % 2 ^ 8) flows.nFlowsDl
      nFlowsPerLayer := perLayer flows.nFlowsDl }
    let ulRegion : Region := {
      firstUlSymbol := firstUl
      symPerBlock := symPerBlock c (sub32 (p.lastSymAvail + 1) firstUl % 2 ^ 8) flows.nFlowsUl
      nFlowsPerLayer := perLayer flows.nFlowsUl }
    let order := rotate s.nextRnti ueInfo
    let d : NewData := {
      harq := s.harq
      placement := p
      rlcBufferReq := s.rlcBufferReq
      ceBsrRxed := s.ceBsrRxed
      ulAllocationMap := s.ulAllocationMap
      tbUid := s.tbUid }
    let d ← order.foldlM (NewData.dlTurn c dlRegion) d
    let d ← NewData.ulTurns c sfnSf ulRegion true order { d with layerIdx := 0, blockIdx := 0 }
    pure
      ({ s with
          harq := d.harq
          rlcBufferReq := d.rlcBufferReq
          ceBsrRxed := d.ceBsrRxed
          ulAllocationMap := d.ulAllocationMap
          tbUid := d.tbUid
          nextRnti :=
            if d.lastScheduledRnti ≠ 0 then nextAfter d.lastScheduledRnti ueInfo
            else order.keys.headD 0 },
        d.placement)

end NtnIab.Mmwave
