import NtnIab.Library.Run
import NtnIab.Mmwave.FlexTtiGrants

/-!
# The round robin scheduler with flexible TTIs

A trigger answers the pending feedback and then divides the symbols that are left: evenly between
the flows that have data, and what some of them do not need between the others. Flows are the
downlink and the uplink of a UE.
-/

namespace NtnIab.Mmwave

namespace FlexTti

/-- What the scheduler knows of a UE in a subframe. -/
structure UeSchedInfo where
  dlMcs : Nat := 0
  ulMcs : Nat := 0
  maxDlBufSize : Nat := 0
  maxUlBufSize : Nat := 0
  maxDlSymbols : Nat := 0
  maxUlSymbols : Nat := 0
  dlSymbols : Nat := 0
  ulSymbols : Nat := 0
  dlSymbolsRetx : Nat := 0
  ulSymbolsRetx : Nat := 0
  rlcPduInfo : List RlcPduInfo := []
  iab : Bool := false
  deriving Repr, DecidableEq

variable (c : FlexTtiConfig)

/-- A UE with a retransmission gets an entry. The slot of the first downlink one is made before
that, and reads the RNTI through an iterator at the end of the map. -/
def book : UeBook (OrderedMap UeSchedInfo) where
  expects := fun _ _ => true
  dlSlotRnti := fun _ rnti _ ueInfo => if (ueInfo.find rnti).isSome then some rnti else none
  noteDl := fun rnti numSym ueInfo =>
    (ueInfo.insertNew rnti {}).adjust rnti fun ue => { ue with dlSymbolsRetx := numSym }
  noteUl := fun rnti numSym ueInfo =>
    (ueInfo.insertNew rnti {}).adjust rnti fun ue => { ue with ulSymbolsRetx := numSym }

/-! ## Flows -/

/-- The entry of a UE with the data of a logical channel. -/
def UeSchedInfo.addDl (mcs : Nat) (iab : Bool) (req : SchedDlRlcBufferReqParameters)
    (ue : UeSchedInfo) : UeSchedInfo :=
  let ue := { ue with iab := ue.iab || iab, dlMcs := mcs }
  let ue :=
    if 0 < req.rlcStatusPduSize then
      let size := (req.rlcStatusPduSize + subHdrSize) % 2 ^ 32
      { ue with
        rlcPduInfo := ue.rlcPduInfo ++ [⟨req.logicalChannelIdentity, size⟩]
        maxDlBufSize := (ue.maxDlBufSize + size) % 2 ^ 32 }
    else ue
  let queued :=
    if 0 < req.rlcRetransmissionQueueSize then req.rlcRetransmissionQueueSize
    else req.rlcTransmissionQueueSize
  if 0 < queued then
    let size := (max queued 8 + rlcHdrSize + subHdrSize + 10) % 2 ^ 32
    { ue with
      rlcPduInfo := ue.rlcPduInfo ++ [⟨req.logicalChannelIdentity, size⟩]
      maxDlBufSize := (ue.maxDlBufSize + size) % 2 ^ 32 }
  else ue

/-- The UEs with data or retransmissions, and the number of flows with data. -/
structure Flows where
  ueInfo : OrderedMap UeSchedInfo
  nFlowsTot : Nat := 0

namespace Flows

/-- The data of a logical channel. -/
def addDl (s : FlexTti) (flows : Flows) (req : SchedDlRlcBufferReqParameters) : Flows :=
  let cqi := (s.wbCqiRxed.find req.rnti).getD 1
  if req.active ∧ (cqi ≠ 0 ∨ c.fixedMcsDl) then
    let isIab := (s.rntiIabInfoMap.find req.rnti).getD false
    let mcs := if c.fixedMcsDl then s.mcsDefaultDl else c.amc.getMcsFromCqi cqi % 2 ^ 8
    let isNew := ((flows.ueInfo.find req.rnti).getD {}).maxDlBufSize = 0
    { flows with
      nFlowsTot := if isNew then flows.nFlowsTot + 1 else flows.nFlowsTot
      ueInfo := (flows.ueInfo.insertNew req.rnti {}).adjust req.rnti
        (·.addDl mcs (isNew ∧ isIab) req) }
  else flows

/-- The uplink data of a UE that sent a report, unless its CQI is out of range. -/
def addUl (s : FlexTti) (flows : Flows) (report : Nat × Nat) : Except Failure Flows :=
  if report.2 = 0 then pure flows
  else do
    let cqi ← blame (.ue report.1)
      (Mmwave.Flows.ulCqi c.toPaddedHbfConfig s.toPaddedHbf report.1)
    if cqi.1 = 0 ∧ ¬c.fixedMcsUl then pure flows
    else
      let isIab := (s.rntiIabInfoMap.find report.1).getD false
      let isNew := ((flows.ueInfo.find report.1).getD {}).maxUlBufSize = 0
      pure { flows with
        nFlowsTot := if isNew then flows.nFlowsTot + 1 else flows.nFlowsTot
        ueInfo := (flows.ueInfo.insertNew report.1 {}).adjust report.1 fun ue => { ue with
          iab := ue.iab || (isNew ∧ isIab)
          ulMcs := if c.fixedMcsUl then s.mcsDefaultUl else cqi.2 % 2 ^ 8
          maxUlBufSize := (report.2 + rlcHdrSize + macHdrSize + 8) % 2 ^ 32 } }

/-- The flows with data, if symbols are left for them. -/
def collect (s : FlexTti) (pass : RetxPass (OrderedMap UeSchedInfo)) : Except Failure Flows :=
  let flows : Flows := { ueInfo := pass.ues }
  let flows :=
    if 0 < pass.subframe.symAvail ∧ ¬c.ulOnly then s.rlcBufferReq.foldl (addDl c s) flows
    else flows
  if 0 < pass.subframe.symAvail ∧ ¬c.dlOnly then s.ceBsrRxed.foldlM (addUl c s) flows
  else pure flows

end Flows

/-! ## Demands -/

namespace UeSchedInfo

/-- The symbols and the blocks that the buffers of a UE need. -/
def demand (ue : UeSchedInfo) : UeSchedInfo :=
  let ue :=
    if 0 < ue.maxDlBufSize then
      let result := calcMinTbSizeNumSym c.toPaddedHbfConfig ue.dlMcs ue.maxDlBufSize
      { ue with
        maxDlSymbols := roundToSlots c.toPaddedHbfConfig (result.1 % 2 ^ 8)
        maxDlBufSize := result.2 }
    else ue
  if 0 < ue.maxUlBufSize then
    let result :=
      calcMinTbSizeNumSym c.toPaddedHbfConfig ue.ulMcs ((ue.maxUlBufSize + 10) % 2 ^ 32)
    { ue with
      maxUlSymbols := roundToSlots c.toPaddedHbfConfig (result.1 % 2 ^ 8)
      maxUlBufSize := result.2 }
  else ue

/-- An IAB device gets at most half of the symbols. -/
def limitIab (symAvail : Int) (ue : UeSchedInfo) : UeSchedInfo :=
  let maxSymAvailableForIab := (symAvail.tdiv 2).toNat
  let totalSymbolsRequested := ue.maxUlSymbols + ue.maxDlSymbols
  let scale := fun old =>
    if 0 < old then
      max 1 (c.amc.scaleSymbols maxSymAvailableForIab totalSymbolsRequested old) % 2 ^ 8
    else old
  if ue.iab ∧ maxSymAvailableForIab < totalSymbolsRequested then
    { ue with maxUlSymbols := scale ue.maxUlSymbols, maxDlSymbols := scale ue.maxDlSymbols }
  else ue

end UeSchedInfo

/-- The UEs from one on, and then those before it. -/
def rotation (rnti : Nat) (rntis : List Nat) : List Nat :=
  if rnti ≠ 0 ∧ rnti ∈ rntis then
    rntis.dropWhile (· ≠ rnti) ++ rntis.takeWhile (· ≠ rnti)
  else rntis

/-! ## The division of the symbols -/

/-- A number of symbols in whole slots, if slots have a fixed length. -/
def wholeSlots (numSym : Int) : Int :=
  if c.fixedTti then (numSym + c.symPerSlot - 1) / c.symPerSlot * c.symPerSlot else numSym

/-- The symbols that are left, the flows between which they are divided, the averages for a flow
over all rounds and in this one, and whether a flow got symbols in this round. -/
structure Division where
  remSym : Int
  nFlowsTot : Int
  nSymPerFlow0 : Int
  nRemSymPerFlow : Int := 0
  allocated : Bool := true
  deriving Repr, DecidableEq

namespace Division

/-- What a flow gets that lacks some symbols, and whether that is a whole share. A flow that gets
all it lacks leaves the others more. The loop is left when it was the last one. -/
def share (deficit : Int) (d : Division) : Option ((Int × Bool) × Division) :=
  if deficit < d.nRemSymPerFlow then
    if d.remSym < deficit then some ((d.remSym, false), d)
    else
      let nFlowsTot := d.nFlowsTot - 1
      if nFlowsTot ≤ 0 then none
      else
        let extra := (d.nRemSymPerFlow - deficit).tdiv nFlowsTot
        some ((deficit, false), { d with
          nFlowsTot
          nSymPerFlow0 := d.nSymPerFlow0 + extra
          nRemSymPerFlow := d.nRemSymPerFlow + extra })
  else some ((min d.nRemSymPerFlow d.remSym, true), d)

/-- A flow takes what it gets. -/
def give (addSym : Int) (allocated : Bool) (d : Division) : Except Fault Division := do
  let _ ← assert (0 ≤ d.remSym - addSym)
  pure { d with remSym := d.remSym - addSym, allocated := d.allocated || allocated }

end Division

/-- The turn of the downlink of a UE. -/
def dlShare (ue : UeSchedInfo) (d : Division) : Except Fault (Option (UeSchedInfo × Division)) := do
  let deficit : Int := ue.maxDlSymbols - ue.dlSymbols
  let _ ← assert (0 ≤ deficit)
  let deficit := wholeSlots c deficit
  if 0 < deficit ∧ ((ue.dlSymbols + ue.dlSymbolsRetx : Nat) : Int) ≤ d.nSymPerFlow0 then
    match d.share deficit with
    | none => pure none
    | some result =>
        let next ← result.2.give result.1.1 true
        pure (some ({ ue with dlSymbols := (ue.dlSymbols + result.1.1.toNat) % 2 ^ 8 }, next))
  else pure (some (ue, d))

/-- The turn of the uplink of a UE. Only a whole share counts as an allocation. -/
def ulShare (ue : UeSchedInfo) (d : Division) : Except Fault (Option (UeSchedInfo × Division)) := do
  let deficit : Int := ue.maxUlSymbols - ue.ulSymbols
  let _ ← assert (0 ≤ deficit)
  let deficit := wholeSlots c deficit
  let d := { d with nRemSymPerFlow := wholeSlots c d.nRemSymPerFlow }
  if 0 < d.remSym ∧ 0 < deficit ∧
      ((ue.ulSymbols + ue.ulSymbolsRetx : Nat) : Int) ≤ d.nSymPerFlow0 then
    match d.share deficit with
    | none => pure none
    | some result =>
        let next ← result.2.give result.1.1 result.1.2
        pure (some ({ ue with ulSymbols := (ue.ulSymbols + result.1.1.toNat) % 2 ^ 8 }, next))
  else pure (some (ue, d))

/-- Where a loop over the UEs ended, unless it came back to the first one, and whether it was left
as no flow remained. -/
structure Turns where
  ueInfo : OrderedMap UeSchedInfo
  division : Division
  stoppedAt : Option Nat := none
  left : Bool := false

/-- One round over the UEs. -/
def turns : List Nat → OrderedMap UeSchedInfo → Division → Except Failure Turns
  | [], ueInfo, d => pure { ueInfo, division := d }
  | rnti :: rest, ueInfo, d =>
      if d.remSym ≤ 0 then pure { ueInfo, division := d, stoppedAt := some rnti }
      else do
        let ue := (ueInfo.find rnti).getD {}
        let dl ← blame (.ue rnti) (dlShare c ue d)
        match dl with
        | none => pure { ueInfo, division := d, stoppedAt := some rnti, left := true }
        | some dl =>
            let ueInfo := ueInfo.adjust rnti fun _ => dl.1
            let ul ← blame (.ue rnti) (ulShare c dl.1 dl.2)
            match ul with
            | none => pure { ueInfo, division := dl.2, stoppedAt := some rnti, left := true }
            | some ul => turns rest (ueInfo.adjust rnti fun _ => ul.1) ul.2

/-- The rounds, in each of which a symbol is given out at least. -/
def divide (order : List Nat) : Nat → OrderedMap UeSchedInfo → Division → Except Failure Turns
  | 0, _, _ => .error ⟨.endless, .cell⟩
  | rounds + 1, ueInfo, d =>
      if 0 < d.remSym ∧ d.allocated ∧ 0 < d.nFlowsTot then do
        let nRemSymPerFlow := d.remSym.tdiv d.nFlowsTot
        let nRemSymPerFlow := if nRemSymPerFlow = 0 then 1 else nRemSymPerFlow
        let round ← turns c order ueInfo { d with
          allocated := false
          nRemSymPerFlow := wholeSlots c nRemSymPerFlow }
        if round.left ∨ round.stoppedAt.isSome then pure round
        else divide order rounds round.ueInfo round.division
      else pure { ueInfo, division := d }

/-- The symbols are divided between the flows. -/
def divideSymbols (order : List Nat) (flows : Flows) (symAvail : Int) : Except Failure Turns :=
  if 0 < flows.nFlowsTot then
    let totSymReq : Nat :=
      (flows.ueInfo.map fun entry => entry.2.maxDlSymbols + entry.2.maxUlSymbols).sum
    let remSym : Int := min (totSymReq : Int) symAvail
    let nSymPerFlow0 := remSym.tdiv flows.nFlowsTot
    let nSymPerFlow0 := if nSymPerFlow0 = 0 then 1 else nSymPerFlow0
    divide c order (remSym.toNat + 1) flows.ueInfo {
      remSym
      nFlowsTot := flows.nFlowsTot
      nSymPerFlow0 := wholeSlots c nSymPerFlow0 }
  else pure { ueInfo := flows.ueInfo, division := ⟨0, 0, 0, 0, true⟩ }

/-! ## Grants -/

/-- The queues of the downlink and the reports of the uplink. -/
def buffers : BufferBook (List SchedDlRlcBufferReqParameters × OrderedMap Nat) where
  updateDl := fun rnti lcid size b =>
    .ok (PaddedHbf.updateDlRlcBufferInfo rnti lcid size b.1, b.2)
  updateUl := fun rnti size b => .ok (b.1, PaddedHbf.updateUlRlcBufferInfo rnti size b.2)

/-- The grants of a UE. -/
def grantUe (sfnSf : SfnSf) (ueInfo : OrderedMap UeSchedInfo)
    (d : Grants (List SchedDlRlcBufferReqParameters × OrderedMap Nat)) (rnti : Nat) :
    Except Failure (Grants (List SchedDlRlcBufferReqParameters × OrderedMap Nat)) :=
  let ue := (ueInfo.find rnti).getD {}
  blame (.ue rnti) do
    let d ←
      if 0 < ue.dlSymbols then d.grantDl c buffers rnti ue.dlMcs ue.dlSymbols ue.rlcPduInfo
      else pure d
    if 0 < ue.ulSymbols then d.grantUl c buffers sfnSf rnti ue.ulMcs ue.ulSymbols else pure d

/-! ## The trigger -/

/-- The beginning of a trigger: the subframe that is allocated, what is left of it, and the state
after what has expired was thrown away. -/
structure Prepared where
  sfnSf : SfnSf
  room : Room
  scheduler : FlexTti

def prepare (params : SchedTriggerReqParameters) (s : FlexTti) : Except Failure Prepared := do
  let sfnSf ← blame .cell (s.allocatedSfn c params.sfnSf)
  let resvCtrl := c.phyMac.dlCtrlSymbols + c.phyMac.ulCtrlSymbols
  let symAvail ← blame .cell (s.updateBusySymbolsForIab c sfnSf.sfNum
    (toInt32 (sub32 c.phyMac.symbolsPerSubframe resvCtrl)))
  let refreshed ← blame .expiry (symAvail.2.toPaddedHbf.refresh c.toPaddedHbfConfig)
  pure {
    sfnSf
    room := {
      symAvail := symAvail.1
      symIdx := c.phyMac.dlCtrlSymbols % 2 ^ 8
      busy := symAvail.2.busyResourcesSchedSubframe }
    scheduler := { symAvail.2 with toPaddedHbf := refreshed } }

/-- There are symbols between the control regions. -/
def hasData : Prop :=
  ((c.phyMac.dlCtrlSymbols % 2 ^ 8 : Nat) : Int) <
    toInt32 (sub32 c.phyMac.symbolsPerSubframe c.phyMac.ulCtrlSymbols)

instance : Decidable (hasData c) := inferInstanceAs (Decidable (_ < _))

/-- What new data add to the retransmissions. -/
def scheduleNewData (sfnSf : SfnSf) (s : FlexTti) (pass : RetxPass (OrderedMap UeSchedInfo)) :
    Except Failure (FlexTti × SchedConfigInd) := do
  let flows ← Flows.collect c s pass
  let s := { s with
    harq := pass.harq
    dlHarqInfoList := pass.dlHarqInfoList
    ulHarqInfoList := pass.ulHarqInfoList
    busyResourcesSchedSubframe := pass.subframe.busy }
  if flows.ueInfo = [] then pure (s, allocationOf c sfnSf pass.subframe)
  else
    let ueInfo : OrderedMap UeSchedInfo := flows.ueInfo.map fun entry =>
      (entry.1, (entry.2.demand c).limitIab c pass.subframe.symAvail)
    let order := rotation s.nextRnti ueInfo.keys
    let divided ← divideSymbols c order { flows with ueInfo } pass.subframe.symAvail
    let _ ← blame .cell (assert (0 < pass.subframe.symIdx))
    let d ← order.foldlM (grantUe c sfnSf divided.ueInfo) {
      harq := s.harq
      subframe := pass.subframe
      buffers := (s.rlcBufferReq, s.ceBsrRxed)
      ulAllocationMap := s.ulAllocationMap
      tbUid := s.tbUid }
    pure
      ({ s with
          harq := d.harq
          rlcBufferReq := d.buffers.1
          ceBsrRxed := d.buffers.2
          ulAllocationMap := d.ulAllocationMap
          tbUid := d.tbUid
          nextRnti := divided.stoppedAt.getD (order.headD 0) },
        sortedAllocation c (allocationOf c sfnSf d.subframe))

/-- The feedback that a trigger answers. -/
def pendingFeedback {U : Type} (params : SchedTriggerReqParameters) (room : Room)
    (s : PaddedHbf) (ues : U) : RetxPass U where
  harq := s.harq
  subframe := { toRoom := room }
  ues := ues
  dlHarqInfoList := s.dlHarqInfoList ++ params.dlHarqInfoList
  ulHarqInfoList := s.ulHarqInfoList ++ params.ulHarqInfoList

/-- `DoSchedTriggerReq`. -/
def schedTriggerReq (params : SchedTriggerReqParameters) (s : FlexTti) :
    Except Failure (FlexTti × SchedConfigInd) := do
  let prepared ← s.prepare c params
  if hasData c then
    let pass ← answerFeedback c book
      (pendingFeedback params prepared.room prepared.scheduler.toPaddedHbf [])
    scheduleNewData c prepared.sfnSf prepared.scheduler pass
  else
    pure (prepared.scheduler, allocationOf c prepared.sfnSf { toRoom := prepared.room })

end FlexTti

/-! ## Runs -/

inductive FlexTtiEvent
  | cschedUeConfigReq (rnti : Nat) (reconfigureFlag iab : Bool) (numIabDevsPerRnti : Nat)
  | cschedUeReleaseReq (rnti : Nat)
  | cschedLcReleaseReq (rnti : Nat) (logicalChannelIdentity : List Nat)
  | schedDlRlcBufferReq (params : SchedDlRlcBufferReqParameters)
  | schedDlCqiInfoReq (reports : List (Nat × Nat))
  | schedUlCqiInfoReq (sfnSf : SfnSf) (sinr : List Nat)
  | schedUlMacCtrlInfoReq (reports : List (Nat × List Nat))
  | schedSetMcs (mcs : Int)
  | iabBackhaulSchedNotify (sfnSf : SfnSf) (dci : DciInfoElementTdma)
  | schedTriggerReq (params : SchedTriggerReqParameters)
  deriving Repr, DecidableEq

/-- A scheduler, the failure that stopped the simulation, if any, and the allocations, the last
one first. -/
structure TdmaRun (S : Type) where
  scheduler : S
  failure : Option Failure := none
  emitted : List SchedConfigInd := []

/-- What a request does to a scheduler, with the allocations that it emits. Nothing happens after a
failure. -/
def TdmaRun.step {S E : Type} (handle : E → S → Except Failure (S × List SchedConfigInd))
    (r : TdmaRun S) (event : E) : TdmaRun S :=
  match r.failure with
  | some _ => r
  | none =>
      match handle event r.scheduler with
      | .ok result => { r with scheduler := result.1, emitted := result.2 ++ r.emitted }
      | .error failure => { r with failure := some failure }

/-- A request that emits nothing. -/
def quietly {S : Type} (s : S) : Except Failure (S × List SchedConfigInd) := .ok (s, [])

/-- What the requests do that are those of the padded HBF scheduler. -/
def FlexTti.handle (c : FlexTtiConfig) : FlexTtiEvent → FlexTti →
    Except Failure (FlexTti × List SchedConfigInd)
  | .cschedUeConfigReq rnti reconfigureFlag iab numIabDevsPerRnti, s =>
      quietly (s.cschedUeConfigReq c rnti reconfigureFlag iab numIabDevsPerRnti)
  | .cschedUeReleaseReq rnti, s =>
      quietly { s with toPaddedHbf := s.toPaddedHbf.cschedUeReleaseReq rnti }
  | .cschedLcReleaseReq rnti lcids, s =>
      quietly { s with toPaddedHbf := s.toPaddedHbf.cschedLcReleaseReq rnti lcids }
  | .schedDlRlcBufferReq params, s =>
      quietly { s with
        toPaddedHbf := s.toPaddedHbf.schedDlRlcBufferReq c.toPaddedHbfConfig params }
  | .schedDlCqiInfoReq reports, s =>
      quietly { s with
        toPaddedHbf := s.toPaddedHbf.schedDlCqiInfoReq c.toPaddedHbfConfig reports }
  | .schedUlCqiInfoReq sfnSf sinr, s =>
      quietly { s with
        toPaddedHbf := s.toPaddedHbf.schedUlCqiInfoReq c.toPaddedHbfConfig sfnSf sinr }
  | .schedUlMacCtrlInfoReq reports, s =>
      quietly { s with toPaddedHbf := s.toPaddedHbf.schedUlMacCtrlInfoReq reports }
  | .schedSetMcs mcs, s => quietly { s with toPaddedHbf := s.toPaddedHbf.schedSetMcs mcs }
  | .iabBackhaulSchedNotify sfnSf dci, s =>
      (blame .cell (s.iabBackhaulSchedNotify c sfnSf dci)).map fun s => (s, [])
  | .schedTriggerReq params, s =>
      (s.schedTriggerReq c params).map fun result => (result.1, [result.2])

end NtnIab.Mmwave
