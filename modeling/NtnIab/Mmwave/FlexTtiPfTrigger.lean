import NtnIab.Mmwave.FlexTtiPfDivision

/-!
# The trigger of the proportional fair scheduler

A trigger answers the pending feedback, collects what waits for the UEs and divides the symbols
that are left. The UEs with a retransmission or with something that waits are in a map for the
subframe. Grants go to these, at first those of the downlink, and at the end their records are
reset. The working list is never reset.
-/

namespace NtnIab.Mmwave

namespace FlexTtiPf

variable (c : FlexTtiConfig)

/-! ## Feedback -/

/-- The records and the UEs of the subframe. -/
structure Working where
  ueSchedInfoMap : OrderedMap UeSchedInfo
  ueAllocMap : OrderedMap Unit := []
  deriving Repr, DecidableEq

/-- A retransmission is noted in the record of its UE. -/
def Working.note (rnti : Nat) (f : UeSchedInfo → UeSchedInfo) (w : Working) : Working where
  ueSchedInfoMap := w.ueSchedInfoMap.adjust rnti f
  ueAllocMap := w.ueAllocMap.insertNew rnti ()

/-- Feedback is expected of UEs with a record. -/
def book : UeBook Working where
  expects := fun rnti w => (w.ueSchedInfoMap.find rnti).isSome
  dlSlotRnti := fun later rnti dci _ => some (if later then dci.rnti else rnti)
  noteDl := fun rnti numSym => Working.note rnti fun ue => { ue with dl.symbolsRetx := numSym }
  noteUl := fun rnti numSym => Working.note rnti fun ue => { ue with ul.symbolsRetx := numSym }

/-! ## Resets -/

/-- The records of some UEs are changed. -/
def updateAll (ueAllocMap : OrderedMap Unit) (f : UeSchedInfo → UeSchedInfo)
    (ues : OrderedMap UeSchedInfo) : OrderedMap UeSchedInfo :=
  ueAllocMap.foldl (fun ues entry => ues.adjust entry.1 f) ues

def UeSchedInfo.resetRetx (ue : UeSchedInfo) : UeSchedInfo :=
  { ue with dl.symbolsRetx := 0, ul.symbolsRetx := 0 }

def Direction.reset (d : Direction) : Direction :=
  { d with
    symbols := 0
    tbSize := 0
    symbolsRetx := 0
    currTput := 0
    avgTput := 0
    totBuf := 0
    allocDone := false }

def UeSchedInfo.reset (ue : UeSchedInfo) : UeSchedInfo :=
  { ue with dl := ue.dl.reset, ul := ue.ul.reset, rlcPduInfo := [] }

/-! ## Collection -/

/-- The state of a trigger when the division begins, but for the caps. -/
structure Collected where
  ueSchedInfoMap : OrderedMap UeSchedInfo
  ueStatHeap : List Nat
  ueAllocMap : OrderedMap Unit
  deriving Repr, DecidableEq

/-- What waits for the UEs. Those that take part in the division go behind the others in the
working list. -/
def collect (s : FlexTtiPf) (w : Working) : Except Failure Collected := do
  let candidates ← w.ueSchedInfoMap.traverse (collectUe c s.toPaddedHbf)
  let waiting := OrderedMap.keys (candidates.filter (·.2.waits))
  pure {
    ueSchedInfoMap := candidates.map fun entry => (entry.1, entry.2.ue)
    ueStatHeap := s.ueStatHeap ++ waiting
    ueAllocMap := waiting.foldl (fun ues rnti => ues.insertNew rnti ()) w.ueAllocMap }

/-! ## Grants -/

def buffers : BufferBook (OrderedMap UeSchedInfo) where
  updateDl := updateDlRlcBufferInfo
  updateUl := updateUlRlcBufferInfo

def grantDlOf (d : Grants (OrderedMap UeSchedInfo)) (rnti : Nat) :
    Except Failure (Grants (OrderedMap UeSchedInfo)) :=
  let ue := (d.buffers.find rnti).getD {}
  blame (.ue rnti)
    (if 0 < ue.dl.symbols then d.grantDl c buffers rnti ue.dl.mcs ue.dl.symbols ue.rlcPduInfo
    else pure d)

def grantUlOf (sfnSf : SfnSf) (d : Grants (OrderedMap UeSchedInfo)) (rnti : Nat) :
    Except Failure (Grants (OrderedMap UeSchedInfo)) :=
  let ue := (d.buffers.find rnti).getD {}
  blame (.ue rnti)
    (if 0 < ue.ul.symbols then d.grantUl c buffers sfnSf rnti ue.ul.mcs ue.ul.symbols
    else pure d)

/-- The grants of the downlink, and then those of the uplink. -/
def grantAll (sfnSf : SfnSf) (rntis : List Nat) (d : Grants (OrderedMap UeSchedInfo)) :
    Except Failure (Grants (OrderedMap UeSchedInfo)) := do
  let dl ← rntis.foldlM (grantDlOf c) d
  rntis.foldlM (grantUlOf c sfnSf) dl

/-! ## The trigger -/

/-- A trigger after the feedback: the subframe, the state and what the feedback left. -/
structure Answered where
  sfnSf : SfnSf
  scheduler : FlexTtiPf
  pass : RetxPass Working

/-- The trigger up to the end of the feedback. There is none if no symbols lie between the control
regions: then the allocation is empty. -/
def answer (params : SchedTriggerReqParameters) (s : FlexTtiPf) :
    Except Failure (Answered ⊕ (FlexTtiPf × SchedConfigInd)) := do
  let prepared ← s.toFlexTti.prepare c params
  let s := { s with toFlexTti := prepared.scheduler }
  if FlexTti.hasData c then
    let pass ← answerFeedback c book (FlexTti.pendingFeedback params prepared.room s.toPaddedHbf
      { ueSchedInfoMap := s.ueSchedInfoMap })
    let scheduler := { s with
      harq := pass.harq
      dlHarqInfoList := pass.dlHarqInfoList
      ulHarqInfoList := pass.ulHarqInfoList
      busyResourcesSchedSubframe := pass.subframe.busy
      ueSchedInfoMap := pass.ues.ueSchedInfoMap }
    pure (.inl { sfnSf := prepared.sfnSf, scheduler, pass })
  else pure (.inr (s, allocationOf c prepared.sfnSf { toRoom := prepared.room }))

/-- The symbols are divided, granted and emitted. -/
def scheduleNewData (a : Answered) (collected : Collected) :
    Except Failure (FlexTtiPf × SchedConfigInd) := do
  let subframe := a.pass.subframe
  let divided ← divideSymbols c subframe.symAvail collected.ueStatHeap collected.ueSchedInfoMap
  let s := { a.scheduler with
    ueSchedInfoMap := divided.ueSchedInfoMap
    ueStatHeap := divided.ueStatHeap }
  if collected.ueAllocMap = [] then pure (s, allocationOf c a.sfnSf subframe)
  else
    let d ← grantAll c a.sfnSf collected.ueAllocMap.keys {
      harq := s.harq
      subframe := { subframe with symAvail :=
        subframe.symAvail - (divided.given.length : Nat) }
      buffers := s.ueSchedInfoMap
      ulAllocationMap := s.ulAllocationMap
      tbUid := s.tbUid }
    pure
      ({ s with
          harq := d.harq
          ueSchedInfoMap := updateAll collected.ueAllocMap UeSchedInfo.reset d.buffers
          ulAllocationMap := d.ulAllocationMap
          tbUid := d.tbUid },
        sortedAllocation c (allocationOf c a.sfnSf d.subframe))

/-- `DoSchedTriggerReq`. If the retransmissions take the last symbol, only they are reset. -/
def schedTriggerReq (params : SchedTriggerReqParameters) (s : FlexTtiPf) :
    Except Failure (FlexTtiPf × SchedConfigInd) := do
  let answered ← s.answer c params
  match answered with
  | .inr result => pure result
  | .inl a =>
      if a.pass.subframe.symAvail = 0 then
        let ues :=
          updateAll a.pass.ues.ueAllocMap UeSchedInfo.resetRetx a.scheduler.ueSchedInfoMap
        pure ({ a.scheduler with ueSchedInfoMap := ues },
          allocationOf c a.sfnSf a.pass.subframe)
      else
        let collected ← collect c a.scheduler a.pass.ues
        scheduleNewData c a collected

end FlexTtiPf

/-! ## Runs -/

inductive FlexTtiPfEvent
  | cschedUeConfigReq (rnti : Nat) (reconfigureFlag iab : Bool) (numIabDevsPerRnti : Nat)
  | cschedUeReleaseReq (rnti : Nat)
  | cschedLcConfigReq (rnti : Nat) (channels : List FlexTtiPf.LogicalChannelConfig)
  | cschedLcReleaseReq (rnti : Nat) (logicalChannelIdentity : List Nat)
  | schedDlRlcBufferReq (req : FlexTtiPf.DlRlcBufferReq)
  | schedDlCqiInfoReq (reports : List (Nat × Nat))
  | schedUlCqiInfoReq (sfnSf : SfnSf) (sinr : List Nat)
  | schedUlMacCtrlInfoReq (reports : List (Nat × List Nat))
  | schedSetMcs (mcs : Int)
  | iabBackhaulSchedNotify (sfnSf : SfnSf) (dci : DciInfoElementTdma)
  | schedTriggerReq (params : SchedTriggerReqParameters)
  deriving Repr, DecidableEq

/-- A change of what the scheduler has in common with the padded HBF scheduler. -/
def FlexTtiPf.changeBase (f : PaddedHbf → PaddedHbf) (s : FlexTtiPf) : FlexTtiPf :=
  { s with toPaddedHbf := f s.toPaddedHbf }

def FlexTtiPf.handle (c : FlexTtiConfig) : FlexTtiPfEvent → FlexTtiPf →
    Except Failure (FlexTtiPf × List SchedConfigInd)
  | .cschedUeConfigReq rnti reconfigureFlag iab numIabDevsPerRnti, s =>
      quietly (s.cschedUeConfigReq c rnti reconfigureFlag iab numIabDevsPerRnti)
  | .cschedUeReleaseReq rnti, s => quietly (s.changeBase (·.cschedUeReleaseReq rnti))
  | .cschedLcConfigReq rnti channels, s =>
      (blame (.ue rnti) (s.cschedLcConfigReq rnti channels)).map fun s => (s, [])
  | .cschedLcReleaseReq rnti lcids, s => quietly (s.changeBase (·.cschedLcReleaseReq rnti lcids))
  | .schedDlRlcBufferReq req, s => quietly (s.schedDlRlcBufferReq req)
  | .schedDlCqiInfoReq reports, s =>
      quietly (s.changeBase (·.schedDlCqiInfoReq c.toPaddedHbfConfig reports))
  | .schedUlCqiInfoReq sfnSf sinr, s =>
      quietly (s.changeBase (·.schedUlCqiInfoReq c.toPaddedHbfConfig sfnSf sinr))
  | .schedUlMacCtrlInfoReq reports, s =>
      (blame .cell (s.schedUlMacCtrlInfoReq reports)).map fun s => (s, [])
  | .schedSetMcs mcs, s => quietly (s.changeBase (·.schedSetMcs mcs))
  | .iabBackhaulSchedNotify sfnSf dci, s =>
      (blame .cell (s.toFlexTti.iabBackhaulSchedNotify c sfnSf dci)).map fun base =>
        ({ s with toFlexTti := base }, [])
  | .schedTriggerReq params, s =>
      (s.schedTriggerReq c params).map fun result => (result.1, [result.2])

end NtnIab.Mmwave
