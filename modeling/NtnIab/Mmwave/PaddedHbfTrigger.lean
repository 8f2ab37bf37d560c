import NtnIab.Library.Run
import NtnIab.Mmwave.PaddedHbfNewData

/-!
# The trigger of the padded HBF scheduler

A trigger refreshes what expires, places the retransmissions and the new data, and merges the
slots of the layers into one list in the order of their first symbols.
-/

namespace NtnIab.Mmwave

variable (c : PaddedHbfConfig)

/-! ## Merging the layers -/

/-- The layer whose next slot begins first, if one begins in the subframe, and where it begins. -/
def firstLayer (layers : Nat → List SlotAllocInfo) : Option Nat × Nat :=
  (List.range c.phyMac.numEnbLayers).foldl (fun best lay =>
    match (layers lay).head? with
    | none => best
    | some slot => if slot.dci.symStart < best.2 then (some lay, slot.dci.symStart) else best)
    (none, c.phyMac.symbolsPerSubframe)

/-- The slots of the layers in one list, numbered from `slotIdx` on. -/
def mergeLayers : Nat → (Nat → List SlotAllocInfo) → Nat → List SlotAllocInfo
  | 0, _, _ => []
  | rounds + 1, layers, slotIdx =>
      match (firstLayer c layers).1 with
      | none => []
      | some lay =>
          match layers lay with
          | [] => []
          | slot :: rest =>
              { slot with slotIdx := slotIdx % 2 ^ 8 } ::
                mergeLayers rounds (fun i => if i = lay then rest else layers i) (slotIdx + 1)

/-- The number of slots on the layers. -/
def slotCount (layers : Nat → List SlotAllocInfo) : Nat :=
  ((List.range c.phyMac.numEnbLayers).map fun lay => (layers lay).length).sum

def dlCtrlSlot : SlotAllocInfo where
  tddMode := .dl
  slotType := .ctrl
  rnti := some 0
  dci := { symStart := 0, numSym := 1 }

def ulCtrlSlot : SlotAllocInfo where
  slotIdx := 0xFF
  tddMode := .ul
  slotType := .ctrl
  rnti := some 0
  dci := { symStart := sub32 c.phyMac.symbolsPerSubframe 1 % 2 ^ 8, numSym := 1 }

/-- The allocation of a subframe. -/
structure SchedConfigInd where
  sfnSf : SfnSf
  slotAllocInfo : List SlotAllocInfo
  numSymAlloc : Nat
  numAllocLayers : Nat
  deriving Repr, DecidableEq

/-- The downlink slots and then the uplink slots, between the control slots. -/
def mergeSlots (p : Placement) : List SlotAllocInfo :=
  let dl := mergeLayers c (slotCount c p.tempDlslotAllocInfo) p.tempDlslotAllocInfo 1
  let ul := mergeLayers c (slotCount c p.tempUlslotAllocInfo) p.tempUlslotAllocInfo (1 + dl.length)
  dlCtrlSlot :: dl ++ ul ++ [ulCtrlSlot c]

/-! ## The trigger -/

structure SchedTriggerReqParameters where
  sfnSf : SfnSf
  dlHarqInfoList : List DlHarqInfo := []
  ulHarqInfoList : List UlHarqInfo := []
  deriving Repr, DecidableEq

namespace PaddedHbf

/-- The retransmissions. Without HARQ the downlink feedback is thrown away. -/
def scheduleRetx (params : SchedTriggerReqParameters) (s : PaddedHbf) : Except Fault HarqPass := do
  let dlHarqInfoList := s.dlHarqInfoList ++ params.dlHarqInfoList
  let ulHarqInfoList := s.ulHarqInfoList ++ params.ulHarqInfoList
  let pass : HarqPass := { harq := s.harq, placement := .start c, ulHarqInfoList }
  if c.harqOn then
    let pass ← dlPass c s.wbCqiRxed dlHarqInfoList pass
    ulPass c ulHarqInfoList pass
  else pure pass

/-- What is done before anything is placed. -/
def refresh (s : PaddedHbf) : Except Fault PaddedHbf := do
  let s ← s.refreshDlCqiMaps
  let s ← s.refreshUlCqiMaps
  let harq ← s.harq.refreshHarqProcesses c.phyMac
  pure { s with harq }

/-- What is placed on the layers. Their loops count in 8 bits. -/
def schedule (params : SchedTriggerReqParameters) (s : PaddedHbf) :
    Except Fault (PaddedHbf × Placement) :=
  if 2 ^ 8 ≤ c.phyMac.numEnbLayers then .error .endless
  else do
    let s ← s.refresh c
    let pass ← s.scheduleRetx c params
    scheduleNewData c params.sfnSf s pass

/-- `DoSchedTriggerReq`. -/
def schedTriggerReq (params : SchedTriggerReqParameters) (s : PaddedHbf) :
    Except Fault (PaddedHbf × SchedConfigInd) := do
  let (s, p) ← s.schedule c params
  pure (s, {
    sfnSf := params.sfnSf
    slotAllocInfo := mergeSlots c p
    numSymAlloc := p.numSymAlloc
    numAllocLayers := c.phyMac.numEnbLayers })

end PaddedHbf

/-! ## Runs -/

inductive SchedulerEvent
  | cschedUeConfigReq (rnti : Nat) (reconfigureFlag iab : Bool)
  | cschedUeReleaseReq (rnti : Nat)
  | cschedLcReleaseReq (rnti : Nat) (logicalChannelIdentity : List Nat)
  | schedDlRlcBufferReq (params : SchedDlRlcBufferReqParameters)
  | schedDlCqiInfoReq (reports : List (Nat × Nat))
  | schedUlCqiInfoReq (sfnSf : SfnSf) (sinr : List Nat)
  | schedUlMacCtrlInfoReq (reports : List (Nat × List Nat))
  | schedSetMcs (mcs : Int)
  | schedTriggerReq (params : SchedTriggerReqParameters)
  deriving Repr, DecidableEq

/-- The scheduler, the fault that stopped the simulation, if any, and the allocations, the last
one first. -/
structure SchedulerRun where
  scheduler : PaddedHbf := {}
  fault : Option Fault := none
  emitted : List SchedConfigInd := []
  deriving Repr, DecidableEq

namespace SchedulerRun

def trigger (params : SchedTriggerReqParameters) (r : SchedulerRun) : SchedulerRun :=
  match r.scheduler.schedTriggerReq c params with
  | .ok (scheduler, ind) => { r with scheduler, emitted := ind :: r.emitted }
  | .error fault => { r with fault := some fault }

/-- The requests other than the trigger. -/
def request : SchedulerEvent → PaddedHbf → PaddedHbf
  | .cschedUeConfigReq rnti reconfigureFlag iab => (·.cschedUeConfigReq c rnti reconfigureFlag iab)
  | .cschedUeReleaseReq rnti => (·.cschedUeReleaseReq rnti)
  | .cschedLcReleaseReq rnti lcids => (·.cschedLcReleaseReq rnti lcids)
  | .schedDlRlcBufferReq params => (·.schedDlRlcBufferReq c params)
  | .schedDlCqiInfoReq reports => (·.schedDlCqiInfoReq c reports)
  | .schedUlCqiInfoReq sfnSf sinr => (·.schedUlCqiInfoReq c sfnSf sinr)
  | .schedUlMacCtrlInfoReq reports => (·.schedUlMacCtrlInfoReq reports)
  | .schedSetMcs mcs => (·.schedSetMcs mcs)
  | .schedTriggerReq _ => id

/-- Nothing happens after a fault. -/
def step (r : SchedulerRun) (event : SchedulerEvent) : SchedulerRun :=
  match r.fault with
  | some _ => r
  | none =>
      match event with
      | .schedTriggerReq params => r.trigger c params
      | event => { r with scheduler := request c event r.scheduler }

end SchedulerRun

end NtnIab.Mmwave
