import NtnIab.Library.FrameClock
import NtnIab.Mmwave.PhyMacCommon

/-!
# The target of an allocation

The eNB schedules ahead. In each subframe the MAC asks for an allocation some subframes later, the
scheduler adds a delay of its own, and the PHY keeps the allocation until its subframe begins. The
delay of the scheduler grows with the number of IAB devices behind a UE. Frame numbers have 16
bits and subframe numbers 8.
-/

namespace NtnIab.Mmwave

variable (c : MmWavePhyMacCommon)

/-- The subframe after this one. -/
def SfnSf.next (sfn : SfnSf) : SfnSf :=
  if sfn.sfNum + 1 = c.subframesPerFrame then ⟨(sfn.frameNum + 1) % 2 ^ 16, 0, 0⟩
  else ⟨sfn.frameNum, (sfn.sfNum + 1) % 2 ^ 8, 0⟩

/-! ## The MAC -/

/-- What `DoSubframeIndication` asks the scheduler for in a subframe. -/
def schedSfn (sfn : SfnSf) : SfnSf :=
  let dlSchedSubframeNum := (sfn.sfNum + c.l1L2CtrlLatency) % 2 ^ 32
  if dlSchedSubframeNum ≥ c.subframesPerFrame then
    ⟨(sfn.frameNum + 1) % 2 ^ 16, (dlSchedSubframeNum - c.subframesPerFrame) % 2 ^ 8, 0⟩
  else ⟨sfn.frameNum, dlSchedSubframeNum % 2 ^ 8, 0⟩

/-! ## The scheduler -/

structure CschedUeConfigReqParameters where
  rnti : Nat
  reconfigureFlag : Bool
  iab : Bool
  numIabDevsPerRnti : Nat
  deriving Repr, DecidableEq

/-- The part of the scheduler that decides the target. -/
structure FlexTtiTarget where
  maxSchedulingDelay : Nat := 1
  rntiIabInfoMap : Nat → Option (Bool × Nat) := fun _ => none

namespace FlexTtiTarget

/-- The IAB part of `DoCschedUeConfigReq`. -/
def cschedUeConfigReq (params : CschedUeConfigReqParameters) (s : FlexTtiTarget) :
    FlexTtiTarget :=
  if params.reconfigureFlag then
    { rntiIabInfoMap := fun rnti =>
        if rnti = params.rnti then some (params.iab, params.numIabDevsPerRnti)
        else s.rntiIabInfoMap rnti
      maxSchedulingDelay :=
        if ((params.numIabDevsPerRnti + 1 : Nat) : Int) > toInt32 s.maxSchedulingDelay then
          params.numIabDevsPerRnti + 1
        else s.maxSchedulingDelay }
  else s

/-- The subframe of the downlink, the one of the allocation. The sum has 8 bits here. -/
def dlSfn (s : FlexTtiTarget) (sfn : SfnSf) : SfnSf :=
  let sum := (sfn.sfNum + s.maxSchedulingDelay) % 2 ^ 32
  { sfn with
    frameNum :=
      if toInt32 sum ≥ toInt32 c.subframesPerFrame then (sfn.frameNum + 1) % 2 ^ 16
      else sfn.frameNum
    sfNum := sum % 2 ^ 8 % c.subframesPerFrame % 2 ^ 8 }

/-- The subframe of the uplink, which the scheduler asserts to be that of the downlink. -/
def ulSfn (s : FlexTtiTarget) (sfn : SfnSf) : SfnSf :=
  let sum := (sfn.sfNum + s.maxSchedulingDelay) % 2 ^ 32
  { sfn with
    frameNum :=
      if sum ≥ c.subframesPerFrame then (sfn.frameNum + 1) % 2 ^ 16 else sfn.frameNum
    sfNum := sum % c.subframesPerFrame % 2 ^ 8 }

end FlexTtiTarget

/-! ## The PHY -/

structure SfAllocInfo where
  sfnSf : SfnSf
  valid : Bool := true
  deriving Repr, DecidableEq

structure MmWaveEnbPhy where
  sfn : SfnSf := {}
  sfAllocInfo : List SfAllocInfo
  deriving Repr, DecidableEq

namespace MmWaveEnbPhy

/-- Before anything is scheduled there are allocations for the first frame. -/
def doInitialize : MmWaveEnbPhy where
  sfAllocInfo := (List.range c.subframesPerFrame).map fun i => { sfnSf := ⟨0, i % 2 ^ 8, 0⟩ }

/-- The allocation that the subframe finds, which is marked as used. -/
def startSubFrame (p : MmWaveEnbPhy) : Option SfAllocInfo × MmWaveEnbPhy :=
  (p.sfAllocInfo[p.sfn.sfNum]?,
    { p with sfAllocInfo := p.sfAllocInfo.modify p.sfn.sfNum fun info =>
        { info with valid := false } })

def setDlSfAllocInfo (info : SfAllocInfo) (p : MmWaveEnbPhy) : MmWaveEnbPhy :=
  { p with sfAllocInfo := p.sfAllocInfo.set info.sfnSf.sfNum info }

def endSubFrame (p : MmWaveEnbPhy) : MmWaveEnbPhy :=
  { p with sfn := p.sfn.next c }

end MmWaveEnbPhy

end NtnIab.Mmwave
