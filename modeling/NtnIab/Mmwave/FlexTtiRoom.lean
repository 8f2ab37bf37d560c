import Mathlib.Data.Rat.Defs
import NtnIab.Library.StdSort
import NtnIab.Mmwave.PaddedHbfTrigger

/-!
# The symbols of a subframe under the flexible-TTI schedulers

The round robin and the proportional fair scheduler with flexible TTIs give out the symbols of a
subframe one after the other. In an IAB node some of them are busy: those in which the node itself
is scheduled on its backhaul link. The padded HBF scheduler was made from the round robin one and
keeps the same maps, so what both have is taken from there.

A retransmission is not split. It takes the next symbols, or, if some of those are busy, the first
ones behind them that a search comes across.
-/

namespace NtnIab.Mmwave

/-- The configuration, and the two uses of `std::sort`. -/
structure FlexTtiConfig extends PaddedHbfConfig where
  iabScheduler : Bool := false
  subframePeriod : ℚ := 100
  timeWindow : ℚ := 99
  ueSort : StdSort Nat
  slotSort : StdSort SlotAllocInfo

structure SfIabAllocInfo where
  sfnSf : SfnSf := {}
  symAllocationMask : List Bool := []
  valid : Bool := true
  deriving Repr, DecidableEq

variable (c : FlexTtiConfig)

/-! ## Busy symbols -/

namespace SfIabAllocInfo

/-- The symbols of the subframe are looked at one by one. -/
def applies (busy : SfIabAllocInfo) : Bool := c.iabScheduler && busy.valid

/-- How many of the next symbols can be had, up to the first busy one. -/
def getNumFreeSymbols (symIdx numSymNeeded : Nat) (busy : SfIabAllocInfo) : Nat :=
  if busy.applies c then
    (((busy.symAllocationMask.drop symIdx).take numSymNeeded).takeWhile fun bit => !bit).length
  else numSymNeeded

/-- The first free symbol behind the next ones. -/
def getFirstFreeSymbol (symIdx numFreeSymbols : Nat) (busy : SfIabAllocInfo) : Nat :=
  let start := symIdx + numFreeSymbols
  if busy.applies c then
    (start + ((busy.symAllocationMask.drop start).takeWhile fun bit => bit).length) % 2 ^ 8
  else start % 2 ^ 8

def checkOverlapWithBusyResources (symIdx numSymNeeded : Nat) (busy : SfIabAllocInfo) : Bool :=
  busy.applies c && ((busy.symAllocationMask.drop symIdx).take numSymNeeded).any fun bit => bit

/-- One more symbol is busy. -/
def markBusy (mask : List Bool) (index : Nat) : Except Fault (List Bool) := do
  let _ ← elementAt mask index
  pure (mask.set index true)

def updateResourceMask (start numSymbols : Nat) (busy : SfIabAllocInfo) :
    Except Fault SfIabAllocInfo :=
  if c.iabScheduler then do
    let symAllocationMask ← (List.range' start numSymbols).foldlM markBusy busy.symAllocationMask
    pure { busy with symAllocationMask }
  else .error .fatalError

end SfIabAllocInfo

/-! ## Room for retransmissions -/

/-- What is left of a subframe. -/
structure Room where
  symAvail : Int
  symIdx : Nat
  busy : SfIabAllocInfo
  deriving Repr, DecidableEq

/-- The symbols found for a retransmission: the first of them, whether they lie behind busy ones,
and what is left then. -/
structure FoundRoom where
  symStart : Nat
  later : Bool
  room : Room
  deriving Repr, DecidableEq

namespace Room

/-- The loop of the search: the free symbols that were counted last, and where. It is a walk over
numbers of 8 bits and has ended after so many rounds, if it ends. -/
def searchRetx (busy : SfIabAllocInfo) (numSymNeeded : Nat) :
    Nat → Nat → Except Fault (Nat × Nat)
  | 0, _ => .error .endless
  | rounds + 1, tmpSymIdx =>
      let last := sub32 c.phyMac.symbolsPerSubframe 1
      if last ≤ tmpSymIdx then .ok (0, tmpSymIdx)
      else
        let numFreeSymbols := busy.getNumFreeSymbols c tmpSymIdx numSymNeeded
        if numFreeSymbols < numSymNeeded then
          let next := busy.getFirstFreeSymbol c tmpSymIdx numSymNeeded
          if toInt32 last < (next + numSymNeeded : Nat) then .ok (0, next)
          else searchRetx busy numSymNeeded rounds next
        else if numFreeSymbols = 0 then searchRetx busy numSymNeeded rounds tmpSymIdx
        else .ok (numFreeSymbols, tmpSymIdx)

/-- The symbols for a retransmission behind busy ones. -/
def findLater (numSym : Nat) (room : Room) : Except Fault (Option FoundRoom) := do
  let result ← searchRetx c room.busy numSym (2 ^ 8) room.symIdx
  if numSym ≤ result.1 ∧ ((result.2 + numSym : Nat) : Int) <
      toInt32 (sub32 c.phyMac.symbolsPerSubframe c.phyMac.ulCtrlSymbols) then
    let busy ← room.busy.updateResourceMask c result.2 numSym
    pure (some ⟨result.2, true, { room with symAvail := room.symAvail - numSym, busy }⟩)
  else pure none

/-- The symbols for a retransmission, if there are any. -/
def findRetx (numSym : Nat) (room : Room) : Except Fault (Option FoundRoom) :=
  if (numSym : Int) ≤ room.symAvail then
    if room.busy.checkOverlapWithBusyResources c room.symIdx numSym then room.findLater c numSym
    else do
      let symIdx := (room.symIdx + numSym) % 2 ^ 8
      let _ ← assert (symIdx ≤ sub32 c.phyMac.symbolsPerSubframe c.phyMac.ulCtrlSymbols)
      pure (some ⟨room.symIdx, false, { room with symAvail := room.symAvail - numSym, symIdx }⟩)
  else pure none

end Room

/-! ## The state of the round robin scheduler -/

/-- Beside what the padded HBF scheduler keeps: the subframes ahead for which a trigger allocates,
the busy symbols of the subframe at hand, and those of the subframes to come. -/
structure FlexTti extends PaddedHbf where
  maxSchedulingDelay : Nat := 1
  busyResourcesSchedSubframe : SfIabAllocInfo := {}
  iabBusySubframeAllocation : List SfIabAllocInfo := []
  deriving Repr, DecidableEq

namespace FlexTti

/-- The scheduler after `ConfigureCommonParameters`. -/
def start : FlexTti where
  iabBusySubframeAllocation := (List.range c.phyMac.subframesPerFrame).map fun i => {
    sfnSf := { sfNum := i }
    symAllocationMask := List.replicate c.phyMac.symbolsPerSubframe false
    valid := false }

/-- One symbol of a DCI for the backhaul link. -/
def claimSymbol (mask : List Bool) (index : Nat) : Except Fault (List Bool) := do
  let bit ← elementAt mask index
  let _ ← assert (bit = false)
  pure (mask.set index true)

/-- `DoIabBackhaulSchedNotify`: a DCI for the backhaul link in the subframe `sfnSf`. -/
def iabBackhaulSchedNotify (sfnSf : SfnSf) (dci : DciInfoElementTdma) (s : FlexTti) :
    Except Fault FlexTti := do
  let _ ← assert (c.iabScheduler = true)
  let currentInfo ← elementAt s.iabBusySubframeAllocation sfnSf.sfNum
  let newInfo : SfIabAllocInfo :=
    if currentInfo.sfnSf.frameNum = sfnSf.frameNum then currentInfo
    else {
      sfnSf
      symAllocationMask := List.replicate c.phyMac.symbolsPerSubframe false }
  let symAllocationMask ←
    (List.range' dci.symStart dci.numSym).foldlM claimSymbol newInfo.symAllocationMask
  pure { s with iabBusySubframeAllocation :=
    s.iabBusySubframeAllocation.set sfnSf.sfNum { newInfo with symAllocationMask } }

/-- The symbols that are left of a subframe, which is prepared. The scheduler is built with
`m_split` on and nothing sets it. -/
def updateBusySymbolsForIab (sfNum : Nat) (symAvail : Int) (s : FlexTti) :
    Except Fault (Int × FlexTti) :=
  if c.iabScheduler then do
    let busyResources ← elementAt s.iabBusySubframeAllocation sfNum
    let s := { s with iabBusySubframeAllocation :=
      s.iabBusySubframeAllocation.set sfNum { busyResources with valid := false } }
    if busyResources.valid then
      let numBusySymbols := busyResources.symAllocationMask.countP fun bit => bit
      pure (symAvail - numBusySymbols, { s with busyResourcesSchedSubframe := busyResources })
    else
      let unused := { s.busyResourcesSchedSubframe with valid := false }
      pure (symAvail, { s with busyResourcesSchedSubframe := unused })
  else pure (symAvail, s)

/-- The subframe for which a trigger allocates. -/
def allocatedSfn (sfnSf : SfnSf) (s : FlexTti) : Except Fault SfnSf := do
  let ahead := (sfnSf.sfNum + s.maxSchedulingDelay) % 2 ^ 32
  let dlSfNum := ahead % 2 ^ 8 % c.phyMac.subframesPerFrame
  let ulSfNum := ahead % c.phyMac.subframesPerFrame % 2 ^ 8
  let _ ← assert (dlSfNum = ulSfNum)
  let wraps := (c.phyMac.subframesPerFrame : Int) ≤ toInt32 ahead
  pure { sfnSf with
    frameNum := if wraps then (sfnSf.frameNum + 1) % 2 ^ 16 else sfnSf.frameNum
    sfNum := dlSfNum }

/-- `DoCschedUeConfigReq`. -/
def cschedUeConfigReq (rnti : Nat) (reconfigureFlag iab : Bool) (numIabDevsPerRnti : Nat)
    (s : FlexTti) : FlexTti :=
  let s := { s with
    toPaddedHbf := s.toPaddedHbf.cschedUeConfigReq c.toPaddedHbfConfig rnti reconfigureFlag iab }
  if reconfigureFlag ∧ toInt32 s.maxSchedulingDelay < numIabDevsPerRnti + 1 then
    { s with maxSchedulingDelay := numIabDevsPerRnti + 1 }
  else s

end FlexTti

end NtnIab.Mmwave
