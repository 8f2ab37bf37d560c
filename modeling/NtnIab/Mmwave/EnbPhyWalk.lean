import Mathlib.Logic.Relation
import NtnIab.Library.Agenda
import NtnIab.Mmwave.HarqProcesses
import NtnIab.Mmwave.SubframeTarget

/-!
# The subframes of the eNB PHY

The PHY takes the allocation of a subframe and goes through its slots, by events that it schedules
for itself: a slot starts, or it ends, or the next subframe starts. Slots with one start symbol
start together, on several layers. The first slot of an allocation is the control slot of the
downlink, the last one that of the uplink, and the slots between them are gathered into bundles.

Times are in nanoseconds. `handled` and `ended` are records for the proofs: the slots that were
started, each with the bundle that it was started with, and the number of subframes that ended.
-/

namespace NtnIab.Mmwave

namespace EnbPhy

structure SfAllocInfo extends Mmwave.SfAllocInfo where
  slotAllocInfo : List SlotAllocInfo
  deriving Repr, DecidableEq

structure SlotBundleInfo where
  numLayers : Nat := 0
  symStart : Nat := 0
  minNumSym : Nat := 0
  deriving Repr, DecidableEq

/-- The events that the PHY schedules for itself. -/
inductive Event
  | startSubFrame
  | incrSlotCtrAndStartSlot
  | endSlot
  deriving Repr, DecidableEq

/-- What is fixed. The source multiplies the symbol period, a floating-point number, by a number of
symbols; `symbolTime` is the product as a time. The MAC hears of every slot that starts, and may
store allocations then. -/
structure Config (μ : Type) where
  phyMacConfig : MmWavePhyMacCommon
  symbolTime : Nat → Nat
  sfPeriod : Nat
  mmseBeamforming : Bool
  subframeIndication : SfnSf → μ → List SfAllocInfo → μ × List SfAllocInfo

end EnbPhy

open EnbPhy

/-- The part of the PHY that goes through the slots. Slot numbers have 8 bits. -/
structure EnbPhy (μ : Type) where
  now : Nat := 0
  agenda : List (Nat × Event)
  mac : μ
  sfn : SfnSf := {}
  slotNum : Nat := 0
  lastSfStart : Nat := 0
  sfAllocInfo : List EnbPhy.SfAllocInfo
  currSfAllocInfo : EnbPhy.SfAllocInfo
  currSfNumSlots : Nat := 0
  slotBundleList : List SlotBundleInfo := []
  allActiveSlotNums : List Nat := []
  handled : List (Nat × SlotBundleInfo) := []
  ended : Nat := 0
  deriving Repr, DecidableEq

namespace EnbPhy

/-! ## Bundles -/

/-- A bundle with the first of its slots. -/
def SlotBundleInfo.ofSlot (slot : SlotAllocInfo) : SlotBundleInfo where
  numLayers := 1
  symStart := slot.dci.symStart
  minNumSym := slot.dci.numSym

def SlotBundleInfo.add (slot : SlotAllocInfo) (bundle : SlotBundleInfo) : SlotBundleInfo :=
  { bundle with
    numLayers := (bundle.numLayers + 1) % 2 ^ 8
    minNumSym :=
      if bundle.minNumSym > slot.dci.numSym then slot.dci.numSym else bundle.minNumSym }

/-- The inner loop after its first slot: the bundle, and the slots from the saved index on. Without
any, the last slot is in the bundle. -/
def scanBundle : SlotBundleInfo → List SlotAllocInfo → SlotBundleInfo × List SlotAllocInfo
  | bundle, [] => (bundle, [])
  | bundle, slot :: rest =>
      if bundle.symStart = slot.dci.symStart then scanBundle (bundle.add slot) rest
      else (bundle, slot :: rest)

/-- The outer loop, for a number of rounds. The bundle of the last slot is not stored. If there are
no slots, the flag that ends the loop is never set. -/
def buildBundles : Nat → List SlotAllocInfo → Except Fault (List SlotBundleInfo)
  | 0, _ => .error .endless
  | _ + 1, [] => .error .endless
  | rounds + 1, slot :: rest =>
      let scanned := scanBundle (.ofSlot slot) rest
      if scanned.2.isEmpty then .ok []
      else (buildBundles rounds scanned.2).map (scanned.1 :: ·)

/-- The number of slots of an allocation, and its bundles. A used allocation has no slots. -/
def SfAllocInfo.bundles (info : SfAllocInfo) : Except Fault (Nat × List SlotBundleInfo) :=
  let numSlots := info.slotAllocInfo.length % 2 ^ 8
  if info.valid then
    (buildBundles numSlots ((info.slotAllocInfo.take numSlots).drop 1)).map (numSlots, ·)
  else .ok (0, [])

section
variable {μ : Type} (c : Config μ)

/-! ## Slots -/

/-- An event after a delay, which the simulator asserts not to be negative. -/
def schedule (delay : Int) (event : Event) (phy : EnbPhy μ) : Except Fault (EnbPhy μ) := do
  assert (0 ≤ delay)
  pure { phy with agenda := Agenda.schedule (phy.now + delay.toNat) event phy.agenda }

/-- A slot of a bundle starts. -/
def startLayer (bundle : SlotBundleInfo) (tddMode : TddMode) (phy : EnbPhy μ) (layerInd : Nat) :
    Except Fault (EnbPhy μ) := do
  let slotNum := if layerInd > 0 then (phy.slotNum + 1) % 2 ^ 8 else phy.slotNum
  let slot ← elementAt phy.currSfAllocInfo.slotAllocInfo slotNum
  assert (tddMode = .dl → slot.tddMode = .dl)
  pure
    { phy with
      slotNum := slotNum
      allActiveSlotNums := phy.allActiveSlotNums ++ [slotNum]
      handled := phy.handled ++ [(slotNum, bundle)] }

/-- The slots of the next bundle start, in the direction of the first one. -/
def startBundle (tddMode : TddMode) (phy : EnbPhy μ) : Except Fault (Nat × EnbPhy μ) :=
  match phy.slotBundleList with
  | [] => .error .absent
  | bundle :: bundles => do
      let phy ← (List.range bundle.numLayers).foldlM (startLayer bundle tddMode)
        { phy with slotBundleList := bundles }
      if tddMode = .dl ∧ c.mmseBeamforming = false then .error .fatalError
      else pure (c.symbolTime bundle.minNumSym, phy)

/-- The MAC hears of a slot. -/
def indicateSlot (phy : EnbPhy μ) : EnbPhy μ :=
  let indicated := c.subframeIndication
    { phy.sfn with slotNum := phy.slotNum } phy.mac phy.sfAllocInfo
  { phy with mac := indicated.1, sfAllocInfo := indicated.2 }

/-- The end of a slot is scheduled, and the start of the next one. -/
def scheduleSlots (slotPeriod : Nat) (phy : EnbPhy μ) : Except Fault (EnbPhy μ) := do
  let phy ← schedule slotPeriod .endSlot phy
  if (phy.slotNum : Int) < phy.currSfNumSlots - 1 then
    let this ← elementAt phy.currSfAllocInfo.slotAllocInfo phy.slotNum
    let next ← elementAt phy.currSfAllocInfo.slotAllocInfo (1 + phy.slotNum)
    schedule (c.symbolTime next.dci.symStart - c.symbolTime this.dci.symStart)
      .incrSlotCtrAndStartSlot phy
  else pure phy

/-- How long a slot lasts until its end is handled. The first slot of an allocation is the control
slot of the downlink, the last one that of the uplink. -/
def runSlot (currSlot : SlotAllocInfo) (phy : EnbPhy μ) : Except Fault (Nat × EnbPhy μ) :=
  if phy.slotNum = 0 then .ok (c.symbolTime c.phyMacConfig.dlCtrlSymbols, phy)
  else if (phy.slotNum : Int) = phy.currSfNumSlots - 1 then
    .ok (c.symbolTime c.phyMacConfig.ulCtrlSymbols, phy)
  else startBundle c currSlot.tddMode phy

def startSlot (phy : EnbPhy μ) : Except Fault (EnbPhy μ) := do
  let currSlot ← elementAt phy.currSfAllocInfo.slotAllocInfo phy.slotNum
  let started ← runSlot c currSlot phy
  scheduleSlots c started.1 (indicateSlot c started.2)

def startSubFrame (phy : EnbPhy μ) : Except Fault (EnbPhy μ) := do
  let info ← elementAt phy.sfAllocInfo phy.sfn.sfNum
  let bundles ← info.bundles
  assert (info.sfnSf.frameNum = phy.sfn.frameNum ∧ info.sfnSf.sfNum = phy.sfn.sfNum)
  startSlot c
    { phy with
      lastSfStart := phy.now
      sfAllocInfo := phy.sfAllocInfo.set phy.sfn.sfNum { info with valid := false }
      currSfAllocInfo := info
      currSfNumSlots := bundles.1
      slotBundleList := bundles.2 }

def incrSlotCtrAndStartSlot (phy : EnbPhy μ) : Except Fault (EnbPhy μ) :=
  startSlot c { phy with slotNum := (phy.slotNum + 1) % 2 ^ 8 }

def endSubFrame (phy : EnbPhy μ) : Except Fault (EnbPhy μ) :=
  schedule (phy.lastSfStart + c.sfPeriod - phy.now) .startSubFrame
    { phy with
      slotNum := 0
      sfn := phy.sfn.next c.phyMacConfig
      ended := phy.ended + 1 }

/-- The slots that are not over yet. The end of a slot is counted from time 0 here. -/
def stillActive (slots : List SlotAllocInfo) (now : Nat) : List Nat → Except Fault (List Nat)
  | [] => .ok []
  | i :: rest => do
      let slot ← elementAt slots i
      let others ← stillActive slots now rest
      pure (if c.symbolTime slot.dci.symEnd ≤ now then others else i :: others)

def endSlot (phy : EnbPhy μ) : Except Fault (EnbPhy μ) := do
  let active ←
    stillActive c phy.currSfAllocInfo.slotAllocInfo phy.now phy.allActiveSlotNums
  if active = [] ∧ (phy.slotNum : Int) = phy.currSfNumSlots - 1 then
    endSubFrame c { phy with allActiveSlotNums := active, slotNum := 0 }
  else pure { phy with allActiveSlotNums := active }

/-! ## Runs -/

def handle (event : Event) (phy : EnbPhy μ) : Except Fault (EnbPhy μ) :=
  match event with
  | .startSubFrame => startSubFrame c phy
  | .incrSlotCtrAndStartSlot => incrSlotCtrAndStartSlot c phy
  | .endSlot => endSlot c phy

/-- The first event of the agenda. Without one nothing happens any more. -/
def step (phy : EnbPhy μ) : Except Fault (EnbPhy μ) :=
  match phy.agenda with
  | [] => .ok phy
  | (time, event) :: rest => handle c event { phy with now := time, agenda := rest }

/-- The events take one state to the other. -/
def Reaches : EnbPhy μ → EnbPhy μ → Prop :=
  Relation.ReflTransGen fun phy phy' => step c phy = .ok phy'

end

end EnbPhy

end NtnIab.Mmwave
