import NtnIab.Library.Binary64
import NtnIab.Library.MapTraversal
import NtnIab.Mmwave.FlexTtiPf

/-!
# The division of the symbols by the proportional fair scheduler

The symbols of a subframe are given out one by one, each to the first UE of the working list that
can use it. The list is sorted anew before each symbol, by what a UE would get now over what it got
on average. A UE takes its symbols in turn for the downlink and the uplink. A direction is done
when its block holds what waits, and that of an IAB device also when a cap is reached: the two caps
divide half of the symbols by what waits in either direction.
-/

namespace NtnIab.Mmwave

namespace FlexTtiPf

variable (c : FlexTtiConfig)

/-- A direction of a UE. -/
abbrev Flow := Nat × TddMode

def UeSchedInfo.direction (mode : TddMode) (ue : UeSchedInfo) : Direction :=
  match mode with
  | .dl => ue.dl
  | .ul => ue.ul

/-! ## Demands -/

/-- The throughput of a block for what waits, over the subframe. -/
def throughput (totBuf mcs symbols : Nat) : ℚ :=
  (min totBuf (c.amc.getTbSizeFromMcsSymbols mcs symbols % 2 ^ 32).toNat : ℕ) /
    (c.subframePeriod / 10 ^ 6)

/-- An RLC PDU for what waits, with its headers. -/
def UeSchedInfo.addPdu (isIab : Bool) (lcid size header : Nat) (ue : UeSchedInfo) : UeSchedInfo :=
  if 0 < size then { ue with
    rlcPduInfo := ue.rlcPduInfo ++ [⟨lcid, (size + header) % 2 ^ 32⟩]
    dl.totBuf := (ue.dl.totBuf + size) % 2 ^ 32
    iab := ue.iab || isIab }
  else ue

/-- What waits on a downlink flow. -/
def UeSchedInfo.addFlow (isIab : Bool) (ue : UeSchedInfo) (flow : FlowStats) : UeSchedInfo :=
  (ue.addPdu isIab flow.lcid flow.rlcStatusPduSize subHdrSize).addPdu isIab flow.lcid
    flow.totalBufSize (rlcHdrSize + subHdrSize + 10)

/-- The downlink of a UE, unless its CQI is out of range, and whether something waits. -/
def collectDl (s : PaddedHbf) (isIab : Bool) (rnti : Nat) (ue : UeSchedInfo) :
    UeSchedInfo × Bool :=
  let cqi := (s.wbCqiRxed.find rnti).getD 1
  if cqi = 0 then (ue, false)
  else
    let ue := { ue with dl.mcs := c.amc.getMcsFromCqi cqi % 2 ^ 8 }
    let ue := ue.dl.flowStats.foldl (UeSchedInfo.addFlow isIab) ue
    if ue.dl.totBuf = 0 then (ue, false)
    else ({ ue with dl.currTput := throughput c ue.dl.totBuf ue.dl.mcs 1 }, true)

/-- The uplink of a UE, unless its CQI is out of range, and whether something waits. -/
def collectUl (s : PaddedHbf) (isIab : Bool) (rnti : Nat) (ue : UeSchedInfo) :
    Except Fault (UeSchedInfo × Bool) := do
  let cqi ← Mmwave.Flows.ulCqi c.toPaddedHbfConfig s rnti
  if cqi.1 = 0 then pure (ue, false)
  else
    let mcs := cqi.2 % 2 ^ 8
    let waiting := (ue.ul.totBuf + (ue.ul.flowStats.map (·.totalBufSize)).sum) % 2 ^ 32
    if waiting = 0 then pure ({ ue with ul.mcs := mcs, ul.totBuf := waiting }, false)
    else
      let totBuf := (waiting + rlcHdrSize + macHdrSize + 8) % 2 ^ 32
      pure ({ ue with
        ul.mcs := mcs
        ul.totBuf := totBuf
        ul.currTput := throughput c totBuf mcs 1
        iab := ue.iab || isIab }, true)

/-- The record of a UE, and whether it takes part in the division. -/
structure Candidate where
  ue : UeSchedInfo
  waits : Bool
  deriving Repr, DecidableEq

/-- What waits in the two directions of a UE. -/
def collectUe (s : PaddedHbf) (rnti : Nat) (ue : UeSchedInfo) : Except Failure Candidate :=
  blame (.ue rnti) do
    let isIab := (s.rntiIabInfoMap.find rnti).getD false
    let dl := collectDl c s isIab rnti ue
    let ul ← collectUl c s isIab rnti dl.1
    pure { ue := ul.1, waits := dl.2 || ul.2 }

/-! ## The caps of IAB devices -/

/-- A signed number of 32 bits. What the source does with others is not defined. -/
def asInt (n : Int) : Except Fault Int :=
  if -2 ^ 31 ≤ n ∧ n < 2 ^ 31 then .ok n else .error .fatalError

/-- The caps of the downlink and the uplink, computed in double precision. -/
def capsForIab (totBufDl totBufUl : Nat) (maxSymAvailableForSingleIab : Int) :
    Except Fault (Nat × Nat) := do
  let total ← asInt (toInt32 totBufDl + toInt32 totBufUl)
  if total = 0 then .error .fatalError
  else
    let dlRatio := Binary64.round (toInt32 totBufDl / total)
    let ulRatio := Binary64.round (1 - dlRatio)
    let maxDlSym ← asInt ⌊Binary64.round (dlRatio * maxSymAvailableForSingleIab)⌋
    let maxUlSym ← asInt ⌈Binary64.round (ulRatio * maxSymAvailableForSingleIab)⌉
    pure ((maxDlSym % 2 ^ 8).toNat, (maxUlSym % 2 ^ 8).toNat)

/-- The caps of a UE, if it is an IAB device for which something waits. -/
def UeSchedInfo.limitIab (symAvail : Int) (ue : UeSchedInfo) : Except Fault UeSchedInfo :=
  if ue.iab ∧ (0 < ue.dl.totBuf ∨ 0 < ue.ul.totBuf) then do
    let caps ← capsForIab ue.dl.totBuf ue.ul.totBuf (symAvail.tdiv 2)
    pure { ue with dl.maxSymbols := caps.1, ul.maxSymbols := caps.2 }
  else pure ue

/-! ## Turns -/

/-- A direction is done for which nothing waits, or the cap of which is reached. -/
def Direction.markDone (iab : Bool) (d : Direction) : Direction :=
  if d.totBuf = 0 ∨ iab ∧ d.maxSymbols ≤ d.symbols then { d with allocDone := true } else d

/-- One more symbol. -/
def Direction.addSymbol (d : Direction) : Direction :=
  let symbols := (d.symbols + 1) % 2 ^ 8
  let tbSize := tbSizeOf c.toPaddedHbfConfig d.mcs symbols
  let lastAvgTput := if d.totBuf ≤ tbSize then d.avgTput else d.lastAvgTput
  { d with
    symbols
    tbSize
    allocDone := d.allocDone || d.totBuf ≤ tbSize
    lastAvgTput
    currTput := throughput c d.totBuf d.mcs symbols
    avgTput := (1 - 1 / c.timeWindow) * lastAvgTput +
      1 / c.timeWindow * (tbSize / (c.subframePeriod / 10 ^ 6)) }

namespace UeSchedInfo

def markDone (ue : UeSchedInfo) : UeSchedInfo :=
  { ue with dl := ue.dl.markDone ue.iab, ul := ue.ul.markDone ue.iab }

/-- The direction that gets the next symbol. -/
def nextTurn (ue : UeSchedInfo) : Option TddMode :=
  if (ue.allocUlLast || ue.dl.allocDone) ∧ ¬ue.ul.allocDone then some .ul
  else if ¬ue.dl.allocDone then some .dl
  else none

def addSymbol (mode : TddMode) (ue : UeSchedInfo) : UeSchedInfo :=
  match mode with
  | .dl => { ue with dl := ue.dl.addSymbol c, allocUlLast := false }
  | .ul => { ue with ul := ue.ul.addSymbol c, allocUlLast := true }

/-- What a UE would get over what it got. The source takes the average of the downlink twice. -/
def pfMetric (ue : UeSchedInfo) : ℚ :=
  max ue.dl.currTput ue.ul.currTput / max (1 / 10 ^ 9) (ue.dl.avgTput + ue.dl.avgTput)

end UeSchedInfo

/-- `CompareUeWeightsPf`. -/
def compareUeWeightsPf (ues : OrderedMap UeSchedInfo) (lue rue : Nat) : Bool :=
  ((ues.find rue).getD {}).pfMetric < ((ues.find lue).getD {}).pfMetric

/-- A walk over the working list, up to the first UE that gets a symbol. -/
def walk : List Nat → OrderedMap UeSchedInfo → Option Flow × OrderedMap UeSchedInfo
  | [], ues => (none, ues)
  | rnti :: rest, ues =>
      let ue := ((ues.find rnti).getD {}).markDone
      match ue.nextTurn with
      | some mode => (some (rnti, mode), ues.adjust rnti fun _ => ue.addSymbol c mode)
      | none => walk rest (ues.adjust rnti fun _ => ue)

/-! ## The division -/

/-- The symbols that are left, the working list, the records, and the flows that got a symbol, one
after the other. -/
structure Division where
  symAvail : Nat
  ueStatHeap : List Nat
  ueSchedInfoMap : OrderedMap UeSchedInfo
  given : List Flow := []
  deriving Repr, DecidableEq

namespace Division

/-- A round, in which at most one symbol is given out, and whether one is. -/
def round (d : Division) : Division × Bool :=
  let ueStatHeap := c.ueSort.sort (compareUeWeightsPf d.ueSchedInfoMap) d.ueStatHeap
  let walked := walk c ueStatHeap d.ueSchedInfoMap
  match walked.1 with
  | some flow => ({
      symAvail := d.symAvail - 1
      ueStatHeap
      ueSchedInfoMap := walked.2
      given := d.given ++ [flow] }, true)
  | none => ({ d with ueStatHeap, ueSchedInfoMap := walked.2 }, false)

/-- So many rounds, or less if nobody gets a symbol. -/
def rounds : Nat → Division → Division
  | 0, d => d
  | n + 1, d =>
      let result := d.round c
      if result.2 then rounds n result.1 else result.1

/-- The rounds while symbols are left. -/
def run (d : Division) : Division := d.rounds c d.symAvail

end Division

/-- The caps are set and the symbols are divided. -/
def divideSymbols (symAvail : Int) (ueStatHeap : List Nat) (ues : OrderedMap UeSchedInfo) :
    Except Failure Division := do
  let limited ← ues.traverse fun rnti ue => blame (.ue rnti) (ue.limitIab symAvail)
  pure (Division.run c { symAvail := symAvail.toNat, ueStatHeap, ueSchedInfoMap := limited })

end FlexTtiPf

end NtnIab.Mmwave
