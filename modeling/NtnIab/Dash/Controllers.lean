import Mathlib.Algebra.Order.Ring.Defs
import NtnIab.Library.LastMaximum
import NtnIab.Dash.DashClient

/-!
# The rate controllers

Each controller overrides `CalcNextSegment`, which is given the current rate and sets the rate and
the delay of the next request. The caller passes one variable as the current rate and as the next
one, so a controller that does not set the next rate leaves it as it was.

The controllers keep little between calls: FDASH the limit of a forecast disruption, SVAA the
steps of its two previous calls and a counter, AAASH and SFTM a flag.
-/

namespace NtnIab.Dash

variable {K : Type} [Field K] [LinearOrder K]

/-- What a controller sets: `nextRate`, and `delay` in seconds. -/
structure Decision (K : Type) where
  nextRate : Nat
  delay : K

/-- `Seconds(ts)` if it is positive, else `Seconds(0)`. -/
def positivePart (ts : K) : K := if 0 < ts then ts else 0

theorem positivePart_eq_max (x : K) : positivePart x = max 0 x := by
  unfold positivePart
  split_ifs with hpos
  · exact (max_eq_right hpos.le).symm
  · exact (max_eq_left (not_lt.1 hpos)).symm

/-! ## FDASH -/

namespace Fdash

/-- The memberships `slow`, `ok` and `fast` of the buffer level. -/
def bufferMemberships (t currDt : K) : K × K × K :=
  if currDt < 2 * t / 3 then (1, 0, 0)
  else if currDt < t then
    (1 - 1 / (t / 3) * (currDt - 2 * t / 3), 1 / (t / 3) * (currDt - 2 * t / 3), 0)
  else if currDt < 4 * t then
    (0, 1 - 1 / (3 * t) * (currDt - t), 1 / (3 * t) * (currDt - t))
  else (0, 0, 1)

/-- The memberships `falling`, `steady` and `rising` of the buffer differential. -/
def differentialMemberships (t diff : K) : K × K × K :=
  if diff < -2 * t / 3 then (1, 0, 0)
  else if diff < 0 then
    (1 - 1 / (2 * t / 3) * (diff + 2 * t / 3), 1 / (2 * t / 3) * (diff + 2 * t / 3), 0)
  else if diff < 4 * t then (0, 1 - 1 / (4 * t) * diff, 1 / (4 * t) * diff)
  else (0, 0, 1)

/-- The output memberships, from reduce to increase. -/
structure Outputs (K : Type) where
  n2 : K
  n1 : K
  z : K
  p1 : K
  p2 : K

/-- The nine rules, combined by output. -/
def outputs (m : MathFunctions K) (buffer differential : K × K × K) : Outputs K :=
  let (slow, ok, fast) := buffer
  let (falling, steady, rising) := differential
  let r1 := min slow falling
  let r2 := min ok falling
  let r3 := min fast falling
  let r4 := min slow steady
  let r5 := min ok steady
  let r6 := min fast steady
  let r7 := min slow rising
  let r8 := min ok rising
  let r9 := min fast rising
  { p2 := m.sqrt (r9 ^ 2)
    p1 := m.sqrt (r6 ^ 2 + r8 ^ 2)
    z := m.sqrt (r3 ^ 2 + r5 ^ 2 + r7 ^ 2)
    n1 := m.sqrt (r2 ^ 2 + r4 ^ 2)
    n2 := m.sqrt (r1 ^ 2) }

/-- The divisor of `output`. -/
def membershipSum (o : Outputs K) : K := o.n2 + o.n1 + o.z + o.p1 + o.p2

/-- The mean of the factors of change, weighted by the output memberships. -/
def output (m : MathFunctions K) (o : Outputs K) : K :=
  m.quot (o.n2 * 0 + o.n1 * (1 / 4) + o.z * 1 + o.p1 * (3 / 2) + o.p2 * 3) (membershipSum o)

/-- The output memberships of a call. -/
def outputsOf (m : MathFunctions K) (c : DashClient K) : Outputs K :=
  outputs m (bufferMemberships (getSeconds c.targetDt) (c.getBufferEstimate m))
    (differentialMemberships (getSeconds c.targetDt) c.getBufferDifferential)

/-- The buffer level that is expected after a download at a rate. -/
def tLim (m : MathFunctions K) (c : DashClient K) (rate : Nat) : K :=
  c.getBufferEstimate m + (m.quot c.bitrateEstimate (rate : K) - 1) * 2 * getSeconds c.targetDt

/-- The last rate below `result`, or the lowest rate. -/
def rateBelow (ladder : Ladder) (result : Nat) : Nat :=
  ladder.rates.foldl (fun nextRate rate => if rate < result then rate else nextRate) ladder.front

def calcNextSegment (m : MathFunctions K) (c : DashClient K) (interruptionLimit : K)
    (currRate : Nat) : Decision K :=
  let t := getSeconds c.targetDt
  let result := m.toUint32 (output m (outputsOf m c) * c.bitrateEstimate)
  let result := if interruptionLimit < (result : K) then m.toUint32 interruptionLimit else result
  let nextRate := rateBelow c.rates result
  let nextRate :=
    if currRate < nextRate then
      if tLim m c nextRate < t then currRate else nextRate
    else if nextRate < currRate ∧ interruptionLimit = (c.rates.back : K) then
      if t < tLim m c nextRate then
        if t < tLim m c currRate then currRate else nextRate
      else nextRate
    else nextRate
  let delay :=
    if nextRate = c.rates.back then
      let timeToDownload :=
        m.quot (ofMilliSeconds (nextRate * 33 * 100 % 2 ^ 32)) c.bitrateEstimate
      positivePart (c.getBufferEstimate m - t - timeToDownload)
    else 0
  { nextRate, delay }

/-- The limit after `ForecastDisruption`; the frame buffer holds `frames` frames. -/
def forecastDisruption (m : MathFunctions K) (c : DashClient K)
    (estimatedTime estimatedDuration : Int) (frames : Nat) : K :=
  m.quot (c.bitrateEstimate * getSeconds estimatedTime)
    (getSeconds (c.targetDt + estimatedDuration - milliSeconds 33 * frames))

end Fdash

/-! ## SVAA -/

/-- `m_m_k_1`, `m_m_k_2` and `m_counter`. -/
structure SvaaMembers where
  mk1 : Nat := 0
  mk2 : Nat := 0
  counter : Nat := 0
  deriving Repr, DecidableEq

namespace Svaa

/-- The highest rate at or below `i` that is not above the throughput, or the lowest rate. -/
def descend (ladder : Ladder) (tk : K) : Nat → Except Fault Nat
  | 0 => ladder.rate 0
  | i + 1 => do
      let r ← ladder.rate (i + 1)
      if tk < (r : K) then descend ladder tk i else pure r

/-- The throughput scaled by the level and the trend of the buffer. -/
def scaledThroughput (m : MathFunctions K) (c : DashClient K) : K :=
  let e := m.exp (1 * (c.getBufferEstimate m - getSeconds c.targetDt))
  let fq := m.quot (2 * e) (1 + e)
  let delta := segmentDuration
  let ft := m.quot delta (delta - c.getBufferDifferential)
  fq * ft * 1 * c.bitrateEstimate

/-- How many calls a rise has to wait for, by the trend of the buffer. -/
def patience (diff : K) : Nat :=
  if 2 / 5 * segmentDuration ≤ diff then 1
  else if 1 / 5 * segmentDuration ≤ diff then 5
  else if 0 ≤ diff then 15
  else 20

def calcNextSegment (m : MathFunctions K) (c : DashClient K) (members : SvaaMembers)
    (currRate : Nat) : Except Fault (Decision K × SvaaMembers) := do
  let mk := patience c.getBufferDifferential
  let wait := (mk + members.mk1 + members.mk2) / 3
  let members := { members with mk2 := members.mk1, mk1 := mk }
  let uk := scaledThroughput m c
  if c.getBufferEstimate m < getSeconds c.targetDt / 2 then
    let nextRate ← descend c.rates c.bitrateEstimate (c.rates.size - 1)
    pure ({ nextRate, delay := 0 }, members)
  else if (currRate : K) < uk then
    let members := { members with counter := members.counter + 1 }
    if wait < members.counter then
      let nextRate ← descend c.rates c.bitrateEstimate (c.rates.size - 1)
      pure ({ nextRate, delay := 0 }, { members with counter := 0 })
    else pure ({ nextRate := currRate, delay := 0 }, members)
  else
    pure ({ nextRate := currRate, delay := 0 },
      if uk < (currRate : K) then { members with counter := 0 } else members)

end Svaa

/-! ## RAAHS -/

namespace Raahs

/-- The largest relative step of the ladder. -/
def epsilon (ladder : Ladder) : K :=
  ladder.steps.foldl (fun epsilon (lower, upper) =>
    max epsilon (((upper : K) - (lower : K)) / (lower : K))) 0

/-- The duration of a segment by the time it took to fetch. -/
def mi (m : MathFunctions K) (c : DashClient K) : K :=
  m.quot segmentDuration c.getSegmentFetchTime

/-- The loop of the switch down. Its index counts down from zero, in 32 bits. -/
def down (ladder : Ladder) (bound : Int) (limit : K) : Nat → Nat → Nat → Except Fault Nat
  | 0, _, _ => throw .endless
  | fuel + 1, i, nextRate =>
      if (i : Int) < bound then do
        let r ← ladder.rate i
        if (r : K) < limit then down ladder bound limit fuel ((i + (2 ^ 32 - 1)) % 2 ^ 32) r
        else pure nextRate
      else pure nextRate

/-- The next rate: one step up, the result of the loop down, or what it was. -/
def switch (m : MathFunctions K) (c : DashClient K) (rateInd currRate nextRate : Nat) :
    Except Fault Nat :=
  if 1 + epsilon c.rates < mi m c then
    if rateInd < c.rates.size - 1 then c.rates.rate (rateInd + 1) else pure nextRate
  else if mi m c < 67 / 100 then
    down c.rates (rateInd - 1) (mi m c * currRate) (c.rates.size + 1) 0 nextRate
  else pure nextRate

def calcNextSegment (m : MathFunctions K) (c : DashClient K) (currRate nextRate : Nat) :
    Except Fault (Decision K) := do
  let rateInd ← c.rates.rateInd currRate
  let nextRate ← switch m c rateInd currRate nextRate
  let lowest ← c.rates.rate 0
  pure { nextRate, delay := positivePart (c.getBufferEstimate m - 9 -
    (currRate : K) * segmentDuration / (lowest : K)) }

end Raahs

/-! ## AAASH -/

namespace Aaash

/-- The last logged buffer level. -/
def lastLevel (c : DashClient K) : Except Fault Int :=
  match c.bufferState.getLast? with
  | some (_, level) => pure level
  | none => throw .outOfRange

/-- The buffer levels of the window never fall. -/
def bufferInc : Int → OrderedMap Int → Bool
  | _, [] => true
  | last, (_, level) :: rest => if level < last then false else bufferInc level rest

def calcNextSegment (c : DashClient K) (runningFastStart : Bool) (currRate : Nat) :
    Except Fault (Decision K × Bool) := do
  let bMin := seconds 10
  let bLow := seconds 20
  let bHigh := seconds 50
  let bOpt := seconds 35
  let taf := milliSeconds segmentMilliSeconds
  let bt ← lastLevel c
  let rateInd ← c.rates.rateInd currRate
  let current ← c.rates.rate rateInd
  let rUp ← (if rateInd + 1 < c.rates.size then c.rates.rate (rateInd + 1) else pure current)
  let rDown ← (if 1 ≤ rateInd then c.rates.rate (rateInd - 1) else pure current)
  let estimate := c.bitrateEstimate
  let upWithin (a : K) := if (rUp : K) ≤ a * estimate then rUp else currRate
  if runningFastStart ∧ rateInd ≠ c.rates.size - 1 ∧ bufferInc 0 c.bufferState ∧
      (currRate : K) ≤ 3 / 4 * estimate then
    pure (
      if bt < bMin then { nextRate := upWithin (33 / 100), delay := 0 }
      else if bt < bLow then { nextRate := upWithin (1 / 2), delay := 0 }
      else
        { nextRate := upWithin (3 / 4)
          delay := if bHigh < bt then getSeconds (bHigh - taf) else 0 }, runningFastStart)
  else
    let lowest ← c.rates.rate 0
    let waits := currRate = c.rates.back ∨ 9 / 10 * estimate ≤ (rUp : K)
    pure (
      if bt < bMin then { nextRate := lowest, delay := 0 }
      else if bt < bLow then
        { nextRate := if currRate ≠ lowest ∧ estimate ≤ (currRate : K) then rDown else currRate
          delay := 0 }
      else if bt < bHigh then
        { nextRate := currRate, delay := if waits then getSeconds (max (bt - taf) bOpt) else 0 }
      else if waits then { nextRate := currRate, delay := getSeconds (max (bt - taf) bOpt) }
      else { nextRate := rUp, delay := 0 }, false)

end Aaash

/-! ## SFTM -/

namespace Sftm

/-- `std::numeric_limits<double>::max()`. -/
def doubleMax : K := (2 ^ 53 - 1) * 2 ^ 971

/-- The remaining segment fetch time, and the flag after the call. -/
def rsft (c : DashClient K) (rsftExceeded : Bool) : K × Bool :=
  let msd := segmentDuration
  let rsft := (c.segmentId : K) * msd - ofMilliSeconds (c.framesPlayed * 33 % 2 ^ 32) -
    getSeconds c.targetDt
  if rsft < 3 / 4 * msd ∧ rsftExceeded = false then (3 / 4 * msd, rsftExceeded)
  else (rsft, true)

def sftm (m : MathFunctions K) (c : DashClient K) (rsftExceeded : Bool) : K :=
  m.quot (min segmentDuration (rsft c rsftExceeded).1) c.getSegmentFetchTime

/-- The step up from a position that the measurement has to exceed. -/
def upStep (ladder : Ladder) (rateInd : Nat) : Except Fault K := do
  let ec ←
    (if rateInd < ladder.size - 1 then do
      let above ← ladder.rate (rateInd + 1)
      let current ← ladder.rate rateInd
      pure (((above : K) - (current : K)) / (current : K))
    else pure doubleMax)
  let emax := ladder.steps.foldl (fun e (lower, upper) =>
    max e (((upper : K) - (lower : K)) / (lower : K))) 0
  pure (min emax (2 * ec))

/-- The step down from a position. -/
def downStep (ladder : Ladder) (rateInd : Nat) : Except Fault K := do
  let ec ←
    (if 0 < rateInd then do
      let current ← ladder.rate rateInd
      let below ← ladder.rate (rateInd - 1)
      pure (((current : K) - (below : K)) / (current : K))
    else pure 1)
  let emin := ladder.steps.foldl (fun e (lower, upper) =>
    min e (((upper : K) - (lower : K)) / (upper : K))) doubleMax
  pure (max (2 * emin) ec)

/-- The loop of the switch down, over the rates below the current one. -/
def down (limit : K) : List Nat → Nat → Nat
  | [], nextRate => nextRate
  | r :: rest, nextRate => if limit ≤ (r : K) then nextRate else down limit rest r

/-- The next rate: one step up, the result of the loop down, or what it was. -/
def switch (ladder : Ladder) (sftm eu ed : K) (rateInd nextRate : Nat) : Except Fault Nat :=
  if 1 + eu < sftm ∧ rateInd < ladder.size - 1 then ladder.rate (rateInd + 1)
  else if sftm < 1 - ed ∧ rateInd ≠ 0 then do
    let current ← ladder.rate rateInd
    pure (down (sftm * (current : K)) (ladder.rates.take rateInd) nextRate)
  else pure nextRate

def calcNextSegment (m : MathFunctions K) (c : DashClient K) (rsftExceeded : Bool)
    (currRate nextRate : Nat) : Except Fault (Decision K × Bool) := do
  let rateInd ← c.rates.rateInd currRate
  let eu ← upStep c.rates rateInd
  let ed ← downStep c.rates rateInd
  let nextRate ← switch c.rates (sftm m c rsftExceeded) eu ed rateInd nextRate
  let lowest ← c.rates.rate 0
  pure ({ nextRate
          delay := positivePart (c.getBufferEstimate m - 0 -
            segmentDuration * (c.rates.back : K) / (lowest : K)) },
    (rsft c rsftExceeded).2)

end Sftm

/-! ## OSMP -/

namespace Osmp

/-- The time between the last two entries of the log of the buffer. -/
def lastFragment (c : DashClient K) : Except Fault Int :=
  match c.bufferState.reverse with
  | (now, _) :: (before, _) :: _ => pure (now - before)
  | [_] => pure 0
  | [] => throw .outOfRange

/-- The duration of a segment by the time the last one took, in milliseconds. -/
def rDownload (lastFragment : Int) : K :=
  if 0 < getMilliSeconds lastFragment then
    (segmentMilliSeconds : K) / (getMilliSeconds lastFragment : K)
  else 100

/-- The search for the current rate, which has no bound. -/
def seek (currRate : Nat) : List Nat → Nat → Except Fault Nat
  | [], _ => throw .outOfRange
  | r :: rest, lCur => if r ≠ currRate then seek currRate rest (lCur + 1) else pure lCur

/-- The loop of the switch up: it goes on until the rate after `lNxt` is out of reach. -/
def climb (ladder : Ladder) (rDownload current : K) : Nat → Nat → Except Fault Nat
  | 0, _ => throw .endless
  | fuel + 1, lNxt => do
      if lNxt + 1 = ladder.size - 1 then pure (lNxt + 1)
      else
        let above ← ladder.rate (lNxt + 1 + 1)
        if rDownload < (above : K) / current then pure (lNxt + 1)
        else climb ladder rDownload current fuel (lNxt + 1)

/-- The test of the switch up. -/
def mayClimb (ladder : Ladder) (rDownload current : K) (lCur : Nat) : Except Fault Bool :=
  if lCur = 0 then pure true
  else do
    let below ← ladder.rate (lCur - 1)
    pure (decide ((below : K) / current < rDownload))

/-- The position that is taken next, from the current one; it is zero where none is set. -/
def nextLevel (ladder : Ladder) (rDownload : K) (lCur : Nat) : Except Fault Nat := do
  let current ← ladder.rate lCur
  if rDownload < 1 then
    if 0 < lCur then do
      let below ← ladder.rate (lCur - 1)
      if rDownload < (below : K) / (current : K) then pure 0 else pure (lCur - 1)
    else pure 0
  else if lCur < ladder.size - 1 then do
    if ← mayClimb ladder rDownload (current : K) lCur then
      climb ladder rDownload (current : K) ladder.size 0
    else pure 0
  else pure 0

def calcNextSegment (c : DashClient K) (currRate : Nat) : Except Fault (Decision K) := do
  let lastFragment ← lastFragment c
  let lCur ← seek currRate c.rates.rates 0
  let lNxt ← nextLevel c.rates (rDownload lastFragment : K) lCur
  let nextRate ← c.rates.rate lNxt
  pure { nextRate, delay := 0 }

end Osmp

/-! ## BOLA -/

namespace Bola

/-- `BOLA_MINIMUM_BUFFER_S`. -/
def minimumBuffer : K := 10

/-- The utility of a rate; it is one at the lowest rate. -/
def utility (m : MathFunctions K) (ladder : Ladder) (rate : Nat) : K :=
  m.log (rate : K) - m.log (ladder.front : K) + 1

def bufferTime (ladder : Ladder) (bufferTarget : K) : K :=
  max bufferTarget (minimumBuffer + 2 * (ladder.size : K))

def gp (m : MathFunctions K) (ladder : Ladder) (bufferTarget : K) : K :=
  m.quot (utility m ladder ladder.back - 1) (bufferTime ladder bufferTarget / minimumBuffer - 1)

def vp (m : MathFunctions K) (ladder : Ladder) (bufferTarget : K) : K :=
  m.quot minimumBuffer (gp m ladder bufferTarget)

/-- The score of a rate at a buffer level. -/
def score (m : MathFunctions K) (ladder : Ladder) (bufferTarget bufferLevel : K) (rate : Nat) :
    K :=
  (vp m ladder bufferTarget * (utility m ladder rate - 1 + gp m ladder bufferTarget) -
    bufferLevel) / (rate : K)

/-- One turn of the selection: `score` holds the best score after the first turn. -/
def select (m : MathFunctions K) (ladder : Ladder) (bufferTarget bufferLevel : K)
    (best : Option (Nat × K)) (i : Nat) : Except Fault (Option (Nat × K)) := do
  let r ← ladder.rate i
  let s := score m ladder bufferTarget bufferLevel r
  pure (match best with
    | none => some (i, s)
    | some (quality, score) => if score ≤ s then some (i, s) else some (quality, score))

def calcNextSegment (m : MathFunctions K) (c : DashClient K) : Except Fault (Decision K) := do
  if c.rates.size < 2 then pure { nextRate := c.rates.front, delay := 0 }
  else
    let bufferTarget := getSeconds c.targetDt
    let bufferLevel := c.getBufferEstimate m
    let best ← (List.range c.rates.size).foldlM
      (select m c.rates bufferTarget bufferLevel) none
    let quality := match best with
      | none => 0
      | some (quality, _) => quality
    let nextRate ← c.rates.rate quality
    pure { nextRate
           delay := positivePart
             (bufferLevel + segmentDuration - bufferTime c.rates bufferTarget) }

end Bola

/-! ## The override -/

/-- A controller with its members. -/
inductive Controller (K : Type)
  | fdash (interruptionLimit : K)
  | svaa (members : SvaaMembers)
  | raahs
  | aaash (runningFastStart : Bool)
  | sftm (rsftExceeded : Bool)
  | osmp
  | bola

namespace Controller

/-- `CalcNextSegment` of the controller, with its members after the call. -/
def calcNextSegment (m : MathFunctions K) (c : DashClient K) (currRate nextRate : Nat) :
    Controller K → Except Fault (Decision K × Controller K)
  | .fdash limit => pure (Fdash.calcNextSegment m c limit currRate, .fdash limit)
  | .svaa members => (Svaa.calcNextSegment m c members currRate).map fun (d, after) =>
      (d, .svaa after)
  | .raahs => (Raahs.calcNextSegment m c currRate nextRate).map (·, .raahs)
  | .aaash running => (Aaash.calcNextSegment c running currRate).map fun (d, after) =>
      (d, .aaash after)
  | .sftm exceeded => (Sftm.calcNextSegment m c exceeded currRate nextRate).map fun (d, after) =>
      (d, .sftm after)
  | .osmp => (Osmp.calcNextSegment c currRate).map (·, .osmp)
  | .bola => (Bola.calcNextSegment m c).map (·, .bola)

end Controller

end NtnIab.Dash
