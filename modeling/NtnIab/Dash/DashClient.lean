import Mathlib.Algebra.Field.Defs
import Mathlib.Analysis.SpecialFunctions.Log.Basic
import Mathlib.Analysis.SpecialFunctions.Sqrt
import Mathlib.Order.Defs.LinearOrder
import Mathlib.Data.Nat.Cast.Defs
import Mathlib.Algebra.Order.Monoid.Defs
import NtnIab.Library.OrderedMap
import NtnIab.Library.Fallible
import NtnIab.Dash.MpegPlayer

/-!
# The client and what it measures

The client keeps a ladder of rates, the buffer levels it logged in a window of time, the bit rates
of the segments in that window and the request it waits for. This is the state that the rate
controllers read.

Doubles are read as the elements of an ordered field. What the code takes from outside the field,
the functions of the mathematical library, the conversion to `uint32_t` and a division by zero, is
collected in `MathFunctions`.
-/

namespace NtnIab.Dash

structure MathFunctions (K : Type) where
  log : K → K
  exp : K → K
  sqrt : K → K
  /-- The conversion of a double to `uint32_t`. -/
  toUint32 : K → Nat
  /-- What the division of a double by zero gives. -/
  byZero : K → K

/-- The functions of the mathematical library on the real numbers. -/
noncomputable def MathFunctions.real (toUint32 : ℝ → Nat) (byZero : ℝ → ℝ) :
    MathFunctions ℝ where
  log := Real.log
  exp := Real.exp
  sqrt := Real.sqrt
  toUint32
  byZero

/-- How a call ends the program: an access outside of a container, the fatal error of a controller
that does not find its rate, a loop that does not end. -/
inductive Fault
  | outOfRange
  | wrongRate
  | endless
  deriving Repr, DecidableEq

/-! ## The ladder -/

/-- The vector `rates`, from the lowest to the highest. Indices of the code into it are `int` or
`uint32_t`; they are natural numbers here. -/
structure Ladder where
  rates : List Nat
  nonempty : rates ≠ []
  ascending : rates.Pairwise (· < ·)
  positive : ∀ rate ∈ rates, 0 < rate
  fits : ∀ rate ∈ rates, rate < 2 ^ 32

namespace Ladder

/-- The rates of the source. -/
def standard : Ladder where
  rates := [45000, 89000, 131000, 178000, 221000, 263000, 334000, 396000, 522000, 595000, 791000,
    1033000, 1245000, 1547000, 2134000, 2484000, 3079000, 3527000, 3840000, 4220000]
  nonempty := by decide
  ascending := by decide
  positive := by decide
  fits := by decide

def size (ladder : Ladder) : Nat := ladder.rates.length

def front (ladder : Ladder) : Nat := ladder.rates.head ladder.nonempty

def back (ladder : Ladder) : Nat := ladder.rates.getLast ladder.nonempty

/-- `rates[i]`. -/
def rate (ladder : Ladder) (i : Nat) : Except Fault Nat :=
  match ladder.rates[i]? with
  | some r => pure r
  | none => throw .outOfRange

/-- The search for the current rate that four of the controllers begin with: the index is
`rates.size()` if the rate is not found. -/
def rateInd (ladder : Ladder) (currRate : Nat) : Except Fault Nat :=
  let rateInd := ladder.rates.idxOf currRate
  if rateInd = ladder.size then throw .wrongRate else pure rateInd

/-- The pairs `(rates[i], rates[i + 1])`. -/
def steps (ladder : Ladder) : List (Nat × Nat) := ladder.rates.zip ladder.rates.tail

end Ladder

/-! ## The client -/

structure DashClient (K : Type) where
  rates : Ladder
  targetDt : Int
  window : Nat
  maxBufferS : K
  maxSegments : Nat
  /-- `m_bufferState`: the buffer level by the time of its measurement. -/
  bufferState : OrderedMap Int
  bitrateQueue : List (Nat × K)
  bitrateSum : K
  bitrateEstimate : K
  segmentId : Nat
  segmentFetchTime : Int
  /-- `m_framesPlayed` of the player. -/
  framesPlayed : Nat
  lastDt : Int
  bitRate : Nat
  connected : Bool
  requestPending : Bool
  requestTime : Nat
  segmentBytes : Nat
  pendingSegmentId : Nat
  pendingBitRate : Nat
  pendingRetryUsed : Bool
  lastWatchdogBytes : Nat
  watchdogStuckTicks : Nat
  /-- The requests handed to the socket, as pairs of segment and rate. -/
  requests : List (Nat × Nat)

/-- A client as its constructor leaves it, with a ladder and a target. -/
def DashClient.new {K : Type} [Zero K] (rates : Ladder) (targetDt : Int) : DashClient K where
  rates
  targetDt
  window := 10000000000
  maxBufferS := 0
  maxSegments := 0
  bufferState := []
  bitrateQueue := []
  bitrateSum := 0
  bitrateEstimate := 0
  segmentId := 0
  segmentFetchTime := 0
  framesPlayed := 0
  lastDt := seconds (-1)
  bitRate := 45000
  connected := false
  requestPending := false
  requestTime := 0
  segmentBytes := 0
  pendingSegmentId := 0
  pendingBitRate := 0
  pendingRetryUsed := false
  lastWatchdogBytes := 0
  watchdogStuckTicks := 0
  requests := []

section Measurements

variable {K : Type} [Field K] [LinearOrder K]

def getSeconds (t : Int) : K := (t : K) / 1000000000

def getMilliSeconds (t : Int) : Int := t.tdiv 1000000

/-- `MPEG_FRAMES_PER_SEGMENT * MPEG_TIME_BETWEEN_FRAMES`, the milliseconds of a segment. -/
def segmentMilliSeconds : Nat := 100 * 33

/-- The seconds of a number of milliseconds. -/
def ofMilliSeconds (n : Nat) : K := (n : K) / 1000

/-- The seconds of a segment. -/
def segmentDuration : K := ofMilliSeconds segmentMilliSeconds

/-- A division whose divisor may be zero. -/
def MathFunctions.quot (m : MathFunctions K) (x y : K) : K :=
  if y = 0 then m.byZero x else x / y

theorem MathFunctions.quot_of_ne (m : MathFunctions K) (x : K) {y : K} (hy : y ≠ 0) :
    m.quot x y = x / y := by
  unfold quot
  rw [if_neg hy]

namespace DashClient

/-- The mean of the logged buffer levels. -/
def getBufferEstimate (m : MathFunctions K) (c : DashClient K) : K :=
  m.quot (c.bufferState.foldl (fun sum entry => sum + getSeconds entry.2) 0)
    (c.bufferState.length : K)

/-- The difference of the last two buffer levels. -/
def getBufferDifferential (c : DashClient K) : K :=
  match c.bufferState.reverse with
  | (_, last) :: (_, prev) :: _ => getSeconds (last - prev)
  | _ => 0

def getSegmentFetchTime (c : DashClient K) : K := getSeconds c.segmentFetchTime

/-- The entry of this time is set, and entries older than the window go. -/
def logBufferLevel (c : DashClient K) (now : Nat) (t : Int) : DashClient K :=
  { c with
    bufferState := (c.bufferState.assign now t).filter fun entry => ¬ entry.1 + c.window < now }

/-- The loop of `AddBitRate` that removes the values before the window. -/
def removeOld (window time : Nat) : List (Nat × K) → K → List (Nat × K) × K
  | [], sum => ([], sum)
  | (t, bitrate) :: rest, sum =>
      if t + window < time then removeOld window time rest (sum - bitrate)
      else ((t, bitrate) :: rest, sum)

def addBitRate (m : MathFunctions K) (c : DashClient K) (time : Nat) (bitrate : K) :
    DashClient K :=
  let (kept, sum) := removeOld c.window time c.bitrateQueue c.bitrateSum
  { c with
    bitrateQueue := kept ++ [(time, bitrate)]
    bitrateSum := sum + bitrate
    bitrateEstimate := m.quot (sum + bitrate) ((kept.length + 1 : Nat) : K) }

end DashClient

end Measurements

/-! ## Positions on the ladder -/

namespace Ladder

variable {ladder : Ladder} {i j r s : Nat}

theorem size_pos (ladder : Ladder) : 0 < ladder.size := List.length_pos_iff.2 ladder.nonempty

theorem rate_eq_ok : ladder.rate i = .ok r ↔ ladder.rates[i]? = some r := by
  unfold rate
  split
  · rename_i found hfound
    rw [hfound, Option.some.injEq]
    exact Fallible.pure_eq_ok
  · rename_i hnone
    rw [hnone]
    constructor <;> intro h <;> cases h

theorem rate_of_lt (hi : i < ladder.size) : ladder.rate i = .ok ladder.rates[i] :=
  rate_eq_ok.2 (List.getElem?_eq_getElem hi)

theorem exists_rate_of_lt (hi : i < ladder.size) : ∃ r, ladder.rate i = .ok r :=
  ⟨_, rate_of_lt hi⟩

theorem rate_mem (hr : ladder.rate i = .ok r) : r ∈ ladder.rates :=
  List.mem_of_getElem? (rate_eq_ok.1 hr)

theorem lt_size_of_rate (hr : ladder.rate i = .ok r) : i < ladder.size :=
  (List.getElem?_eq_some_iff.1 (rate_eq_ok.1 hr)).1

/-- A higher position has a higher rate. -/
theorem rate_lt_rate (hr : ladder.rate i = .ok r) (hs : ladder.rate j = .ok s) :
    i < j ↔ r < s := by
  obtain ⟨hi, rfl⟩ := List.getElem?_eq_some_iff.1 (rate_eq_ok.1 hr)
  obtain ⟨hj, rfl⟩ := List.getElem?_eq_some_iff.1 (rate_eq_ok.1 hs)
  have hmono : ∀ {a b : Nat} (ha : a < ladder.rates.length) (hb : b < ladder.rates.length),
      a < b → ladder.rates[a] < ladder.rates[b] :=
    fun ha hb hab => List.pairwise_iff_getElem.1 ladder.ascending _ _ ha hb hab
  constructor
  · exact hmono hi hj
  · intro hlt
    by_contra hge
    rcases Nat.lt_or_eq_of_le (Nat.le_of_not_lt hge) with hgt | rfl
    · exact absurd (hmono hj hi hgt) (Nat.lt_asymm hlt)
    · exact Nat.lt_irrefl _ hlt

theorem rate_le_rate (hr : ladder.rate i = .ok r) (hs : ladder.rate j = .ok s) :
    i ≤ j ↔ r ≤ s := by
  rw [← Nat.not_lt, rate_lt_rate hs hr, Nat.not_lt]

theorem rate_pos (hr : ladder.rate i = .ok r) : 0 < r := ladder.positive r (rate_mem hr)

theorem rate_zero (ladder : Ladder) : ladder.rate 0 = .ok ladder.front := by
  rw [rate_eq_ok, ← List.head?_eq_getElem?]
  exact List.head?_eq_some_head ladder.nonempty

theorem rate_last (ladder : Ladder) : ladder.rate (ladder.size - 1) = .ok ladder.back := by
  rw [rate_eq_ok]
  exact (List.getLast?_eq_getElem? ..).symm.trans (List.getLast?_eq_some_getLast ladder.nonempty)

theorem front_mem (ladder : Ladder) : ladder.front ∈ ladder.rates := rate_mem ladder.rate_zero

theorem exists_rate (hr : r ∈ ladder.rates) : ∃ i, ladder.rate i = .ok r := by
  obtain ⟨i, hi, heq⟩ := List.getElem_of_mem hr
  exact ⟨i, by rw [rate_of_lt hi, heq]⟩

theorem front_lt_back (hsize : 2 ≤ ladder.size) : ladder.front < ladder.back :=
  (rate_lt_rate ladder.rate_zero ladder.rate_last).1 (by omega)

theorem front_pos (ladder : Ladder) : 0 < ladder.front := rate_pos ladder.rate_zero

theorem front_le (hr : r ∈ ladder.rates) : ladder.front ≤ r := by
  obtain ⟨i, hi⟩ := exists_rate hr
  exact (rate_le_rate ladder.rate_zero hi).1 (Nat.zero_le i)

theorem le_back (hr : r ∈ ladder.rates) : r ≤ ladder.back := by
  obtain ⟨i, hi⟩ := exists_rate hr
  exact (rate_le_rate hi ladder.rate_last).1 (Nat.le_sub_one_of_lt (lt_size_of_rate hi))

theorem back_mem (ladder : Ladder) : ladder.back ∈ ladder.rates := rate_mem ladder.rate_last

/-- The search finds the position of a rate on the ladder. -/
theorem rateInd_eq_ok : ladder.rateInd r = .ok i ↔ ladder.rate i = .ok r := by
  have hfound : ∀ {k}, ladder.rate k = .ok r → ladder.rates.idxOf r = k := by
    intro k hk
    obtain ⟨hlt, heq⟩ := List.getElem?_eq_some_iff.1 (rate_eq_ok.1 hk)
    rw [← heq]
    exact List.Nodup.idxOf_getElem (ladder.ascending.imp Nat.ne_of_lt) k hlt
  unfold rateInd
  dsimp only
  constructor
  · intro hok
    split_ifs at hok with hsize
    rw [← Fallible.pure_eq_ok.1 hok, rate_eq_ok, List.getElem?_eq_some_iff]
    have hlt : ladder.rates.idxOf r < ladder.rates.length :=
      Nat.lt_of_le_of_ne List.idxOf_le_length hsize
    exact ⟨hlt, List.getElem_idxOf hlt⟩
  · intro hk
    rw [hfound hk, if_neg (Nat.ne_of_lt (lt_size_of_rate hk))]
    rfl

/-- The rates are positive and ascend, so a ladder has fewer rates than `uint32_t` has values. -/
theorem size_lt (ladder : Ladder) : ladder.size < 2 ^ 32 := by
  have hlt : ∀ i, (hi : i < ladder.rates.length) → i < ladder.rates[i] := by
    intro i
    induction i with
    | zero => exact fun hi => ladder.positive _ (List.getElem_mem hi)
    | succ i ih =>
        intro hi
        have hstep := List.pairwise_iff_getElem.1 ladder.ascending i (i + 1) (by omega) hi
          (Nat.lt_succ_self i)
        have := ih (by omega)
        omega
  have hsize := ladder.size_pos
  unfold size at hsize ⊢
  have hlast := hlt (ladder.rates.length - 1) (by omega)
  have hfits := ladder.fits _ (List.getElem_mem (show ladder.rates.length - 1 < _ by omega))
  omega

end Ladder

end NtnIab.Dash
