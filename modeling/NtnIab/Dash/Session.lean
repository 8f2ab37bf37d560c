import NtnIab.Dash.Controllers

/-!
# A session of the client

The client requests one segment at a time. When the last frame of a segment has arrived, it feeds
the measurements, calls its controller and requests the next segment at once or after a delay.
Requests that were scheduled, and those of a player that runs empty, come at any time; so do the
ticks of the watchdog, which sends a request once more if nothing at all has arrived.
-/

namespace NtnIab.Dash

structure Session (K : Type) where
  client : DashClient K
  controller : Controller K

inductive SessionEvent
  | connectionSucceeded (now : Nat)
  /-- The connection failed, closed with an error or is set up again. -/
  | connectionReset
  | stopApplication
  | requestSegment (now : Nat)
  | segmentRequestWatchdog
  /-- A frame that the player took: its bytes, whether it is the last of its segment, the time
  until it is played, and the frames played so far. -/
  | messageReceived (now size : Nat) (last : Bool) (realPlayTime : Int) (framesPlayed : Nat)
  | forecastDisruption (estimatedTime estimatedDuration : Int) (frames : Nat)
  | calcedDisruption
  deriving Repr, DecidableEq

variable {K : Type}

/-! ## Requests -/

namespace DashClient

def sendSegmentRequest (c : DashClient K) (segmentId bitrate : Nat) : DashClient K :=
  { c with requests := c.requests ++ [(segmentId, bitrate)] }

def requestSegment (c : DashClient K) (now : Nat) : DashClient K :=
  if c.requestPending ∨ c.connected = false ∨ (0 < c.maxSegments ∧ c.maxSegments ≤ c.segmentId)
  then c
  else
    { c.sendSegmentRequest c.segmentId c.bitRate with
      segmentId := (c.segmentId + 1) % 2 ^ 32
      requestPending := true
      pendingSegmentId := c.segmentId
      pendingBitRate := c.bitRate
      pendingRetryUsed := false
      requestTime := now
      segmentBytes := 0
      lastWatchdogBytes := 0
      watchdogStuckTicks := 0 }

def segmentRequestWatchdog (c : DashClient K) : DashClient K :=
  if c.connected = false ∨ c.requestPending = false then c
  else if c.lastWatchdogBytes < c.segmentBytes then
    { c with lastWatchdogBytes := c.segmentBytes, watchdogStuckTicks := 0 }
  else if c.segmentBytes = 0 ∧ c.pendingRetryUsed = false then
    { c.sendSegmentRequest c.pendingSegmentId c.pendingBitRate with
      lastWatchdogBytes := c.segmentBytes
      watchdogStuckTicks := c.watchdogStuckTicks + 1
      pendingRetryUsed := true }
  else if c.watchdogStuckTicks + 1 < 10 then
    { c with
      lastWatchdogBytes := c.segmentBytes
      watchdogStuckTicks := c.watchdogStuckTicks + 1 }
  else
    { c with
      lastWatchdogBytes := c.segmentBytes
      watchdogStuckTicks := c.watchdogStuckTicks + 1
      requestPending := false }

end DashClient

/-- The current rate, the rate of the pending request and every requested rate are on the
ladder. -/
structure OnLadder (ladder : Ladder) (c : DashClient K) : Prop where
  rates : c.rates = ladder
  current : c.bitRate ∈ ladder.rates
  pending : c.requestPending = true → c.pendingBitRate ∈ ladder.rates
  requested : ∀ request ∈ c.requests, request.2 ∈ ladder.rates

namespace OnLadder

variable {ladder : Ladder} {c : DashClient K}

theorem sent (h : OnLadder ladder c) {segmentId bitrate : Nat} (hrate : bitrate ∈ ladder.rates) :
    ∀ request ∈ (c.sendSegmentRequest segmentId bitrate).requests,
      request.2 ∈ ladder.rates := by
  intro request hmem
  rcases List.mem_append.1 hmem with hold | hnew
  · exact h.requested request hold
  · rw [List.mem_singleton.1 hnew]
    exact hrate

theorem requestSegment (h : OnLadder ladder c) (now : Nat) :
    OnLadder ladder (c.requestSegment now) := by
  unfold DashClient.requestSegment
  split_ifs
  · exact h
  · exact ⟨h.rates, h.current, fun _ => h.current, h.sent h.current⟩

theorem segmentRequestWatchdog (h : OnLadder ladder c) :
    OnLadder ladder c.segmentRequestWatchdog := by
  unfold DashClient.segmentRequestWatchdog
  split_ifs with hidle hprogress hretry hwaits
  · exact h
  · exact ⟨h.rates, h.current, h.pending, h.requested⟩
  · have hpending : c.requestPending = true := by
      cases hrequest : c.requestPending with
      | false => exact absurd (.inr hrequest) hidle
      | true => rfl
    exact ⟨h.rates, h.current, h.pending, h.sent (h.pending hpending)⟩
  · exact ⟨h.rates, h.current, h.pending, h.requested⟩
  · exact ⟨h.rates, h.current, fun hfalse => (Bool.false_ne_true hfalse).elim, h.requested⟩

end OnLadder

/-! ## The decision after a segment -/

variable [Field K] [LinearOrder K]

namespace DashClient

/-- An absurd play time is replaced by the last one. -/
def sanitize (c : DashClient K) (realPlayTime : Int) : Int :=
  if seconds 120 < realPlayTime ∨ realPlayTime < seconds (-10) then
    if 0 ≤ c.lastDt then c.lastDt else 0
  else realPlayTime

/-- The measurements that a completed segment feeds. -/
def measure (m : MathFunctions K) (c : DashClient K) (now : Nat) (currDt : Int) : DashClient K :=
  let c := { c with segmentFetchTime := (now : Int) - c.requestTime }
  let c := c.addBitRate m now
    (m.quot ((8 * c.segmentBytes % 2 ^ 32 : Nat) : K) c.getSegmentFetchTime)
  c.logBufferLevel now currDt

/-- The delay of the next request, held back by the hard cap on the buffer. -/
def capDelay (c : DashClient K) (currDt : Int) (delay : K) : K :=
  let capDelay := getSeconds currDt + segmentDuration - c.maxBufferS
  if 0 < c.maxBufferS ∧ delay < capDelay then capDelay else delay

end DashClient

namespace Session

/-- The last frame of a segment: the adaptation decision and the next request. -/
def segmentReceived (m : MathFunctions K) (s : Session K) (now : Nat) (realPlayTime : Int) :
    Except Fault (Session K) := do
  let currDt := s.client.sanitize realPlayTime
  let c := DashClient.measure m
    { s.client with requestPending := false, pendingRetryUsed := false } now currDt
  let (d, controller) ← s.controller.calcNextSegment m c c.bitRate c.bitRate
  let c := { c with bitRate := d.nextRate }
  let c := if c.capDelay currDt d.delay = (0 : K) then c.requestSegment now else c
  pure { client := { c with lastDt := currDt }, controller }

def step (m : MathFunctions K) (s : Session K) : SessionEvent → Except Fault (Session K)
  | .connectionSucceeded now =>
      pure { s with client := { s.client with connected := true }.requestSegment now }
  | .connectionReset =>
      pure { s with
        client := { s.client with
          connected := false
          requestPending := false
          pendingRetryUsed := false } }
  | .stopApplication => pure { s with client := { s.client with connected := false } }
  | .requestSegment now => pure { s with client := s.client.requestSegment now }
  | .segmentRequestWatchdog => pure { s with client := s.client.segmentRequestWatchdog }
  | .messageReceived now size last realPlayTime framesPlayed =>
      let s := { s with
        client := { s.client with
          segmentBytes := (s.client.segmentBytes + size) % 2 ^ 32
          framesPlayed } }
      if last then s.segmentReceived m now realPlayTime else pure s
  | .forecastDisruption estimatedTime estimatedDuration frames =>
      match s.controller with
      | .fdash _ => pure { s with
          controller := .fdash
            (Fdash.forecastDisruption m s.client estimatedTime estimatedDuration frames) }
      | _ => pure s
  | .calcedDisruption =>
      match s.controller with
      | .fdash _ => pure { s with controller := .fdash (s.client.rates.back : K) }
      | _ => pure s

/-- A run of the session; it ends with a fault if one of its events does. -/
def run (m : MathFunctions K) (s : Session K) (events : List SessionEvent) :
    Except Fault (Session K) :=
  events.foldlM (step m) s

/-! ## What a decision finds -/

variable {m : MathFunctions K} {ladder : Ladder} {c : DashClient K}

/-- The level that is logged last is there. -/
theorem logged_measure (m : MathFunctions K) (c : DashClient K) (now : Nat) (currDt : Int) :
    (c.measure m now currDt).bufferState ≠ [] := by
  unfold DashClient.measure DashClient.logBufferLevel
  apply List.ne_nil_of_mem (a := (now, currDt))
  refine List.mem_filter.2 ⟨?_, ?_⟩
  · apply OrderedMap.mem_of_find
    rw [OrderedMap.find_assign, if_pos rfl]
  · exact decide_eq_true (Nat.not_lt.2 (Nat.le_add_right now _))

theorem onLadder_measure (h : OnLadder ladder c) (now : Nat) (currDt : Int) :
    OnLadder ladder (c.measure m now currDt) :=
  ⟨h.rates, h.current, h.pending, h.requested⟩

end Session

end NtnIab.Dash
