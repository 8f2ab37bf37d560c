import Mathlib.Data.Int.Basic
import NtnIab.Dash.Headers

/-!
# The MPEG player

`FrameBuffer` is a queue of received frames bounded in bytes. `MpegPlayer` plays one frame of it
every `MPEG_TIME_BETWEEN_FRAMES` milliseconds, pauses when it runs empty and resumes when a frame
arrives. Simulated time is an integer number of nanoseconds; `Simulator::Now()` is the argument
`now`. All rescheduling of `PlayFrame` goes through the single event `playFrameEvent`, which
holds the time it is due.
-/

namespace NtnIab.Dash

def milliSeconds (n : Int) : Int := n * 1000000

def seconds (n : Int) : Int := n * 1000000000

/-- A packet: its bytes, and the size its serialization (bytes, tags and metadata) takes. -/
structure Packet where
  bytes : List UInt8
  serializedSize : Nat
  deriving Repr, DecidableEq

def Packet.getSize (p : Packet) : Nat := p.bytes.length

/-! ## The frame buffer -/

structure FrameBuffer where
  capacity : Nat
  sizeInBytes : Nat := 0
  queue : List Packet := []
  deriving Repr, DecidableEq

/-- `push` compares in 32 bits, as the counters of the source are `uint32_t`. -/
def FrameBuffer.push (b : FrameBuffer) (frame : Packet) : Bool × FrameBuffer :=
  if (b.sizeInBytes + frame.serializedSize) % 2 ^ 32 ≤ b.capacity then
    (true,
      { b with
        queue := b.queue ++ [frame]
        sizeInBytes := (b.sizeInBytes + frame.serializedSize) % 2 ^ 32 })
  else (false, b)

/-- `pop` on a non-empty queue; the caller has checked `empty`. -/
def FrameBuffer.pop (b : FrameBuffer) : Option (Packet × FrameBuffer) :=
  match b.queue with
  | [] => none
  | frame :: rest =>
      some (frame,
        { b with
          queue := rest
          sizeInBytes := (b.sizeInBytes + (2 ^ 32 - frame.serializedSize % 2 ^ 32)) % 2 ^ 32 })

def FrameBuffer.size (b : FrameBuffer) : Nat := b.queue.length

def FrameBuffer.empty (b : FrameBuffer) : Bool := b.queue.isEmpty

/-- A push either refuses the frame and changes nothing, or appends it. -/
theorem FrameBuffer.push_cases (b : FrameBuffer) (frame : Packet) :
    b.push frame = (false, b) ∨
      ∃ b', b.push frame = (true, b') ∧ b'.queue = b.queue ++ [frame] := by
  unfold push
  split
  · exact .inr ⟨_, rfl, rfl⟩
  · exact .inl rfl

/-- A frame is taken if the sum of the sizes, in 32 bits, is within the capacity. -/
theorem FrameBuffer.push_eq_true {b b' : FrameBuffer} {frame : Packet} :
    b.push frame = (true, b') ↔
      (b.sizeInBytes + frame.serializedSize) % 2 ^ 32 ≤ b.capacity ∧
        b'.queue = b.queue ++ [frame] ∧ b'.capacity = b.capacity ∧
        b'.sizeInBytes = (b.sizeInBytes + frame.serializedSize) % 2 ^ 32 := by
  unfold push
  split_ifs with hfits
  · constructor
    · intro heq
      obtain rfl := (Prod.mk.inj heq).2
      exact ⟨hfits, rfl, rfl, rfl⟩
    · rintro ⟨-, hqueue, hcapacity, hsize⟩
      obtain ⟨capacity, size, queue⟩ := b'
      dsimp only at hqueue hcapacity hsize
      rw [hqueue, hcapacity, hsize]
  · constructor
    · intro heq
      exact absurd (Prod.mk.inj heq).1 Bool.false_ne_true
    · exact fun h => absurd h.1 hfits

theorem FrameBuffer.pop_eq_none {b : FrameBuffer} : b.pop = none ↔ b.queue = [] := by
  unfold pop
  cases h : b.queue <;> simp

theorem FrameBuffer.queue_of_pop {b b' : FrameBuffer} {frame : Packet}
    (hpop : b.pop = some (frame, b')) : b.queue = frame :: b'.queue := by
  unfold pop at hpop
  cases h : b.queue with
  | nil => simp [h] at hpop
  | cons first rest =>
      simp only [h, Option.some.injEq, Prod.mk.injEq] at hpop
      obtain ⟨rfl, rfl⟩ := hpop
      rfl

theorem FrameBuffer.pop_eq_some {b b' : FrameBuffer} {frame : Packet}
    (hpop : b.pop = some (frame, b')) :
    b.queue = frame :: b'.queue ∧ b'.capacity = b.capacity ∧
      b'.sizeInBytes = (b.sizeInBytes + (2 ^ 32 - frame.serializedSize % 2 ^ 32)) % 2 ^ 32 := by
  unfold pop at hpop
  cases hqueue : b.queue with
  | nil => simp [hqueue] at hpop
  | cons first rest =>
      simp only [hqueue, Option.some.injEq, Prod.mk.injEq] at hpop
      obtain ⟨rfl, rfl⟩ := hpop
      exact ⟨rfl, rfl, rfl⟩

/-! ## The player -/

inductive PlayerState
  | paused
  | playing
  | notStarted
  | done
  | initialBuffering
  deriving Repr, DecidableEq

/-- What `PlayFrame` schedules on the client at the current time. -/
inductive ClientCall
  | requestSegment
  | checkBuffer
  deriving Repr, DecidableEq

structure MpegPlayer where
  state : PlayerState := .notStarted
  playFrameEvent : Option Int := none
  interruptionTime : Int := 0
  interruptions : Nat := 0
  startTime : Int := 0
  totalRate : UInt64 := 0
  minRate : UInt32 := 100000000
  framesPlayed : UInt32 := 0
  totalPlaybackTime : Int := 0
  frameBuffer : FrameBuffer
  lastpaused : Int := 0
  deriving Repr, DecidableEq

/-- The player as its constructor leaves it. -/
def MpegPlayer.new (capacity : Nat) : MpegPlayer := { frameBuffer := { capacity } }

def MpegPlayer.getQueueSize (p : MpegPlayer) : Nat := p.frameBuffer.size

def MpegPlayer.getRealPlayTime (p : MpegPlayer) (now playTime : Int) : Int :=
  p.startTime + p.interruptionTime + (if p.state = .paused then now - p.lastpaused else 0) +
    playTime - now

/-- Cancels the pending `PlayFrame`, if any, and schedules it after `delay`. -/
def MpegPlayer.schedulePlayFrame (p : MpegPlayer) (now delay : Int) : MpegPlayer :=
  { p with playFrameEvent := some (now + delay) }

def MpegPlayer.receiveFrame (p : MpegPlayer) (now : Int) (message : Packet) :
    Bool × MpegPlayer :=
  match p.frameBuffer.push message with
  | (false, _) => (false, p)
  | (true, frameBuffer) =>
      let p := { p with frameBuffer }
      match p.state with
      | .paused =>
          (true,
            { p with
              state := .playing
              interruptionTime := p.interruptionTime + (now - p.lastpaused)
                }.schedulePlayFrame now (milliSeconds 0))
      | .notStarted =>
          (true, { p with state := .initialBuffering }.schedulePlayFrame now (seconds 1))
      | _ => (true, p)

/-- The head of `PlayFrame`: leaving the initial buffering. -/
def MpegPlayer.startPlaying (p : MpegPlayer) (now : Int) : MpegPlayer :=
  if p.state = .initialBuffering then { p with startTime := now, state := .playing } else p

/-- The underrun branch of `PlayFrame`. -/
def MpegPlayer.underrun (p : MpegPlayer) (now : Int) : MpegPlayer :=
  (if p.state ≠ .paused then
      { p with state := .paused, lastpaused := now, interruptions := p.interruptions + 1 }
    else p).schedulePlayFrame now (milliSeconds 100)

/-- The counters `PlayFrame` updates for a frame it plays. -/
def MpegPlayer.account (p : MpegPlayer) (http : HTTPHeader) : MpegPlayer :=
  { p with
    totalRate := p.totalRate + http.resolution.toUInt64
    minRate :=
      if http.segmentId > 0 then
        if http.resolution < p.minRate then http.resolution else p.minRate
      else p.minRate
    framesPlayed := p.framesPlayed + 1
    totalPlaybackTime := p.totalPlaybackTime + milliSeconds MPEG_TIME_BETWEEN_FRAMES }

/-- The two headers at the front of a frame, when both can be removed. -/
def removeHeaders (bytes : List UInt8) : Option (HTTPHeader × MPEGHeader) :=
  let (removedHttp, http) := HTTPHeader.deserialize { ts := 0 } bytes
  let (removedMpeg, mpeg) :=
    MPEGHeader.deserialize { ts := 0, size := 0 } (bytes.drop removedHttp)
  if removedHttp ≠ HTTPHeader.serializedSize ∨ removedMpeg ≠ MPEGHeader.serializedSize then none
  else some (http, mpeg)

/-- `PlayFrame`, with the client's `m_RequestPending` and what it schedules on the client. -/
def MpegPlayer.playFrame (p : MpegPlayer) (requestPending : Bool) (now : Int) :
    MpegPlayer × List ClientCall :=
  if p.state = .done then (p, [])
  else
    let p := p.startPlaying now
    match p.frameBuffer.pop with
    | none => (p.underrun now, if requestPending then [] else [.requestSegment])
    | some (message, frameBuffer) =>
        let p := { p with frameBuffer }
        -- an undersized frame and a corrupted one are dropped alike
        if message.getSize < HTTPHeader.serializedSize + MPEGHeader.serializedSize then
          (p.schedulePlayFrame now (milliSeconds 100), [])
        else
          match removeHeaders message.bytes with
          | none => (p.schedulePlayFrame now (milliSeconds 100), [])
          | some (http, _) =>
              ((p.account http).schedulePlayFrame now (milliSeconds MPEG_TIME_BETWEEN_FRAMES),
                [.checkBuffer])

/-- The simulator runs `PlayFrame` when the scheduled event is due; the event is then spent. -/
def MpegPlayer.firePlayFrame (p : MpegPlayer) (requestPending : Bool) (now : Int) :
    MpegPlayer × List ClientCall :=
  match p.playFrameEvent with
  | some due =>
      if due ≤ now then { p with playFrameEvent := none }.playFrame requestPending now else (p, [])
  | none => (p, [])

/-- What `DashClient::StopApplication` does to the player. -/
def MpegPlayer.stop (p : MpegPlayer) : MpegPlayer := { p with state := .done }

def MpegPlayer.finalizeInterruptionTime (p : MpegPlayer) (now : Int) : MpegPlayer :=
  if 0 < p.interruptions ∧ (p.state = .paused ∨ p.state = .done) then
    { p with interruptionTime := p.interruptionTime + (now - p.lastpaused) }
  else p

/-! ## What each operation can do -/

@[simp] theorem MpegPlayer.schedulePlayFrame_state (p : MpegPlayer) (now delay : Int) :
    (p.schedulePlayFrame now delay).state = p.state := rfl

/-- A received frame is refused without effect, or queued: it resumes a paused player, starts the
initial buffering of one that has not started, and leaves any other in its state. -/
theorem MpegPlayer.receiveFrame_cases (p : MpegPlayer) (now : Int) (message : Packet) :
    p.receiveFrame now message = (false, p) ∨
      ∃ p', p.receiveFrame now message = (true, p') ∧
        p'.frameBuffer.queue = p.frameBuffer.queue ++ [message] ∧
        p'.interruptions = p.interruptions ∧ p'.lastpaused = p.lastpaused ∧
        ((p.state = .paused ∧ p'.state = .playing ∧
            p'.interruptionTime = p.interruptionTime + (now - p.lastpaused)) ∨
          (p.state = .notStarted ∧ p'.state = .initialBuffering ∧
            p'.interruptionTime = p.interruptionTime) ∨
          (p.state ≠ .paused ∧ p.state ≠ .notStarted ∧ p'.state = p.state ∧
            p'.playFrameEvent = p.playFrameEvent ∧
            p'.interruptionTime = p.interruptionTime)) := by
  unfold receiveFrame
  rcases p.frameBuffer.push_cases message with hpush | ⟨b', hpush, hqueue⟩
  · exact .inl (by rw [hpush])
  · refine .inr ?_
    rw [hpush]
    cases hstate : p.state with
    | paused => exact ⟨_, rfl, hqueue, rfl, rfl, .inl ⟨rfl, rfl, rfl⟩⟩
    | notStarted => exact ⟨_, rfl, hqueue, rfl, rfl, .inr (.inl ⟨rfl, rfl, rfl⟩)⟩
    | playing =>
        exact ⟨_, rfl, hqueue, rfl, rfl, .inr (.inr ⟨nofun, nofun, rfl, rfl, rfl⟩)⟩
    | done =>
        exact ⟨_, rfl, hqueue, rfl, rfl, .inr (.inr ⟨nofun, nofun, rfl, rfl, rfl⟩)⟩
    | initialBuffering =>
        exact ⟨_, rfl, hqueue, rfl, rfl, .inr (.inr ⟨nofun, nofun, rfl, rfl, rfl⟩)⟩

/-- `PlayFrame` returns at once when the player is done. Otherwise it leaves the initial
buffering, and either stalls on an empty queue, counting the stall and its start unless the player
is stalled already, or takes one frame without touching the interruption fields. -/
theorem MpegPlayer.playFrame_cases (p : MpegPlayer) (requestPending : Bool) (now : Int) :
    (p.state = .done ∧ (p.playFrame requestPending now).1 = p) ∨
      (p.state ≠ .done ∧ (p.playFrame requestPending now).1.interruptionTime = p.interruptionTime ∧
        ((p.frameBuffer.queue = [] ∧ (p.playFrame requestPending now).1.state = .paused ∧
            ((p.state = .paused ∧
                (p.playFrame requestPending now).1.interruptions = p.interruptions ∧
                (p.playFrame requestPending now).1.lastpaused = p.lastpaused) ∨
              (p.state ≠ .paused ∧
                (p.playFrame requestPending now).1.interruptions = p.interruptions + 1 ∧
                (p.playFrame requestPending now).1.lastpaused = now))) ∨
          (p.frameBuffer.queue ≠ [] ∧
            (p.playFrame requestPending now).1.state = (p.startPlaying now).state ∧
            (p.playFrame requestPending now).1.interruptions = p.interruptions ∧
            (p.playFrame requestPending now).1.lastpaused = p.lastpaused))) := by
  by_cases hdone : p.state = .done
  · exact .inl ⟨hdone, by rw [playFrame, if_pos hdone]⟩
  · refine .inr ⟨hdone, ?_⟩
    have hbuffer : (p.startPlaying now).frameBuffer = p.frameBuffer := by
      unfold startPlaying; split <;> rfl
    have htime : (p.startPlaying now).interruptionTime = p.interruptionTime := by
      unfold startPlaying; split <;> rfl
    have hcount : (p.startPlaying now).interruptions = p.interruptions := by
      unfold startPlaying; split <;> rfl
    have hlast : (p.startPlaying now).lastpaused = p.lastpaused := by
      unfold startPlaying; split <;> rfl
    have hpaused : (p.startPlaying now).state = .paused ↔ p.state = .paused := by
      unfold startPlaying; split <;> simp_all
    simp only [playFrame, if_neg hdone, hbuffer]
    cases hpop : p.frameBuffer.pop with
    | none =>
        have hqueue := FrameBuffer.pop_eq_none.1 hpop
        by_cases hstate : p.state = .paused
        · have hstate' := hpaused.2 hstate
          simp [underrun, hstate', htime, hcount, hlast, hqueue, hstate, schedulePlayFrame]
        · have hstate' := mt hpaused.1 hstate
          simp [underrun, hstate', htime, hcount, hqueue, hstate, schedulePlayFrame]
    | some popped =>
        obtain ⟨message, rest⟩ := popped
        have hqueue : p.frameBuffer.queue ≠ [] := by
          rw [FrameBuffer.queue_of_pop hpop]; nofun
        dsimp only
        split
        · simp [schedulePlayFrame, hqueue, htime, hcount, hlast]
        · split <;> simp [schedulePlayFrame, account, hqueue, htime, hcount, hlast]

end NtnIab.Dash
