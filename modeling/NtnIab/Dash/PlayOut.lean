import NtnIab.Dash.DashServer
import NtnIab.Dash.Interruption

/-!
# The play-out chain

`PlayFrame` is scheduled from several branches, each time after the event that `m_playFrameEvent`
refers to is cancelled. Here the events that the simulator holds are a list, which could have any
number of them, beside the player.

The sizes in the frame buffer are counted in 32 bits, and so is the comparison of `push`. A frame
that takes the sum beyond that is taken as if the buffer were nearly empty.

## Strategy

`Chained` says what the simulator holds, and every operation keeps it, since it ends with a cancel
and a call of `Schedule` or leaves the events alone (`receiveFrame_cases`, `playFrame_cases`).
`Flows` says where the frames are and what was counted for those that left. `Counted` is what the
size of the buffer is for, and a received frame breaks it if and only if the sum of the sizes comes
round (`Counted.push_iff`). `run_refines` connects the player to the one that holds a single event.
-/

namespace NtnIab.Dash

/-! ## The player and the simulator -/

/-- A `PlayFrame` event that is pending. -/
structure PlayFrameEvent where
  uid : Nat
  due : Int
  deriving Repr, DecidableEq

/-- The player with its pending events. `playFrameUid` is the event that `m_playFrameEvent` refers
to, pending or not. `accepted` are the frames that `ReceiveFrame` took, and `left` those that left
the buffer. -/
structure PlayOut where
  now : Int := 0
  player : MpegPlayer
  playFrameUid : Option Nat := none
  nextUid : Nat := 0
  agenda : List PlayFrameEvent := []
  accepted : List Packet := []
  left : List Packet := []
  deriving Repr, DecidableEq

namespace PlayOut

def init (capacity : Nat) : PlayOut := { player := .new capacity }

/-- `m_playFrameEvent.Cancel ()` -/
def cancelPlayFrame (s : PlayOut) : PlayOut :=
  { s with
    player := { s.player with playFrameEvent := none }
    agenda := s.agenda.filter fun event => s.playFrameUid ≠ some event.uid }

/-- `m_playFrameEvent = Simulator::Schedule (delay, &MpegPlayer::PlayFrame, this)` -/
def schedulePlayFrame (delay : Int) (s : PlayOut) : PlayOut :=
  { s with
    player := s.player.schedulePlayFrame s.now delay
    playFrameUid := some s.nextUid
    nextUid := s.nextUid + 1
    agenda := s.agenda ++ [{ uid := s.nextUid, due := s.now + delay }] }

def receiveFrame (message : Packet) (s : PlayOut) : Bool × PlayOut :=
  match s.player.frameBuffer.push message with
  | (false, _) => (false, s)
  | (true, frameBuffer) =>
      let s := { s with
        player := { s.player with frameBuffer }, accepted := s.accepted ++ [message] }
      match s.player.state with
      | .paused =>
          let interruptionTime := s.player.interruptionTime + (s.now - s.player.lastpaused)
          let s := { s with player := { s.player with state := .playing, interruptionTime } }
          (true, s.cancelPlayFrame.schedulePlayFrame (milliSeconds 0))
      | .notStarted =>
          let s := { s with player := { s.player with state := .initialBuffering } }
          (true, s.cancelPlayFrame.schedulePlayFrame (seconds 1))
      | _ => (true, s)

def playFrame (requestPending : Bool) (s : PlayOut) : PlayOut × List ClientCall :=
  if s.player.state = .done then (s, [])
  else
    let s := { s with player := s.player.startPlaying s.now }
    match s.player.frameBuffer.pop with
    | none =>
        let s :=
          if s.player.state ≠ .paused then
            let interruptions := s.player.interruptions + 1
            { s with
              player := { s.player with state := .paused, lastpaused := s.now, interruptions } }
          else s
        (s.cancelPlayFrame.schedulePlayFrame (milliSeconds 100),
          if requestPending then [] else [.requestSegment])
    | some (message, frameBuffer) =>
        let s := { s with
          player := { s.player with frameBuffer }, left := s.left ++ [message] }
        if message.getSize < HTTPHeader.serializedSize + MPEGHeader.serializedSize then
          (s.cancelPlayFrame.schedulePlayFrame (milliSeconds 100), [])
        else
          match removeHeaders message.bytes with
          | none => (s.cancelPlayFrame.schedulePlayFrame (milliSeconds 100), [])
          | some (http, _) =>
              let s := { s with player := s.player.account http }
              (s.cancelPlayFrame.schedulePlayFrame (milliSeconds MPEG_TIME_BETWEEN_FRAMES),
                [.checkBuffer])

/-- The event is pending and due. -/
def Due (uid : Nat) (s : PlayOut) : Prop := ∃ event ∈ s.agenda, event.uid = uid ∧ event.due ≤ s.now

instance (uid : Nat) (s : PlayOut) : Decidable (s.Due uid) :=
  inferInstanceAs (Decidable (∃ event ∈ s.agenda, _))

/-- The simulator takes a due event out of its list and calls `PlayFrame`. -/
def firePlayFrame (uid : Nat) (requestPending : Bool) (s : PlayOut) : PlayOut :=
  if s.Due uid then
    let playFrameEvent := if s.playFrameUid = some uid then none else s.player.playFrameEvent
    (playFrame requestPending { s with
      player := { s.player with playFrameEvent }
      agenda := s.agenda.filter fun event => event.uid ≠ uid }).1
  else s

end PlayOut

/-- Time passes, a frame is received, an event is due, the client is stopped, or the statistics are
asked for. -/
inductive PlayOutEvent
  | advance (duration : Nat)
  | receiveFrame (message : Packet)
  | playFrame (uid : Nat) (requestPending : Bool)
  | stopApplication
  | getStats
  deriving Repr, DecidableEq

/-- Asking for the statistics changes the time of the interruptions and nothing else. -/
theorem MpegPlayer.finalizeInterruptionTime_frame (p : MpegPlayer) (now : Int) :
    let p' := p.finalizeInterruptionTime now
    p'.state = p.state ∧ p'.playFrameEvent = p.playFrameEvent ∧ p'.frameBuffer = p.frameBuffer ∧
      p'.totalPlaybackTime = p.totalPlaybackTime ∧ p'.framesPlayed = p.framesPlayed := by
  unfold finalizeInterruptionTime
  dsimp only
  split <;> exact ⟨rfl, rfl, rfl, rfl, rfl⟩

namespace PlayOut

def step (s : PlayOut) : PlayOutEvent → PlayOut
  | .advance duration => { s with now := s.now + duration }
  | .receiveFrame message => (s.receiveFrame message).2
  | .playFrame uid requestPending => s.firePlayFrame uid requestPending
  | .stopApplication => { s with player := s.player.stop }
  | .getStats => { s with player := s.player.finalizeInterruptionTime s.now }

/-! ## The player of this model -/

theorem player_receiveFrame (s : PlayOut) (message : Packet) :
    (s.receiveFrame message).1 = (s.player.receiveFrame s.now message).1 ∧
      (s.receiveFrame message).2.player = (s.player.receiveFrame s.now message).2 := by
  unfold receiveFrame MpegPlayer.receiveFrame
  rcases s.player.frameBuffer.push_cases message with hpush | ⟨frameBuffer, hpush, -⟩
  · rw [hpush]
    exact ⟨rfl, rfl⟩
  · rw [hpush]
    dsimp only
    cases s.player.state <;> exact ⟨rfl, rfl⟩

theorem player_playFrame (s : PlayOut) (requestPending : Bool) :
    (s.playFrame requestPending).1.player = (s.player.playFrame requestPending s.now).1 ∧
      (s.playFrame requestPending).2 = (s.player.playFrame requestPending s.now).2 := by
  unfold playFrame MpegPlayer.playFrame
  by_cases hdone : s.player.state = .done
  · rw [if_pos hdone, if_pos hdone]
    exact ⟨rfl, rfl⟩
  rw [if_neg hdone, if_neg hdone]
  dsimp only
  cases (s.player.startPlaying s.now).frameBuffer.pop with
  | none =>
      refine ⟨?_, rfl⟩
      unfold MpegPlayer.underrun
      by_cases hpaused : (s.player.startPlaying s.now).state ≠ .paused
      · simp only [if_pos hpaused]
        rfl
      · simp only [if_neg hpaused]
        rfl
  | some popped =>
      dsimp only
      split_ifs
      · exact ⟨rfl, rfl⟩
      · cases removeHeaders popped.1.bytes <;> exact ⟨rfl, rfl⟩

/-! ## What each operation can do -/

/-- The pending events and the clock are the same. -/
structure SameChain (s t : PlayOut) : Prop where
  agenda : t.agenda = s.agenda
  playFrameUid : t.playFrameUid = s.playFrameUid
  now : t.now = s.now

/-- The frame has its headers, so that it is played. -/
def playable (message : Packet) : Bool :=
  HTTPHeader.serializedSize + MPEGHeader.serializedSize ≤ message.getSize &&
    (removeHeaders message.bytes).isSome

/-- What was counted for the frames that were played. -/
def AddsPlayed (s t : PlayOut) (n : Nat) : Prop :=
  t.player.totalPlaybackTime =
      s.player.totalPlaybackTime + n * milliSeconds MPEG_TIME_BETWEEN_FRAMES ∧
    t.player.framesPlayed = s.player.framesPlayed + UInt32.ofNat n

theorem AddsPlayed.zero {s t : PlayOut}
    (htime : t.player.totalPlaybackTime = s.player.totalPlaybackTime)
    (hframes : t.player.framesPlayed = s.player.framesPlayed) : AddsPlayed s t 0 := by
  refine ⟨?_, ?_⟩
  · rw [htime]
    simp
  · rw [hframes]
    simp

/-- A received frame is refused without effect, or queued. The player may schedule `PlayFrame`, and
does if it has not started. -/
theorem receiveFrame_cases (s : PlayOut) (message : Packet) :
    let s' := (s.receiveFrame message).2
    (s' = s ∧ (s.player.frameBuffer.push message).1 = false) ∨
      ∃ frameBuffer t, s.player.frameBuffer.push message = (true, frameBuffer) ∧ SameChain s t ∧
        t.player.frameBuffer = frameBuffer ∧ t.accepted = s.accepted ++ [message] ∧
        t.left = s.left ∧ AddsPlayed s t 0 ∧
        ((s' = t ∧ t.player.state = s.player.state ∧
            t.player.playFrameEvent = s.player.playFrameEvent ∧ s.player.state ≠ .notStarted) ∨
          ∃ delay, s' = t.cancelPlayFrame.schedulePlayFrame delay) := by
  unfold receiveFrame
  rcases s.player.frameBuffer.push_cases message with hpush | ⟨frameBuffer, hpush, -⟩
  · rw [hpush]
    exact Or.inl ⟨rfl, rfl⟩
  · rw [hpush]
    dsimp only
    refine Or.inr ⟨frameBuffer, ?_⟩
    cases hstate : s.player.state with
    | paused | notStarted =>
        refine ⟨_, rfl, ?_, ?_, ?_, ?_, ?_, Or.inr ⟨_, rfl⟩⟩
        exacts [⟨rfl, rfl, rfl⟩, rfl, rfl, rfl, .zero rfl rfl]
    | playing | done | initialBuffering =>
        refine ⟨_, rfl, ?_, ?_, ?_, ?_, ?_, Or.inl ⟨rfl, rfl, rfl, nofun⟩⟩
        exacts [⟨rfl, rfl, rfl⟩, rfl, rfl, rfl, .zero rfl rfl]

/-- `PlayFrame` does nothing when the player is done, and schedules itself in every other branch. It
takes the first frame out of the buffer if there is one, and counts it if it is played. -/
theorem playFrame_cases (s : PlayOut) (requestPending : Bool) :
    let s' := (s.playFrame requestPending).1
    (s' = s ∧ s.player.state = .done) ∨
      ∃ t delay, s' = t.cancelPlayFrame.schedulePlayFrame delay ∧ SameChain s t ∧
        t.accepted = s.accepted ∧
        ((t.player.frameBuffer = s.player.frameBuffer ∧ t.left = s.left ∧ AddsPlayed s t 0) ∨
          ∃ message frameBuffer, s.player.frameBuffer.pop = some (message, frameBuffer) ∧
            t.player.frameBuffer = frameBuffer ∧ t.left = s.left ++ [message] ∧
            AddsPlayed s t (if playable message then 1 else 0)) := by
  unfold playFrame
  by_cases hdone : s.player.state = .done
  · rw [if_pos hdone]
    exact Or.inl ⟨rfl, hdone⟩
  rw [if_neg hdone]
  obtain ⟨hbuffer, htime, hframes⟩ : (s.player.startPlaying s.now).frameBuffer =
      s.player.frameBuffer ∧
      (s.player.startPlaying s.now).totalPlaybackTime = s.player.totalPlaybackTime ∧
      (s.player.startPlaying s.now).framesPlayed = s.player.framesPlayed := by
    unfold MpegPlayer.startPlaying
    split <;> exact ⟨rfl, rfl, rfl⟩
  dsimp only
  rw [hbuffer]
  refine Or.inr ?_
  cases hpop : s.player.frameBuffer.pop with
  | none =>
      dsimp only
      split_ifs
      · exact ⟨_, _, rfl, ⟨rfl, rfl, rfl⟩, rfl, Or.inl ⟨rfl, rfl, .zero htime hframes⟩⟩
      · exact ⟨_, _, rfl, ⟨rfl, rfl, rfl⟩, rfl, Or.inl ⟨hbuffer, rfl, .zero htime hframes⟩⟩
  | some popped =>
      obtain ⟨message, frameBuffer⟩ := popped
      dsimp only
      by_cases hshort : message.getSize < HTTPHeader.serializedSize + MPEGHeader.serializedSize
      · have hnot : playable message = false := by
          unfold playable
          rw [decide_eq_false (Nat.not_le.2 hshort), Bool.false_and]
        rw [if_pos hshort]
        refine ⟨_, _, rfl, ⟨rfl, rfl, rfl⟩, rfl, Or.inr ⟨message, frameBuffer, rfl, rfl, rfl, ?_⟩⟩
        rw [hnot]
        exact .zero htime hframes
      rw [if_neg hshort]
      have hplayable : playable message = (removeHeaders message.bytes).isSome := by
        unfold playable
        rw [decide_eq_true (Nat.not_lt.1 hshort), Bool.true_and]
      cases hheaders : removeHeaders message.bytes with
      | none =>
          rw [hheaders] at hplayable
          refine ⟨_, _, rfl, ⟨rfl, rfl, rfl⟩, rfl,
            Or.inr ⟨message, frameBuffer, rfl, rfl, rfl, ?_⟩⟩
          rw [hplayable]
          exact .zero htime hframes
      | some headers =>
          rw [hheaders] at hplayable
          refine ⟨_, _, rfl, ⟨rfl, rfl, rfl⟩, rfl,
            Or.inr ⟨message, frameBuffer, rfl, rfl, rfl, ?_, ?_⟩⟩
          · rw [hplayable]
            show (s.player.startPlaying s.now).totalPlaybackTime + _ = _
            rw [htime]
            simp
          · rw [hplayable]
            show (s.player.startPlaying s.now).framesPlayed + 1 = _
            rw [hframes]
            rfl

/-! ## The pending events -/

/-- At most one event is pending, and `m_playFrameEvent` refers to it; none only before the start
and after the stop. -/
structure Chained (s : PlayOut) : Prop where
  one : s.agenda = [] ∨ ∃ event, s.agenda = [event] ∧ s.playFrameUid = some event.uid
  running : s.agenda = [] → s.player.state = .notStarted ∨ s.player.state = .done
  due : s.agenda.map (·.due) = s.player.playFrameEvent.toList

theorem chained_init (capacity : Nat) : Chained (init capacity) where
  one := Or.inl rfl
  running _ := Or.inl rfl
  due := rfl

/-- After a cancel and a call of `Schedule` exactly one event is pending. -/
theorem chained_reschedule {t : PlayOut}
    (hone : t.agenda = [] ∨ ∃ event, t.agenda = [event] ∧ t.playFrameUid = some event.uid)
    (delay : Int) : Chained (t.cancelPlayFrame.schedulePlayFrame delay) := by
  have hcancelled : t.cancelPlayFrame.agenda = [] := by
    unfold cancelPlayFrame
    rcases hone with hnone | ⟨event, hevent, huid⟩
    · dsimp only
      rw [hnone]
      rfl
    · simp [hevent, huid]
  have hagenda : (t.cancelPlayFrame.schedulePlayFrame delay).agenda =
      [{ uid := t.nextUid, due := t.now + delay }] := by
    show t.cancelPlayFrame.agenda ++ _ = _
    rw [hcancelled]
    rfl
  refine ⟨Or.inr ⟨_, hagenda, rfl⟩, fun hnone => ?_, ?_⟩
  · rw [hagenda] at hnone
    exact absurd hnone (List.cons_ne_nil _ _)
  · rw [hagenda]
    rfl

theorem Chained.receiveFrame {s : PlayOut} (hs : Chained s) (message : Packet) :
    Chained (s.receiveFrame message).2 := by
  rcases s.receiveFrame_cases message with ⟨hsame, -⟩ |
    ⟨frameBuffer, t, -, hchain, -, -, -, -, ⟨ht, hstate, hevent, -⟩ | ⟨delay, ht⟩⟩
  · rw [hsame]
    exact hs
  · rw [ht]
    refine ⟨?_, ?_, ?_⟩
    · rw [hchain.agenda, hchain.playFrameUid]
      exact hs.one
    · rw [hchain.agenda, hstate]
      exact hs.running
    · rw [hchain.agenda, hevent]
      exact hs.due
  · rw [ht]
    refine chained_reschedule ?_ delay
    rw [hchain.agenda, hchain.playFrameUid]
    exact hs.one

/-- The call of `PlayFrame` comes when no event is pending any more. -/
theorem chained_playFrame {s : PlayOut} (hnone : s.agenda = [])
    (hevent : s.player.playFrameEvent = none) (requestPending : Bool) :
    Chained (s.playFrame requestPending).1 := by
  rcases s.playFrame_cases requestPending with ⟨hsame, hdone⟩ | ⟨t, delay, ht, hchain, -⟩
  · rw [hsame]
    refine ⟨Or.inl hnone, fun _ => Or.inr hdone, ?_⟩
    rw [hnone, hevent]
    rfl
  · rw [ht]
    exact chained_reschedule (Or.inl (hchain.agenda.trans hnone)) delay

theorem Chained.step {s : PlayOut} (hs : Chained s) (event : PlayOutEvent) :
    Chained (s.step event) := by
  cases event with
  | advance duration => exact ⟨hs.one, hs.running, hs.due⟩
  | receiveFrame message => exact hs.receiveFrame message
  | playFrame uid requestPending =>
      show Chained (s.firePlayFrame uid requestPending)
      unfold firePlayFrame
      by_cases hdue : s.Due uid
      · rw [if_pos hdue]
        obtain ⟨fired, hfired, huid, -⟩ := hdue
        rcases hs.one with hnone | ⟨pending, hpending, hrefers⟩
        · rw [hnone] at hfired
          exact (List.not_mem_nil hfired).elim
        · rw [hpending, List.mem_singleton] at hfired
          subst hfired
          apply chained_playFrame
          · simp [hpending, huid]
          · rw [hrefers, huid]
            exact if_pos rfl
      · rw [if_neg hdue]
        exact hs
  | stopApplication => exact ⟨hs.one, fun _ => Or.inr rfl, hs.due⟩
  | getStats =>
      obtain ⟨hstate, hevent, -⟩ := s.player.finalizeInterruptionTime_frame s.now
      refine ⟨hs.one, ?_, ?_⟩
      · intro hnone
        unfold PlayOut.step
        rw [hstate]
        exact hs.running hnone
      · unfold PlayOut.step
        rw [hevent]
        exact hs.due

/-! ## The player with one event -/

/-- The event of the player with a single `PlayFrame` event that the event stands for. -/
def playbackEvent (s : PlayOut) : PlayOutEvent → PlaybackEvent
  | .advance duration => .advance duration
  | .receiveFrame message => .receiveFrame message
  | .playFrame uid requestPending => if s.Due uid then .playFrame requestPending else .advance 0
  | .stopApplication => .stopApplication
  | .getStats => .getStats

theorem now_playFrame (s : PlayOut) (requestPending : Bool) :
    (s.playFrame requestPending).1.now = s.now := by
  rcases s.playFrame_cases requestPending with ⟨hsame, -⟩ | ⟨t, delay, hscheduled, hchain, -⟩
  · rw [hsame]
  · rw [hscheduled]
    exact hchain.now

theorem now_receiveFrame (s : PlayOut) (message : Packet) :
    (s.receiveFrame message).2.now = s.now := by
  rcases s.receiveFrame_cases message with ⟨hsame, -⟩ |
    ⟨frameBuffer, t, -, hchain, -, -, -, -, ⟨hsame, -⟩ | ⟨delay, hscheduled⟩⟩
  · rw [hsame]
  · rw [hsame]
    exact hchain.now
  · rw [hscheduled]
    exact hchain.now

/-- What the player does does not depend on the simulator: while `PlayFrame` is pending at most
once, it is the player that holds the due time of its event. -/
theorem Chained.apply_playbackEvent {s : PlayOut} (hs : Chained s) (event : PlayOutEvent)
    {p : Playback} (hnow : p.now = s.now) (hplayer : p.player = s.player) :
    p.apply (s.playbackEvent event) = ((s.step event).now, (s.step event).player) := by
  cases event with
  | advance duration =>
      unfold playbackEvent Playback.apply PlayOut.step
      rw [hnow, hplayer]
  | receiveFrame message =>
      unfold playbackEvent Playback.apply PlayOut.step
      dsimp only
      rw [hnow, hplayer, now_receiveFrame, (player_receiveFrame s message).2]
  | stopApplication =>
      unfold playbackEvent Playback.apply PlayOut.step
      rw [hnow, hplayer]
  | getStats =>
      unfold playbackEvent Playback.apply PlayOut.step
      rw [hnow, hplayer]
  | playFrame uid requestPending =>
      unfold playbackEvent PlayOut.step firePlayFrame
      by_cases hdue : s.Due uid
      · simp only [if_pos hdue]
        obtain ⟨fired, hfired, huid, hpast⟩ := hdue
        rcases hs.one with hnone | ⟨pending, hpending, hrefers⟩
        · rw [hnone] at hfired
          exact (List.not_mem_nil hfired).elim
        · rw [hpending, List.mem_singleton] at hfired
          subst hfired
          have hevent : s.player.playFrameEvent = some fired.due := by
            have hlist := hs.due
            rw [hpending] at hlist
            exact Option.toList_eq_singleton_iff.1 hlist.symm
          rw [now_playFrame, (player_playFrame _ _).1]
          unfold Playback.apply MpegPlayer.firePlayFrame
          rw [hnow, hplayer, hevent, hrefers, huid]
          dsimp only
          rw [if_pos hpast, if_pos rfl]
      · simp only [if_neg hdue]
        unfold Playback.apply
        rw [hnow, hplayer]
        simp

/-- Every run has the clock and the player of a run of the player with a single event. -/
theorem run_refines (capacity : Nat) (events : List PlayOutEvent) :
    ∃ events', let p := Run.run Playback.step (Playback.init capacity) events'
      let s := Run.run step (init capacity) events
      p.now = s.now ∧ p.player = s.player := by
  suffices hall : ∀ (s : PlayOut) (p : Playback), Chained s → p.now = s.now ∧ p.player = s.player →
      ∃ events', (Run.run Playback.step p events').now = (Run.run step s events).now ∧
        (Run.run Playback.step p events').player = (Run.run step s events).player from
    hall _ _ (chained_init capacity) ⟨rfl, rfl⟩
  induction events with
  | nil => exact fun s p _ hsame => ⟨[], hsame⟩
  | cons event rest ih =>
      intro s p hs hsame
      have happly := hs.apply_playbackEvent event hsame.1 hsame.2
      obtain ⟨events', hrun⟩ := ih (s.step event) (p.step (s.playbackEvent event))
        (hs.step event) ⟨congrArg Prod.fst happly, congrArg Prod.snd happly⟩
      exact ⟨s.playbackEvent event :: events', hrun⟩

/-! ## The frames -/

/-- The frames left the buffer in the order in which they were accepted, and those that were played
were counted. -/
structure Flows (s : PlayOut) : Prop where
  ordered : s.accepted = s.left ++ s.player.frameBuffer.queue
  time : s.player.totalPlaybackTime =
    (s.left.countP playable : Int) * milliSeconds MPEG_TIME_BETWEEN_FRAMES
  frames : s.player.framesPlayed = UInt32.ofNat (s.left.countP playable)

theorem flows_init (capacity : Nat) : Flows (init capacity) where
  ordered := rfl
  time := (Int.zero_mul _).symm
  frames := by simp [init, MpegPlayer.new]

theorem Flows.reschedule {t : PlayOut} (ht : Flows t) (delay : Int) :
    Flows (t.cancelPlayFrame.schedulePlayFrame delay) := ⟨ht.ordered, ht.time, ht.frames⟩

theorem Flows.receiveFrame {s : PlayOut} (hs : Flows s) (message : Packet) :
    Flows (s.receiveFrame message).2 := by
  rcases s.receiveFrame_cases message with ⟨hsame, -⟩ |
    ⟨frameBuffer, t, hpush, -, hbuffer, haccepted, hleft, ⟨htime, hframes⟩, hrest⟩
  · rw [hsame]
    exact hs
  have ht : Flows t := by
    refine ⟨?_, ?_, ?_⟩
    · rw [haccepted, hleft, hbuffer, (FrameBuffer.push_eq_true.1 hpush).2.1, hs.ordered,
        List.append_assoc]
    · rw [htime, hleft, hs.time]
      simp
    · rw [hframes, hleft, hs.frames]
      simp
  rcases hrest with ⟨hsame, -⟩ | ⟨delay, hscheduled⟩
  · rw [hsame]
    exact ht
  · rw [hscheduled]
    exact ht.reschedule delay

theorem Flows.playFrame {s : PlayOut} (hs : Flows s) (requestPending : Bool) :
    Flows (s.playFrame requestPending).1 := by
  rcases s.playFrame_cases requestPending with ⟨hsame, -⟩ |
    ⟨t, delay, hscheduled, -, haccepted, hrest⟩
  · rw [hsame]
    exact hs
  rw [hscheduled]
  apply Flows.reschedule
  rcases hrest with ⟨hbuffer, hleft, htime, hframes⟩ |
    ⟨message, frameBuffer, hpop, hbuffer, hleft, htime, hframes⟩
  · refine ⟨?_, ?_, ?_⟩
    · rw [haccepted, hleft, hbuffer, hs.ordered]
    · rw [htime, hleft, hs.time]
      simp
    · rw [hframes, hleft, hs.frames]
      simp
  · have hcount : (s.left ++ [message]).countP playable =
        s.left.countP playable + if playable message then 1 else 0 := by
      rw [List.countP_append, List.countP_singleton]
    refine ⟨?_, ?_, ?_⟩
    · rw [haccepted, hleft, hbuffer, hs.ordered, FrameBuffer.queue_of_pop hpop,
        List.append_assoc]
      rfl
    · rw [htime, hleft, hs.time, hcount, Nat.cast_add, Int.add_mul]
    · rw [hframes, hleft, hs.frames, hcount, UInt32.ofNat_add]

theorem Flows.step {s : PlayOut} (hs : Flows s) (event : PlayOutEvent) :
    Flows (s.step event) := by
  cases event with
  | advance duration => exact ⟨hs.ordered, hs.time, hs.frames⟩
  | receiveFrame message => exact hs.receiveFrame message
  | playFrame uid requestPending =>
      show Flows (s.firePlayFrame uid requestPending)
      unfold firePlayFrame
      split_ifs
      · apply Flows.playFrame
        exact ⟨hs.ordered, hs.time, hs.frames⟩
      · apply Flows.playFrame
        exact ⟨hs.ordered, hs.time, hs.frames⟩
      · exact hs
  | stopApplication => exact ⟨hs.ordered, hs.time, hs.frames⟩
  | getStats =>
      obtain ⟨-, -, hbuffer, htime, hframes⟩ := s.player.finalizeInterruptionTime_frame s.now
      refine ⟨?_, htime.trans hs.time, hframes.trans hs.frames⟩
      unfold PlayOut.step
      rw [hbuffer]
      exact hs.ordered

/-! ## The size of the buffer -/

/-- The bytes of the frames in the buffer, with their tags and metadata. -/
def heldSize (b : FrameBuffer) : Nat := (b.queue.map (·.serializedSize)).sum

/-- The size of the buffer is that of the frames held, and within the capacity. -/
structure Counted (b : FrameBuffer) : Prop where
  sum : b.sizeInBytes = heldSize b
  fits : b.sizeInBytes ≤ b.capacity

/-- With the frame, the sum of the sizes comes round to what the buffer has room for. -/
def ComesRound (b : FrameBuffer) (frame : Packet) : Prop :=
  2 ^ 32 ≤ b.sizeInBytes + frame.serializedSize ∧
    (b.sizeInBytes + frame.serializedSize) % 2 ^ 32 ≤ b.capacity

theorem Counted.push_iff {b b' : FrameBuffer} (hb : Counted b) {frame : Packet}
    (hpush : b.push frame = (true, b')) : Counted b' ↔ ¬ ComesRound b frame := by
  obtain ⟨hfits, hqueue, hcapacity, hsize⟩ := FrameBuffer.push_eq_true.1 hpush
  have hheld : heldSize b' = heldSize b + frame.serializedSize := by
    unfold heldSize
    rw [hqueue]
    simp
  unfold ComesRound
  constructor
  · rintro hb' ⟨hround, -⟩
    have hsum := hb'.sum
    have hlt := Nat.mod_lt (b.sizeInBytes + frame.serializedSize) (show 0 < 2 ^ 32 by decide)
    rw [hsize, hheld, ← hb.sum] at hsum
    omega
  · intro hnot
    have hlt : b.sizeInBytes + frame.serializedSize < 2 ^ 32 := by
      by_contra hround
      exact hnot ⟨Nat.not_lt.1 hround, hfits⟩
    rw [Nat.mod_eq_of_lt hlt] at hfits hsize
    refine ⟨?_, ?_⟩
    · rw [hsize, hheld, hb.sum]
    · rw [hsize, hcapacity]
      exact hfits

theorem Counted.pop {b b' : FrameBuffer} (hb : Counted b) (hlt : b.sizeInBytes < 2 ^ 32)
    {frame : Packet} (hpop : b.pop = some (frame, b')) : Counted b' := by
  obtain ⟨hqueue, hcapacity, hsize⟩ := FrameBuffer.pop_eq_some hpop
  have hheld : heldSize b = frame.serializedSize + heldSize b' := by
    unfold heldSize
    rw [hqueue]
    simp
  have hsum := hb.sum
  have hfits := hb.fits
  have hle : frame.serializedSize ≤ b.sizeInBytes := by omega
  have hless : b'.sizeInBytes = b.sizeInBytes - frame.serializedSize := by
    rw [hsize, Nat.mod_eq_of_lt (a := frame.serializedSize) (by omega)]
    omega
  exact ⟨by omega, by omega⟩

theorem size_push_lt {b b' : FrameBuffer} {frame : Packet} (hpush : b.push frame = (true, b')) :
    b'.sizeInBytes < 2 ^ 32 := by
  rw [(FrameBuffer.push_eq_true.1 hpush).2.2.2]
  exact Nat.mod_lt _ (by decide)

theorem size_pop_lt {b b' : FrameBuffer} {frame : Packet} (hpop : b.pop = some (frame, b')) :
    b'.sizeInBytes < 2 ^ 32 := by
  rw [(FrameBuffer.pop_eq_some hpop).2.2]
  exact Nat.mod_lt _ (by decide)

/-- What an event does to the buffer. -/
theorem frameBuffer_step (s : PlayOut) (event : PlayOutEvent) :
    let b := s.player.frameBuffer
    let b' := (s.step event).player.frameBuffer
    (∃ message, event = .receiveFrame message ∧ b.push message = (true, b')) ∨
      (∀ message, event = .receiveFrame message → (b.push message).1 = false) ∧
        (b' = b ∨ ∃ message, b.pop = some (message, b')) := by
  have hfired : ∀ (t : PlayOut) (requestPending : Bool),
      t.player.frameBuffer = s.player.frameBuffer →
        let b' := (t.playFrame requestPending).1.player.frameBuffer
        b' = s.player.frameBuffer ∨ ∃ message, s.player.frameBuffer.pop = some (message, b') := by
    intro t requestPending ht
    rcases t.playFrame_cases requestPending with ⟨hsame, -⟩ |
      ⟨u, delay, hscheduled, -, -, ⟨hbuffer, -⟩ | ⟨message, frameBuffer, hpop, hbuffer, -⟩⟩
    · exact Or.inl (by rw [hsame, ht])
    · refine Or.inl ?_
      rw [hscheduled, ← ht, ← hbuffer]
      rfl
    · refine Or.inr ⟨message, ?_⟩
      rw [hscheduled, ← ht, hpop, ← hbuffer]
      rfl
  cases event with
  | receiveFrame message =>
      rcases s.receiveFrame_cases message with ⟨hsame, hrefused⟩ |
        ⟨frameBuffer, t, hpush, -, hbuffer, -, -, -, hrest⟩
      · refine Or.inr ⟨?_, Or.inl ?_⟩
        · rintro other ⟨⟩
          exact hrefused
        · show (s.receiveFrame message).2.player.frameBuffer = _
          rw [hsame]
      · refine Or.inl ⟨message, rfl, ?_⟩
        show _ = (true, (s.receiveFrame message).2.player.frameBuffer)
        rw [hpush, ← hbuffer]
        rcases hrest with ⟨hsame, -⟩ | ⟨delay, hscheduled⟩
        · rw [hsame]
        · rw [hscheduled]
          rfl
  | playFrame uid requestPending =>
      refine Or.inr ⟨nofun, ?_⟩
      show (s.firePlayFrame uid requestPending).player.frameBuffer = _ ∨ ∃ message,
        _ = some (message, (s.firePlayFrame uid requestPending).player.frameBuffer)
      unfold firePlayFrame
      split_ifs
      · exact hfired _ requestPending rfl
      · exact hfired _ requestPending rfl
      · exact Or.inl rfl
  | getStats =>
      exact Or.inr ⟨nofun, Or.inl (s.player.finalizeInterruptionTime_frame s.now).2.2.1⟩
  | advance duration => exact Or.inr ⟨nofun, Or.inl rfl⟩
  | stopApplication => exact Or.inr ⟨nofun, Or.inl rfl⟩

/-! ## A run -/

/-- One event is pending while the player buffers, plays or is paused; the frames leave in the order
in which they came, once each; the size of the buffer is that of the frames held, and within the
capacity; and the playback time is that of the frames that were played. -/
structure Sound (s : PlayOut) : Prop where
  single : s.player.state = .initialBuffering ∨ s.player.state = .playing ∨
    s.player.state = .paused → ∃ event, s.agenda = [event]
  ordered : s.accepted = s.left ++ s.player.frameBuffer.queue
  counted : Counted s.player.frameBuffer
  time : s.player.totalPlaybackTime =
    (s.left.countP playable : Int) * milliSeconds MPEG_TIME_BETWEEN_FRAMES

/-- A frame that is received does not make the sum of the sizes come round. -/
def Room (s : PlayOut) : PlayOutEvent → Prop
  | .receiveFrame message => ¬ ComesRound s.player.frameBuffer message
  | _ => True

/-- What is kept. -/
structure Kept (s : PlayOut) : Prop where
  chained : Chained s
  flows : Flows s
  counted : Counted s.player.frameBuffer
  uint32 : s.player.frameBuffer.sizeInBytes < 2 ^ 32

theorem kept_init (capacity : Nat) : Kept (init capacity) :=
  ⟨chained_init capacity, flows_init capacity, ⟨rfl, Nat.zero_le _⟩,
    show 0 < 2 ^ 32 by decide⟩

theorem sound_iff {s : PlayOut} (hchained : Chained s) (hflows : Flows s) :
    Sound s ↔ Counted s.player.frameBuffer := by
  refine ⟨fun hs => hs.counted, fun hcounted => ⟨?_, hflows.ordered, hcounted, hflows.time⟩⟩
  intro hstate
  rcases hchained.one with hnone | ⟨event, hevent, -⟩
  · rcases hchained.running hnone with hrunning | hrunning <;> simp [hrunning] at hstate
  · exact ⟨event, hevent⟩

theorem Kept.size_step_lt {s : PlayOut} (hs : Kept s) (event : PlayOutEvent) :
    (s.step event).player.frameBuffer.sizeInBytes < 2 ^ 32 := by
  rcases s.frameBuffer_step event with ⟨message, -, hpush⟩ | ⟨-, hsame | ⟨message, hpop⟩⟩
  · exact size_push_lt hpush
  · rw [hsame]
    exact hs.uint32
  · exact size_pop_lt hpop

/-- The step lemma for the size. -/
theorem Kept.counted_step_iff {s : PlayOut} (hs : Kept s) (event : PlayOutEvent) :
    Counted (s.step event).player.frameBuffer ↔ Room s event := by
  rcases s.frameBuffer_step event with ⟨message, rfl, hpush⟩ | ⟨hrefused, hrest⟩
  · exact hs.counted.push_iff hpush
  · refine iff_of_true ?_ ?_
    · rcases hrest with hsame | ⟨message, hpop⟩
      · rw [hsame]
        exact hs.counted
      · exact hs.counted.pop hs.uint32 hpop
    · cases event with
      | receiveFrame message =>
          have hnot := hrefused message rfl
          rintro ⟨-, hfits⟩
          unfold FrameBuffer.push at hnot
          rw [if_pos hfits] at hnot
          exact Bool.false_ne_true hnot.symm
      | _ => trivial

/-- Every state that a run reaches is sound if and only if no frame that is received makes the sum
of the sizes come round. -/
theorem run_sound_iff (capacity : Nat) (events : List PlayOutEvent) :
    Run.AllSteps step (fun s event => Sound (s.step event)) (init capacity) events ↔
      Run.AllSteps step Room (init capacity) events := by
  refine Run.allSteps_congr (I := Kept) ?_ ?_ (kept_init capacity)
  · intro s event hs hsound
    exact ⟨hs.chained.step event, hs.flows.step event, hsound.counted, hs.size_step_lt event⟩
  · intro s event hs
    rw [sound_iff (hs.chained.step event) (hs.flows.step event)]
    exact hs.counted_step_iff event

theorem Kept.step {s : PlayOut} (hs : Kept s) {event : PlayOutEvent} (hroom : Room s event) :
    Kept (s.step event) :=
  ⟨hs.chained.step event, hs.flows.step event, (hs.counted_step_iff event).2 hroom,
    hs.size_step_lt event⟩

theorem capacity_step (s : PlayOut) (event : PlayOutEvent) :
    (s.step event).player.frameBuffer.capacity = s.player.frameBuffer.capacity := by
  rcases s.frameBuffer_step event with ⟨message, -, hpush⟩ | ⟨-, hsame | ⟨message, hpop⟩⟩
  · exact (FrameBuffer.push_eq_true.1 hpush).2.2.1
  · rw [hsame]
  · exact (FrameBuffer.pop_eq_some hpop).2.1

/-- With a capacity that leaves room for every frame in 32 bits, every state is sound. -/
theorem run_sound_of_small {capacity : Nat} {events : List PlayOutEvent}
    (hsmall : ∀ message, PlayOutEvent.receiveFrame message ∈ events →
      capacity + message.serializedSize < 2 ^ 32) :
    Run.AllSteps step (fun s event => Sound (s.step event)) (init capacity) events := by
  have hall : Run.AllSteps step (fun _ event => ∀ message, event = .receiveFrame message →
      capacity + message.serializedSize < 2 ^ 32) (init capacity) events := by
    refine Run.AllSteps.of_forall ?_
    rintro event hevent - message rfl
    exact hsmall message hevent
  have hroom : ∀ s event, Kept s ∧ s.player.frameBuffer.capacity = capacity →
      (∀ message, event = .receiveFrame message → capacity + message.serializedSize < 2 ^ 32) →
        Room s event := by
    rintro s event ⟨hs, hcapacity⟩ hevent
    cases event with
    | receiveFrame message =>
        rintro ⟨hround, -⟩
        have hfits := hs.counted.fits
        have hlt := hevent message rfl
        omega
    | _ => trivial
  rw [run_sound_iff]
  refine hall.imp (I := fun s => Kept s ∧ s.player.frameBuffer.capacity = capacity) ?_ hroom
    ⟨kept_init capacity, rfl⟩
  intro s event hs hevent
  exact ⟨hs.1.step (hroom s event hs hevent), (s.capacity_step event).trans hs.2⟩

/-! ## A buffer that comes round -/

/-- A frame of 2 MiB, with its tags and metadata. -/
def largeFrame : Packet where
  bytes := DashServer.segmentFrame 0 0 0 0 0 2097000
  serializedSize := 2 ^ 21

/-- The largest capacity takes any number of frames of 2 MiB, and counts their size in 32 bits. -/
theorem run_largeFrames {frame : Packet} (hframe : frame.serializedSize = 2 ^ 21) (n : Nat) :
    let b := (Run.run step (init (2 ^ 32 - 1))
      (List.replicate n (.receiveFrame frame))).player.frameBuffer
    b.capacity = 2 ^ 32 - 1 ∧ b.sizeInBytes = n * 2 ^ 21 % 2 ^ 32 ∧
      b.queue = List.replicate n frame := by
  induction n with
  | zero => exact ⟨rfl, rfl, rfl⟩
  | succ n ih =>
      rw [List.replicate_succ', Run.run_append]
      generalize Run.run step (init (2 ^ 32 - 1)) (List.replicate n (.receiveFrame frame)) = s
        at ih
      obtain ⟨hcapacity, hsize, hqueue⟩ := ih
      rcases s.frameBuffer_step (.receiveFrame frame) with
        ⟨message, hmessage, hpush⟩ | ⟨hrefused, -⟩
      · cases hmessage
        obtain ⟨-, hqueue', hcapacity', hsize'⟩ := FrameBuffer.push_eq_true.1 hpush
        refine ⟨hcapacity'.trans hcapacity, ?_, ?_⟩
        · refine hsize'.trans ?_
          rw [hsize, hframe]
          omega
        · refine hqueue'.trans ?_
          rw [hqueue, List.replicate_succ']
      · have hnot := hrefused frame rfl
        unfold FrameBuffer.push at hnot
        rw [hcapacity, if_pos (by omega)] at hnot
        exact absurd hnot Bool.false_ne_true.symm

/-- After 2048 frames of 2 MiB the buffer of the largest capacity has the size 0. -/
theorem not_run_sound :
    let events := List.replicate 2048 (PlayOutEvent.receiveFrame largeFrame)
    let b := (Run.run step (init (2 ^ 32 - 1)) events).player.frameBuffer
    (b.sizeInBytes = 0 ∧ heldSize b = 2 ^ 32 ∧ b.capacity = 2 ^ 32 - 1) ∧
      ¬ Run.AllSteps step (fun s event => Sound (s.step event)) (init (2 ^ 32 - 1)) events := by
  have hround : 2048 * 2 ^ 21 % 2 ^ 32 = 0 := by norm_num
  have hframe : largeFrame.serializedSize = 2 ^ 21 := rfl
  obtain ⟨hcapacity, hsize, hqueue⟩ := run_largeFrames hframe 2048
  rw [hround] at hsize
  have hkept : Run.AllSteps step (fun s event => Sound (s.step event)) (init (2 ^ 32 - 1))
      (List.replicate 2048 (.receiveFrame largeFrame)) →
        Kept (Run.run step (init (2 ^ 32 - 1)) (List.replicate 2048 (.receiveFrame largeFrame))) :=
    fun hsound => ((run_sound_iff _ _).1 hsound).invariant (fun _ _ hs hroom => hs.step hroom)
      (kept_init _)
  dsimp only
  generalize Run.run step (init (2 ^ 32 - 1)) (List.replicate 2048 (.receiveFrame largeFrame)) = s
    at hcapacity hsize hqueue hkept ⊢
  have hheld : heldSize s.player.frameBuffer = 2 ^ 32 := by
    unfold heldSize
    rw [hqueue, List.map_replicate, List.sum_replicate_nat, hframe]
    norm_num
  refine ⟨⟨hsize, hheld, hcapacity⟩, fun hsound => ?_⟩
  have hsum := (hkept hsound).counted.sum
  rw [hsize, hheld] at hsum
  omega

end PlayOut

end NtnIab.Dash
