import NtnIab.Library.Run
import NtnIab.Dash.MpegPlayer

/-!
# Interruption statistics of the player

A run of the player interleaves received frames, due `PlayFrame` events, stops and `GetStats`
calls with the passing of time. Beside the player, the run observes what the statistics are meant
to report: the time spent in the paused state and the number of transitions from playing to
paused.

`FinalizeInterruptionTime` adds the time since the last pause to the total on every call and keeps
no record of having done so. The invariant `Accounted` says what the player's total owes to the
observed one while nothing of that kind has happened, and the main result is that the reports of a
run are all exact if and only if every `GetStats` of it finds nothing left to add.
-/

namespace NtnIab.Dash

/-- A player in simulated time, with the observed pause time and stall count. -/
structure Playback where
  now : Int := 0
  player : MpegPlayer
  pausedFor : Int := 0
  stalls : Nat := 0
  deriving Repr, DecidableEq

inductive PlaybackEvent
  | advance (duration : Nat)
  | receiveFrame (message : Packet)
  | playFrame (requestPending : Bool)
  | stopApplication
  | getStats
  deriving Repr, DecidableEq

namespace Playback

def init (capacity : Nat) : Playback := { player := .new capacity }

/-- The clock and the player after an event. -/
def apply (s : Playback) : PlaybackEvent → Int × MpegPlayer
  | .advance duration => (s.now + duration, s.player)
  | .receiveFrame message => (s.now, (s.player.receiveFrame s.now message).2)
  | .playFrame requestPending => (s.now, (s.player.firePlayFrame requestPending s.now).1)
  | .stopApplication => (s.now, s.player.stop)
  | .getStats => (s.now, s.player.finalizeInterruptionTime s.now)

def step (s : Playback) (event : PlaybackEvent) : Playback :=
  let (now, player) := s.apply event
  { now, player
    pausedFor := s.pausedFor + if s.player.state = .paused then now - s.now else 0
    stalls := s.stalls +
      if s.player.state = .playing ∧ player.state = .paused then 1 else 0 }

/-- A `GetStats` call here reports the observed totals, and a second one at once would report and
leave behind the same. -/
def Exact (s : Playback) : Prop :=
  let player := s.player.finalizeInterruptionTime s.now
  player.interruptionTime = s.pausedFor ∧ player.interruptions = s.stalls ∧
    player.finalizeInterruptionTime s.now = player

instance (s : Playback) : Decidable s.Exact := by unfold Exact; infer_instance

/-- `FinalizeInterruptionTime` has nothing to add here. -/
def Settled (s : Playback) : Prop :=
  s.player.interruptions = 0 ∨ (s.player.state ≠ .paused ∧ s.player.state ≠ .done) ∨
    s.now = s.player.lastpaused

/-- What the player's counters owe to the observed totals while every `GetStats` was settled. -/
structure Accounted (s : Playback) : Prop where
  buffered : s.player.state = .initialBuffering → s.player.frameBuffer.queue ≠ []
  idle : s.player.state = .notStarted → s.player.playFrameEvent = none
  counted : s.player.interruptions = s.stalls
  stalled : s.player.state = .paused → 0 < s.player.interruptions
  past : s.player.lastpaused ≤ s.now
  paid : s.player.state ≠ .paused ∧ (s.player.state = .done → s.player.interruptions = 0) →
    s.player.interruptionTime = s.pausedFor
  owed : s.player.state = .paused →
    s.player.interruptionTime + (s.now - s.player.lastpaused) = s.pausedFor
  stopped : s.player.state = .done → s.player.interruptionTime ≤ s.pausedFor ∧
    s.pausedFor ≤ s.player.interruptionTime + (s.now - s.player.lastpaused)

theorem accounted_init (capacity : Nat) : (init capacity).Accounted := by
  constructor <;> simp [init, MpegPlayer.new]

theorem finalize_eq_of_settled {s : Playback} (hsettled : s.Settled) :
    s.player.finalizeInterruptionTime s.now = s.player := by
  unfold MpegPlayer.finalizeInterruptionTime
  split
  · rename_i hcond
    have hnow : s.now = s.player.lastpaused := by
      rcases hsettled with h | h | h
      · omega
      · exact absurd hcond.2 (by simp [h])
      · exact h
    simp [hnow]
  · rfl

/-- A `GetStats` that has something to add would add it again. -/
theorem settled_of_exact {s : Playback} (hexact : s.Exact) : s.Settled := by
  by_contra hsettled
  simp only [Settled, not_or] at hsettled
  obtain ⟨hcount, hstate, hnow⟩ := hsettled
  have hcond : 0 < s.player.interruptions ∧ (s.player.state = .paused ∨ s.player.state = .done) :=
    ⟨by omega, by tauto⟩
  have htwice := congrArg MpegPlayer.interruptionTime hexact.2.2
  simp only [MpegPlayer.finalizeInterruptionTime, if_pos hcond] at htwice
  omega

theorem exact_of_settled {s : Playback} (hinv : s.Accounted) (hsettled : s.Settled) :
    s.Exact := by
  have hfin := finalize_eq_of_settled hsettled
  refine ⟨?_, ?_, ?_⟩
  · rw [hfin]
    by_cases hpaused : s.player.state = .paused
    · have howed := hinv.owed hpaused
      have hcount := hinv.stalled hpaused
      have hnow : s.now = s.player.lastpaused := by
        rcases hsettled with h | h | h
        · omega
        · exact absurd hpaused h.1
        · exact h
      omega
    · by_cases hdone : s.player.state = .done → s.player.interruptions = 0
      · exact hinv.paid ⟨hpaused, hdone⟩
      · have hdone : s.player.state = .done ∧ s.player.interruptions ≠ 0 := by tauto
        obtain ⟨hlow, hhigh⟩ := hinv.stopped hdone.1
        have hnow : s.now = s.player.lastpaused := by
          rcases hsettled with h | h | h
          · exact absurd h hdone.2
          · exact absurd hdone.1 h.2
          · exact h
        omega
  · rw [hfin]; exact hinv.counted
  · rw [hfin, hfin]

theorem exact_iff_settled {s : Playback} (hinv : s.Accounted) : s.Exact ↔ s.Settled :=
  ⟨settled_of_exact, exact_of_settled hinv⟩

/-! ## The invariant along a run -/

theorem Accounted.advance {s : Playback} (hinv : s.Accounted) (duration : Nat) :
    (s.step (.advance duration)).Accounted := by
  obtain ⟨hbuffered, hidle, hcounted, hstalled, hpast, hpaid, howed, hstopped⟩ := hinv
  constructor
  all_goals simp only [step, apply]
  all_goals grind

theorem Accounted.receiveFrame {s : Playback} (hinv : s.Accounted) (message : Packet) :
    (s.step (.receiveFrame message)).Accounted := by
  obtain ⟨hbuffered, hidle, hcounted, hstalled, hpast, hpaid, howed, hstopped⟩ := hinv
  rcases s.player.receiveFrame_cases s.now message with h | ⟨p', h, hqueue, hint, hlast, hcases⟩
  · constructor
    all_goals simp only [step, apply, h]
    all_goals grind
  · have hqueue : p'.frameBuffer.queue ≠ [] := by simp [hqueue]
    constructor
    all_goals simp only [step, apply, h]
    all_goals grind

/-- A due `PlayFrame` of a started player stalls it, keeps it stalled, or plays on. -/
theorem Accounted.playFrame {s : Playback} (hinv : s.Accounted) (requestPending : Bool) :
    (s.step (.playFrame requestPending)).Accounted := by
  obtain ⟨hbuffered, hidle, hcounted, hstalled, hpast, hpaid, howed, hstopped⟩ := hinv
  have hunfired : s.player.firePlayFrame requestPending s.now = (s.player, []) ∨
      (s.player.state ≠ .notStarted ∧ s.player.firePlayFrame requestPending s.now =
        { s.player with playFrameEvent := none }.playFrame requestPending s.now) := by
    unfold MpegPlayer.firePlayFrame
    cases hevent : s.player.playFrameEvent with
    | none => exact .inl rfl
    | some due =>
        dsimp only
        split
        · exact .inr ⟨fun hstate => by simp [hidle hstate] at hevent, rfl⟩
        · exact .inl rfl
  rcases hunfired with hfire | ⟨hstarted, hfire⟩
  · constructor
    all_goals simp only [step, apply, hfire]
    all_goals grind
  · generalize hp : ({ s.player with playFrameEvent := none } : MpegPlayer) = p at hfire
    have hstate : p.state = s.player.state := by rw [← hp]
    have hqueue : p.frameBuffer.queue = s.player.frameBuffer.queue := by rw [← hp]
    have htime : p.interruptionTime = s.player.interruptionTime := by rw [← hp]
    have hcount : p.interruptions = s.player.interruptions := by rw [← hp]
    have hlast : p.lastpaused = s.player.lastpaused := by rw [← hp]
    have hplay : (p.startPlaying s.now).state =
        if p.state = .initialBuffering then .playing else p.state := by
      unfold MpegPlayer.startPlaying; split <;> rfl
    have hcases := p.playFrame_cases requestPending s.now
    have hstates : p.state = .paused ∨ p.state = .playing ∨ p.state = .done ∨
        p.state = .initialBuffering := by
      rw [hstate]; cases h : s.player.state <;> simp_all
    clear hp
    constructor
    all_goals simp only [step, apply, hfire]
    all_goals grind

theorem Accounted.stopApplication {s : Playback} (hinv : s.Accounted) :
    (s.step .stopApplication).Accounted := by
  obtain ⟨hbuffered, hidle, hcounted, hstalled, hpast, hpaid, howed, hstopped⟩ := hinv
  have hsplit : s.player.state = .done ∨ s.player.state ≠ .done := em _
  constructor
  all_goals simp only [step, apply, MpegPlayer.stop]
  all_goals grind

theorem Accounted.getStats {s : Playback} (hinv : s.Accounted) (hsettled : s.Settled) :
    (s.step .getStats).Accounted := by
  have hfin := finalize_eq_of_settled hsettled
  obtain ⟨hbuffered, hidle, hcounted, hstalled, hpast, hpaid, howed, hstopped⟩ := hinv
  constructor
  all_goals simp only [step, apply, hfin]
  all_goals grind

/-- Every event keeps the accounts, a `GetStats` provided it is settled. -/
theorem Accounted.step {s : Playback} (hinv : s.Accounted) {event : PlaybackEvent}
    (hsettled : event = .getStats → s.Settled) : (s.step event).Accounted := by
  cases event with
  | advance duration => exact hinv.advance duration
  | receiveFrame message => exact hinv.receiveFrame message
  | playFrame requestPending => exact hinv.playFrame requestPending
  | stopApplication => exact hinv.stopApplication
  | getStats => exact hinv.getStats (hsettled rfl)

end Playback

/-! ## Exactness of the reports -/

open Playback in
/-- In every run, the reports of all `GetStats` calls are exact (the total is the time spent
paused, the count is the number of transitions from playing to paused, and repeating the call
changes nothing) if and only if each of them finds the player never stalled, neither paused nor
stopped, or stalled at this very instant. -/
theorem reports_exact_iff_settled (capacity : Nat) (events : List PlaybackEvent) :
    Run.AllSteps step (fun s event => event = .getStats → s.Exact) (init capacity) events ↔
      Run.AllSteps step (fun s event => event = .getStats → s.Settled) (init capacity) events :=
  (Run.allSteps_congr (I := Accounted)
    (fun _ _ hinv hsettled => hinv.step hsettled)
    (fun _ _ hinv => forall_congr' fun _ => (exact_iff_settled hinv).symm)
    (accounted_init capacity)).symm

/-- A frame of a response: both headers and no payload. -/
def emptyFrame : Packet where
  bytes := HTTPHeader.serialize { ts := 0, messageType := HTTP_RESPONSE } ++
    MPEGHeader.serialize { ts := 0, size := 0 }
  serializedSize := 68

/-- One frame is played, the player stalls at 1.033 s, and `GetStats` is called at 1.533 s and
at 2.033 s: the second call reports 1.5 s of interruption where the player was paused for 1 s. -/
theorem reports_not_exact :
    ¬ Run.AllSteps Playback.step (fun s event => event = .getStats → s.Exact)
      (Playback.init 30000000)
      [.receiveFrame emptyFrame, .advance 1000000000, .playFrame false, .advance 33000000,
        .playFrame false, .advance 500000000, .getStats, .advance 500000000, .getStats] := by
  decide +kernel

end NtnIab.Dash
