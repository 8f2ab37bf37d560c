import Mathlib.Logic.Function.Iterate
import NtnIab.Quic.MpQuicScheduler

/-!
# The paths that pending data is sent on

`SendPendingData` asks the scheduler for a vector that marks one path, and then sends on every path
of the vector as long as its window is open. It reads the size of the vector and none of its
entries. It respects the choice only when the other paths are closed as it comes to them. The
marked index is one of the list of Active subflows, and the socket uses it as an index of the list
of all subflows.

## Strategy

The loops over the paths and over the packets of a path are one machine, whose step is an iteration
of the inner loop. `step_calls` says when a step sends, and the calls of a run are those of its
steps. `exists_marked` says that the vector marks one path.
-/

namespace NtnIab.Quic

open QuicSocketBase MpQuicScheduler

/-! ## The loops -/

/-- The loop over the paths, inside the loop over the packets of the path `pathId`. `calls` are the
paths that `SendDataPacket` was called on. -/
structure SendLoop where
  socket : QuicSocketBase
  pathId : Nat := 0
  returned : Bool := false
  calls : List Nat := []
  deriving Repr, DecidableEq

namespace SendLoop

/-- The inner loop is left for the next path. The index is 8 bits wide. -/
def nextPath (l : SendLoop) : SendLoop := { l with pathId := (l.pathId + 1) % 2 ^ 8 }

-- What the congestion control does to its state when a packet is sent, and what the application
-- does when it is asked for more data.
variable (onPacketSent : Tcb → Nat → Bool → Tcb)
  (notifySend : QuicSocketBase → QuicSocketBase) (withAck : Bool)

/-- The end of an iteration, from the packet number on. -/
def sendOnPath (availableWindow : Nat) (l : SendLoop) : SendLoop :=
  let (next, socket) := l.socket.nextPacketNumber l.pathId
  let s := min availableWindow socket.segSize
  let biFBefore := socket.bytesInFlight l.pathId
  let appSizeBefore := socket.txBuffer.appSize
  let socket := (socket.sendDataPacket onPacketSent next s withAck l.pathId).2
  let l := { l with socket, calls := l.calls ++ [l.pathId] }
  -- an iteration without progress ends the inner loop
  if socket.bytesInFlight l.pathId ≤ biFBefore ∧ socket.txBuffer.appSize ≥ appSizeBefore then
    l.nextPath
  else l

/-- An iteration of the inner loop. -/
def step (tosend : List Nat) (l : SendLoop) : SendLoop :=
  if l.returned ∨ ¬ l.pathId < tosend.length then l
  else
    let availableWindow := l.socket.availableWindow l.pathId
    if ¬ (availableWindow > 0 ∧ l.socket.txBuffer.appSize > 0) then l.nextPath
    else if l.socket.drainingPeriodEvent then { l with returned := true }
    else if (l.socket.subflow l.pathId).tcb.pacing ∧ l.socket.pacingTimer then l.nextPath
    else if l.socket.socketState = .connectingClt ∨ l.socket.socketState = .connectingSvr then
      l.nextPath
    else
      let availableData := l.socket.txBuffer.appSize
      let socket :=
        if availableData < availableWindow ∧ ¬ l.socket.closeOnEmpty then notifySend l.socket
        else l.socket
      if availableWindow < socket.segSize ∧ availableData > availableWindow ∧
          ¬ socket.closeOnEmpty then { l with socket }.nextPath
      else sendOnPath onPacketSent withAck availableWindow { l with socket }

/-- The guards of the loops let a packet be sent on the path. -/
structure Opens (tosend : List Nat) (l : SendLoop) : Prop where
  running : ¬ (l.returned ∨ ¬ l.pathId < tosend.length)
  data : l.socket.availableWindow l.pathId > 0 ∧ l.socket.txBuffer.appSize > 0
  notDraining : ¬ l.socket.drainingPeriodEvent
  notPaced : ¬ ((l.socket.subflow l.pathId).tcb.pacing ∧ l.socket.pacingTimer)
  notConnecting :
    ¬ (l.socket.socketState = .connectingClt ∨ l.socket.socketState = .connectingSvr)
  notSilly : ¬ (l.socket.availableWindow l.pathId < l.socket.segSize ∧
    l.socket.txBuffer.appSize > l.socket.availableWindow l.pathId ∧ ¬ l.socket.closeOnEmpty)

/-- A step sends if and only if the guards let it. -/
theorem step_calls (tosend : List Nat) (l : SendLoop) :
    (l.Opens tosend → (l.step onPacketSent notifySend withAck tosend).calls =
      l.calls ++ [l.pathId]) ∧
    (¬ l.Opens tosend → (l.step onPacketSent notifySend withAck tosend).calls = l.calls) := by
  have hsend : ∀ availableWindow socket,
      (sendOnPath onPacketSent withAck availableWindow { l with socket }).calls =
        l.calls ++ [l.pathId] := by
    intro availableWindow socket
    unfold sendOnPath nextPath
    dsimp only
    split <;> rfl
  constructor
  · intro hopens
    unfold step
    dsimp only
    rw [if_neg hopens.running, if_neg (not_not.2 hopens.data), if_neg hopens.notDraining,
      if_neg hopens.notPaced, if_neg hopens.notConnecting]
    split
    · -- the application is asked when the window is larger than the data: it is not silly
      rw [if_neg (fun hsilly => by omega)]
      exact hsend _ _
    · rw [if_neg hopens.notSilly]
      exact hsend _ _
  · intro hcloses
    unfold step
    dsimp only
    split_ifs with hdone hdata hdraining hpaced hconnecting hasked hsilly hsilly
    case neg =>
      exact absurd ⟨hdone, hdata, hdraining, hpaced, hconnecting, fun hnot => by omega⟩ hcloses
    case neg =>
      exact absurd ⟨hdone, hdata, hdraining, hpaced, hconnecting, hsilly⟩ hcloses
    all_goals rfl

/-- The state of the loops after `n` iterations. -/
def after (tosend : List Nat) (n : Nat) (socket : QuicSocketBase) : SendLoop :=
  (step onPacketSent notifySend withAck tosend)^[n] { socket }

/-- The calls of a run meet a condition if and only if those of its steps do. -/
theorem forall_calls_iff {tosend : List Nat} {socket : QuicSocketBase} (P : Nat → Prop) :
    (∀ n, ∀ i ∈ (after onPacketSent notifySend withAck tosend n socket).calls, P i) ↔
      ∀ n, let l := after onPacketSent notifySend withAck tosend n socket
        l.Opens tosend → P l.pathId := by
  have hsucc : ∀ n, after onPacketSent notifySend withAck tosend (n + 1) socket =
      (after onPacketSent notifySend withAck tosend n socket).step onPacketSent notifySend withAck
        tosend := by
    intro n
    exact Function.iterate_succ_apply' _ n _
  constructor
  · intro hcalls n l hopens
    apply hcalls (n + 1)
    rw [hsucc, (step_calls onPacketSent notifySend withAck tosend _).1 hopens]
    exact List.mem_append_right _ List.mem_cons_self
  · intro hopens n
    induction n with
    | zero =>
        intro i hi
        cases hi
    | succ n ih =>
        intro i hi
        obtain ⟨hsends, hkeeps⟩ := step_calls onPacketSent notifySend withAck tosend
          (after onPacketSent notifySend withAck tosend n socket)
        rw [hsucc] at hi
        by_cases hopen :
            (after onPacketSent notifySend withAck tosend n socket).Opens tosend
        · rw [hsends hopen] at hi
          rcases List.mem_append.1 hi with hi | hi
          · exact ih i hi
          · rw [List.mem_singleton.1 hi]
            exact hopens n hopen
        · rw [hkeeps hopen] at hi
          exact ih i hi

end SendLoop

open SendLoop

section
variable (onPacketSent : Tcb → Nat → Bool → Tcb)
  (notifySend : QuicSocketBase → QuicSocketBase) (withAck : Bool)

/-- The loop of `SendPendingData` over the frames of stream 0, which go out on path 0. -/
def sendStream0 : Nat → QuicSocketBase → Option QuicSocketBase
  | 0, _ => none
  | fuel + 1, s =>
      if ¬ s.txBuffer.numFrameStream0InBuffer > 0 then some s
      else if (s.subflow 0).tcb.pacing ∧ s.pacingTimer then some s
      else
        let (next, s) := s.nextPacketNumber 0
        sendStream0 fuel (s.sendDataPacket onPacketSent next 0 (s.subflow 0).queueAck 0).2

/-- `SendPendingData` up to the point where it asks the scheduler. A call without data ends before,
and so does one whose first loop does not end. -/
def beforeScheduler (fuel : Nat) (s : QuicSocketBase) : Option QuicSocketBase :=
  if s.txBuffer.appSize = 0 then none else sendStream0 onPacketSent fuel s

/-- The subflow at the position is Active. -/
def ActiveAt (s : QuicSocketBase) (pathId : Nat) : Prop :=
  ∃ subflow, s.subflows[pathId]? = some subflow ∧ subflow.subflowState = .active

/-- A call of `SendPendingData` sends on marked paths only, and these are Active subflows. -/
structure FollowsScheduler (tests : DoubleTests) (m : MpQuicScheduler) (s : QuicSocketBase) :
    Prop where
  sendsOnMarked : ∀ fuel s₀, beforeScheduler onPacketSent fuel s = some s₀ →
    let tosend := (m.getNextPathIdToUse tests s₀).1
    ∀ n, ∀ i ∈ (after onPacketSent notifySend withAck tosend n s₀).calls, 0 < tosend.getD i 0
  markedActive : ∀ fuel s₀, beforeScheduler onPacketSent fuel s = some s₀ →
    let tosend := (m.getNextPathIdToUse tests s₀).1
    ∀ i, 0 < tosend.getD i 0 → ActiveAt s₀ i

/-- The index of the path that the scheduler marks. -/
def chosenPath (tests : DoubleTests) (m : MpQuicScheduler) (s : QuicSocketBase) : Nat :=
  (m.getNextPathIdToUse tests s).1.idxOf 1

theorem positive_iff_chosenPath (tests : DoubleTests) (m : MpQuicScheduler) (s : QuicSocketBase)
    (i : Nat) :
    0 < (m.getNextPathIdToUse tests s).1.getD i 0 ↔ i = chosenPath tests m s := by
  obtain ⟨pathId, hpath, htosend⟩ := exists_marked tests s m
  have hchosen : chosenPath tests m s = pathId := by
    unfold chosenPath
    rw [htosend, idxOf_tosend hpath]
  rw [htosend, tosend_pos_iff hpath, hchosen]

end

/-! ## A path that was not chosen -/

/-- A frame of stream 4 with three bytes. -/
def threeBytes : List UInt8 :=
  (QuicSubheader.createStreamSubHeader 4 0 3 false true false).serialize ++ [1, 2, 3]

/-- An open socket that has a frame to send, with a subflow for each of the given states. -/
def openSocket (states : List SubflowState) : QuicSocketBase where
  subflows := states.mapIdx fun i subflowState =>
    { flowId := i, subflowState, tcb := { cWnd := 14000 } }
  txBuffer := ((QuicSocketTxBuffer.addSentList (states.length - 1) {}).add threeBytes 0).2
  maxData := 10000
  segSize := 1400
  socketState := .open
  connected := true

/-- The congestion control leaves its state as it is, the application sends nothing, and no
comparison holds. -/
def RoundRobinFollows (s : QuicSocketBase) : Prop :=
  FollowsScheduler (fun tcb _ _ => tcb) id true
    ⟨fun _ _ _ _ _ _ => false, fun _ _ _ _ _ => false, fun _ _ _ _ => false, fun _ _ => false⟩
    { schedulerType := .roundRobin } s

end NtnIab.Quic
