import NtnIab.Quic.AckFrame

/-!
# A socket and its paths

The part of a socket that sends data: the subflows, the transmit buffer, and the limits of the
connection. A subflow is known by its position in the list of subflows. The congestion control and
the application are parameters.
-/

namespace NtnIab.Quic

structure InetSocketAddress where
  ipv4 : UInt32 := 0
  port : UInt16 := 0
  deriving Repr, DecidableEq

inductive SubflowState
  | validating
  | active
  | closeing
  | closed
  deriving Repr, DecidableEq

/-- The congestion state of a subflow, as far as the sending of data reads it. -/
structure Tcb where
  cWnd : Nat := 0
  lastRtt : Int := 0
  rttVar : Int := 0
  nextTxSequence : Nat := 0
  pacing : Bool := false
  deriving Repr, DecidableEq

/-- A subflow, with what the handling of paths and the sending of data read of it. -/
structure MpQuicPath extends MpQuicSubFlow where
  flowId : Nat := 0
  localAddr : InetSocketAddress := {}
  peerAddr : InetSocketAddress := {}
  subflowState : SubflowState := .validating
  tcb : Tcb := {}
  queueAck : Bool := false
  deriving Repr, DecidableEq

inductive SocketState
  | idle
  | listening
  | connectingSvr
  | connectingClt
  | open
  | closing
  deriving Repr, DecidableEq

/-- `drainingPeriodEvent` and `pacingTimer` say whether the timer runs. -/
structure QuicSocketBase where
  subflows : List MpQuicPath := [{ subflowState := .active }]
  txBuffer : QuicSocketTxBuffer := {}
  maxData : Nat := 0
  segSize : Nat := 0
  socketState : SocketState := .idle
  connected : Bool := false
  closeOnEmpty : Bool := false
  drainingPeriodEvent : Bool := false
  pacingTimer : Bool := false
  ccIsBbr : Bool := false
  now : Int := 0
  deriving Repr, DecidableEq

namespace QuicSocketBase

/-- `m_subflows[pathId]` -/
def subflow (pathId : Nat) (s : QuicSocketBase) : MpQuicPath := s.subflows.getD pathId {}

/-- Rewrites the congestion state of the subflow at a position. -/
def modifyTcb (pathId : Nat) (f : Tcb → Tcb) (s : QuicSocketBase) : QuicSocketBase :=
  { s with subflows := s.subflows.modify pathId fun subflow =>
      { subflow with tcb := f subflow.tcb } }

/-- `GetActiveSubflows` -/
def getActiveSubflows (s : QuicSocketBase) : List MpQuicPath :=
  s.subflows.filter fun subflow => subflow.subflowState = .active

def bytesInFlight (pathId : Nat) (s : QuicSocketBase) : Nat := s.txBuffer.bytesInFlight pathId

/-- `AvailableWindow` -/
def availableWindow (pathId : Nat) (s : QuicSocketBase) : Nat :=
  let win := min s.maxData (s.subflow pathId).tcb.cWnd
  let inflight := s.bytesInFlight pathId
  if inflight > win then 0 else win - inflight

/-- `ConnectionWindow` -/
def connectionWindow (pathId : Nat) (s : QuicSocketBase) : Nat :=
  let inFlight := s.bytesInFlight pathId
  if inFlight > s.maxData then 0 else s.maxData - inFlight

def getTxAvailable (s : QuicSocketBase) : Nat := s.txBuffer.available

/-- The next packet number of a path, and the socket that has used it. -/
def nextPacketNumber (pathId : Nat) (s : QuicSocketBase) : Nat × QuicSocketBase :=
  let next := wrapAdd (s.subflow pathId).tcb.nextTxSequence 1
  (next, s.modifyTcb pathId fun tcb => { tcb with nextTxSequence := next })

section
-- What the congestion control does to the state of the subflow when a packet is sent.
variable (onPacketSent : Tcb → Nat → Bool → Tcb)

/-- `SendDataPacket`: the data of the packet, if one is handed to the layer below. The packet is
taken from the buffer also in a state in which none may be sent. -/
def sendDataPacket (packetNumber maxSize : Nat) (withAck : Bool) (pathId : Nat)
    (s : QuicSocketBase) : Option (List UInt8) × QuicSocketBase :=
  if s.drainingPeriodEvent then (none, s)
  else
    let result :=
      if s.txBuffer.numFrameStream0InBuffer > 0 then
        let result := s.txBuffer.nextStream0Sequence packetNumber s.now
        (result.1.getD [], result.2)
      else s.txBuffer.nextSequence maxSize packetNumber pathId s.now
    let p := result.1
    let s := { s with txBuffer := result.2 }
    let s := if s.ccIsBbr then s
      else s.modifyTcb pathId fun tcb => { tcb with pacing := true }
    let s := if (s.subflow pathId).tcb.pacing then { s with pacingTimer := true } else s
    let isAckOnly := p.length = 0 && withAck
    match s.socketState with
    | .connectingSvr | .open =>
        (some p, { s with connected := true }.modifyTcb pathId
          (onPacketSent · packetNumber isAckOnly))
    | .connectingClt =>
        (some p, s.modifyTcb pathId (onPacketSent · packetNumber isAckOnly))
    | _ => (none, s)

end

end QuicSocketBase

end NtnIab.Quic
