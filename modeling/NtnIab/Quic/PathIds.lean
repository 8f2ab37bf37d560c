import NtnIab.Quic.SocketBase

/-!
# The paths of a connection

A server opens a path for each of its other interfaces and announces it with an ADD_ADDRESS frame.
The client appends a subflow for the announced path and sends a PATH_CHALLENGE on it, which the
server answers with a PATH_RESPONSE. Both ends index the list of subflows and the lists of sent
packets with the id of the path. The network holds every packet that was ever sent, and delivers
any of them at any time, any number of times.
-/

namespace NtnIab.Quic

open QuicSocketBase

/-! ## Packets -/

inductive PacketType
  | initial
  | handshake
  | zeroRtt
  | short
  deriving Repr, DecidableEq

/-- The frames that name a path or validate one. The rest of a packet is data. -/
inductive PathFrame
  | addAddress (address : InetSocketAddress) (pathId : Nat)
  | pathChallenge (data : Nat)
  | pathResponse (data : Nat)
  | mpAck (sub : QuicSubheader)
  | data (bytes : List UInt8)
  deriving Repr, DecidableEq

structure PathPacket where
  packetType : PacketType := .short
  packetNumber : Nat
  pathId : Nat
  source : InetSocketAddress
  frames : List PathFrame
  deriving Repr, DecidableEq

/-! ## One end -/

/-- A socket, the addresses of its node's interfaces, the paths with an ACK to send or an alarm for
retransmissions, and all the packets it sent. `outOfRange` records that a list was indexed with an
id that is no position of it. -/
structure Endpoint where
  socket : QuicSocketBase := {}
  interfaces : List UInt32
  localPort : UInt16 := 0
  enableMultipath : Bool := false
  initialCWnd : Nat := 0
  maxTrackedGaps : Nat := 20
  allow0RTT : Bool := false
  lossState : QuicSocketState := {}
  currentPathId : Nat := 0
  currentFromAddress : InetSocketAddress := {}
  ackPaths : List Nat := []
  armedPaths : List Nat := []
  sent : List PathPacket := []
  outOfRange : Bool := false

namespace Endpoint

/-- An access of `m_subflows[pathId]`. -/
def touchSubflow (pathId : Nat) (e : Endpoint) : Endpoint :=
  if pathId < e.socket.subflows.length then e else { e with outOfRange := true }

/-- An access of `m_subflowSentList[pathId]`. -/
def touchSentList (pathId : Nat) (e : Endpoint) : Endpoint :=
  if pathId < e.socket.txBuffer.subflowSentList.length then e else { e with outOfRange := true }

/-- `SubflowInsert` -/
def subflowInsert (sflow : MpQuicPath) (e : Endpoint) : Endpoint :=
  { e with socket := { e.socket with subflows := e.socket.subflows ++ [sflow] } }

/-- Sends a packet with the next number of the path that has it. -/
def sendPacket (packetType : PacketType) (pathId : Nat) (frames : List PathFrame) (e : Endpoint) :
    Endpoint :=
  let e := e.touchSubflow pathId
  let (packetNumber, socket) := e.socket.nextPacketNumber pathId
  let source := (socket.subflow pathId).localAddr
  { e with
    socket
    sent := e.sent ++ [{ packetType, packetNumber, pathId, source, frames }] }

def sendAddAddress (address : InetSocketAddress) (pathId : Nat) (e : Endpoint) : Endpoint :=
  e.sendPacket .short 0 [.addAddress address pathId]

def sendPathChallenge (pathId : Nat) (e : Endpoint) : Endpoint :=
  e.sendPacket .short pathId [.pathChallenge pathId]

def sendPathResponse (pathId : Nat) (e : Endpoint) : Endpoint :=
  e.sendPacket .short pathId [.pathResponse pathId]

/-- A subflow that is not validated yet. -/
def newSubflow (localAddr peerAddr : InetSocketAddress) (pathId : Nat) (e : Endpoint) :
    MpQuicPath :=
  { flowId := pathId, localAddr, peerAddr, tcb := { cWnd := e.initialCWnd } }

/-- `AddSubflow` -/
def addSubflow (localAddr peerAddr : InetSocketAddress) (pathId : Nat) (e : Endpoint) : Endpoint :=
  (e.subflowInsert (e.newSubflow localAddr peerAddr pathId)).sendAddAddress localAddr pathId

/-- `AddSubflowWithPeerAddress` -/
def addSubflowWithPeerAddress (localAddr peerAddr : InetSocketAddress) (pathId : Nat)
    (e : Endpoint) : Endpoint :=
  (e.subflowInsert (e.newSubflow localAddr peerAddr pathId)).sendPathChallenge pathId

/-- An iteration of `CreateNewSubflows`, for interface `num`. A path id has 8 bits. -/
def createNewSubflow (e : Endpoint) (num : Nat) : Endpoint :=
  let localAddr := ⟨e.interfaces.getD num 0, e.localPort + .ofNat num - 1⟩
  e.addSubflow localAddr e.currentFromAddress ((num - 1) % 2 ^ 8)

/-- `CreateNewSubflows`: interface 0 is the loopback, and path 0 uses interface 1. -/
def createNewSubflows (e : Endpoint) : Endpoint :=
  let addrNum := e.interfaces.length
  if e.enableMultipath ∧ addrNum > 2 then
    (List.range' 2 (addrNum - 2)).foldl createNewSubflow { e with allow0RTT := true }
  else e

/-! ### Frames -/

/-- `OnReceivedAddAddressFrame` -/
def onReceivedAddAddressFrame (address : InetSocketAddress) (pathId : Nat) (e : Endpoint) :
    Endpoint :=
  if pathId + 1 ≥ e.interfaces.length then e
  else
    let localAddr := ⟨e.interfaces.getD (pathId + 1) 0, address.port⟩
    { e with allow0RTT := true }.addSubflowWithPeerAddress localAddr address pathId

/-- Makes the path of the current packet Active, and gives it a list of sent packets. -/
def activate (e : Endpoint) : Endpoint :=
  let e := e.touchSubflow e.currentPathId
  { e with
    socket := { e.socket with
      subflows := e.socket.subflows.modify e.currentPathId fun subflow =>
        { subflow with subflowState := .active }
      txBuffer := e.socket.txBuffer.addSentList e.currentPathId } }

/-- `OnReceivedPathChallengeFrame` -/
def onReceivedPathChallengeFrame (e : Endpoint) : Endpoint :=
  let subflows := e.socket.subflows.modify e.currentPathId fun subflow =>
    { subflow with peerAddr := e.currentFromAddress }
  ({ e with socket := { e.socket with subflows } }.activate).sendPathResponse e.currentPathId

/-- `OnReceivedPathResponseFrame` -/
def onReceivedPathResponseFrame (e : Endpoint) : Endpoint := e.activate

/-- `OnReceivedAckFrame`. A corrupted frame ends the simulation. -/
def onReceivedMpAckFrame (sub : QuicSubheader) (e : Endpoint) : Endpoint :=
  if sub.pathId ≥ e.socket.subflows.length then e
  else
    let e := e.touchSentList sub.pathId
    match onReceivedAckFrame e.lossState e.socket.subflows.length e.socket.now sub
      e.socket.txBuffer with
    | none => e
    | some (_, txBuffer) => { e with socket := { e.socket with txBuffer } }

/-- `OnReceivedFrame` -/
def onReceivedFrame (e : Endpoint) : PathFrame → Endpoint
  | .addAddress address pathId => e.onReceivedAddAddressFrame address pathId
  | .pathChallenge _ => e.onReceivedPathChallengeFrame
  | .pathResponse _ => e.onReceivedPathResponseFrame
  | .mpAck sub => e.onReceivedMpAckFrame sub
  | .data _ => e

/-! ### Packets -/

/-- The end that handles the frames of the packet, and the state it is in afterwards. A packet of
an unknown path is dropped, and so is one that the state does not allow. -/
def accepts (pkt : PathPacket) (e : Endpoint) : Option (Endpoint × SocketState) :=
  if pkt.pathId ≥ e.socket.subflows.length then none
  else
    let e := { e with currentPathId := pkt.pathId, currentFromAddress := pkt.source }
    if e.socket.drainingPeriodEvent then none
    else
      match pkt.packetType, e.socket.socketState with
      | .zeroRtt, .listening => some (e, .open)
      | .initial, .connectingSvr => some (e, .connectingSvr)
      | .handshake, .connectingClt => some (e, .open)
      | .handshake, .connectingSvr => some (e.createNewSubflows, .open)
      | .short, .open => some (e, .open)
      | .short, .connectingSvr => some (e.createNewSubflows, .open)
      | _, _ => none

/-- The number of the packet is kept, and an ACK is queued. -/
def queueAck (pkt : PathPacket) (e : Endpoint) : Endpoint :=
  let e := e.touchSubflow pkt.pathId
  { e with
    socket := { e.socket with
      subflows := e.socket.subflows.modify pkt.pathId fun subflow =>
        { subflow with
          receivedPacketNumbers := insertReceived pkt.packetNumber subflow.receivedPacketNumbers } }
    ackPaths := pkt.pathId :: e.ackPaths }

/-- `ReceivedData` -/
def receivedData (pkt : PathPacket) (e : Endpoint) : Endpoint :=
  match e.accepts pkt with
  | none => e
  | some (accepting, socketState) =>
      let e := (pkt.frames.foldl onReceivedFrame accepting).queueAck pkt
      { e with socket := { e.socket with socketState } }

/-! ### Sending -/

/-- The ACK frame of a path, if there is one to send. -/
def ackFrames (pathId ackDelay maxData : Nat) (e : Endpoint) : List PathFrame × Endpoint :=
  match onSendingAckFrame e.maxTrackedGaps pathId ackDelay maxData
    (e.socket.subflow pathId).toMpQuicSubFlow with
  | none => ([], e)
  | some (subs, acked) =>
      (subs.map fun sub => if sub.frameType = .MP_ACK then .mpAck sub else .data sub.serialize,
        { e with socket := { e.socket with
            subflows := e.socket.subflows.modify pathId fun subflow =>
              { subflow with toMpQuicSubFlow := acked } } })

/-- `SendAck`, by the timer of the path. -/
def sendAck (pathId ackDelay maxData : Nat) (e : Endpoint) : Endpoint :=
  if pathId ∈ e.ackPaths then
    let e := e.touchSubflow pathId
    let (frames, e) := e.ackFrames pathId ackDelay maxData
    if frames = [] then e else e.sendPacket .short pathId frames
  else e

/-- The type of the next data packet. -/
def dataPacketType (e : Endpoint) : PacketType :=
  match e.socket.socketState with
  | .connectingSvr => .handshake
  | .connectingClt => .initial
  | _ =>
      if e.socket.connected then .short
      else if e.allow0RTT then .zeroRtt
      else .handshake

/-- Sends a data packet on a path: one below the number of Active subflows, as `SendPendingData`
does, or one whose retransmission alarm goes off. -/
def sendData (onPacketSent : Tcb → Nat → Bool → Tcb) (maxSize pathId ackDelay maxData : Nat)
    (e : Endpoint) : Endpoint :=
  if pathId < max 1 e.socket.getActiveSubflows.length ∨ pathId ∈ e.armedPaths then
    let e := (e.touchSubflow pathId).touchSentList pathId
    let packetType := e.dataPacketType
    let (packetNumber, socket) := e.socket.nextPacketNumber pathId
    let result := socket.sendDataPacket onPacketSent packetNumber maxSize true pathId
    let e := { e with socket := result.2, armedPaths := pathId :: e.armedPaths }
    match result.1 with
    | none => e
    | some bytes =>
        let (acks, e) := e.ackFrames pathId ackDelay maxData
        let source := (e.socket.subflow pathId).localAddr
        let frames := .data bytes :: acks
        { e with sent := e.sent ++ [{ packetType, packetNumber, pathId, source, frames }] }
  else e

end Endpoint

/-! ## Both ends -/

inductive Side
  | server
  | client
  deriving Repr, DecidableEq

/-- What happens next, at one of the ends. -/
inductive PathEvent
  /-- The packet that the other end sent as its `k`-th arrives. -/
  | deliver (side : Side) (k : Nat)
  | sendData (side : Side) (maxSize pathId ackDelay maxData : Nat)
  | sendAck (side : Side) (pathId ackDelay maxData : Nat)

/-- The two ends. The network holds all the packets they sent. -/
structure PathRun where
  server : Endpoint
  client : Endpoint

namespace PathRun

def endpoint (r : PathRun) : Side → Endpoint
  | .server => r.server
  | .client => r.client

def other : Side → Side
  | .server => .client
  | .client => .server

def update (r : PathRun) (f : Endpoint → Endpoint) : Side → PathRun
  | .server => { r with server := f r.server }
  | .client => { r with client := f r.client }

/-- The packet that arrives. -/
def packet (r : PathRun) (side : Side) (k : Nat) : Option PathPacket :=
  (r.endpoint (other side)).sent[k]?

def step (onPacketSent : Tcb → Nat → Bool → Tcb) (r : PathRun) : PathEvent → PathRun
  | .deliver side k =>
      match r.packet side k with
      | none => r
      | some pkt => r.update (Endpoint.receivedData pkt) side
  | .sendData side maxSize pathId ackDelay maxData =>
      r.update (Endpoint.sendData onPacketSent maxSize pathId ackDelay maxData) side
  | .sendAck side pathId ackDelay maxData =>
      r.update (Endpoint.sendAck pathId ackDelay maxData) side

end PathRun

end NtnIab.Quic
