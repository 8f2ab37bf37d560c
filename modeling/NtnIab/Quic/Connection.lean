import NtnIab.Library.Run
import NtnIab.Quic.Conservation
import NtnIab.Quic.Delivery
import NtnIab.Quic.DispatchSend
import NtnIab.Quic.StreamTxFifo

/-!
# A connection from the streams of one end to those of the other

Data is written to the streams of the sender, whose frames go to the transmit buffer of its socket.
The socket puts them into packets, and again if a packet counts as lost. The network may lose,
repeat and reorder packets. The receiver takes the frames out of a packet and gives them to its
streams, which hand on what is in order.

One event is one call of the source, and the calls may come in any order. An iteration of the loop
of `SendPendingData` of a stream is an event of its own. The id of a stream is its position in
`m_streams`.
-/

namespace NtnIab.Quic

/-! ## What was handed on -/

/-- Bytes of streams, in the order in which they came. -/
abbrev StreamLog := List (Nat × List UInt8)

/-- The bytes of one stream. -/
def StreamLog.on (streamId : Nat) (log : StreamLog) : List UInt8 :=
  (log.filter (·.1 = streamId)).flatMap (·.2)

/-! ## Receiving -/

/-- What the socket answers when a packet is dispatched. -/
structure SocketAnswers where
  checkIfPacketOverflowMaxDataLimit : Bool := false
  couldContainTransportParameters : Bool := false
  deriving Repr, DecidableEq

/-- The streams of the receiver, and what they have handed to `QuicL5Protocol::Recv`. -/
structure Receiving where
  l5 : QuicL5Protocol
  received : StreamLog := []
  deriving Repr, DecidableEq

namespace QuicL5Protocol

/-- `CreateStream`, of all streams up to a number. A number that was not negotiated ends the
connection. -/
def createStreamsUpTo (streamDirectionType : QuicStreamDirectionType) (streamNum : Nat)
    (l5 : QuicL5Protocol) : QuicL5Protocol :=
  if streamNum > l5.maxStreamId then l5
  else
    (List.range (streamNum + 1 - l5.streams.length)).foldl
      (fun l5 _ => l5.createStream streamDirectionType) l5

/-- The largest number of a stream that is there or that a frame names. -/
def currStreamNum (frames : List RecvFrame) (l5 : QuicL5Protocol) : Nat :=
  frames.foldl (fun current frame => max current frame.2.streamId) (l5.streams.length - 1)

end QuicL5Protocol

/-- The frame is for a stream, and not for the socket. -/
def forStream (sub : QuicSubheader) : Bool :=
  sub.frameType = .RST_STREAM || sub.frameType = .MAX_STREAM_DATA ||
    sub.frameType = .STREAM_BLOCKED || sub.frameType = .STOP_SENDING || sub.isStream

namespace Receiving

/-- A frame is given to its stream, if there is one that receives. -/
def recvFrame (answers : SocketAnswers) (r : Receiving) (frame : RecvFrame) : Receiving :=
  if forStream frame.2 then
    match r.l5.streams[frame.2.streamId]? with
    | none => r
    | some stream =>
        if stream.receives then
          let (_, stream, outputs) :=
            stream.recv answers.couldContainTransportParameters frame.1 frame.2
          { l5 := { r.l5 with streams := r.l5.streams.set frame.2.streamId stream }
            received :=
              r.received ++ [(frame.2.streamId, QuicStreamBase.delivered outputs)] }
        else r
  else r

/-- `DispatchRecv`. A packet that is read past its end changes nothing. -/
def dispatchRecv (answers : SocketAnswers) (rxFix : Bool) (packet : List UInt8) (r : Receiving) :
    Receiving :=
  match disgregateRecv rxFix packet with
  | none => r
  | some (frames, _) =>
      if answers.checkIfPacketOverflowMaxDataLimit then r
      else
        let l5 := r.l5.createStreamsUpTo .RECEIVER (r.l5.currStreamNum frames)
        frames.foldl (recvFrame answers) { r with l5 }

end Receiving

/-! ## The connection -/

/-- A call of the transmit buffer other than `Add`, which is called for the frames of streams. -/
abbrev SocketCall := { event : TxEvent // ∀ p now, event ≠ .add p now }

/-- The packet that a call puts on the network. -/
def TxRun.sentPacket (r : TxRun) : TxEvent → Option (List UInt8)
  | .nextStream0Sequence seq now => (r.buffer.nextStream0Sequence seq now).1
  | .nextSequence numBytes seq pathId now =>
      some (r.buffer.nextSequence numBytes seq pathId now).1
  | _ => none

/-- Both ends, with what was written to the streams of the sender and the packets that were ever
sent. It stops where the source aborts or reads what is not there. -/
structure Connection where
  sender : QuicL5Protocol
  written : StreamLog := []
  tx : TxRun
  packets : List (List UInt8) := []
  receiving : Receiving
  stopped : Bool := false

inductive ConnectionEvent
  | createStreams
  | send (streamId : Nat) (data : List UInt8)
  | sendPendingFrame (streamId maxPacketSize : Nat) (now : Int) (idle : Bool)
  | setMaxStreamData (streamId maxStreamData : Nat)
  | socket (call : SocketCall)
  | deliver (i : Nat) (answers : SocketAnswers) (rxFix : Bool)

namespace Connection

def start (senderMaxStreamId receiverMaxStreamId : UInt32)
    (senderMaxStreamData receiverMaxStreamData maxBuffer : Nat) : Connection where
  sender :=
    { maxStreamId := senderMaxStreamId.toNat, initialMaxStreamData := senderMaxStreamData }
  tx := TxRun.start maxBuffer
  receiving :=
    { l5 :=
        { maxStreamId := receiverMaxStreamId.toNat
          initialMaxStreamData := receiverMaxStreamData } }

/-- Rewrites a stream of the sender. -/
def setStream (streamId : Nat) (stream : QuicStreamBase) (c : Connection) : Connection :=
  { c with sender := { c.sender with streams := c.sender.streams.set streamId stream } }

/-- `QuicStreamBase::Send` -/
def send (streamId : Nat) (data : List UInt8) (stream : QuicStreamBase) (c : Connection) :
    Connection :=
  match stream.send data with
  | (sent, stream, []) =>
      { c.setStream streamId stream with
        written := if sent = -1 then c.written else c.written ++ [(streamId, data)] }
  | (_, _, _ :: _) => { c with stopped := true }

/-- A frame that the socket refused returns to the buffer of its stream. -/
def refuse (streamId maxPacketSize : Nat) (now : Int) (stream : QuicStreamBase) (c : Connection) :
    Connection :=
  let (frame, txBuffer) := stream.txBuffer.nextSequence (stream.requestSize maxPacketSize)
    (stream.sentSize % 2 ^ 32) now
  if (txBuffer.takeBack frame).isNone then { c with stopped := true }
  else c.setStream streamId (stream.sendIteration maxPacketSize now false).1

/-- An iteration of the loop of `SendPendingData`, with `QuicSocketBase::AppendingTx`. A socket that
is idle takes no frame. -/
def sendPendingFrame (streamId maxPacketSize : Nat) (now : Int) (idle : Bool)
    (stream : QuicStreamBase) (c : Connection) : Connection :=
  if stream.hasPendingData then
    let (sent, handOff) := stream.sendIteration maxPacketSize now true
    let frame := handOff.sub.serialize ++ handOff.payload
    if idle then c.refuse streamId maxPacketSize now stream
    else
      let added := (c.tx.buffer.add frame now).1
      let c := { c with tx := c.tx.step (.add frame now) }
      if added then c.setStream streamId sent
      else c.refuse streamId maxPacketSize now stream
  else c

/-- What a call does to a stream of the sender, if there is one. -/
def onStream (streamId : Nat) (f : QuicStreamBase → Connection → Connection) (c : Connection) :
    Connection :=
  match c.sender.streams[streamId]? with
  | none => c
  | some stream => f stream c

def step (c : Connection) (event : ConnectionEvent) : Connection :=
  if c.stopped then c
  else
    match event with
    | .createStreams => { c with sender := c.sender.createStreams .SENDER }
    | .send streamId data => c.onStream streamId fun stream c => c.send streamId data stream
    | .sendPendingFrame streamId maxPacketSize now idle =>
        c.onStream streamId fun stream c =>
          c.sendPendingFrame streamId maxPacketSize now idle stream
    | .setMaxStreamData streamId maxStreamData =>
        c.onStream streamId fun stream c =>
          c.setStream streamId (stream.setMaxStreamData maxStreamData)
    | .socket call =>
        { c with
          tx := c.tx.step call.1
          packets := c.packets ++ (c.tx.sentPacket call.1).toList }
    | .deliver i answers rxFix =>
        match c.packets[i]? with
        | none => c
        | some packet =>
            { c with receiving := c.receiving.dispatchRecv answers rxFix packet }

end Connection

end NtnIab.Quic
