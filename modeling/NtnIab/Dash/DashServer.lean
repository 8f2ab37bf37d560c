import Mathlib.Logic.Function.Basic
import NtnIab.Dash.Headers

/-!
# The server of the DASH application

The server reads requests from the sockets it accepted, and queues the frames of the segment that
was asked for. The frames of a socket are handed to it as its transmit buffer takes them: a frame
that does not fit is cut, and its rest waits at the front of the queue. Bytes of a request that is
not whole are kept for each socket.

What is outside the server is a parameter or an input: what a socket answers, the sizes that the
random variable draws, and the time.
-/

namespace NtnIab.Dash

/-- A socket that the server accepted. -/
abbrev SocketId := Nat

/-! ## Sending -/

/-- What a socket answers in an iteration of `DataSend`: the room in its transmit buffer, and what
`Send` returns if it is called. -/
structure SendAnswer where
  txAvailable : Nat
  result : Int
  deriving Repr, DecidableEq

/-- What `DataSend` leaves: the queue of the socket, the packets that it called `Send` with, each
with the result of the call, and the number of calls of itself that it scheduled. -/
structure SendResult where
  queue : List (List UInt8)
  sends : List (List UInt8 × Int) := []
  retries : Nat := 0
  deriving Repr, DecidableEq

namespace DashServer

/-- The packet that an iteration hands to the socket, and the queue it leaves. -/
def nextPacket (maxTxSize : Nat) (frame : List UInt8) (rest : List (List UInt8)) :
    List UInt8 × List (List UInt8) :=
  if maxTxSize < frame.length then (frame.take maxTxSize, frame.drop maxTxSize :: rest)
  else (frame, rest)

/-- `DataSend`, on the queue of the socket. After the last answer the transmit buffer is full. -/
def dataSend : List SendAnswer → List (List UInt8) → SendResult
  | _, [] => { queue := [] }
  | [], queue => { queue }
  | answer :: answers, frame :: rest =>
      if answer.txAvailable ≤ 0 then { queue := frame :: rest }
      else
        let (packet, queue) := nextPacket answer.txAvailable frame rest
        let result := dataSend answers queue
        -- the result is an int, and compared as a number of 32 bits without a sign
        let bytes := (answer.result % 2 ^ 32).toNat
        { result with
          sends := (packet, answer.result) :: result.sends
          retries := if bytes < packet.length then result.retries + 1 else result.retries }

/-- What a call of `SendSegment` finds outside: the time, the size that the random variable draws
for a frame when its maximum is given, and the answers of the socket. -/
structure SegmentInput where
  now : UInt64 := 0
  frameSize : Int → UInt32 → UInt32 := fun _ _ => 0
  answers : List SendAnswer := []

/-- The maximum of the random variable. -/
def maxFrameSize (resolution : UInt32) : Int :=
  let fps := 1000 / MPEG_TIME_BETWEEN_FRAMES
  let avgPacketsize : Int := resolution.toNat / (fps * 8)
  max (2 * avgPacketsize - (MPEGHeader.serializedSize + HTTPHeader.serializedSize)) 1

/-- A frame of a segment. -/
def segmentFrame (videoId resolution segmentId : UInt32) (now : UInt64)
    (frameId frameSize : UInt32) : List UInt8 :=
  let httpHeader : HTTPHeader :=
    { ts := now, messageType := HTTP_RESPONSE, videoId, resolution, segmentId }
  let playbackMs :=
    (frameId + segmentId * MPEG_FRAMES_PER_SEGMENT) * UInt32.ofNat MPEG_TIME_BETWEEN_FRAMES
  let mpegHeader : MPEGHeader :=
    { ts := now, frameId, playbackTime := playbackMs.toUInt64 * 1000000, type := 66,
      size := frameSize }
  httpHeader.serialize ++ (mpegHeader.serialize ++ List.replicate frameSize.toNat 0)

/-- The frames that `SendSegment` queues. -/
def segmentFrames (videoId resolution segmentId : UInt32) (input : SegmentInput) :
    List (List UInt8) :=
  (List.range MPEG_FRAMES_PER_SEGMENT.toNat).map fun frameId =>
    segmentFrame videoId resolution segmentId input.now (UInt32.ofNat frameId)
      (input.frameSize (maxFrameSize resolution) (UInt32.ofNat frameId))

/-- The sending half of the server: the queue of each socket, the packets handed to the socket with
the results of the calls, and the calls of `DataSend` that were scheduled. -/
structure Sending where
  queues : SocketId → List (List UInt8) := fun _ => []
  sends : SocketId → List (List UInt8 × Int) := fun _ => []
  retries : SocketId → Nat := fun _ => 0

namespace Sending

/-- `DataSend` -/
def dataSend (socket : SocketId) (answers : List SendAnswer) (s : Sending) : Sending :=
  let result := DashServer.dataSend answers (s.queues socket)
  { queues := Function.update s.queues socket result.queue
    sends := Function.update s.sends socket (s.sends socket ++ result.sends)
    retries := Function.update s.retries socket (s.retries socket + result.retries) }

def enqueue (socket : SocketId) (frames : List (List UInt8)) (s : Sending) : Sending :=
  { s with queues := Function.update s.queues socket (s.queues socket ++ frames) }

/-- `SendSegment` -/
def sendSegment (videoId resolution segmentId : UInt32) (socket : SocketId) (input : SegmentInput)
    (s : Sending) : Sending :=
  (s.enqueue socket (segmentFrames videoId resolution segmentId input)).dataSend socket
    input.answers

end Sending

/-- The sending half, with what the next calls of `SendSegment` find outside. -/
abbrev SendingHalf := Sending × List SegmentInput

/-- `SendSegment`, as `HandleRead` calls it. -/
def sendNextSegment (videoId resolution segmentId : UInt32) (socket : SocketId)
    (s : SendingHalf) : SendingHalf :=
  (s.1.sendSegment videoId resolution segmentId socket (s.2.headD {}), s.2.tail)

/-- The queue of a socket is erased. -/
def eraseQueue (socket : SocketId) (s : SendingHalf) : SendingHalf :=
  ({ s.1 with queues := Function.update s.1.queues socket [] }, s.2)

end DashServer

/-! ## Reading -/

/-- The server. `sending` is its sending half, with what `SendSegment` reads and changes. -/
structure DashServer (σ : Type*) where
  totalRx : UInt32 := 0
  pendingPackets : SocketId → Option (List UInt8) := fun _ => none
  sending : σ

namespace DashServer

section
variable {σ : Type*} (sendSegment : UInt32 → UInt32 → UInt32 → SocketId → σ → σ)

/-- The inner loop of `HandleRead`, on the pending packet of the socket. -/
def takeRequests (socket : SocketId) (header : HTTPHeader) (pending : List UInt8) (sending : σ) :
    Option (List UInt8) × σ :=
  if ¬ pending.length ≥ HTTPHeader.serializedSize then (some pending, sending)
  else
    let (removed, header) := header.deserialize pending
    if removed ≠ HTTPHeader.serializedSize then (none, sending)
    else
      let sending :=
        if header.messageType = HTTP_REQUEST then
          sendSegment header.videoId header.resolution header.segmentId socket sending
        else sending
      takeRequests socket header (pending.drop HTTPHeader.serializedSize) sending
termination_by pending.length
decreasing_by
  have hsize : 0 < HTTPHeader.serializedSize := by decide
  simp only [List.length_drop]
  omega

/-- An iteration of the outer loop of `HandleRead`, on a packet from the socket. -/
def readPacket (socket : SocketId) (now : UInt64) (s : DashServer σ) (packet : List UInt8) :
    DashServer σ :=
  let pending :=
    match s.pendingPackets socket with
    | none => packet
    | some pending => pending ++ packet
  let (pending, sending) := takeRequests sendSegment socket { ts := now } pending s.sending
  { totalRx := s.totalRx + UInt32.ofNat packet.length
    pendingPackets := Function.update s.pendingPackets socket
      (if pending = some [] then none else pending)
    sending }

/-- `HandleRead`, on a socket whose `RecvFrom` returns the packets `rx` one by one. -/
def handleRead (socket : SocketId) (now : UInt64) (rx : List (List UInt8)) (s : DashServer σ) :
    DashServer σ :=
  rx.foldl (readPacket sendSegment socket now) s

end

/-- `HandlePeerClose` and `HandlePeerError`. `eraseQueue` is what they do to the sending half. -/
def handlePeerClose {σ : Type*} (eraseQueue : SocketId → σ → σ) (socket : SocketId)
    (s : DashServer σ) : DashServer σ :=
  { s with
    pendingPackets := Function.update s.pendingPackets socket none
    sending := eraseQueue socket s.sending }

end DashServer

end NtnIab.Dash
