import NtnIab.Dash.Chunking
import NtnIab.Dash.RequestFraming
import NtnIab.Dash.SendQueue

/-!
# Streaming over byte channels

Clients write request headers to their connections, and the server answers each request with the
frames of a segment. A connection is a channel of bytes in each direction: what was written comes
out in order, in packets that may be cut anywhere. The server has a queue for each connection, out
of which its socket takes packets as it has room; the client reads whenever it likes, and its player
may refuse a frame for a while.

The server is that of the requests and of the send queue together, a client is a reader. A request
that `Send` does not take is none: it is written to the channel whole or not at all.
-/

namespace NtnIab.Dash

open DashServer ResponseFrame

/-- The server with its sockets, what each client wrote, and the readers of the clients. -/
structure Streaming where
  requests : RequestRun SendingHalf := RequestRun.start ({}, [])
  asked : SocketId → List HTTPHeader := fun _ => []
  readers : SocketId → Reader := fun _ => {}

inductive StreamingEvent
  /-- `SendSegmentRequest` or `SendBlank` -/
  | ask (client : SocketId) (header : HTTPHeader)
  | toServer (client : SocketId) (numBytes : Nat)
  /-- The inputs are what the calls of `SendSegment` find outside. -/
  | serverRead (client : SocketId) (now : UInt64) (inputs : List SegmentInput)
  | serverSend (client : SocketId) (answers : List SendAnswer)
  | toClient (client : SocketId) (numBytes : Nat)
  | clientRead (client : SocketId) (answers : List Bool)
  | close (client : SocketId)

namespace Streaming

/-- The sending half of the server. -/
def sending (x : Streaming) : Sending := x.requests.server.sending.1.1

/-- The calls of `SendSegment` for a client. -/
def calls (x : Streaming) (client : SocketId) : List SegmentCall := x.requests.calls client

def changeSending (f : SendingHalf → SendingHalf) (x : Streaming) : Streaming :=
  let server := x.requests.server
  { x with
    requests :=
      { x.requests with
        server := { server with sending := (f server.sending.1, server.sending.2) } } }

def requestEvent (event : RequestEvent) (x : Streaming) : Streaming :=
  { x with requests := x.requests.step sendNextSegment DashServer.eraseQueue event }

def readEvent (client : SocketId) (event : ReadEvent) (x : Streaming) : Streaming :=
  { x with
    readers := Function.update x.readers client ((x.readers client).step event) }

/-- The bytes on their way to the server. -/
def upstream (x : Streaming) (client : SocketId) : List UInt8 :=
  ((x.asked client).flatMap HTTPHeader.serialize).drop (x.requests.arrived client).length

/-- The bytes on their way to the client. -/
def downstream (x : Streaming) (client : SocketId) : List UInt8 :=
  (acceptedBytes (x.sending.sends client)).drop (x.readers client).arrived.flatten.length

def step (x : Streaming) : StreamingEvent → Streaming
  | .ask client header =>
      { x with asked := Function.update x.asked client (x.asked client ++ [header]) }
  | .toServer client numBytes =>
      x.requestEvent (.arrive client ((x.upstream client).take numBytes))
  | .serverRead client now inputs =>
      (x.changeSending fun sending => (sending.1, inputs)).requestEvent (.read client now)
  | .serverSend client answers =>
      x.changeSending fun sending => (sending.1.dataSend client answers, sending.2)
  | .toClient client numBytes =>
      x.readEvent client (.arrive ((x.downstream client).take numBytes))
  | .clientRead client answers => x.readEvent client (.read answers)
  | .close client => x.requestEvent (.close client)

end Streaming

/-! ## What a client asks for -/

/-- What tells the frames of a video from each other. -/
structure FrameTag where
  videoId : UInt32
  resolution : UInt32
  segmentId : UInt32
  frameId : UInt32
  deriving Repr, DecidableEq

def ResponseFrame.tag (fr : ResponseFrame) : FrameTag where
  videoId := fr.http.videoId
  resolution := fr.http.resolution
  segmentId := fr.http.segmentId
  frameId := fr.mpeg.frameId

/-- The frames of the segment that a call is for, in their order. -/
def DashServer.SegmentCall.tags (call : SegmentCall) : List FrameTag :=
  (List.range MPEG_FRAMES_PER_SEGMENT.toNat).map fun frameId =>
    { videoId := call.videoId
      resolution := call.resolution
      segmentId := call.segmentId
      frameId := UInt32.ofNat frameId }

/-- The frames that answer the requests among some headers. -/
def answerTags (client : SocketId) (headers : List HTTPHeader) : List FrameTag :=
  (callsFor client headers).flatMap SegmentCall.tags

end NtnIab.Dash
