import NtnIab.Dash.Chunking
import NtnIab.Dash.DashServer
import NtnIab.Dash.Session

/-!
# A client, a server and the messages between them

A request goes to the server, which answers it with the frames of the segment. The frames come to
the parser of the client in the order in which the server queued them, and the parser offers them
to the application one by one; a frame that does not fit into the buffer of the player stays in the
parser. When a frame comes, when a request is lost and when the timers fire is not known: these are
the events of a run.

A message is a whole here. How the bytes of the messages are cut on their way and put together
again is left to the modules about the queue of the server and about the parser.
-/

namespace NtnIab.Dash

/-- The segment and the frame that a message is about. -/
abbrev FrameKey := UInt32 × UInt32

def frameKey (message : List UInt8) : Option FrameKey :=
  (removeHeaders message).map fun (http, mpeg) => (http.segmentId, mpeg.frameId)

def lastFrameId : UInt32 := MPEG_FRAMES_PER_SEGMENT - 1

/-! ## The messages -/

/-- The messages between the two ends of a connection, and what happened to those that came. -/
structure Link where
  /-- The requests that the server has not read, as pairs of segment and rate. -/
  upstream : List (Nat × Nat) := []
  /-- The frames that the parser has not read, those in the queue of the server included. -/
  downstream : List (List UInt8) := []
  /-- The frames in the parser. It outlives the connection. -/
  parser : List (List UInt8) := []
  /-- The segments that the server was asked for. -/
  served : List Nat := []
  /-- The frames that the player took. -/
  pushed : List FrameKey := []
  /-- The segments whose last frame made the client go on, each with the segment that the client
  waited for. -/
  completed : List (Nat × Nat) := []
  deriving DecidableEq

namespace Link

def send (l : Link) (requests : List (Nat × Nat)) : Link :=
  { l with upstream := l.upstream ++ requests }

def reset (l : Link) : Link := { l with upstream := [], downstream := [] }

/-- A request whose `Send` failed, or that the network lost. -/
def requestLost (l : Link) (i : Nat) : Link := { l with upstream := l.upstream.eraseIdx i }

/-- The server reads a request and queues the frames of its segment. -/
def handleRead (l : Link) (videoId : UInt32) (input : DashServer.SegmentInput) : Link :=
  match l.upstream with
  | [] => l
  | (segmentId, bitrate) :: rest =>
      { l with
        upstream := rest
        served := l.served ++ [segmentId]
        downstream := l.downstream ++
          DashServer.segmentFrames videoId (.ofNat bitrate) (.ofNat segmentId) input }

/-- A frame comes to the parser. -/
def readSocket (l : Link) : Link :=
  match l.downstream with
  | [] => l
  | message :: rest => { l with downstream := rest, parser := l.parser ++ [message] }

def push (l : Link) (key : FrameKey) : Link := { l with pushed := l.pushed ++ [key] }

def complete (l : Link) (segmentId pendingSegmentId : Nat) : Link :=
  { l with completed := l.completed ++ [(segmentId, pendingSegmentId)] }

/-! ### The request chains -/

/-- The frames that the player has not got. -/
def keys (l : Link) : List FrameKey := (l.parser ++ l.downstream).filterMap frameKey

/-- The segments of which a last frame is still to come: one for each request that the server has
not read, and one for each last frame on its way. -/
def awaited (l : Link) : List Nat :=
  l.upstream.map Prod.fst ++
    (l.keys.filter fun key => key.2 = lastFrameId).map fun key => key.1.toNat

/-- At most one chain of requests is active, no frame was pushed twice, and the client went on only
with the last frame of the segment it waited for. -/
structure SingleChain (l : Link) : Prop where
  oneActive : l.awaited.length ≤ 1
  pushedOnce : l.pushed.Nodup
  ownCompletion : ∀ c ∈ l.completed, c.1 = c.2

end Link

/-! ## The client, the server and the player -/

structure Exchange (K : Type) where
  session : Session K
  player : MpegPlayer
  videoId : UInt32
  link : Link

inductive ExchangeEvent
  | connectionSucceeded (now : Nat)
  /-- The connection failed, closed with an error or is set up again. -/
  | connectionReset
  | stopApplication
  /-- A scheduled request, or that of a player that runs empty. -/
  | requestSegment (now : Nat)
  | segmentRequestWatchdog
  | forecastDisruption (estimatedTime estimatedDuration : Int) (frames : Nat)
  | calcedDisruption
  | requestLost (i : Nat)
  | handleRead (input : DashServer.SegmentInput)
  | readSocket
  /-- The parser offers its first frame; the size is that of the serialized packet. -/
  | tryToPushToPlayer (now serializedSize : Nat)
  | playFrame (now : Nat)

namespace Exchange

variable {K : Type} [Field K] [LinearOrder K]

/-- An event of the client, and the requests that it hands to the socket. -/
def clientStep (m : MathFunctions K) (x : Exchange K) (event : SessionEvent) :
    Except Fault (Exchange K) := do
  let session ← x.session.step m event
  let sent := session.client.requests.drop x.session.client.requests.length
  pure { x with session, link := x.link.send sent }

/-- A frame that the player took. The last one of a segment makes the client go on, unless the
player is done. -/
def frameTaken (m : MathFunctions K) (x : Exchange K) (now : Nat) (message : List UInt8)
    (http : HTTPHeader) (mpeg : MPEGHeader) : Except Fault (Exchange K) :=
  let last := mpeg.frameId = lastFrameId ∧ x.player.state ≠ .done
  let link := x.link.push (http.segmentId, mpeg.frameId)
  let link :=
    if last then link.complete http.segmentId.toNat x.session.client.pendingSegmentId else link
  { x with link }.clientStep m
    (.messageReceived now message.length last
      (x.player.getRealPlayTime now mpeg.playbackTime.toNat) x.player.framesPlayed.toNat)

/-- `MessageReceived`: the answer to the parser, and what the message changes. -/
def messageReceived (m : MathFunctions K) (x : Exchange K) (now serializedSize : Nat)
    (message : List UInt8) : Except Fault (Bool × Exchange K) :=
  if message.length < HttpParser.headersize then pure (true, x)
  else
    match removeHeaders message with
    | none => pure (true, x)
    | some (http, mpeg) =>
        if http.messageType ≠ HTTP_RESPONSE ∨ mpeg.frameId ≥ MPEG_FRAMES_PER_SEGMENT ∨
            HttpParser.messageSize mpeg ≠ message.length then
          pure (true, x)
        else
          match x.player.receiveFrame now { bytes := message, serializedSize } with
          | (false, _) => pure (false, x)
          | (true, player) => do
              let x ← { x with player }.frameTaken m now message http mpeg
              pure (true, x)

/-- The parser takes the bytes at its front for a message. -/
def readable (message : List UInt8) : Bool :=
  match removeHeaders message with
  | none => false
  | some (http, mpeg) =>
      !HttpParser.invalidHeaders http mpeg &&
        HttpParser.headersize ≤ HttpParser.messageSize mpeg &&
        HttpParser.messageSize mpeg ≤ HttpParser.headersize + MAX_REASONABLE_FRAME_PAYLOAD

/-- An iteration of `TryToPushToPlayer`: a frame that is taken leaves the parser. If its headers
make no sense, all that the parser holds is dropped. -/
def tryToPushToPlayer (m : MathFunctions K) (x : Exchange K) (now serializedSize : Nat) :
    Except Fault (Exchange K) :=
  match x.link.parser with
  | [] => pure x
  | message :: rest =>
      if readable message then do
        let (taken, x) ← x.messageReceived m now serializedSize message
        pure (if taken then { x with link := { x.link with parser := rest } } else x)
      else pure { x with link := { x.link with parser := [] } }

def handle (m : MathFunctions K) (x : Exchange K) : ExchangeEvent → Except Fault (Exchange K)
  | .connectionSucceeded now => x.clientStep m (.connectionSucceeded now)
  | .connectionReset => { x with link := x.link.reset }.clientStep m .connectionReset
  | .stopApplication => { x with player := x.player.stop }.clientStep m .stopApplication
  | .requestSegment now => x.clientStep m (.requestSegment now)
  | .segmentRequestWatchdog => x.clientStep m .segmentRequestWatchdog
  | .forecastDisruption estimatedTime estimatedDuration frames =>
      x.clientStep m (.forecastDisruption estimatedTime estimatedDuration frames)
  | .calcedDisruption => x.clientStep m .calcedDisruption
  | .requestLost i => pure { x with link := x.link.requestLost i }
  | .handleRead input => pure { x with link := x.link.handleRead x.videoId input }
  | .readSocket => pure { x with link := x.link.readSocket }
  | .tryToPushToPlayer now serializedSize => x.tryToPushToPlayer m now serializedSize
  | .playFrame now =>
      pure { x with player := (x.player.firePlayFrame x.session.client.requestPending now).1 }

/-- A step of a run, which a fault ends. -/
def step (m : MathFunctions K) (state : Except Fault (Exchange K)) (event : ExchangeEvent) :
    Except Fault (Exchange K) :=
  state >>= fun x => x.handle m event

/-- A client that has not requested anything. -/
def start (session : Session K) (player : MpegPlayer) (videoId : UInt32) : Exchange K :=
  { session, player, videoId, link := {} }

end Exchange

end NtnIab.Dash
