import NtnIab.Dash.MpegPlayer

/-!
# The HTTP parser of the DASH client

The parser keeps the bytes of the message it is reading. A call reads at most one packet from the
socket and offers every complete message at the front of its bytes to the application, which may
refuse it. The application is a parameter: its state and its answer to a message.
-/

namespace NtnIab.Dash

def MAX_REASONABLE_FRAME_PAYLOAD : Nat := 2 * 1024 * 1024

structure HttpParser where
  pendingPacket : Option (List UInt8) := none
  pendingMessageSize : Nat := 0
  deriving Repr, DecidableEq

namespace HttpParser

/-- The size of the two headers of a message. -/
def headersize : Nat := MPEGHeader.serializedSize + HTTPHeader.serializedSize

/-- The header fields make no sense. -/
def invalidHeaders (http : HTTPHeader) (mpeg : MPEGHeader) : Bool :=
  http.messageType ≠ HTTP_RESPONSE || mpeg.frameId ≥ MPEG_FRAMES_PER_SEGMENT ||
    mpeg.size.toNat > MAX_REASONABLE_FRAME_PAYLOAD

/-- The size of a message, in 32 bits. -/
def messageSize (mpeg : MPEGHeader) : Nat := (headersize + mpeg.size.toNat) % 2 ^ 32

section
variable {σ : Type*} (messageReceived : σ → List UInt8 → Bool × σ)

/-- `TryToPushToPlayer`, on the pending packet: the parser, the application, and the messages it
took. Bytes whose headers make no sense are dropped. -/
def tryToPushToPlayer (pending : List UInt8) (pendingMessageSize : Nat) (app : σ) :
    HttpParser × σ × List (List UInt8) :=
  if pending.length < headersize then
    ({ pendingPacket := some pending, pendingMessageSize }, app, [])
  else
    match removeHeaders pending with
    | none => ({}, app, [])
    | some (http, mpeg) =>
        if invalidHeaders http mpeg then ({}, app, [])
        else
          let size := messageSize mpeg
          if size < headersize ∨ size > headersize + MAX_REASONABLE_FRAME_PAYLOAD then ({}, app, [])
          else if pending.length < size then
            ({ pendingPacket := some pending, pendingMessageSize := size }, app, [])
          else
            let (taken, app) := messageReceived app (pending.take size)
            if taken then
              let (parser, app, messages) := tryToPushToPlayer (pending.drop size) size app
              (parser, app, pending.take size :: messages)
            else ({ pendingPacket := some pending, pendingMessageSize := size }, app, [])
termination_by pending.length
decreasing_by
  have hsize : 0 < headersize := by decide
  simp only [List.length_drop]
  omega

/-- What a call of `ReadSocket` leaves: the parser, the packets that wait at the socket, and the
application. `messages` are those the application took, and `sentBlank` says whether the parser
left the socket unread and sent a blank request instead. -/
structure ReadResult (σ : Type*) where
  parser : HttpParser
  rx : List (List UInt8)
  app : σ
  messages : List (List UInt8)
  sentBlank : Bool

/-- The second part of `ReadSocket`: reads a packet and offers the messages. -/
def recvPacket (rx : List (List UInt8)) (p : HttpParser) (app : σ) : ReadResult σ :=
  match rx with
  | [] => { parser := p, rx := [], app, messages := [], sentBlank := false }
  | pkt :: rest =>
      let (parser, app, messages) :=
        tryToPushToPlayer messageReceived (p.pendingPacket.getD [] ++ pkt) p.pendingMessageSize app
      { parser, rx := rest, app, messages, sentBlank := false }

/-- The first part of `ReadSocket`: offers the pending messages. -/
def pushPending (p : HttpParser) (app : σ) : HttpParser × σ × List (List UInt8) :=
  match p.pendingPacket with
  | some pending => tryToPushToPlayer messageReceived pending p.pendingMessageSize app
  | none => (p, app, [])

/-- The parser holds a message that the application is thought to have refused. -/
def holdsMessage (p : HttpParser) : Bool :=
  p.pendingPacket.any fun pending => pending.length ≥ p.pendingMessageSize

/-- `ReadSocket`, on a socket whose `Recv` returns the packets `rx` one by one. -/
def readSocket (rx : List (List UInt8)) (p : HttpParser) (app : σ) : ReadResult σ :=
  let (p, app, messages) := pushPending messageReceived p app
  if p.holdsMessage then { parser := p, rx, app, messages, sentBlank := true }
  else
    let result := recvPacket messageReceived rx p app
    { result with messages := messages ++ result.messages }

end

end HttpParser

end NtnIab.Dash
