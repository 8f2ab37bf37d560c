import NtnIab.Quic.StreamRxBuffer
import NtnIab.Quic.StreamTxBuffer

/-!
# A QUIC stream

One structure holds both directions of a stream. `send`, `sendPendingData` and `setMaxStreamData`
make up the sending side, `recv` the receiving one. What a stream asks of its `QuicL5Protocol` is
returned as a list of outputs. The socket's answer to a frame is an input of the sending side.
-/

namespace NtnIab.Quic

inductive QuicStreamDirectionType
  | SENDER | RECEIVER | BIDIRECTIONAL | UNKNOWN
  deriving Repr, DecidableEq

inductive QuicStreamState
  | IDLE | OPEN | SEND | RECV | SIZE_KNOWN | DATA_SENT | DATA_RECVD | DATA_READ
  | RESET_SENT | RESET_RECVD | RESET_READ
  deriving Repr, DecidableEq

def QuicStreamState.name : QuicStreamState → String
  | IDLE => "IDLE"
  | OPEN => "OPEN"
  | SEND => "SEND"
  | RECV => "RECV"
  | SIZE_KNOWN => "SIZE_KNOWN"
  | DATA_SENT => "DATA_SENT"
  | DATA_RECVD => "DATA_RECVD"
  | DATA_READ => "DATA_READ"
  | RESET_SENT => "RESET_SENT"
  | RESET_RECVD => "RESET_RECVD"
  | RESET_READ => "RESET_READ"

/-- The transport error codes a stream signals. -/
inductive TransportErrorCode
  | NO_ERROR | FLOW_CONTROL_ERROR | FINAL_OFFSET_ERROR | PROTOCOL_VIOLATION
  deriving Repr, DecidableEq

def TransportErrorCode.code : TransportErrorCode → Nat
  | NO_ERROR => 0x0
  | FLOW_CONTROL_ERROR => 0x3
  | FINAL_OFFSET_ERROR => 0x6
  | PROTOCOL_VIOLATION => 0xA

/-- What a stream asks of the layers around it. `nsAbort` ends the simulation. -/
inductive StreamOutput
  | signalAbortConnection (transportErrorCode : TransportErrorCode) (reasonPhrase : String)
  | onReceivedTransportParameters (transport : List UInt8)
  | send (sub : QuicSubheader) (payload : List UInt8)
  | recv (frame : List UInt8)
  | nsAbort (message : String)
  deriving Repr, DecidableEq

structure QuicStreamBase where
  streamDirectionType : QuicStreamDirectionType := .UNKNOWN
  streamStateSend : QuicStreamState := .IDLE
  streamStateRecv : QuicStreamState := .IDLE
  streamId : Nat := 0
  maxStreamData : Nat := 0
  maxAdvertisedData : Nat := 0
  maxDataInterval : Nat := 15000
  sentSize : Nat := 0
  recvSize : Nat := 0
  fin : Bool := false
  rxBuffer : QuicStreamRxBuffer := {}
  txBuffer : QuicStreamTxBuffer := {}
  /-- Whether the event that sends pending data is scheduled. -/
  sendPendingDataEvent : Bool := false
  deriving Repr, DecidableEq

namespace QuicStreamBase

/-- The stream may send. -/
def sends (s : QuicStreamBase) : Bool :=
  s.streamDirectionType = .SENDER || s.streamDirectionType = .BIDIRECTIONAL

/-- The stream may receive. -/
def receives (s : QuicStreamBase) : Bool :=
  s.streamDirectionType = .RECEIVER || s.streamDirectionType = .BIDIRECTIONAL

def setStreamStateSendIf (condition : Bool) (streamState : QuicStreamState)
    (s : QuicStreamBase) : QuicStreamBase :=
  if condition then { s with streamStateSend := streamState } else s

def setStreamStateRecvIf (condition : Bool) (streamState : QuicStreamState)
    (s : QuicStreamBase) : QuicStreamBase :=
  if condition then { s with streamStateRecv := streamState } else s

/-! ## Sending -/

def streamWindow (s : QuicStreamBase) : Nat :=
  let inFlight := s.txBuffer.bytesInFlight
  if inFlight > s.maxStreamData then 0 else s.maxStreamData - inFlight

def availableWindow (s : QuicStreamBase) : Nat :=
  if s.streamId ≠ 0 then s.streamWindow else s.maxStreamData

/-- `AppendingTx`: the size of the packet, or -1. -/
def appendingTx (frame : List UInt8) (s : QuicStreamBase) : Int × QuicStreamBase :=
  let (added, txBuffer) := s.txBuffer.add frame
  if added then (frame.length, { s with txBuffer }) else (-1, s)

/-- The stream may have data written to it. -/
def openToSend (s : QuicStreamBase) : Bool :=
  s.streamStateSend = .OPEN || s.streamStateSend = .SEND

/-- `Send`: writes a packet to the buffer and schedules its transmission. -/
def send (frame : List UInt8) (s : QuicStreamBase) : Int × QuicStreamBase × List StreamOutput :=
  let s := setStreamStateSendIf (s.streamStateSend = .IDLE && s.sends) .OPEN s
  if s.openToSend then
    let (sent, s) := appendingTx frame s
    (sent,
      if s.openToSend && s.availableWindow > 0 then { s with sendPendingDataEvent := true } else s,
      [])
  else (-1, s, [.nsAbort ("Sending in state" ++ s.streamStateSend.name)])

/-- A frame handed to `QuicL5Protocol::Send`, with its answer. -/
structure HandOff where
  sub : QuicSubheader
  payload : List UInt8
  accepted : Bool
  deriving Repr, DecidableEq

/-- `SendDataFrame`: takes the next frame of at most `maxSize` bytes out of the buffer and hands it
on. A frame that is not accepted returns to the buffer. -/
def sendDataFrame (seq maxSize : Nat) (now : Int) (accepted : Bool) (s : QuicStreamBase) :
    QuicStreamBase × HandOff :=
  let s := setStreamStateSendIf (s.streamStateSend = .OPEN && s.sends) .SEND s
  let (frame, txBuffer) := s.txBuffer.nextSequence maxSize seq now
  let sub := QuicSubheader.createStreamSubHeader s.streamId seq frame.length
    (s.sentSize ≠ 0) true s.fin
  let s := { s with txBuffer, sentSize := s.sentSize + frame.length }
  let handOff : HandOff := { sub, payload := frame, accepted }
  if accepted then
    (setStreamStateSendIf (s.streamStateSend = .SEND && s.fin && s.sends) .DATA_SENT s, handOff)
  else
    ({ s with
        txBuffer := (s.txBuffer.rejected frame).2
        sentSize := s.sentSize - frame.length }, handOff)

/-- The size that `SendPendingData` requests. -/
def requestSize (maxPacketSize : Nat) (s : QuicStreamBase) : Nat :=
  min s.availableWindow maxPacketSize

/-- The loop of `SendPendingData` goes on. -/
def hasPendingData (s : QuicStreamBase) : Prop :=
  s.availableWindow > 0 ∧ s.txBuffer.appSize > 0

instance (s : QuicStreamBase) : Decidable s.hasPendingData :=
  inferInstanceAs (Decidable (_ ∧ _))

/-- An iteration of the loop of `SendPendingData`. -/
def sendIteration (maxPacketSize : Nat) (now : Int) (accepted : Bool) (s : QuicStreamBase) :
    QuicStreamBase × HandOff :=
  sendDataFrame (s.sentSize % 2 ^ 32) (s.requestSize maxPacketSize) now accepted s

/-- The loop of `SendPendingData`. The socket accepts `accepts` frames and refuses the next one,
which ends the loop with -1. The other result is the number of frames sent. -/
def sendPendingLoop (maxPacketSize : Nat) (now : Int) : Nat → QuicStreamBase →
    Int × QuicStreamBase × List HandOff
  | 0, s =>
      if s.hasPendingData then
        let (s, handOff) := s.sendIteration maxPacketSize now false
        (-1, s, [handOff])
      else (0, s, [])
  | accepts + 1, s =>
      if s.hasPendingData then
        let (s, handOff) := s.sendIteration maxPacketSize now true
        let (sent, s, handOffs) := sendPendingLoop maxPacketSize now accepts s
        (if sent < 0 then -1 else sent + 1, s, handOff :: handOffs)
      else (0, s, [])

/-- `SendPendingData`, run by its event or called. -/
def sendPendingData (maxPacketSize : Nat) (now : Int) (accepts : Nat) (s : QuicStreamBase) :
    Int × QuicStreamBase × List HandOff :=
  sendPendingLoop maxPacketSize now accepts { s with sendPendingDataEvent := false }

/-- `SetMaxStreamData`: a window that opens on waiting data schedules its transmission. -/
def setMaxStreamData (maxStreamData : Nat) (s : QuicStreamBase) : QuicStreamBase :=
  let oldMaxStreamData := s.maxStreamData
  let s := { s with maxStreamData := maxStreamData % 2 ^ 32 }
  if s.streamId ≠ 0 ∧ s.maxStreamData > oldMaxStreamData ∧ s.txBuffer.appSize > 0 ∧
      s.availableWindow > 0 then
    { s with sendPendingDataEvent := true }
  else s

/-! ## Receiving -/

/-- `SendMaxStreamData`: the credit the stream reports. -/
def sendMaxStreamData (s : QuicStreamBase) : Nat :=
  (s.recvSize + s.rxBuffer.available) % 2 ^ 32

/-- The result of `Recv`, the stream after it and what it asks of the layers around it. -/
abbrev Step := Int × QuicStreamBase × List StreamOutput

/-- The check of a frame fails: the connection is aborted and `Recv` returns -1. -/
def signalAbort (code : TransportErrorCode) (reason : String) (s : QuicStreamBase) : Step :=
  (-1, s, [.signalAbortConnection code reason])

def recvRstStream (sub : QuicSubheader) (s : QuicStreamBase) : Step :=
  if s.streamId = 0 then s.signalAbort .PROTOCOL_VIOLATION "Received RST_STREAM in Stream 0"
  else if !s.receives then
    s.signalAbort .PROTOCOL_VIOLATION "Received RST_STREAM in send-only Stream"
  else if s.streamStateRecv = .DATA_READ ∨ s.streamStateRecv = .RESET_READ then
    s.signalAbort .PROTOCOL_VIOLATION
      "Receiving RST_STREAM Frames in DATA_READ or RESET_READ Stream State"
  else if s.fin ∧ s.rxBuffer.finalSize ≠ sub.offset then
    s.signalAbort .FINAL_OFFSET_ERROR "RST_STREAM causes final offset to change for a Stream"
  else
    (0, setStreamStateRecvIf (s.streamStateRecv = .RECV || s.streamStateSend = .SIZE_KNOWN ||
      s.streamStateSend = .DATA_RECVD) .RESET_RECVD s, [])

def recvMaxStreamData (sub : QuicSubheader) (s : QuicStreamBase) : Step :=
  if !s.sends then
    s.signalAbort .PROTOCOL_VIOLATION "Received MAX_STREAM_DATA in receive-only Stream"
  else (0, s.setMaxStreamData sub.maxStreamData, [])

def recvStreamBlocked (s : QuicStreamBase) : Step :=
  if !s.receives then
    s.signalAbort .PROTOCOL_VIOLATION "Received STREAM_BLOCKED in send-only Stream"
  else (0, s, [])

def recvStopSending (s : QuicStreamBase) : Step :=
  if !s.sends then
    s.signalAbort .PROTOCOL_VIOLATION "Received STOP_SENDING in receive-only Stream"
  else (0, s, [])

/-- The frame continues the stream at the read offset, or straddles it. -/
def inOrder (frame : List UInt8) (sub : QuicSubheader) (s : QuicStreamBase) : Bool :=
  s.recvSize = sub.offset ||
    (sub.offset < s.recvSize && sub.offset + frame.length > s.recvSize)

/-- The MAX_DATA frame that is sent once the credit has grown by the interval. The comparison is
made with a 32-bit sum. -/
def advertise (s : QuicStreamBase) : QuicStreamBase × List StreamOutput :=
  let credit := s.recvSize + s.rxBuffer.available
  if s.maxAdvertisedData = 0 ∨ credit > (s.maxAdvertisedData + s.maxDataInterval) % 2 ^ 32 then
    ({ s with maxAdvertisedData := credit % 2 ^ 32 },
      [.send { frameType := .MAX_DATA, maxData := credit } []])
  else (s, [])

/-- The buffered bytes that have come in order are appended to the frame. -/
def flush (frame : List UInt8) (s : QuicStreamBase) : List UInt8 × QuicStreamBase :=
  let (_, length) := s.rxBuffer.getDeliverable s.recvSize
  if length > 0 then
    let (payload, rxBuffer) := s.rxBuffer.extract length s.recvSize
    (frame ++ payload, { s with rxBuffer, recvSize := s.recvSize + length })
  else (frame, s)

/-- The credit that comes with a STREAM frame. -/
def updateMaxStreamData (sub : QuicSubheader) (s : QuicStreamBase) : QuicStreamBase :=
  if s.streamId ≠ 0 ∧ sub.maxStreamData > 0 then s.setMaxStreamData sub.maxStreamData else s

/-- The states of a stream whose size is known and whose buffer is empty, before and after its
data is handed on, and the credit that came with the frame. -/
def settle (sub : QuicSubheader) (s : QuicStreamBase) : QuicStreamBase :=
  let s := setStreamStateRecvIf (s.streamStateRecv = .SIZE_KNOWN && s.rxBuffer.size = 0)
    .DATA_RECVD s
  let s := s.updateMaxStreamData sub
  setStreamStateRecvIf (s.streamStateRecv = .DATA_RECVD) .DATA_READ s

/-- The branch of a STREAM frame that continues the stream. -/
def recvInOrder (frame : List UInt8) (sub : QuicSubheader) (s : QuicStreamBase) : Step :=
  let frame := frame.drop (s.recvSize - sub.offset)
  let s := { s with recvSize := s.recvSize + frame.length }
  let (s, advertised) := s.advertise
  let (frame, s) := s.flush frame
  (0, s.settle sub, advertised ++ if s.streamId ≠ 0 then [.recv frame] else [])

/-- The branch of a STREAM frame that is ahead of the stream, or behind it. -/
def recvUnordered (frame : List UInt8) (sub : QuicSubheader) (s : QuicStreamBase) : Step :=
  let s := s.updateMaxStreamData sub
  let (added, rxBuffer) := s.rxBuffer.add frame sub s.recvSize
  let s := { s with rxBuffer }
  (0, s,
    if !added && frame.length > 0 && frame.length > s.rxBuffer.available then
      [.signalAbortConnection .NO_ERROR "Aborting connection due to full RX buffer"]
    else [])

/-- The size of the transport parameters. -/
def transportParametersSize : Nat := (32 * 4 + 16 * 2 + 8 * 2) / 8

/-- The transport parameters in front of a frame of stream 0, and the rest of the frame. A frame
too short for them is left as it is, and the parameters read are the default ones. -/
def removeTransportParameters (containsTransportParameters : Bool) (streamId : Nat)
    (frame : List UInt8) : List UInt8 × List StreamOutput :=
  if containsTransportParameters ∧ streamId = 0 then
    if frame.length < transportParametersSize then (frame, [.onReceivedTransportParameters []])
    else (frame.drop transportParametersSize,
      [.onReceivedTransportParameters (frame.take transportParametersSize)])
  else (frame, [])

/-- The stream may have data received on it. -/
def awaitsData (s : QuicStreamBase) : Bool :=
  s.streamStateRecv = .IDLE || s.streamStateRecv = .RECV || s.streamStateRecv = .SIZE_KNOWN

/-- A STREAM frame. `containsTransportParameters` is the answer of the socket. -/
def recvStream (containsTransportParameters : Bool) (frame : List UInt8) (sub : QuicSubheader)
    (s : QuicStreamBase) : Step :=
  if !s.receives then
    s.signalAbort .PROTOCOL_VIOLATION "Received STREAM in send-only Stream"
  else if !s.awaitsData then
    s.signalAbort .PROTOCOL_VIOLATION "Received STREAM in State unequal to IDLE, RECV, SIZE_KNOWN"
  else if s.rxBuffer.size + sub.length > s.maxStreamData then
    s.signalAbort .FLOW_CONTROL_ERROR "Received more data w.r.t. Max Stream Data limit"
  else
    let s := setStreamStateRecvIf (s.streamStateRecv = .IDLE) .RECV s
    let (frame, transport) :=
      removeTransportParameters containsTransportParameters s.streamId frame
    let (result, s, outputs) :=
      if s.fin ∧ sub.isStreamFin ∧ s.rxBuffer.finalSize ≠ sub.offset then
        s.signalAbort .FINAL_OFFSET_ERROR "STREAM causes final offset to change for a Stream"
      else
        let s := { s with fin := sub.isStreamFin }
        if s.fin ∧ s.streamId = 0 then
          s.signalAbort .PROTOCOL_VIOLATION "Received Stream FIN in Stream 0"
        else
          let s := setStreamStateRecvIf (s.streamStateRecv = .RECV && s.fin) .SIZE_KNOWN s
          if s.inOrder frame sub then s.recvInOrder frame sub else s.recvUnordered frame sub
    (result, s, transport ++ outputs)

def recv (containsTransportParameters : Bool) (frame : List UInt8) (sub : QuicSubheader)
    (s : QuicStreamBase) : Step :=
  match sub.frameType with
  | .RST_STREAM => s.recvRstStream sub
  | .MAX_STREAM_DATA => s.recvMaxStreamData sub
  | .STREAM_BLOCKED => s.recvStreamBlocked
  | .STOP_SENDING => s.recvStopSending
  | .STREAM000 | .STREAM001 | .STREAM010 | .STREAM011
  | .STREAM100 | .STREAM101 | .STREAM110 | .STREAM111 =>
      s.recvStream containsTransportParameters frame sub
  | _ => (0, s, [.nsAbort "Received Corrupted Frame"])

end QuicStreamBase

end NtnIab.Quic
