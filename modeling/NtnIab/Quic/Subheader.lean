import NtnIab.Quic.VarInt

/-!
# The QUIC frame subheader

Every frame starts with a type byte and the fields of its type. Sizes are computed from the
decoded fields: `calculateSubHeaderLength` adds up the shortest encodings in a 32-bit counter of
bits. `deserialize` reads the fields from untrusted bytes. It returns `none` where the source reads
past the end of the buffer, which is an assertion failure, and a size of 0 where the source rejects
the frame.
-/

namespace NtnIab.Quic

inductive FrameType
  | PADDING
  | RST_STREAM
  | CONNECTION_CLOSE
  | APPLICATION_CLOSE
  | MAX_DATA
  | MAX_STREAM_DATA
  | MAX_STREAM_ID
  | PING
  | BLOCKED
  | STREAM_BLOCKED
  | STREAM_ID_BLOCKED
  | NEW_CONNECTION_ID
  | STOP_SENDING
  | ACK
  | PATH_CHALLENGE
  | PATH_RESPONSE
  | STREAM000
  | STREAM001
  | STREAM010
  | STREAM011
  | STREAM100
  | STREAM101
  | STREAM110
  | STREAM111
  | ADD_ADDRESS
  | REMOVE_ADDRESS
  | MP_ACK
  | PATH_ABANDON
  deriving Repr, DecidableEq

namespace FrameType

/-- The frame types in the order of their type bytes. -/
def all : List FrameType :=
  [PADDING, RST_STREAM, CONNECTION_CLOSE, APPLICATION_CLOSE, MAX_DATA, MAX_STREAM_DATA,
    MAX_STREAM_ID, PING, BLOCKED, STREAM_BLOCKED, STREAM_ID_BLOCKED, NEW_CONNECTION_ID,
    STOP_SENDING, ACK, PATH_CHALLENGE, PATH_RESPONSE, STREAM000, STREAM001, STREAM010, STREAM011,
    STREAM100, STREAM101, STREAM110, STREAM111, ADD_ADDRESS, REMOVE_ADDRESS, MP_ACK, PATH_ABANDON]

def toByte (t : FrameType) : UInt8 := UInt8.ofNat (all.idxOf t)

/-- The frame type of a type byte, if it is at most `PATH_ABANDON`. -/
def ofByte (b : UInt8) : Option FrameType := all[b.toNat]?

def isStream : FrameType → Bool
  | STREAM000 | STREAM001 | STREAM010 | STREAM011
  | STREAM100 | STREAM101 | STREAM110 | STREAM111 => true
  | _ => false

/-- Whether the frame type carries a length field. -/
def lengthBit : FrameType → Bool
  | STREAM010 | STREAM011 | STREAM110 | STREAM111 => true
  | _ => false

/-- Whether the frame type carries an offset field. -/
def offBit : FrameType → Bool
  | STREAM100 | STREAM101 | STREAM110 | STREAM111 => true
  | _ => false

/-- `IsStreamFin`: the low bit of the type byte, whatever the type. -/
def fin (t : FrameType) : Bool := t.toByte &&& 0x01 ≠ 0

/-- The STREAM type with the given bits. -/
def stream : Bool → Bool → Bool → FrameType
  | false, false, false => STREAM000
  | false, false, true => STREAM001
  | false, true, false => STREAM010
  | false, true, true => STREAM011
  | true, false, false => STREAM100
  | true, false, true => STREAM101
  | true, true, false => STREAM110
  | true, true, true => STREAM111

@[simp] theorem ofByte_toByte (t : FrameType) : ofByte t.toByte = some t := by
  cases t <;> rfl

@[simp] theorem isStream_stream (off length fin : Bool) : (stream off length fin).isStream := by
  cases off <;> cases length <;> cases fin <;> rfl

@[simp] theorem offBit_stream (off length fin : Bool) : (stream off length fin).offBit = off := by
  cases off <;> cases length <;> cases fin <;> rfl

@[simp] theorem lengthBit_stream (off length fin : Bool) :
    (stream off length fin).lengthBit = length := by
  cases off <;> cases length <;> cases fin <;> rfl

@[simp] theorem fin_stream (off length fin : Bool) : (stream off length fin).fin = fin := by
  cases off <;> cases length <;> cases fin <;> decide

end FrameType

/-- The fields of a frame. The varint fields of 64 bits hold what a varint can hold; the narrower
ones are truncated where they are read. -/
structure QuicSubheader where
  frameType : FrameType := .PADDING
  streamId : Nat := 0
  errorCode : Nat := 0
  offset : Nat := 0
  reasonPhraseLength : Nat := 0
  reasonPhrase : List UInt8 := []
  maxData : Nat := 0
  maxStreamData : Nat := 0
  maxStreamId : Nat := 0
  sequence : Nat := 0
  connectionId : UInt64 := 0
  largestAcknowledged : Nat := 0
  ackDelay : Nat := 0
  ackBlockCount : Nat := 0
  firstAckBlock : Nat := 0
  additionalAckBlocks : List Nat := []
  gaps : List Nat := []
  data : UInt8 := 0
  length : Nat := 0
  pathId : Nat := 0
  address : List UInt8 := []
  deriving Repr, DecidableEq

namespace QuicSubheader

def isStream (s : QuicSubheader) : Bool := s.frameType.isStream

def isStreamFin (s : QuicSubheader) : Bool := s.frameType.fin

def createStreamSubHeader (streamId offset length : Nat) (offBit lengthBit finBit : Bool) :
    QuicSubheader :=
  { frameType := .stream offBit lengthBit finBit
    streamId
    offset := if offBit then offset else 0
    length := if lengthBit then length else 0 }

def createMaxData (maxData : Nat) : QuicSubheader := { frameType := .MAX_DATA, maxData }

def createMpAck (largestAcknowledged ackDelay firstAckBlock : Nat)
    (gaps additionalAckBlocks : List Nat) (pathId : Nat) : QuicSubheader :=
  { frameType := .MP_ACK
    largestAcknowledged
    ackDelay := ackDelay % 2 ^ 32
    ackBlockCount := gaps.length % 2 ^ 32
    firstAckBlock
    gaps
    additionalAckBlocks
    pathId }

/-! ## Sizes -/

/-- The bits of the additional ack blocks and gaps. -/
def ackBlockBits (s : QuicSubheader) : Nat :=
  (((s.gaps.zip s.additionalAckBlocks).take s.ackBlockCount).map fun (gap, block) =>
    getVarInt64Size gap + getVarInt64Size block).sum

/-- The bits `CalculateSubHeaderLength` adds after the type byte, by frame type. -/
def fieldBits (s : QuicSubheader) : Nat :=
  match s.frameType with
  | .PADDING => 0
  | .RST_STREAM => getVarInt64Size s.streamId + 16 + getVarInt64Size s.offset
  | .CONNECTION_CLOSE | .APPLICATION_CLOSE =>
      16 + getVarInt64Size s.reasonPhraseLength + s.reasonPhraseLength * 8
  | .MAX_DATA => getVarInt64Size s.maxData
  | .MAX_STREAM_DATA => getVarInt64Size s.streamId + getVarInt64Size s.maxStreamData
  | .MAX_STREAM_ID => getVarInt64Size s.maxStreamId
  | .PING => 0
  | .BLOCKED => getVarInt64Size s.offset
  | .STREAM_BLOCKED => getVarInt64Size s.streamId + getVarInt64Size s.offset
  | .STREAM_ID_BLOCKED => getVarInt64Size s.streamId
  | .NEW_CONNECTION_ID => getVarInt64Size s.sequence + 64
  | .STOP_SENDING => getVarInt64Size s.streamId + 16
  | .ACK =>
      getVarInt64Size s.largestAcknowledged + getVarInt64Size s.ackDelay +
        getVarInt64Size s.ackBlockCount + getVarInt64Size s.firstAckBlock + s.ackBlockBits
  | .PATH_CHALLENGE | .PATH_RESPONSE => 8
  | .STREAM000 | .STREAM001 => getVarInt64Size s.streamId
  | .STREAM010 | .STREAM011 => getVarInt64Size s.streamId + getVarInt64Size s.length
  | .STREAM100 | .STREAM101 => getVarInt64Size s.streamId + getVarInt64Size s.offset
  | .STREAM110 | .STREAM111 =>
      getVarInt64Size s.streamId + getVarInt64Size s.offset + getVarInt64Size s.length
  | .ADD_ADDRESS | .REMOVE_ADDRESS => 64
  | .MP_ACK =>
      getVarInt64Size s.pathId + getVarInt64Size s.largestAcknowledged +
        getVarInt64Size s.ackDelay + getVarInt64Size s.ackBlockCount +
        getVarInt64Size s.firstAckBlock + s.ackBlockBits
  | .PATH_ABANDON => getVarInt64Size s.pathId + getVarInt64Size s.errorCode

/-- The counter of bits is 32 bits wide. -/
def calculateSubHeaderLength (s : QuicSubheader) : Nat := (8 + s.fieldBits) % 2 ^ 32 / 8

def getSerializedSize (s : QuicSubheader) : Nat := s.calculateSubHeaderLength

theorem getSerializedSize_le (s : QuicSubheader) : s.getSerializedSize ≤ 2 ^ 29 := by
  unfold getSerializedSize calculateSubHeaderLength
  omega

/-! ## Writing -/

/-- `WriteU16` is little-endian. -/
def writeU16 (n : Nat) : List UInt8 := [UInt8.ofNat n, UInt8.ofNat (n / 256)]

/-- The additional ack blocks, each after its gap. -/
def writeAckBlocks (s : QuicSubheader) : List UInt8 :=
  ((s.gaps.zip s.additionalAckBlocks).take s.ackBlockCount).flatMap fun (gap, block) =>
    writeVarInt64 gap ++ writeVarInt64 block

def serializeFields (s : QuicSubheader) : List UInt8 :=
  match s.frameType with
  | .PADDING | .PING => []
  | .RST_STREAM => writeVarInt64 s.streamId ++ writeU16 s.errorCode ++ writeVarInt64 s.offset
  | .CONNECTION_CLOSE | .APPLICATION_CLOSE =>
      writeU16 s.errorCode ++ writeVarInt64 s.reasonPhraseLength ++ s.reasonPhrase
  | .MAX_DATA => writeVarInt64 s.maxData
  | .MAX_STREAM_DATA => writeVarInt64 s.streamId ++ writeVarInt64 s.maxStreamData
  | .MAX_STREAM_ID => writeVarInt64 s.maxStreamId
  | .BLOCKED => writeVarInt64 s.offset
  | .STREAM_BLOCKED => writeVarInt64 s.streamId ++ writeVarInt64 s.offset
  | .STREAM_ID_BLOCKED => writeVarInt64 s.streamId
  | .NEW_CONNECTION_ID => writeVarInt64 s.sequence ++ writeHtonU64 s.connectionId
  | .STOP_SENDING => writeVarInt64 s.streamId ++ writeU16 s.errorCode
  | .ACK =>
      writeVarInt64 s.largestAcknowledged ++ writeVarInt64 s.ackDelay ++
        writeVarInt64 s.ackBlockCount ++ writeVarInt64 s.firstAckBlock ++ s.writeAckBlocks
  | .PATH_CHALLENGE | .PATH_RESPONSE => [s.data]
  | .STREAM000 | .STREAM001 => writeVarInt64 s.streamId
  | .STREAM010 | .STREAM011 => writeVarInt64 s.streamId ++ writeVarInt64 s.length
  | .STREAM100 | .STREAM101 => writeVarInt64 s.streamId ++ writeVarInt64 s.offset
  | .STREAM110 | .STREAM111 =>
      writeVarInt64 s.streamId ++ writeVarInt64 s.offset ++ writeVarInt64 s.length
  | .ADD_ADDRESS | .REMOVE_ADDRESS => s.address ++ writeVarInt64 s.pathId
  | .MP_ACK =>
      writeVarInt64 s.pathId ++ writeVarInt64 s.largestAcknowledged ++ writeVarInt64 s.ackDelay ++
        writeVarInt64 s.ackBlockCount ++ writeVarInt64 s.firstAckBlock ++ s.writeAckBlocks
  | .PATH_ABANDON => writeVarInt64 s.pathId ++ writeVarInt64 s.errorCode

def serialize (s : QuicSubheader) : List UInt8 := s.frameType.toByte :: s.serializeFields

/-! ## Reading -/

def readU16 (i : List UInt8) : Nat := (i.headD 0).toNat + 256 * (i.tail.headD 0).toNat

/-- The loop over the additional ack blocks. -/
def readAckBlocks : Nat → List UInt8 → List Nat × List Nat × List UInt8
  | 0, i => ([], [], i)
  | n + 1, i =>
      let (gap, i) := readVarInt64 i
      let (block, i) := readVarInt64 i
      let (gaps, blocks, i) := readAckBlocks n i
      (gap % 2 ^ 32 :: gaps, block % 2 ^ 32 :: blocks, i)

/-- The part ACK and MP_ACK share, from the largest acknowledged number on. The check of the
remaining bytes is made in 32 bits. -/
def readAck (s : QuicSubheader) (i : List UInt8) : Bool × QuicSubheader :=
  let (largestAcknowledged, i) := readVarInt64 i
  let (ackDelay, i) := readVarInt64 i
  let (ackBlockCount, i) := readVarInt64 i
  let (firstAckBlock, i) := readVarInt64 i
  let s := { s with
    largestAcknowledged := largestAcknowledged % 2 ^ 32
    ackDelay := ackDelay % 2 ^ 32
    ackBlockCount := ackBlockCount % 2 ^ 32
    firstAckBlock := firstAckBlock % 2 ^ 32 }
  if i.length < 2 * s.ackBlockCount % 2 ^ 32 then (false, s)
  else
    let (gaps, additionalAckBlocks, _) := readAckBlocks s.ackBlockCount i
    (true, { s with gaps, additionalAckBlocks })

/-- The fields after the type byte: `none` is a read past the end of the buffer, `false` a frame
rejected with size 0. -/
def deserializeFields (frameType : FrameType) (i : List UInt8) : Option (Bool × QuicSubheader) :=
  let s : QuicSubheader := { frameType }
  match frameType with
  | .PADDING | .PING => some (true, s)
  | .RST_STREAM =>
      let (streamId, i) := readVarInt64 i
      if i.length < 2 then some (false, { s with streamId })
      else
        let (offset, _) := readVarInt64 (i.drop 2)
        some (true, { s with streamId, errorCode := readU16 i, offset })
  | .CONNECTION_CLOSE | .APPLICATION_CLOSE =>
      if i.length < 2 then some (false, s)
      else
        let (reasonPhraseLength, j) := readVarInt64 (i.drop 2)
        some (true, { s with
          errorCode := readU16 i
          reasonPhraseLength
          reasonPhrase := j.take reasonPhraseLength })
  | .MAX_DATA =>
      let (maxData, _) := readVarInt64 i
      some (true, { s with maxData })
  | .MAX_STREAM_DATA =>
      let (streamId, i) := readVarInt64 i
      let (maxStreamData, _) := readVarInt64 i
      some (true, { s with streamId, maxStreamData })
  | .MAX_STREAM_ID =>
      let (maxStreamId, _) := readVarInt64 i
      some (true, { s with maxStreamId })
  | .BLOCKED =>
      let (offset, _) := readVarInt64 i
      some (true, { s with offset })
  | .STREAM_BLOCKED =>
      let (streamId, i) := readVarInt64 i
      let (offset, _) := readVarInt64 i
      some (true, { s with streamId, offset })
  | .STREAM_ID_BLOCKED =>
      let (streamId, _) := readVarInt64 i
      some (true, { s with streamId })
  | .NEW_CONNECTION_ID =>
      let (sequence, i) := readVarInt64 i
      if i.length < 8 then some (false, { s with sequence })
      else some (true, { s with sequence, connectionId := readNtohU64 i })
  | .STOP_SENDING =>
      let (streamId, i) := readVarInt64 i
      if i.length < 2 then some (false, { s with streamId })
      else some (true, { s with streamId, errorCode := readU16 i })
  | .ACK => some (s.readAck i)
  | .PATH_CHALLENGE | .PATH_RESPONSE =>
      if i.length < 1 then some (false, s)
      else some (true, { s with data := readU8 i })
  | .STREAM000 | .STREAM001 =>
      let (streamId, _) := readVarInt64 i
      some (true, { s with streamId })
  | .STREAM010 | .STREAM011 =>
      let (streamId, i) := readVarInt64 i
      let (length, _) := readVarInt64 i
      some (true, { s with streamId, length })
  | .STREAM100 | .STREAM101 =>
      let (streamId, i) := readVarInt64 i
      let (offset, _) := readVarInt64 i
      some (true, { s with streamId, offset })
  | .STREAM110 | .STREAM111 =>
      let (streamId, i) := readVarInt64 i
      let (offset, i) := readVarInt64 i
      let (length, _) := readVarInt64 i
      some (true, { s with streamId, offset, length })
  | .ADD_ADDRESS | .REMOVE_ADDRESS =>
      -- `ReadFrom` takes seven bytes without a check
      if i.length < 7 then none
      else
        let (pathId, _) := readVarInt64 (i.drop 7)
        some (true, { s with address := i.take 7, pathId := pathId % 2 ^ 8 })
  | .MP_ACK =>
      let (pathId, i) := readVarInt64 i
      some (({ s with pathId := pathId % 2 ^ 8 } : QuicSubheader).readAck i)
  | .PATH_ABANDON =>
      let (pathId, i) := readVarInt64 i
      let (errorCode, _) := readVarInt64 i
      some (true, { s with pathId := pathId % 2 ^ 8, errorCode := errorCode % 2 ^ 16 })

/-- `Deserialize` into a fresh subheader: the size reported as consumed, and the subheader. An
empty buffer and an invalid type byte are rejected with size 0. -/
def deserialize : List UInt8 → Option (Nat × QuicSubheader)
  | [] => some (0, {})
  | t :: i =>
      match FrameType.ofByte t with
      | none => some (0, {})
      | some frameType =>
          (deserializeFields frameType i).map fun (ok, s) =>
            (if ok then s.getSerializedSize else 0, s)

end QuicSubheader

end NtnIab.Quic
