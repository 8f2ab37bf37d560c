import NtnIab.Quic.Disgregate

/-!
# STREAM frames with a length field

The encoding of such frames is a prefix code: a packet that is a sequence of encoded frames is
parsed into these frames, and only them.
-/

namespace NtnIab.Quic

open QuicSubheader

/-- A STREAM frame with the LEN bit set. Its fields fit in variable-length integers, and its data
in a packet. -/
@[ext]
structure LenFrame where
  streamId : Nat
  offset : Nat
  payload : List UInt8
  offBit : Bool
  fin : Bool
  streamId_lt : streamId < 2 ^ 62
  offset_lt : offset < 2 ^ 62
  length_lt : payload.length < 2 ^ 32
  offset_eq : offBit = false → offset = 0

namespace LenFrame

def header (fr : LenFrame) : QuicSubheader :=
  createStreamSubHeader fr.streamId fr.offset fr.payload.length fr.offBit true fr.fin

/-- The bytes of the frame. -/
def encode (fr : LenFrame) : List UInt8 := fr.header.serialize ++ fr.payload

/-- The bytes of a packet that holds the frames. -/
def encodeAll (frames : List LenFrame) : List UInt8 := frames.flatMap encode

/-- The frame as the receiver finds it. -/
def received (fr : LenFrame) : RecvFrame := (fr.payload, fr.header)

@[simp] theorem encodeAll_nil : encodeAll [] = [] := rfl

@[simp] theorem encodeAll_cons (fr : LenFrame) (rest : List LenFrame) :
    encodeAll (fr :: rest) = fr.encode ++ encodeAll rest := rfl

@[simp] theorem encodeAll_append (first second : List LenFrame) :
    encodeAll (first ++ second) = encodeAll first ++ encodeAll second := by
  simp [encodeAll]

/-! ## The header -/

@[simp] theorem header_streamId (fr : LenFrame) : fr.header.streamId = fr.streamId := rfl

@[simp] theorem header_offset (fr : LenFrame) : fr.header.offset = fr.offset := by
  unfold header createStreamSubHeader
  cases hbit : fr.offBit with
  | false => simp [fr.offset_eq hbit]
  | true => simp

@[simp] theorem header_length (fr : LenFrame) : fr.header.length = fr.payload.length := rfl

@[simp] theorem header_isStream (fr : LenFrame) : fr.header.isStream = true :=
  FrameType.isStream_stream ..

@[simp] theorem header_lengthBit (fr : LenFrame) : fr.header.frameType.lengthBit = true :=
  FrameType.lengthBit_stream ..

@[simp] theorem header_isStreamFin (fr : LenFrame) : fr.header.isStreamFin = fr.fin :=
  FrameType.fin_stream ..

/-- The bytes of a header: its type, the stream, the offset if there is one, and the length. -/
theorem length_serialize_header (fr : LenFrame) :
    fr.header.serialize.length = 1 + varIntBytes fr.streamId +
      (if fr.offBit then varIntBytes fr.offset else 0) + varIntBytes fr.payload.length := by
  unfold serialize header createStreamSubHeader
  cases hbit : fr.offBit <;> cases hfin : fr.fin <;>
    simp only [FrameType.stream, serializeFields, List.length_cons, List.length_append,
      length_writeVarInt64, if_true, if_false, Bool.false_eq_true] <;>
    omega

/-- The size of a header is its number of bytes, and at least 1. -/
theorem header_getSerializedSize (fr : LenFrame) :
    fr.header.getSerializedSize = fr.header.serialize.length ∧ 0 < fr.header.getSerializedSize := by
  have hid := varIntBytes_le_of_lt (n := 7) (show fr.streamId < 64 * 256 ^ 7 from fr.streamId_lt)
    (by simp)
  have hoffset := varIntBytes_le_of_lt (n := 7)
    (show fr.offset < 64 * 256 ^ 7 from fr.offset_lt) (by simp)
  have hlength := varIntBytes_le_of_lt (n := 7)
    (show fr.payload.length < 64 * 256 ^ 7 by have := fr.length_lt; omega) (by simp)
  unfold getSerializedSize calculateSubHeaderLength serialize header createStreamSubHeader
  cases hbit : fr.offBit <;> cases hfin : fr.fin <;>
    simp only [FrameType.stream, fieldBits, serializeFields, getVarInt64Size_eq, if_true,
      List.length_cons, List.length_append, length_writeVarInt64] <;>
    omega

theorem length_encode (fr : LenFrame) :
    fr.encode.length = fr.header.getSerializedSize + fr.payload.length := by
  rw [fr.header_getSerializedSize.1]
  exact List.length_append

theorem encode_pos (fr : LenFrame) : 0 < fr.encode.length := by
  have hsize := fr.header_getSerializedSize
  rw [length_encode]
  omega

/-! ## Parsing -/

/-- Reading the header of a frame gives the header, whatever follows it. -/
theorem deserialize_header (fr : LenFrame) (rest : List UInt8) :
    deserialize (fr.header.serialize ++ rest) = some (fr.header.serialize.length, fr.header) := by
  have hid := fr.streamId_lt
  have hoffset := fr.offset_lt
  have hlength : fr.payload.length < 2 ^ 62 := fr.length_lt.trans (by decide)
  have hsize := fr.header_getSerializedSize.1
  have hfields : deserializeFields fr.header.frameType (fr.header.serializeFields ++ rest) =
      some (true, fr.header) := by
    unfold header createStreamSubHeader
    cases hbit : fr.offBit <;> cases hfin : fr.fin <;>
      simp [FrameType.stream, serializeFields, deserializeFields, readVarInt64_write hid,
        readVarInt64_write hoffset, readVarInt64_write hlength]
  unfold deserialize serialize
  rw [List.cons_append]
  dsimp only
  rw [FrameType.ofByte_toByte]
  dsimp only
  rw [hfields, Option.map_some, if_pos rfl, hsize]
  rfl

/-- A packet of frames is parsed into its frames. -/
theorem disgregate_encodeAll (frames : List LenFrame) :
    disgregate (encodeAll frames) = some (frames.map received, false) := by
  induction frames with
  | nil => simp
  | cons fr rest ih =>
      obtain ⟨hsize, hpos⟩ := fr.header_getSerializedSize
      have hbytes : encodeAll (fr :: rest) =
          fr.header.serialize ++ (fr.payload ++ encodeAll rest) := by
        simp [encode]
      have hne : encodeAll (fr :: rest) ≠ [] := by
        rw [hbytes]
        exact List.ne_nil_of_length_pos (by rw [List.length_append]; omega)
      have hlength : frameLength fr.header (fr.payload ++ encodeAll rest).length =
          fr.payload.length := by
        simp [frameLength]
      rw [disgregate, if_neg hne, hbytes, deserialize_header]
      dsimp only
      rw [if_neg (by omega), List.drop_left, hlength, List.drop_left, List.take_left, ih]
      rfl

/-- Frames with the same bytes are received alike. -/
theorem received_eq_of_encodeAll_eq {first second : List LenFrame}
    (heq : encodeAll first = encodeAll second) : first.map received = second.map received := by
  have hfirst := disgregate_encodeAll first
  rw [heq, disgregate_encodeAll, Option.some.injEq, Prod.mk.injEq] at hfirst
  exact hfirst.1.symm

end LenFrame

end NtnIab.Quic
