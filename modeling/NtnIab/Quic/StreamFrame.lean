import NtnIab.Library.Window
import NtnIab.Quic.LenFrame

/-!
# Well-formed STREAM frames

A `StreamFrame` is a STREAM frame with a length field and data whose offsets fit in 32 bits, so
that the scheduler can cut it anywhere.
-/

namespace NtnIab.Quic

open QuicSubheader Window

/-- A STREAM frame with the LEN bit set, a length above 0 and 32-bit offsets. -/
@[ext]
structure StreamFrame where
  streamId : Nat
  offset : Nat
  payload : List UInt8
  offBit : Bool
  fin : Bool
  streamId_lt : streamId < 2 ^ 62
  payload_ne : payload ≠ []
  length_lt : payload.length < 2 ^ 32
  end_le : offset + payload.length ≤ 2 ^ 32
  offset_eq : offBit = false → offset = 0

namespace StreamFrame

def header (fr : StreamFrame) : QuicSubheader :=
  createStreamSubHeader fr.streamId fr.offset fr.payload.length fr.offBit true fr.fin

/-- The bytes of the frame. -/
def encode (fr : StreamFrame) : List UInt8 := fr.header.serialize ++ fr.payload

/-- The bytes of a packet that holds the frames. -/
def encodeAll (frames : List StreamFrame) : List UInt8 := frames.flatMap encode

@[simp] theorem encodeAll_nil : encodeAll [] = [] := rfl

@[simp] theorem encodeAll_cons (fr : StreamFrame) (rest : List StreamFrame) :
    encodeAll (fr :: rest) = fr.encode ++ encodeAll rest := rfl

@[simp] theorem encodeAll_append (first second : List StreamFrame) :
    encodeAll (first ++ second) = encodeAll first ++ encodeAll second := by
  simp [encodeAll]

/-- The frame holds the byte of the stream at the offset. -/
def Has (fr : StreamFrame) (streamId x : Nat) : Prop :=
  fr.streamId = streamId ∧ fr.offset ≤ x ∧ x < fr.offset + fr.payload.length

/-- The payload is the content of the stream at the offset of the frame. -/
def Carries (content : Nat → Nat → UInt8) (fr : StreamFrame) : Prop :=
  fr.payload = window (content fr.streamId) fr.offset fr.payload.length

theorem length_pos (fr : StreamFrame) : 0 < fr.payload.length :=
  List.length_pos_of_ne_nil fr.payload_ne

theorem offset_lt (fr : StreamFrame) : fr.offset < 2 ^ 32 := by
  have := fr.end_le
  have := fr.length_pos
  omega

/-- A frame whose offsets fit in 32 bits is a frame. -/
def toLenFrame (fr : StreamFrame) : LenFrame :=
  { fr with offset_lt := fr.offset_lt.trans (by decide) }

/-! ## Parsing -/

@[simp] theorem header_streamId (fr : StreamFrame) : fr.header.streamId = fr.streamId := rfl

@[simp] theorem header_offset (fr : StreamFrame) : fr.header.offset = fr.offset := by
  unfold header createStreamSubHeader
  cases hbit : fr.offBit with
  | false => simp [fr.offset_eq hbit]
  | true => simp

@[simp] theorem header_length (fr : StreamFrame) : fr.header.length = fr.payload.length := rfl

@[simp] theorem header_isStream (fr : StreamFrame) : fr.header.isStream = true :=
  FrameType.isStream_stream ..

@[simp] theorem header_lengthBit (fr : StreamFrame) : fr.header.frameType.lengthBit = true :=
  FrameType.lengthBit_stream ..

@[simp] theorem header_isStreamFin (fr : StreamFrame) : fr.header.isStreamFin = fr.fin :=
  FrameType.fin_stream ..

/-- The size of a header is its number of bytes, and at least 1. -/
theorem header_getSerializedSize (fr : StreamFrame) :
    fr.header.getSerializedSize = fr.header.serialize.length ∧ 0 < fr.header.getSerializedSize :=
  fr.toLenFrame.header_getSerializedSize

theorem encode_pos (fr : StreamFrame) : 0 < fr.encode.length := fr.toLenFrame.encode_pos

/-- Reading the header of a frame gives the header, whatever follows it. -/
theorem deserialize_header (fr : StreamFrame) (rest : List UInt8) :
    deserialize (fr.header.serialize ++ rest) = some (fr.header.serialize.length, fr.header) :=
  fr.toLenFrame.deserialize_header rest

theorem encodeAll_map_toLenFrame (frames : List StreamFrame) :
    LenFrame.encodeAll (frames.map toLenFrame) = encodeAll frames := by
  simp only [LenFrame.encodeAll, encodeAll, List.flatMap_map]
  rfl

/-- A packet of frames is parsed into its frames. -/
theorem disgregate_encodeAll (frames : List StreamFrame) :
    disgregate (encodeAll frames) =
      some (frames.map fun fr => (fr.payload, fr.header), false) := by
  rw [← encodeAll_map_toLenFrame, LenFrame.disgregate_encodeAll, List.map_map]
  rfl

/-! ## Cutting a frame -/

/-- The first `n` bytes of a frame. -/
def front (fr : StreamFrame) (n : Nat) (hpos : 0 < n) (hlt : n < fr.payload.length) :
    StreamFrame where
  streamId := fr.streamId
  offset := fr.offset
  payload := fr.payload.take n
  offBit := fr.offset ≠ 0
  fin := false
  streamId_lt := fr.streamId_lt
  payload_ne := by
    apply List.ne_nil_of_length_pos
    rw [List.length_take]
    omega
  length_lt := by
    have := fr.length_lt
    rw [List.length_take]
    omega
  end_le := by
    have := fr.end_le
    rw [List.length_take]
    omega
  offset_eq := by simp

/-- A frame without its first `n` bytes. -/
def back (fr : StreamFrame) (n : Nat) (hlt : n < fr.payload.length) : StreamFrame where
  streamId := fr.streamId
  offset := fr.offset + n
  payload := fr.payload.drop n
  offBit := true
  fin := fr.fin
  streamId_lt := fr.streamId_lt
  payload_ne := by
    apply List.ne_nil_of_length_pos
    rw [List.length_drop]
    omega
  length_lt := by
    have := fr.length_lt
    rw [List.length_drop]
    omega
  end_le := by
    have := fr.end_le
    rw [List.length_drop]
    omega
  offset_eq := by simp

/-- The two parts of a frame hold the bytes of the frame. -/
theorem has_front_or_back {fr : StreamFrame} {n streamId x : Nat} (hpos : 0 < n)
    (hlt : n < fr.payload.length) :
    (fr.front n hpos hlt).Has streamId x ∨ (fr.back n hlt).Has streamId x ↔
      fr.Has streamId x := by
  simp only [Has, front, back, List.length_take, List.length_drop]
  omega

theorem Carries.front {content : Nat → Nat → UInt8} {fr : StreamFrame} {n : Nat}
    (hfr : fr.Carries content) (hpos : 0 < n) (hlt : n < fr.payload.length) :
    (fr.front n hpos hlt).Carries content := by
  unfold Carries at hfr ⊢
  simp only [StreamFrame.front, List.length_take]
  rw [min_eq_left hlt.le]
  exact take_eq_window _ _ hfr hlt.le

theorem Carries.back {content : Nat → Nat → UInt8} {fr : StreamFrame} {n : Nat}
    (hfr : fr.Carries content) (hlt : n < fr.payload.length) :
    (fr.back n hlt).Carries content := by
  unfold Carries at hfr ⊢
  simp only [StreamFrame.back, List.length_drop]
  exact drop_eq_window _ _ hfr n

end StreamFrame

end NtnIab.Quic
