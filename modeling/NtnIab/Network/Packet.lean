import Mathlib.Data.UInt
import NtnIab.Library.ByteReader

/-!
# Packets and their headers

A packet is its bytes. A header class says how many bytes it takes, what it writes into them and
how it reads itself from the front of a packet. Nothing forces these three to agree: a header may
write fewer bytes than it has asked for, or more, and may take back another number.

## Strategy

The buffer iterator is a reader of `ByteReader`, so reading past the end is no result. `addHeader`
and `removeHeader` follow `Packet` for any header class; a header that reads back what it writes
and takes as many bytes as it writes has the usual laws.
-/

namespace NtnIab

open BigEndian ByteReader

namespace Iterator

/-! ## The buffer iterator -/

def readU8 : Reader UInt8 := byte

def readU16 : Reader UInt16 := do
  let n ← littleEndian 2
  return UInt16.ofNat n

def readU32 : Reader UInt32 := do
  let n ← littleEndian 4
  return UInt32.ofNat n

def readU64 : Reader UInt64 := do
  let n ← littleEndian 8
  return UInt64.ofNat n

def readNtohU16 : Reader UInt16 := do
  let n ← bigEndian 2
  return UInt16.ofNat n

def readNtohU32 : Reader UInt32 := do
  let n ← bigEndian 4
  return UInt32.ofNat n

def readNtohU64 : Reader UInt64 := do
  let n ← bigEndian 8
  return UInt64.ofNat n

def writeU16 (n : UInt16) : List UInt8 := (encode 2 n.toNat).reverse

def writeU32 (n : UInt32) : List UInt8 := (encode 4 n.toNat).reverse

def writeU64 (n : UInt64) : List UInt8 := (encode 8 n.toNat).reverse

def writeHtonU16 (n : UInt16) : List UInt8 := encode 2 n.toNat

def writeHtonU32 (n : UInt32) : List UInt8 := encode 4 n.toNat

def writeHtonU64 (n : UInt64) : List UInt8 := encode 8 n.toNat

@[simp] theorem length_writeU16 (n : UInt16) : (writeU16 n).length = 2 := by simp [writeU16]

@[simp] theorem length_writeU32 (n : UInt32) : (writeU32 n).length = 4 := by simp [writeU32]

@[simp] theorem length_writeU64 (n : UInt64) : (writeU64 n).length = 8 := by simp [writeU64]

@[simp] theorem length_writeHtonU16 (n : UInt16) : (writeHtonU16 n).length = 2 := by
  simp [writeHtonU16]

@[simp] theorem length_writeHtonU32 (n : UInt32) : (writeHtonU32 n).length = 4 := by
  simp [writeHtonU32]

@[simp] theorem length_writeHtonU64 (n : UInt64) : (writeHtonU64 n).length = 8 := by
  simp [writeHtonU64]

theorem reads_u8 (n : UInt8) : Reads readU8 [n] n := reads_byte n

theorem reads_u16 (n : UInt16) : Reads readU16 (writeU16 n) n := by
  have h := (reads_littleEndian (show n.toNat < 256 ^ 2 from n.toNat_lt)).map (f := UInt16.ofNat)
  rwa [UInt16.ofNat_toNat] at h

theorem reads_u32 (n : UInt32) : Reads readU32 (writeU32 n) n := by
  have h := (reads_littleEndian (show n.toNat < 256 ^ 4 from n.toNat_lt)).map (f := UInt32.ofNat)
  rwa [UInt32.ofNat_toNat] at h

theorem reads_u64 (n : UInt64) : Reads readU64 (writeU64 n) n := by
  have h := (reads_littleEndian (show n.toNat < 256 ^ 8 from n.toNat_lt)).map (f := UInt64.ofNat)
  rwa [UInt64.ofNat_toNat] at h

theorem reads_ntohU16 (n : UInt16) : Reads readNtohU16 (writeHtonU16 n) n := by
  have h := (reads_bigEndian (show n.toNat < 256 ^ 2 from n.toNat_lt)).map (f := UInt16.ofNat)
  rwa [UInt16.ofNat_toNat] at h

theorem reads_ntohU32 (n : UInt32) : Reads readNtohU32 (writeHtonU32 n) n := by
  have h := (reads_bigEndian (show n.toNat < 256 ^ 4 from n.toNat_lt)).map (f := UInt32.ofNat)
  rwa [UInt32.ofNat_toNat] at h

theorem reads_ntohU64 (n : UInt64) : Reads readNtohU64 (writeHtonU64 n) n := by
  have h := (reads_bigEndian (show n.toNat < 256 ^ 8 from n.toNat_lt)).map (f := UInt64.ofNat)
  rwa [UInt64.ofNat_toNat] at h

/-! ## What the iterator has read -/

theorem takes_u8 : Takes readU8 1 := takes_byte

theorem takes_u32 : Takes readU32 4 := (takes_littleEndian 4).map

theorem takes_u64 : Takes readU64 8 := (takes_littleEndian 8).map

theorem takes_ntohU16 : Takes readNtohU16 2 := (takes_bigEndian 2).map

theorem takes_ntohU32 : Takes readNtohU32 4 := (takes_bigEndian 4).map

variable {buffer rest : List UInt8}

theorem of_readNtohU16 {n : UInt16} (h : readNtohU16 buffer = some (n, rest)) :
    2 ≤ buffer.length ∧ n = UInt16.ofNat (decode (buffer.take 2)) := by
  obtain ⟨k, middle, hk, hpure⟩ := bind_eq_some.1 h
  obtain ⟨rfl, rfl⟩ := pure_eq_some.1 hpure
  obtain ⟨hlength, rfl, -⟩ := bigEndian_eq_some.1 hk
  exact ⟨hlength, rfl⟩

theorem of_readNtohU32 {n : UInt32} (h : readNtohU32 buffer = some (n, rest)) :
    4 ≤ buffer.length ∧ n = UInt32.ofNat (decode (buffer.take 4)) := by
  obtain ⟨k, middle, hk, hpure⟩ := bind_eq_some.1 h
  obtain ⟨rfl, rfl⟩ := pure_eq_some.1 hpure
  obtain ⟨hlength, rfl, -⟩ := bigEndian_eq_some.1 hk
  exact ⟨hlength, rfl⟩

end Iterator

/-! ## Headers of a packet -/

/-- Every header returns from `Deserialize` its own size after it. -/
class Header (H : Type) where
  getSerializedSize : H → Nat
  serialize : H → List UInt8
  deserialize : Reader H

namespace Packet

variable {H : Type} [Header H]

/-- Room is made at the front and the header writes itself from there. `fill` is what was in a
byte that is new and is not written. -/
def addHeader (fill : UInt8) (header : H) (packet : List UInt8) : Option (List UInt8) :=
  let size := Header.getSerializedSize header
  let written := Header.serialize header
  if written.length ≤ size + packet.length then
    some (written ++ (List.replicate size fill ++ packet).drop written.length)
  else none

def peekHeader (H : Type) [Header H] (packet : List UInt8) : Option (H × Nat) := do
  let result ← (Header.deserialize : Reader H) packet
  return (result.1, Header.getSerializedSize result.1)

/-- The header, the number of bytes that it takes, and the packet without them. -/
def removeHeader (H : Type) [Header H] (packet : List UInt8) : Option (H × Nat × List UInt8) := do
  let peeked ← peekHeader H packet
  return (peeked.1, peeked.2, packet.drop peeked.2)

theorem addHeader_of_size {fill : UInt8} {header : H} {packet : List UInt8}
    (hsize : Header.getSerializedSize header = (Header.serialize header).length) :
    addHeader fill header packet = some (Header.serialize header ++ packet) := by
  unfold addHeader
  rw [hsize, if_pos (Nat.le_add_right _ _), List.drop_left' List.length_replicate]

/-- A header for which there is room is added. -/
theorem addHeader_of_room (fill : UInt8) {header : H} {packet : List UInt8}
    (hroom : (Header.serialize header).length ≤
      Header.getSerializedSize header + packet.length) :
    ∃ tail, addHeader fill header packet = some (Header.serialize header ++ tail) :=
  ⟨_, if_pos hroom⟩

/-- What was written is in front. -/
theorem of_addHeader {fill : UInt8} {header : H} {packet result : List UInt8}
    (h : addHeader fill header packet = some result) :
    ∃ tail, result = Header.serialize header ++ tail ∧
      (Header.serialize header ++ tail).length =
        Header.getSerializedSize header + packet.length := by
  unfold addHeader at h
  dsimp only at h
  split_ifs at h with hroom
  obtain rfl := Option.some.inj h
  refine ⟨_, rfl, ?_⟩
  rw [List.length_append, List.length_drop, List.length_append, List.length_replicate]
  omega

theorem peekHeader_of_reads {header : H} {written rest : List UInt8}
    (hreads : Reads Header.deserialize written header) :
    peekHeader H (written ++ rest) = some (header, Header.getSerializedSize header) := by
  unfold peekHeader
  rw [hreads]
  rfl

theorem removeHeader_of_reads {header : H} {written : List UInt8}
    (hreads : Reads Header.deserialize written header) (rest : List UInt8) :
    removeHeader H (written ++ rest) =
      some (header, Header.getSerializedSize header,
        (written ++ rest).drop (Header.getSerializedSize header)) := by
  unfold removeHeader
  rw [peekHeader_of_reads hreads]
  rfl

/-- A header that takes as many bytes as were written leaves what comes after them. -/
theorem removeHeader_of_size {header : H} {written : List UInt8}
    (hreads : Reads Header.deserialize written header)
    (hsize : Header.getSerializedSize header = written.length) (rest : List UInt8) :
    removeHeader H (written ++ rest) = some (header, written.length, rest) := by
  rw [removeHeader_of_reads hreads, hsize, List.drop_left]

theorem removeHeader_eq_some {header : H} {size : Nat} {packet left : List UInt8} :
    removeHeader H packet = some (header, size, left) ↔
      ∃ rest, Header.deserialize packet = some (header, rest) ∧
        size = Header.getSerializedSize header ∧ left = packet.drop size := by
  unfold removeHeader peekHeader
  cases (Header.deserialize : Reader H) packet with
  | none =>
      constructor
      · intro h
        cases h
      · rintro ⟨_, h, -⟩
        cases h
  | some result =>
      constructor
      · intro h
        obtain ⟨rfl, hrest⟩ := Prod.mk.inj (Option.some.inj h)
        obtain ⟨rfl, rfl⟩ := Prod.mk.inj hrest
        exact ⟨result.2, rfl, rfl, rfl⟩
      · rintro ⟨rest, hresult, rfl, rfl⟩
        obtain rfl := Option.some.inj hresult
        rfl

end Packet

end NtnIab
