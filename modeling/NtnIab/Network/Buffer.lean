import NtnIab.Library.BigEndian

/-!
# Reading and writing packet buffers

A buffer iterator is the list of bytes from its position to the end of the buffer, so its length
is `GetRemainingSize`. The reads in network order take their bytes from the front; callers check
the remaining size first and advance by dropping what they read.
-/

namespace NtnIab

open BigEndian

/-- A property of bytes that holds of all 256 of them. -/
theorem forall_uint8 {P : UInt8 → Prop} (h : ∀ n : Fin 256, P (UInt8.ofFin n)) (t : UInt8) :
    P t := h t.toFin

def writeHtonU32 (n : UInt32) : List UInt8 := encode 4 n.toNat

def writeHtonU64 (n : UInt64) : List UInt8 := encode 8 n.toNat

def readU8 (i : List UInt8) : UInt8 := i.headD 0

def readNtohU16 (i : List UInt8) : UInt16 := UInt16.ofNat (decode (i.take 2))

def readNtohU32 (i : List UInt8) : UInt32 := UInt32.ofNat (decode (i.take 4))

def readNtohU64 (i : List UInt8) : UInt64 := UInt64.ofNat (decode (i.take 8))

@[simp] theorem length_writeHtonU32 (n : UInt32) : (writeHtonU32 n).length = 4 :=
  length_encode 4 _

@[simp] theorem length_writeHtonU64 (n : UInt64) : (writeHtonU64 n).length = 8 :=
  length_encode 8 _

theorem readNtohU32_write (pre rest : List UInt8) (n : UInt32) :
    readNtohU32 ((pre ++ (writeHtonU32 n ++ rest)).drop pre.length) = n := by
  have htake : (writeHtonU32 n ++ rest).take 4 = writeHtonU32 n := by simp
  have hn : decode (encode 4 n.toNat) = n.toNat := decode_encode_of_lt n.toNat_lt
  rw [readNtohU32, List.drop_left, htake, writeHtonU32, hn, UInt32.ofNat_toNat]

theorem readNtohU64_write (pre rest : List UInt8) (n : UInt64) :
    readNtohU64 ((pre ++ (writeHtonU64 n ++ rest)).drop pre.length) = n := by
  have htake : (writeHtonU64 n ++ rest).take 8 = writeHtonU64 n := by simp
  have hn : decode (encode 8 n.toNat) = n.toNat := decode_encode_of_lt n.toNat_lt
  rw [readNtohU64, List.drop_left, htake, writeHtonU64, hn, UInt64.ofNat_toNat]

end NtnIab
