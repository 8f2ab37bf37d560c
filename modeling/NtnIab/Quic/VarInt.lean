import NtnIab.Network.Buffer

/-!
# Variable-length integers

The two high bits of the first byte give the length of a varint: 1, 2, 4 or 8 bytes. The reader is
used on untrusted bytes. On an empty buffer it consumes nothing, on a truncated varint it consumes
the first byte only, and in both cases it returns 0.
-/

namespace NtnIab.Quic

open BigEndian

/-- The first byte of the list with the length mask set. -/
def setMask (mask : UInt8) : List UInt8 → List UInt8
  | [] => []
  | b :: rest => (b ||| mask) :: rest

/-- `WriteVarInt64`: a value of 2^62 or more is not written at all. -/
def writeVarInt64 (varInt64 : Nat) : List UInt8 :=
  if varInt64 ≤ 63 then encode 1 varInt64
  else if varInt64 ≤ 16383 then setMask 0x40 (encode 2 varInt64)
  else if varInt64 ≤ 1073741823 then setMask 0x80 (encode 4 varInt64)
  else if varInt64 ≤ 4611686018427387903 then setMask 0xC0 (encode 8 varInt64)
  else []

/-- The value of a first byte's low bits and the `n` bytes after it, and the bytes that follow. -/
def readTail (first : UInt8) (n : Nat) (i : List UInt8) : Nat × List UInt8 :=
  if i.length < n then (0, i)
  else (decode ((first &&& 0x3F) :: i.take n), i.drop n)

def readVarInt64 : List UInt8 → Nat × List UInt8
  | [] => (0, [])
  | first :: i =>
      let mask := first &&& 0xC0
      if mask = 0x00 then readTail first 0 i
      else if mask = 0x40 then readTail first 1 i
      else if mask = 0x80 then readTail first 3 i
      else readTail first 7 i

/-- The length of the shortest varint of a value, in bits, and 0 from 2^62 up. -/
def getVarInt64Size (varInt64 : Nat) : Nat :=
  if varInt64 ≤ 63 then 8
  else if varInt64 ≤ 16383 then 16
  else if varInt64 ≤ 1073741823 then 32
  else if varInt64 ≤ 4611686018427387903 then 64
  else 0

/-! ## Sizes -/

/-- The length of the shortest varint of a value in bytes. -/
def varIntBytes (varInt64 : Nat) : Nat := getVarInt64Size varInt64 / 8

theorem getVarInt64Size_eq (v : Nat) : getVarInt64Size v = 8 * varIntBytes v := by
  unfold varIntBytes getVarInt64Size
  repeat' split
  all_goals rfl

theorem length_setMask (mask : UInt8) (bytes : List UInt8) :
    (setMask mask bytes).length = bytes.length := by
  cases bytes <;> rfl

theorem length_writeVarInt64 (v : Nat) : (writeVarInt64 v).length = varIntBytes v := by
  unfold writeVarInt64 varIntBytes getVarInt64Size
  repeat' split
  all_goals simp [length_setMask]

/-- A larger integer is not written with fewer bytes, as long as it can be written. -/
theorem varIntBytes_mono {v w : Nat} (hle : v ≤ w) (hlt : w < 2 ^ 62) :
    varIntBytes v ≤ varIntBytes w := by
  unfold varIntBytes getVarInt64Size
  split_ifs <;> omega

theorem varIntBytes_le_of_lt {v n : Nat} (hv : v < 64 * 256 ^ n)
    (hn : n = 0 ∨ n = 1 ∨ n = 3 ∨ n = 7) : varIntBytes v ≤ n + 1 := by
  unfold varIntBytes getVarInt64Size
  rcases hn with rfl | rfl | rfl | rfl
  all_goals
    norm_num at hv
    repeat' split
    all_goals omega

/-! ## Reading -/

/-- What a read does: nothing on an empty buffer, otherwise it advances by one byte with value 0,
or by the varint's length with a value of at most that length. -/
theorem readVarInt64_cases (i : List UInt8) :
    (i = [] ∧ readVarInt64 i = (0, [])) ∨
      ∃ n v, readVarInt64 i = (v, i.drop (n + 1)) ∧ n + 1 ≤ i.length ∧
        (n = 0 ∨ n = 1 ∨ n = 3 ∨ n = 7) ∧ v < 64 * 256 ^ n := by
  cases i with
  | nil => exact .inl ⟨rfl, rfl⟩
  | cons first i =>
      refine .inr ?_
      have hlow : (first &&& 0x3F).toNat < 64 :=
        forall_uint8 (P := fun t => (t &&& 0x3F).toNat < 64) (by decide +kernel) first
      have htail : ∀ n, (n = 0 ∨ n = 1 ∨ n = 3 ∨ n = 7) →
          ∃ m v, readTail first n i = (v, (first :: i).drop (m + 1)) ∧
            m + 1 ≤ (first :: i).length ∧ (m = 0 ∨ m = 1 ∨ m = 3 ∨ m = 7) ∧
            v < 64 * 256 ^ m := by
        intro n hn
        unfold readTail
        split
        · exact ⟨0, 0, rfl, by simp, .inl rfl, by decide⟩
        · rename_i hlen
          refine ⟨n, _, rfl, by simp; omega, hn, ?_⟩
          have htake : (i.take n).length = n := by simp; omega
          have hrest := decode_lt (i.take n)
          rw [htake] at hrest
          calc decode ((first &&& 0x3F) :: i.take n)
              = (first &&& 0x3F).toNat * 256 ^ n + decode (i.take n) := by rw [decode, htake]
            _ < (first &&& 0x3F).toNat * 256 ^ n + 256 ^ n := by omega
            _ = ((first &&& 0x3F).toNat + 1) * 256 ^ n := by ring
            _ ≤ 64 * 256 ^ n := Nat.mul_le_mul_right _ hlow
      unfold readVarInt64
      dsimp only
      split
      · exact htail 0 (by omega)
      · split
        · exact htail 1 (by omega)
        · split
          · exact htail 3 (by omega)
          · exact htail 7 (by omega)

theorem readVarInt64_lt (i : List UInt8) : (readVarInt64 i).1 < 2 ^ 62 := by
  rcases readVarInt64_cases i with ⟨-, h⟩ | ⟨n, v, h, -, hn, hv⟩
  · simp [h]
  · rw [h]
    rcases hn with rfl | rfl | rfl | rfl <;> norm_num at hv ⊢ <;> omega

/-- Reading a written varint gives the value back, whatever follows it. -/
theorem readVarInt64_write {v : Nat} (hv : v < 2 ^ 62) (rest : List UInt8) :
    readVarInt64 (writeVarInt64 v ++ rest) = (v, rest) := by
  have hone : ∀ b : UInt8, b < 64 → b &&& 0xC0 = 0x00 ∧ b &&& 0x3F = b :=
    forall_uint8 (by decide +kernel)
  have hmask : ∀ b : UInt8, b < 64 →
      ((b ||| 0x40) &&& 0xC0 = 0x40 ∧ (b ||| 0x40) &&& 0x3F = b) ∧
      ((b ||| 0x80) &&& 0xC0 = 0x80 ∧ (b ||| 0x80) &&& 0x3F = b) ∧
      ((b ||| 0xC0) &&& 0xC0 = 0xC0 ∧ (b ||| 0xC0) &&& 0x3F = b) :=
    forall_uint8 (by decide +kernel)
  have hfirst : ∀ n, v / 256 ^ n < 64 → UInt8.ofNat (v / 256 ^ n) < 64 := by
    intro n hn
    have hbyte : (UInt8.ofNat (v / 256 ^ n)).toNat = v / 256 ^ n :=
      UInt8.toNat_ofNat_of_lt (Nat.lt_trans hn (by decide))
    rw [UInt8.lt_iff_toNat_lt, hbyte]
    exact hn
  -- the low bits of the first byte and the bytes after it are the encoding itself
  have htail : ∀ n (first : UInt8), first &&& 0x3F = UInt8.ofNat (v / 256 ^ n) →
      v < 256 ^ (n + 1) → readTail first n (encode n v ++ rest) = (v, rest) := by
    intro n first hlow hlt
    have htake : (encode n v ++ rest).take n = encode n v := by simp
    have hdrop : (encode n v ++ rest).drop n = rest := by simp
    rw [readTail, if_neg (by simp), hlow, htake, hdrop]
    have hdecode : decode (encode (n + 1) v) = v := decode_encode_of_lt hlt
    exact congrArg (·, rest) hdecode
  unfold writeVarInt64
  split
  · have hb := hfirst 0 (by omega)
    simp only [encode, List.cons_append, readVarInt64, (hone _ hb).1, if_true]
    exact htail 0 _ (hone _ hb).2 (by omega)
  · split
    · have hb := hmask _ (hfirst 1 (by omega))
      have hencode : encode 2 v = UInt8.ofNat (v / 256 ^ 1) :: encode 1 v := rfl
      simp only [hencode, setMask, List.cons_append, readVarInt64, hb.1.1]
      exact htail 1 _ hb.1.2 (by omega)
    · split
      · have hb := hmask _ (hfirst 3 (by omega))
        have hencode : encode 4 v = UInt8.ofNat (v / 256 ^ 3) :: encode 3 v := rfl
        simp only [hencode, setMask, List.cons_append, readVarInt64, hb.2.1.1]
        exact htail 3 _ hb.2.1.2 (by omega)
      · rw [if_pos (by omega)]
        have hb := hmask _ (hfirst 7 (by omega))
        have hencode : encode 8 v = UInt8.ofNat (v / 256 ^ 7) :: encode 7 v := rfl
        simp only [hencode, setMask, List.cons_append, readVarInt64, hb.2.2.1]
        exact htail 7 _ hb.2.2.2 (by omega)

end NtnIab.Quic
