import NtnIab.Quic.Header

/-!
# What the header decoder consumes

The size reported for a header includes ten bytes that are neither written nor read, and is that of
the packet number's value, not of the field it was read from. `HeaderFits` says of a buffer when
that size is within it.
-/

namespace NtnIab.Quic

open BigEndian QuicHeader

/-- The bytes a packet number takes in a short header. -/
def packetNumberOctets (n : Nat) : Nat := if n < 256 then 1 else if n < 65536 then 2 else 4

/-- The length of the packet number field for a short type, if it is defined. -/
def packetNumberField (type : UInt8) : Option Nat :=
  if type = ONE_OCTECT then some 1
  else if type = TWO_OCTECTS then some 2
  else if type = FOUR_OCTECTS then some 4
  else none

/-- The header at the front of the buffer is truncated or undefined, and so rejected, or ten bytes
follow its fields (fourteen in a version negotiation, which has no packet number), less those by
which the packet number is shorter than its field. -/
def HeaderFits : List UInt8 → Prop
  | [] => True
  | t :: i =>
      if t < 0x80 then
        let c := if t &&& 0x40 = 0 then 0 else 8
        match packetNumberField (t &&& 0x1F) with
        | none => True
        | some n => i.length < c + n + 1 ∨
            c + packetNumberOctets (decode ((i.drop c).take n)) + 12 ≤ i.length + 1
      else
        t &&& 0x7F = NONE ∨ 28 ≤ i.length + 1 ∨
          i.length + 1 < if t &&& 0x7F = VERSION_NEGOTIATION then 14 else 18

/-! ## Sizes -/

theorem getSerializedSize_of_long {h : QuicHeader} (hlong : h.form = .long) :
    h.getSerializedSize = 28 := by
  simp [getSerializedSize, calculateHeaderLength, isLong, hlong]

theorem getSerializedSize_of_short {h : QuicHeader} (hshort : h.form = .short) (n : UInt32) :
    (h.setPacketNumber n).getSerializedSize =
      (if h.c then 8 else 0) + packetNumberOctets n.toNat + 12 := by
  have htypes : TWO_OCTECTS ≠ ONE_OCTECT ∧ FOUR_OCTECTS ≠ ONE_OCTECT ∧
      FOUR_OCTECTS ≠ TWO_OCTECTS := by decide
  have hone : n < 256 ↔ n.toNat < 256 := UInt32.lt_iff_toNat_lt
  have htwo : n < 65536 ↔ n.toNat < 65536 := UInt32.lt_iff_toNat_lt
  simp only [getSerializedSize, calculateHeaderLength, isLong, isShort, setPacketNumber, hshort,
    hasConnectionId, getPacketNumLen, packetNumberOctets, hone, htwo]
  cases h.c
  all_goals
    by_cases h₁ : n.toNat < 256
    · simp [h₁]
    · by_cases h₂ : n.toNat < 65536 <;> simp [h₁, h₂, htypes]

theorem deserializePathId_size (h : QuicHeader) (j : List UInt8) :
    (h.deserializePathId j).1 = if j.length < 1 then 0 else h.getSerializedSize := by
  cases j <;> rfl

theorem readU8_toNat {j : List UInt8} (hj : 1 ≤ j.length) :
    (readU8 j).toUInt32.toNat = decode (j.take 1) := by
  cases j with
  | nil => simp at hj
  | cons b j => simp [readU8, decode]

theorem readNtohU16_toNat {j : List UInt8} (hj : 2 ≤ j.length) :
    (readNtohU16 j).toUInt32.toNat = decode (j.take 2) := by
  have hlt := decode_lt (j.take 2)
  rw [List.length_take, Nat.min_eq_left hj] at hlt
  simpa [readNtohU16] using Nat.mod_eq_of_lt hlt

theorem readNtohU32_toNat {j : List UInt8} (hj : 4 ≤ j.length) :
    (readNtohU32 j).toNat = decode (j.take 4) := by
  have hlt := decode_lt (j.take 4)
  rw [List.length_take, Nat.min_eq_left hj] at hlt
  simpa [readNtohU32] using Nat.mod_eq_of_lt hlt

/-- The size reported for a short header from its packet number on. -/
theorem deserializeShort_size {h : QuicHeader} (hshort : h.form = .short) (j : List UInt8) :
    (h.deserializeShort j).1 =
      match packetNumberField h.type with
      | none => 0
      | some n =>
          if j.length < n + 1 then 0
          else (if h.c then 8 else 0) + packetNumberOctets (decode (j.take n)) + 12 := by
  have hread : ∀ n v, (n ≤ j.length → v.toNat = decode (j.take n)) →
      (if j.length < n then (0, h)
        else (h.setPacketNumber v).deserializePathId (j.drop n)).1 =
        if j.length < n + 1 then 0
        else (if h.c then 8 else 0) + packetNumberOctets (decode (j.take n)) + 12 := by
    intro n v hv
    by_cases hn : j.length < n
    · rw [if_pos hn, if_pos (by omega)]
    · rw [if_neg hn, deserializePathId_size, getSerializedSize_of_short hshort,
        hv (by omega), List.length_drop]
      by_cases hn' : j.length < n + 1
      · rw [if_pos hn', if_pos (by omega)]
      · rw [if_neg hn', if_neg (by omega)]
  unfold deserializeShort packetNumberField
  by_cases hone : h.type = ONE_OCTECT
  · rw [if_pos hone, if_pos hone]
    exact hread 1 _ readU8_toNat
  · rw [if_neg hone, if_neg hone]
    by_cases htwo : h.type = TWO_OCTECTS
    · rw [if_pos htwo, if_pos htwo]
      exact hread 2 _ readNtohU16_toNat
    · rw [if_neg htwo, if_neg htwo]
      by_cases hfour : h.type = FOUR_OCTECTS
      · rw [if_pos hfour, if_pos hfour]
        exact hread 4 _ readNtohU32_toNat
      · rw [if_neg hfour, if_neg hfour]

/-- The size reported for a long header from its version on. -/
theorem deserializeLong_size {h : QuicHeader} (hlong : h.form = .long) (j : List UInt8) :
    (h.deserializeLong j).1 =
      if j.length < (if h.type = VERSION_NEGOTIATION then 5 else 9) then 0 else 28 := by
  have hversion : ∀ n, (h.setVersion n).form = .long := fun n => hlong
  have hnumber : ∀ n m, ((h.setVersion n).setPacketNumber m).form = .long := fun n m => hlong
  have htype : ∀ n, (h.setVersion n).isVersionNegotiation = decide (h.type = VERSION_NEGOTIATION) :=
    fun n => rfl
  unfold deserializeLong
  simp only [htype, decide_eq_true_eq]
  by_cases hvn : h.type = VERSION_NEGOTIATION
  · simp only [if_pos hvn, deserializePathId_size, getSerializedSize_of_long (hversion _),
      List.length_drop, apply_ite Prod.fst]
    repeat' split
    all_goals first | rfl | omega
  · simp only [if_neg hvn, deserializePathId_size, getSerializedSize_of_long (hnumber _ _),
      List.length_drop, apply_ite Prod.fst]
    repeat' split
    all_goals first | rfl | omega

/-! ## The bound -/

theorem ofTypeByte_of_short {t : UInt8} (hshort : t < 0x80) :
    (ofTypeByte t).form = .short ∧ (ofTypeByte t).type = t &&& 0x1F ∧
      ((ofTypeByte t).c = true ↔ t &&& 0x40 ≠ 0) := by
  have hall : ∀ t : UInt8, t < 0x80 → (ofTypeByte t).form = .short ∧
      (ofTypeByte t).type = t &&& 0x1F ∧ ((ofTypeByte t).c = true ↔ t &&& 0x40 ≠ 0) :=
    forall_uint8 (by decide +kernel)
  exact hall t hshort

theorem ofTypeByte_of_long {t : UInt8} (hlong : ¬ t < 0x80) :
    (ofTypeByte t).form = .long ∧ (ofTypeByte t).type = t &&& 0x7F := by
  have hall : ∀ t : UInt8, ¬ t < 0x80 → (ofTypeByte t).form = .long ∧
      (ofTypeByte t).type = t &&& 0x7F := forall_uint8 (by decide +kernel)
  exact hall t hlong

/-- The size reported for a buffer with a short first byte. -/
theorem deserialize_size_of_short {t : UInt8} (hshort : t < 0x80) (i : List UInt8) :
    (deserialize (t :: i)).1 =
      let c := if t &&& 0x40 = 0 then 0 else 8
      match packetNumberField (t &&& 0x1F) with
      | none => 0
      | some n =>
          if i.length < c + n + 1 then 0
          else c + packetNumberOctets (decode ((i.drop c).take n)) + 12 := by
  obtain ⟨hform, htype, hc⟩ := ofTypeByte_of_short hshort
  have hnumber : ∀ h : QuicHeader, h.form = .short → ∀ j,
      (h.deserializeNumber j).1 = (h.deserializeShort j).1 := fun h hh j => by
    simp [deserializeNumber, isLong, hh]
  have hnone : ¬ ((ofTypeByte t).type = NONE ∧ (ofTypeByte t).isLong = true) := by
    simp [isLong, hform]
  simp only [deserialize, if_neg hnone]
  by_cases hcid : t &&& 0x40 = 0
  · have hcfalse : (ofTypeByte t).c = false := by simpa [hcid] using hc
    have hno : (ofTypeByte t).hasConnectionId = false := by
      simp [hasConnectionId, isShort, hform, hcfalse]
    rw [hno, if_neg Bool.false_ne_true, hnumber _ hform, deserializeShort_size hform, htype]
    simp [hcid, hcfalse]
  · have hctrue : (ofTypeByte t).c = true := hc.2 hcid
    have hyes : (ofTypeByte t).hasConnectionId = true := by
      simp [hasConnectionId, hctrue]
    have hset : ∀ n, ((ofTypeByte t).setConnectionID n).form = .short ∧
        ((ofTypeByte t).setConnectionID n).type = t &&& 0x1F ∧
        ((ofTypeByte t).setConnectionID n).c = true := fun n =>
      ⟨hform, htype, by simp [setConnectionID, isShort, hform]⟩
    rw [hyes, if_pos rfl]
    by_cases hlen : i.length < 8
    · rw [if_pos hlen]
      cases packetNumberField (t &&& 0x1F) with
      | none => rfl
      | some n => simp only [if_neg hcid]; rw [if_pos (by omega)]
    · rw [if_neg hlen, hnumber _ (hset _).1, deserializeShort_size (hset _).1, (hset _).2.1,
        (hset _).2.2]
      cases packetNumberField (t &&& 0x1F) with
      | none => rfl
      | some n =>
          simp only [if_neg hcid, List.length_drop, if_true]
          by_cases hn : i.length < 8 + n + 1
          · rw [if_pos hn, if_pos (by omega)]
          · rw [if_neg hn, if_neg (by omega)]

/-- The size reported for a buffer with a long first byte. -/
theorem deserialize_size_of_long {t : UInt8} (hlong : ¬ t < 0x80) (i : List UInt8) :
    (deserialize (t :: i)).1 =
      if t &&& 0x7F = NONE then 0
      else if i.length + 1 < (if t &&& 0x7F = VERSION_NEGOTIATION then 14 else 18) then 0
      else 28 := by
  obtain ⟨hform, htype⟩ := ofTypeByte_of_long hlong
  have hisLong : (ofTypeByte t).isLong = true := by simp [isLong, hform]
  have hcid : (ofTypeByte t).hasConnectionId = true := by simp [hasConnectionId, isShort, hform]
  have hset : ∀ n, ((ofTypeByte t).setConnectionID n).form = .long ∧
      ((ofTypeByte t).setConnectionID n).type = t &&& 0x7F := fun n => ⟨hform, htype⟩
  have hnumber : ∀ n j, (((ofTypeByte t).setConnectionID n).deserializeNumber j).1 =
      if j.length < (if t &&& 0x7F = VERSION_NEGOTIATION then 5 else 9) then 0 else 28 :=
    fun n j => by
      rw [← (hset n).2, ← deserializeLong_size (hset n).1]
      simp [deserializeNumber, isLong, hform]
  simp only [deserialize, hisLong, hcid, htype, and_true, if_true]
  by_cases hnone : t &&& 0x7F = NONE
  · rw [if_pos hnone, if_pos hnone]
  · rw [if_neg hnone, if_neg hnone]
    by_cases hlen : i.length < 8
    · rw [if_pos hlen]
      split <;> split <;> first | rfl | omega
    · rw [if_neg hlen, hnumber, List.length_drop]
      repeat' split
      all_goals first | rfl | omega

/-- The header decoder stays within the buffer exactly on the buffers that fit. -/
theorem header_size_le_iff (b : List UInt8) :
    (deserialize b).1 ≤ b.length ↔ HeaderFits b := by
  cases b with
  | nil => exact ⟨fun _ => trivial, fun _ => Nat.le_refl _⟩
  | cons t i =>
      by_cases hshort : t < 0x80
      · rw [deserialize_size_of_short hshort]
        simp only [HeaderFits, if_pos hshort, List.length_cons]
        cases packetNumberField (t &&& 0x1F) with
        | none => simp
        | some n =>
            dsimp only
            generalize (if t &&& 0x40 = 0 then 0 else 8) = c
            by_cases hlen : i.length < c + n + 1
            · simp [hlen]
            · rw [if_neg hlen]
              exact ⟨.inr, fun h => h.resolve_left hlen⟩
      · rw [deserialize_size_of_long hshort]
        simp only [HeaderFits, if_neg hshort, List.length_cons]
        by_cases hnone : t &&& 0x7F = NONE
        · simp [hnone]
        · rw [if_neg hnone]
          split <;> split <;> simp_all

end NtnIab.Quic
