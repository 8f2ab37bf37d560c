import NtnIab.Network.Packet
import NtnIab.Quic.HeaderBounds

/-!
# Headers are read back as they were written

The reader gets every header back, whatever follows it, and returns the size that the header
reports. But this size is not the number of bytes that are written. It counts ten bytes more, and
for a version negotiation also the packet number, which is not written.

## Strategy

The writer and the reader are followed from field to field, from the last one on: the path id, the
packet number and the version, the connection id, and the first byte.
-/

namespace NtnIab.Quic

namespace QuicHeader

/-! ## Writing headers -/

/-- The packet number of a short header. -/
def serializeNumber (h : QuicHeader) : List UInt8 :=
  if h.type = ONE_OCTECT then [h.packetNumber.toUInt8]
  else if h.type = TWO_OCTECTS then Iterator.writeHtonU16 h.packetNumber.toUInt16
  else if h.type = FOUR_OCTECTS then writeHtonU32 h.packetNumber
  else []

/-- The version of a long header and, unless it is a version negotiation, the packet number. -/
def serializeVersion (h : QuicHeader) : List UInt8 :=
  writeHtonU32 h.version ++
    if h.isVersionNegotiation then [] else writeHtonU32 h.packetNumber

/-- The type byte has the form in its first bit and, in the short form, the flags in the next
two. -/
def typeByte (h : QuicHeader) : UInt8 :=
  match h.form with
  | .long => h.type + 0x80
  | .short => h.type + ((if h.c then 0x40 else 0) + if h.k then 0x20 else 0)

def serialize (h : QuicHeader) : List UInt8 :=
  h.typeByte ::
    ((if h.hasConnectionId then writeHtonU64 h.connectionId else []) ++
      ((if h.isLong then h.serializeVersion else h.serializeNumber) ++ [h.pathId]))

/-- A header that was built for a path. -/
inductive Created : QuicHeader → Prop
  | initial (connectionId : UInt64) (version packetNumber : UInt32) (pathId : UInt8) :
      Created ((createInitial connectionId version packetNumber).setPathId pathId)
  | retry (connectionId : UInt64) (version packetNumber : UInt32) (pathId : UInt8) :
      Created ((createRetry connectionId version packetNumber).setPathId pathId)
  | handshake (connectionId : UInt64) (version packetNumber : UInt32) (pathId : UInt8) :
      Created ((createHandshake connectionId version packetNumber).setPathId pathId)
  | zeroRtt (connectionId : UInt64) (version packetNumber : UInt32) (pathId : UInt8) :
      Created ((create0RTT connectionId version packetNumber).setPathId pathId)
  | versionNegotiation (connectionId : UInt64) (version : UInt32)
      (supportedVersions : List UInt32) (pathId : UInt8) :
      Created ((createVersionNegotiation connectionId version supportedVersions).setPathId pathId)
  | short (connectionId : UInt64) (packetNumber : UInt32) (connectionIdFlag keyPhaseBit : Bool)
      (pathId : UInt8) :
      Created ((createShort connectionId packetNumber connectionIdFlag keyPhaseBit).setPathId
        pathId)

attribute [ext] QuicHeader

/-! ## What is claimed -/

/-- The fields of a header that are compared. -/
def fields (h : QuicHeader) : TypeFormat × UInt8 × UInt64 × UInt32 × UInt32 × UInt8 :=
  (h.form, h.type, h.connectionId, h.version, h.packetNumber, h.pathId)

/-- The header has the size that it reports, and is read back whatever follows it. -/
structure RoundTrips (h : QuicHeader) : Prop where
  size : h.serialize.length = h.getSerializedSize
  returned : ∀ suffix, (deserialize (h.serialize ++ suffix)).1 = h.getSerializedSize
  same : ∀ suffix, (deserialize (h.serialize ++ suffix)).2.fields = h.fields

/-! ## The shape of a header -/

/-- What the constructors establish: the type of a long header is one of the five, that of a short
one is that of its packet number, and a field that is not written is zero. -/
structure WellFormed (h : QuicHeader) : Prop where
  long : h.form = .long → h.type ∈ [VERSION_NEGOTIATION, INITIAL, RETRY, HANDSHAKE,
    ZRTT_PROTECTED] ∧ h.c = false ∧ h.k = false
  short : h.form = .short → (h.setPacketNumber h.packetNumber).type = h.type ∧ h.version = 0
  connection : h.hasConnectionId = false → h.connectionId = 0
  number : h.form = .long → h.type = VERSION_NEGOTIATION → h.packetNumber = 0

variable {h : QuicHeader}

theorem wellFormed_setPathId (hwell : WellFormed h) (pathId : UInt8) :
    WellFormed (h.setPathId pathId) where
  long := hwell.long
  short := hwell.short
  connection := hwell.connection
  number := hwell.number

theorem wellFormed_createLong {type : UInt8}
    (htype : type ∈ [INITIAL, RETRY, HANDSHAKE, ZRTT_PROTECTED])
    (connectionId : UInt64) (version packetNumber : UInt32) :
    WellFormed ((createLong type connectionId version).setPacketNumber packetNumber) where
  long := fun _ => ⟨List.mem_cons_of_mem _ htype, rfl, rfl⟩
  short := nofun
  connection := nofun
  number := fun _ hversion => by
    obtain rfl : type = VERSION_NEGOTIATION := hversion
    exact absurd htype (by decide)

theorem wellFormed_createVersionNegotiation (connectionId : UInt64) (version : UInt32)
    (supportedVersions : List UInt32) :
    WellFormed (createVersionNegotiation connectionId version supportedVersions) where
  long := fun _ => ⟨List.mem_cons_self, rfl, rfl⟩
  short := nofun
  connection := nofun
  number := fun _ _ => rfl

theorem wellFormed_createShort (connectionId : UInt64) (packetNumber : UInt32)
    (connectionIdFlag keyPhaseBit : Bool) :
    WellFormed (createShort connectionId packetNumber connectionIdFlag keyPhaseBit) where
  long := by cases connectionIdFlag <;> nofun
  short := by cases connectionIdFlag <;> exact fun _ => ⟨rfl, rfl⟩
  connection := by
    cases connectionIdFlag
    · exact fun _ => rfl
    · nofun
  number := by cases connectionIdFlag <;> nofun

theorem Created.wellFormed (hcreated : Created h) : WellFormed h := by
  cases hcreated with
  | initial connectionId version packetNumber pathId =>
      exact wellFormed_setPathId (wellFormed_createLong (by decide) _ _ _) pathId
  | retry connectionId version packetNumber pathId =>
      exact wellFormed_setPathId (wellFormed_createLong (by decide) _ _ _) pathId
  | handshake connectionId version packetNumber pathId =>
      exact wellFormed_setPathId (wellFormed_createLong (by decide) _ _ _) pathId
  | zeroRtt connectionId version packetNumber pathId =>
      exact wellFormed_setPathId (wellFormed_createLong (by decide) _ _ _) pathId
  | versionNegotiation connectionId version supportedVersions pathId =>
      exact wellFormed_setPathId (wellFormed_createVersionNegotiation _ _ supportedVersions) pathId
  | short connectionId packetNumber connectionIdFlag keyPhaseBit pathId =>
      exact wellFormed_setPathId (wellFormed_createShort _ _ _ _) pathId

/-- What the first byte tells of a header. -/
def front (h : QuicHeader) : QuicHeader := { form := h.form, c := h.c, k := h.k, type := h.type }

@[simp] theorem front_isLong : h.front.isLong = h.isLong := rfl

@[simp] theorem front_hasConnectionId : h.front.hasConnectionId = h.hasConnectionId := rfl

/-- A connection id is written exactly where the flag says so. -/
theorem setConnectionID_front_c (hid : h.hasConnectionId = true) (n : UInt64) :
    (h.front.setConnectionID n).c = h.c := by
  show (if h.isShort = true then true else h.c) = h.c
  split_ifs with hshort
  · simp only [hasConnectionId, hshort, Bool.true_and, Bool.not_eq_true', decide_eq_false_iff_not,
      Bool.not_eq_false] at hid
    exact hid.symm
  · rfl

/-! ## Field by field -/

section

variable (rest : List UInt8)

theorem readNtohU16_writeHtonU16 (n : UInt16) :
    NtnIab.readNtohU16 (Iterator.writeHtonU16 n ++ rest) = n := by
  have htake : (Iterator.writeHtonU16 n ++ rest).take 2 = Iterator.writeHtonU16 n :=
    List.take_left' (Iterator.length_writeHtonU16 n)
  have hn : BigEndian.decode (BigEndian.encode 2 n.toNat) = n.toNat :=
    BigEndian.decode_encode_of_lt n.toNat_lt
  rw [NtnIab.readNtohU16, htake, Iterator.writeHtonU16, hn, UInt16.ofNat_toNat]

theorem readNtohU32_writeHtonU32 (n : UInt32) :
    readNtohU32 (writeHtonU32 n ++ rest) = n := readNtohU32_write [] rest n

theorem readNtohU64_writeHtonU64 (n : UInt64) :
    readNtohU64 (writeHtonU64 n ++ rest) = n := readNtohU64_write [] rest n

theorem toUInt8_toUInt32 {n : UInt32} (hn : n < 256) : n.toUInt8.toUInt32 = n := by
  apply UInt32.toNat_inj.1
  rw [UInt8.toNat_toUInt32, UInt32.toNat_toUInt8]
  exact Nat.mod_eq_of_lt (UInt32.lt_iff_toNat_lt.1 hn)

theorem toUInt16_toUInt32 {n : UInt32} (hn : n < 65536) : n.toUInt16.toUInt32 = n := by
  apply UInt32.toNat_inj.1
  rw [UInt16.toNat_toUInt32, UInt32.toNat_toUInt16]
  exact Nat.mod_eq_of_lt (UInt32.lt_iff_toNat_lt.1 hn)

theorem setPacketNumber_type_eq (hshort : h.form = .short) (n : UInt32) :
    (h.setPacketNumber n).type =
      if n < 256 then ONE_OCTECT else if n < 65536 then TWO_OCTECTS else FOUR_OCTECTS := by
  simp [setPacketNumber, isShort, hshort]

/-- The packet number of a short header is read back from the field of its length. -/
theorem deserializeShort_serializeNumber {g : QuicHeader} (htype : g.type = h.type)
    (hshort : h.form = .short) (hnumber : (h.setPacketNumber h.packetNumber).type = h.type) :
    g.deserializeShort (h.serializeNumber ++ rest) =
      (g.setPacketNumber h.packetNumber).deserializePathId rest := by
  have htypes : TWO_OCTECTS ≠ ONE_OCTECT ∧ FOUR_OCTECTS ≠ ONE_OCTECT ∧
      FOUR_OCTECTS ≠ TWO_OCTECTS := by decide
  rw [setPacketNumber_type_eq hshort] at hnumber
  unfold deserializeShort serializeNumber
  rw [htype, ← hnumber]
  by_cases hone : h.packetNumber < 256
  · have hread : (readU8 ([h.packetNumber.toUInt8] ++ rest)).toUInt32 = h.packetNumber :=
      toUInt8_toUInt32 hone
    simp only [if_pos hone]
    rw [if_pos trivial, if_pos trivial, hread, if_neg (by simp)]
    rfl
  · by_cases htwo : h.packetNumber < 65536
    · simp only [if_neg hone, if_pos htwo, if_neg htypes.1]
      rw [if_pos trivial, if_pos trivial, readNtohU16_writeHtonU16, toUInt16_toUInt32 htwo,
        if_neg (by rw [List.length_append, Iterator.length_writeHtonU16]; omega),
        List.drop_left' (Iterator.length_writeHtonU16 _)]
    · simp only [if_neg hone, if_neg htwo, if_neg htypes.2.1, if_neg htypes.2.2]
      rw [if_pos trivial, if_pos trivial, readNtohU32_writeHtonU32,
        if_neg (by rw [List.length_append, length_writeHtonU32]; omega),
        List.drop_left' (length_writeHtonU32 _)]

theorem deserializeLong_serializeVersion {g : QuicHeader} (htype : g.type = h.type) :
    g.deserializeLong (h.serializeVersion ++ rest) =
      (if h.isVersionNegotiation then g.setVersion h.version
        else (g.setVersion h.version).setPacketNumber h.packetNumber).deserializePathId rest := by
  have hsame : (g.setVersion h.version).isVersionNegotiation = h.isVersionNegotiation := by
    show decide (g.type = _) = decide (h.type = _)
    rw [htype]
  have hroom : ∀ (n : UInt32) (tail : List UInt8), ¬ (writeHtonU32 n ++ tail).length < 4 := by
    intro n tail
    rw [List.length_append, length_writeHtonU32]
    omega
  unfold deserializeLong serializeVersion
  rw [List.append_assoc, if_neg (hroom _ _), readNtohU32_writeHtonU32,
    List.drop_left' (length_writeHtonU32 _)]
  dsimp only
  rw [hsame]
  split
  · rfl
  · rw [if_neg (hroom _ _), readNtohU32_writeHtonU32, List.drop_left' (length_writeHtonU32 _)]

/-- The first byte is read back. -/
theorem ofTypeByte_typeByte (hwell : WellFormed h) :
    ofTypeByte h.typeByte = h.front := by
  have hlong : ∀ type ∈ [VERSION_NEGOTIATION, INITIAL, RETRY, HANDSHAKE, ZRTT_PROTECTED],
      ofTypeByte (type + 0x80) = { form := .long, type } := by decide +kernel
  have hshort : ∀ type ∈ [ONE_OCTECT, TWO_OCTECTS, FOUR_OCTECTS], ∀ c k : Bool,
      ofTypeByte (type + ((if c then 0x40 else 0) + if k then 0x20 else 0)) =
        { form := .short, c, k, type } := by decide +kernel
  unfold typeByte front
  cases hform : h.form with
  | long =>
      obtain ⟨htype, hc, hk⟩ := hwell.long hform
      rw [hc, hk]
      exact hlong _ htype
  | short =>
      refine hshort _ ?_ h.c h.k
      rw [← (hwell.short hform).1, setPacketNumber_type_eq hform]
      split_ifs <;> decide

/-- From the packet number on, a header is read back if the fields before it were. -/
theorem deserializeNumber_serialize (hwell : WellFormed h) {g : QuicHeader}
    (hform : g.form = h.form) (hc : g.c = h.c) (hk : g.k = h.k) (htype : g.type = h.type)
    (hconnectionId : g.connectionId = h.connectionId) (hpacketNumber : g.packetNumber = 0)
    (hversion : g.version = 0) :
    g.deserializeNumber ((if h.isLong then h.serializeVersion else h.serializeNumber) ++
      h.pathId :: rest) = (h.getSerializedSize, h) := by
  have hend : ∀ x : QuicHeader, x.setPathId h.pathId = h →
      x.deserializePathId (h.pathId :: rest) = (h.getSerializedSize, h) := by
    intro x hx
    show ((x.setPathId h.pathId).getSerializedSize, x.setPathId h.pathId) = _
    rw [hx]
  unfold deserializeNumber
  cases hlong : h.form with
  | long =>
      have hg : g.isLong = true := by simp [isLong, hform, hlong]
      have hh : h.isLong = true := by simp [isLong, hlong]
      rw [if_pos hg, if_pos hh, deserializeLong_serializeVersion _ htype]
      apply hend
      by_cases hvn : h.isVersionNegotiation
      · rw [if_pos hvn]
        have hzero := hwell.number hlong (of_decide_eq_true hvn)
        exact QuicHeader.ext hform hc hk htype hconnectionId (hpacketNumber.trans hzero.symm) rfl
          rfl
      · rw [if_neg hvn]
        have hkept := setPacketNumber_type_of_long (h := g.setVersion h.version)
          (hform.trans hlong) h.packetNumber
        exact QuicHeader.ext hform hc hk (hkept.trans htype) hconnectionId rfl rfl rfl
  | short =>
      have hg : ¬ g.isLong = true := by simp [isLong, hform, hlong]
      have hh : ¬ h.isLong = true := by simp [isLong, hlong]
      obtain ⟨hnumber, hnone⟩ := hwell.short hlong
      rw [if_neg hg, if_neg hh, deserializeShort_serializeNumber _ htype hlong hnumber]
      apply hend
      have hchosen : (g.setPacketNumber h.packetNumber).type = h.type := by
        rw [setPacketNumber_type_eq (hform.trans hlong), ← setPacketNumber_type_eq hlong]
        exact hnumber
      exact QuicHeader.ext hform hc hk hchosen hconnectionId rfl (hversion.trans hnone.symm) rfl

/-- A header is read back whatever follows it. -/
theorem deserialize_serialize (hwell : WellFormed h) :
    deserialize (h.serialize ++ rest) = (h.getSerializedSize, h) := by
  have hknown : ¬ (h.front.type = NONE ∧ h.front.isLong = true) := by
    rintro ⟨htype, hlong⟩
    have hfive := (hwell.long (of_decide_eq_true hlong)).1
    rw [show h.type = NONE from htype] at hfive
    exact absurd hfive (by decide)
  unfold deserialize serialize
  rw [List.cons_append, List.append_assoc, List.append_assoc, List.singleton_append]
  dsimp only
  rw [ofTypeByte_typeByte hwell, if_neg hknown, front_hasConnectionId]
  by_cases hid : h.hasConnectionId
  · rw [if_pos hid, if_pos hid, if_neg (by simp), readNtohU64_writeHtonU64,
      List.drop_left' (length_writeHtonU64 _)]
    exact deserializeNumber_serialize rest hwell rfl (setConnectionID_front_c hid _) rfl rfl rfl
      rfl rfl
  · have hzero := hwell.connection (Bool.eq_false_of_not_eq_true hid)
    rw [if_neg hid, if_neg hid, List.nil_append]
    exact deserializeNumber_serialize rest hwell rfl rfl rfl rfl hzero.symm rfl rfl

end

/-! ## The sizes -/

/-- The bytes that are counted and not written. -/
def missing (h : QuicHeader) : Nat := if h.isLong && h.isVersionNegotiation then 14 else 10

theorem length_serializeNumber (hshort : h.form = .short)
    (hnumber : (h.setPacketNumber h.packetNumber).type = h.type) :
    h.serializeNumber.length = packetNumberOctets h.packetNumber.toNat := by
  have htypes : TWO_OCTECTS ≠ ONE_OCTECT ∧ FOUR_OCTECTS ≠ ONE_OCTECT ∧
      FOUR_OCTECTS ≠ TWO_OCTECTS := by decide
  have hone : h.packetNumber < 256 ↔ h.packetNumber.toNat < 256 := UInt32.lt_iff_toNat_lt
  have htwo : h.packetNumber < 65536 ↔ h.packetNumber.toNat < 65536 := UInt32.lt_iff_toNat_lt
  rw [setPacketNumber_type_eq hshort] at hnumber
  unfold serializeNumber packetNumberOctets
  rw [← hnumber]
  simp only [hone, htwo]
  by_cases h₁ : h.packetNumber.toNat < 256
  · simp [h₁]
  · by_cases h₂ : h.packetNumber.toNat < 65536
    · simp [h₁, h₂, htypes]
    · simp [h₁, h₂, htypes]

theorem length_serialize (hwell : WellFormed h) :
    h.serialize.length + h.missing = h.getSerializedSize := by
  unfold serialize missing
  rw [List.length_cons, List.length_append, List.length_append, List.length_singleton]
  cases hform : h.form with
  | long =>
      have hlong : h.isLong = true := by simp [isLong, hform]
      have hid : h.hasConnectionId = true := by simp [hasConnectionId, isShort, hform]
      rw [getSerializedSize_of_long hform, if_pos hid, if_pos hlong, hlong, length_writeHtonU64]
      unfold serializeVersion
      rw [List.length_append, length_writeHtonU32, Bool.true_and]
      split
      · rfl
      · rw [length_writeHtonU32]
  | short =>
      have hlong : h.isLong = false := by simp [isLong, hform]
      have hid : h.hasConnectionId = h.c := by simp [hasConnectionId, isShort, hform]
      obtain ⟨hnumber, -⟩ := hwell.short hform
      have hsame : h.setPacketNumber h.packetNumber = h :=
        QuicHeader.ext rfl rfl rfl hnumber rfl rfl rfl rfl
      have hsize := getSerializedSize_of_short hform h.packetNumber
      rw [hsame] at hsize
      rw [hsize, hlong, hid, if_neg Bool.false_ne_true, length_serializeNumber hform hnumber]
      rw [Bool.false_and, if_neg Bool.false_ne_true]
      split_ifs
      · rw [length_writeHtonU64]
        omega
      · rw [List.length_nil]
        omega

/-! ## The round trip -/

/-- No header has the size that it reports, but every header is read back. -/
theorem readBack_of_created (hcreated : Created h) :
    ¬ h.RoundTrips ∧ h.serialize.length + h.missing = h.getSerializedSize ∧
      ∀ suffix, deserialize (h.serialize ++ suffix) = (h.getSerializedSize, h) := by
  have hwell := hcreated.wellFormed
  have hlength := length_serialize hwell
  refine ⟨fun htrips => ?_, hlength, fun suffix => deserialize_serialize suffix hwell⟩
  have hpositive : 0 < h.missing := by
    unfold missing
    split <;> decide
  have hsize := htrips.size
  omega

theorem readBack_short :
    let h := (createShort 7 300 true false).setPathId 1
    ¬ h.RoundTrips ∧ h.serialize.length + h.missing = h.getSerializedSize ∧
      ∀ suffix, deserialize (h.serialize ++ suffix) = (h.getSerializedSize, h) :=
  readBack_of_created (Created.short 7 300 true false 1)

/-- The first header of a connection has 18 bytes and reports 28. -/
theorem not_roundTrips_initial : ¬ ∀ h, Created h → h.RoundTrips := by
  intro hall
  have hsize := (hall _ (Created.initial 7 1 0 0)).size
  exact absurd hsize (by decide)

/-- In the room that a header asks for it is found again, and taking its size away leaves the
payload, whatever is in the bytes that were not written. -/
theorem removed_of_added (hcreated : Created h) (padding payload : List UInt8)
    (hroom : padding.length = h.missing) :
    deserialize (h.serialize ++ (padding ++ payload)) = (h.getSerializedSize, h) ∧
      (h.serialize ++ (padding ++ payload)).drop h.getSerializedSize = payload := by
  have hlength := length_serialize hcreated.wellFormed
  refine ⟨deserialize_serialize _ hcreated.wellFormed, ?_⟩
  rw [← List.append_assoc]
  apply List.drop_left'
  rw [List.length_append, hroom, hlength]

end QuicHeader

end NtnIab.Quic
