import NtnIab.Network.Buffer

/-!
# The QUIC packet header

One type byte serves two purposes: in the long form it is the packet type, in the short form the
length of the packet number. `deserialize` reads a header field by field from untrusted bytes and
returns the size it reports as consumed together with the header as far as it was read, since a
truncated buffer leaves the fields read so far in place.
-/

namespace NtnIab.Quic

inductive TypeFormat
  | short
  | long
  deriving Repr, DecidableEq

def VERSION_NEGOTIATION : UInt8 := 0
def INITIAL : UInt8 := 1
def RETRY : UInt8 := 2
def HANDSHAKE : UInt8 := 3
def ZRTT_PROTECTED : UInt8 := 4
def NONE : UInt8 := 5

def ONE_OCTECT : UInt8 := 0
def TWO_OCTECTS : UInt8 := 1
def FOUR_OCTECTS : UInt8 := 2

structure QuicHeader where
  form : TypeFormat := .short
  c : Bool := false
  k : Bool := false
  type : UInt8 := 0
  connectionId : UInt64 := 0
  packetNumber : UInt32 := 0
  version : UInt32 := 0
  pathId : UInt8 := 0
  deriving Repr, DecidableEq

namespace QuicHeader

/-! ## Predicates and accessors -/

def isShort (h : QuicHeader) : Bool := h.form = .short
def isLong (h : QuicHeader) : Bool := h.form = .long
def isVersionNegotiation (h : QuicHeader) : Bool := h.type = VERSION_NEGOTIATION
def isInitial (h : QuicHeader) : Bool := h.type = INITIAL
def isRetry (h : QuicHeader) : Bool := h.type = RETRY
def isHandshake (h : QuicHeader) : Bool := h.type = HANDSHAKE
def isORTT (h : QuicHeader) : Bool := h.type = ZRTT_PROTECTED
def hasConnectionId (h : QuicHeader) : Bool := !(h.isShort && h.c = false)

def setFormat (h : QuicHeader) (form : TypeFormat) : QuicHeader := { h with form }

def setTypeByte (h : QuicHeader) (type : UInt8) : QuicHeader := { h with type }

def setKeyPhaseBit (h : QuicHeader) (k : Bool) : QuicHeader := { h with k }

def setVersion (h : QuicHeader) (version : UInt32) : QuicHeader := { h with version }

def setPathId (h : QuicHeader) (pathId : UInt8) : QuicHeader := { h with pathId }

def setConnectionID (h : QuicHeader) (connectionId : UInt64) : QuicHeader :=
  { h with connectionId, c := if h.isShort then true else h.c }

/-- In the short form the packet number also chooses the type byte. -/
def setPacketNumber (h : QuicHeader) (packetNumber : UInt32) : QuicHeader :=
  { h with
    packetNumber
    type :=
      if h.isShort then
        if packetNumber < 256 then ONE_OCTECT
        else if packetNumber < 65536 then TWO_OCTECTS
        else FOUR_OCTECTS
      else h.type }

/-- The packet number's length in bits. -/
def getPacketNumLen (h : QuicHeader) : Nat :=
  if h.isLong then 32
  else if h.type = ONE_OCTECT then 8
  else if h.type = TWO_OCTECTS then 16
  else 32

def calculateHeaderLength (h : QuicHeader) : Nat :=
  let len :=
    if h.isLong then 8 + 64 + 32 + 32 + 8 + 32
    else 8 + 64 * h.hasConnectionId.toNat + h.getPacketNumLen + 8 + 32
  (len + (16 + 32)) / 8

def getSerializedSize (h : QuicHeader) : Nat := h.calculateHeaderLength

/-! ## Building headers -/

/-- The part the long headers' constructors share. -/
def createLong (type : UInt8) (connectionId : UInt64) (version : UInt32) : QuicHeader :=
  (((({} : QuicHeader).setFormat .long).setTypeByte type).setConnectionID connectionId).setVersion
    version

def createInitial (connectionId : UInt64) (version packetNumber : UInt32) : QuicHeader :=
  (createLong INITIAL connectionId version).setPacketNumber packetNumber

def createRetry (connectionId : UInt64) (version packetNumber : UInt32) : QuicHeader :=
  (createLong RETRY connectionId version).setPacketNumber packetNumber

def createHandshake (connectionId : UInt64) (version packetNumber : UInt32) : QuicHeader :=
  (createLong HANDSHAKE connectionId version).setPacketNumber packetNumber

def create0RTT (connectionId : UInt64) (version packetNumber : UInt32) : QuicHeader :=
  (createLong ZRTT_PROTECTED connectionId version).setPacketNumber packetNumber

/-- The list of supported versions is not written anywhere by the source. -/
def createVersionNegotiation (connectionId : UInt64) (version : UInt32)
    (_supportedVersions : List UInt32) : QuicHeader :=
  createLong VERSION_NEGOTIATION connectionId version

def createShort (connectionId : UInt64) (packetNumber : UInt32)
    (connectionIdFlag keyPhaseBit : Bool) : QuicHeader :=
  let head := ((({} : QuicHeader).setFormat .short).setKeyPhaseBit keyPhaseBit).setPacketNumber
    packetNumber
  if connectionIdFlag then head.setConnectionID connectionId else head

/-! ## Reading headers -/

/-- The last field, and the size reported for the whole header. -/
def deserializePathId (h : QuicHeader) : List UInt8 → Nat × QuicHeader
  | [] => (0, h)
  | pathId :: _ => ((h.setPathId pathId).getSerializedSize, h.setPathId pathId)

/-- The packet number of a short header, of the length its type byte says. -/
def deserializeShort (h : QuicHeader) (i : List UInt8) : Nat × QuicHeader :=
  if h.type = ONE_OCTECT then
    if i.length < 1 then (0, h)
    else (h.setPacketNumber (readU8 i).toUInt32).deserializePathId (i.drop 1)
  else if h.type = TWO_OCTECTS then
    if i.length < 2 then (0, h)
    else (h.setPacketNumber (readNtohU16 i).toUInt32).deserializePathId (i.drop 2)
  else if h.type = FOUR_OCTECTS then
    if i.length < 4 then (0, h)
    else (h.setPacketNumber (readNtohU32 i)).deserializePathId (i.drop 4)
  else (0, h)

/-- The version of a long header and, unless it is a version negotiation, the packet number. -/
def deserializeLong (h : QuicHeader) (i : List UInt8) : Nat × QuicHeader :=
  if i.length < 4 then (0, h)
  else
    let h := h.setVersion (readNtohU32 i)
    let i := i.drop 4
    if h.isVersionNegotiation then h.deserializePathId i
    else if i.length < 4 then (0, h)
    else (h.setPacketNumber (readNtohU32 i)).deserializePathId (i.drop 4)

def deserializeNumber (h : QuicHeader) (i : List UInt8) : Nat × QuicHeader :=
  if h.isLong then h.deserializeLong i else h.deserializeShort i

/-- The header after its first byte. -/
def ofTypeByte (t : UInt8) : QuicHeader :=
  if t &&& 0x80 = 0 then
    { form := .short, c := t &&& 0x40 ≠ 0, k := t &&& 0x20 ≠ 0, type := t &&& 0x1F }
  else { form := .long, type := t &&& 0x7F }

def deserialize : List UInt8 → Nat × QuicHeader
  | [] => (0, {})
  | t :: i =>
      let h := ofTypeByte t
      if h.type = NONE ∧ h.isLong then (0, h)
      else if h.hasConnectionId then
        if i.length < 8 then (0, h)
        else (h.setConnectionID (readNtohU64 i)).deserializeNumber (i.drop 8)
      else h.deserializeNumber i

/-! ## The form and type of a header -/

@[simp] theorem createLong_form (type : UInt8) (connectionId : UInt64) (version : UInt32) :
    (createLong type connectionId version).form = .long := rfl

@[simp] theorem setPacketNumber_form (h : QuicHeader) (n : UInt32) :
    (h.setPacketNumber n).form = h.form := rfl

@[simp] theorem setConnectionID_form (h : QuicHeader) (n : UInt64) :
    (h.setConnectionID n).form = h.form := rfl

@[simp] theorem setConnectionID_type (h : QuicHeader) (n : UInt64) :
    (h.setConnectionID n).type = h.type := rfl

theorem setPacketNumber_type_of_long {h : QuicHeader} (hlong : h.form = .long) (n : UInt32) :
    (h.setPacketNumber n).type = h.type := by
  simp [setPacketNumber, isShort, hlong]

/-- A packet number leaves a short header with one of the three length types. -/
theorem setPacketNumber_type_of_short {h : QuicHeader} (hshort : h.form = .short) (n : UInt32) :
    (h.setPacketNumber n).type ≤ 2 := by
  have hthree : ONE_OCTECT ≤ 2 ∧ TWO_OCTECTS ≤ 2 ∧ FOUR_OCTECTS ≤ 2 := by decide
  simp only [setPacketNumber, isShort, hshort, decide_true, if_true]
  split
  · exact hthree.1
  · split
    · exact hthree.2.1
    · exact hthree.2.2

theorem createShort_kind (connectionId : UInt64) (packetNumber : UInt32)
    (connectionIdFlag keyPhaseBit : Bool) :
    (createShort connectionId packetNumber connectionIdFlag keyPhaseBit).form = .short ∧
      (createShort connectionId packetNumber connectionIdFlag keyPhaseBit).type ≤ 2 := by
  have hlength := setPacketNumber_type_of_short
    (h := (({} : QuicHeader).setFormat .short).setKeyPhaseBit keyPhaseBit) rfl packetNumber
  cases connectionIdFlag <;> exact ⟨rfl, hlength⟩

theorem deserializePathId_kind (h : QuicHeader) (i : List UInt8) :
    (h.deserializePathId i).2.form = h.form ∧ (h.deserializePathId i).2.type = h.type := by
  cases i <;> exact ⟨rfl, rfl⟩

theorem deserializeLong_kind {h : QuicHeader} (hlong : h.form = .long) (i : List UInt8) :
    (h.deserializeLong i).2.form = .long ∧ (h.deserializeLong i).2.type = h.type := by
  have hversion : ∀ n, (h.setVersion n).form = .long ∧ (h.setVersion n).type = h.type :=
    fun n => ⟨hlong, rfl⟩
  unfold deserializeLong
  dsimp only
  split
  · exact ⟨hlong, rfl⟩
  · split
    · rw [(deserializePathId_kind _ _).1, (deserializePathId_kind _ _).2]
      exact hversion _
    · split
      · exact hversion _
      · rw [(deserializePathId_kind _ _).1, (deserializePathId_kind _ _).2,
          setPacketNumber_type_of_long (hversion _).1]
        exact hversion _

/-- Reading the rest of a short header keeps the form, and the type is still a length type or
still the unknown one of the type byte. -/
theorem deserializeShort_kind {h : QuicHeader} (hshort : h.form = .short) (i : List UInt8) :
    (h.deserializeShort i).2.form = .short ∧
      ((h.deserializeShort i).2.type = h.type ∨
        (h.type ≤ 2 ∧ (h.deserializeShort i).2.type ≤ 2)) := by
  have hread : ∀ n j, ((h.setPacketNumber n).deserializePathId j).2.form = .short ∧
      ((h.setPacketNumber n).deserializePathId j).2.type ≤ 2 := fun n j => by
    rw [(deserializePathId_kind _ _).1, (deserializePathId_kind _ _).2]
    exact ⟨hshort, setPacketNumber_type_of_short hshort n⟩
  unfold deserializeShort
  by_cases hone : h.type = ONE_OCTECT
  · rw [if_pos hone]
    split
    · exact ⟨hshort, .inl rfl⟩
    · exact ⟨(hread _ _).1, .inr ⟨by rw [hone]; decide, (hread _ _).2⟩⟩
  · rw [if_neg hone]
    by_cases htwo : h.type = TWO_OCTECTS
    · rw [if_pos htwo]
      split
      · exact ⟨hshort, .inl rfl⟩
      · exact ⟨(hread _ _).1, .inr ⟨by rw [htwo]; decide, (hread _ _).2⟩⟩
    · rw [if_neg htwo]
      by_cases hfour : h.type = FOUR_OCTECTS
      · rw [if_pos hfour]
        split
        · exact ⟨hshort, .inl rfl⟩
        · exact ⟨(hread _ _).1, .inr ⟨by rw [hfour]; decide, (hread _ _).2⟩⟩
      · rw [if_neg hfour]
        exact ⟨hshort, .inl rfl⟩

theorem ofTypeByte_form (t : UInt8) :
    (ofTypeByte t).form = if t < 0x80 then .short else .long := by
  have hbit : t &&& 0x80 = 0 ↔ t < 0x80 := by
    revert t; exact forall_uint8 (by decide +kernel)
  unfold ofTypeByte
  simp only [hbit]
  split <;> rfl

theorem ofTypeByte_type_of_short {t : UInt8} (hshort : t < 0x80) :
    (ofTypeByte t).type = t &&& 0x1F := by
  have hall : ∀ t : UInt8, t < 0x80 → (ofTypeByte t).type = t &&& 0x1F :=
    forall_uint8 (by decide +kernel)
  exact hall t hshort

/-- The form of the header read is that of its first byte; a long header keeps the type of the
byte, and a short one keeps it or ends with one of the length types. -/
theorem deserialize_kind (t : UInt8) (i : List UInt8) :
    (deserialize (t :: i)).2.form = (ofTypeByte t).form ∧
      ((deserialize (t :: i)).2.type = (ofTypeByte t).type ∨
        ((ofTypeByte t).form = .short ∧ (ofTypeByte t).type ≤ 2 ∧
          (deserialize (t :: i)).2.type ≤ 2)) := by
  have hnumber : ∀ (h : QuicHeader) (j : List UInt8),
      (h.deserializeNumber j).2.form = h.form ∧
        ((h.deserializeNumber j).2.type = h.type ∨
          (h.form = .short ∧ h.type ≤ 2 ∧ (h.deserializeNumber j).2.type ≤ 2)) := by
    intro h j
    unfold deserializeNumber isLong
    cases hform : h.form with
    | long =>
        obtain ⟨hlong, htype⟩ := deserializeLong_kind hform j
        simpa using ⟨hlong, htype⟩
    | short => simpa using deserializeShort_kind hform j
  unfold deserialize
  dsimp only
  split
  · exact ⟨rfl, .inl rfl⟩
  · split
    · split
      · exact ⟨rfl, .inl rfl⟩
      · exact hnumber _ _
    · exact hnumber _ _

end QuicHeader

end NtnIab.Quic
