import NtnIab.Network.Packet

/-!
# The GTP-U header

The header of every packet between the core network and the nodes, and between the nodes and their
IAB nodes. A tunnel endpoint 0 is taken as the sign that there is no header: such a header has no
size.
-/

namespace NtnIab.Lte

open ByteReader

structure GtpuHeader where
  version : UInt8 := 1
  protocolType : Bool := true
  extensionHeaderFlag : Bool := false
  sequenceNumberFlag : Bool := true
  nPduNumberFlag : Bool := true
  messageType : UInt8 := 255
  length : UInt16 := 0
  teid : UInt32 := 0
  sequenceNumber : UInt16 := 0
  nPduNumber : UInt8 := 0
  nextExtensionType : UInt8 := 0
  deriving Repr, DecidableEq

namespace GtpuHeader

/-! ## Message types -/

def S1AP : UInt8 := 1

def X2 : UInt8 := 2

def DATA : UInt8 := 255

/-! ## The bytes of the header -/

/-- The version and the flags, with the reserved bit set. -/
def firstByte (version : UInt8) (pt e s pn : Bool) : UInt8 :=
  version <<< 5 ||| pt.toUInt8 <<< 4 ||| (1 : UInt8) <<< 3 ||| e.toUInt8 <<< 2 ||| s.toUInt8 <<< 1 |||
    pn.toUInt8

def flag (b : UInt8) (bit : UInt8) : Bool := (b >>> bit) &&& 1 = 1

def serialize (h : GtpuHeader) : List UInt8 :=
  [[firstByte h.version h.protocolType h.extensionHeaderFlag h.sequenceNumberFlag h.nPduNumberFlag],
    [h.messageType],
    Iterator.writeHtonU16 h.length,
    Iterator.writeHtonU32 h.teid,
    Iterator.writeHtonU16 h.sequenceNumber,
    [h.nPduNumber],
    [h.nextExtensionType]].flatten

def deserialize : Reader GtpuHeader := do
  let first ← Iterator.readU8
  let messageType ← Iterator.readU8
  let length ← Iterator.readNtohU16
  let teid ← Iterator.readNtohU32
  let sequenceNumber ← Iterator.readNtohU16
  let nPduNumber ← Iterator.readU8
  let nextExtensionType ← Iterator.readU8
  return {
    version := (first >>> 5) &&& 7
    protocolType := flag first 4
    extensionHeaderFlag := flag first 2
    sequenceNumberFlag := flag first 1
    nPduNumberFlag := flag first 0
    messageType, length, teid, sequenceNumber, nPduNumber, nextExtensionType }

instance : Header GtpuHeader where
  getSerializedSize h := if h.teid = 0 then 0 else 12
  serialize := serialize
  deserialize := deserialize

theorem firstByte_read (version : Fin 8) (pt e s pn : Bool) :
    let first := firstByte (UInt8.ofNat version) pt e s pn
    (first >>> 5) &&& 7 = UInt8.ofNat version ∧ flag first 4 = pt ∧ flag first 2 = e ∧
      flag first 1 = s ∧ flag first 0 = pn := by
  revert version pt e s pn
  decide +kernel

/-- The version has three bits. -/
def Valid (h : GtpuHeader) : Prop := h.version < 8

theorem reads_serialize {h : GtpuHeader} (hvalid : h.Valid) :
    Reads deserialize h.serialize h := by
  have hversion : UInt8.ofNat (⟨h.version.toNat, hvalid⟩ : Fin 8) = h.version := UInt8.ofNat_toNat
  obtain ⟨hv, hpt, he, hs, hpn⟩ := firstByte_read ⟨h.version.toNat, hvalid⟩ h.protocolType
    h.extensionHeaderFlag h.sequenceNumberFlag h.nPduNumberFlag
  rw [hversion] at hv hpt he hs hpn
  refine (Iterator.reads_u8 _).cons ?_
  refine (Iterator.reads_u8 _).cons ?_
  refine (Iterator.reads_ntohU16 _).cons ?_
  refine (Iterator.reads_ntohU32 _).cons ?_
  refine (Iterator.reads_ntohU16 _).cons ?_
  refine (Iterator.reads_u8 _).cons ?_
  refine (Iterator.reads_u8 _).cons ?_
  rw [hv, hpt, he, hs, hpn]
  exact Reads.nil

@[simp] theorem length_serialize (h : GtpuHeader) : h.serialize.length = 12 := by
  simp [serialize]

/-- A header that was written is the one that is removed, and what follows it is left. -/
theorem removeHeader_serialize {h : GtpuHeader} (hvalid : h.Valid) (hteid : h.teid ≠ 0)
    (payload : List UInt8) :
    Packet.removeHeader GtpuHeader (h.serialize ++ payload) = some (h, 12, payload) := by
  have hsize : Header.getSerializedSize h = h.serialize.length := by
    rw [length_serialize]
    exact if_neg hteid
  rw [Packet.removeHeader_of_size (reads_serialize hvalid) hsize, length_serialize]

theorem addHeader_serialize {h : GtpuHeader} (hteid : h.teid ≠ 0) (fill : UInt8)
    (payload : List UInt8) :
    Packet.addHeader fill h payload = some (h.serialize ++ payload) := by
  apply Packet.addHeader_of_size
  show (if h.teid = 0 then 0 else 12) = h.serialize.length
  rw [if_neg hteid, length_serialize]

end GtpuHeader

end NtnIab.Lte
