import NtnIab.Network.Buffer
import NtnIab.Network.Packet

/-!
# The header of the radio link control

The header of a PDU in unacknowledged mode: whether its data field starts and ends at the ends of
an SDU, a sequence number of ten bits, and a length for each piece of the data field but the last
one. The lengths are packed, with the bit that says whether another one follows, twelve bits each:
two of them are in three octets.

The size of the header is counted in sixteen bits while it is built.
-/

namespace NtnIab.Lte

open ByteReader

/-! ## Sequence numbers -/

/-- A number of ten bits. Numbers are compared by how far they are after the modulus base. -/
structure SequenceNumber10 where
  value : Fin 1024 := 0
  modulusBase : Fin 1024 := 0
  deriving Repr, DecidableEq

namespace SequenceNumber10

/-- The number of an unsigned integer: what is above ten bits is cut off. -/
def ofNat (value : Nat) : SequenceNumber10 := { value := Fin.ofNat 1024 value }

/-- `operator= (uint16_t)` -/
def assign (value : Nat) (s : SequenceNumber10) : SequenceNumber10 :=
  { s with value := Fin.ofNat 1024 value }

def setModulusBase (s modulusBase : SequenceNumber10) : SequenceNumber10 :=
  { s with modulusBase := modulusBase.value }

/-- `operator++` -/
def increment (s : SequenceNumber10) : SequenceNumber10 := { s with value := s.value + 1 }

def add (s : SequenceNumber10) (delta : Nat) : SequenceNumber10 :=
  { s with value := s.value + Fin.ofNat 1024 delta }

def sub (s : SequenceNumber10) (delta : Nat) : SequenceNumber10 :=
  { s with value := s.value - Fin.ofNat 1024 delta }

/-- How far a number is after its modulus base. -/
def distance (s : SequenceNumber10) : Fin 1024 := s.value - s.modulusBase

def gt (s other : SequenceNumber10) : Bool := s.distance > other.distance

def le (s other : SequenceNumber10) : Bool := !s.gt other

def lt (s other : SequenceNumber10) : Bool := !s.gt other && s.value ≠ other.value

end SequenceNumber10

/-! ## The header -/

structure LteRlcHeader where
  headerLength : UInt16 := 0
  framingInfo : UInt8 := 0xff
  sequenceNumber : SequenceNumber10 := .ofNat 0xfffa
  extensionBits : List UInt8 := []
  lengthIndicators : List UInt16 := []
  deriving Repr, DecidableEq

namespace LteRlcHeader

def DATA_FIELD_FOLLOWS : UInt8 := 0

def E_LI_FIELDS_FOLLOWS : UInt8 := 1

def FIRST_BYTE : UInt8 := 0x00

def NO_FIRST_BYTE : UInt8 := 0x02

def LAST_BYTE : UInt8 := 0x00

def NO_LAST_BYTE : UInt8 := 0x01

def setFramingInfo (framingInfo : UInt8) (h : LteRlcHeader) : LteRlcHeader :=
  { h with framingInfo := framingInfo &&& 0x03 }

def setSequenceNumber (sequenceNumber : SequenceNumber10) (h : LteRlcHeader) : LteRlcHeader :=
  { h with sequenceNumber }

def pushExtensionBit (extensionBit : UInt8) (h : LteRlcHeader) : LteRlcHeader :=
  let extensionBits := h.extensionBits ++ [extensionBit]
  let headerLength :=
    if extensionBits.length = 1 then 2
    else if extensionBits.length % 2 ≠ 0 then h.headerLength + 1
    else h.headerLength + 2
  { h with extensionBits, headerLength }

def pushLengthIndicator (lengthIndicator : UInt16) (h : LteRlcHeader) : LteRlcHeader :=
  { h with lengthIndicators := h.lengthIndicators ++ [lengthIndicator] }

/-! ## The octets -/

def fixedOctet1 (framingInfo extensionBit : UInt8) (sn : UInt16) : UInt8 :=
  ((framingInfo <<< 3) &&& (0x18 : UInt8)) ||| ((extensionBit <<< 2) &&& (0x04 : UInt8)) |||
    ((sn >>> 8) &&& 0x0003).toUInt8

def oddOctet (oddE : UInt8) (oddLi : UInt16) : UInt8 :=
  ((oddE <<< 7) &&& (0x80 : UInt8)) ||| ((oddLi >>> 4) &&& 0x007F).toUInt8

def sharedOctet (oddLi : UInt16) (evenE : UInt8) (evenLi : UInt16) : UInt8 :=
  ((oddLi <<< 4) &&& 0x00F0).toUInt8 ||| ((evenE <<< 3) &&& (0x08 : UInt8)) |||
    ((evenLi >>> 8) &&& 0x0007).toUInt8

/-- The loop of `Serialize`, which takes the lengths two by two. -/
def writeLengthIndicators : List UInt8 → List UInt16 → List UInt8
  | oddE :: evenE :: extensionBits, oddLi :: evenLi :: lengthIndicators =>
      oddOctet oddE oddLi :: sharedOctet oddLi evenE evenLi :: (evenLi &&& 0x00FF).toUInt8 ::
        writeLengthIndicators extensionBits lengthIndicators
  | oddE :: _, oddLi :: _ => [oddOctet oddE oddLi, ((oddLi <<< 4) &&& 0x00F0).toUInt8]
  | _, _ => []

/-- A header without an extension bit is not written: the list of the bits is read at its end. -/
def serialize (h : LteRlcHeader) : List UInt8 :=
  match h.extensionBits with
  | [] => []
  | extensionBit :: extensionBits =>
      let sn := UInt16.ofNat h.sequenceNumber.value
      fixedOctet1 h.framingInfo extensionBit sn :: (sn &&& 0x00FF).toUInt8 ::
        writeLengthIndicators extensionBits h.lengthIndicators

/-- The header with one more length. -/
def readLengthIndicator (extensionBit : UInt8) (lengthIndicator headerLength : UInt16)
    (h : LteRlcHeader) : LteRlcHeader :=
  { h with
    extensionBits := h.extensionBits ++ [extensionBit]
    lengthIndicators := h.lengthIndicators ++ [lengthIndicator]
    headerLength := h.headerLength + headerLength }

/-- The loop of `Deserialize`. -/
def readLengthIndicators (h : LteRlcHeader) : List UInt8 → Option (LteRlcHeader × List UInt8)
  | byte1 :: byte2 :: i =>
      let oddE := (byte1 &&& 0x80) >>> 7
      let oddLi := ((byte1 &&& 0x7F).toUInt16 <<< 4) ||| ((byte2 &&& 0xF0) >>> 4).toUInt16
      let h := h.readLengthIndicator oddE oddLi 2
      if oddE = E_LI_FIELDS_FOLLOWS then
        match i with
        | byte3 :: i =>
            let evenE := (byte2 &&& 0x08) >>> 3
            let evenLi := ((byte2 &&& 0x07).toUInt16 <<< 8) ||| (byte3 &&& 0xFF).toUInt16
            let h := h.readLengthIndicator evenE evenLi 1
            if evenE = E_LI_FIELDS_FOLLOWS then readLengthIndicators h i else some (h, i)
        | [] => none
      else some (h, i)
  | _ => none

def deserialize : Reader LteRlcHeader
  | byte1 :: byte2 :: i =>
      let extensionBit := (byte1 &&& 0x04) >>> 2
      let h : LteRlcHeader := {
        headerLength := 2
        framingInfo := (byte1 &&& 0x18) >>> 3
        sequenceNumber := ({} : LteRlcHeader).sequenceNumber.assign
          (((byte1 &&& 0x03).toUInt16 <<< 8) ||| byte2.toUInt16).toNat
        extensionBits := [extensionBit] }
      if extensionBit = DATA_FIELD_FOLLOWS then some (h, i) else h.readLengthIndicators i
  | _ => none

instance : Header LteRlcHeader where
  getSerializedSize h := h.headerLength.toNat
  serialize := serialize
  deserialize := deserialize

/-! ## Reading what was written -/

theorem octet_bits (octet : UInt8) :
    ((octet &&& 0x80) >>> 7).toNat = octet.toNat / 128 ∧
    (octet &&& 0x7F).toNat = octet.toNat % 128 ∧
    ((octet &&& 0xF0) >>> 4).toNat = octet.toNat / 16 ∧
    ((octet &&& 0x08) >>> 3).toNat = octet.toNat / 8 % 2 ∧
    (octet &&& 0x07).toNat = octet.toNat % 8 ∧
    ((octet &&& 0x18) >>> 3).toNat = octet.toNat / 8 % 4 ∧
    ((octet &&& 0x04) >>> 2).toNat = octet.toNat / 4 % 2 ∧
    (octet &&& 0x03).toNat = octet.toNat % 4 ∧
    (octet &&& 0xFF) = octet :=
  forall_uint8 (P := fun octet =>
    ((octet &&& 0x80) >>> 7).toNat = octet.toNat / 128 ∧
    (octet &&& 0x7F).toNat = octet.toNat % 128 ∧
    ((octet &&& 0xF0) >>> 4).toNat = octet.toNat / 16 ∧
    ((octet &&& 0x08) >>> 3).toNat = octet.toNat / 8 % 2 ∧
    (octet &&& 0x07).toNat = octet.toNat % 8 ∧
    ((octet &&& 0x18) >>> 3).toNat = octet.toNat / 8 % 4 ∧
    ((octet &&& 0x04) >>> 2).toNat = octet.toNat / 4 % 2 ∧
    (octet &&& 0x03).toNat = octet.toNat % 4 ∧
    (octet &&& 0xFF) = octet) (by decide +kernel) octet

/-- A flag in its place in an octet. -/
theorem flag_bits {flag : UInt8} (hflag : flag < 2) :
    ((flag <<< 7) &&& 0x80).toNat = 128 * flag.toNat ∧
    ((flag <<< 3) &&& 0x08).toNat = 8 * flag.toNat ∧
    ((flag <<< 2) &&& 0x04).toNat = 4 * flag.toNat :=
  forall_uint8 (P := fun flag => flag < 2 →
    ((flag <<< 7) &&& 0x80).toNat = 128 * flag.toNat ∧
    ((flag <<< 3) &&& 0x08).toNat = 8 * flag.toNat ∧
    ((flag <<< 2) &&& 0x04).toNat = 4 * flag.toNat) (by decide +kernel) flag hflag

theorem framingInfo_bits {framingInfo : UInt8} (hframing : framingInfo < 4) :
    ((framingInfo <<< 3) &&& 0x18).toNat = 8 * framingInfo.toNat :=
  forall_uint8 (P := fun framingInfo => framingInfo < 4 →
    ((framingInfo <<< 3) &&& 0x18).toNat = 8 * framingInfo.toNat) (by decide +kernel)
    framingInfo hframing

/-- The parts of a length or of a sequence number in their octets. -/
theorem word_bits (word : UInt16) :
    ((word >>> 4) &&& 0x007F).toUInt8.toNat = word.toNat / 16 % 128 ∧
    ((word <<< 4) &&& 0x00F0).toUInt8.toNat = 16 * (word.toNat % 16) ∧
    ((word >>> 8) &&& 0x0007).toUInt8.toNat = word.toNat / 256 % 8 ∧
    ((word >>> 8) &&& 0x0003).toUInt8.toNat = word.toNat / 256 % 4 ∧
    (word &&& 0x00FF).toUInt8.toNat = word.toNat % 256 := by
  have h4 : (word >>> 4).toNat = word.toNat / 2 ^ 4 := by
    rw [UInt16.toNat_shiftRight]
    exact Nat.shiftRight_eq_div_pow _ _
  have h8 : (word >>> 8).toNat = word.toNat / 2 ^ 8 := by
    rw [UInt16.toNat_shiftRight]
    exact Nat.shiftRight_eq_div_pow _ _
  -- The octet of the low bits is cut from a number that is itself shifted.
  have hlow : (word <<< 4 &&& 0x00F0).toNat = 16 * (word.toNat % 16) := by
    have hshift : (word <<< 4).toNat = (word.toNat % 2 ^ 12) <<< 4 := by
      rw [UInt16.toNat_shiftLeft]
      show word.toNat <<< 4 % 2 ^ 16 = _
      rw [Nat.shiftLeft_eq, Nat.shiftLeft_eq]
      omega
    have hmask : (0x00F0 : UInt16).toNat = (2 ^ 4 - 1) <<< 4 := rfl
    rw [UInt16.toNat_and, hshift, hmask, ← Nat.shiftLeft_and_distrib,
      Nat.and_two_pow_sub_one_eq_mod, Nat.shiftLeft_eq]
    omega
  have h7F : (0x007F : UInt16).toNat = 2 ^ 7 - 1 := rfl
  have h07 : (0x0007 : UInt16).toNat = 2 ^ 3 - 1 := rfl
  have h03 : (0x0003 : UInt16).toNat = 2 ^ 2 - 1 := rfl
  have hFF : (0x00FF : UInt16).toNat = 2 ^ 8 - 1 := rfl
  simp only [UInt16.toNat_toUInt8, hlow, UInt16.toNat_and, h4, h8, h7F, h07, h03, hFF,
    Nat.and_two_pow_sub_one_eq_mod]
  omega

/-- Numbers whose bits do not overlap are added. -/
theorem or_eq_add {high low i : Nat} (hlow : low < 2 ^ i) :
    2 ^ i * high ||| low = 2 ^ i * high + low :=
  (Nat.two_pow_add_eq_or_of_lt hlow high).symm

theorem toNat_oddOctet {oddE : UInt8} (hodd : oddE < 2) (oddLi : UInt16) :
    (oddOctet oddE oddLi).toNat = 128 * oddE.toNat + oddLi.toNat / 16 % 128 := by
  obtain ⟨hhigh, -⟩ := word_bits oddLi
  rw [oddOctet, UInt8.toNat_or, (flag_bits hodd).1, hhigh]
  exact or_eq_add (i := 7) (Nat.mod_lt _ (by decide))

theorem toNat_sharedOctet {evenE : UInt8} (heven : evenE < 2) (oddLi evenLi : UInt16) :
    (sharedOctet oddLi evenE evenLi).toNat =
      16 * (oddLi.toNat % 16) + 8 * evenE.toNat + evenLi.toNat / 256 % 8 := by
  have heven' : evenE.toNat < 2 := heven
  obtain ⟨-, hlow, -⟩ := word_bits oddLi
  obtain ⟨-, -, hhigh, -⟩ := word_bits evenLi
  have hfirst : 16 * (oddLi.toNat % 16) ||| 8 * evenE.toNat =
      16 * (oddLi.toNat % 16) + 8 * evenE.toNat := or_eq_add (i := 4) (by omega)
  have hgroup : 16 * (oddLi.toNat % 16) + 8 * evenE.toNat =
      2 ^ 3 * (2 * (oddLi.toNat % 16) + evenE.toNat) := by omega
  rw [sharedOctet, UInt8.toNat_or, UInt8.toNat_or, hlow, (flag_bits heven).2.1, hhigh, hfirst,
    hgroup]
  exact or_eq_add (Nat.mod_lt _ (by decide))

theorem toNat_fixedOctet1 {framingInfo extensionBit : UInt8} (hframing : framingInfo < 4)
    (hbit : extensionBit < 2) (sn : UInt16) :
    (fixedOctet1 framingInfo extensionBit sn).toNat =
      8 * framingInfo.toNat + 4 * extensionBit.toNat + sn.toNat / 256 % 4 := by
  have hbit' : extensionBit.toNat < 2 := hbit
  obtain ⟨-, -, -, hhigh, -⟩ := word_bits sn
  have hfirst : 8 * framingInfo.toNat ||| 4 * extensionBit.toNat =
      8 * framingInfo.toNat + 4 * extensionBit.toNat := or_eq_add (i := 3) (by omega)
  have hgroup : 8 * framingInfo.toNat + 4 * extensionBit.toNat =
      2 ^ 2 * (2 * framingInfo.toNat + extensionBit.toNat) := by omega
  rw [fixedOctet1, UInt8.toNat_or, UInt8.toNat_or, framingInfo_bits hframing,
    (flag_bits hbit).2.2, hhigh, hfirst, hgroup]
  exact or_eq_add (Nat.mod_lt _ (by decide))

/-- A number of two octets is put together. -/
theorem toNat_word {high low : UInt8} :
    (low.toNat < 16 →
      ((high.toUInt16 <<< 4) ||| low.toUInt16).toNat = 16 * high.toNat + low.toNat) ∧
    ((high.toUInt16 <<< 8) ||| low.toUInt16).toNat = 256 * high.toNat + low.toNat := by
  have hhigh := high.toNat_lt
  have h4 : (high.toUInt16 <<< 4).toNat = 2 ^ 4 * high.toNat := by
    rw [UInt16.toNat_shiftLeft, UInt8.toNat_toUInt16]
    show high.toNat <<< 4 % 2 ^ 16 = _
    rw [Nat.shiftLeft_eq]
    omega
  have h8 : (high.toUInt16 <<< 8).toNat = 2 ^ 8 * high.toNat := by
    rw [UInt16.toNat_shiftLeft, UInt8.toNat_toUInt16]
    show high.toNat <<< 8 % 2 ^ 16 = _
    rw [Nat.shiftLeft_eq]
    omega
  constructor
  · intro hlow
    rw [UInt16.toNat_or, h4, UInt8.toNat_toUInt16]
    exact or_eq_add hlow
  · rw [UInt16.toNat_or, h8, UInt8.toNat_toUInt16]
    exact or_eq_add low.toNat_lt

section
variable {h : LteRlcHeader} {lengthIndicators : List UInt16}

/-- The extension bits after the first one: each length but the last is followed by another. -/
def bitsOf : List UInt16 → List UInt8
  | [] => []
  | [_] => [DATA_FIELD_FOLLOWS]
  | _ :: li :: rest => E_LI_FIELDS_FOLLOWS :: bitsOf (li :: rest)

/-- A header with these lengths behind the fields it has. -/
def withLengths (lengthIndicators : List UInt16) (h : LteRlcHeader) : LteRlcHeader :=
  { h with
    extensionBits := h.extensionBits ++ bitsOf lengthIndicators
    lengthIndicators := h.lengthIndicators ++ lengthIndicators
    headerLength := h.headerLength + UInt16.ofNat ((3 * lengthIndicators.length + 1) / 2) }

/-- The odd length of a pair is read. -/
theorem read_odd {oddE : UInt8} (hodd : oddE < 2) {oddLi : UInt16} (hli : oddLi < 2048)
    (shared : UInt8) (hshared : shared.toNat / 16 = oddLi.toNat % 16) :
    (oddOctet oddE oddLi &&& 0x80) >>> 7 = oddE ∧
    ((oddOctet oddE oddLi &&& 0x7F).toUInt16 <<< 4) ||| ((shared &&& 0xF0) >>> 4).toUInt16 =
      oddLi := by
  have hli' : oddLi.toNat < 2048 := hli
  have hvalue := toNat_oddOctet hodd oddLi
  obtain ⟨hflag, hhigh, -⟩ := octet_bits (oddOctet oddE oddLi)
  obtain ⟨-, -, hlow, -⟩ := octet_bits shared
  constructor
  · rw [← UInt8.toNat_inj, hflag, hvalue]
    omega
  · rw [← UInt16.toNat_inj, toNat_word.1 (by omega), hhigh, hlow, hvalue]
    omega

/-- The even length of a pair is read. -/
theorem read_even {evenE : UInt8} (heven : evenE < 2) (oddLi : UInt16) {evenLi : UInt16}
    (hli : evenLi < 2048) :
    (sharedOctet oddLi evenE evenLi &&& 0x08) >>> 3 = evenE ∧
    ((sharedOctet oddLi evenE evenLi &&& 0x07).toUInt16 <<< 8) |||
      ((evenLi &&& 0x00FF).toUInt8 &&& 0xFF).toUInt16 = evenLi := by
  have hli' : evenLi.toNat < 2048 := hli
  have heven' : evenE.toNat < 2 := heven
  have hvalue := toNat_sharedOctet heven oddLi evenLi
  obtain ⟨-, -, -, hflag, hhigh, -⟩ := octet_bits (sharedOctet oddLi evenE evenLi)
  obtain ⟨-, -, -, -, -, -, -, -, hall⟩ := octet_bits (evenLi &&& 0x00FF).toUInt8
  obtain ⟨-, -, -, -, hlow⟩ := word_bits evenLi
  constructor
  · rw [← UInt8.toNat_inj, hflag, hvalue]
    omega
  · rw [← UInt16.toNat_inj, toNat_word.2, hall, hhigh, hlow, hvalue]
    omega

/-- A single length in two octets. -/
theorem readLengthIndicators_one (h : LteRlcHeader) {li : UInt16} (hli : li < 2048)
    (rest : List UInt8) :
    readLengthIndicators h (writeLengthIndicators (bitsOf [li]) [li] ++ rest) =
      some (h.withLengths [li], rest) := by
  obtain ⟨-, hlow, -⟩ := word_bits li
  obtain ⟨hbit, hvalue⟩ := read_odd (show DATA_FIELD_FOLLOWS < 2 by decide) hli
    ((li <<< 4) &&& 0x00F0).toUInt8 (by omega)
  simp only [bitsOf, writeLengthIndicators, List.cons_append, List.nil_append]
  rw [readLengthIndicators.eq_def]
  simp only [hbit, hvalue]
  rw [if_neg (by decide)]
  simp [withLengths, readLengthIndicator, bitsOf]

/-- Two lengths in three octets. -/
theorem readLengthIndicators_two (h : LteRlcHeader) {oddLi evenLi : UInt16} (hodd : oddLi < 2048)
    (heven : evenLi < 2048) {evenE : UInt8} (hbit : evenE < 2) (i : List UInt8) :
    readLengthIndicators h (oddOctet E_LI_FIELDS_FOLLOWS oddLi ::
        sharedOctet oddLi evenE evenLi :: (evenLi &&& 0x00FF).toUInt8 :: i) =
      let h :=
        (h.readLengthIndicator E_LI_FIELDS_FOLLOWS oddLi 2).readLengthIndicator evenE evenLi 1
      if evenE = E_LI_FIELDS_FOLLOWS then readLengthIndicators h i else some (h, i) := by
  have hbit' : evenE.toNat < 2 := hbit
  have hshared := toNat_sharedOctet hbit oddLi evenLi
  obtain ⟨hoddBit, hoddValue⟩ := read_odd (show E_LI_FIELDS_FOLLOWS < 2 by decide) hodd
    (sharedOctet oddLi evenE evenLi) (by omega)
  obtain ⟨hevenBit, hevenValue⟩ := read_even hbit oddLi heven
  rw [readLengthIndicators.eq_def]
  simp only [hoddBit, hoddValue, hevenBit, hevenValue, if_true]

theorem readLengthIndicators_write (h : LteRlcHeader) {lengthIndicators : List UInt16}
    (hne : lengthIndicators ≠ []) (hli : ∀ li ∈ lengthIndicators, li < 2048)
    (rest : List UInt8) :
    readLengthIndicators h
        (writeLengthIndicators (bitsOf lengthIndicators) lengthIndicators ++ rest) =
      some (h.withLengths lengthIndicators, rest) := by
  match lengthIndicators, hne, hli with
  | [li], _, hli => exact readLengthIndicators_one h (hli li List.mem_cons_self) rest
  | [oddLi, evenLi], _, hli =>
      simp only [bitsOf, writeLengthIndicators, List.cons_append, List.nil_append]
      rw [readLengthIndicators_two h (hli oddLi (by simp)) (hli evenLi (by simp)) (by decide)]
      simp [withLengths, readLengthIndicator, bitsOf, E_LI_FIELDS_FOLLOWS, DATA_FIELD_FOLLOWS,
        UInt16.add_assoc]
  | oddLi :: evenLi :: next :: more, _, hli =>
      have hrest := readLengthIndicators_write ((h.readLengthIndicator E_LI_FIELDS_FOLLOWS oddLi
          2).readLengthIndicator E_LI_FIELDS_FOLLOWS evenLi 1) (List.cons_ne_nil next more)
        (fun li hmem => hli li (by simp [List.mem_cons.1 hmem])) rest
      have hbits : bitsOf (oddLi :: evenLi :: next :: more) =
          E_LI_FIELDS_FOLLOWS :: E_LI_FIELDS_FOLLOWS :: bitsOf (next :: more) := rfl
      have hlength : (3 * (oddLi :: evenLi :: next :: more).length + 1) / 2 =
          2 + 1 + (3 * (next :: more).length + 1) / 2 := by
        simp only [List.length_cons]
        omega
      rw [hbits]
      simp only [writeLengthIndicators, List.cons_append]
      rw [readLengthIndicators_two h (hli oddLi (by simp)) (hli evenLi (by simp)) (by decide)]
      dsimp only
      rw [if_pos rfl, hrest]
      simp only [withLengths, readLengthIndicator, hbits, hlength, UInt16.ofNat_add,
        List.append_assoc, List.cons_append, List.nil_append, UInt16.add_assoc]
      rfl

theorem length_writeLengthIndicators (lengthIndicators : List UInt16) :
    (writeLengthIndicators (bitsOf lengthIndicators) lengthIndicators).length =
      (3 * lengthIndicators.length + 1) / 2 := by
  match lengthIndicators with
  | [] => rfl
  | [_] => simp [bitsOf, writeLengthIndicators]
  | [_, _] => simp [bitsOf, writeLengthIndicators]
  | oddLi :: evenLi :: next :: more =>
      have hrest := length_writeLengthIndicators (next :: more)
      have hbits : bitsOf (oddLi :: evenLi :: next :: more) =
          E_LI_FIELDS_FOLLOWS :: E_LI_FIELDS_FOLLOWS :: bitsOf (next :: more) := rfl
      rw [hbits]
      simp only [writeLengthIndicators, List.length_cons] at hrest ⊢
      omega

end

/-- The header of a PDU with these fields. -/
def ofPdu (framingInfo : UInt8) (sn : Fin 1024) (lengthIndicators : List UInt16) :
    LteRlcHeader where
  headerLength := UInt16.ofNat (2 + (3 * lengthIndicators.length + 1) / 2)
  framingInfo := framingInfo
  sequenceNumber := { value := sn }
  extensionBits := List.replicate lengthIndicators.length E_LI_FIELDS_FOLLOWS ++
    [DATA_FIELD_FOLLOWS]
  lengthIndicators := lengthIndicators

section
variable {framingInfo : UInt8} {sn : Fin 1024} {lengthIndicators : List UInt16}

theorem extensionBits_cons (li : UInt16) (rest : List UInt16) :
    List.replicate (li :: rest).length E_LI_FIELDS_FOLLOWS ++ [DATA_FIELD_FOLLOWS] =
      E_LI_FIELDS_FOLLOWS :: bitsOf (li :: rest) := by
  induction rest generalizing li with
  | nil => rfl
  | cons next rest ih =>
      have hbits : bitsOf (li :: next :: rest) = E_LI_FIELDS_FOLLOWS :: bitsOf (next :: rest) :=
        rfl
      rw [List.length_cons, List.replicate_succ, List.cons_append, ih next, hbits]

theorem length_serialize_ofPdu (framingInfo : UInt8) (sn : Fin 1024)
    (lengthIndicators : List UInt16) :
    (serialize (ofPdu framingInfo sn lengthIndicators)).length =
      2 + (3 * lengthIndicators.length + 1) / 2 := by
  cases lengthIndicators with
  | nil => rfl
  | cons li rest =>
      rw [ofPdu, extensionBits_cons, serialize]
      simp only [List.length_cons, length_writeLengthIndicators]
      omega

/-- The two octets of the fixed part are read. -/
theorem read_fixed {extensionBit : UInt8} (hframing : framingInfo < 4) (hbit : extensionBit < 2)
    (sn : Fin 1024) :
    let octet1 := fixedOctet1 framingInfo extensionBit (UInt16.ofNat sn)
    let octet2 := (UInt16.ofNat sn &&& 0x00FF).toUInt8
    (octet1 &&& 0x18) >>> 3 = framingInfo ∧ (octet1 &&& 0x04) >>> 2 = extensionBit ∧
    Fin.ofNat 1024 (((octet1 &&& 0x03).toUInt16 <<< 8) ||| octet2.toUInt16).toNat = sn := by
  intro octet1 octet2
  have hframing' : framingInfo.toNat < 4 := hframing
  have hbit' : extensionBit.toNat < 2 := hbit
  have hsn : (UInt16.ofNat sn).toNat = sn :=
    UInt16.toNat_ofNat_of_lt (Nat.lt_trans sn.isLt (by decide))
  have hvalue : octet1.toNat = 8 * framingInfo.toNat + 4 * extensionBit.toNat + sn / 256 % 4 := by
    rw [toNat_fixedOctet1 hframing hbit, hsn]
  have hsecond : octet2.toNat = sn % 256 := by
    rw [(word_bits (UInt16.ofNat sn)).2.2.2.2, hsn]
  have hlt := sn.isLt
  obtain ⟨-, -, -, -, -, hread, hflag, hhigh, -⟩ := octet_bits octet1
  refine ⟨?_, ?_, ?_⟩
  · rw [← UInt8.toNat_inj, hread, hvalue]
    omega
  · rw [← UInt8.toNat_inj, hflag, hvalue]
    omega
  · apply Fin.ext
    rw [Fin.val_ofNat, toNat_word.2, hhigh, hsecond, hvalue]
    omega

/-- A header that is written is read, whatever comes after it. -/
theorem reads_ofPdu (hframing : framingInfo < 4) (sn : Fin 1024)
    (hli : ∀ li ∈ lengthIndicators, li < 2048) :
    Reads deserialize (serialize (ofPdu framingInfo sn lengthIndicators))
      (ofPdu framingInfo sn lengthIndicators) := by
  intro rest
  cases lengthIndicators with
  | nil =>
      obtain ⟨hread, hbit, hsn⟩ := read_fixed hframing
        (show DATA_FIELD_FOLLOWS < 2 by decide) sn
      simp only [serialize, ofPdu, List.length_nil, List.replicate_zero, List.nil_append,
        writeLengthIndicators, List.cons_append, deserialize, hread, hbit,
        SequenceNumber10.assign, hsn]
      rfl
  | cons li more =>
      obtain ⟨hread, hbit, hsn⟩ := read_fixed hframing
        (show E_LI_FIELDS_FOLLOWS < 2 by decide) sn
      simp only [serialize, ofPdu, extensionBits_cons, List.cons_append, deserialize, hread, hbit,
        SequenceNumber10.assign, hsn]
      rw [if_neg (by decide), readLengthIndicators_write _ (List.cons_ne_nil li more) hli]
      simp only [withLengths, List.cons_append, List.nil_append, UInt16.ofNat_add]
      rfl

/-- The header of a packet is taken off. -/
theorem removeHeader_ofPdu (hframing : framingInfo < 4) (sn : Fin 1024)
    (hli : ∀ li ∈ lengthIndicators, li < 2048)
    (hlength : 2 + (3 * lengthIndicators.length + 1) / 2 < 2 ^ 16) (rest : List UInt8) :
    Packet.removeHeader LteRlcHeader
        (serialize (ofPdu framingInfo sn lengthIndicators) ++ rest) =
      some (ofPdu framingInfo sn lengthIndicators,
        (serialize (ofPdu framingInfo sn lengthIndicators)).length, rest) := by
  refine Packet.removeHeader_of_size (reads_ofPdu hframing sn hli) ?_ rest
  rw [length_serialize_ofPdu]
  exact UInt16.toNat_ofNat_of_lt hlength

end

end LteRlcHeader

end NtnIab.Lte
