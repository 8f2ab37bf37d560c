import NtnIab.Library.OrderedMap
import NtnIab.Mmwave.HarqProcesses
import NtnIab.Network.Buffer

/-!
# MAC PDUs

RLC PDUs of several logical channels are sent in one MAC PDU: first a subheader with the channel
and the size of each, then their bytes. The receiver cuts the bytes with a cursor.
-/

namespace NtnIab.Mmwave

/-! ## The header -/

structure MacSubheader where
  lcid : UInt8
  size : UInt32
  deriving Repr, DecidableEq

structure MmWaveMacPduHeader where
  subheaderList : List MacSubheader := []
  headerSize : Nat := 0
  deriving Repr, DecidableEq

namespace MmWaveMacPduHeader

def addSubheader (macSubheader : MacSubheader) (h : MmWaveMacPduHeader) : MmWaveMacPduHeader where
  subheaderList := h.subheaderList ++ [macSubheader]
  headerSize :=
    if macSubheader.size > 0x3FFF then h.headerSize + 4
    else if macSubheader.size > 0x7F then h.headerSize + 3
    else h.headerSize + 2

/-- The octets of a subheader: 7 bits of the size in the second one, 7 in the third and 8 in the
fourth, as far as they are needed. -/
def writeSubheader (last : Bool) (s : MacSubheader) : List UInt8 :=
  let octet1 := s.lcid &&& 0x1F
  let octet1 := if last then octet1 else octet1 ||| 0x20
  let octet2 := (s.size &&& 0x7F).toUInt8
  if s.size > 0x7F then
    let octet2 := octet2 ||| 0x80
    let octet3 := ((s.size >>> 7) &&& 0x7F).toUInt8
    if s.size > 0x3FFF then
      [octet1, octet2, octet3 ||| 0x80, ((s.size >>> 14) &&& 0xFF).toUInt8]
    else [octet1, octet2, octet3]
  else [octet1, octet2]

def writeSubheaders : List MacSubheader → List UInt8
  | [] => []
  | [s] => writeSubheader true s
  | s :: rest => writeSubheader false s ++ writeSubheaders rest

def serialize (h : MmWaveMacPduHeader) : List UInt8 := writeSubheaders h.subheaderList

/-- The loop of `Deserialize`, from the octets that are left to those after the header. The
extension bit of the first octet says that another subheader follows. -/
def readSubheaders (h : MmWaveMacPduHeader) :
    List UInt8 → Except Fault (MmWaveMacPduHeader × List UInt8)
  | octet1 :: octet2 :: i =>
      let lcid := octet1 &&& 0x1F
      let size := (octet2 &&& 0x7F).toUInt32
      if octet2 >>> 7 = 0 then
        let h := ⟨h.subheaderList ++ [⟨lcid, size⟩], h.headerSize + 2⟩
        if octet1 >>> 5 = 0 then .ok (h, i) else readSubheaders h i
      else
        match i with
        | octet3 :: i =>
            let size := size ||| ((octet3 &&& 0x7F).toUInt32 <<< 7)
            if octet3 >>> 7 = 0 then
              let h := ⟨h.subheaderList ++ [⟨lcid, size⟩], h.headerSize + 3⟩
              if octet1 >>> 5 = 0 then .ok (h, i) else readSubheaders h i
            else
              match i with
              | octet4 :: i =>
                  let size := size ||| (octet4.toUInt32 <<< 14)
                  let h := ⟨h.subheaderList ++ [⟨lcid, size⟩], h.headerSize + 4⟩
                  if octet1 >>> 5 = 0 then .ok (h, i) else readSubheaders h i
              | [] => .error .assertion
        | [] => .error .assertion
  | _ => .error .assertion

/-- The header at the front of a packet, and the octets after it. -/
def deserialize (octets : List UInt8) : Except Fault (MmWaveMacPduHeader × List UInt8) :=
  readSubheaders {} octets

end MmWaveMacPduHeader

/-! ## Sending -/

structure RlcPdu where
  lcid : UInt8
  bytes : List UInt8
  deriving Repr, DecidableEq

/-- A MAC PDU that is being put together. -/
structure MacPduInfo where
  pdu : List UInt8 := []
  macHeader : MmWaveMacPduHeader := {}
  deriving Repr, DecidableEq

/-- The part of `DoTransmitPdu` that puts an RLC PDU into the MAC PDU. -/
def MacPduInfo.addRlcPdu (info : MacPduInfo) (pdu : RlcPdu) : MacPduInfo where
  pdu := info.pdu ++ pdu.bytes
  macHeader := info.macHeader.addSubheader ⟨pdu.lcid, UInt32.ofNat pdu.bytes.length⟩

/-- A packet of the PHY, with the RNTI of its bearer tag. -/
structure PhyPdu where
  rnti : Nat
  bytes : List UInt8
  deriving Repr, DecidableEq

/-- The MAC PDU with these RLC PDUs. -/
def macPdu (rnti : Nat) (pdus : List RlcPdu) : PhyPdu :=
  let info := pdus.foldl MacPduInfo.addRlcPdu {}
  ⟨rnti, info.macHeader.serialize ++ info.pdu⟩

/-! ## Receiving -/

structure ReceivePduParameters where
  p : List UInt8
  rnti : Nat
  lcid : UInt8
  deriving Repr, DecidableEq

/-- The cursor, and what was handed to the channels. -/
structure Demux where
  currPos : Nat := 0
  received : List ReceivePduParameters := []
  deriving Repr, DecidableEq

def createFragment (p : List UInt8) (start length : Nat) : List UInt8 :=
  (p.drop start).take length

/-- The PDU of an attached channel, of which some bytes are there. -/
def Demux.hand (rnti : Nat) (p : List UInt8) (d : Demux) (s : MacSubheader) : Demux :=
  if p.length - d.currPos < s.size.toNat then d
  else if p.length - d.currPos > s.size.toNat then {
    currPos := d.currPos + s.size.toNat
    received := d.received ++ [⟨createFragment p d.currPos s.size.toNat, rnti, s.lcid⟩] }
  else {
    currPos := p.length
    received :=
      d.received ++ [⟨createFragment p d.currPos (p.length - d.currPos), rnti, s.lcid⟩] }

structure MmWaveUeMac where
  rnti : Nat
  lcInfoMap : List UInt8
  deriving Repr, DecidableEq

namespace MmWaveUeMac

/-- One subheader: that of an unknown channel is passed over. -/
def receiveSubheader (ue : MmWaveUeMac) (p : List UInt8) (d : Demux) (s : MacSubheader) : Demux :=
  if s.size = 0 then d
  else if s.lcid ∈ ue.lcInfoMap then d.hand ue.rnti p s
  else d

def doReceivePhyPdu (ue : MmWaveUeMac) (p : PhyPdu) :
    Except Fault (List ReceivePduParameters) := do
  let header ← MmWaveMacPduHeader.deserialize p.bytes
  if p.rnti = ue.rnti then
    pure (header.1.subheaderList.foldl (ue.receiveSubheader header.2) {}).received
  else pure []

end MmWaveUeMac

structure MmWaveEnbMac where
  rlcAttached : OrderedMap (List UInt8)
  deriving Repr, DecidableEq

namespace MmWaveEnbMac

/-- One subheader: the channel is attached. -/
def receiveSubheader (rnti : Nat) (channels : List UInt8) (p : List UInt8) (d : Demux)
    (s : MacSubheader) : Except Fault Demux := do
  if s.size = 0 then pure d
  else
    assert (s.lcid ∈ channels)
    pure (d.hand rnti p s)

def doReceivePhyPdu (enb : MmWaveEnbMac) (p : PhyPdu) :
    Except Fault (List ReceivePduParameters) := do
  let header ← MmWaveMacPduHeader.deserialize p.bytes
  match enb.rlcAttached.find p.rnti with
  | some channels => do
      let d ← header.1.subheaderList.foldlM (receiveSubheader p.rnti channels header.2) {}
      pure d.received
  | none => pure []

end MmWaveEnbMac

/-! ## The header of a MAC PDU -/

namespace MmWaveMacPduHeader

/-- Bits that do not overlap are added. -/
theorem or_shiftLeft {low high i : Nat} (hlow : low < 2 ^ i) :
    low ||| (high <<< i) = low + 2 ^ i * high := by
  rw [Nat.or_comm, Nat.shiftLeft_eq, Nat.mul_comm high, ← Nat.two_pow_add_eq_or_of_lt hlow,
    Nat.add_comm]

/-- A size of two octets. -/
theorem toNat_join {octet2 octet3 : UInt8} (h2 : octet2 < 128) (h3 : octet3 < 128) :
    (octet2.toUInt32 ||| (octet3.toUInt32 <<< 7)).toNat = octet2.toNat + 2 ^ 7 * octet3.toNat := by
  have h2' : octet2.toNat < 128 := h2
  have h3' : octet3.toNat < 128 := h3
  have hshift : (octet3.toUInt32 <<< 7).toNat = octet3.toNat <<< 7 := by
    rw [UInt32.toNat_shiftLeft, UInt8.toNat_toUInt32]
    show octet3.toNat <<< 7 % 2 ^ 32 = _
    rw [Nat.shiftLeft_eq]
    omega
  rw [UInt32.toNat_or, hshift, UInt8.toNat_toUInt32, or_shiftLeft (by omega)]

/-- A size of three octets. -/
theorem toNat_join₃ {size : UInt32} {octet4 : UInt8} (hsize : size.toNat < 2 ^ 14) :
    (size ||| (octet4.toUInt32 <<< 14)).toNat = size.toNat + 2 ^ 14 * octet4.toNat := by
  have h4 := octet4.toNat_lt
  have hshift : (octet4.toUInt32 <<< 14).toNat = octet4.toNat <<< 14 := by
    rw [UInt32.toNat_shiftLeft, UInt8.toNat_toUInt32]
    show octet4.toNat <<< 14 % 2 ^ 32 = _
    rw [Nat.shiftLeft_eq]
    omega
  rw [UInt32.toNat_or, hshift, or_shiftLeft hsize]

/-- The parts of a size. -/
theorem toNat_octets (size : UInt32) :
    ((size &&& 0x7F).toUInt8).toNat = size.toNat % 2 ^ 7 ∧
    (((size >>> 7) &&& 0x7F).toUInt8).toNat = size.toNat / 2 ^ 7 % 2 ^ 7 ∧
    (((size >>> 14) &&& 0xFF).toUInt8).toNat = size.toNat / 2 ^ 14 % 2 ^ 8 := by
  have h7 : (0x7F : UInt32).toNat = 2 ^ 7 - 1 := rfl
  have h8 : (0xFF : UInt32).toNat = 2 ^ 8 - 1 := rfl
  have hs7 : (size >>> 7).toNat = size.toNat / 2 ^ 7 := by
    rw [UInt32.toNat_shiftRight]
    exact Nat.shiftRight_eq_div_pow _ _
  have hs14 : (size >>> 14).toNat = size.toNat / 2 ^ 14 := by
    rw [UInt32.toNat_shiftRight]
    exact Nat.shiftRight_eq_div_pow _ _
  simp only [UInt32.toNat_toUInt8, UInt32.toNat_and, h7, h8, Nat.and_two_pow_sub_one_eq_mod, hs7,
    hs14]
  omega
/-- The first octet has the channel and says whether another subheader follows. -/
theorem octet1_of_lt (last : Bool) (lcid : UInt8) (hlcid : lcid < 32) :
    (if last then lcid &&& 0x1F else lcid &&& 0x1F ||| 0x20) &&& 0x1F = lcid ∧
    ((if last then lcid &&& 0x1F else lcid &&& 0x1F ||| 0x20) >>> 5 = 0 ↔ last = true) := by
  have hlast : ∀ lcid : UInt8, lcid < 32 →
      lcid &&& 0x1F &&& 0x1F = lcid ∧ (lcid &&& 0x1F) >>> 5 = 0 :=
    forall_uint8 (P := fun lcid => lcid < 32 →
      lcid &&& 0x1F &&& 0x1F = lcid ∧ (lcid &&& 0x1F) >>> 5 = 0) (by decide +kernel)
  have hnext : ∀ lcid : UInt8, lcid < 32 →
      (lcid &&& 0x1F ||| 0x20) &&& 0x1F = lcid ∧ (lcid &&& 0x1F ||| 0x20) >>> 5 ≠ 0 :=
    forall_uint8 (P := fun lcid => lcid < 32 →
      (lcid &&& 0x1F ||| 0x20) &&& 0x1F = lcid ∧ (lcid &&& 0x1F ||| 0x20) >>> 5 ≠ 0)
      (by decide +kernel)
  cases last with
  | true => simpa using hlast lcid hlcid
  | false => simpa using hnext lcid hlcid

/-- An octet of seven bits, without and with the flag that another one follows. -/
theorem flag_of_lt (octet : UInt8) (hoctet : octet < 128) :
    (octet >>> 7 = 0 ∧ octet &&& 0x7F = octet) ∧
    ((octet ||| 0x80) >>> 7 ≠ 0 ∧ (octet ||| 0x80) &&& 0x7F = octet) :=
  forall_uint8 (P := fun octet => octet < 128 → (octet >>> 7 = 0 ∧ octet &&& 0x7F = octet) ∧
    ((octet ||| 0x80) >>> 7 ≠ 0 ∧ (octet ||| 0x80) &&& 0x7F = octet)) (by decide +kernel)
    octet hoctet

/-- The loop reads a subheader of two octets. -/
theorem readSubheaders_of_flag_clear (h : MmWaveMacPduHeader) {octet1 octet2 : UInt8}
    (hclear : octet2 >>> 7 = 0) (i : List UInt8) :
    readSubheaders h (octet1 :: octet2 :: i) =
      let h := ⟨h.subheaderList ++ [⟨octet1 &&& 0x1F, (octet2 &&& 0x7F).toUInt32⟩], h.headerSize + 2⟩
      if octet1 >>> 5 = 0 then .ok (h, i) else readSubheaders h i := by
  rw [readSubheaders.eq_def]
  dsimp only
  rw [if_pos hclear]

/-- A subheader that was written is read, and those after it if it is not the last one. -/
theorem readSubheaders_write (h : MmWaveMacPduHeader) {s : MacSubheader} (last : Bool)
    (rest : List UInt8) (hlcid : s.lcid < 32) (hsize : s.size.toNat < 2 ^ 22) :
    readSubheaders h (writeSubheader last s ++ rest) =
      if last then .ok (h.addSubheader s, rest) else readSubheaders (h.addSubheader s) rest := by
  obtain ⟨hvalue2, hvalue3, hvalue4⟩ := toNat_octets s.size
  obtain ⟨hfirst, hmore⟩ := octet1_of_lt last s.lcid hlcid
  have hlt2 : (s.size &&& 0x7F).toUInt8 < 128 := by
    rw [UInt8.lt_iff_toNat_lt, hvalue2]
    exact Nat.mod_lt _ (by decide)
  have hlt3 : ((s.size >>> 7) &&& 0x7F).toUInt8 < 128 := by
    rw [UInt8.lt_iff_toNat_lt, hvalue3]
    exact Nat.mod_lt _ (by decide)
  obtain ⟨hclear2, hset2⟩ := flag_of_lt _ hlt2
  obtain ⟨hclear3, hset3⟩ := flag_of_lt _ hlt3
  have hjoin := toNat_join hlt2 hlt3
  have hmany : s.size > 0x7F ↔ 0x7F < s.size.toNat := UInt32.lt_iff_toNat_lt
  have hhuge : s.size > 0x3FFF ↔ 0x3FFF < s.size.toNat := UInt32.lt_iff_toNat_lt
  have hdiv : s.size.toNat / 2 ^ 7 / 2 ^ 7 = s.size.toNat / 2 ^ 14 := Nat.div_div_eq_div_mul ..
  unfold writeSubheader addSubheader
  dsimp only
  by_cases hlonger : s.size > 0x3FFF
  · have hvalue := hhuge.1 hlonger
    have hlong : s.size > 0x7F := hmany.2 (by omega)
    have hall : (s.size &&& 0x7F).toUInt8.toUInt32 |||
        (((s.size >>> 7) &&& 0x7F).toUInt8.toUInt32 <<< 7) |||
        (((s.size >>> 14) &&& 0xFF).toUInt8.toUInt32 <<< 14) = s.size := by
      rw [← UInt32.toNat_inj, toNat_join₃ (by omega), hjoin]
      omega
    rw [if_pos hlong, if_pos hlonger, if_pos hlonger]
    simp only [List.cons_append, List.nil_append, readSubheaders, hfirst, if_neg hset2.1, hset2.2,
      if_neg hset3.1, hset3.2, hall, hmore]
  have hvalue := mt hhuge.2 hlonger
  rw [if_neg hlonger, if_neg hlonger]
  by_cases hlong : s.size > 0x7F
  · have hall : (s.size &&& 0x7F).toUInt8.toUInt32 |||
        (((s.size >>> 7) &&& 0x7F).toUInt8.toUInt32 <<< 7) = s.size := by
      rw [← UInt32.toNat_inj, hjoin]
      omega
    rw [if_pos hlong, if_pos hlong]
    simp only [List.cons_append, List.nil_append, readSubheaders, hfirst, if_neg hset2.1, hset2.2,
      if_pos hclear3.1, hclear3.2, hall, hmore]
  · have hshort := mt hmany.2 hlong
    have hall : (s.size &&& 0x7F).toUInt8.toUInt32 = s.size := by
      rw [← UInt32.toNat_inj, UInt8.toNat_toUInt32, hvalue2]
      omega
    rw [if_neg hlong, if_neg hlong, List.cons_append, List.cons_append, List.nil_append,
      readSubheaders_of_flag_clear h hclear2.1]
    simp only [hfirst, hclear2.2, hall, hmore]

/-- The header size is the number of octets that are written. -/
theorem headerSize_addSubheader (h : MmWaveMacPduHeader) (last : Bool) (s : MacSubheader) :
    (h.addSubheader s).headerSize = h.headerSize + (writeSubheader last s).length := by
  have hhuge : s.size > 0x3FFF → s.size > 0x7F := fun hgt =>
    UInt32.lt_trans (by decide : (0x7F : UInt32) < 0x3FFF) hgt
  unfold addSubheader writeSubheader
  dsimp only
  split
  · rename_i hlonger
    rw [if_pos (hhuge hlonger)]
    rfl
  · split <;> rfl

/-- A header with these subheaders. -/
def ofSubheaders (h : MmWaveMacPduHeader) (subheaders : List MacSubheader) : MmWaveMacPduHeader :=
  subheaders.foldl (fun h s => h.addSubheader s) h

theorem subheaderList_ofSubheaders {h : MmWaveMacPduHeader} {subheaders : List MacSubheader} :
    (h.ofSubheaders subheaders).subheaderList = h.subheaderList ++ subheaders := by
  unfold ofSubheaders
  induction subheaders generalizing h with
  | nil => rw [List.foldl_nil, List.append_nil]
  | cons s rest ih =>
      rw [List.foldl_cons, ih]
      exact List.append_assoc ..

theorem headerSize_ofSubheaders {h : MmWaveMacPduHeader} {subheaders : List MacSubheader} :
    (h.ofSubheaders subheaders).headerSize =
      h.headerSize + (writeSubheaders subheaders).length := by
  unfold ofSubheaders
  induction subheaders generalizing h with
  | nil => rfl
  | cons s rest ih =>
      rw [List.foldl_cons, ih]
      cases rest with
      | nil =>
          rw [headerSize_addSubheader h true s]
          rfl
      | cons next rest =>
          rw [headerSize_addSubheader h false s, Nat.add_assoc, ← List.length_append]
          rfl

/-- Subheaders that were written are read, and nothing after them. -/
theorem readSubheaders_writeSubheaders (h : MmWaveMacPduHeader) {subheaders : List MacSubheader}
    (hne : subheaders ≠ [])
    (hwide : ∀ s ∈ subheaders, s.lcid < 32 ∧ s.size.toNat < 2 ^ 22) (payload : List UInt8) :
    readSubheaders h (writeSubheaders subheaders ++ payload) =
      .ok (h.ofSubheaders subheaders, payload) := by
  induction subheaders generalizing h with
  | nil => exact (hne rfl).elim
  | cons s rest ih =>
      obtain ⟨hlcid, hsize⟩ := hwide s List.mem_cons_self
      cases rest with
      | nil => exact readSubheaders_write h true payload hlcid hsize
      | cons next rest =>
          have hsplit : writeSubheaders (s :: next :: rest) ++ payload =
              writeSubheader false s ++ (writeSubheaders (next :: rest) ++ payload) :=
            List.append_assoc ..
          rw [hsplit, readSubheaders_write h false _ hlcid hsize, if_neg Bool.false_ne_true]
          exact ih (h.addSubheader s) (List.cons_ne_nil next rest)
            fun s hs => hwide s (List.mem_cons_of_mem _ hs)

end MmWaveMacPduHeader

end NtnIab.Mmwave
