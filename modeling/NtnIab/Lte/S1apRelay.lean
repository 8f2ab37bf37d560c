import NtnIab.Lte.RelaySockets

/-!
# Relaying one S1-AP message

What a relay makes of the bytes of an S1-AP message. It tries the initial UE message first, and
that header accepts whatever is long enough. An initial UE message comes out with one more parent;
any other message comes out as if it had been one: 13 of its first 34 bytes are overwritten, and
the two bytes after them are counted up.

## Strategy

The S1-AP header in front is kept as it is, so each statement is about the bytes after it. For an
initial UE message the relay is computed. For the others nothing is assumed of the bytes:
`CountAt` reads the number of parents where the relay finds it, and `Restamped` says what the first
36 bytes of the result are.
-/

namespace NtnIab.Lte

open ByteReader Iterator

/-! ## The header in front -/

/-- The bytes of an S1-AP header. -/
def front (procedureCode length number : UInt8) : List UInt8 :=
  [procedureCode, 0, length, 0, 0, number]

/-- The S1-AP header that these bytes are read as. -/
def frontHeader (procedureCode length number : UInt8) : EpcS1APHeader where
  procedureCode := procedureCode
  lengthOfIes := length.toNat - 3
  numberOfIes := number.toNat

variable {code length number fill : UInt8} {body : List UInt8}

theorem number_ne_zero (hnumber : number ≠ 0) : number.toNat ≠ 0 := by
  intro h
  exact hnumber (UInt8.toNat_inj.1 h)

theorem removeHeader_front (hlength : 3 ≤ length.toNat) (hnumber : number ≠ 0)
    (body : List UInt8) :
    Packet.removeHeader EpcS1APHeader (front code length number ++ body) =
      some (frontHeader code length number, 6, body) := by
  have hdeserialize : EpcS1APHeader.deserialize (front code length number ++ body) =
      some (frontHeader code length number, body) := by
    show (if length.toNat < 3 then _ else _ : Reader EpcS1APHeader) _ = _
    rw [if_neg (Nat.not_lt.2 hlength)]
    rfl
  refine Packet.removeHeader_eq_some.2 ⟨body, hdeserialize, ?_, rfl⟩
  exact (if_neg (number_ne_zero hnumber)).symm

/-- With a length of less than 3 the header is not taken to be there. -/
theorem removeHeader_front_of_lt (code number : UInt8) (hlength : length.toNat < 3)
    (body : List UInt8) :
    ∃ h : EpcS1APHeader, Packet.removeHeader EpcS1APHeader (front code length number ++ body) =
      some (h, 0, front code length number ++ body) := by
  have hdeserialize : ∃ rest, EpcS1APHeader.deserialize (front code length number ++ body) =
      some (⟨code, length.toNat, 0⟩, rest) := by
    refine ⟨[0, 0, number] ++ body, ?_⟩
    show (if length.toNat < 3 then _ else _ : Reader EpcS1APHeader) _ = _
    rw [if_pos hlength]
    rfl
  obtain ⟨rest, hrest⟩ := hdeserialize
  exact ⟨_, Packet.removeHeader_eq_some.2 ⟨rest, hrest, rfl, rfl⟩⟩

theorem addHeader_front (hlength : 3 ≤ length.toNat) (hnumber : number ≠ 0) (body : List UInt8) :
    Packet.addHeader fill (frontHeader code length number) body =
      some (front code length number ++ body) := by
  have hserialize : Header.serialize (frontHeader code length number) =
      front code length number := by
    show [code, 0, UInt8.ofNat (length.toNat - 3 + 3), 0, 0, UInt8.ofNat number.toNat] = _
    rw [Nat.sub_add_cancel hlength, UInt8.ofNat_toNat, UInt8.ofNat_toNat]
    rfl
  rw [Packet.addHeader_of_size, hserialize]
  rw [hserialize]
  exact if_neg (number_ne_zero hnumber)

/-- A message that was sent is its S1-AP header and what its own header has written. -/
theorem sendMessage_eq {H : Type} [Header H] {header : H} {procedureCode : UInt8}
    {lengthOfIes numberOfIes : Nat} (hnumber : numberOfIes ≠ 0) :
    sendMessage fill procedureCode lengthOfIes numberOfIes header =
      (inBounds (Packet.addHeader fill header [])).map
        (front procedureCode (UInt8.ofNat (lengthOfIes + 3)) (UInt8.ofNat numberOfIes) ++ ·) := by
  unfold sendMessage
  cases Packet.addHeader fill header [] with
  | none => rfl
  | some body =>
      show inBounds (Packet.addHeader fill (_ : EpcS1APHeader) body) = _
      rw [Packet.addHeader_of_size]
      · rfl
      · exact if_neg hnumber

/-- The bytes of a message that could be sent. -/
theorem of_sendMessage {H : Type} [Header H] {header : H} {procedureCode : UInt8}
    {lengthOfIes numberOfIes : Nat} {packet : List UInt8} (hnumber : numberOfIes ≠ 0)
    (h : sendMessage fill procedureCode lengthOfIes numberOfIes header = .ok packet) :
    ∃ tail, packet =
        front procedureCode (UInt8.ofNat (lengthOfIes + 3)) (UInt8.ofNat numberOfIes) ++
          (Header.serialize header ++ tail) ∧
      (Header.serialize header ++ tail).length = Header.getSerializedSize header := by
  rw [sendMessage_eq hnumber] at h
  cases hadd : Packet.addHeader fill header [] with
  | none =>
      rw [hadd] at h
      cases h
  | some body =>
      rw [hadd] at h
      obtain ⟨tail, rfl, hlength⟩ := Packet.of_addHeader hadd
      exact ⟨tail, (Except.ok.inj h).symm, hlength⟩

/-- An S1-AP message from an IAB node keeps its S1-AP header. -/
theorem fromIab_s1ap {own : UInt64} (hlength : 3 ≤ length.toNat) (hnumber : number ≠ 0) :
    fromIab fill own GtpuHeader.S1AP (front code length number ++ body) =
      (recogniseS1ap fill own body).map fun relayed =>
        .s1ap relayed.1 (front code length number ++ relayed.2) := by
  unfold fromIab
  rw [if_pos rfl, removeHeader_front hlength hnumber]
  show (recogniseS1ap fill own body).bind _ = _
  cases recogniseS1ap fill own body with
  | error e => rfl
  | ok relayed =>
      show (inBounds (Packet.addHeader fill (frontHeader code length number) relayed.2)).bind _ = _
      rw [addHeader_front hlength hnumber]
      rfl

/-- A message whose S1-AP header is not recognised is taken for data. -/
theorem fromIab_short {own : UInt64} (hlength : length.toNat < 3) :
    fromIab fill own GtpuHeader.S1AP (front code length number ++ body) =
      .ok (.data (front code length number ++ body)) := by
  obtain ⟨header, hheader⟩ := removeHeader_front_of_lt code number hlength body
  unfold fromIab
  rw [if_pos rfl, hheader]
  rfl

/-! ## The initial UE message -/

namespace EpcS1APInitialUeMessageHeader

variable {h : EpcS1APInitialUeMessageHeader}

/-- The number of parents is that of the list. -/
def Counted (h : EpcS1APInitialUeMessageHeader) : Prop :=
  h.parentImsiList.length = h.numParentImsi.toNat

/-- The header after `Deserialize`, which does not count the byte too many. -/
def parsed (h : EpcS1APInitialUeMessageHeader) : EpcS1APInitialUeMessageHeader :=
  { h with
    numberOfIes := 9
    headerLength := 36 + 8 * h.numParentImsi.toNat }

theorem reads_serialize (hcounted : h.Counted) : Reads deserialize h.serialize h.parsed := by
  have hparents : Reads (times Iterator.readNtohU64 h.numParentImsi.toNat)
      (h.parentImsiList.flatMap Iterator.writeHtonU64) h.parentImsiList := by
    rw [← hcounted]
    exact reads_times reads_ntohU64 _
  refine (reads_ntohU16 _).cons ?_
  refine (reads_u8 _).cons ?_
  refine (reads_u8 _).cons ?_
  refine (reads_u8 _).cons ?_
  refine (reads_u32 _).cons ?_
  refine (reads_u8 _).cons ?_
  refine (reads_u8 _).cons ?_
  refine (reads_ntohU16 _).cons ?_
  refine (reads_u8 _).cons ?_
  refine (reads_u8 _).cons ?_
  refine (reads_u8 _).cons ?_
  refine (reads_u64 _).cons ?_
  refine (reads_u8 _).cons ?_
  refine (reads_u64 _).cons ?_
  refine (reads_u8 _).cons ?_
  refine (reads_ntohU16 _).cons ?_
  exact hparents.cons Reads.nil

theorem length_parents (parents : List UInt64) :
    (parents.flatMap Iterator.writeHtonU64).length = 8 * parents.length := by
  induction parents with
  | nil => rfl
  | cons imsi rest ih =>
      rw [List.flatMap_cons, List.length_append, Iterator.length_writeHtonU64, ih, List.length_cons]
      omega

theorem length_serialize (h : EpcS1APInitialUeMessageHeader) :
    h.serialize.length = 36 + 8 * h.parentImsiList.length := by
  simp only [serialize, List.length_flatten, List.map_cons, List.map_nil, List.sum_cons,
    List.sum_nil, length_writeHtonU16, length_writeU32, length_writeU64, length_parents,
    List.length_cons, List.length_nil]
  omega

theorem addParent_counted (hcounted : h.Counted) (hfew : h.parentImsiList.length + 1 < 2 ^ 16)
    (imsi : UInt64) : (h.addParent imsi).Counted := by
  unfold Counted at hcounted ⊢
  show (h.parentImsiList ++ [imsi]).length = (h.numParentImsi + 1).toNat
  rw [List.length_append, List.length_singleton, UInt16.toNat_add, hcounted]
  exact (Nat.mod_eq_of_lt (hcounted ▸ hfew)).symm

/-- A relay appends its parent and leaves what comes after the message. -/
theorem recogniseS1ap_serialize (hcounted : h.Counted)
    (hfew : h.parentImsiList.length + 1 < 2 ^ 16) (own : UInt64) (rest : List UInt8) :
    recogniseS1ap fill own (h.serialize ++ rest) =
      .ok (.initialUeMessage h.mmeUeS1Id.toNat (h.parentImsiList.map UInt64.toNat),
        (h.addParent own).serialize ++ rest) := by
  have hcount : h.numParentImsi.toNat = h.parentImsiList.length := hcounted.symm
  have hsize : Header.getSerializedSize h.parsed = h.serialize.length := by
    show (36 + 8 * h.numParentImsi.toNat) % 2 ^ 32 = h.serialize.length
    rw [length_serialize, hcount]
    omega
  have hremove := Packet.removeHeader_of_size (reads_serialize hcounted) hsize rest
  have hadd : Packet.addHeader fill (h.parsed.addParent own) rest =
      some ((h.addParent own).serialize ++ rest) := by
    rw [Packet.addHeader_of_size]
    · rfl
    · show (36 + 8 * h.numParentImsi.toNat + 8) % 2 ^ 32 = (h.addParent own).serialize.length
      rw [length_serialize]
      show _ = 36 + 8 * (h.parentImsiList ++ [own]).length
      rw [hcount, List.length_append, List.length_singleton]
      omega
  unfold recogniseS1ap
  rw [hremove]
  have hpositive : h.serialize.length ≠ 0 := by
    rw [length_serialize]
    omega
  simp only [inBounds_some, Fallible.ok_bind]
  rw [if_pos hpositive, hadd]
  rfl

/-! ## What any message becomes -/

/-- The first 34 bytes that are written. -/
def stamp (h : EpcS1APInitialUeMessageHeader) : List UInt8 :=
  [writeHtonU16 h.enbUeS1Id, [0], [0], [0], writeU32 0, [0], [0], writeHtonU16 h.ecgi, [64], [0],
    [64], writeU64 h.stmsi, [0], writeU64 h.mmeUeS1Id, [0]].flatten

theorem serialize_eq_stamp (h : EpcS1APInitialUeMessageHeader) :
    h.serialize = h.stamp ++
      (writeHtonU16 h.numParentImsi ++ h.parentImsiList.flatMap Iterator.writeHtonU64) := by
  have hsplit : h.serialize =
      ([writeHtonU16 h.enbUeS1Id, [0], [0], [0], writeU32 0, [0], [0], writeHtonU16 h.ecgi, [64],
          [0], [64], writeU64 h.stmsi, [0], writeU64 h.mmeUeS1Id, [0]] ++
        [writeHtonU16 h.numParentImsi,
          h.parentImsiList.flatMap Iterator.writeHtonU64]).flatten := rfl
  have hback : [writeHtonU16 h.numParentImsi,
      h.parentImsiList.flatMap Iterator.writeHtonU64].flatten =
      writeHtonU16 h.numParentImsi ++ h.parentImsiList.flatMap Iterator.writeHtonU64 := by
    simp only [List.flatten_cons, List.flatten_nil, List.append_nil]
  rw [hsplit, List.flatten_append, hback]
  rfl

theorem length_stamp (h : EpcS1APInitialUeMessageHeader) : h.stamp.length = 34 := by
  simp [stamp]

end EpcS1APInitialUeMessageHeader

/-- What is in the place where an initial UE message has the number of its parents. -/
def countAt (body : List UInt8) : UInt16 :=
  UInt16.ofNat (BigEndian.decode ((body.drop 34).take 2))

/-- The message starts as an initial UE message with `n` parents does. -/
def Restamped (body : List UInt8) (n : UInt16) : Prop :=
  ∃ (h : EpcS1APInitialUeMessageHeader) (tail : List UInt8),
    body = h.serialize ++ tail ∧ h.numParentImsi = n

theorem countAt_of_restamped {n : UInt16} (h : Restamped body n) : countAt body = n := by
  obtain ⟨header, tail, rfl, rfl⟩ := h
  have htwo : (((header.serialize ++ tail).drop 34).take 2) = writeHtonU16 header.numParentImsi := by
    rw [header.serialize_eq_stamp, List.append_assoc, List.append_assoc,
      List.drop_left' header.length_stamp, List.take_left' (length_writeHtonU16 _)]
  have hdecode : BigEndian.decode (writeHtonU16 header.numParentImsi) =
      header.numParentImsi.toNat :=
    BigEndian.decode_encode_of_lt (show _ < 256 ^ 2 from header.numParentImsi.toNat_lt)
  rw [countAt, htwo, hdecode, UInt16.ofNat_toNat]

/-- Whatever is read as an initial UE message is long enough to be one, and has the number of its
parents in that place. -/
theorem of_deserialize {header : EpcS1APInitialUeMessageHeader} {rest : List UInt8}
    (h : EpcS1APInitialUeMessageHeader.deserialize body = some (header, rest)) :
    36 ≤ body.length ∧ header.numParentImsi = countAt body ∧
      header.headerLength = 36 + 8 * header.numParentImsi.toNat := by
  obtain ⟨_, -, h⟩ := takes_ntohU16.next (n := 0) h
  obtain ⟨_, -, h⟩ := takes_u8.next h
  obtain ⟨_, -, h⟩ := takes_u8.next h
  obtain ⟨_, -, h⟩ := takes_u8.next h
  obtain ⟨_, -, h⟩ := takes_u32.next h
  obtain ⟨_, -, h⟩ := takes_u8.next h
  obtain ⟨_, -, h⟩ := takes_u8.next h
  obtain ⟨_, -, h⟩ := takes_ntohU16.next h
  obtain ⟨_, -, h⟩ := takes_u8.next h
  obtain ⟨_, -, h⟩ := takes_u8.next h
  obtain ⟨_, -, h⟩ := takes_u8.next h
  obtain ⟨_, -, h⟩ := takes_u64.next h
  obtain ⟨_, -, h⟩ := takes_u8.next h
  obtain ⟨_, -, h⟩ := takes_u64.next h
  obtain ⟨_, -, h⟩ := takes_u8.next h
  obtain ⟨_, hcount, h⟩ := takes_ntohU16.next h
  obtain ⟨_, _, -, h⟩ := bind_eq_some.1 h
  obtain ⟨rfl, -⟩ := pure_eq_some.1 h
  obtain ⟨hlength, hvalue⟩ := of_readNtohU16 hcount
  rw [List.length_drop] at hlength
  exact ⟨by omega, hvalue, rfl⟩

/-- A relay that gets through has stamped the message and counted up what it took for the number
of parents. -/
theorem restamped_of_recogniseS1ap {own : UInt64} {header : RelayedHeader} {body' : List UInt8}
    (h : recogniseS1ap fill own body = .ok (header, body')) :
    36 ≤ body.length ∧ Restamped body' (countAt body + 1) := by
  obtain ⟨initial, hinitial, h⟩ := Fallible.bind_eq_ok.1 h
  obtain ⟨message, size, left⟩ := initial
  obtain ⟨rest, hdeserialize, rfl, rfl⟩ :=
    Packet.removeHeader_eq_some.1 (entry_eq_ok.1 hinitial)
  obtain ⟨hlength, hcount, hheader⟩ := of_deserialize hdeserialize
  -- the header is never taken to be absent
  have hsize : Header.getSerializedSize message ≠ 0 := by
    have hbound := message.numParentImsi.toNat_lt
    show message.headerLength % 2 ^ 32 ≠ 0
    omega
  rw [if_pos hsize] at h
  obtain ⟨packet, hpacket, hresult⟩ := Fallible.bind_eq_ok.1 h
  obtain ⟨-, rfl⟩ := Prod.mk.inj (Fallible.pure_eq_ok.1 hresult)
  obtain ⟨tail, rfl, -⟩ := Packet.of_addHeader (entry_eq_ok.1 hpacket)
  exact ⟨hlength, message.addParent own, tail, rfl, congrArg (· + 1) hcount⟩

/-! ## What the MME finds in a stamped message -/

/-- The number of bearers of a path switch request is overwritten with 0. -/
theorem pathSwitch_of_restamped {n : UInt16} {header : EpcS1APPathSwitchRequestHeader}
    {rest : List UInt8} (hbody : Restamped body n)
    (h : EpcS1APPathSwitchRequestHeader.deserialize body = some (header, rest)) :
    header.erabToBeSwitchedInDownlinkList = [] := by
  obtain ⟨_, -, h⟩ := takes_ntohU16.next (n := 0) h
  obtain ⟨_, -, h⟩ := takes_u8.next h
  obtain ⟨sz, hsz, h⟩ := takes_ntohU32.next h
  obtain ⟨erabs, _, herabs, h⟩ := bind_eq_some.1 h
  iterate 8 obtain ⟨_, _, -, h⟩ := bind_eq_some.1 h
  obtain ⟨rfl, -⟩ := pure_eq_some.1 h
  obtain ⟨-, rfl⟩ := of_readNtohU32 hsz
  obtain ⟨message, tail, rfl, -⟩ := hbody
  have hzero : ((message.serialize ++ tail).drop (0 + 2 + 1)).take 4 = [0, 0, 0, 0] := rfl
  rw [hzero] at herabs
  exact (pure_eq_some.1 herabs).1.symm

/-- The bearers of a release indication are the bytes from the 16th on. -/
theorem of_deserialize_release {header : EpcS1APErabReleaseIndicationHeader} {rest : List UInt8}
    (h : EpcS1APErabReleaseIndicationHeader.deserialize body = some (header, rest)) :
    let count := itemCount (UInt32.ofNat (BigEndian.decode ((body.drop 12).take 4)))
    count ≤ (body.drop 16).length ∧
      header.erabToBeReleaseIndication = (body.drop 16).take count := by
  obtain ⟨_, -, h⟩ := takes_u64.next (n := 0) h
  obtain ⟨_, -, h⟩ := takes_u8.next h
  obtain ⟨_, -, h⟩ := takes_ntohU16.next h
  obtain ⟨_, -, h⟩ := takes_u8.next h
  obtain ⟨sz, hsz, h⟩ := takes_ntohU32.next h
  obtain ⟨erabs, _, herabs, h⟩ := bind_eq_some.1 h
  obtain ⟨_, _, -, h⟩ := bind_eq_some.1 h
  obtain ⟨rfl, -⟩ := pure_eq_some.1 h
  obtain ⟨-, rfl⟩ := of_readNtohU32 hsz
  obtain ⟨hlength, hvalue, -⟩ := of_times_byte herabs
  exact ⟨hlength, hvalue⟩

/-- Where a release indication with 20 bearers has the number of parents. -/
theorem countAt_eq_of_take {bearers : List UInt8} {count : Nat}
    (hbearers : bearers = (body.drop 16).take count) (hcount : 20 ≤ count) :
    countAt body = UInt16.ofNat (BigEndian.decode ((bearers.drop 18).take 2)) := by
  rw [hbearers, List.drop_take, List.take_take, List.drop_drop, Nat.min_eq_left (by omega)]
  rfl

/-- Of a release indication there is nothing left, or there are so many bearers that the number
of parents is among them. -/
theorem release_of_restamped {n : UInt16} {header : EpcS1APErabReleaseIndicationHeader}
    {rest : List UInt8} (hbody : Restamped body n)
    (h : EpcS1APErabReleaseIndicationHeader.deserialize body = some (header, rest)) :
    header.erabToBeReleaseIndication = [] ∨
      20 ≤ header.erabToBeReleaseIndication.length ∧
        UInt16.ofNat (BigEndian.decode ((header.erabToBeReleaseIndication.drop 18).take 2)) = n := by
  obtain ⟨hlength, hvalue⟩ := of_deserialize_release h
  -- the third and the fourth byte of the number of bearers are overwritten as well
  have hsz : ∃ b : UInt8, (body.drop 12).take 4 = [b, 64, 0, 64] := by
    obtain ⟨message, tail, rfl, -⟩ := hbody
    exact ⟨_, rfl⟩
  obtain ⟨b, hb⟩ := hsz
  rw [hb] at hlength hvalue
  have hdecode : BigEndian.decode [b, 64, 0, 64] = b.toNat * 2 ^ 24 + 4194368 := by
    have h64 : (64 : UInt8).toNat = 64 := rfl
    have h0 : (0 : UInt8).toNat = 0 := rfl
    simp only [BigEndian.decode, List.length_cons, List.length_nil, h64, h0]
    omega
  rw [hdecode] at hlength hvalue
  have hbound := b.toNat_lt
  have hnat : (UInt32.ofNat (b.toNat * 2 ^ 24 + 4194368)).toNat = b.toNat * 2 ^ 24 + 4194368 := by
    rw [UInt32.toNat_ofNat']
    omega
  unfold itemCount at hlength hvalue
  rw [hnat] at hlength hvalue
  split_ifs at hlength hvalue with hsmall
  · right
    rw [← countAt_eq_of_take hvalue (by omega), countAt_of_restamped hbody]
    rw [hvalue, List.length_take_of_le hlength]
    exact ⟨by omega, rfl⟩
  · left
    exact hvalue.trans (List.take_zero)

/-! ## The context setup request

On its way down the request is read and written again by every node. The bytes that are not taken
back are those that are written over.
-/

namespace EpcS1APInitialContextSetupRequestHeader

variable {h : EpcS1APInitialContextSetupRequestHeader}

theorem reads_item (item : ErabToBeSetup) : Reads readItem (writeItem item) item := by
  have hflag : ∀ b : Bool, decide (b.toUInt8 ≠ 0) = b := by decide
  refine (reads_u8 _).cons ?_
  refine (reads_ntohU16 _).cons ?_
  refine (reads_ntohU64 _).cons ?_
  refine (reads_ntohU64 _).cons ?_
  refine (reads_ntohU64 _).cons ?_
  refine (reads_ntohU64 _).cons ?_
  refine (reads_u8 _).cons ?_
  refine (reads_u8 _).cons ?_
  refine (reads_u8 _).cons ?_
  refine (reads_ntohU32 _).cons ?_
  refine (reads_ntohU32 _).cons ?_
  refine (reads_u8 _).cons ?_
  rw [hflag, hflag]
  exact Reads.nil

/-- The header after `Deserialize`, which counts 46 of the 47 bytes of a bearer. -/
def parsed (h : EpcS1APInitialContextSetupRequestHeader) :
    EpcS1APInitialContextSetupRequestHeader :=
  { h with
    numberOfIes := 5
    headerLength := 27 + 46 * h.erabsToBeSetupList.length }

theorem reads_serialize (hfew : h.erabsToBeSetupList.length < 2 ^ 31) :
    Reads deserialize h.serialize h.parsed := by
  have hflag : ∀ b : Bool, decide (b.toUInt8 ≠ 0) = b := by decide
  have hcount : itemCount (UInt32.ofNat h.erabsToBeSetupList.length) =
      h.erabsToBeSetupList.length := by
    unfold itemCount
    rw [UInt32.toNat_ofNat', Nat.mod_eq_of_lt (by omega), if_pos hfew]
  -- the bit rate is written in one byte order and read in the other
  have hzero : Reads readU64 (Iterator.writeHtonU64 0) 0 := by
    have hsame : Iterator.writeHtonU64 0 = writeU64 0 := by decide
    rw [hsame]
    exact reads_u64 0
  refine (reads_u64 _).cons ?_
  refine (reads_u8 _).cons ?_
  refine (reads_ntohU16 _).cons ?_
  refine (reads_u8 _).cons ?_
  refine (reads_u8 _).cons ?_
  refine Reads.cons hzero ?_
  refine (reads_u8 _).cons ?_
  refine (reads_ntohU32 _).cons ?_
  rw [hflag, hcount]
  exact (reads_times reads_item _).cons ((reads_u8 _).cons Reads.nil)

theorem length_serialize (h : EpcS1APInitialContextSetupRequestHeader) :
    h.serialize.length = 27 + 47 * h.erabsToBeSetupList.length := by
  have hitems : ∀ items : List ErabToBeSetup,
      (items.flatMap writeItem).length = 47 * items.length := by
    intro items
    induction items with
    | nil => rfl
    | cons item rest ih =>
        have hitem : (writeItem item).length = 47 := by simp [writeItem]
        rw [List.flatMap_cons, List.length_append, hitem, ih, List.length_cons]
        omega
  simp only [serialize, List.length_flatten, List.map_cons, List.map_nil, List.sum_cons,
    List.sum_nil, length_writeU64, length_writeHtonU16, Iterator.length_writeHtonU64,
    Iterator.length_writeHtonU32, List.length_cons, List.length_nil, hitems]
  omega

/-- The bytes that a request leaves in the packet. -/
def leftover (h : EpcS1APInitialContextSetupRequestHeader) (rest : List UInt8) : List UInt8 :=
  (h.serialize ++ rest).drop (27 + 46 * h.erabsToBeSetupList.length)

theorem removeHeader_serialize (hfew : h.erabsToBeSetupList.length < 2 ^ 20) (rest : List UInt8) :
    ∃ size, Packet.removeHeader EpcS1APInitialContextSetupRequestHeader (h.serialize ++ rest) =
      some (h.parsed, size, h.leftover rest) := by
  have hsize : Header.getSerializedSize h.parsed = 27 + 46 * h.erabsToBeSetupList.length := by
    show (27 + 46 * h.erabsToBeSetupList.length) % 2 ^ 32 = _
    omega
  rw [Packet.removeHeader_of_reads (reads_serialize (by omega)), hsize]
  exact ⟨_, rfl⟩

/-- Written again, the request covers what it has left. -/
theorem addHeader_parsed (hfew : h.erabsToBeSetupList.length < 2 ^ 20) (rest : List UInt8) :
    Packet.addHeader fill h.parsed (h.leftover rest) = some (h.serialize ++ rest) := by
  have hsize : Header.getSerializedSize h.parsed = 27 + 46 * h.erabsToBeSetupList.length := by
    show (27 + 46 * h.erabsToBeSetupList.length) % 2 ^ 32 = _
    omega
  have hwritten : Header.serialize h.parsed = h.serialize := rfl
  have hlength := h.length_serialize
  unfold Packet.addHeader
  dsimp only
  rw [hsize, hwritten, leftover, if_pos]
  · have hcover : (List.replicate (27 + 46 * h.erabsToBeSetupList.length) fill ++
        (h.serialize ++ rest).drop (27 + 46 * h.erabsToBeSetupList.length)).drop
          h.serialize.length = rest := by
      calc _ = ((h.serialize ++ rest).drop (27 + 46 * h.erabsToBeSetupList.length)).drop
              (h.serialize.length - (27 + 46 * h.erabsToBeSetupList.length)) := by
            rw [List.drop_append, List.length_replicate, List.drop_eq_nil_of_le, List.nil_append]
            rw [List.length_replicate]
            omega
        _ = (h.serialize ++ rest).drop h.serialize.length := by
            rw [List.drop_drop]
            congr 1
            omega
        _ = rest := List.drop_left
    rw [hcover]
  · rw [List.length_drop, List.length_append]
    omega

end EpcS1APInitialContextSetupRequestHeader

end NtnIab.Lte
