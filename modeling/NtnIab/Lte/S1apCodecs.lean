import NtnIab.Lte.S1apRelay

/-!
# Which S1-AP headers can be read back

A message header counts its length three times: in its constructor and its setters, in what it
writes, and while it reads. For three of the six headers the counts agree. For the others they
never do: the initial UE message asks for a byte that it does not write; the context setup request
and the acknowledgement of a path switch read 46 and 9 bytes for a bearer of 47 and 10 bytes, and
count one information element more than they were built with.

## Strategy

`Reads` says what a header makes of its own bytes. A header is read back if that is the header
itself, and if it has written as many bytes as it has asked for.
-/

namespace NtnIab.Lte

open ByteReader Iterator

/-! ## Round trips -/

/-- The header writes as many bytes as it asks for; from these bytes, whatever follows them, a
fresh header takes back as many, with the same fields, and writes the same bytes again. -/
structure RoundTrips {H : Type} [Header H] (h : H) : Prop where
  size : (Header.serialize h).length = Header.getSerializedSize h
  read : ∀ suffix, ∃ h' rest, Header.deserialize (Header.serialize h ++ suffix) = some (h', rest) ∧
    Header.getSerializedSize h' = Header.getSerializedSize h ∧ h' = h ∧
    Header.serialize h' = Header.serialize h

/-- A header whose bytes are read as `h'` is read back if `h'` is the header. -/
theorem roundTrips_iff_of_reads {H : Type} [Header H] {h h' : H}
    (hreads : Reads Header.deserialize (Header.serialize h) h') :
    RoundTrips h ↔ (Header.serialize h).length = Header.getSerializedSize h ∧ h' = h := by
  constructor
  · intro ⟨hsize, hread⟩
    obtain ⟨h'', rest, hsome, -, hsame, -⟩ := hread []
    obtain ⟨rfl, -⟩ := Prod.mk.inj (Option.some.inj ((hreads []).symm.trans hsome))
    exact ⟨hsize, hsame⟩
  · rintro ⟨hsize, rfl⟩
    exact ⟨hsize, fun suffix => ⟨h', suffix, hreads suffix, rfl, rfl, rfl⟩⟩

/-! ## How a header is built -/

/-- A call that builds the list of parents. -/
inductive ParentCall
  | addParent (imsi : UInt64)
  | setParentImsiList (list : List UInt64)
  deriving Repr, DecidableEq

def ParentCall.apply (h : EpcS1APInitialUeMessageHeader) :
    ParentCall → EpcS1APInitialUeMessageHeader
  | .addParent imsi => h.addParent imsi
  | .setParentImsiList list => h.setParentImsiList list

/-- A message header as its senders build it: with any ids, any calls for the parents, and a list
of bearers that is set once. -/
inductive S1apMessage
  | initialUeMessage (stmsi mmeUeS1Id : UInt64) (enbUeS1Id ecgi : UInt16) (parents : List ParentCall)
  | erabReleaseIndication (mmeUeS1Id : UInt64) (enbUeS1Id : UInt16) (erabs : List UInt8)
  | initialContextSetupResponse (mmeUeS1Id : UInt64) (enbUeS1Id : UInt16) (erabs : List ErabItem)
  | pathSwitchRequest (mmeUeS1Id : UInt64) (enbUeS1Id ecgi : UInt16) (erabs : List ErabItem)
  | initialContextSetupRequest (mmeUeS1Id : UInt64) (enbUeS1Id : UInt16) (iab : Bool)
      (erabs : List ErabToBeSetup)
  | pathSwitchRequestAcknowledge (mmeUeS1Id : UInt64) (enbUeS1Id ecgi : UInt16)
      (erabs : List ErabItem)
  deriving Repr, DecidableEq

namespace S1apMessage

/-- The header of the message can be read back. -/
def RoundTrips : S1apMessage → Prop
  | .initialUeMessage stmsi mmeUeS1Id enbUeS1Id ecgi parents =>
      Lte.RoundTrips (parents.foldl ParentCall.apply { stmsi, mmeUeS1Id, enbUeS1Id, ecgi })
  | .erabReleaseIndication mmeUeS1Id enbUeS1Id erabs =>
      let header : EpcS1APErabReleaseIndicationHeader := { mmeUeS1Id, enbUeS1Id }
      Lte.RoundTrips (header.setErabReleaseIndication erabs)
  | .initialContextSetupResponse mmeUeS1Id enbUeS1Id erabs =>
      let header : EpcS1APInitialContextSetupResponseHeader := { mmeUeS1Id, enbUeS1Id }
      Lte.RoundTrips (header.setErabSetupItem erabs)
  | .pathSwitchRequest mmeUeS1Id enbUeS1Id ecgi erabs =>
      let header : EpcS1APPathSwitchRequestHeader := { mmeUeS1Id, enbUeS1Id, ecgi }
      Lte.RoundTrips (header.setErabSwitchedInDownlinkItemList erabs)
  | .initialContextSetupRequest mmeUeS1Id enbUeS1Id iab erabs =>
      let header : EpcS1APInitialContextSetupRequestHeader := { mmeUeS1Id, enbUeS1Id, iab }
      Lte.RoundTrips (header.setErabToBeSetupItem erabs)
  | .pathSwitchRequestAcknowledge mmeUeS1Id enbUeS1Id ecgi erabs =>
      let header : EpcS1APPathSwitchRequestAcknowledgeHeader := { mmeUeS1Id, enbUeS1Id, ecgi }
      Lte.RoundTrips (header.setErabSwitchedInUplinkItemList erabs)

/-- The three counts of the length agree: the message is one of three, and its number of bearers
fits the counters. -/
def CountsAgree : S1apMessage → Prop
  | .erabReleaseIndication _ _ erabs => erabs.length < 2 ^ 31
  | .initialContextSetupResponse _ _ erabs => 17 + 10 * erabs.length < 2 ^ 32
  | .pathSwitchRequest _ _ _ erabs => 26 + 10 * erabs.length < 2 ^ 32
  | .initialUeMessage .. | .initialContextSetupRequest .. | .pathSwitchRequestAcknowledge .. => False

end S1apMessage

/-! ## Lists of bearers -/

theorem itemCount_ofNat {n : Nat} (hn : n < 2 ^ 31) : itemCount (UInt32.ofNat n) = n := by
  unfold itemCount
  rw [UInt32.toNat_ofNat', Nat.mod_eq_of_lt (by omega), if_pos hn]

/-- The loop counter is a signed number of 32 bits. -/
theorem itemCount_lt (sz : UInt32) : itemCount sz < 2 ^ 31 := by
  unfold itemCount
  split
  · assumption
  · decide

theorem reads_erabItem (criticality : UInt8) (item : ErabItem) :
    Reads readErabItem (writeErabItem criticality item) item := by
  refine (reads_u8 _).cons ?_
  refine (reads_ntohU32 _).cons ?_
  refine (reads_ntohU32 _).cons ?_
  exact (reads_u8 _).cons Reads.nil

theorem length_erabItems (criticality : UInt8) (items : List ErabItem) :
    (items.flatMap (writeErabItem criticality)).length = 10 * items.length := by
  induction items with
  | nil => rfl
  | cons item rest ih =>
      have hitem : (writeErabItem criticality item).length = 10 := by simp [writeErabItem]
      rw [List.flatMap_cons, List.length_append, hitem, ih, List.length_cons]
      omega

/-! ## The headers that are read back -/

theorem EpcS1APErabReleaseIndicationHeader.length_serialize
    (h : EpcS1APErabReleaseIndicationHeader) :
    h.serialize.length = 17 + h.erabToBeReleaseIndication.length := by
  simp only [serialize, List.length_flatten, List.map_cons, List.map_nil, List.sum_cons,
    List.sum_nil, length_writeU64, length_writeHtonU16, Iterator.length_writeHtonU32,
    List.length_cons, List.length_nil]
  omega

theorem EpcS1APErabReleaseIndicationHeader.reads_serialize {h : EpcS1APErabReleaseIndicationHeader}
    (hfew : h.erabToBeReleaseIndication.length < 2 ^ 31) :
    Reads deserialize h.serialize
      { h with
        numberOfIes := 3
        headerLength := 17 + h.erabToBeReleaseIndication.length } := by
  have herabs := reads_times reads_u8 h.erabToBeReleaseIndication
  rw [List.flatMap_singleton'] at herabs
  refine (reads_u64 _).cons ?_
  refine (reads_u8 _).cons ?_
  refine (reads_ntohU16 _).cons ?_
  refine (reads_u8 _).cons ?_
  refine (reads_ntohU32 _).cons ?_
  rw [itemCount_ofNat hfew]
  exact herabs.cons ((reads_u8 _).cons Reads.nil)

/-- However many bearers were written, not more than the loop counts are read. -/
theorem EpcS1APErabReleaseIndicationHeader.headerLength_lt
    {h h' : EpcS1APErabReleaseIndicationHeader} {suffix rest : List UInt8}
    (hread : deserialize (h.serialize ++ suffix) = some (h', rest)) :
    h'.headerLength < 17 + 2 ^ 31 := by
  unfold deserialize at hread
  obtain ⟨_, _, -, hread⟩ := bind_eq_some.1 hread
  obtain ⟨_, _, -, hread⟩ := bind_eq_some.1 hread
  obtain ⟨_, _, -, hread⟩ := bind_eq_some.1 hread
  obtain ⟨_, _, -, hread⟩ := bind_eq_some.1 hread
  obtain ⟨sz, _, -, hread⟩ := bind_eq_some.1 hread
  obtain ⟨_, _, -, hread⟩ := bind_eq_some.1 hread
  obtain ⟨_, _, -, hread⟩ := bind_eq_some.1 hread
  obtain ⟨rfl, -⟩ := pure_eq_some.1 hread
  exact Nat.add_lt_add_left (itemCount_lt sz) 17

theorem EpcS1APErabReleaseIndicationHeader.roundTrips_iff_fits {h : EpcS1APErabReleaseIndicationHeader}
    (hies : h.numberOfIes = 3)
    (hlength : h.headerLength = 17 + h.erabToBeReleaseIndication.length) :
    RoundTrips h ↔ h.erabToBeReleaseIndication.length < 2 ^ 31 := by
  constructor
  · intro ⟨_, hread⟩
    obtain ⟨h', rest, hsome, -, rfl, -⟩ := hread []
    have hlt := headerLength_lt hsome
    omega
  · intro hfew
    refine (roundTrips_iff_of_reads (reads_serialize hfew)).2 ⟨?_, ?_⟩
    · refine h.length_serialize.trans ?_
      show _ = h.headerLength % 2 ^ 32
      omega
    · rw [← hies, ← hlength]

theorem EpcS1APInitialContextSetupResponseHeader.length_serialize
    (h : EpcS1APInitialContextSetupResponseHeader) :
    h.serialize.length = 17 + 10 * h.erabSetupList.length := by
  simp only [serialize, List.length_flatten, List.map_cons, List.map_nil, List.sum_cons,
    List.sum_nil, length_writeU64, length_writeHtonU16, Iterator.length_writeHtonU32,
    length_erabItems, List.length_cons, List.length_nil]
  omega

theorem EpcS1APInitialContextSetupResponseHeader.reads_serialize
    {h : EpcS1APInitialContextSetupResponseHeader} (hfew : h.erabSetupList.length < 2 ^ 31) :
    Reads deserialize h.serialize
      { h with
        numberOfIes := 3
        headerLength := 17 + 10 * h.erabSetupList.length } := by
  refine (reads_u64 _).cons ?_
  refine (reads_u8 _).cons ?_
  refine (reads_ntohU16 _).cons ?_
  refine (reads_u8 _).cons ?_
  refine (reads_ntohU32 _).cons ?_
  rw [itemCount_ofNat hfew]
  exact (reads_times (reads_erabItem 64) _).cons ((reads_u8 _).cons Reads.nil)

theorem EpcS1APInitialContextSetupResponseHeader.roundTrips_iff_fits
    {h : EpcS1APInitialContextSetupResponseHeader} (hies : h.numberOfIes = 3)
    (hlength : h.headerLength = 17 + 10 * h.erabSetupList.length) :
    RoundTrips h ↔ 17 + 10 * h.erabSetupList.length < 2 ^ 32 := by
  constructor
  · intro ⟨hsize, _⟩
    have hsame := h.length_serialize.symm.trans hsize
    change _ = h.headerLength % 2 ^ 32 at hsame
    omega
  · intro hfew
    refine (roundTrips_iff_of_reads (reads_serialize (by omega))).2 ⟨?_, ?_⟩
    · refine h.length_serialize.trans ?_
      show _ = h.headerLength % 2 ^ 32
      omega
    · rw [← hies, ← hlength]

theorem EpcS1APPathSwitchRequestHeader.length_serialize (h : EpcS1APPathSwitchRequestHeader) :
    h.serialize.length = 26 + 10 * h.erabToBeSwitchedInDownlinkList.length := by
  simp only [serialize, List.length_flatten, List.map_cons, List.map_nil, List.sum_cons,
    List.sum_nil, length_writeU64, length_writeU32, length_writeU16, length_writeHtonU16,
    Iterator.length_writeHtonU32, length_erabItems, List.length_cons, List.length_nil]
  omega

theorem EpcS1APPathSwitchRequestHeader.reads_serialize {h : EpcS1APPathSwitchRequestHeader}
    (hfew : h.erabToBeSwitchedInDownlinkList.length < 2 ^ 31) :
    Reads deserialize h.serialize
      { h with
        numberOfIes := 5
        headerLength := 26 + 10 * h.erabToBeSwitchedInDownlinkList.length } := by
  refine (reads_ntohU16 _).cons ?_
  refine (reads_u8 _).cons ?_
  refine (reads_ntohU32 _).cons ?_
  rw [itemCount_ofNat hfew]
  refine (reads_times (reads_erabItem 0) _).cons ?_
  refine (reads_u8 _).cons ?_
  refine (reads_u64 _).cons ?_
  refine (reads_u8 _).cons ?_
  refine (reads_u16 _).cons ?_
  refine (reads_u8 _).cons ?_
  refine (reads_u32 _).cons ?_
  refine (reads_u8 _).cons ?_
  exact (reads_u8 _).cons Reads.nil

theorem EpcS1APPathSwitchRequestHeader.roundTrips_iff_fits {h : EpcS1APPathSwitchRequestHeader}
    (hies : h.numberOfIes = 5)
    (hlength : h.headerLength = 26 + 10 * h.erabToBeSwitchedInDownlinkList.length) :
    RoundTrips h ↔ 26 + 10 * h.erabToBeSwitchedInDownlinkList.length < 2 ^ 32 := by
  constructor
  · intro ⟨hsize, _⟩
    have hsame := h.length_serialize.symm.trans hsize
    change _ = h.headerLength % 2 ^ 32 at hsame
    omega
  · intro hfew
    refine (roundTrips_iff_of_reads (reads_serialize (by omega))).2 ⟨?_, ?_⟩
    · refine h.length_serialize.trans ?_
      show _ = h.headerLength % 2 ^ 32
      omega
    · rw [← hies, ← hlength]

/-! ## The headers that are not -/

/-- The calls for the parents count 8 bytes for each of them, beyond the 37 of the constructor. -/
theorem EpcS1APInitialUeMessageHeader.headerLength_calls {h : EpcS1APInitialUeMessageHeader}
    {calls : List ParentCall} (hlength : h.headerLength % 8 = 5) :
    (calls.foldl ParentCall.apply h).headerLength % 8 = 5 := by
  induction calls generalizing h with
  | nil => exact hlength
  | cons call rest ih =>
      refine ih ?_
      cases call with
      | addParent imsi =>
          show (h.headerLength + 8) % 8 = 5
          omega
      | setParentImsiList list =>
          show (h.headerLength + list.length * 8) % 8 = 5
          omega

/-- 36 bytes and 8 for each parent are written. -/
theorem EpcS1APInitialUeMessageHeader.not_roundTrips {h : EpcS1APInitialUeMessageHeader}
    (hlength : h.headerLength % 8 = 5) : ¬RoundTrips h := by
  intro ⟨hsize, _⟩
  have hsame := h.length_serialize.symm.trans hsize
  change _ = h.headerLength % 2 ^ 32 at hsame
  omega

theorem EpcS1APInitialContextSetupRequestHeader.not_roundTrips
    {h : EpcS1APInitialContextSetupRequestHeader} (hies : h.numberOfIes = 4)
    (hlength : h.headerLength = 27 + 47 * h.erabsToBeSetupList.length) : ¬RoundTrips h := by
  intro hround
  have hsame := h.length_serialize.symm.trans hround.size
  change _ = h.headerLength % 2 ^ 32 at hsame
  obtain ⟨-, hparsed⟩ := (roundTrips_iff_of_reads (reads_serialize (h := h) (by omega))).1 hround
  have hcount : 5 = h.numberOfIes := congrArg (·.numberOfIes) hparsed
  omega

/-- The acknowledgement is read as the request is, and then counts anew. -/
theorem EpcS1APPathSwitchRequestAcknowledgeHeader.reads_serialize
    {h : EpcS1APPathSwitchRequestAcknowledgeHeader}
    (hfew : h.erabToBeSwitchedInUplinkList.length < 2 ^ 31) :
    Reads deserialize h.request.serialize
      { h with
        numberOfIes := 5
        headerLength := 26 + 9 * h.erabToBeSwitchedInUplinkList.length } :=
  (EpcS1APPathSwitchRequestHeader.reads_serialize (h := h.request) hfew).map

theorem EpcS1APPathSwitchRequestAcknowledgeHeader.not_roundTrips
    {h : EpcS1APPathSwitchRequestAcknowledgeHeader} (hies : h.numberOfIes = 4)
    (hlength : h.headerLength = 26 + 10 * h.erabToBeSwitchedInUplinkList.length) :
    ¬RoundTrips h := by
  intro hround
  have hsame := h.request.length_serialize.symm.trans hround.size
  change 26 + 10 * h.erabToBeSwitchedInUplinkList.length = h.headerLength % 2 ^ 32 at hsame
  obtain ⟨-, hparsed⟩ := (roundTrips_iff_of_reads (reads_serialize (h := h) (by omega))).1 hround
  have hcount : 5 = h.numberOfIes := congrArg (·.numberOfIes) hparsed
  omega

/-! ## The messages -/

/-- **The codecs of the messages.** The header of a message can be read back if and only if the
counts of its length agree. -/
theorem S1apMessage.roundTrips_iff_countsAgree (m : S1apMessage) :
    m.RoundTrips ↔ m.CountsAgree := by
  cases m with
  | initialUeMessage stmsi mmeUeS1Id enbUeS1Id ecgi parents =>
      refine iff_of_false ?_ id
      refine EpcS1APInitialUeMessageHeader.not_roundTrips ?_
      exact EpcS1APInitialUeMessageHeader.headerLength_calls (show 37 % 8 = 5 from rfl)
  | erabReleaseIndication mmeUeS1Id enbUeS1Id erabs =>
      exact EpcS1APErabReleaseIndicationHeader.roundTrips_iff_fits rfl rfl
  | initialContextSetupResponse mmeUeS1Id enbUeS1Id erabs =>
      exact EpcS1APInitialContextSetupResponseHeader.roundTrips_iff_fits rfl
        (congrArg (17 + ·) (Nat.mul_comm _ 10))
  | pathSwitchRequest mmeUeS1Id enbUeS1Id ecgi erabs =>
      exact EpcS1APPathSwitchRequestHeader.roundTrips_iff_fits rfl
        (congrArg (26 + ·) (Nat.mul_comm _ 10))
  | initialContextSetupRequest mmeUeS1Id enbUeS1Id iab erabs =>
      refine iff_of_false ?_ id
      exact EpcS1APInitialContextSetupRequestHeader.not_roundTrips rfl
        (congrArg (27 + ·) (Nat.mul_comm _ 47))
  | pathSwitchRequestAcknowledge mmeUeS1Id enbUeS1Id ecgi erabs =>
      refine iff_of_false ?_ id
      exact EpcS1APPathSwitchRequestAcknowledgeHeader.not_roundTrips rfl
        (congrArg (26 + ·) (Nat.mul_comm _ 10))

/-- An initial UE message without parents asks for 37 bytes and writes 36. -/
theorem S1apMessage.not_roundTrips_initialUeMessage :
    ¬(S1apMessage.initialUeMessage 1 1 1 1 []).RoundTrips := by
  intro ⟨hsize, _⟩
  exact absurd hsize (by decide)

end NtnIab.Lte
