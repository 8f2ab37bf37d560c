import Mathlib.Data.Nat.SuccPred
import Mathlib.Tactic.Ring
import NtnIab.Quic.Subheader

/-!
# Subheaders are read back as they were written

The layout of each frame type is written down three times: in the size, in the writer and in the
reader. They agree for all types but those with an address. Their size is a constant, which has one
byte for the path id, and a path id from 64 on takes two.

## Strategy

The writer and the reader agree for every subheader that has as many gaps as its counter says
(`deserializeFields_serializeFields`). What is written has as many bits as the size counts, but for
a second byte of the path id of an address (`length_serialize`). So the sizes agree if this byte is
missing and the counter of the bits does not wrap.
-/

namespace NtnIab.Quic

namespace QuicSubheader

/-! ## Building subheaders -/

def createPadding : QuicSubheader := { frameType := .PADDING }

def createRstStream (streamId applicationErrorCode finalOffset : Nat) : QuicSubheader :=
  { frameType := .RST_STREAM
    streamId
    errorCode := applicationErrorCode
    offset := finalOffset }

/-- A C string goes up to its first zero. -/
def createConnectionClose (errorCode : Nat) (reasonPhrase : List UInt8) : QuicSubheader :=
  let rpvec := reasonPhrase.takeWhile (· ≠ 0)
  { frameType := .CONNECTION_CLOSE
    errorCode
    reasonPhraseLength := rpvec.length
    reasonPhrase := rpvec }

def createApplicationClose (errorCode : Nat) (reasonPhrase : List UInt8) : QuicSubheader :=
  let rpvec := reasonPhrase.takeWhile (· ≠ 0)
  { frameType := .APPLICATION_CLOSE
    errorCode
    reasonPhraseLength := rpvec.length
    reasonPhrase := rpvec }

def createMaxStreamData (streamId maxStreamData : Nat) : QuicSubheader :=
  { frameType := .MAX_STREAM_DATA, streamId, maxStreamData }

def createMaxStreamId (maxStreamId : Nat) : QuicSubheader :=
  { frameType := .MAX_STREAM_ID, maxStreamId }

def createPing : QuicSubheader := { frameType := .PING }

def createBlocked (offset : Nat) : QuicSubheader := { frameType := .BLOCKED, offset }

def createStreamBlocked (streamId offset : Nat) : QuicSubheader :=
  { frameType := .STREAM_BLOCKED, streamId, offset }

def createStreamIdBlocked (streamId : Nat) : QuicSubheader :=
  { frameType := .STREAM_ID_BLOCKED, streamId }

def createNewConnectionId (sequence : Nat) (connectionId : UInt64) : QuicSubheader :=
  { frameType := .NEW_CONNECTION_ID, sequence, connectionId }

def createStopSending (streamId applicationErrorCode : Nat) : QuicSubheader :=
  { frameType := .STOP_SENDING, streamId, errorCode := applicationErrorCode }

def createAck (largestAcknowledged ackDelay firstAckBlock : Nat)
    (gaps additionalAckBlocks : List Nat) : QuicSubheader :=
  { frameType := .ACK
    largestAcknowledged
    ackDelay := ackDelay % 2 ^ 32
    ackBlockCount := gaps.length % 2 ^ 32
    firstAckBlock
    gaps
    additionalAckBlocks }

def createPathChallenge (data : UInt8) : QuicSubheader := { frameType := .PATH_CHALLENGE, data }

def createPathResponse (data : UInt8) : QuicSubheader := { frameType := .PATH_RESPONSE, data }

def createAddAddress (addr : List UInt8) (pathId : Nat) : QuicSubheader :=
  { frameType := .ADD_ADDRESS, address := addr, pathId }

def createRemoveAddress (addr : List UInt8) (pathId : Nat) : QuicSubheader :=
  { frameType := .REMOVE_ADDRESS, address := addr, pathId }

def createPathAbandon (pathId errorCode : Nat) : QuicSubheader :=
  { frameType := .PATH_ABANDON, pathId, errorCode }

/-- The subheaders that are built from arguments of the types of the source. What is written as a
varint is below 2^62, and an address has seven bytes. -/
inductive Created : QuicSubheader → Prop
  | padding : Created createPadding
  | rstStream {streamId errorCode offset : Nat} (hid : streamId < 2 ^ 62)
      (herror : errorCode < 2 ^ 16) (hoffset : offset < 2 ^ 62) :
      Created (createRstStream streamId errorCode offset)
  | connectionClose {errorCode : Nat} {phrase : List UInt8} (herror : errorCode < 2 ^ 16)
      (hphrase : phrase.length < 2 ^ 62) : Created (createConnectionClose errorCode phrase)
  | applicationClose {errorCode : Nat} {phrase : List UInt8} (herror : errorCode < 2 ^ 16)
      (hphrase : phrase.length < 2 ^ 62) : Created (createApplicationClose errorCode phrase)
  | maxData {maxData : Nat} (hmax : maxData < 2 ^ 62) : Created (createMaxData maxData)
  | maxStreamData {streamId maxStreamData : Nat} (hid : streamId < 2 ^ 62)
      (hmax : maxStreamData < 2 ^ 62) : Created (createMaxStreamData streamId maxStreamData)
  | maxStreamId {maxStreamId : Nat} (hmax : maxStreamId < 2 ^ 62) :
      Created (createMaxStreamId maxStreamId)
  | ping : Created createPing
  | blocked {offset : Nat} (hoffset : offset < 2 ^ 62) : Created (createBlocked offset)
  | streamBlocked {streamId offset : Nat} (hid : streamId < 2 ^ 62) (hoffset : offset < 2 ^ 62) :
      Created (createStreamBlocked streamId offset)
  | streamIdBlocked {streamId : Nat} (hid : streamId < 2 ^ 62) :
      Created (createStreamIdBlocked streamId)
  | newConnectionId {sequence : Nat} (hsequence : sequence < 2 ^ 62) (connectionId : UInt64) :
      Created (createNewConnectionId sequence connectionId)
  | stopSending {streamId errorCode : Nat} (hid : streamId < 2 ^ 62) (herror : errorCode < 2 ^ 16) :
      Created (createStopSending streamId errorCode)
  | ack {largest first : Nat} (ackDelay : Nat) {gaps blocks : List Nat}
      (hlargest : largest < 2 ^ 32) (hfirst : first < 2 ^ 32)
      (hlength : gaps.length = blocks.length)
      (hgaps : ∀ gap ∈ gaps, gap < 2 ^ 32) (hblocks : ∀ block ∈ blocks, block < 2 ^ 32) :
      Created (createAck largest ackDelay first gaps blocks)
  | pathChallenge (data : UInt8) : Created (createPathChallenge data)
  | pathResponse (data : UInt8) : Created (createPathResponse data)
  | stream {streamId offset length : Nat} (hid : streamId < 2 ^ 62) (hoffset : offset < 2 ^ 62)
      (hlength : length < 2 ^ 62) (offBit lengthBit finBit : Bool) :
      Created (createStreamSubHeader streamId offset length offBit lengthBit finBit)
  | addAddress {addr : List UInt8} {pathId : Nat} (haddr : addr.length = 7)
      (hpath : pathId < 2 ^ 8) : Created (createAddAddress addr pathId)
  | removeAddress {addr : List UInt8} {pathId : Nat} (haddr : addr.length = 7)
      (hpath : pathId < 2 ^ 8) : Created (createRemoveAddress addr pathId)
  | mpAck {largest first pathId : Nat} (ackDelay : Nat) {gaps blocks : List Nat}
      (hlargest : largest < 2 ^ 32) (hfirst : first < 2 ^ 32)
      (hlength : gaps.length = blocks.length)
      (hgaps : ∀ gap ∈ gaps, gap < 2 ^ 32) (hblocks : ∀ block ∈ blocks, block < 2 ^ 32)
      (hpath : pathId < 2 ^ 8) : Created (createMpAck largest ackDelay first gaps blocks pathId)
  | pathAbandon {pathId errorCode : Nat} (hpath : pathId < 2 ^ 8) (herror : errorCode < 2 ^ 16) :
      Created (createPathAbandon pathId errorCode)

/-! ## What is claimed -/

/-- A subheader is written with the size that it reports, and read back from whatever begins with
its bytes. -/
structure RoundTrips (s : QuicSubheader) : Prop where
  size : s.serialize.length = s.getSerializedSize
  back : ∀ suffix, deserialize (s.serialize ++ suffix) = some (s.getSerializedSize, s)

/-- The frame types with an address. -/
def hasAddress (s : QuicSubheader) : Prop :=
  s.frameType = .ADD_ADDRESS ∨ s.frameType = .REMOVE_ADDRESS

instance (s : QuicSubheader) : Decidable s.hasAddress := inferInstanceAs (Decidable (_ ∨ _))

/-- The path id beside an address takes one byte, and the counters of 32 bits hold the number of
the gaps and the bits of all fields. -/
structure Counted (s : QuicSubheader) : Prop where
  pathId : s.hasAddress → s.pathId < 64
  gaps : s.gaps.length < 2 ^ 32
  bits : 8 + s.fieldBits < 2 ^ 32

/-! ## Sizes -/

variable {s : QuicSubheader}

theorem length_writeAckBlocks (s : QuicSubheader) :
    8 * s.writeAckBlocks.length = s.ackBlockBits := by
  unfold writeAckBlocks ackBlockBits
  induction (s.gaps.zip s.additionalAckBlocks).take s.ackBlockCount with
  | nil => rfl
  | cons pair rest ih =>
      rw [List.flatMap_cons, List.length_append, List.length_append, length_writeVarInt64,
        length_writeVarInt64, List.map_cons, List.sum_cons, ← ih]
      dsimp only
      rw [getVarInt64Size_eq, getVarInt64Size_eq]
      ring

/-- What is written has as many bits as the size counts, unless there is an address. -/
theorem length_serialize (hcreated : Created s) (hnone : ¬ s.hasAddress) :
    8 * s.serialize.length = 8 + s.fieldBits := by
  have hblocks := length_writeAckBlocks s
  cases hcreated with
  | addAddress => exact absurd (Or.inl rfl) hnone
  | removeAddress => exact absurd (Or.inr rfl) hnone
  | stream hid hoffset hlength offBit lengthBit finBit =>
      cases offBit <;> cases lengthBit <;> cases finBit <;>
        simp only [serialize, createStreamSubHeader, FrameType.stream, serializeFields, fieldBits,
          getVarInt64Size_eq, List.length_cons, List.length_append, length_writeVarInt64] <;>
        omega
  | _ =>
      simp only [serialize, createPadding, createRstStream, createConnectionClose,
        createApplicationClose, createMaxData, createMaxStreamData, createMaxStreamId, createPing,
        createBlocked, createStreamBlocked, createStreamIdBlocked, createNewConnectionId,
        createStopSending, createAck, createPathChallenge, createPathResponse, createMpAck,
        createPathAbandon, serializeFields, fieldBits, getVarInt64Size_eq, writeU16,
        List.length_cons, List.length_append, List.length_nil, length_writeVarInt64,
        length_writeHtonU64] at hblocks ⊢ <;>
        omega

/-- A path id of one byte, or of two. -/
theorem varIntBytes_pathId {pathId : Nat} (hpath : pathId < 2 ^ 8) :
    varIntBytes pathId = if pathId < 64 then 1 else 2 := by
  unfold varIntBytes getVarInt64Size
  split_ifs <;> omega

theorem length_serialize_address (hcreated : Created s) (haddr : s.hasAddress) :
    s.serialize.length = 8 + varIntBytes s.pathId ∧ s.fieldBits = 64 ∧ s.pathId < 2 ^ 8 := by
  cases hcreated with
  | addAddress hlength hpath =>
      refine ⟨?_, rfl, hpath⟩
      simp only [serialize, createAddAddress, serializeFields, List.length_cons,
        List.length_append, length_writeVarInt64, hlength]
      omega
  | removeAddress hlength hpath =>
      refine ⟨?_, rfl, hpath⟩
      simp only [serialize, createRemoveAddress, serializeFields, List.length_cons,
        List.length_append, length_writeVarInt64, hlength]
      omega
  | stream _ _ _ offBit lengthBit finBit =>
      cases offBit <;> cases lengthBit <;> cases finBit <;> rcases haddr with h | h <;> cases h
  | _ => rcases haddr with h | h <;> cases h

/-- The sizes agree exactly if the path id beside an address takes one byte and the bits are
counted without a wrap. -/
theorem size_iff (hcreated : Created s) :
    s.serialize.length = s.getSerializedSize ↔
      (s.hasAddress → s.pathId < 64) ∧ 8 + s.fieldBits < 2 ^ 32 := by
  unfold getSerializedSize calculateSubHeaderLength
  by_cases haddr : s.hasAddress
  · obtain ⟨hlength, hbits, hpath⟩ := length_serialize_address hcreated haddr
    rw [hlength, hbits, varIntBytes_pathId hpath]
    split_ifs with hpath
    · simp [hpath]
    · simp [haddr, hpath]
  · have hlength := length_serialize hcreated haddr
    simp only [haddr, false_implies, true_and]
    omega

/-! ## Reading back -/

theorem readU16_write {n : Nat} (hn : n < 2 ^ 16) (rest : List UInt8) :
    readU16 (writeU16 n ++ rest) = n := by
  simp only [writeU16, readU16, List.cons_append, List.headD_cons, List.tail_cons,
    UInt8.toNat_ofNat']
  omega

theorem length_writeU16 (n : Nat) : (writeU16 n).length = 2 := rfl

theorem drop_writeU16 (n : Nat) (rest : List UInt8) : (writeU16 n ++ rest).drop 2 = rest := rfl

theorem readAckBlocks_write {pairs : List (Nat × Nat)} (hpairs : ∀ pair ∈ pairs,
      pair.1 < 2 ^ 32 ∧ pair.2 < 2 ^ 32) (rest : List UInt8) :
    readAckBlocks pairs.length
        (pairs.flatMap (fun (gap, block) => writeVarInt64 gap ++ writeVarInt64 block) ++ rest) =
      (pairs.map Prod.fst, pairs.map Prod.snd, rest) := by
  induction pairs with
  | nil => rfl
  | cons pair more ih =>
      obtain ⟨hgap, hblock⟩ := hpairs pair List.mem_cons_self
      have hmore := ih fun other hother => hpairs other (List.mem_cons_of_mem _ hother)
      rw [List.length_cons, List.flatMap_cons, List.append_assoc, List.append_assoc, readAckBlocks,
        readVarInt64_write (hgap.trans (by decide))]
      dsimp only
      rw [readVarInt64_write (hblock.trans (by decide))]
      dsimp only
      rw [hmore, Nat.mod_eq_of_lt hgap, Nat.mod_eq_of_lt hblock]
      rfl

theorem two_mul_le_length {pairs : List (Nat × Nat)} (hpairs : ∀ pair ∈ pairs,
      pair.1 < 2 ^ 32 ∧ pair.2 < 2 ^ 32) :
    2 * pairs.length ≤
      (pairs.flatMap fun (gap, block) => writeVarInt64 gap ++ writeVarInt64 block).length := by
  have hpos : ∀ v < 2 ^ 32, 1 ≤ varIntBytes v := by
    intro v hv
    unfold varIntBytes getVarInt64Size
    split_ifs <;> omega
  induction pairs with
  | nil => exact Nat.le_refl 0
  | cons pair rest ih =>
      rw [List.forall_mem_cons] at hpairs
      have hrest := ih hpairs.2
      have hgap := hpos _ hpairs.1.1
      have hblock := hpos _ hpairs.1.2
      rw [List.flatMap_cons, List.length_append, List.length_append, length_writeVarInt64,
        length_writeVarInt64, List.length_cons]
      omega

/-- The fields of an ACK are those of 32 bits. -/
structure AckFields (s : QuicSubheader) : Prop where
  largestAcknowledged : s.largestAcknowledged < 2 ^ 32
  ackDelay : s.ackDelay < 2 ^ 32
  firstAckBlock : s.firstAckBlock < 2 ^ 32
  count : s.ackBlockCount = s.gaps.length
  lengths : s.gaps.length = s.additionalAckBlocks.length
  few : s.gaps.length < 2 ^ 32
  gaps : ∀ gap ∈ s.gaps, gap < 2 ^ 32
  blocks : ∀ block ∈ s.additionalAckBlocks, block < 2 ^ 32

/-- What ACK and MP_ACK have in common is read back. -/
theorem readAck_write (hfields : AckFields s) (t : QuicSubheader) (rest : List UInt8) :
    t.readAck (writeVarInt64 s.largestAcknowledged ++ (writeVarInt64 s.ackDelay ++
        (writeVarInt64 s.ackBlockCount ++ (writeVarInt64 s.firstAckBlock ++
          (s.writeAckBlocks ++ rest))))) =
      (true, { t with
        largestAcknowledged := s.largestAcknowledged
        ackDelay := s.ackDelay
        ackBlockCount := s.ackBlockCount
        firstAckBlock := s.firstAckBlock
        gaps := s.gaps
        additionalAckBlocks := s.additionalAckBlocks }) := by
  obtain ⟨hlargest, hdelay, hfirst, hcount, hlengths, hfew, hgaps, hblocks⟩ := hfields
  have hwide : ∀ {v : Nat}, v < 2 ^ 32 → v < 2 ^ 62 := fun hv => hv.trans (by decide)
  have hpairs : ∀ pair ∈ s.gaps.zip s.additionalAckBlocks, pair.1 < 2 ^ 32 ∧ pair.2 < 2 ^ 32 :=
    fun pair hpair =>
      ⟨hgaps _ (List.of_mem_zip hpair).1, hblocks _ (List.of_mem_zip hpair).2⟩
  have hzip : (s.gaps.zip s.additionalAckBlocks).length = s.ackBlockCount := by
    rw [List.length_zip, ← hlengths, Nat.min_self, hcount]
  have hwritten : s.writeAckBlocks = (s.gaps.zip s.additionalAckBlocks).flatMap
      fun (gap, block) => writeVarInt64 gap ++ writeVarInt64 block := by
    unfold writeAckBlocks
    rw [List.take_of_length_le (Nat.le_of_eq hzip)]
  have hread := readAckBlocks_write hpairs rest
  rw [← hwritten, hzip, List.map_fst_zip (Nat.le_of_eq hlengths),
    List.map_snd_zip (Nat.le_of_eq hlengths.symm)] at hread
  have hroom : 2 * s.ackBlockCount ≤ (s.writeAckBlocks ++ rest).length := by
    have hbytes := two_mul_le_length hpairs
    rw [← hwritten, hzip] at hbytes
    rw [List.length_append]
    omega
  unfold readAck
  rw [readVarInt64_write (hwide hlargest)]
  dsimp only
  rw [readVarInt64_write (hwide hdelay)]
  dsimp only
  rw [readVarInt64_write (hwide (hcount ▸ hfew))]
  dsimp only
  rw [readVarInt64_write (hwide hfirst)]
  dsimp only
  have hmod : s.ackBlockCount % 2 ^ 32 = s.ackBlockCount := Nat.mod_eq_of_lt (hcount ▸ hfew)
  rw [Nat.mod_eq_of_lt hlargest, Nat.mod_eq_of_lt hdelay, Nat.mod_eq_of_lt hfirst, hmod, hread,
    if_neg (by omega)]

/-- The fields are read back, if the counter of the gaps has not wrapped. -/
theorem deserializeFields_serializeFields (hcreated : Created s) (hfew : s.gaps.length < 2 ^ 32)
    (rest : List UInt8) :
    deserializeFields s.frameType (s.serializeFields ++ rest) = some (true, s) := by
  cases hcreated with
  | padding => rfl
  | ping => rfl
  | rstStream hid herror hoffset =>
      simp [createRstStream, serializeFields, deserializeFields, readVarInt64_write hid,
        readU16_write herror, length_writeU16, drop_writeU16, readVarInt64_write hoffset]
      omega
  | @connectionClose _ phrase herror hphrase =>
      have hlength : (phrase.takeWhile (· ≠ 0)).length < 2 ^ 62 :=
        (List.takeWhile_prefix _).length_le.trans_lt hphrase
      unfold createConnectionClose
      generalize phrase.takeWhile (· ≠ 0) = rpvec at hlength ⊢
      simp [serializeFields, deserializeFields, readU16_write herror, length_writeU16,
        drop_writeU16, readVarInt64_write hlength]
      omega
  | @applicationClose _ phrase herror hphrase =>
      have hlength : (phrase.takeWhile (· ≠ 0)).length < 2 ^ 62 :=
        (List.takeWhile_prefix _).length_le.trans_lt hphrase
      unfold createApplicationClose
      generalize phrase.takeWhile (· ≠ 0) = rpvec at hlength ⊢
      simp [serializeFields, deserializeFields, readU16_write herror, length_writeU16,
        drop_writeU16, readVarInt64_write hlength]
      omega
  | maxData hmax =>
      simp [createMaxData, serializeFields, deserializeFields, readVarInt64_write hmax]
  | maxStreamData hid hmax =>
      simp [createMaxStreamData, serializeFields, deserializeFields, readVarInt64_write hid,
        readVarInt64_write hmax]
  | maxStreamId hmax =>
      simp [createMaxStreamId, serializeFields, deserializeFields, readVarInt64_write hmax]
  | blocked hoffset =>
      simp [createBlocked, serializeFields, deserializeFields, readVarInt64_write hoffset]
  | streamBlocked hid hoffset =>
      simp [createStreamBlocked, serializeFields, deserializeFields, readVarInt64_write hid,
        readVarInt64_write hoffset]
  | streamIdBlocked hid =>
      simp [createStreamIdBlocked, serializeFields, deserializeFields, readVarInt64_write hid]
  | newConnectionId hsequence connectionId =>
      have hback : readNtohU64 (writeHtonU64 connectionId ++ rest) = connectionId :=
        readNtohU64_write [] rest connectionId
      simp [createNewConnectionId, serializeFields, deserializeFields,
        readVarInt64_write hsequence, hback]
  | stopSending hid herror =>
      simp [createStopSending, serializeFields, deserializeFields, readVarInt64_write hid,
        readU16_write herror, length_writeU16]
      omega
  | @ack largest first ackDelay gaps blocks hlargest hfirst hlength hgaps hblocks =>
      have hfields : AckFields (createAck largest ackDelay first gaps blocks) :=
        ⟨hlargest, Nat.mod_lt _ (by decide), hfirst, Nat.mod_eq_of_lt hfew, hlength, hfew, hgaps,
          hblocks⟩
      have hread := readAck_write hfields { frameType := .ACK } rest
      simp only [createAck, deserializeFields, serializeFields, List.append_assoc] at hread ⊢
      rw [hread]
  | pathChallenge data => simp [createPathChallenge, serializeFields, deserializeFields, readU8]
  | pathResponse data => simp [createPathResponse, serializeFields, deserializeFields, readU8]
  | stream hid hoffset hlength offBit lengthBit finBit =>
      cases offBit <;> cases lengthBit <;> cases finBit <;>
        simp [createStreamSubHeader, FrameType.stream, serializeFields, deserializeFields,
          readVarInt64_write hid, readVarInt64_write hoffset, readVarInt64_write hlength]
  | @addAddress addr pathId haddr hpath =>
      have hread := readVarInt64_write (hpath.trans (show 2 ^ 8 < 2 ^ 62 by decide)) rest
      simpa [createAddAddress, serializeFields, deserializeFields, hread, List.take_left' haddr,
        List.drop_left' haddr, haddr] using hpath
  | @removeAddress addr pathId haddr hpath =>
      have hread := readVarInt64_write (hpath.trans (show 2 ^ 8 < 2 ^ 62 by decide)) rest
      simpa [createRemoveAddress, serializeFields, deserializeFields, hread, List.take_left' haddr,
        List.drop_left' haddr, haddr] using hpath
  | @mpAck largest first pathId ackDelay gaps blocks hlargest hfirst hlength hgaps hblocks hpath =>
      have hfields : AckFields (createMpAck largest ackDelay first gaps blocks pathId) :=
        ⟨hlargest, Nat.mod_lt _ (by decide), hfirst, Nat.mod_eq_of_lt hfew, hlength, hfew, hgaps,
          hblocks⟩
      have hread := readAck_write hfields { frameType := .MP_ACK, pathId } rest
      have hid := hpath.trans (show 2 ^ 8 < 2 ^ 62 by decide)
      simp only [createMpAck, deserializeFields, serializeFields, List.append_assoc,
        readVarInt64_write hid, Nat.mod_eq_of_lt hpath] at hread ⊢
      rw [hread]
  | pathAbandon hpath herror =>
      have hid := hpath.trans (show 2 ^ 8 < 2 ^ 62 by decide)
      have hcode := herror.trans (show 2 ^ 16 < 2 ^ 62 by decide)
      simpa [createPathAbandon, serializeFields, deserializeFields, readVarInt64_write hid,
        readVarInt64_write hcode] using And.intro herror hpath

theorem length_readAckBlocks (n : Nat) (i : List UInt8) : (readAckBlocks n i).1.length = n := by
  induction n generalizing i with
  | zero => rfl
  | succ n ih => exact congrArg Nat.succ (ih _)

theorem gaps_readAck {t : QuicSubheader} (hnone : t.gaps = []) (i : List UInt8) :
    (t.readAck i).2.gaps.length < 2 ^ 32 := by
  unfold readAck
  dsimp only
  split
  · rw [hnone]
    decide
  · rw [length_readAckBlocks]
    exact Nat.mod_lt _ (by decide)

/-- A subheader that is read back has no more gaps than its counter holds. -/
theorem RoundTrips.gaps (hcreated : Created s) (htrip : s.RoundTrips) :
    s.gaps.length < 2 ^ 32 := by
  have hback := htrip.back []
  unfold deserialize serialize at hback
  rw [List.cons_append] at hback
  dsimp only at hback
  rw [FrameType.ofByte_toByte] at hback
  dsimp only at hback
  obtain ⟨read, hread, hresult⟩ := Option.map_eq_some_iff.1 hback
  have hsame : read.2 = s := (Prod.ext_iff.1 hresult).2
  cases hcreated with
  | ack =>
      rw [← hsame, ← Option.some.inj hread]
      exact gaps_readAck rfl _
  | mpAck =>
      rw [← hsame, ← Option.some.inj hread]
      exact gaps_readAck rfl _
  | stream _ _ _ offBit lengthBit finBit => exact Nat.zero_lt_succ _
  | _ => exact Nat.zero_lt_succ _

/-- A subheader that was built is read back as it was written exactly if its counters hold. -/
theorem roundTrips_iff_counted (hcreated : Created s) : s.RoundTrips ↔ s.Counted := by
  constructor
  · intro htrip
    obtain ⟨hpath, hbits⟩ := (size_iff hcreated).1 htrip.size
    exact ⟨hpath, htrip.gaps hcreated, hbits⟩
  · rintro ⟨hpath, hfew, hbits⟩
    refine ⟨(size_iff hcreated).2 ⟨hpath, hbits⟩, fun suffix => ?_⟩
    unfold deserialize serialize
    rw [List.cons_append]
    dsimp only
    rw [FrameType.ofByte_toByte]
    dsimp only
    rw [deserializeFields_serializeFields hcreated hfew, Option.map_some, if_pos rfl]

theorem roundTrips_mpAck : (createMpAck 70000 25 3 [69990, 100] [69980, 64] 255).RoundTrips := by
  have hcreated : Created (createMpAck 70000 25 3 [69990, 100] [69980, 64] 255) := by
    apply Created.mpAck <;> decide
  exact (roundTrips_iff_counted hcreated).2 ⟨fun h => h.elim nofun nofun, by decide, by decide⟩

/-- A path id from 64 on takes two bytes beside an address. -/
theorem not_roundTrips_addAddress : ¬ ∀ s, Created s → s.RoundTrips := by
  intro hall
  have hcreated : Created (createAddAddress [10, 1, 2, 1, 80, 0, 0] 64) := by
    apply Created.addAddress <;> decide
  have hsize := (hall _ hcreated).size
  revert hsize
  decide

end QuicSubheader

end NtnIab.Quic
