import NtnIab.Quic.HeaderBounds
import NtnIab.Quic.Disgregate

/-!
# What the subheader decoder consumes

The size a frame reports is that of the shortest encoding of the decoded fields, not the number of
bytes read. Two things make the difference: a field that is missing from a truncated buffer is
decoded as zero (or, for a reason phrase, cut short) and still counted, and a varint written longer
than necessary is counted shorter. `walk` follows a frame's layout over a buffer and adds up both,
without decoding anything but the lengths; the decoder's size then is the bytes it read, plus those
missing, minus those wasted.
-/

namespace NtnIab.Quic

/-! ## Layouts -/

/-- One field of a frame on the wire. -/
inductive Field
  /-- A varint stored in a field of the given number of bits. -/
  | varint (bits : Nat)
  /-- A fixed number of bytes, whose presence is checked. -/
  | fixed (bytes : Nat)
  /-- A varint length and that many bytes, as many as there are. -/
  | phrase
  /-- The block count and first block of an ACK, and two varints for each additional block. -/
  | blocks
  /-- Seven bytes of address, not checked, and a path id, counted as eight bytes together. -/
  | address
  deriving Repr, DecidableEq

def FrameType.layout : FrameType → List Field
  | .PADDING | .PING => []
  | .RST_STREAM => [.varint 64, .fixed 2, .varint 64]
  | .CONNECTION_CLOSE | .APPLICATION_CLOSE => [.fixed 2, .phrase]
  | .MAX_DATA | .MAX_STREAM_ID | .BLOCKED | .STREAM_ID_BLOCKED => [.varint 64]
  | .MAX_STREAM_DATA | .STREAM_BLOCKED => [.varint 64, .varint 64]
  | .NEW_CONNECTION_ID => [.varint 64, .fixed 8]
  | .STOP_SENDING => [.varint 64, .fixed 2]
  | .ACK => [.varint 32, .varint 32, .blocks]
  | .PATH_CHALLENGE | .PATH_RESPONSE => [.fixed 1]
  | .STREAM000 | .STREAM001 => [.varint 64]
  | .STREAM010 | .STREAM011 | .STREAM100 | .STREAM101 => [.varint 64, .varint 64]
  | .STREAM110 | .STREAM111 => [.varint 64, .varint 64, .varint 64]
  | .ADD_ADDRESS | .REMOVE_ADDRESS => [.address]
  | .MP_ACK => [.varint 8, .varint 32, .varint 32, .blocks]
  | .PATH_ABANDON => [.varint 8, .varint 16]

/-! ## Walking a layout -/

/-- Bytes a buffer is short of, bytes spent on over-long varints, additional ack blocks, and what
is left of the buffer. -/
structure Extent where
  missing : Nat := 0
  wasted : Nat := 0
  blocks : Nat := 0
  rest : List UInt8
  deriving Repr, DecidableEq

inductive Walk
  | rejected
  | overrun
  | done (extent : Extent)
  deriving Repr, DecidableEq

/-- Two extents one after the other. -/
def Extent.append (first second : Extent) : Extent where
  missing := first.missing + second.missing
  wasted := first.wasted + second.wasted
  blocks := first.blocks + second.blocks
  rest := second.rest

/-- A walk that starts with a given extent. -/
def Walk.after (first : Extent) : Walk → Walk
  | .rejected => .rejected
  | .overrun => .overrun
  | .done e => .done (first.append e)

/-- A varint read into a field of `bits` bits: an empty buffer lacks the byte that is counted. -/
def walkVarint (bits : Nat) (i : List UInt8) : Extent where
  missing := if i = [] then 1 else 0
  wasted := (i.length - (readVarInt64 i).2.length) - varIntBytes ((readVarInt64 i).1 % 2 ^ bits)
  rest := (readVarInt64 i).2

/-- Bytes of which as many are taken as there are. -/
def walkBytes (n : Nat) (i : List UInt8) : Extent where
  missing := n - i.length
  rest := i.drop n

/-- The path id of an address frame, counted as one byte. -/
def walkPathId (i : List UInt8) : Extent where
  missing := if i = [] then 1 else 0
  wasted := (i.length - (readVarInt64 i).2.length) - 1
  rest := (readVarInt64 i).2

def walkAckBlocks : Nat → List UInt8 → Extent
  | 0, i => { rest := i }
  | n + 1, i =>
      let gap := walkVarint 32 i
      let block := walkVarint 32 gap.rest
      (gap.append block).append (walkAckBlocks n block.rest)

def walk : List Field → List UInt8 → Walk
  | [], i => .done { rest := i }
  | .varint bits :: fields, i => (walk fields (readVarInt64 i).2).after (walkVarint bits i)
  | .fixed bytes :: fields, i =>
      if i.length < bytes then .rejected else (walk fields (i.drop bytes)).after (walkBytes bytes i)
  | .phrase :: fields, i =>
      let (length, j) := readVarInt64 i
      (walk fields (j.drop length)).after ((walkVarint 64 i).append (walkBytes length j))
  | .blocks :: fields, i =>
      let (count, j) := readVarInt64 i
      let (_, k) := readVarInt64 j
      let n := count % 2 ^ 32
      if k.length < 2 * n % 2 ^ 32 then .rejected
      else
        let e := walkAckBlocks n k
        (walk fields e.rest).after
          (((walkVarint 32 i).append (walkVarint 32 j)).append { e with blocks := n })
  | .address :: fields, i =>
      if i.length < 7 then .overrun
      else
        (walk fields (readVarInt64 (i.drop 7)).2).after
          ((walkBytes 7 i).append (walkPathId (i.drop 7)))

/-! ## What an extent accounts for -/

/-- The `bytes` counted for the fields of an extent over `i`, against those read. Bytes are missing
only if nothing is left. -/
structure Extent.Counts (i : List UInt8) (e : Extent) (bytes : Nat) : Prop where
  balance : bytes + e.wasted + e.rest.length = i.length + e.missing
  shrinks : e.rest.length ≤ i.length
  exhausted : e.missing ≠ 0 → e.rest = []

theorem Extent.Counts.append {i : List UInt8} {first second : Extent} {m n : Nat}
    (hfirst : first.Counts i m) (hsecond : second.Counts first.rest n) :
    (first.append second).Counts i (m + n) where
  balance := by
    have hb := hfirst.balance
    have hb' := hsecond.balance
    simp only [Extent.append]
    omega
  shrinks := Nat.le_trans hsecond.shrinks hfirst.shrinks
  exhausted := fun hne => by
    by_cases hzero : first.missing = 0
    · exact hsecond.exhausted (by simp only [Extent.append] at hne; omega)
    · have hshrinks := hsecond.shrinks
      rw [hfirst.exhausted hzero] at hshrinks
      exact List.eq_nil_of_length_eq_zero (Nat.le_zero.1 hshrinks)

theorem Extent.Counts.withBlocks {i : List UInt8} {e : Extent} {bytes : Nat}
    (hcounts : e.Counts i bytes) (blocks : Nat) : Extent.Counts i { e with blocks } bytes :=
  ⟨hcounts.balance, hcounts.shrinks, hcounts.exhausted⟩

theorem Extent.counts_nil (i : List UInt8) : Extent.Counts i { rest := i } 0 :=
  ⟨by simp, Nat.le_refl _, fun h => absurd rfl h⟩

theorem readVarInt64_length_le (i : List UInt8) : (readVarInt64 i).2.length ≤ i.length := by
  rcases readVarInt64_cases i with ⟨rfl, h⟩ | ⟨n, v, h, -⟩
  · simp [h]
  · simp [h]

/-- A varint counts the shortest encoding of the value stored: what is read beyond it is wasted,
and the one byte counted on an empty buffer is missing. -/
theorem walkVarint_counts (bits : Nat) (i : List UInt8) :
    (walkVarint bits i).Counts i (varIntBytes ((readVarInt64 i).1 % 2 ^ bits)) where
  balance := by
    unfold walkVarint
    rcases readVarInt64_cases i with ⟨rfl, h⟩ | ⟨n, v, h, hlen, hn, hv⟩
    · simp [h, varIntBytes, getVarInt64Size]
    · have hne : i ≠ [] := by rintro rfl; simp at hlen
      have hsize : varIntBytes (v % 2 ^ bits) ≤ n + 1 :=
        varIntBytes_le_of_lt (Nat.lt_of_le_of_lt (Nat.mod_le _ _) hv) hn
      simp only [h, List.length_drop, if_neg hne]
      omega
  shrinks := readVarInt64_length_le i
  exhausted := fun hne => by
    have hi : i = [] := by
      by_contra hi
      simp [walkVarint, hi] at hne
    subst hi
    rfl

/-- A 64-bit field stores the value read. -/
theorem walkVarint_counts_wide (i : List UInt8) :
    (walkVarint 64 i).Counts i (varIntBytes (readVarInt64 i).1) := by
  have hcounts := walkVarint_counts 64 i
  rwa [Nat.mod_eq_of_lt (Nat.lt_trans (readVarInt64_lt i) (by decide))] at hcounts

theorem walkBytes_counts (n : Nat) (i : List UInt8) : (walkBytes n i).Counts i n where
  balance := by simp only [walkBytes, List.length_drop]; omega
  shrinks := by simp [walkBytes]
  exhausted := fun hne => List.drop_eq_nil_of_le (by simp only [walkBytes] at hne; omega)

theorem walkPathId_counts (i : List UInt8) : (walkPathId i).Counts i 1 where
  balance := by
    unfold walkPathId
    rcases readVarInt64_cases i with ⟨rfl, h⟩ | ⟨n, v, h, hlen, -⟩
    · simp [h]
    · have hne : i ≠ [] := by rintro rfl; simp at hlen
      simp only [h, List.length_drop, if_neg hne]
      omega
  shrinks := readVarInt64_length_le i
  exhausted := (walkVarint_counts 64 i).exhausted

/-! ## The decoder agrees with the walk -/

open QuicSubheader

/-- The bytes of a list of gaps and blocks. -/
def ackBlockBytes (pairs : List (Nat × Nat)) : Nat :=
  (pairs.map fun (gap, block) => varIntBytes gap + varIntBytes block).sum

theorem ackBlockBits_eq (pairs : List (Nat × Nat)) :
    (pairs.map fun (gap, block) => getVarInt64Size gap + getVarInt64Size block).sum =
      8 * ackBlockBytes pairs := by
  induction pairs with
  | nil => rfl
  | cons pair pairs ih =>
      simp only [ackBlockBytes, List.map_cons, List.sum_cons, getVarInt64Size_eq] at ih ⊢
      omega

theorem readAckBlocks_counts (n : Nat) (i : List UInt8) :
    (readAckBlocks n i).1.length = n ∧ (readAckBlocks n i).2.1.length = n ∧
      Extent.Counts i (walkAckBlocks n i)
        (ackBlockBytes ((readAckBlocks n i).1.zip (readAckBlocks n i).2.1)) := by
  induction n generalizing i with
  | zero => exact ⟨rfl, rfl, Extent.counts_nil i⟩
  | succ n ih =>
      obtain ⟨hgaps, hblocks, hrest⟩ := ih (readVarInt64 (readVarInt64 i).2).2
      refine ⟨by simp [readAckBlocks, hgaps], by simp [readAckBlocks, hblocks], ?_⟩
      exact ((walkVarint_counts 32 i).append (walkVarint_counts 32 _)).append hrest

/-- The bits of the fields ACK and MP_ACK share. -/
def QuicSubheader.ackBits (s : QuicSubheader) : Nat :=
  getVarInt64Size s.largestAcknowledged + getVarInt64Size s.ackDelay +
    getVarInt64Size s.ackBlockCount + getVarInt64Size s.firstAckBlock + s.ackBlockBits

theorem fieldBits_ack {s : QuicSubheader} (htype : s.frameType = .ACK) :
    s.fieldBits = s.ackBits := by
  simp only [fieldBits, htype, ackBits]

theorem fieldBits_mpAck {s : QuicSubheader} (htype : s.frameType = .MP_ACK) :
    s.fieldBits = 8 * varIntBytes s.pathId + s.ackBits := by
  simp only [fieldBits, htype, ackBits, getVarInt64Size_eq]
  omega

/-- An extent over `i` agrees with a decoded frame of which `bits` bits are counted. -/
def Extent.Agrees (i : List UInt8) (e : Extent) (bits : Nat) (s : QuicSubheader) : Prop :=
  (∃ bytes, bits = 8 * bytes ∧ e.Counts i bytes) ∧
    s.gaps.length = e.blocks ∧ s.additionalAckBlocks.length = e.blocks

/-- A decoding result agrees with a walk: both reject, both overrun, or the extent of the one
accounts for the bits counted by the other. -/
def Walk.Agrees (i : List UInt8) (bits : QuicSubheader → Nat) :
    Walk → Option (Bool × QuicSubheader) → Prop
  | .rejected, r => ∃ s, r = some (false, s) ∧ s.gaps = [] ∧ s.additionalAckBlocks = []
  | .overrun, r => r = none
  | .done e, r => ∃ s, r = some (true, s) ∧ e.Agrees i (bits s) s

theorem Walk.Agrees.congr_bits {i : List UInt8} {bits bits' : QuicSubheader → Nat} {w : Walk}
    {r : Bool × QuicSubheader} (hagrees : w.Agrees i bits (some r)) (heq : bits' r.2 = bits r.2) :
    w.Agrees i bits' (some r) := by
  cases w with
  | rejected => exact hagrees
  | overrun => exact hagrees
  | done e =>
      obtain ⟨s, hs, hbytes, hlengths⟩ := hagrees
      cases hs
      exact ⟨s, rfl, by rw [heq]; exact hbytes, hlengths⟩

/-- A field without blocks before the fields a result agrees on. -/
theorem Walk.Agrees.after {i : List UInt8} {bits bits' : QuicSubheader → Nat} {w : Walk}
    {first : Extent} {n : Nat} {r : Bool × QuicSubheader} (hfirst : first.Counts i n)
    (hblocks : first.blocks = 0) (hagrees : w.Agrees first.rest bits (some r))
    (heq : bits' r.2 = 8 * n + bits r.2) : (w.after first).Agrees i bits' (some r) := by
  cases w with
  | rejected => exact hagrees
  | overrun => exact hagrees
  | done e =>
      obtain ⟨s, hs, ⟨m, hm, hcounts⟩, hgaps, hack⟩ := hagrees
      cases hs
      refine ⟨s, rfl, ⟨n + m, by rw [heq, hm]; omega, hfirst.append hcounts⟩, ?_, ?_⟩
      · rw [hgaps, Extent.append, hblocks, Nat.zero_add]
      · rw [hack, Extent.append, hblocks, Nat.zero_add]

theorem readAck_agrees (s : QuicSubheader) (hgaps : s.gaps = [])
    (hblocks : s.additionalAckBlocks = []) (i : List UInt8) :
    (s.readAck i).2.frameType = s.frameType ∧ (s.readAck i).2.pathId = s.pathId ∧
      (walk [.varint 32, .varint 32, .blocks] i).Agrees i ackBits (some (s.readAck i)) := by
  have hvarint := walkVarint_counts 32
  by_cases hshort : (readVarInt64 (readVarInt64 (readVarInt64 (readVarInt64 i).2).2).2).2.length <
      2 * ((readVarInt64 (readVarInt64 (readVarInt64 i).2).2).1 % 2 ^ 32) % 2 ^ 32
  · simp only [walk, readAck, if_pos hshort]
    exact ⟨trivial, trivial, _, rfl, hgaps, hblocks⟩
  · simp only [walk, readAck, if_neg hshort]
    obtain ⟨hgapsLength, hblocksLength, hcounts⟩ := readAckBlocks_counts
      ((readVarInt64 (readVarInt64 (readVarInt64 i).2).2).1 % 2 ^ 32)
      (readVarInt64 (readVarInt64 (readVarInt64 (readVarInt64 i).2).2).2).2
    have hhead := (hvarint (readVarInt64 (readVarInt64 i).2).2).append (hvarint _)
    have hall := (hvarint i).append ((hvarint _).append
      ((hhead.append (hcounts.withBlocks ((readVarInt64 (readVarInt64 (readVarInt64 i).2).2).1 %
        2 ^ 32))).append (Extent.counts_nil _)))
    refine ⟨trivial, trivial, _, rfl, ⟨_, ?_, hall⟩, ?_, ?_⟩
    · have hfull := List.length_zip.trans (congrArg₂ min hgapsLength hblocksLength)
      rw [min_self] at hfull
      rw [ackBits, ackBlockBits, List.take_of_length_le hfull.le, ackBlockBits_eq]
      simp only [getVarInt64Size_eq, walkVarint]
      omega
    · simpa [Extent.append, walkVarint] using hgapsLength
    · simpa [Extent.append, walkVarint] using hblocksLength

/-- The decoder follows the walk of the frame's layout: it rejects and overruns with it, and what
it counts for a complete frame is what the walk accounts for. -/
theorem deserializeFields_agrees (frameType : FrameType) (i : List UInt8) :
    (walk frameType.layout i).Agrees i fieldBits (deserializeFields frameType i) := by
  have hwide := walkVarint_counts_wide
  have hbytes := walkBytes_counts
  have hnil := Extent.counts_nil
  cases frameType with
  | PADDING | PING => exact ⟨_, rfl, ⟨0, rfl, hnil i⟩, rfl, rfl⟩
  | MAX_DATA | MAX_STREAM_ID | BLOCKED | STREAM_ID_BLOCKED | STREAM000 | STREAM001 =>
      exact ⟨_, rfl, ⟨_, getVarInt64Size_eq _, (hwide i).append (hnil _)⟩, rfl, rfl⟩
  | MAX_STREAM_DATA | STREAM_BLOCKED | STREAM010 | STREAM011 | STREAM100 | STREAM101 =>
      simp only [FrameType.layout, walk, deserializeFields]
      refine ⟨_, rfl, ⟨_, ?_, (hwide i).append ((hwide _).append (hnil _))⟩, rfl, rfl⟩
      simp only [fieldBits, getVarInt64Size_eq, walkVarint]; omega
  | STREAM110 | STREAM111 =>
      simp only [FrameType.layout, walk, deserializeFields]
      refine ⟨_, rfl, ⟨_, ?_,
        (hwide i).append ((hwide _).append ((hwide _).append (hnil _)))⟩, rfl, rfl⟩
      simp only [fieldBits, getVarInt64Size_eq, walkVarint]; omega
  | PATH_ABANDON =>
      simp only [FrameType.layout, walk, deserializeFields]
      refine ⟨_, rfl, ⟨_, ?_,
        (walkVarint_counts 8 i).append ((walkVarint_counts 16 _).append (hnil _))⟩, rfl, rfl⟩
      simp only [fieldBits, getVarInt64Size_eq, walkVarint]; omega
  | RST_STREAM =>
      simp only [FrameType.layout, walk, deserializeFields]
      by_cases hshort : (readVarInt64 i).2.length < 2
      · simp only [if_pos hshort]
        exact ⟨_, rfl, rfl, rfl⟩
      · simp only [if_neg hshort]
        refine ⟨_, rfl, ⟨_, ?_, (hwide i).append ((hbytes 2 _).append
          ((hwide _).append (hnil _)))⟩, rfl, rfl⟩
        simp only [fieldBits, getVarInt64Size_eq, walkVarint, walkBytes]; omega
  | STOP_SENDING =>
      simp only [FrameType.layout, walk, deserializeFields]
      by_cases hshort : (readVarInt64 i).2.length < 2
      · simp only [if_pos hshort]
        exact ⟨_, rfl, rfl, rfl⟩
      · simp only [if_neg hshort]
        refine ⟨_, rfl, ⟨_, ?_, (hwide i).append ((hbytes 2 _).append (hnil _))⟩, rfl, rfl⟩
        simp only [fieldBits, getVarInt64Size_eq]; omega
  | NEW_CONNECTION_ID =>
      simp only [FrameType.layout, walk, deserializeFields]
      by_cases hshort : (readVarInt64 i).2.length < 8
      · simp only [if_pos hshort]
        exact ⟨_, rfl, rfl, rfl⟩
      · simp only [if_neg hshort]
        refine ⟨_, rfl, ⟨_, ?_, (hwide i).append ((hbytes 8 _).append (hnil _))⟩, rfl, rfl⟩
        simp only [fieldBits, getVarInt64Size_eq]; omega
  | PATH_CHALLENGE | PATH_RESPONSE =>
      simp only [FrameType.layout, walk, deserializeFields]
      by_cases hshort : i.length < 1
      · simp only [if_pos hshort]
        exact ⟨_, rfl, rfl, rfl⟩
      · simp only [if_neg hshort]
        exact ⟨_, rfl, ⟨_, rfl, (hbytes 1 i).append (hnil _)⟩, rfl, rfl⟩
  | CONNECTION_CLOSE | APPLICATION_CLOSE =>
      simp only [FrameType.layout, walk, deserializeFields]
      by_cases hshort : i.length < 2
      · simp only [if_pos hshort]
        exact ⟨_, rfl, rfl, rfl⟩
      · simp only [if_neg hshort]
        refine ⟨_, rfl, ⟨_, ?_, (hbytes 2 i).append
          (((hwide _).append (hbytes _ _)).append (hnil _))⟩, rfl, rfl⟩
        simp only [fieldBits, getVarInt64Size_eq, walkBytes]; omega
  | ADD_ADDRESS | REMOVE_ADDRESS =>
      simp only [FrameType.layout, walk, deserializeFields]
      by_cases hshort : i.length < 7
      · simp only [if_pos hshort]
        rfl
      · simp only [if_neg hshort]
        exact ⟨_, rfl, ⟨_, rfl, ((hbytes 7 i).append (walkPathId_counts _)).append (hnil _)⟩,
          rfl, rfl⟩
  | ACK =>
      obtain ⟨htype, -, hagrees⟩ := readAck_agrees { frameType := .ACK } rfl rfl i
      exact hagrees.congr_bits (fieldBits_ack htype)
  | MP_ACK =>
      obtain ⟨htype, hpath, hagrees⟩ := readAck_agrees
        { frameType := .MP_ACK, pathId := (readVarInt64 i).1 % 2 ^ 8 } rfl rfl (readVarInt64 i).2
      have hbits := fieldBits_mpAck htype
      rw [hpath] at hbits
      exact Walk.Agrees.after (walkVarint_counts 8 i) rfl hagrees hbits

/-! ## Bounds of one subheader -/

/-- The decoder returns a size of at most the buffer's, and pushes no more gaps and blocks than
the buffer has bytes. -/
def SubheaderBounded (b : List UInt8) : Prop :=
  ∃ size sub, deserialize b = some (size, sub) ∧ size ≤ b.length ∧
    sub.gaps.length + sub.additionalAckBlocks.length ≤ b.length

/-- The layout of the frame at the front of the buffer is one the decoder rejects, or it overruns
no address, has fewer than 2^31 additional blocks, and lacks no bytes, or no more than its
over-long varints make up for in the 32-bit count of bits. -/
def SubheaderFits : List UInt8 → Prop
  | [] => True
  | t :: i =>
      match FrameType.ofByte t with
      | none => True
      | some frameType =>
          match walk frameType.layout i with
          | .rejected => True
          | .overrun => False
          | .done e => e.blocks < 2 ^ 31 ∧ (e.missing = 0 ∨
              (i.length + 1 + e.missing - e.wasted) % 2 ^ 29 ≤ i.length + 1)

theorem getSerializedSize_of_fieldBits {s : QuicSubheader} {bytes : Nat}
    (hbits : s.fieldBits = 8 * bytes) : s.getSerializedSize = (1 + bytes) % 2 ^ 29 := by
  rw [getSerializedSize, calculateSubHeaderLength, hbits]
  omega

/-- The check before the loop over the blocks: it counts modulo 2^32. -/
theorem readAck_gaps_length {s : QuicSubheader} {i : List UInt8} (hok : (s.readAck i).1 = true) :
    2 * (s.readAck i).2.gaps.length % 2 ^ 32 ≤ i.length := by
  have hle := readVarInt64_length_le
  unfold readAck at hok ⊢
  dsimp only at hok ⊢
  split at hok
  · simp at hok
  · rename_i hlong
    rw [if_neg hlong]
    dsimp only
    rw [(readAckBlocks_counts _ _).1]
    have h₁ := hle i
    have h₂ := hle (readVarInt64 i).2
    have h₃ := hle (readVarInt64 (readVarInt64 i).2).2
    have h₄ := hle (readVarInt64 (readVarInt64 (readVarInt64 i).2).2).2
    omega

theorem deserializeFields_gaps_length {frameType : FrameType} {i : List UInt8} {s : QuicSubheader}
    (hok : deserializeFields frameType i = some (true, s)) :
    2 * s.gaps.length % 2 ^ 32 ≤ i.length := by
  have hread : ∀ (s₀ : QuicSubheader) (j : List UInt8), j.length ≤ i.length →
      some (s₀.readAck j) = some (true, s) → 2 * s.gaps.length % 2 ^ 32 ≤ i.length := by
    intro s₀ j hj heq
    have hpair : s₀.readAck j = (true, s) := Option.some.inj heq
    have hlength := readAck_gaps_length (s := s₀) (i := j) (by rw [hpair])
    rw [hpair] at hlength
    exact hlength.trans hj
  cases frameType with
  | ACK => exact hread _ i (Nat.le_refl _) hok
  | MP_ACK => exact hread _ _ (readVarInt64_length_le i) hok
  | _ =>
      have hgaps : s.gaps = [] := by
        simp only [deserializeFields] at hok
        grind
      simp [hgaps]

/-- The subheader decoder stays within its bounds exactly on the buffers that fit. -/
theorem subheaderBounded_iff (b : List UInt8) (hsize : b.length < 2 ^ 32) :
    SubheaderBounded b ↔ SubheaderFits b := by
  cases b with
  | nil => exact ⟨fun _ => trivial, fun _ => ⟨0, {}, rfl, Nat.le_refl _, Nat.le_refl _⟩⟩
  | cons t i =>
      simp only [SubheaderBounded, SubheaderFits, deserialize]
      cases htype : FrameType.ofByte t with
      | none => simp
      | some frameType =>
          have hagrees := deserializeFields_agrees frameType i
          dsimp only
          cases hwalk : walk frameType.layout i with
          | rejected =>
              rw [hwalk] at hagrees
              obtain ⟨s, hs, hgaps, hblocks⟩ := hagrees
              simp [hs, hgaps, hblocks]
          | overrun =>
              rw [hwalk] at hagrees
              have hnone : deserializeFields frameType i = none := hagrees
              simp [hnone]
          | done e =>
              rw [hwalk] at hagrees
              obtain ⟨s, hs, ⟨bytes, hbits, hcounts⟩, hgaps, hblocks⟩ := hagrees
              have hlength := deserializeFields_gaps_length hs
              have hbalance := hcounts.balance
              have hexhausted : e.missing ≠ 0 → e.rest.length = 0 := fun hne => by
                rw [hcounts.exhausted hne]; rfl
              simp only [hs, Option.map_some, if_true, Option.some.injEq, Prod.mk.injEq,
                getSerializedSize_of_fieldBits hbits, List.length_cons] at hsize ⊢
              constructor
              · rintro ⟨size, sub, ⟨rfl, rfl⟩, hle, hpushes⟩
                refine ⟨by omega, ?_⟩
                by_cases hzero : e.missing = 0
                · exact .inl hzero
                · have hrest := hexhausted hzero
                  have hbytes : i.length + 1 + e.missing - e.wasted = 1 + bytes := by omega
                  exact .inr (by rw [hbytes]; exact hle)
              · rintro ⟨hfew, hmissing⟩
                refine ⟨_, _, ⟨rfl, rfl⟩, ?_, by omega⟩
                rcases hmissing with hzero | hle
                · omega
                · by_cases hzero : e.missing = 0
                  · omega
                  · have hrest := hexhausted hzero
                    have hbytes : i.length + 1 + e.missing - e.wasted = 1 + bytes := by omega
                    rwa [hbytes] at hle

/-! ## Bounds of a payload -/

/-- A buffer: its size is a 32-bit number. -/
structure Buffer where
  bytes : List UInt8
  size_lt : bytes.length < 2 ^ 32

theorem FrameAt.length_le {data rest : List UInt8} (hat : FrameAt data rest) :
    rest.length ≤ data.length := by
  induction hat with
  | start => exact Nat.le_refl _
  | next _ _ _ ih =>
      simp only [List.length_drop]
      omega

theorem size_of_deserialize {b : List UInt8} {size : Nat} {sub : QuicSubheader}
    (hdes : deserialize b = some (size, sub)) (hsize : size ≠ 0) :
    size = sub.getSerializedSize := by
  cases b with
  | nil =>
      cases hdes
      exact absurd rfl hsize
  | cons t i =>
      simp only [deserialize] at hdes
      cases htype : FrameType.ofByte t with
      | none =>
          simp only [htype] at hdes
          cases hdes
          exact absurd rfl hsize
      | some frameType =>
          simp only [htype, Option.map_eq_some_iff] at hdes
          obtain ⟨⟨ok, s⟩, -, heq⟩ := hdes
          cases ok with
          | false =>
              cases heq
              exact absurd rfl hsize
          | true =>
              cases heq
              rfl

/-- The bytes the loop removes for its frames: the sizes of the subheaders and the data. -/
def removedBytes (frames : List RecvFrame) : Nat :=
  (frames.map fun (fragment, sub) => sub.getSerializedSize + fragment.length).sum

/-- If every subheader the loop comes to is within its bounds, the loop reads no byte past the
payload, removes no more bytes than there are, and makes at most one frame of each byte. -/
theorem disgregate_of_bounded {b : List UInt8}
    (hbounded : ∀ rest, FrameAt b rest → SubheaderBounded rest) :
    ∃ frames failed, disgregate b = some (frames, failed) ∧ removedBytes frames ≤ b.length ∧
      frames.length ≤ b.length := by
  induction hlen : b.length using Nat.strong_induction_on generalizing b with
  | _ n ih =>
      subst hlen
      by_cases hnil : b = []
      · exact ⟨[], false, by rw [hnil, disgregate_nil], Nat.zero_le _, Nat.zero_le _⟩
      · obtain ⟨size, sub, hdes, hsize, -⟩ := hbounded b .start
        rw [disgregate, if_neg hnil]
        simp only [hdes]
        by_cases hzero : size = 0
        · exact ⟨[], true, by rw [if_pos hzero], Nat.zero_le _, Nat.zero_le _⟩
        · have hdata := frameLength_le sub (b.drop size).length
          have hnext : FrameAt b ((b.drop size).drop (frameLength sub (b.drop size).length)) :=
            FrameAt.start.next hdes hzero
          simp only [List.length_drop] at hdata hnext
          obtain ⟨frames, failed, heq, hremoved, hcount⟩ := ih _
            (by simp only [List.length_drop]; omega)
            (fun rest hrest => hbounded rest (hnext.trans hrest)) rfl
          refine ⟨((b.drop size).take (frameLength sub (b.length - size)), sub) :: frames, failed,
            ?_, ?_, ?_⟩
          · rw [if_neg hzero]
            simp only [List.length_drop, heq]
          · have hsub := size_of_deserialize hdes hzero
            simp only [removedBytes, List.map_cons, List.sum_cons, List.length_take,
              List.length_drop] at hremoved ⊢
            omega
          · simp only [List.length_cons, List.length_drop] at hcount ⊢
            omega

/-- All three decoders stay within a buffer: the header, every subheader that the loop of
`DisgregateRecv` comes to (the first of them at the front of the buffer), and the loop. -/
structure DecodersBounded (b : List UInt8) : Prop where
  header : (QuicHeader.deserialize b).1 ≤ b.length
  subheaders : ∀ rest, FrameAt b rest → SubheaderBounded rest
  payload : ∃ frames failed, disgregate b = some (frames, failed) ∧
    removedBytes frames ≤ b.length ∧ frames.length ≤ b.length

/-- The decoders stay within exactly those buffers whose header fits and in which every frame the
loop comes to fits: it is rejected, or it overruns no address, announces fewer than 2^31 additional
ack blocks, and lacks no field bytes beyond what its over-long varints make up for. -/
theorem decodersBounded_iff (b : Buffer) :
    DecodersBounded b.bytes ↔
      HeaderFits b.bytes ∧ ∀ rest, FrameAt b.bytes rest → SubheaderFits rest := by
  have hfits : ∀ rest, FrameAt b.bytes rest → (SubheaderBounded rest ↔ SubheaderFits rest) :=
    fun rest hat => subheaderBounded_iff rest (Nat.lt_of_le_of_lt hat.length_le b.size_lt)
  constructor
  · intro hbounded
    exact ⟨(header_size_le_iff _).1 hbounded.header,
      fun rest hat => (hfits rest hat).1 (hbounded.subheaders rest hat)⟩
  · rintro ⟨hheader, hsubs⟩
    have hsubheaders : ∀ rest, FrameAt b.bytes rest → SubheaderBounded rest :=
      fun rest hat => (hfits rest hat).2 (hsubs rest hat)
    exact ⟨(header_size_le_iff _).2 hheader, hsubheaders, disgregate_of_bounded hsubheaders⟩

/-- A MAX_DATA frame without its field is one byte long and reported as two, and a long header of
18 bytes is reported as 28. -/
theorem truncated_not_bounded :
    ¬ DecodersBounded [0x04] ∧ ¬ DecodersBounded (0x81 :: List.replicate 17 0) := by
  constructor
  · intro hbounded
    obtain ⟨size, sub, hdes, hsize, -⟩ := hbounded.subheaders _ .start
    have htwo : (deserialize [0x04]).map Prod.fst = some 2 := by decide +kernel
    rw [hdes, Option.map_some, Option.some.injEq] at htwo
    simp only [List.length_cons, List.length_nil] at hsize
    omega
  · intro hbounded
    have hheader := hbounded.header
    revert hheader
    decide +kernel

end NtnIab.Quic
