import NtnIab.Library.Segmentation
import NtnIab.Lte.RlcUm

/-!
# What a PDU carries

A PDU of the sending side is a carrier of `Segmentation` in octets: its data field is the pieces one
after the other, and its header has their lengths and says whether the first one starts an SDU and
the last one ends one. The transmission buffer is such a carrier as well, and a transmission
opportunity cuts a PDU off it (`doNotifyTxOpportunity_sends`).

A PDU is never larger than the opportunity. An opportunity has at most 100 000 octets here, so that
the size of the header fits into its sixteen bits even if every piece is a single octet.
-/

namespace NtnIab.Lte

open LteRlcHeader Segmentation

/-! ## The octets of a carrier -/

namespace RlcUm

def lengths (pieces : List (List UInt8)) : List UInt16 :=
  pieces.map fun piece => UInt16.ofNat piece.length

def framing (first last : Bool) : UInt8 :=
  (if first then FIRST_BYTE else NO_FIRST_BYTE) ||| (if last then LAST_BYTE else NO_LAST_BYTE)

theorem framing_lt : ∀ first last, framing first last < 4 := by decide

/-- The PDU that is a carrier, with its sequence number. -/
def pdu (sn : Fin 1024) (c : Carrier (List UInt8)) : List UInt8 :=
  serialize (ofPdu (framing c.first c.last) sn (lengths c.pieces.dropLast)) ++ c.pieces.flatten

/-- A carrier that can be written: no piece is empty, all but the last one have a length of eleven
bits, and the size of the header one of sixteen. -/
structure Writable (c : Carrier (List UInt8)) : Prop where
  ne : c.pieces ≠ []
  piece_ne : ∀ piece ∈ c.pieces, piece ≠ []
  short : ∀ piece ∈ c.pieces.dropLast, piece.length < 2048
  size : 2 + (3 * (c.pieces.length - 1) + 1) / 2 < 2 ^ 16

end RlcUm

namespace RlcUmSending

open RlcUm

/-! ## The header that is built -/

section
variable {bytes : Nat} {f : Filling} {sdu : TxSdu}

def packets (l : List TxSdu) : List (List UInt8) := l.map fun sdu => sdu.packet

/-- The size of a header with this many extension bits. -/
def headerSize (bits : Nat) : UInt16 :=
  if bits = 0 then 0 else UInt16.ofNat (2 + (3 * (bits - 1) + 1) / 2)

/-- Twelve bits more are one octet or two. -/
theorem headerSize_succ (bits : Nat) :
    (if bits + 1 = 1 then 2
      else if (bits + 1) % 2 ≠ 0 then headerSize bits + 1 else headerSize bits + 2) =
      headerSize (bits + 1) := by
  rcases Nat.eq_zero_or_pos bits with rfl | hpos
  · rfl
  · have hcurrent : headerSize bits = UInt16.ofNat (2 + (3 * (bits - 1) + 1) / 2) :=
      if_neg (Nat.ne_of_gt hpos)
    have hnext : headerSize (bits + 1) = UInt16.ofNat (2 + (3 * bits + 1) / 2) :=
      if_neg (Nat.succ_ne_zero bits)
    have hfirst : bits + 1 ≠ 1 := by omega
    rw [if_neg hfirst, hcurrent, hnext]
    split
    · have hstep : 2 + (3 * bits + 1) / 2 = 2 + (3 * (bits - 1) + 1) / 2 + 1 := by omega
      rw [hstep, UInt16.ofNat_add _ 1]
      rfl
    · have hstep : 2 + (3 * bits + 1) / 2 = 2 + (3 * (bits - 1) + 1) / 2 + 2 := by omega
      rw [hstep, UInt16.ofNat_add _ 2]
      rfl

/-- The header after pieces of these lengths, each with another one after it. -/
def pushed (lens : List UInt16) : LteRlcHeader where
  headerLength := headerSize lens.length
  extensionBits := List.replicate lens.length E_LI_FIELDS_FOLLOWS
  lengthIndicators := lens

theorem pushExtensionBit_pushed (lens : List UInt16) (extensionBit : UInt8) :
    (pushed lens).pushExtensionBit extensionBit = {
      headerLength := headerSize (lens.length + 1)
      extensionBits := List.replicate lens.length E_LI_FIELDS_FOLLOWS ++ [extensionBit]
      lengthIndicators := lens } := by
  unfold pushExtensionBit pushed
  simp only [List.length_append, List.length_replicate, List.length_singleton, headerSize_succ]

theorem pushed_next (lens : List UInt16) (li : UInt16) :
    ((pushed lens).pushExtensionBit E_LI_FIELDS_FOLLOWS).pushLengthIndicator li =
      pushed (lens ++ [li]) := by
  rw [pushExtensionBit_pushed]
  unfold pushLengthIndicator pushed
  simp only [List.length_append, List.length_singleton, List.replicate_succ']

theorem pushed_last (lens : List UInt16) {framingInfo : UInt8} (hframing : framingInfo < 4)
    {sn : SequenceNumber10} (hsn : sn.modulusBase = 0) :
    (((pushed lens).pushExtensionBit DATA_FIELD_FOLLOWS).setSequenceNumber sn).setFramingInfo
      framingInfo = ofPdu framingInfo sn.value lens := by
  have hfield : framingInfo &&& 0x03 = framingInfo :=
    forall_uint8 (P := fun framingInfo => framingInfo < 4 → framingInfo &&& 0x03 = framingInfo)
      (by decide +kernel) framingInfo hframing
  have hnumber : sn = { value := sn.value } := by
    obtain ⟨value, modulusBase⟩ := sn
    rw [show modulusBase = 0 from hsn]
  rw [pushExtensionBit_pushed]
  unfold setFramingInfo setSequenceNumber ofPdu
  rw [hfield, ← hnumber]
  rfl

/-! ## The loop -/

def size (l : List TxSdu) : Nat := (packets l).flatten.length

@[simp] theorem size_append (l l' : List TxSdu) : size (l ++ l') = size l + size l' := by
  simp [size, packets]

@[simp] theorem size_singleton (sdu : TxSdu) : size [sdu] = sdu.packet.length := by
  simp [size, packets]

/-- What the loop has put together, if another piece follows. -/
structure Underway (bytes : Nat) (f : Filling) : Prop where
  header : f.rlcHeader = pushed (lengths (packets f.dataField))
  id : f.nextSegmentId = f.dataField.length + 1
  room : 2 + (3 * f.dataField.length + 1) / 2 + size f.dataField + f.nextSegmentSize = bytes
  ne : ∀ sdu ∈ f.dataField, sdu.packet ≠ []
  short : ∀ sdu ∈ f.dataField, sdu.packet.length < 2048

/-- What the loop has put together, at its end. -/
structure Filled (bytes : Nat) (f : Filling) : Prop where
  header : f.rlcHeader =
    (pushed (lengths (packets f.dataField.dropLast))).pushExtensionBit DATA_FIELD_FOLLOWS
  room : 2 + (3 * (f.dataField.length - 1) + 1) / 2 + size f.dataField ≤ bytes
  ne : ∀ sdu ∈ f.dataField, sdu.packet ≠ []
  short : ∀ sdu ∈ f.dataField.dropLast, sdu.packet.length < 2048

theorem Underway.pushLast (h : Underway bytes f) (hne : sdu.packet ≠ [])
    (hroom : sdu.packet.length ≤ f.nextSegmentSize) : Filled bytes (f.pushLast sdu) := by
  have hfield : (f.pushLast sdu).dataField = f.dataField ++ [sdu] := rfl
  refine ⟨?_, ?_, ?_, ?_⟩
  · rw [hfield, List.dropLast_concat, ← h.header]
    rfl
  · have := h.room
    simp only [hfield, size_append, size_singleton, List.length_append, List.length_singleton,
      Nat.add_sub_cancel]
    omega
  · intro other hother
    rcases List.mem_append.1 (hfield ▸ hother) with hbefore | hnew
    · exact h.ne other hbefore
    · rwa [List.mem_singleton.1 hnew]
  · rw [hfield, List.dropLast_concat]
    exact h.short

theorem Underway.pushNext (h : Underway bytes f) (hne : sdu.packet ≠ [])
    (hshort : sdu.packet.length < 2048) (hroom : 2 < f.nextSegmentSize - sdu.packet.length) :
    Underway bytes (f.pushNext sdu) ∧ 0 < (f.pushNext sdu).nextSegmentSize := by
  have hfield : (f.pushNext sdu).dataField = f.dataField ++ [sdu] := rfl
  have hsize : (f.pushNext sdu).nextSegmentSize = f.nextSegmentSize -
      ((if f.nextSegmentId % 2 ≠ 0 then 2 else 1) + sdu.packet.length) := rfl
  have hboth : ∀ P : TxSdu → Prop, (∀ other ∈ f.dataField, P other) → P sdu →
      ∀ other ∈ f.dataField ++ [sdu], P other := by
    intro P hall hsdu other hother
    rcases List.mem_append.1 hother with hbefore | hnew
    · exact hall other hbefore
    · rwa [List.mem_singleton.1 hnew]
  refine ⟨⟨?_, ?_, ?_, ?_, ?_⟩, ?_⟩
  · have hlengths : lengths (packets (f.dataField ++ [sdu])) =
        lengths (packets f.dataField) ++ [UInt16.ofNat sdu.packet.length] := by
      simp [lengths, packets]
    rw [hfield, hlengths, ← pushed_next, ← h.header]
    rfl
  · rw [hfield, List.length_append, List.length_singleton]
    exact congrArg (· + 1) h.id
  · -- Two octets for an odd piece and one for an even piece are twelve bits for each.
    have hroom' := h.room
    have hid := h.id
    rw [hfield, hsize, size_append, size_singleton, List.length_append, List.length_singleton]
    split <;> omega
  · exact hfield ▸ hboth _ h.ne hne
  · exact hfield ▸ hboth _ h.short hshort
  · rw [hsize]
    split <;> omega

theorem underway_start (hbytes : 2 < bytes) (txBufferSize : UInt32) :
    Underway bytes { nextSegmentSize := bytes - 2, txBufferSize } := by
  refine ⟨rfl, rfl, ?_, nofun, nofun⟩
  simp only [size, packets, List.length_nil, List.map_nil, List.flatten_nil]
  omega

/-! ## What is cut off the buffer -/

/-- A packet of this status starts an SDU. -/
def starts (status : SduStatus) : Bool := status = .fullSdu ∨ status = .firstSegment

/-- A packet of this status ends an SDU. -/
def ends (status : SduStatus) : Bool := status = .fullSdu ∨ status = .lastSegment

/-- Packets with their status as a carrier. -/
def carrier (l : List TxSdu) : Carrier (List UInt8) where
  pieces := packets l
  first := (l.head?.map fun sdu => starts sdu.status).getD true
  last := (l.getLast?.map fun sdu => ends sdu.status).getD true

/-- The packets of the transmission buffer: whole SDUs after what is left of one. -/
structure Queued (l : List TxSdu) : Prop where
  ne : ∀ sdu ∈ l, sdu.packet ≠ []
  status : ∀ sdu ∈ l, sdu.status = .fullSdu ∨ sdu.status = .lastSegment
  full : ∀ sdu ∈ l.tail, sdu.status = .fullSdu

/-- The queue is cut into what goes into a PDU and what is left. -/
structure Cuts (queue added left : List TxSdu) : Prop where
  ne : added ≠ []
  glue : (carrier added).glue (· ++ ·) (carrier left) = carrier queue
  follows : (carrier left).first = (carrier added).last
  queued : Queued left

variable {firstSegment : TxSdu} {txBuffer : List TxSdu}

theorem Queued.last {l : List TxSdu} (h : Queued l) : (carrier l).last = true := by
  unfold carrier
  cases hlast : l.getLast? with
  | none => rfl
  | some sdu =>
      rcases h.status sdu (List.mem_of_getLast? hlast) with hs | hs <;> simp [hs, ends]

theorem Queued.tail (h : Queued (firstSegment :: txBuffer)) : Queued txBuffer :=
  ⟨fun sdu hsdu => h.ne sdu (List.mem_cons_of_mem _ hsdu),
    fun sdu hsdu => Or.inl (h.full sdu hsdu),
    fun sdu hsdu => h.full sdu (List.mem_of_mem_tail hsdu)⟩

theorem Queued.tail_first (h : Queued (firstSegment :: txBuffer)) :
    (carrier txBuffer).first = true := by
  cases txBuffer with
  | nil => rfl
  | cons next rest => simp [carrier, h.full next List.mem_cons_self, starts]

theorem Queued.ends (h : Queued (firstSegment :: txBuffer)) : ends firstSegment.status = true := by
  rcases h.status firstSegment List.mem_cons_self with hs | hs <;> simp [hs, RlcUmSending.ends]

/-- The first packet is taken as it is. -/
theorem cuts_whole (h : Queued (firstSegment :: txBuffer)) :
    Cuts (firstSegment :: txBuffer) [firstSegment] txBuffer := by
  have hlast : (carrier [firstSegment]).last = true := h.ends
  refine ⟨List.cons_ne_nil _ _, ?_, ?_, h.tail⟩
  · refine Carrier.ext ?_ rfl (h.tail.last.trans h.last.symm)
    show gluePieces (· ++ ·) (carrier [firstSegment]).last _ _ = _
    rw [hlast]
    rfl
  · rw [hlast, h.tail_first]

/-- A part of the first packet is taken. -/
theorem cuts_part (h : Queued (firstSegment :: txBuffer)) {n : Nat}
    (hn : 0 < (firstSegment.packet.drop n).length) :
    Cuts (firstSegment :: txBuffer)
      [⟨firstSegment.packet.take n, (cutStatus firstSegment.status).1⟩]
      (⟨firstSegment.packet.drop n, (cutStatus firstSegment.status).2⟩ :: txBuffer) := by
  have hleft : (cutStatus firstSegment.status).2 = .lastSegment := by
    rcases h.status firstSegment List.mem_cons_self with hs | hs <;> rw [hs] <;> rfl
  have hqueued : Queued (⟨firstSegment.packet.drop n, (cutStatus firstSegment.status).2⟩ ::
      txBuffer) := by
    refine ⟨?_, ?_, h.full⟩
    · intro sdu hsdu
      rcases List.mem_cons.1 hsdu with rfl | hsdu
      · exact List.ne_nil_of_length_pos hn
      · exact h.tail.ne sdu hsdu
    · intro sdu hsdu
      rcases List.mem_cons.1 hsdu with rfl | hsdu
      · exact Or.inr hleft
      · exact h.tail.status sdu hsdu
  have hends : ends (cutStatus firstSegment.status).1 = false := by
    rcases h.status firstSegment List.mem_cons_self with hs | hs <;> rw [hs] <;> rfl
  have hstarts : starts (cutStatus firstSegment.status).1 = starts firstSegment.status := by
    rcases h.status firstSegment List.mem_cons_self with hs | hs <;> rw [hs] <;> rfl
  refine ⟨List.cons_ne_nil _ _, ?_, ?_, hqueued⟩
  · unfold Carrier.glue
    rw [hqueued.last, ← h.last]
    simp [carrier, packets, hends, hstarts, gluePieces]
  · simp [carrier, hleft, hends, starts]

/-- The first packet goes with what is cut off after it. -/
theorem Cuts.cons {queue added left : List TxSdu} (h : Cuts queue added left)
    (hqueued : Queued (firstSegment :: queue)) :
    Cuts (firstSegment :: queue) (firstSegment :: added) left := by
  obtain ⟨sdu, more, rfl⟩ := List.exists_cons_of_ne_nil h.ne
  have hlast : (carrier (firstSegment :: sdu :: more)).last = (carrier (sdu :: more)).last := rfl
  have hpieces : gluePieces (· ++ ·) (carrier (sdu :: more)).last (carrier (sdu :: more)).pieces
      (carrier left).pieces = packets queue := congrArg Carrier.pieces h.glue
  refine ⟨List.cons_ne_nil _ _, ?_, hlast ▸ h.follows, h.queued⟩
  refine Carrier.ext ?_ rfl (h.queued.last.trans hqueued.last.symm)
  show gluePieces (· ++ ·) (carrier (firstSegment :: sdu :: more)).last _ _ =
    firstSegment.packet :: packets queue
  rw [hlast, ← hpieces]
  cases (carrier (sdu :: more)).last <;> rfl

/-- The loop ends with the first packet, of which all or a part is taken. -/
structure Ends (bytes : Nat) (f : Filling) (queue : List TxSdu) (r : Filling × List TxSdu) :
    Prop where
  added : ∃ added, r.1.dataField = f.dataField ++ added ∧ Cuts queue added r.2
  filled : Filled bytes r.1
  count : r.1.txBufferSize = UInt32.ofNat (size r.2)

theorem ends_whole (hf : Underway bytes f) (hqueued : Queued (firstSegment :: txBuffer))
    (hcount : f.txBufferSize = UInt32.ofNat (size txBuffer))
    (hroom : firstSegment.packet.length ≤ f.nextSegmentSize) :
    Ends bytes f (firstSegment :: txBuffer) (f.pushLast firstSegment, txBuffer) :=
  ⟨⟨[firstSegment], rfl, cuts_whole hqueued⟩,
    hf.pushLast (hqueued.ne firstSegment List.mem_cons_self) hroom, hcount⟩

theorem ends_part (hf : Underway bytes f) (hqueued : Queued (firstSegment :: txBuffer))
    (hcount : f.txBufferSize = UInt32.ofNat (size txBuffer)) (hnext : 0 < f.nextSegmentSize)
    (hlong : f.nextSegmentSize < firstSegment.packet.length) :
    let remaining : TxSdu :=
      ⟨firstSegment.packet.drop f.nextSegmentSize, (cutStatus firstSegment.status).2⟩
    Ends bytes f (firstSegment :: txBuffer)
      ((f.giveBack remaining).pushLast
        ⟨firstSegment.packet.take f.nextSegmentSize, (cutStatus firstSegment.status).1⟩,
        remaining :: txBuffer) := by
  intro remaining
  have hremaining : 0 < remaining.packet.length := by
    show 0 < (firstSegment.packet.drop f.nextSegmentSize).length
    rw [List.length_drop]
    omega
  have htaken : (firstSegment.packet.take f.nextSegmentSize).length = f.nextSegmentSize := by
    rw [List.length_take, Nat.min_eq_left hlong.le]
  have hback : Underway bytes (f.giveBack remaining) :=
    ⟨hf.header, hf.id, hf.room, hf.ne, hf.short⟩
  refine ⟨⟨_, rfl, cuts_part hqueued hremaining⟩, ?_, ?_⟩
  · refine hback.pushLast (List.ne_nil_of_length_pos ?_) htaken.le
    exact hnext.trans_eq htaken.symm
  · have hsize : size (remaining :: txBuffer) = size txBuffer + remaining.packet.length := by
      simp [size, packets, Nat.add_comm]
    show f.txBufferSize + UInt32.ofNat remaining.packet.length = _
    rw [hcount, hsize, UInt32.ofNat_add]

/-- The first packet is the last one that goes into the PDU. -/
theorem fill_stops (hf : Underway bytes f) (hnext : 0 < f.nextSegmentSize)
    (hqueued : Queued (firstSegment :: txBuffer))
    (hcount : f.txBufferSize = UInt32.ofNat (size txBuffer))
    (hstop : f.nextSegmentSize < firstSegment.packet.length ∨ 2047 < firstSegment.packet.length ∨
      f.nextSegmentSize - firstSegment.packet.length ≤ 2 ∨ txBuffer = []) :
    Ends bytes f (firstSegment :: txBuffer) (fill f firstSegment txBuffer) := by
  have hpos : 0 < firstSegment.packet.length :=
    List.length_pos_of_ne_nil (hqueued.ne firstSegment List.mem_cons_self)
  unfold fill
  dsimp only
  rw [if_pos ⟨hpos, hnext⟩]
  by_cases hlong : f.nextSegmentSize < firstSegment.packet.length
  · have hmin := Nat.min_eq_right hlong.le
    have hremaining : 0 < (firstSegment.packet.drop f.nextSegmentSize).length := by
      rw [List.length_drop]
      omega
    rw [if_pos (Or.inl hlong), hmin, if_pos hremaining]
    exact ends_part hf hqueued hcount hnext hlong
  have hroom := Nat.le_of_not_lt hlong
  have hwhole := ends_whole hf hqueued hcount hroom
  split
  · -- Longer than a length in the header, but all of it is taken.
    have hstatus : wholeStatus (cutStatus firstSegment.status).1 = firstSegment.status := by
      rcases hqueued.status firstSegment List.mem_cons_self with hs | hs <;> rw [hs] <;> rfl
    rw [Nat.min_eq_left hroom, List.drop_length, List.take_length, List.length_nil,
      if_neg (Nat.lt_irrefl 0), hstatus]
    exact hwhole
  · rename_i hshort
    split
    · exact hwhole
    · rename_i hmore
      split
      · exact hwhole
      · rcases hstop with h | h | h | h
        · exact absurd (Or.inl h) hshort
        · exact absurd (Or.inr h) hshort
        · exact absurd h hmore
        · cases h

theorem fill_ends (hf : Underway bytes f) (hnext : 0 < f.nextSegmentSize)
    (hqueued : Queued (firstSegment :: txBuffer))
    (hcount : f.txBufferSize = UInt32.ofNat (size txBuffer)) :
    Ends bytes f (firstSegment :: txBuffer) (fill f firstSegment txBuffer) := by
  induction txBuffer generalizing f firstSegment with
  | nil => exact fill_stops hf hnext hqueued hcount (by simp)
  | cons next rest ih =>
      by_cases hstop : f.nextSegmentSize < firstSegment.packet.length ∨
          2047 < firstSegment.packet.length ∨
          f.nextSegmentSize - firstSegment.packet.length ≤ 2
      · exact fill_stops hf hnext hqueued hcount (by tauto)
      have hlong : ¬(firstSegment.packet.length > f.nextSegmentSize ∨
          firstSegment.packet.length > 2047) := by tauto
      have hmore : ¬f.nextSegmentSize - firstSegment.packet.length ≤ 2 := by tauto
      have hne := hqueued.ne firstSegment List.mem_cons_self
      obtain ⟨hunderway, hleft⟩ := hf.pushNext hne (by omega) (by omega)
      have hgoes : fill f firstSegment (next :: rest) =
          fill ((f.pushNext firstSegment).take next) next rest := by
        rw [fill.eq_def]
        dsimp only
        rw [if_pos ⟨List.length_pos_of_ne_nil hne, hnext⟩, if_neg hlong, if_neg hmore]
      have hsize : size (next :: rest) = size rest + next.packet.length := by
        simp [size, packets, Nat.add_comm]
      have hcount' : ((f.pushNext firstSegment).take next).txBufferSize =
          UInt32.ofNat (size rest) := by
        show f.txBufferSize - UInt32.ofNat next.packet.length = _
        rw [hcount, hsize, UInt32.ofNat_add, UInt32.add_sub_cancel]
      have hrest := ih (f := (f.pushNext firstSegment).take next) ⟨hunderway.header, hunderway.id,
        hunderway.room, hunderway.ne, hunderway.short⟩ hleft hqueued.tail hcount'
      rw [hgoes]
      obtain ⟨⟨added, hfield, hcuts⟩, hfilled, hcounted⟩ := hrest
      refine ⟨⟨firstSegment :: added, ?_, hcuts.cons hqueued⟩, hfilled, hcounted⟩
      rw [hfield]
      exact List.append_assoc ..

end

/-! ## The sending side -/

/-- The buffer is as it should be, and its size is counted in 32 bits. -/
structure Sound (s : RlcUmSending) : Prop where
  queued : Queued s.txBuffer
  count : s.txBufferSize = UInt32.ofNat (size s.txBuffer)
  base : s.sequenceNumber.modulusBase = 0

/-- A PDU was cut off the buffer. -/
structure Sends (bytes : Nat) (s : RlcUmSending) (c : Carrier (List UInt8)) (s' : RlcUmSending) :
    Prop where
  sound : Sound s'
  writable : Writable c
  fits : (pdu s.sequenceNumber.value c).length ≤ bytes
  glue : c.glue (· ++ ·) (carrier s'.txBuffer) = carrier s.txBuffer
  follows : (carrier s'.txBuffer).first = c.last
  sequenceNumber : s'.sequenceNumber = s.sequenceNumber.increment
  maxTxBufferSize : s'.maxTxBufferSize = s.maxTxBufferSize

section
variable {s : RlcUmSending} {bytes : Nat} {p : List UInt8}

@[simp] theorem txBuffer_doReportBufferStatus : s.doReportBufferStatus.txBuffer = s.txBuffer := by
  unfold doReportBufferStatus
  split <;> rfl

@[simp] theorem txBufferSize_doReportBufferStatus :
    s.doReportBufferStatus.txBufferSize = s.txBufferSize := by
  unfold doReportBufferStatus
  split <;> rfl

@[simp] theorem sequenceNumber_doReportBufferStatus :
    s.doReportBufferStatus.sequenceNumber = s.sequenceNumber := by
  unfold doReportBufferStatus
  split <;> rfl

@[simp] theorem maxTxBufferSize_doReportBufferStatus :
    s.doReportBufferStatus.maxTxBufferSize = s.maxTxBufferSize := by
  unfold doReportBufferStatus
  split <;> rfl

@[simp] theorem txBuffer_expireRbsTimer : s.expireRbsTimer.txBuffer = s.txBuffer := by
  unfold expireRbsTimer
  split
  · rfl
  · exact txBuffer_doReportBufferStatus

@[simp] theorem sequenceNumber_expireRbsTimer :
    s.expireRbsTimer.sequenceNumber = s.sequenceNumber := by
  unfold expireRbsTimer
  split
  · rfl
  · exact sequenceNumber_doReportBufferStatus

@[simp] theorem maxTxBufferSize_expireRbsTimer :
    s.expireRbsTimer.maxTxBufferSize = s.maxTxBufferSize := by
  unfold expireRbsTimer
  split
  · rfl
  · exact maxTxBufferSize_doReportBufferStatus

theorem Sound.doReportBufferStatus (h : Sound s) : Sound s.doReportBufferStatus :=
  ⟨by simpa using h.queued, by simpa using h.count, by simpa using h.base⟩

theorem Sound.expireRbsTimer (h : Sound s) : Sound s.expireRbsTimer := by
  unfold RlcUmSending.expireRbsTimer
  split
  · exact h
  · exact h.doReportBufferStatus

/-- There is room for the SDU, by the sizes in 32 bits. -/
def Accepts (s : RlcUmSending) (p : List UInt8) : Prop :=
  s.txBufferSize + UInt32.ofNat p.length ≤ s.maxTxBufferSize

instance (s : RlcUmSending) (p : List UInt8) : Decidable (s.Accepts p) :=
  inferInstanceAs (Decidable (_ ≤ _))

theorem doTransmitPdcpPdu_of_accepts (haccepts : s.Accepts p) :
    (s.doTransmitPdcpPdu p).txBuffer = s.txBuffer ++ [⟨p, .fullSdu⟩] ∧
    (s.doTransmitPdcpPdu p).txBufferSize = s.txBufferSize + UInt32.ofNat p.length ∧
    (s.doTransmitPdcpPdu p).sequenceNumber = s.sequenceNumber ∧
    (s.doTransmitPdcpPdu p).maxTxBufferSize = s.maxTxBufferSize := by
  unfold doTransmitPdcpPdu
  rw [if_pos (show s.txBufferSize + UInt32.ofNat p.length ≤ s.maxTxBufferSize from haccepts)]
  simp

theorem doTransmitPdcpPdu_of_not_accepts (hfull : ¬ s.Accepts p) :
    (s.doTransmitPdcpPdu p).txBuffer = s.txBuffer ∧
    (s.doTransmitPdcpPdu p).txBufferSize = s.txBufferSize ∧
    (s.doTransmitPdcpPdu p).sequenceNumber = s.sequenceNumber ∧
    (s.doTransmitPdcpPdu p).maxTxBufferSize = s.maxTxBufferSize := by
  unfold doTransmitPdcpPdu
  rw [if_neg (show ¬ s.txBufferSize + UInt32.ofNat p.length ≤ s.maxTxBufferSize from hfull)]
  simp

theorem Queued.concat {l : List TxSdu} (h : Queued l) (hp : p ≠ []) :
    Queued (l ++ [⟨p, .fullSdu⟩]) := by
  refine ⟨?_, ?_, ?_⟩
  · intro sdu hsdu
    rcases List.mem_append.1 hsdu with hold | hnew
    · exact h.ne sdu hold
    · rw [List.mem_singleton.1 hnew]
      exact hp
  · intro sdu hsdu
    rcases List.mem_append.1 hsdu with hold | hnew
    · exact h.status sdu hold
    · exact Or.inl (by rw [List.mem_singleton.1 hnew])
  · intro sdu hsdu
    cases l with
    | nil => cases hsdu
    | cons first rest =>
        rcases List.mem_append.1 hsdu with hold | hnew
        · exact h.full sdu hold
        · rw [List.mem_singleton.1 hnew]

theorem Sound.doTransmitPdcpPdu (h : Sound s) (hp : p ≠ []) : Sound (s.doTransmitPdcpPdu p) := by
  by_cases haccepts : s.Accepts p
  · obtain ⟨hbuffer, hsize, hsn, -⟩ := doTransmitPdcpPdu_of_accepts haccepts
    refine ⟨hbuffer ▸ h.queued.concat hp, ?_, hsn ▸ h.base⟩
    rw [hsize, hbuffer, h.count, size_append, size_singleton, UInt32.ofNat_add]
  · obtain ⟨hbuffer, hsize, hsn, -⟩ := doTransmitPdcpPdu_of_not_accepts haccepts
    exact ⟨hbuffer ▸ h.queued, by rw [hsize, hbuffer, h.count], hsn ▸ h.base⟩

/-- A PDU takes at least one octet out of the buffer. -/
theorem Sends.size_lt {c : Carrier (List UInt8)} {s' : RlcUmSending} (h : Sends bytes s c s') :
    size s'.txBuffer < size s.txBuffer := by
  have hpieces : gluePieces (· ++ ·) c.last c.pieces (packets s'.txBuffer) =
      packets s.txBuffer := congrArg Carrier.pieces h.glue
  have hflatten := flatten_gluePieces c.last c.pieces (packets s'.txBuffer)
  rw [hpieces] at hflatten
  obtain ⟨piece, rest, hcons⟩ := List.exists_cons_of_ne_nil h.writable.ne
  have hpos := List.length_pos_of_ne_nil
    (h.writable.piece_ne piece (by rw [hcons]; exact List.mem_cons_self))
  unfold size
  rw [hflatten, hcons, List.flatten_cons, List.length_append, List.length_append]
  omega

theorem framingInfo_eq {added : List TxSdu} {first last : TxSdu} (hfirst : added.head? = some first)
    (hlast : added.getLast? = some last) :
    framingInfo first.status last.status =
      framing (carrier added).first (carrier added).last := by
  simp [framingInfo, framing, carrier, hfirst, hlast, starts, ends]

/-- What the loop has put together can be written, and there is room for it. -/
theorem Filled.writable {f : Filling} (h : Filled bytes f) (hne : f.dataField ≠ [])
    (hmax : bytes ≤ 100000) :
    Writable (carrier f.dataField) ∧
      ∀ sn, (pdu sn (carrier f.dataField)).length ≤ bytes := by
  have hpos := List.length_pos_of_ne_nil hne
  have hroom := h.room
  have hmany : f.dataField.length ≤ size f.dataField := by
    have hall := h.ne
    unfold size packets
    generalize f.dataField = l at hall
    induction l with
    | nil => exact Nat.zero_le _
    | cons sdu rest ih =>
        have hone := List.length_pos_of_ne_nil (hall sdu List.mem_cons_self)
        have hrest := ih fun other hother => hall other (List.mem_cons_of_mem _ hother)
        simp only [List.map_cons, List.flatten_cons, List.length_append, List.length_cons]
        omega
  have hpieces : (carrier f.dataField).pieces.length = f.dataField.length := by
    simp [carrier, packets]
  refine ⟨⟨?_, ?_, ?_, ?_⟩, fun sn => ?_⟩
  · exact List.ne_nil_of_length_pos (hpieces ▸ hpos)
  · intro piece hpiece
    obtain ⟨sdu, hsdu, rfl⟩ := List.mem_map.1 hpiece
    exact h.ne sdu hsdu
  · intro piece hpiece
    rw [carrier, packets, ← List.map_dropLast] at hpiece
    obtain ⟨sdu, hsdu, rfl⟩ := List.mem_map.1 hpiece
    exact h.short sdu hsdu
  · rw [hpieces]
    omega
  · rw [pdu, List.length_append, length_serialize_ofPdu, lengths, List.length_map,
      List.length_dropLast, hpieces]
    exact hroom

/-- The header and the data field of what the loop has put together. -/
theorem Filled.addHeader {f : Filling} (h : Filled bytes f) (hne : f.dataField ≠ [])
    (hmax : bytes ≤ 100000) {sn : SequenceNumber10} (hsn : sn.modulusBase = 0) :
    Packet.addHeader 0 ((f.rlcHeader.setSequenceNumber sn).setFramingInfo
        (framing (carrier f.dataField).first (carrier f.dataField).last))
        (f.dataField.flatMap fun sdu => sdu.packet) =
      some (pdu sn.value (carrier f.dataField)) := by
  have hlengths : lengths (packets f.dataField.dropLast) =
      lengths (carrier f.dataField).pieces.dropLast := by
    simp only [carrier, packets, List.map_dropLast]
  have hdata : (f.dataField.flatMap fun sdu => sdu.packet) = (carrier f.dataField).pieces.flatten :=
    List.flatMap_def
  rw [h.header, pushed_last _ (framing_lt _ _) hsn, hlengths, hdata, Packet.addHeader_of_size]
  · rfl
  · have hsize := (h.writable hne hmax).1.size
    refine (UInt16.toNat_ofNat_of_lt ?_).trans (length_serialize_ofPdu _ _ _).symm
    rwa [lengths, List.length_map, List.length_dropLast]

/-- An opportunity of a size that is not too small cuts a PDU off the buffer. -/
theorem doNotifyTxOpportunity_sends (h : Sound s) (hne : s.txBuffer ≠ []) (hbytes : 2 < bytes)
    (hmax : bytes ≤ 100000) :
    ∃ c s', s.doNotifyTxOpportunity bytes = some (s', some (pdu s.sequenceNumber.value c)) ∧
      Sends bytes s c s' := by
  obtain ⟨firstSegment, rest, hbuffer⟩ := List.exists_cons_of_ne_nil hne
  have hqueued : Queued (firstSegment :: rest) := hbuffer ▸ h.queued
  have hsize : size (firstSegment :: rest) = size rest + firstSegment.packet.length := by
    simp [size, packets, Nat.add_comm]
  obtain ⟨f, hf⟩ : ∃ f : Filling, f = Filling.take firstSegment
      { nextSegmentSize := bytes - 2, txBufferSize := s.txBufferSize } := ⟨_, rfl⟩
  have hstart := underway_start hbytes s.txBufferSize
  have hunderway : Underway bytes f := by
    rw [hf]
    exact ⟨hstart.header, hstart.id, hstart.room, hstart.ne, hstart.short⟩
  have hnext : 0 < f.nextSegmentSize := by
    rw [hf]
    show 0 < bytes - 2
    omega
  have hcount : f.txBufferSize = UInt32.ofNat (size rest) := by
    rw [hf]
    show s.txBufferSize - UInt32.ofNat firstSegment.packet.length = _
    rw [h.count, hbuffer, hsize, UInt32.ofNat_add, UInt32.add_sub_cancel]
  have hends := fill_ends hunderway hnext hqueued hcount
  have hfield : f.dataField = [] := by rw [hf]; rfl
  generalize hfill : fill f firstSegment rest = r at hends
  obtain ⟨filled, left⟩ := r
  obtain ⟨⟨added, hadded, hcuts⟩, hfilled, hcounted⟩ := hends
  rw [hfield, List.nil_append] at hadded
  dsimp only at hadded hfilled hcounted hcuts
  have hadded_ne : filled.dataField ≠ [] := hadded ▸ hcuts.ne
  have hfirst := List.head?_eq_some_head hadded_ne
  have hlast := List.getLast?_eq_some_getLast hadded_ne
  have hheader := hfilled.addHeader hadded_ne hmax h.base
  rw [← framingInfo_eq hfirst hlast] at hheader
  obtain ⟨hwritable, hfits⟩ := hfilled.writable hadded_ne hmax
  let s' : RlcUmSending := { s with
    txBuffer := left
    txBufferSize := filled.txBufferSize
    sequenceNumber := s.sequenceNumber.increment
    bsrReported := false }
  have hsound : Sound s' := ⟨hcuts.queued, hcounted, h.base⟩
  refine ⟨carrier filled.dataField,
    if s.sendBsrWhenPacketTx then s'.doReportBufferStatus else s', ?_, ?_⟩
  · simp only [doNotifyTxOpportunity, if_neg (Nat.not_le_of_lt hbytes), hbuffer, ← hf, hfill,
      hfirst, hlast, Option.bind_eq_bind, Option.bind_some, hheader]
    rfl
  · rw [hadded] at hwritable hfits ⊢
    have hsends : Sends bytes s (carrier added) s' :=
      ⟨hsound, hwritable, hfits _, hbuffer ▸ hcuts.glue, hcuts.follows, rfl, rfl⟩
    split
    · exact ⟨hsound.doReportBufferStatus, hwritable, hfits _, by simpa using hsends.glue,
        by simpa using hsends.follows, by simp [s'], by simp [s']⟩
    · exact hsends

end

end RlcUmSending

end NtnIab.Lte
