import Mathlib.Algebra.BigOperators.Group.List.Basic
import NtnIab.Quic.LenFrame
import NtnIab.Quic.SocketTxScheduler

/-!
# Segments and the parser of the receiver

The scheduler fills a packet with the frames at the front of its queue, and cuts the one that does
not fit. The receiver finds these frames in the packet. The offset of a frame has 62 bits, but the
offsets of the two parts are computed in 32 bits, so that a cut at or above `2 ^ 32` moves the rest
of the frame, and the frame itself, to the start of the stream.

## Strategy

`fitting` are the frames that fit whole, which is where a call cuts the queue. What it sends is
then `sentPart`, and what it puts back is `leftPart` (`segmentLoop_outcome`). The bytes of a frame
are those of its two parts if the cut is below `2 ^ 32` (`placed_parts`). Otherwise one of the
parts has a byte below the offset of the frame (`lt_of_placed_parts`).
-/

namespace NtnIab.Quic

open QuicSubheader QuicSocketTxScheduler
open scoped List

/-! ## The parts of a frame -/

namespace LenFrame

/-- The first `n` bytes of a frame, as they are sent. -/
def front (fr : LenFrame) (n : Nat) : LenFrame where
  streamId := fr.streamId
  offset := fr.offset % 2 ^ 32
  payload := fr.payload.take n
  offBit := fr.offset % 2 ^ 32 ≠ 0
  fin := false
  streamId_lt := fr.streamId_lt
  offset_lt := (Nat.mod_le _ _).trans_lt fr.offset_lt
  length_lt := (List.length_take_le' n fr.payload).trans_lt fr.length_lt
  offset_eq := by simp

/-- A frame without its first `n` bytes, as it goes back to the queue. -/
def back (fr : LenFrame) (n : Nat) : LenFrame where
  streamId := fr.streamId
  offset := wrapAdd (fr.offset % 2 ^ 32) n
  payload := fr.payload.drop n
  offBit := true
  fin := fr.fin
  streamId_lt := fr.streamId_lt
  offset_lt := (Nat.mod_lt _ (by decide)).trans (by decide)
  length_lt := by
    have := fr.length_lt
    rw [List.length_drop]
    omega
  offset_eq := by simp

theorem peekHeader_encode (fr : LenFrame) (rest : List UInt8) :
    peekHeader (fr.encode ++ rest) = (fr.header.serialize.length, fr.header) := by
  unfold peekHeader encode
  rw [List.append_assoc, deserialize_header]
  rfl

/-- The scheduler splits the bytes of a frame into those of its parts. -/
theorem splitPacket_encode (fr : LenFrame) {n : Nat} (hlt : n < fr.payload.length) :
    splitPacket fr.encode n = ((fr.front n).encode, (fr.back n).offset, (fr.back n).encode) := by
  have hlength := fr.length_lt
  have hpeek := fr.peekHeader_encode []
  rw [List.append_nil] at hpeek
  have hdata : fr.encode.drop fr.header.serialize.length = fr.payload := List.drop_left
  have hold : fr.payload.length % 2 ^ 32 = fr.payload.length := Nat.mod_eq_of_lt hlength
  have hback : wrapSub fr.payload.length n = fr.payload.length - n :=
    wrapSub_of_le hlt.le hlength
  have hnonzero : fr.payload.length ≠ 0 := by omega
  unfold splitPacket
  rw [hpeek]
  dsimp only
  rw [hdata, header_offset, header_length, header_streamId, header_isStreamFin, hold, hback]
  unfold encode header
  simp [front, back, hnonzero, min_eq_left hlt.le]

/-- The header that is sent is not longer than the one that was queued. -/
theorem header_front_le (fr : LenFrame) (n : Nat) :
    (fr.front n).header.getSerializedSize ≤ fr.header.getSerializedSize := by
  have hlength : varIntBytes (fr.front n).payload.length ≤ varIntBytes fr.payload.length :=
    varIntBytes_mono (List.length_take_le' n fr.payload) (fr.length_lt.trans (by decide))
  have hoffset : varIntBytes (fr.front n).offset ≤ varIntBytes fr.offset :=
    varIntBytes_mono (Nat.mod_le _ _) fr.offset_lt
  have hbit : (fr.front n).offBit = true → fr.offBit = true := by
    cases hbit : fr.offBit with
    | true => exact fun _ => rfl
    | false => simp [front, fr.offset_eq hbit]
  rw [(fr.front n).header_getSerializedSize.1, fr.header_getSerializedSize.1,
    length_serialize_header, length_serialize_header]
  have hid : (fr.front n).streamId = fr.streamId := rfl
  rw [hid]
  split_ifs with hfirst hsecond <;> first | omega | exact absurd (hbit hfirst) hsecond

end LenFrame

/-! ## The queue of frames -/

/-- A frame of the queue, with its priority. -/
structure QueuedFrame where
  priority : Int
  frame : LenFrame

namespace QueuedFrame

/-- The order by priority, stream and offset. -/
def NotAfter (a b : QueuedFrame) : Prop :=
  a.priority < b.priority ∨ a.priority = b.priority ∧
    (a.frame.streamId < b.frame.streamId ∨ a.frame.streamId = b.frame.streamId ∧
      a.frame.offset ≤ b.frame.offset)

/-- The number of bytes of the frame. -/
def size (q : QueuedFrame) : Nat := q.frame.encode.length

def front (q : QueuedFrame) (n : Nat) : QueuedFrame := { q with frame := q.frame.front n }

def back (q : QueuedFrame) (n : Nat) : QueuedFrame := { q with frame := q.frame.back n }

/-- The item of the queue is the frame, under the frame's own stream and offset. -/
structure Holds (item : QuicSocketTxScheduleItem) (q : QueuedFrame) : Prop where
  packet : item.item.packet = q.frame.encode
  streamId : item.streamId = q.frame.streamId
  offset : item.offset = q.frame.offset
  priority : item.priority = q.priority

theorem NotAfter.trans {a b c : QueuedFrame} (hab : NotAfter a b) (hbc : NotAfter b c) :
    NotAfter a c := by
  unfold NotAfter at *
  omega

/-- The comparison of items is that of their frames. -/
theorem Holds.before_iff {item other : QuicSocketTxScheduleItem} {q q' : QueuedFrame}
    (hitem : Holds item q) (hother : Holds other q') :
    item.Before other ↔ ¬ NotAfter q' q := by
  unfold QuicSocketTxScheduleItem.Before NotAfter
  rw [hitem.streamId, hitem.offset, hitem.priority, hother.streamId, hother.offset,
    hother.priority]
  split_ifs <;> omega

/-- What is left of a frame that is cut goes back under its new offset. -/
theorem Holds.back {item : QuicSocketTxScheduleItem} {q : QueuedFrame} (hq : Holds item q)
    (n : Nat) :
    Holds { item with
        offset := (q.frame.back n).offset
        item := { item.item with packet := (q.frame.back n).encode, ackTime := 0 } }
      (q.back n) where
  packet := rfl
  streamId := hq.streamId
  offset := rfl
  priority := hq.priority

/-- An item that is added to the queue is put in its place. -/
theorem holds_orderedInsert {item : QuicSocketTxScheduleItem} {q : QueuedFrame}
    (hitem : Holds item q) {items : List QuicSocketTxScheduleItem} {queued : List QueuedFrame}
    (hitems : List.Forall₂ Holds items queued) (hordered : queued.Pairwise NotAfter) :
    ∃ left, List.Forall₂ Holds (items.orderedInsert QuicSocketTxScheduleItem.Before item) left ∧
      left.Pairwise NotAfter ∧ left.Perm (q :: queued) := by
  induction hitems with
  | nil => exact ⟨[q], .cons hitem .nil, List.pairwise_singleton _ _, .refl _⟩
  | @cons other q' items queued hother hrest ih =>
      have hbefore := hitem.before_iff hother
      obtain ⟨hfirst, htail⟩ := List.pairwise_cons.1 hordered
      rw [List.orderedInsert_cons]
      by_cases hq : NotAfter q' q
      · -- the item goes behind the first one
        obtain ⟨left, hleft, hsorted, hperm⟩ := ih htail
        rw [if_neg (fun h => hbefore.1 h hq)]
        refine ⟨q' :: left, .cons hother hleft, List.pairwise_cons.2 ⟨?_, hsorted⟩,
          (hperm.cons q').trans (.swap q q' queued)⟩
        intro b hb
        rcases List.mem_cons.1 (hperm.mem_iff.1 hb) with rfl | hb
        · exact hq
        · exact hfirst b hb
      · have hlt : NotAfter q q' := by
          unfold NotAfter at hq ⊢
          omega
        rw [if_pos (hbefore.2 hq)]
        refine ⟨q :: q' :: queued, .cons hitem (.cons hother hrest),
          List.pairwise_cons.2 ⟨?_, hordered⟩, .refl _⟩
        intro b hb
        rcases List.mem_cons.1 hb with rfl | hb
        · exact hlt
        · exact hlt.trans (hfirst b hb)

end QueuedFrame

open QueuedFrame

/-- The bytes of the frames. -/
def totalSize (queued : List QueuedFrame) : Nat := (queued.map size).sum

@[simp] theorem totalSize_nil : totalSize [] = 0 := rfl

@[simp] theorem totalSize_cons (q : QueuedFrame) (rest : List QueuedFrame) :
    totalSize (q :: rest) = q.size + totalSize rest := by
  simp [totalSize]

/-- A scheduler whose queue is made of frames. The queue is in order, and its counter, which has 32
bits, holds the number of its bytes. -/
structure FrameScheduler where
  scheduler : QuicSocketTxScheduler
  queued : List QueuedFrame
  holds : List.Forall₂ Holds scheduler.appList queued
  ordered : queued.Pairwise NotAfter
  appSize_eq : scheduler.appSize = totalSize queued
  appSize_lt : scheduler.appSize < 2 ^ 32

/-- A frame that is added to a scheduler of frames, as long as its counter holds the bytes. -/
theorem FrameScheduler.exists_add (s : FrameScheduler) {item : QuicSocketTxItem} {fr : LenFrame}
    (hpacket : item.packet = fr.encode) (retx : Bool) (now : Int)
    (hroom : s.scheduler.appSize + fr.encode.length < 2 ^ 32) :
    ∃ s' : FrameScheduler, s'.scheduler = s.scheduler.add item retx now ∧
      s'.queued.Perm ({ priority := if retx then -1 else now, frame := fr } :: s.queued) := by
  have hheader : (peekHeader item.packet).2 = fr.header := by
    rw [hpacket, ← List.append_nil fr.encode, fr.peekHeader_encode]
  have hitem : Holds
      { streamId := (peekHeader item.packet).2.streamId
        offset := (peekHeader item.packet).2.offset
        priority := if retx then -1 else now
        item }
      { priority := if retx then -1 else now, frame := fr } :=
    ⟨hpacket, by rw [hheader, fr.header_streamId], by rw [hheader, fr.header_offset], rfl⟩
  obtain ⟨left, hleft, hsorted, hperm⟩ := holds_orderedInsert hitem s.holds s.ordered
  have hsize : (s.scheduler.add item retx now).appSize = s.scheduler.appSize + fr.encode.length := by
    rw [← hpacket]
    exact Nat.mod_eq_of_lt (hpacket ▸ hroom)
  have htotal : totalSize left = fr.encode.length + totalSize s.queued :=
    (hperm.map size).sum_eq
  refine ⟨⟨s.scheduler.add item retx now, left, hleft, hsorted, ?_, ?_⟩, rfl, hperm⟩
  · rw [hsize, htotal, s.appSize_eq, Nat.add_comm]
  · rw [hsize]
    exact hroom

/-! ## What a call takes -/

/-- The frames at the front of the queue that fit whole, and the others. -/
def fitting (numBytes : Nat) : List QueuedFrame → List QueuedFrame × List QueuedFrame
  | [] => ([], [])
  | q :: rest =>
      if q.size ≤ numBytes then
        let (whole, others) := fitting (numBytes - q.size) rest
        (q :: whole, others)
      else ([], q :: rest)

/-- The data of a frame that fits behind `sent` bytes. -/
def QueuedFrame.room (q : QueuedFrame) (numBytes sent : Nat) : Nat :=
  newPacketSize numBytes sent q.frame.header.getSerializedSize

/-- What is sent of the frames that do not fit: a part of the first. -/
def sentPart (numBytes sent : Nat) : List QueuedFrame → List QueuedFrame
  | [] => []
  | q :: _ => if q.room numBytes sent = 0 then [] else [q.front (q.room numBytes sent)]

/-- What is left of them. -/
def leftPart (numBytes sent : Nat) : List QueuedFrame → List QueuedFrame
  | [] => []
  | q :: rest =>
      (if q.room numBytes sent = 0 then q else q.back (q.room numBytes sent)) :: rest

theorem fitting_append (numBytes : Nat) (queued : List QueuedFrame) :
    (fitting numBytes queued).1 ++ (fitting numBytes queued).2 = queued := by
  induction queued generalizing numBytes with
  | nil => rfl
  | cons q rest ih =>
      unfold fitting
      split_ifs
      · simp [ih]
      · rfl

theorem totalSize_fitting (numBytes : Nat) (queued : List QueuedFrame) :
    totalSize (fitting numBytes queued).1 ≤ numBytes := by
  induction queued generalizing numBytes with
  | nil => exact Nat.zero_le _
  | cons q rest ih =>
      unfold fitting
      split_ifs with hfits
      · have hrest := ih (numBytes - q.size)
        rw [totalSize_cons]
        omega
      · exact Nat.zero_le _

/-- The first of the other frames does not fit. -/
theorem lt_of_mem_head_fitting {numBytes : Nat} {queued : List QueuedFrame} {q : QueuedFrame}
    (hq : q ∈ (fitting numBytes queued).2.head?) :
    numBytes < totalSize (fitting numBytes queued).1 + q.size := by
  induction queued generalizing numBytes with
  | nil => exact absurd hq (by simp [fitting])
  | cons first rest ih =>
      unfold fitting at hq ⊢
      by_cases hfits : first.size ≤ numBytes
      · rw [if_pos hfits] at hq ⊢
        have hrest := ih hq
        dsimp only
        rw [totalSize_cons]
        omega
      · rw [if_neg hfits] at hq ⊢
        have hfirst : first = q := Option.some.inj hq
        rw [← hfirst]
        dsimp only
        rw [totalSize_nil]
        omega

theorem QueuedFrame.room_le (q : QueuedFrame) {numBytes sent : Nat} (hsent : sent ≤ numBytes) :
    q.room numBytes sent ≤ numBytes - sent - q.frame.header.getSerializedSize :=
  newPacketSize_le hsent (q.frame.header.getSerializedSize_le.trans (by decide))

/-- A frame that does not fit whole has more data than there is room for. -/
theorem QueuedFrame.room_lt {q : QueuedFrame} {numBytes sent : Nat} (hsent : sent ≤ numBytes)
    (hbig : numBytes < sent + q.size) (hroom : q.room numBytes sent ≠ 0) :
    q.room numBytes sent < q.frame.payload.length := by
  have hle := q.room_le hsent
  unfold size at hbig
  rw [q.frame.length_encode] at hbig
  omega

/-- The frames that follow a packet of frames. -/
def framesOf (queued : List QueuedFrame) : List LenFrame := queued.map (·.frame)

/-- What the loop sends and what it leaves, behind the bytes that are already in the packet. -/
theorem segmentLoop_outcome (numBytes : Nat) {items : List QuicSocketTxScheduleItem}
    {queued : List QueuedFrame} (hholds : List.Forall₂ Holds items queued)
    (hordered : queued.Pairwise NotAfter) {appSize : Nat} (hsize : appSize = totalSize queued)
    (hlt : appSize < 2 ^ 32) (outItem : QuicSocketTxItem)
    (hout : outItem.packet.length ≤ numBytes) :
    let found := fitting (numBytes - outItem.packet.length) queued
    let sent := outItem.packet.length + totalSize found.1
    let result := segmentLoop numBytes items appSize outItem
    result.1.packet = outItem.packet ++
        LenFrame.encodeAll (framesOf (found.1 ++ sentPart numBytes sent found.2)) ∧
      ∃ left, List.Forall₂ Holds result.2.appList left ∧ left.Pairwise NotAfter ∧
        left.Perm (leftPart numBytes sent found.2) := by
  induction hholds generalizing appSize outItem with
  | nil => exact ⟨by simp [segmentLoop, fitting, sentPart, framesOf], [], .nil, .nil, .refl _⟩
  | @cons top q items rest hq hrest ih =>
      have hpacket : top.item.packet.length = q.size := congrArg List.length hq.packet
      have hpos : 0 < q.size := q.frame.encode_pos
      have hheader : (peekHeader top.item.packet).2 = q.frame.header := by
        rw [hq.packet, ← List.append_nil q.frame.encode, q.frame.peekHeader_encode]
      rw [totalSize_cons] at hsize
      obtain ⟨-, htail⟩ := List.pairwise_cons.1 hordered
      unfold segmentLoop
      dsimp only
      rw [hpacket, hheader]
      by_cases hloop : outItem.packet.length < numBytes
      swap
      · -- the packet is full: nothing fits, and there is no room for a part either
        have hfull : outItem.packet.length = numBytes := by omega
        have hroom : q.room numBytes outItem.packet.length = 0 := by
          have := q.room_le hout
          omega
        rw [if_pos (by omega)]
        unfold fitting
        rw [if_neg (by omega)]
        dsimp only
        rw [totalSize_nil, Nat.add_zero]
        unfold sentPart leftPart
        dsimp only
        rw [if_pos hroom, if_pos hroom]
        exact ⟨by simp [framesOf], q :: rest, .cons hq hrest, hordered, .refl _⟩
      rw [if_neg (by omega)]
      have hpopped : wrapSub appSize q.size = totalSize rest := by
        rw [wrapSub_of_le (by omega) hlt]
        omega
      by_cases hwhole : outItem.packet.length + q.size ≤ numBytes
      · -- the frame fits whole
        rw [if_pos hwhole]
        have hmerged : (outItem.mergeItems top.item).packet = outItem.packet ++ q.frame.encode := by
          rw [← hq.packet]
          rfl
        have hlength : (outItem.mergeItems top.item).packet.length =
            outItem.packet.length + q.size := by
          rw [hmerged]
          exact List.length_append
        obtain ⟨hbytes, hleft⟩ := ih htail hpopped (by omega) (outItem.mergeItems top.item)
          (by omega)
        rw [hlength, hmerged, ← Nat.sub_sub] at hbytes
        rw [hlength, ← Nat.sub_sub] at hleft
        unfold fitting
        rw [if_pos (by omega)]
        dsimp only
        rw [totalSize_cons, ← Nat.add_assoc]
        refine ⟨?_, hleft⟩
        rw [hbytes]
        simp [framesOf]
      · rw [if_neg hwhole]
        have hfitting : fitting (numBytes - outItem.packet.length) (q :: rest) =
            ([], q :: rest) := by
          unfold fitting
          rw [if_neg (by omega)]
        rw [hfitting]
        dsimp only
        rw [totalSize_nil, Nat.add_zero]
        unfold sentPart leftPart
        dsimp only
        rw [← QueuedFrame.room]
        obtain ⟨n, hn⟩ : ∃ n, q.room numBytes outItem.packet.length = n := ⟨_, rfl⟩
        have hroom : n ≠ 0 → n < q.frame.payload.length := by
          rw [← hn]
          exact room_lt hout (by omega)
        rw [hn]
        by_cases hnone : n = 0
        · -- the frame goes back as it is
          rw [if_pos hnone, if_pos hnone, if_pos hnone]
          exact ⟨by simp [framesOf], holds_orderedInsert hq hrest htail⟩
        · rw [if_neg hnone, if_neg hnone, if_neg hnone, hq.packet,
            q.frame.splitPacket_encode (hroom hnone)]
          dsimp only
          refine ⟨?_, holds_orderedInsert (hq.back n) hrest htail⟩
          simp [framesOf, front, QuicSocketTxItem.mergeItems]

/-! ## Bytes and their places -/

/-- The bytes of received frames, each with its stream and its offset. -/
def placed (frames : List RecvFrame) : List (Nat × Nat × UInt8) :=
  frames.flatMap fun (data, sub) => data.mapIdx fun i byte => (sub.streamId, sub.offset + i, byte)

/-- The streams that end with one of the frames, each with its end. -/
def finEnds (frames : List RecvFrame) : List (Nat × Nat) :=
  (frames.filter (·.2.isStreamFin)).map fun (data, sub) => (sub.streamId, sub.offset + data.length)

/-- The frames as the receiver finds them. -/
def receivedOf (queued : List QueuedFrame) : List RecvFrame := queued.map (·.frame.received)

/-- What is promised of a call of `GetNewSegment`: the packet has at most `numBytes` bytes, the
parser finds the frames taken in it, these and the queue that is left are in order, and have each
byte of the earlier queue once, at its place, and each end of a stream. -/
def AssembledSegment (s : FrameScheduler) (numBytes : Nat) (now : Int) (rxFix : Bool) : Prop :=
  let (segment, left) := s.scheduler.getNewSegment numBytes now
  segment.packet.length ≤ numBytes ∧
    ∃ taken rest : List QueuedFrame,
      disgregateRecv rxFix segment.packet = some (receivedOf taken, false) ∧
      List.Forall₂ Holds left.appList rest ∧
      (taken ++ rest).Pairwise NotAfter ∧
      (placed (receivedOf (taken ++ rest))).Perm (placed (receivedOf s.queued)) ∧
      (finEnds (receivedOf (taken ++ rest))).Perm (finEnds (receivedOf s.queued))

/-- If a frame is cut, the cut is below the end of the 32-bit offsets. -/
def CutInRange (numBytes : Nat) (queued : List QueuedFrame) : Prop :=
  ∀ q ∈ (fitting numBytes queued).2.head?,
    let cut := q.room numBytes (totalSize (fitting numBytes queued).1)
    cut ≠ 0 → q.frame.offset + cut < 2 ^ 32

@[simp] theorem placed_append (first second : List RecvFrame) :
    placed (first ++ second) = placed first ++ placed second := by
  simp [placed]

@[simp] theorem finEnds_append (first second : List RecvFrame) :
    finEnds (first ++ second) = finEnds first ++ finEnds second := by
  simp [finEnds]

@[simp] theorem receivedOf_append (first second : List QueuedFrame) :
    receivedOf (first ++ second) = receivedOf first ++ receivedOf second := by
  simp [receivedOf]

theorem map_received_framesOf (queued : List QueuedFrame) :
    (framesOf queued).map LenFrame.received = receivedOf queued := by
  simp [framesOf, receivedOf]

/-- Both parts of a frame that is cut below the end of the 32-bit offsets are where they were. -/
theorem offset_front_back {fr : LenFrame} {n : Nat} (hrange : fr.offset + n < 2 ^ 32) :
    (fr.front n).offset = fr.offset ∧ (fr.back n).offset = fr.offset + n := by
  have hoffset : fr.offset % 2 ^ 32 = fr.offset := Nat.mod_eq_of_lt (by omega)
  refine ⟨hoffset, ?_⟩
  show (fr.offset % 2 ^ 32 + n) % 2 ^ 32 = fr.offset + n
  rw [hoffset, Nat.mod_eq_of_lt hrange]

/-- The bytes and the end of a frame are those of its parts. -/
theorem placed_parts {fr : LenFrame} {n : Nat} (hlt : n < fr.payload.length)
    (hrange : fr.offset + n < 2 ^ 32) :
    placed [(fr.front n).received, (fr.back n).received] = placed [fr.received] ∧
      finEnds [(fr.front n).received, (fr.back n).received] = finEnds [fr.received] := by
  obtain ⟨hfront, hback⟩ := offset_front_back hrange
  have hpayload : fr.payload = (fr.front n).payload ++ (fr.back n).payload :=
    (List.take_append_drop n fr.payload).symm
  have hlength : (fr.front n).payload.length = n := List.length_take_of_le hlt.le
  constructor
  · simp only [placed, LenFrame.received, List.flatMap_cons, List.flatMap_nil, List.append_nil,
      LenFrame.header_streamId, LenFrame.header_offset]
    rw [hfront, hback, hpayload, List.mapIdx_append, hlength]
    have hcomm : ∀ i, fr.offset + n + i = fr.offset + (i + n) := by omega
    simp only [hcomm]
    rfl
  · have hend : (fr.back n).offset + (fr.back n).payload.length =
        fr.offset + fr.payload.length := by
      rw [hback, hpayload, List.length_append, hlength]
      omega
    cases hfin : fr.fin with
    | false => simp [finEnds, LenFrame.received, LenFrame.front, LenFrame.back, hfin]
    | true =>
        have hlast : (fr.back n).fin = true := hfin
        have hfirst : (fr.front n).fin = false := rfl
        simp only [finEnds, LenFrame.received, List.filter_cons, List.filter_nil,
          LenFrame.header_isStreamFin, hfin, hlast, hfirst, if_true, Bool.false_eq_true, if_false,
          List.map_cons, List.map_nil, LenFrame.header_streamId, LenFrame.header_offset, hend]
        rfl

/-- A byte of a frame is not below the frame. -/
theorem offset_le_of_mem_placed {fr : LenFrame} {place : Nat × Nat × UInt8}
    (hplace : place ∈ placed [fr.received]) : fr.offset ≤ place.2.1 := by
  simp only [placed, LenFrame.received, List.flatMap_cons, List.flatMap_nil, List.append_nil,
    List.mem_mapIdx, LenFrame.header_offset] at hplace
  obtain ⟨i, hi, rfl⟩ := hplace
  exact Nat.le_add_right _ _

/-- A frame with data has a byte at its offset. -/
theorem exists_mem_placed (fr : LenFrame) (hpos : 0 < fr.payload.length) :
    ∃ place ∈ placed [fr.received], place.2.1 = fr.offset := by
  refine ⟨(fr.streamId, fr.offset + 0, fr.payload[0]), ?_, rfl⟩
  simp only [placed, LenFrame.received, List.flatMap_cons, List.flatMap_nil, List.append_nil,
    List.mem_mapIdx, LenFrame.header_offset, LenFrame.header_streamId]
  exact ⟨0, hpos, rfl⟩

/-- If the parts have the bytes of the frame, it was cut below the end of the 32-bit offsets. -/
theorem lt_of_placed_parts {fr : LenFrame} {n : Nat} (hpos : 0 < n)
    (hlt : n < fr.payload.length)
    (hperm : (placed [(fr.front n).received, (fr.back n).received]).Perm (placed [fr.received])) :
    fr.offset + n < 2 ^ 32 := by
  have hlength := fr.length_lt
  have hparts : placed [(fr.front n).received, (fr.back n).received] =
      placed [(fr.front n).received] ++ placed [(fr.back n).received] :=
    placed_append [_] [_]
  rw [hparts] at hperm
  have hfront : fr.offset ≤ fr.offset % 2 ^ 32 := by
    obtain ⟨place, hplace, hat⟩ := exists_mem_placed (fr.front n)
      (by show 0 < (fr.payload.take n).length; rw [List.length_take]; omega)
    have hle := offset_le_of_mem_placed (hperm.mem_iff.1 (List.mem_append_left _ hplace))
    rwa [hat] at hle
  have hback : fr.offset ≤ (fr.offset % 2 ^ 32 + n) % 2 ^ 32 := by
    obtain ⟨place, hplace, hat⟩ := exists_mem_placed (fr.back n)
      (by show 0 < (fr.payload.drop n).length; rw [List.length_drop]; omega)
    have hle := offset_le_of_mem_placed (hperm.mem_iff.1 (List.mem_append_right _ hplace))
    rwa [hat] at hle
  omega

/-! ## Segments -/

theorem length_encodeAll (queued : List QueuedFrame) :
    (LenFrame.encodeAll (framesOf queued)).length = totalSize queued := by
  simp only [LenFrame.encodeAll, framesOf, totalSize, List.length_flatMap, List.map_map]
  rfl

theorem totalSize_append (first second : List QueuedFrame) :
    totalSize (first ++ second) = totalSize first + totalSize second := by
  simp [totalSize]

/-- The first part of a frame has no more than the data that is sent of it, behind a header that is
not longer. -/
theorem size_front_le (q : QueuedFrame) (n : Nat) :
    (q.front n).size ≤ q.frame.header.getSerializedSize + n := by
  have hdata : (q.frame.front n).payload.length ≤ n := List.length_take_le ..
  have hheader := q.frame.header_front_le n
  show (q.frame.front n).encode.length ≤ _
  rw [LenFrame.length_encode]
  exact Nat.add_le_add hheader hdata

/-- The part that is sent fits. -/
theorem totalSize_sentPart {numBytes sent : Nat} (hsent : sent ≤ numBytes)
    (others : List QueuedFrame) :
    sent + totalSize (sentPart numBytes sent others) ≤ numBytes := by
  cases others with
  | nil => exact hsent
  | cons q rest =>
      obtain ⟨n, hn⟩ : ∃ n, q.room numBytes sent = n := ⟨_, rfl⟩
      have hroom := q.room_le hsent
      have hsize := size_front_le q n
      unfold sentPart
      dsimp only
      rw [hn] at hroom ⊢
      by_cases hnone : n = 0
      · rw [if_pos hnone]
        exact hsent
      · rw [if_neg hnone, totalSize_cons, totalSize_nil]
        omega

/-- What is sent and what is left of the frames that do not fit have their bytes and ends if the
cut is in range, and what is sent stays before what is left. -/
theorem sentPart_leftPart {numBytes sent : Nat} (hsent : sent ≤ numBytes)
    {whole others : List QueuedFrame} (hordered : (whole ++ others).Pairwise NotAfter)
    (hbig : ∀ q ∈ others.head?, numBytes < sent + q.size)
    (hrange : ∀ q ∈ others.head?,
      q.room numBytes sent ≠ 0 → q.frame.offset + q.room numBytes sent < 2 ^ 32) :
    let parts := sentPart numBytes sent others ++ leftPart numBytes sent others
    placed (receivedOf parts) = placed (receivedOf others) ∧
      finEnds (receivedOf parts) = finEnds (receivedOf others) ∧
      (whole ++ sentPart numBytes sent others).Pairwise NotAfter ∧
      ∀ a ∈ whole ++ sentPart numBytes sent others, ∀ b ∈ leftPart numBytes sent others,
        NotAfter a b := by
  obtain ⟨hwhole, hothers, hcross⟩ := List.pairwise_append.1 hordered
  cases others with
  | nil =>
      unfold sentPart leftPart
      exact ⟨rfl, rfl, (List.append_nil whole).symm ▸ hwhole,
        fun _ _ b hb => (List.not_mem_nil hb).elim⟩
  | cons q rest =>
      have hlt := fun hcut => room_lt hsent (hbig q rfl) hcut
      have hq := hrange q rfl
      unfold sentPart leftPart
      dsimp only
      obtain ⟨n, hn⟩ : ∃ n, q.room numBytes sent = n := ⟨_, rfl⟩
      rw [hn] at hlt hq ⊢
      by_cases hcut : n = 0
      · rw [if_pos hcut, if_pos hcut, List.append_nil]
        exact ⟨rfl, rfl, hwhole, hcross⟩
      · rw [if_neg hcut, if_neg hcut]
        obtain ⟨hplaced, hends⟩ := placed_parts (hlt hcut) (hq hcut)
        obtain ⟨hfront, hback⟩ := offset_front_back (hq hcut)
        have hparts : receivedOf ([q.front n] ++ q.back n :: rest) =
            [(q.frame.front n).received, (q.frame.back n).received] ++ receivedOf rest := rfl
        have hsplit : receivedOf (q :: rest) = [q.frame.received] ++ receivedOf rest := rfl
        -- the front stands where the frame stood, and the back is behind it
        have hbefore : ∀ a, NotAfter a q → NotAfter a (q.front n) := by
          intro a ha
          unfold NotAfter at ha ⊢
          rwa [show (q.front n).frame.offset = q.frame.offset from hfront]
        have hafter : ∀ a, NotAfter q a → NotAfter (q.front n) a := by
          intro a ha
          unfold NotAfter at ha ⊢
          rwa [show (q.front n).frame.offset = q.frame.offset from hfront]
        have hlater : NotAfter q (q.back n) :=
          .inr ⟨rfl, .inr ⟨rfl, by show _ ≤ (q.frame.back n).offset; omega⟩⟩
        obtain ⟨hfirst, -⟩ := List.pairwise_cons.1 hothers
        refine ⟨?_, ?_, ?_, ?_⟩
        · rw [hparts, hsplit, placed_append, placed_append, hplaced]
        · rw [hparts, hsplit, finEnds_append, finEnds_append, hends]
        · refine List.pairwise_append.2 ⟨hwhole, List.pairwise_singleton _ _, ?_⟩
          intro a ha b hb
          rw [List.mem_singleton.1 hb]
          exact hbefore a (hcross a ha q List.mem_cons_self)
        · intro a ha b hb
          have hq' : NotAfter q b := by
            rcases List.mem_cons.1 hb with rfl | hb
            · exact hlater
            · exact hfirst b hb
          rcases List.mem_append.1 ha with ha | ha
          · exact (hcross a ha q List.mem_cons_self).trans hq'
          · rw [List.mem_singleton.1 ha]
            exact hafter b hq'

/-- What a call sends, and what it leaves in the queue. -/
theorem getNewSegment_outcome (s : FrameScheduler) (numBytes : Nat) (now : Int) :
    let found := fitting numBytes s.queued
    let sent := totalSize found.1
    let result := s.scheduler.getNewSegment numBytes now
    result.1.packet =
        LenFrame.encodeAll (framesOf (found.1 ++ sentPart numBytes sent found.2)) ∧
      ∃ left, List.Forall₂ Holds result.2.appList left ∧ left.Pairwise NotAfter ∧
        left.Perm (leftPart numBytes sent found.2) := by
  have houtcome := segmentLoop_outcome numBytes s.holds s.ordered s.appSize_eq s.appSize_lt
    { isStream := true, generated := now } (Nat.zero_le _)
  dsimp only at houtcome
  rwa [List.length_nil, Nat.sub_zero, Nat.zero_add, List.nil_append] at houtcome

theorem disgregateRecv_encodeAll (rxFix : Bool) (queued : List QueuedFrame) :
    disgregateRecv rxFix (LenFrame.encodeAll (framesOf queued)) =
      some (receivedOf queued, false) := by
  unfold disgregateRecv
  rw [LenFrame.disgregate_encodeAll, map_received_framesOf]
  rfl

/-- Items that hold the same frames are received alike. -/
theorem receivedOf_eq_of_holds {items : List QuicSocketTxScheduleItem}
    {first second : List QueuedFrame} (hfirst : List.Forall₂ Holds items first)
    (hsecond : List.Forall₂ Holds items second) : receivedOf first = receivedOf second := by
  induction hfirst generalizing second with
  | nil =>
      cases hsecond
      rfl
  | @cons item q items rest hq hrest ih =>
      cases hsecond with
      | @cons _ q' _ rest' hq' hrest' =>
          have hbytes : LenFrame.encodeAll [q.frame] = LenFrame.encodeAll [q'.frame] := by
            simp [← hq.packet, ← hq'.packet]
          have hreceived : q.frame.received = q'.frame.received :=
            List.head_eq_of_cons_eq (LenFrame.received_eq_of_encodeAll_eq hbytes)
          show q.frame.received :: receivedOf rest = q'.frame.received :: receivedOf rest'
          rw [hreceived, ih hrest']

theorem placed_perm {first second : List RecvFrame} (hperm : first.Perm second) :
    (placed first).Perm (placed second) :=
  hperm.flatMap_right _

theorem finEnds_perm {first second : List RecvFrame} (hperm : first.Perm second) :
    (finEnds first).Perm (finEnds second) :=
  (hperm.filter _).map _

theorem receivedOf_perm {first second : List QueuedFrame} (hperm : first.Perm second) :
    (receivedOf first).Perm (receivedOf second) :=
  hperm.map _

/-- A segment whose cut is in range is assembled as promised. -/
theorem assembledSegment_of_cutInRange {s : FrameScheduler} {numBytes : Nat} (now : Int)
    (rxFix : Bool) (hrange : CutInRange numBytes s.queued) :
    AssembledSegment s numBytes now rxFix := by
  obtain ⟨hpacket, left, hholds, hsorted, hperm⟩ := getNewSegment_outcome s numBytes now
  have hsent := totalSize_fitting numBytes s.queued
  have hqueue := fitting_append numBytes s.queued
  have hordered := s.ordered
  rw [← hqueue] at hordered
  obtain ⟨hplaced, hends, htaken, hcross⟩ := sentPart_leftPart hsent hordered
    (fun q hq => lt_of_mem_head_fitting hq) hrange
  unfold AssembledSegment
  dsimp only at hpacket hholds hperm hplaced hends ⊢
  rw [hpacket, length_encodeAll, totalSize_append]
  generalize fitting numBytes s.queued = found at *
  obtain ⟨whole, others⟩ := found
  dsimp only at *
  have hparts : (whole ++ sentPart numBytes (totalSize whole) others ++ left).Perm
      (whole ++ (sentPart numBytes (totalSize whole) others ++
        leftPart numBytes (totalSize whole) others)) := by
    rw [List.append_assoc]
    exact (hperm.append_left _).append_left _
  refine ⟨totalSize_sentPart hsent others, whole ++ sentPart numBytes (totalSize whole) others,
    left, disgregateRecv_encodeAll rxFix _, hholds, ?_, ?_, ?_⟩
  · exact List.pairwise_append.2 ⟨htaken, hsorted, fun a ha b hb =>
      hcross a ha b (hperm.mem_iff.1 hb)⟩
  · rw [← hqueue]
    calc placed (receivedOf (whole ++ sentPart numBytes (totalSize whole) others ++ left))
        _ ~ placed (receivedOf (whole ++ (sentPart numBytes (totalSize whole) others ++
              leftPart numBytes (totalSize whole) others))) := placed_perm (receivedOf_perm hparts)
        _ = placed (receivedOf whole) ++ placed (receivedOf others) := by
          rw [receivedOf_append whole, placed_append, hplaced]
        _ = placed (receivedOf (whole ++ others)) := by
          rw [receivedOf_append, placed_append]
  · rw [← hqueue]
    calc finEnds (receivedOf (whole ++ sentPart numBytes (totalSize whole) others ++ left))
        _ ~ finEnds (receivedOf (whole ++ (sentPart numBytes (totalSize whole) others ++
              leftPart numBytes (totalSize whole) others))) :=
          finEnds_perm (receivedOf_perm hparts)
        _ = finEnds (receivedOf whole) ++ finEnds (receivedOf others) := by
          rw [receivedOf_append whole, finEnds_append, hends]
        _ = finEnds (receivedOf (whole ++ others)) := by
          rw [receivedOf_append, finEnds_append]

/-- A segment that keeps every byte at its place was cut in range. -/
theorem AssembledSegment.cutInRange {s : FrameScheduler} {numBytes : Nat} {now : Int}
    {rxFix : Bool} (hsegment : AssembledSegment s numBytes now rxFix) :
    CutInRange numBytes s.queued := by
  obtain ⟨hpacket, left, hholds, -, hperm⟩ := getNewSegment_outcome s numBytes now
  unfold AssembledSegment at hsegment
  dsimp only at hsegment
  obtain ⟨-, taken, rest, hparsed, hrest, -, hplaced, -⟩ := hsegment
  rw [hpacket, disgregateRecv_encodeAll, Option.some.injEq, Prod.mk.injEq] at hparsed
  have hqueue := fitting_append numBytes s.queued
  have hsent := totalSize_fitting numBytes s.queued
  intro q hq
  have hbig := lt_of_mem_head_fitting hq
  have hlt := fun hcut => room_lt hsent hbig hcut
  rw [receivedOf_append, ← hparsed.1, receivedOf_eq_of_holds hrest hholds, ← receivedOf_append,
    List.append_assoc] at hplaced
  have hleft := (placed_perm (receivedOf_perm ((hperm.append_left _).append_left _))).symm.trans
    hplaced
  generalize fitting numBytes s.queued = found at *
  obtain ⟨whole, _ | ⟨q', others⟩⟩ := found
  · exact absurd hq (by simp)
  dsimp only at hqueue hsent hlt hleft ⊢
  rw [← hqueue, receivedOf_append whole, receivedOf_append whole, placed_append, placed_append,
    List.perm_append_left_iff] at hleft
  have hq' : q' = q := Option.some.inj hq
  subst hq'
  unfold sentPart leftPart at hleft
  dsimp only at hleft hlt ⊢
  obtain ⟨n, hn⟩ : ∃ n, q'.room numBytes (totalSize whole) = n := ⟨_, rfl⟩
  rw [hn] at hleft hlt ⊢
  intro hcut
  rw [if_neg hcut, if_neg hcut] at hleft
  have hparts : receivedOf ([q'.front n] ++ q'.back n :: others) =
      [(q'.frame.front n).received, (q'.frame.back n).received] ++ receivedOf others := rfl
  have hsplit : receivedOf (q' :: others) = [q'.frame.received] ++ receivedOf others := rfl
  rw [hparts, hsplit, placed_append, placed_append, List.perm_append_right_iff] at hleft
  exact lt_of_placed_parts (Nat.pos_of_ne_zero hcut) (hlt hcut) hleft

/-- The packet that a call assembles agrees with the parser of the receiver exactly if the frame
that it cuts, if any, is cut below the end of the 32-bit offsets. -/
theorem assembledSegment_iff_cutInRange (s : FrameScheduler) (numBytes : Nat) (now : Int)
    (rxFix : Bool) : AssembledSegment s numBytes now rxFix ↔ CutInRange numBytes s.queued :=
  ⟨AssembledSegment.cutInRange, assembledSegment_of_cutInRange now rxFix⟩

/-- Two bytes of stream 4, of which the second is at offset `2 ^ 32`. -/
def lastAndNext : LenFrame where
  streamId := 4
  offset := 2 ^ 32 - 1
  payload := [7, 8]
  offBit := true
  fin := false
  streamId_lt := by decide
  offset_lt := by decide
  length_lt := by decide
  offset_eq := nofun

/-- The frame as the only one in the queue. -/
def lastAndNextQueue : FrameScheduler where
  scheduler := QuicSocketTxScheduler.add
    { packet := lastAndNext.encode, generated := 0 } false 0 {}
  queued := [{ priority := 0, frame := lastAndNext }]
  holds := .cons ⟨rfl, rfl, rfl, rfl⟩ .nil
  ordered := List.pairwise_singleton _ _
  appSize_eq := by decide
  appSize_lt := by decide

/-- A packet of 12 bytes has room for one byte of the frame. The rest goes back under offset 0. -/
theorem not_assembledSegment_lastAndNext :
    ¬ ∀ (s : FrameScheduler) (numBytes : Nat) (now : Int) (rxFix : Bool),
      AssembledSegment s numBytes now rxFix := by
  intro hall
  have hrange := (hall lastAndNextQueue 12 0 false).cutInRange
  exact absurd (hrange _ rfl (by decide)) (by decide)

end NtnIab.Quic
