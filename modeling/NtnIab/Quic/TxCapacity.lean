import NtnIab.Quic.ByteAccounting

/-!
# The capacity of the transmit buffer of a socket

`add` is the only call that looks at the capacity. A retransmission puts lost packets back whatever
was added in the meantime, and a frame that is split comes back to the queue under a subheader of
its own, which may be longer than what was sent of it.

## Strategy

`Within` is the invariant: the frames that wait are counted exactly, and fit in the buffer. Calls
that take frames out of the queue keep it. What a retransmission puts back is summed by `putBack`
(`retxItems_size`). A call that splits a frame, found by `splitFrame`, takes `sent` bytes and this
frame out of the queue and puts the rest of the frame back (`segmentLoop_size`). `Fits` says of
both that there is room for what comes back.
-/

namespace NtnIab.Quic

open QuicSocketTxScheduler QuicSocketTxBuffer

/-! ## What comes back -/

/-- The subheader written in front of the rest of a frame that is split. -/
def restHeader (packet : List UInt8) (newPacketSize : Nat) : QuicSubheader :=
  let (headerSize, qsb) := peekHeader packet
  let newLength := wrapSub (packet.drop headerSize).length newPacketSize
  QuicSubheader.createStreamSubHeader qsb.streamId (wrapAdd (qsb.offset % 2 ^ 32) newPacketSize)
    newLength true (qsb.length % 2 ^ 32 ≠ 0) qsb.isStreamFin

/-- The bytes of the rest of a frame, under its new subheader. -/
def restSize (packet : List UInt8) (newPacketSize : Nat) : Nat :=
  (restHeader packet newPacketSize).serialize.length +
    ((packet.drop (peekHeader packet).1).length - newPacketSize)

theorem splitPacket_restSize {packet : List UInt8} (hlt : packet.length < 2 ^ 32)
    (newPacketSize : Nat) :
    (splitPacket packet newPacketSize).2.2.length = restSize packet newPacketSize := by
  have hdata : (packet.drop (peekHeader packet).1).length < 2 ^ 32 := by
    rw [List.length_drop]
    omega
  unfold splitPacket restSize restHeader
  dsimp only
  generalize packet.drop (peekHeader packet).1 = data at hdata
  rw [List.length_append, List.length_take, List.length_drop]
  congr 1
  -- what is cut off is never more than the length of the new frame
  unfold wrapSub
  omega

/-- The frame that a call splits, if it splits one: its packet, the bytes of the whole frames taken
before it, and how much of its data is sent. -/
def splitFrame (numBytes : Nat) : List QuicSocketTxScheduleItem → Nat → QuicSocketTxItem →
    Option (List UInt8 × Nat × Nat)
  | [], _, _ => none
  | top :: rest, counter, outItem =>
      let size := top.item.packet.length
      if ¬ (counter > 0 ∧ outItem.packet.length < numBytes) then none
      else if outItem.packet.length + size ≤ numBytes then
        splitFrame numBytes rest (wrapSub counter size) (outItem.mergeItems top.item)
      else
        let headerSize := (peekHeader top.item.packet).2.getSerializedSize
        let newPacketSize := newPacketSize numBytes outItem.packet.length headerSize
        if newPacketSize = 0 then none
        else some (top.item.packet, outItem.packet.length, newPacketSize)

/-- The bytes that a lost packet brings back. -/
def requeued (item : QuicSocketTxItem) : Nat :=
  if item.isStream0 then item.packet.length
  else ((retxFrames item.packet).map (·.2.length)).sum

/-- The bytes that a retransmission puts back. -/
def putBack (sent : List QuicSocketTxItem) : Nat := ((sent.filter (·.lost)).map requeued).sum

/-- There is room for what a call brings back to the frames that wait. -/
def Fits (b : QuicSocketTxBuffer) : TxEvent → Prop
  | .nextSequence numBytes _ _ now =>
      ∀ packet sent newPacketSize, splitFrame numBytes b.scheduler.appList b.scheduler.appSize
          { isStream := true, generated := now } = some (packet, sent, newPacketSize) →
        b.appSize + restSize packet newPacketSize ≤ b.maxBuffer + sent + packet.length
  | .retransmission _ pathId _ => b.appSize + putBack (b.sentList pathId) ≤ b.maxBuffer
  | _ => True

/-! ## The invariant -/

/-- The bytes that wait. -/
def waiting (b : QuicSocketTxBuffer) : Nat :=
  sizes b.streamZeroList + queueSize b.scheduler.appList

/-- The bytes are counted, and the frames that wait fit in the buffer. -/
structure Within (b : QuicSocketTxBuffer) : Prop extends Accounted b where
  fits : waiting b ≤ b.maxBuffer
  uint32 : b.maxBuffer < 2 ^ 32

/-- What the capacity is for: the size of the frames that wait is at most the capacity, the
difference that `available` computes does not wrap, and no frame is taken beyond the capacity. -/
structure CapacityKept (b : QuicSocketTxBuffer) : Prop where
  appSize_le : b.appSize ≤ b.maxBuffer
  exact : b.streamZeroSize + b.scheduler.appSize ≤ b.maxBuffer ∧
    b.available = b.maxBuffer - b.streamZeroSize - b.scheduler.appSize
  added : ∀ p now, (b.add p now).1 = true → waiting b + p.length ≤ b.maxBuffer

section
variable {b : QuicSocketTxBuffer}

theorem Within.counters (hb : Within b) :
    b.streamZeroSize = sizes b.streamZeroList ∧
      b.scheduler.appSize = queueSize b.scheduler.appList := by
  have hfits := hb.fits
  have hlt := hb.uint32
  unfold waiting at hfits
  constructor
  · rw [hb.streamZero, Nat.mod_eq_of_lt (by omega)]
  · rw [hb.queue, Nat.mod_eq_of_lt (by omega)]

/-- Sums that fit in 32 bits are what the counters say. -/
theorem appSize_eq_waiting (hb : Accounted b) (hlt : waiting b < 2 ^ 32) :
    b.appSize = waiting b := by
  unfold waiting at hlt ⊢
  unfold QuicSocketTxBuffer.appSize wrapAdd
  rw [hb.streamZero, hb.queue, Nat.mod_eq_of_lt (a := sizes _) (by omega),
    Nat.mod_eq_of_lt (a := queueSize _) (by omega), Nat.mod_eq_of_lt hlt]

theorem Within.appSize_eq (hb : Within b) : b.appSize = waiting b :=
  appSize_eq_waiting hb.toAccounted (Nat.lt_of_le_of_lt hb.fits hb.uint32)

theorem Within.available_eq (hb : Within b) : b.available = b.maxBuffer - waiting b := by
  obtain ⟨hzero, hqueue⟩ := hb.counters
  have hfits := hb.fits
  have hlt := hb.uint32
  unfold waiting at *
  unfold available
  rw [hzero, hqueue, wrapSub_of_le (by omega) hlt, wrapSub_of_le (by omega) (by omega),
    Nat.sub_sub]

theorem available_of_add {p : List UInt8} {now : Int} (hadd : (b.add p now).1 = true) :
    p.length ≤ b.available := by
  unfold QuicSocketTxBuffer.add at hadd
  dsimp only at hadd
  split at hadd
  · assumption
  · cases hadd

theorem Within.capacityKept (hb : Within b) : CapacityKept b where
  appSize_le := hb.appSize_eq ▸ hb.fits
  exact := by
    obtain ⟨hzero, hqueue⟩ := hb.counters
    rw [hzero, hqueue, hb.available_eq]
    exact ⟨hb.fits, by unfold waiting; omega⟩
  added := by
    intro p now hadd
    have hroom := available_of_add hadd
    have hfits := hb.fits
    rw [hb.available_eq] at hroom
    omega

end

/-! ## Frames that are taken -/

theorem add_waiting (b : QuicSocketTxBuffer) (p : List UInt8) (now : Int) :
    waiting (b.add p now).2 = waiting b ∨
      (b.add p now).1 = true ∧ waiting (b.add p now).2 = waiting b + p.length := by
  unfold QuicSocketTxBuffer.add
  dsimp only
  split
  · split
    · split
      · exact .inl rfl
      · right
        split
        · refine ⟨rfl, ?_⟩
          unfold waiting
          dsimp only
          rw [sizes_append, sizes_cons, sizes_nil]
          dsimp only
          omega
        · refine ⟨rfl, ?_⟩
          show _ + queueSize (addScheduleItem _ b.scheduler).appList = _
          rw [queueSize_addScheduleItem]
          unfold waiting
          dsimp only
          omega
    · exact .inl rfl
  · exact .inl rfl

theorem Within.add {b : QuicSocketTxBuffer} (hb : Within b) (p : List UInt8) (now : Int) :
    waiting (b.add p now).2 ≤ b.maxBuffer := by
  rcases add_waiting b p now with hkept | ⟨htaken, hgrown⟩
  · exact hkept ▸ hb.fits
  · exact hgrown ▸ hb.capacityKept.added p now htaken

theorem nextStream0Sequence_waiting (b : QuicSocketTxBuffer) (seq : Nat) (now : Int) :
    waiting (b.nextStream0Sequence seq now).2 ≤ waiting b := by
  unfold QuicSocketTxBuffer.nextStream0Sequence
  split
  · exact Nat.le_refl _
  · rename_i current rest hlist
    unfold waiting
    rw [hlist, sizes_cons]
    dsimp only
    omega

/-! ## Packets that are sent -/

/-- What a new segment leaves in the queue: no more than there was, and if a frame was split, what
was not taken with the rest of the frame. -/
theorem segmentLoop_size (numBytes : Nat) (queue : List QuicSocketTxScheduleItem)
    (hlt : queueSize queue < 2 ^ 32) (counter : Nat) (outItem : QuicSocketTxItem) :
    let left := queueSize (segmentLoop numBytes queue counter outItem).2.appList
    match splitFrame numBytes queue counter outItem with
    | none => left ≤ queueSize queue
    | some (packet, sent, newPacketSize) =>
        left + sent + packet.length =
          queueSize queue + outItem.packet.length + restSize packet newPacketSize := by
  induction queue generalizing counter outItem with
  | nil => exact Nat.le_refl _
  | cons top rest ih =>
      rw [queueSize_cons] at hlt ⊢
      have hrest := ih (by omega) (wrapSub counter top.item.packet.length)
        (outItem.mergeItems top.item)
      unfold segmentLoop splitFrame
      dsimp only at hrest ⊢
      by_cases hdone : ¬ (counter > 0 ∧ outItem.packet.length < numBytes)
      · rw [if_pos hdone, if_pos hdone]
        exact Nat.le_of_eq (queueSize_cons top rest)
      rw [if_neg hdone, if_neg hdone]
      by_cases hwhole : outItem.packet.length + top.item.packet.length ≤ numBytes
      · rw [if_pos hwhole, if_pos hwhole]
        cases hsplit : splitFrame numBytes rest (wrapSub counter top.item.packet.length)
            (outItem.mergeItems top.item) with
        | none =>
            rw [hsplit] at hrest
            dsimp only at hrest ⊢
            omega
        | some found =>
            rw [hsplit] at hrest
            dsimp only [QuicSocketTxItem.mergeItems] at hrest ⊢
            rw [List.length_append] at hrest
            omega
      rw [if_neg hwhole, if_neg hwhole]
      generalize newPacketSize numBytes outItem.packet.length
        (peekHeader top.item.packet).2.getSerializedSize = n
      by_cases hheader : n = 0
      · rw [if_pos hheader, if_pos hheader]
        exact Nat.le_of_eq (queueSize_addScheduleItem ..)
      · rw [if_neg hheader, if_neg hheader]
        dsimp only
        rw [queueSize_addScheduleItem]
        dsimp only
        rw [splitPacket_restSize (by omega)]
        omega

theorem nextSequence_waiting {b : QuicSocketTxBuffer} (hb : Within b)
    (numBytes seq pathId : Nat) (now : Int)
    (hroom : Fits b (.nextSequence numBytes seq pathId now)) :
    waiting (b.nextSequence numBytes seq pathId now).2 ≤ b.maxBuffer := by
  have hfits := hb.fits
  have hlt := hb.uint32
  have hsize := segmentLoop_size numBytes b.scheduler.appList
    (by unfold waiting at hfits; omega) b.scheduler.appSize
    { isStream := true, generated := now }
  have hwaiting : waiting (b.nextSequence numBytes seq pathId now).2 = sizes b.streamZeroList +
      queueSize (segmentLoop numBytes b.scheduler.appList b.scheduler.appSize
        { isStream := true, generated := now }).2.appList := by
    unfold QuicSocketTxBuffer.nextSequence getNewSegment
    dsimp only
    split <;> rfl
  unfold Fits at hroom
  rw [hb.appSize_eq] at hroom
  rw [hwaiting]
  unfold waiting at hfits hroom
  dsimp only at hsize
  split at hsize
  · omega
  · rename_i packet sent newPacketSize hsplit
    have hrest := hroom packet sent newPacketSize hsplit
    rw [List.length_nil] at hsize
    omega

/-! ## Packets that are put back -/

/-- What a step of the retransmission adds to the frames that wait. -/
def Adds (b b' : QuicSocketTxBuffer) (n : Nat) : Prop :=
  waiting b' = waiting b + n ∧ b'.maxBuffer = b.maxBuffer

theorem retxFrames_size (now : Int) (frames : List (QuicSubheader × List UInt8))
    (state : QuicSocketTxBuffer × Nat × Nat) :
    Adds state.1 (frames.foldl (retxFrame now) state).1 (frames.map (·.2.length)).sum := by
  induction frames generalizing state with
  | nil => exact ⟨rfl, rfl⟩
  | cons frame rest ih =>
      obtain ⟨hrest, hmax⟩ := ih (retxFrame now state frame)
      have hfirst : waiting (retxFrame now state frame).1 =
          waiting state.1 + frame.2.length := by
        show _ + queueSize (addScheduleItem _ state.1.scheduler).appList = _
        rw [queueSize_addScheduleItem]
        unfold waiting
        dsimp only [retxFrame]
        omega
      refine ⟨?_, hmax⟩
      rw [List.foldl_cons, hrest, hfirst, List.map_cons, List.sum_cons]
      omega

theorem retxItem_size (pathId : Nat) (now : Int) (state : QuicSocketTxBuffer × Nat × Nat)
    (item : QuicSocketTxItem) :
    Adds state.1 (retxItem pathId now state item).1 (if item.lost then requeued item else 0) := by
  unfold retxItem requeued
  dsimp only
  cases hlost : item.lost with
  | false => exact ⟨rfl, rfl⟩
  | true =>
      simp only [Bool.not_true, Bool.false_eq_true, if_false, if_true]
      split
      · refine ⟨?_, rfl⟩
        unfold waiting
        dsimp only
        rw [sizes_cons]
        show item.packet.length + _ + _ = _
        omega
      · exact retxFrames_size now (retxFrames item.packet)
          ({ state.1 with
            sentSizeList := state.1.sentSizeList.modify pathId (wrapSub · item.packet.length) },
            state.2)

theorem retxItems_size (pathId : Nat) (now : Int) (items : List QuicSocketTxItem)
    (state : QuicSocketTxBuffer × Nat × Nat) :
    Adds state.1 (items.foldl (retxItem pathId now) state).1 (putBack items) := by
  induction items generalizing state with
  | nil => exact ⟨rfl, rfl⟩
  | cons item rest ih =>
      obtain ⟨hfirst, hmax⟩ := retxItem_size pathId now state item
      obtain ⟨hrest, hmax'⟩ := ih (retxItem pathId now state item)
      refine ⟨?_, hmax'.trans hmax⟩
      rw [List.foldl_cons, hrest, hfirst]
      unfold putBack
      cases hlost : item.lost with
      | false => simp [hlost]
      | true =>
          simp [hlost]
          omega

theorem putBack_reverse (sent : List QuicSocketTxItem) : putBack sent.reverse = putBack sent := by
  simp [putBack, List.filter_reverse, List.map_reverse]

theorem retransmission_size (b : QuicSocketTxBuffer) (packetNumber pathId : Nat) (now : Int) :
    Adds b (b.retransmission packetNumber pathId now).2 (putBack (b.sentList pathId)) := by
  have hadds := retxItems_size pathId now (b.sentList pathId).reverse (b, packetNumber, 0)
  rw [putBack_reverse] at hadds
  exact hadds

/-! ## The run -/

namespace TxRun

theorem step_maxBuffer (r : TxRun) (event : TxEvent) :
    (r.step event).buffer.maxBuffer = r.buffer.maxBuffer := by
  cases event with
  | add p now =>
      show (r.buffer.add p now).2.maxBuffer = _
      unfold QuicSocketTxBuffer.add
      dsimp only
      repeat' split
      all_goals rfl
  | nextStream0Sequence seq now =>
      show (r.buffer.nextStream0Sequence seq now).2.maxBuffer = _
      unfold QuicSocketTxBuffer.nextStream0Sequence
      split <;> rfl
  | nextSequence numBytes seq pathId now =>
      show (r.buffer.nextSequence numBytes seq pathId now).2.maxBuffer = _
      unfold QuicSocketTxBuffer.nextSequence
      dsimp only
      split <;> rfl
  | markHeadAsLost pathId =>
      show (r.buffer.markHeadAsLost pathId).2.maxBuffer = _
      unfold QuicSocketTxBuffer.markHeadAsLost
      split <;> rfl
  | markAllOutstandingAsLost pathId =>
      show (r.buffer.markAllOutstandingAsLost pathId).2.maxBuffer = _
      unfold QuicSocketTxBuffer.markAllOutstandingAsLost
      split <;> rfl
  | retransmission packetNumber pathId now =>
      exact (retransmission_size r.buffer packetNumber pathId now).2
  | onAckUpdate | addSentList | resetSentList | markAsLost => rfl

/-- A call for which there is room lets no more bytes wait than the buffer holds. -/
theorem step_waiting {r : TxRun} (hr : Within r.buffer) {event : TxEvent}
    (hroom : Fits r.buffer event) : waiting (r.step event).buffer ≤ r.buffer.maxBuffer := by
  cases event with
  | add p now => exact hr.add p now
  | nextStream0Sequence seq now => exact (nextStream0Sequence_waiting ..).trans hr.fits
  | nextSequence numBytes seq pathId now => exact nextSequence_waiting hr _ _ _ _ hroom
  | markHeadAsLost pathId =>
      show waiting (r.buffer.markHeadAsLost pathId).2 ≤ _
      unfold QuicSocketTxBuffer.markHeadAsLost
      split
      · exact hr.fits
      · exact hr.fits
  | markAllOutstandingAsLost pathId =>
      show waiting (r.buffer.markAllOutstandingAsLost pathId).2 ≤ _
      unfold QuicSocketTxBuffer.markAllOutstandingAsLost
      split
      · exact hr.fits
      · exact hr.fits
  | retransmission packetNumber pathId now =>
      have hadds := (retransmission_size r.buffer packetNumber pathId now).1
      unfold Fits at hroom
      rw [hr.appSize_eq] at hroom
      exact hadds ▸ hroom
  | onAckUpdate | addSentList | resetSentList | markAsLost => exact hr.fits

theorem step_within {r : TxRun} {event : TxEvent} (hr : Within r.buffer)
    (hroom : Fits r.buffer event) : Within (r.step event).buffer where
  toAccounted := step_accounted event hr.toAccounted
  fits := (step_waiting hr hroom).trans (Nat.le_of_eq (step_maxBuffer r event).symm)
  uint32 := (step_maxBuffer r event) ▸ hr.uint32

/-- In a run in which there is room for every frame that comes back, the frames that wait never
exceed the capacity, the room left is computed exactly, and no frame is taken beyond it. -/
theorem run_keeps_capacity {maxBuffer : Nat} (hmax : maxBuffer < 2 ^ 32) {events : List TxEvent}
    (hroom : Run.AllSteps step (fun r event => Fits r.buffer event) (start maxBuffer) events) :
    CapacityKept (Run.run step (start maxBuffer) events).buffer := by
  have hstart : Within (start maxBuffer).buffer := ⟨start_accounted maxBuffer, Nat.zero_le _, hmax⟩
  have hwithin : Within (Run.run step (start maxBuffer) events).buffer :=
    hroom.invariant (I := fun r : TxRun => Within r.buffer)
      (fun _ _ hr hfits => step_within hr hfits) hstart
  exact hwithin.capacityKept

/-- The frame is split, and its front is lost and put back into a buffer of 32 bytes. -/
theorem run_keeps_capacity_of_split_frame :
    CapacityKept (Run.run step (start 32) [.add firstBytes.encode 0, .nextSequence 7 1 0 1,
      .markAsLost 1 0, .retransmission 2 0 2]).buffer := by
  apply run_keeps_capacity (by decide)
  refine ⟨trivial, ?_, trivial, ?_, trivial⟩
  · intro packet sent newPacketSize hsplit
    have hfound : some (packet, sent, newPacketSize) = some (firstBytes.encode, 0, 4) :=
      hsplit.symm.trans (by decide +kernel)
    cases hfound
    decide +kernel
  · unfold Fits
    decide +kernel

/-- A frame is sent while another takes its place; when it is lost, it comes back. -/
theorem not_run_keeps_capacity : ¬ ∀ (maxBuffer : Nat) (events : List TxEvent),
    maxBuffer < 2 ^ 32 → CapacityKept (Run.run step (start maxBuffer) events).buffer := by
  intro hall
  have hkept := hall 10 [.add firstBytes.encode 0, .nextSequence 9 1 0 1,
    .add firstBytes.encode 2, .markAllOutstandingAsLost 0, .retransmission 2 0 3] (by decide)
  exact absurd hkept.appSize_le (by decide +kernel)

end TxRun

end NtnIab.Quic
