import Mathlib.Algebra.Group.Nat.Defs
import Mathlib.Algebra.GroupWithZero.Nat
import NtnIab.Quic.Conservation

/-!
# The byte counters of the transmit buffer of a socket

The buffer keeps four counters by hand: the bytes sent on each path, the bytes and the frames of
stream 0, and the bytes in the queue of the scheduler. They are 32 bits wide.

## Strategy

`sizes` and `queueSize` are the sums that the counters stand for, and `Accounted` says that each
counter is its sum modulo `2^32`. Additions keep this (`wrapAdd_mod`), and so do subtractions of
what is part of the sum (`wrapSub_mod`): a list that leaves a sent list (`Accounted.removed`), or
the frames popped from the queue (`segmentLoop_accounted`). The operations that declare losses keep
the packets, and with them all sums (`sizes_of_key`).

The subtractions a call makes are listed by `decrements`, with the counter before each of them.
When the sums of a state fit in 32 bits, the counters are the sums, and what is subtracted is part
of them (`decrementsOf_le`).
-/

namespace NtnIab.Quic

open ListFamily QuicSocketTxScheduler QuicSocketTxBuffer

/-! ## Sums -/

/-- The bytes of the packets in a list. -/
def sizes (items : List QuicSocketTxItem) : Nat := (items.map (·.packet.length)).sum

/-- The bytes of the packets in the queue of the scheduler. -/
def queueSize (queue : List QuicSocketTxScheduleItem) : Nat :=
  (queue.map (·.item.packet.length)).sum

@[simp] theorem sizes_nil : sizes [] = 0 := rfl

@[simp] theorem sizes_cons (item : QuicSocketTxItem) (rest : List QuicSocketTxItem) :
    sizes (item :: rest) = item.packet.length + sizes rest := by
  simp [sizes]

@[simp] theorem sizes_append (first second : List QuicSocketTxItem) :
    sizes (first ++ second) = sizes first + sizes second := by
  simp [sizes]

@[simp] theorem sizes_reverse (items : List QuicSocketTxItem) :
    sizes items.reverse = sizes items := by
  simp [sizes, List.map_reverse]

@[simp] theorem queueSize_nil : queueSize [] = 0 := rfl

@[simp] theorem queueSize_cons (top : QuicSocketTxScheduleItem)
    (rest : List QuicSocketTxScheduleItem) :
    queueSize (top :: rest) = top.item.packet.length + queueSize rest := by
  simp [queueSize]

/-- A list is what a predicate keeps of it and what it removes. -/
theorem sizes_filter (p : QuicSocketTxItem → Bool) (items : List QuicSocketTxItem) :
    sizes (items.filter p) + sizes (items.filter fun item => !p item) = sizes items := by
  induction items with
  | nil => rfl
  | cons item rest ih =>
      cases hp : p item <;> simp [hp] <;> omega

theorem sizes_of_packets {items items' : List QuicSocketTxItem}
    (heq : items'.map (·.packet) = items.map (·.packet)) : sizes items' = sizes items := by
  have hlengths := congrArg (fun packets => (packets.map List.length).sum) heq
  simpa [sizes, List.map_map, Function.comp_def] using hlengths

/-- The operations that keep the keys of a sent list keep its bytes. -/
theorem sizes_of_key {items items' : List QuicSocketTxItem}
    (hkey : items'.map key = items.map key) : sizes items' = sizes items := by
  apply sizes_of_packets
  have hpackets := congrArg (List.map Prod.fst) hkey
  simpa [List.map_map, Function.comp_def, key] using hpackets

theorem queueSize_addScheduleItem (item : QuicSocketTxScheduleItem) (s : QuicSocketTxScheduler) :
    queueSize (s.addScheduleItem item).appList =
      item.item.packet.length + queueSize s.appList := by
  have hperm := List.perm_orderedInsert QuicSocketTxScheduleItem.Before item s.appList
  have hsum := (hperm.map fun scheduled => scheduled.item.packet.length).sum_nat
  rw [List.map_cons, List.sum_cons] at hsum
  exact hsum

/-! ## Counters of 32 bits -/

theorem wrapAdd_mod (total n : Nat) : wrapAdd (total % 2 ^ 32) n = (total + n) % 2 ^ 32 := by
  unfold wrapAdd
  exact Nat.mod_add_mod ..

theorem wrapSub_mod {total n : Nat} (hle : n ≤ total) :
    wrapSub (total % 2 ^ 32) n = (total - n) % 2 ^ 32 := by
  unfold wrapSub
  omega

/-- A counter that loses the packets of a list, one after the other. -/
theorem foldl_wrapSub_mod {items : List QuicSocketTxItem} {total : Nat}
    (hle : sizes items ≤ total) :
    items.foldl (fun size item => wrapSub size item.packet.length) (total % 2 ^ 32) =
      (total - sizes items) % 2 ^ 32 := by
  induction items generalizing total with
  | nil => rfl
  | cons item rest ih =>
      rw [sizes_cons] at hle
      rw [List.foldl_cons, wrapSub_mod (by omega), ih (by omega), sizes_cons, Nat.sub_sub]

/-! ## The invariant -/

/-- The counters of the frames that wait are their sums modulo `2^32`. -/
structure WaitingAccounted (b : QuicSocketTxBuffer) : Prop where
  streamZero : b.streamZeroSize = sizes b.streamZeroList % 2 ^ 32
  frames : b.numFrameStream0InBuffer = b.streamZeroList.length % 2 ^ 32
  queue : b.scheduler.appSize = queueSize b.scheduler.appList % 2 ^ 32

/-- Every counter is the sum it stands for, modulo `2^32`. -/
structure Accounted (b : QuicSocketTxBuffer) : Prop extends WaitingAccounted b where
  sent : b.sentSizeList = b.subflowSentList.map (sizes · % 2 ^ 32)

section
variable {family : List (List QuicSocketTxItem)} {counters : List Nat} {i : Nat}

/-- Rewriting a list, and its counter to match, keeps the counters. -/
theorem counters_modify (hcounters : counters = family.map (sizes · % 2 ^ 32))
    {f : List QuicSocketTxItem → List QuicSocketTxItem} {g : Nat → Nat}
    (hfg : g (sizes (family.getD i []) % 2 ^ 32) = sizes (f (family.getD i [])) % 2 ^ 32) :
    counters.modify i g = (family.modify i f).map (sizes · % 2 ^ 32) := by
  subst hcounters
  apply List.ext_getElem?
  intro j
  rw [List.getElem?_modify, List.getElem?_map, List.getElem?_map, List.getElem?_modify]
  cases hj : family[j]? with
  | none => rfl
  | some items =>
      by_cases heq : i = j
      · subst heq
        rw [List.getD_eq_getElem?_getD, hj] at hfg
        simpa using hfg
      · simp [heq]

/-- The counter at an index is the sum of the list there. -/
theorem counters_getD (hcounters : counters = family.map (sizes · % 2 ^ 32)) (i : Nat) :
    counters.getD i 0 = sizes (family.getD i []) % 2 ^ 32 := by
  subst hcounters
  rw [List.getD_eq_getElem?_getD, List.getD_eq_getElem?_getD, List.getElem?_map]
  cases family[i]? <;> rfl

/-- The lists that a predicate removes from a list leave its counter. -/
theorem counters_filter (hcounters : counters = family.map (sizes · % 2 ^ 32))
    (p : QuicSocketTxItem → Bool) {removed : List QuicSocketTxItem}
    (hremoved : sizes removed = sizes ((family.getD i []).filter p)) :
    (counters.modify i fun size =>
        removed.foldl (fun size item => wrapSub size item.packet.length) size) =
      (family.modify i fun items => items.filter fun item => !p item).map (sizes · % 2 ^ 32) := by
  have hsplit := sizes_filter p (family.getD i [])
  apply counters_modify hcounters
  rw [foldl_wrapSub_mod (by omega)]
  congr 1
  omega

end

theorem Accounted.modifySentList {b : QuicSocketTxBuffer} (hb : Accounted b) {pathId : Nat}
    {f : List QuicSocketTxItem → List QuicSocketTxItem}
    (hf : sizes (f (b.sentList pathId)) = sizes (b.sentList pathId)) :
    Accounted (b.modifySentList pathId f) where
  toWaitingAccounted := ⟨hb.streamZero, hb.frames, hb.queue⟩
  sent := by
    have hmodify := counters_modify (i := pathId) (f := f) (g := id) hb.sent (by
      show sizes (b.sentList pathId) % 2 ^ 32 = sizes (f (b.sentList pathId)) % 2 ^ 32
      rw [hf])
    rwa [List.modify_id] at hmodify

theorem Accounted.cleanSentList {b : QuicSocketTxBuffer} (hb : Accounted b) (pathId : Nat) :
    Accounted (b.cleanSentList pathId) where
  toWaitingAccounted := ⟨hb.streamZero, hb.frames, hb.queue⟩
  sent := counters_filter hb.sent (fun item => item.sacked && !item.lost) rfl

/-- An ACK flags packets, declares others lost, and removes those that arrived. -/
theorem Accounted.onAckUpdate {b : QuicSocketTxBuffer} (hb : Accounted b)
    (tcb : QuicSocketState) (largest : Nat) (blocks gaps : List Nat) (pathId : Nat) (now : Int) :
    Accounted (b.onAckUpdate tcb largest blocks gaps pathId now).2 := by
  apply Accounted.cleanSentList
  apply hb.modifySentList
  show sizes (lossWalk tcb largest false none
    (ackBlocks now (largest :: blocks) gaps (b.sentList pathId).reverse).1).reverse = _
  rw [sizes_reverse, sizes_of_key (lossWalk_key ..), sizes_of_packets (ackBlocks_packet ..),
    sizes_reverse]

/-! ## New data and new packets -/

theorem Accounted.add {b : QuicSocketTxBuffer} (hb : Accounted b) (p : List UInt8) (now : Int) :
    Accounted (b.add p now).2 := by
  unfold QuicSocketTxBuffer.add
  dsimp only
  split
  · split
    · split
      · exact hb
      · split
        · refine ⟨⟨?_, ?_, hb.queue⟩, hb.sent⟩
          · dsimp only
            rw [hb.streamZero, wrapAdd_mod, sizes_append]
            rfl
          · dsimp only
            rw [hb.frames, wrapAdd_mod, List.length_append]
            rfl
        · refine ⟨⟨hb.streamZero, hb.frames, ?_⟩, hb.sent⟩
          show wrapAdd b.scheduler.appSize p.length =
            queueSize (addScheduleItem _ b.scheduler).appList % 2 ^ 32
          rw [hb.queue, wrapAdd_mod, queueSize_addScheduleItem, Nat.add_comm]
    · exact hb
  · exact hb

/-- A packet that goes to a sent list is added to its counter. -/
theorem counters_append {family : List (List QuicSocketTxItem)} {counters : List Nat}
    (hcounters : counters = family.map (sizes · % 2 ^ 32)) (i : Nat) (item : QuicSocketTxItem) :
    counters.modify i (wrapAdd · item.packet.length) =
      (family.modify i (· ++ [item])).map (sizes · % 2 ^ 32) := by
  apply counters_modify hcounters
  rw [wrapAdd_mod, sizes_append, sizes_cons, sizes_nil, Nat.add_zero]

theorem Accounted.nextStream0Sequence {b : QuicSocketTxBuffer} (hb : Accounted b) (seq : Nat)
    (now : Int) : Accounted (b.nextStream0Sequence seq now).2 := by
  unfold QuicSocketTxBuffer.nextStream0Sequence
  split
  · exact hb
  · rename_i current rest hlist
    have hzero := hb.streamZero
    have hframes := hb.frames
    rw [hlist] at hzero hframes
    refine ⟨⟨?_, ?_, hb.queue⟩, counters_append hb.sent 0
      { packet := current.packet, packetNumber := seq, lastSent := now,
        isStream0 := current.isStream0, generated := now }⟩
    · dsimp only
      rw [hzero, sizes_cons, wrapSub_mod (Nat.le_add_right ..), Nat.add_sub_cancel_left]
    · dsimp only
      rw [hframes, List.length_cons, wrapSub_mod (Nat.le_add_left ..), Nat.add_sub_cancel]

/-- What is popped from the queue, and what goes back to it, is counted. -/
theorem segmentLoop_accounted (numBytes : Nat) {queue : List QuicSocketTxScheduleItem}
    {appSize : Nat} (hsize : appSize = queueSize queue % 2 ^ 32) (outItem : QuicSocketTxItem) :
    let s := (segmentLoop numBytes queue appSize outItem).2
    s.appSize = queueSize s.appList % 2 ^ 32 := by
  induction queue generalizing appSize outItem with
  | nil => exact hsize
  | cons top rest ih =>
      have hpopped : wrapSub appSize top.item.packet.length = queueSize rest % 2 ^ 32 := by
        rw [hsize, queueSize_cons, wrapSub_mod (Nat.le_add_right ..), Nat.add_sub_cancel_left]
      have hback : ∀ item : QuicSocketTxScheduleItem, wrapAdd
          (wrapSub appSize top.item.packet.length) item.item.packet.length =
          queueSize (addScheduleItem item ⟨rest, wrapSub appSize top.item.packet.length⟩).appList
            % 2 ^ 32 := by
        intro item
        rw [hpopped, wrapAdd_mod, queueSize_addScheduleItem, Nat.add_comm]
      unfold segmentLoop
      dsimp only
      split
      · exact hsize
      split
      · exact ih hpopped _
      split
      · exact hback top
      · exact hback _

theorem Accounted.nextSequence {b : QuicSocketTxBuffer} (hb : Accounted b)
    (numBytes seq pathId : Nat) (now : Int) :
    Accounted (b.nextSequence numBytes seq pathId now).2 := by
  have hqueue := segmentLoop_accounted numBytes hb.queue { isStream := true, generated := now }
  unfold QuicSocketTxBuffer.nextSequence getNewSegment
  dsimp only
  generalize segmentLoop numBytes b.scheduler.appList b.scheduler.appSize
    { isStream := true, generated := now } = result at hqueue
  split
  · exact ⟨⟨hb.streamZero, hb.frames, hqueue⟩, counters_append hb.sent pathId
      { result.1 with packetNumber := seq, lastSent := now }⟩
  · exact ⟨⟨hb.streamZero, hb.frames, hqueue⟩, hb.sent⟩

/-! ## Retransmission -/

theorem retxFrame_waiting {state : QuicSocketTxBuffer × Nat × Nat}
    (hstate : WaitingAccounted state.1) (now : Int) (frame : QuicSubheader × List UInt8) :
    let b := (retxFrame now state frame).1
    WaitingAccounted b ∧ b.sentSizeList = state.1.sentSizeList ∧
      b.subflowSentList = state.1.subflowSentList := by
  refine ⟨⟨hstate.streamZero, hstate.frames, ?_⟩, rfl, rfl⟩
  show wrapAdd state.1.scheduler.appSize frame.2.length =
    queueSize (addScheduleItem _ state.1.scheduler).appList % 2 ^ 32
  rw [hstate.queue, wrapAdd_mod, queueSize_addScheduleItem, Nat.add_comm]

theorem retxFrames_waiting (now : Int) (frames : List (QuicSubheader × List UInt8))
    (state : QuicSocketTxBuffer × Nat × Nat) (hstate : WaitingAccounted state.1) :
    let b := (frames.foldl (retxFrame now) state).1
    WaitingAccounted b ∧ b.sentSizeList = state.1.sentSizeList ∧
      b.subflowSentList = state.1.subflowSentList := by
  induction frames generalizing state with
  | nil => exact ⟨hstate, rfl, rfl⟩
  | cons frame rest ih =>
      obtain ⟨hfirst, hsize, hsent⟩ := retxFrame_waiting hstate now frame
      obtain ⟨hrest, hsize', hsent'⟩ := ih _ hfirst
      exact ⟨hrest, hsize'.trans hsize, hsent'.trans hsent⟩

/-- A lost packet leaves the counter of its path, and its frames are counted where they wait. -/
theorem retxItem_waiting (pathId : Nat) (now : Int) {state : QuicSocketTxBuffer × Nat × Nat}
    (hstate : WaitingAccounted state.1) (item : QuicSocketTxItem) :
    let b := (retxItem pathId now state item).1
    WaitingAccounted b ∧ b.subflowSentList = state.1.subflowSentList ∧
      b.sentSizeList = if item.lost then
        state.1.sentSizeList.modify pathId (wrapSub · item.packet.length)
      else state.1.sentSizeList := by
  unfold retxItem
  dsimp only
  cases hlost : item.lost with
  | false => exact ⟨hstate, rfl, rfl⟩
  | true =>
      simp only [Bool.not_true, Bool.false_eq_true, if_false, if_true]
      split
      · refine ⟨⟨?_, ?_, hstate.queue⟩, rfl, rfl⟩
        · dsimp only
          rw [hstate.streamZero, wrapAdd_mod, sizes_cons, Nat.add_comm]
        · dsimp only
          rw [hstate.frames, wrapAdd_mod, List.length_cons]
      · obtain ⟨hwaiting, hsize, hsent⟩ := retxFrames_waiting now (retxFrames item.packet)
          ({ state.1 with
            sentSizeList := state.1.sentSizeList.modify pathId (wrapSub · item.packet.length) },
            state.2) ⟨hstate.streamZero, hstate.frames, hstate.queue⟩
        exact ⟨hwaiting, hsent, hsize⟩

/-- The counter of the path loses the lost packets, one after the other. -/
theorem retxItems_waiting (pathId : Nat) (now : Int) (items : List QuicSocketTxItem)
    (state : QuicSocketTxBuffer × Nat × Nat) (hstate : WaitingAccounted state.1) :
    let b := (items.foldl (retxItem pathId now) state).1
    WaitingAccounted b ∧ b.subflowSentList = state.1.subflowSentList ∧
      b.sentSizeList = state.1.sentSizeList.modify pathId fun size =>
        (items.filter (·.lost)).foldl (fun size item => wrapSub size item.packet.length) size := by
  induction items generalizing state with
  | nil => exact ⟨hstate, rfl, (List.modify_id ..).symm⟩
  | cons item rest ih =>
      obtain ⟨hfirst, hsent, hsize⟩ := retxItem_waiting pathId now hstate item
      obtain ⟨hrest, hsent', hsize'⟩ := ih _ hfirst
      refine ⟨hrest, hsent'.trans hsent, ?_⟩
      rw [List.foldl_cons, hsize', hsize]
      cases hlost : item.lost with
      | false => simp [hlost]
      | true =>
          rw [if_pos rfl, List.modify_modify_eq, List.filter_cons, if_pos hlost]
          rfl

theorem Accounted.retransmission {b : QuicSocketTxBuffer} (hb : Accounted b)
    (packetNumber pathId : Nat) (now : Int) :
    Accounted (b.retransmission packetNumber pathId now).2 := by
  obtain ⟨hwaiting, hsent, hsize⟩ := retxItems_waiting pathId now (b.sentList pathId).reverse
    (b, packetNumber, 0) hb.toWaitingAccounted
  unfold QuicSocketTxBuffer.retransmission
  dsimp only
  generalize (b.sentList pathId).reverse.foldl (retxItem pathId now) (b, packetNumber, 0) = state
    at hwaiting hsent hsize
  refine ⟨⟨hwaiting.streamZero, hwaiting.frames, hwaiting.queue⟩, ?_⟩
  show state.1.sentSizeList = (state.1.subflowSentList.modify pathId _).map _
  rw [hsize, hsent]
  apply counters_filter hb.sent
  rw [List.filter_reverse, sizes_reverse]
  rfl

/-! ## Subtractions -/

/-- The subtractions of a counter that loses the numbers of a list, one after the other: the
counter before each of them, and what it loses. -/
def decrementsOf : Nat → List Nat → List (Nat × Nat)
  | _, [] => []
  | counter, n :: rest => (counter, n) :: decrementsOf (wrapSub counter n) rest

/-- A counter is never below what it loses if it is at least all of it. -/
theorem decrementsOf_le {counter : Nat} {losses : List Nat} (hsum : losses.sum ≤ counter)
    (hlt : counter < 2 ^ 32) : ∀ d ∈ decrementsOf counter losses, d.2 ≤ d.1 := by
  induction losses generalizing counter with
  | nil => simp [decrementsOf]
  | cons n rest ih =>
      rw [List.sum_cons] at hsum
      intro d hd
      rcases List.mem_cons.1 hd with rfl | hd
      · dsimp only
        omega
      · rw [wrapSub_of_le (by omega) hlt] at hd
        exact ih (by omega) (by omega) d hd

/-- The sizes of the frames that `segmentLoop` pops from the queue. -/
def popped (numBytes : Nat) :
    List QuicSocketTxScheduleItem → Nat → QuicSocketTxItem → List Nat
  | [], _, _ => []
  | top :: rest, counter, outItem =>
      let size := top.item.packet.length
      if ¬ (counter > 0 ∧ outItem.packet.length < numBytes) then []
      else if outItem.packet.length + size ≤ numBytes then
        size :: popped numBytes rest (wrapSub counter size) (outItem.mergeItems top.item)
      else [size]

theorem popped_le (numBytes : Nat) (queue : List QuicSocketTxScheduleItem) (counter : Nat)
    (outItem : QuicSocketTxItem) : (popped numBytes queue counter outItem).sum ≤ queueSize queue := by
  induction queue generalizing counter outItem with
  | nil => simp [popped]
  | cons top rest ih =>
      have hrest := ih (wrapSub counter top.item.packet.length) (outItem.mergeItems top.item)
      unfold popped
      dsimp only
      rw [queueSize_cons]
      split
      · simp
      split
      · rw [List.sum_cons]
        omega
      · simp

namespace TxRun

/-- The subtractions that a call makes on the counters. -/
def decrements (b : QuicSocketTxBuffer) : TxEvent → List (Nat × Nat)
  | .nextStream0Sequence _ _ =>
      match b.streamZeroList with
      | [] => []
      | current :: _ =>
          [(b.streamZeroSize, current.packet.length), (b.numFrameStream0InBuffer, 1)]
  | .nextSequence numBytes _ _ now =>
      decrementsOf b.scheduler.appSize (popped numBytes b.scheduler.appList b.scheduler.appSize
        { isStream := true, generated := now })
  | .onAckUpdate tcb largest blocks gaps pathId now =>
      let sent := (lossWalk tcb largest false none
        (ackBlocks now (largest :: blocks) gaps (b.sentList pathId).reverse).1).reverse
      let cleaned := sent.filter fun item => item.sacked && !item.lost
      decrementsOf (b.sentSizeList.getD pathId 0) (cleaned.map (·.packet.length))
  | .retransmission _ pathId _ =>
      let lost := (b.sentList pathId).reverse.filter (·.lost)
      decrementsOf (b.sentSizeList.getD pathId 0) (lost.map (·.packet.length))
  | .add .. | .addSentList .. | .resetSentList .. | .markAsLost .. | .markHeadAsLost ..
  | .markAllOutstandingAsLost .. => []

/-- The sums that the counters of a buffer stand for fit in 32 bits. -/
structure SumsFit (b : QuicSocketTxBuffer) : Prop where
  sent : ∀ pathId, sizes (b.sentList pathId) < 2 ^ 32
  streamZero : sizes b.streamZeroList < 2 ^ 32
  frames : b.streamZeroList.length < 2 ^ 32
  queue : queueSize b.scheduler.appList < 2 ^ 32

/-- Every counter is the sum it stands for. -/
structure CountersExact (b : QuicSocketTxBuffer) : Prop where
  sent : b.sentSizeList = b.subflowSentList.map sizes
  streamZero : b.streamZeroSize = sizes b.streamZeroList
  frames : b.numFrameStream0InBuffer = b.streamZeroList.length
  queue : b.scheduler.appSize = queueSize b.scheduler.appList

theorem countersExact {b : QuicSocketTxBuffer} (hb : Accounted b) (hfit : SumsFit b) :
    CountersExact b where
  sent := by
    rw [hb.sent]
    apply List.map_congr_left
    intro items hitems
    obtain ⟨pathId, hlt, rfl⟩ := List.getElem_of_mem hitems
    have hfits := hfit.sent pathId
    unfold sentList at hfits
    rw [List.getD_eq_getElem _ _ hlt] at hfits
    exact Nat.mod_eq_of_lt hfits
  streamZero := by rw [hb.streamZero, Nat.mod_eq_of_lt hfit.streamZero]
  frames := by rw [hb.frames, Nat.mod_eq_of_lt hfit.frames]
  queue := by rw [hb.queue, Nat.mod_eq_of_lt hfit.queue]

/-- What a predicate finds in a sent list can be subtracted from the counter of the path. -/
theorem decrementsOf_sent_le {b : QuicSocketTxBuffer} (hb : Accounted b) (hfit : SumsFit b)
    (pathId : Nat) {sent : List QuicSocketTxItem} (hsent : sizes sent = sizes (b.sentList pathId))
    (p : QuicSocketTxItem → Bool) :
    ∀ d ∈ decrementsOf (b.sentSizeList.getD pathId 0) ((sent.filter p).map (·.packet.length)),
      d.2 ≤ d.1 := by
  have hcounter : b.sentSizeList.getD pathId 0 = sizes (b.sentList pathId) := by
    rw [counters_getD hb.sent]
    exact Nat.mod_eq_of_lt (hfit.sent pathId)
  have hsplit := sizes_filter p sent
  apply decrementsOf_le
  · show sizes (sent.filter p) ≤ _
    omega
  · rw [hcounter]
    exact hfit.sent pathId

theorem decrements_le {b : QuicSocketTxBuffer} (hb : Accounted b) (hfit : SumsFit b)
    (event : TxEvent) : ∀ d ∈ decrements b event, d.2 ≤ d.1 := by
  have hexact := countersExact hb hfit
  cases event with
  | nextStream0Sequence seq now =>
      have hsize := hexact.streamZero
      have hframes := hexact.frames
      cases hlist : b.streamZeroList with
      | nil => simp [decrements, hlist]
      | cons current rest =>
          rw [hlist] at hsize hframes
          simp [decrements, hlist, hsize, hframes]
  | nextSequence numBytes seq pathId now =>
      have hpopped := popped_le numBytes b.scheduler.appList b.scheduler.appSize
        { isStream := true, generated := now }
      have hqueue := hfit.queue
      rw [← hexact.queue] at hpopped hqueue
      exact decrementsOf_le hpopped hqueue
  | onAckUpdate tcb largest blocks gaps pathId now =>
      apply decrementsOf_sent_le hb hfit pathId
      rw [sizes_reverse, sizes_of_key (lossWalk_key ..), sizes_of_packets (ackBlocks_packet ..),
        sizes_reverse]
  | retransmission packetNumber pathId now =>
      exact decrementsOf_sent_le hb hfit pathId (sizes_reverse _) _
  | add | addSentList | resetSentList | markAsLost | markHeadAsLost
  | markAllOutstandingAsLost => simp [decrements]

/-! ## The run -/

theorem start_accounted (maxBuffer : Nat) : Accounted (start maxBuffer).buffer :=
  ⟨⟨rfl, rfl, rfl⟩, rfl⟩

theorem step_accounted {r : TxRun} (event : TxEvent) (hr : Accounted r.buffer) :
    Accounted (r.step event).buffer := by
  cases event with
  | add p now => exact hr.add p now
  | nextStream0Sequence seq now => exact hr.nextStream0Sequence seq now
  | nextSequence numBytes seq pathId now => exact hr.nextSequence numBytes seq pathId now
  | onAckUpdate tcb largest blocks gaps pathId now =>
      exact hr.onAckUpdate tcb largest blocks gaps pathId now
  | addSentList pathId =>
      refine ⟨⟨hr.streamZero, hr.frames, hr.queue⟩, ?_⟩
      show r.buffer.sentSizeList ++ List.replicate _ 0 =
        (r.buffer.subflowSentList ++ List.replicate _ []).map (sizes · % 2 ^ 32)
      rw [hr.sent, List.map_append, List.map_replicate]
      rfl
  | resetSentList pathId keepItems =>
      apply hr.modifySentList
      rw [sizes_reverse, sizes_of_key (resetWalk_key ..), sizes_reverse]
  | markAsLost seq pathId =>
      exact hr.modifySentList (sizes_of_key (map_markLost_key ..))
  | markHeadAsLost pathId =>
      show Accounted (r.buffer.markHeadAsLost pathId).2
      unfold markHeadAsLost
      split
      · exact hr
      · exact hr.modifySentList (sizes_of_key (markHead_key _))
  | markAllOutstandingAsLost pathId =>
      show Accounted (r.buffer.markAllOutstandingAsLost pathId).2
      unfold markAllOutstandingAsLost
      split
      · exact hr
      · exact hr.modifySentList (sizes_of_key (map_markLost_key ..))
  | retransmission packetNumber pathId now =>
      exact hr.retransmission packetNumber pathId now

theorem run_accounted (maxBuffer : Nat) (events : List TxEvent) :
    Accounted (Run.run step (start maxBuffer) events).buffer :=
  Run.invariant (I := fun r : TxRun => Accounted r.buffer)
    (fun _ event hr => step_accounted event hr) (start_accounted maxBuffer)

/-- Whatever the socket does with its buffer, every counter is the sum it stands for modulo
`2^32`. As long as the sums fit in 32 bits the counters are the sums, and no call subtracts more
from a counter than it holds. -/
theorem run_accounts_bytes (maxBuffer : Nat) (events : List TxEvent) :
    let b := (Run.run step (start maxBuffer) events).buffer
    Accounted b ∧
      (SumsFit b → CountersExact b ∧ ∀ event, ∀ d ∈ decrements b event, d.2 ≤ d.1) := by
  have haccounted := run_accounted maxBuffer events
  refine ⟨haccounted, ?_⟩
  intro hfit
  exact ⟨countersExact haccounted hfit, decrements_le haccounted hfit⟩

/-- A frame of data that fits is taken by the scheduler. -/
theorem add_data {b : QuicSocketTxBuffer} {fr : StreamFrame} (hstream : fr.streamId % 2 ^ 32 ≠ 0)
    (hfits : fr.encode.length ≤ b.available) (now : Int) :
    ∃ item, item.packet = fr.encode ∧ b.add fr.encode now =
      (true, { b with scheduler := b.scheduler.add item false now }) := by
  obtain ⟨hsize, hpos⟩ := fr.header_getSerializedSize
  have hpeek := peekHeader_encode fr []
  rw [List.append_nil] at hpeek
  unfold QuicSocketTxBuffer.add
  rw [hpeek]
  dsimp only
  rw [StreamFrame.header_streamId, if_pos hfits, if_pos fr.encode_pos, if_neg (by omega),
    if_neg hstream]
  exact ⟨_, rfl, rfl⟩

/-- A single frame that fits is taken whole from the queue, which is empty then. -/
theorem getNewSegment_single (scheduled : QuicSocketTxScheduleItem) {numBytes : Nat}
    (hpos : 0 < scheduled.item.packet.length)
    (hfits : scheduled.item.packet.length ≤ numBytes)
    (hlt : scheduled.item.packet.length < 2 ^ 32) (now : Int) :
    ∃ outItem : QuicSocketTxItem, outItem.packet = scheduled.item.packet ∧
      getNewSegment numBytes now ⟨[scheduled], scheduled.item.packet.length⟩ = (outItem, {}) := by
  have hloop : scheduled.item.packet.length > 0 ∧ 0 < numBytes := ⟨hpos, by omega⟩
  unfold getNewSegment segmentLoop
  dsimp only
  rw [List.length_nil, if_neg (not_not.2 hloop), if_pos (by simpa using hfits)]
  unfold segmentLoop
  rw [wrapSub_of_le (Nat.le_refl _) hlt, Nat.sub_self]
  exact ⟨_, by simp [QuicSocketTxItem.mergeItems], rfl⟩

/-- A frame that is added to an empty queue and sent whole is in the sent list of path 0. -/
theorem add_nextSequence {b : QuicSocketTxBuffer} {fr : StreamFrame}
    (hstream : fr.streamId % 2 ^ 32 ≠ 0) (hzero : b.streamZeroSize = 0)
    (hqueue : b.scheduler = {}) (hpath : 0 < b.subflowSentList.length)
    (hfits : fr.encode.length ≤ b.maxBuffer) (hmax : b.maxBuffer < 2 ^ 32) (seq : Nat) :
    let b' := ((b.add fr.encode 0).2.nextSequence fr.encode.length seq 0 0).2
    b'.streamZeroSize = 0 ∧ b'.scheduler = {} ∧ 0 < b'.subflowSentList.length ∧
      b'.maxBuffer = b.maxBuffer ∧
      sizes (b'.sentList 0) = sizes (b.sentList 0) + fr.encode.length := by
  have havailable : b.available = b.maxBuffer := by
    unfold available
    rw [hzero, hqueue]
    unfold wrapSub
    simp
    omega
  obtain ⟨item, hitem, hadd⟩ := add_data hstream (havailable ▸ hfits) 0
  let scheduled : QuicSocketTxScheduleItem :=
    { streamId := (peekHeader item.packet).2.streamId
      offset := (peekHeader item.packet).2.offset
      priority := 0
      item }
  have hscheduled : b.scheduler.add item false 0 = ⟨[scheduled], fr.encode.length⟩ := by
    rw [hqueue]
    show QuicSocketTxScheduler.mk [scheduled] (wrapAdd 0 item.packet.length) = _
    unfold wrapAdd
    rw [hitem, Nat.zero_add, Nat.mod_eq_of_lt (by omega)]
  have hpacket : scheduled.item.packet = fr.encode := hitem
  obtain ⟨outItem, hout, hsegment⟩ := getNewSegment_single scheduled
    (hpacket ▸ fr.encode_pos) (Nat.le_refl _) (by rw [hpacket]; omega) 0
  rw [hpacket] at hout hsegment
  rw [hadd, hscheduled]
  unfold QuicSocketTxBuffer.nextSequence
  dsimp only
  rw [hsegment]
  dsimp only
  rw [hout, if_pos fr.encode_pos]
  refine ⟨hzero, rfl, ?_, rfl, ?_⟩
  · rw [List.length_modify]
    exact hpath
  · unfold sentList
    dsimp only
    rw [List.getD_eq_getElem _ _ (by rwa [List.length_modify]), List.getElem_modify, if_pos rfl,
      List.getD_eq_getElem _ _ hpath, sizes_append]
    rfl

/-- A frame is added and sent twice. -/
def sentTwice (fr : StreamFrame) : List TxEvent :=
  [.add fr.encode 0, .nextSequence fr.encode.length 1 0 0,
    .add fr.encode 0, .nextSequence fr.encode.length 2 0 0]

theorem step_add_buffer (r : TxRun) (p : List UInt8) (now : Int) :
    (r.step (.add p now)).buffer = (r.buffer.add p now).2 := rfl

theorem step_nextSequence_buffer (r : TxRun) (numBytes seq pathId : Nat) (now : Int) :
    (r.step (.nextSequence numBytes seq pathId now)).buffer =
      (r.buffer.nextSequence numBytes seq pathId now).2 := rfl

theorem sentTwice_sizes {maxBuffer : Nat} {fr : StreamFrame} (hstream : fr.streamId % 2 ^ 32 ≠ 0)
    (hfits : fr.encode.length ≤ maxBuffer) (hmax : maxBuffer < 2 ^ 32) :
    sizes ((Run.run step (start maxBuffer) (sentTwice fr)).buffer.sentList 0) =
      2 * fr.encode.length := by
  obtain ⟨hzero, hqueue, hpath, hkept, hfirst⟩ := add_nextSequence (b := (start maxBuffer).buffer)
    hstream rfl rfl (by simp [start]) hfits hmax 1
  obtain ⟨-, -, -, -, hsecond⟩ := add_nextSequence hstream hzero hqueue hpath (by rwa [hkept])
    (by rwa [hkept]) 2
  have hstart : sizes ((start maxBuffer).buffer.sentList 0) = 0 := rfl
  unfold sentTwice
  rw [Run.run_cons, Run.run_cons, Run.run_cons, Run.run_cons, Run.run_nil,
    step_nextSequence_buffer, step_add_buffer, step_nextSequence_buffer, step_add_buffer, hsecond,
    hfirst, hstart]
  omega

/-- A frame of more than 2 GiB. -/
def hugeFrame : StreamFrame where
  streamId := 4
  offset := 0
  payload := List.replicate (2 ^ 31) 0
  offBit := false
  fin := false
  streamId_lt := firstBytes.streamId_lt
  payload_ne := by
    rw [Ne, List.replicate_eq_nil_iff]
    decide
  length_lt := by
    rw [List.length_replicate]
    decide
  end_le := by
    rw [List.length_replicate]
    decide
  offset_eq := firstBytes.offset_eq

theorem hugeFrame_length : 2 ^ 31 ≤ hugeFrame.encode.length ∧ hugeFrame.encode.length < 2 ^ 32 := by
  have hpayload : hugeFrame.payload.length = 2 ^ 31 := List.length_replicate
  have hheader : hugeFrame.header.serialize.length ≤ 20 := by
    unfold StreamFrame.header
    rw [hpayload]
    decide
  unfold StreamFrame.encode
  rw [List.length_append, hpayload]
  omega

/-- A buffer of 4 GiB takes a frame of more than 2 GiB twice, and sends it twice: the counter of
the path wraps. -/
theorem not_run_counts_bytes : ¬ ∀ (maxBuffer : Nat) (events : List TxEvent),
    maxBuffer < 2 ^ 32 →
      let b := (Run.run step (start maxBuffer) events).buffer
      CountersExact b ∧ ∀ event, ∀ d ∈ decrements b event, d.2 ≤ d.1 := by
  intro hall
  obtain ⟨hlow, hhigh⟩ := hugeFrame_length
  obtain ⟨hexact, -⟩ := hall (2 ^ 32 - 1) (sentTwice hugeFrame) (by decide)
  have hsum : sizes ((Run.run step (start (2 ^ 32 - 1)) (sentTwice hugeFrame)).buffer.sentList 0) =
      2 * hugeFrame.encode.length :=
    sentTwice_sizes (by decide) (by omega) (by decide)
  have hwrapped := counters_getD (run_accounted (2 ^ 32 - 1) (sentTwice hugeFrame)).sent 0
  have hcounter := List.getD_map (l := (Run.run step (start (2 ^ 32 - 1))
    (sentTwice hugeFrame)).buffer.subflowSentList) (d := []) (n := 0) sizes
  rw [hexact.sent] at hwrapped
  rw [sizes_nil] at hcounter
  unfold sentList at hsum
  omega

end TxRun

end NtnIab.Quic
