import Mathlib.Logic.Relation
import NtnIab.Library.Ranking
import NtnIab.Quic.PendingData
import NtnIab.Quic.SegmentAssembly
import NtnIab.Quic.TxCapacity

/-!
# The progress of the sending loops

A call of `SendPendingData` sends the frames of stream 0 first, and then what the windows of the
paths let out. The loop over the packets of a path looks whether the last packet made a difference,
and is left if not. The loop over the frames of stream 0 does not look, and goes on as long as there
is a frame. In the draining period `SendDataPacket` takes none.

## Strategy

A packet has no more bytes than it was asked for, also if a frame was cut for it
(`segmentLoop_fits`), so that the bytes in flight do not come round to a smaller number
(`sendDataPacket_fits`). They rise to the window, and between two rises the buffer gets smaller,
which is the rank of the loop over the packets of a path (`Sending.exists_leaves`). The loop over
the frames of stream 0 makes the buffer smaller if it sends at all (`Pending.iterates`), and goes on
as it was if not (`Stuck.iterates`).
-/

namespace NtnIab.Quic

open QuicSocketBase QuicSocketTxScheduler SendLoop

/-! ## One iteration -/

section
variable (onPacketSent : Tcb → Nat → Bool → Tcb)

/-- An iteration of the loop over the frames of stream 0, if the loop is not left. -/
def stream0Iteration (s : QuicSocketBase) : Option QuicSocketBase :=
  if ¬ s.txBuffer.numFrameStream0InBuffer > 0 then none
  else if (s.subflow 0).tcb.pacing ∧ s.pacingTimer then none
  else
    let (next, s) := s.nextPacketNumber 0
    some (s.sendDataPacket onPacketSent next 0 (s.subflow 0).queueAck 0).2

/-- One iteration of the loop leads from one state to the other. -/
def Iterates (s s' : QuicSocketBase) : Prop := stream0Iteration onPacketSent s = some s'

theorem sendStream0_succ (fuel : Nat) (s : QuicSocketBase) :
    sendStream0 onPacketSent (fuel + 1) s =
      match stream0Iteration onPacketSent s with
      | none => some s
      | some s' => sendStream0 onPacketSent fuel s' := by
  rw [sendStream0]
  unfold stream0Iteration
  split_ifs <;> rfl

end

/-- The loop over the packets of a path runs. -/
def Running (tosend : List Nat) (l : SendLoop) : Prop :=
  ¬ (l.returned ∨ ¬ l.pathId < tosend.length)

/-- The loop over the packets of the path is left for the next path, or with the function. -/
def Leaves (l l' : SendLoop) : Prop := l'.returned ∨ l'.pathId = (l.pathId + 1) % 2 ^ 8

/-- There is less in the buffer, or more in flight on a path. -/
def Advances (s s' : QuicSocketBase) : Prop :=
  s'.txBuffer.appSize < s.txBuffer.appSize ∨
    ∃ pathId, s.bytesInFlight pathId < s'.bytesInFlight pathId

/-! ## What is claimed -/

section
variable (onPacketSent : Tcb → Nat → Bool → Tcb)
  (notifySend : QuicSocketBase → QuicSocketBase) (withAck : Bool)

/-- Each iteration of a loop advances or leaves it, and the loops end. There are path ids for less
than 256 paths. -/
structure Progresses (s : QuicSocketBase) : Prop where
  stream0 : ∀ s' s'', Relation.ReflTransGen (Iterates onPacketSent) s s' →
    Iterates onPacketSent s' s'' → Advances s' s''
  stream0Ends : ∃ fuel s₀, sendStream0 onPacketSent fuel s = some s₀
  paths : ∀ fuel s₀ tosend n, sendStream0 onPacketSent fuel s = some s₀ →
    let l := after onPacketSent notifySend withAck tosend n s₀
    let l' := after onPacketSent notifySend withAck tosend (n + 1) s₀
    Running tosend l → Leaves l l' ∨ Advances l.socket l'.socket
  pathsEnd : ∀ fuel s₀ tosend n, sendStream0 onPacketSent fuel s = some s₀ →
    let l := after onPacketSent notifySend withAck tosend n s₀
    Running tosend l →
      ∃ m, Leaves l (after onPacketSent notifySend withAck tosend (n + m) s₀)
  returns : ∀ fuel s₀ tosend, sendStream0 onPacketSent fuel s = some s₀ →
    tosend.length < 2 ^ 8 →
      ∃ n, ¬ Running tosend (after onPacketSent notifySend withAck tosend n s₀)

end

/-! ## What it depends on -/

/-- The draining period runs, and a frame of stream 0 waits that is not held back by pacing. -/
def Stuck (s : QuicSocketBase) : Prop :=
  s.drainingPeriodEvent ∧ s.txBuffer.numFrameStream0InBuffer > 0 ∧
    ¬ ((s.subflow 0).tcb.pacing ∧ s.pacingTimer)

instance (s : QuicSocketBase) : Decidable (Stuck s) := inferInstanceAs (Decidable (_ ∧ _ ∧ _))

/-- An application that is asked for more data writes it to the streams, which hand it on later. -/
structure WritesToStreams (notifySend : QuicSocketBase → QuicSocketBase) : Prop where
  txBuffer : ∀ s, (notifySend s).txBuffer = s.txBuffer
  maxData : ∀ s, (notifySend s).maxData = s.maxData

/-- What waits in the queue: a STREAM frame with its length, or a frame that is its subheader. -/
def PendingFrame (packet : List UInt8) : Prop :=
  (∃ fr : LenFrame, packet = fr.encode) ∨
    packet.length ≤ (peekHeader packet).2.getSerializedSize ∧
      (peekHeader packet).2.getSerializedSize ≤ 2 ^ 31

/-- A socket whose bytes are counted, that has only frames to send. -/
structure Pending (s : QuicSocketBase) : Prop where
  accounted : Accounted s.txBuffer
  waiting_lt : waiting s.txBuffer < 2 ^ 32
  nonempty : ∀ item ∈ s.txBuffer.streamZeroList, item.packet ≠ []
  frames : ∀ item ∈ s.txBuffer.scheduler.appList, PendingFrame item.item.packet
  maxData_lt : s.maxData < 2 ^ 32

/-! ## Packets -/

theorem pendingFrame_back (fr : LenFrame) (n : Nat) : PendingFrame (fr.back n).encode :=
  Or.inl ⟨fr.back n, rfl⟩

/-- A frame that does not fit whole, but in part, is a STREAM frame with more data than that. -/
theorem PendingFrame.exists_lenFrame {packet : List UInt8} (hframe : PendingFrame packet)
    {numBytes out : Nat} (hout : out ≤ numBytes) (hbig : numBytes < out + packet.length)
    (hpart : newPacketSize numBytes out (peekHeader packet).2.getSerializedSize ≠ 0) :
    ∃ fr : LenFrame, packet = fr.encode ∧ (peekHeader packet).2 = fr.header ∧
      newPacketSize numBytes out (peekHeader packet).2.getSerializedSize < fr.payload.length := by
  rcases hframe with ⟨fr, rfl⟩ | ⟨hheader, hsize⟩
  · have hpeek : (peekHeader fr.encode).2 = fr.header := by
      rw [← List.append_nil fr.encode, fr.peekHeader_encode]
    rw [hpeek] at hpart ⊢
    have hle := newPacketSize_le hout (fr.header.getSerializedSize_le.trans (by decide))
    rw [fr.length_encode] at hbig
    exact ⟨fr, rfl, rfl, by omega⟩
  · have hle := newPacketSize_le hout hsize
    omega

/-- A packet has no more bytes than it was asked for, and the queue is left with frames. -/
theorem segmentLoop_fits (numBytes : Nat) {queue : List QuicSocketTxScheduleItem}
    (hframes : ∀ item ∈ queue, PendingFrame item.item.packet) (counter : Nat)
    (outItem : QuicSocketTxItem) (hout : outItem.packet.length ≤ numBytes) :
    let result := segmentLoop numBytes queue counter outItem
    result.1.packet.length ≤ numBytes ∧
      ∀ item ∈ result.2.appList, PendingFrame item.item.packet := by
  induction queue generalizing counter outItem with
  | nil => exact ⟨hout, hframes⟩
  | cons top rest ih =>
      obtain ⟨htop, hrest⟩ := List.forall_mem_cons.1 hframes
      have hback : ∀ (item : QuicSocketTxScheduleItem) (appSize : Nat),
          PendingFrame item.item.packet → ∀ other ∈ (addScheduleItem item ⟨rest, appSize⟩).appList,
            PendingFrame other.item.packet := by
        intro item appSize hitem other hother
        rcases mem_addScheduleItem.1 hother with rfl | hother
        · exact hitem
        · exact hrest other hother
      unfold segmentLoop
      dsimp only
      by_cases hdone : ¬ (counter > 0 ∧ outItem.packet.length < numBytes)
      · rw [if_pos hdone]
        exact ⟨hout, hframes⟩
      rw [if_neg hdone]
      by_cases hwhole : outItem.packet.length + top.item.packet.length ≤ numBytes
      · rw [if_pos hwhole]
        refine ih hrest _ _ ?_
        unfold QuicSocketTxItem.mergeItems
        rwa [List.length_append]
      rw [if_neg hwhole]
      by_cases hnone : newPacketSize numBytes outItem.packet.length
          (peekHeader top.item.packet).2.getSerializedSize = 0
      · rw [if_pos hnone]
        exact ⟨hout, hback top _ htop⟩
      · rw [if_neg hnone]
        obtain ⟨fr, hpacket, hpeek, hlt⟩ := htop.exists_lenFrame hout (Nat.not_le.1 hwhole) hnone
        rw [hpeek] at hlt hnone ⊢
        have hle := newPacketSize_le hout (fr.header.getSerializedSize_le.trans (by decide))
        generalize newPacketSize numBytes outItem.packet.length fr.header.getSerializedSize = n
          at hlt hnone hle
        have hfront : (fr.front n).encode.length ≤ fr.header.getSerializedSize + n := by
          rw [LenFrame.length_encode]
          exact Nat.add_le_add (fr.header_front_le n) (List.length_take_le ..)
        rw [hpacket, fr.splitPacket_encode hlt]
        refine ⟨?_, hback _ _ (pendingFrame_back fr n)⟩
        unfold QuicSocketTxItem.mergeItems
        dsimp only
        rw [List.length_append]
        omega

/-! ## Bytes in flight -/

section
variable {b : QuicSocketTxBuffer} {pathId other : Nat}

theorem bytesInFlight_lt (b : QuicSocketTxBuffer) (pathId : Nat) :
    b.bytesInFlight pathId < 2 ^ 32 := by
  unfold QuicSocketTxBuffer.bytesInFlight
  generalize b.sentList pathId = sent
  obtain ⟨inFlight, hstart⟩ : ∃ inFlight : Nat, inFlight = 0 := ⟨_, rfl⟩
  have hlt : inFlight < 2 ^ 32 := by omega
  rw [← hstart]
  clear hstart
  induction sent generalizing inFlight with
  | nil => exact hlt
  | cons item rest ih =>
      rw [List.foldl_cons]
      split_ifs
      · exact ih _ (Nat.mod_lt _ (by decide))
      · exact ih _ hlt

variable (b pathId other) in
/-- A packet that is sent leaves the bytes in flight as they are, or is added to them. -/
theorem bytesInFlight_append (item : QuicSocketTxItem) :
    let b' := { b with subflowSentList := b.subflowSentList.modify pathId (· ++ [item]) }
    b'.bytesInFlight other = b.bytesInFlight other ∨
      b'.bytesInFlight other = wrapAdd (b.bytesInFlight other) item.packet.length ∧
        item.isStream = true := by
  unfold QuicSocketTxBuffer.bytesInFlight QuicSocketTxBuffer.sentList
  dsimp only
  rw [List.getD_eq_getElem?_getD, List.getD_eq_getElem?_getD, List.getElem?_modify]
  cases b.subflowSentList[other]? with
  | none => exact Or.inl rfl
  | some sent =>
      by_cases hsame : pathId = other
      · simp only [Option.map_eq_map, Option.map_some, if_pos hsame, Option.getD_some,
          List.foldl_append, List.foldl_cons, List.foldl_nil]
        split_ifs with hcounted
        · refine Or.inr ⟨rfl, ?_⟩
          simp only [Bool.and_eq_true] at hcounted
          exact hcounted.1.1.2
        · exact Or.inl rfl
      · simp only [Option.map_eq_map, Option.map_some, if_neg hsame, Option.getD_some]
        exact Or.inl trivial

/-- A packet that fits does not make the bytes in flight less. -/
theorem le_bytesInFlight_append (item : QuicSocketTxItem)
    (hfits : b.bytesInFlight other + item.packet.length < 2 ^ 32) :
    b.bytesInFlight other ≤ QuicSocketTxBuffer.bytesInFlight other
      { b with subflowSentList := b.subflowSentList.modify pathId (· ++ [item]) } := by
  rcases bytesInFlight_append b pathId other item with
    hsame | ⟨hadded, -⟩
  · exact Nat.le_of_eq hsame.symm
  · rw [hadded]
    unfold wrapAdd
    rw [Nat.mod_eq_of_lt hfits]
    exact Nat.le_add_right _ _

/-- A frame of stream 0 is not counted. -/
theorem bytesInFlight_nextStream0Sequence (seq : Nat) (now : Int) :
    (b.nextStream0Sequence seq now).2.bytesInFlight other = b.bytesInFlight other := by
  unfold QuicSocketTxBuffer.nextStream0Sequence
  cases b.streamZeroList with
  | nil => rfl
  | cons current rest =>
      dsimp only
      rcases bytesInFlight_append b 0 other
          { packet := current.packet, packetNumber := seq, lastSent := now,
            isStream0 := current.isStream0, generated := now } with hsame | ⟨-, hstream⟩
      · exact hsame
      · exact absurd hstream Bool.false_ne_true

theorem scheduler_nextStream0Sequence (seq : Nat) (now : Int) :
    (b.nextStream0Sequence seq now).2.scheduler = b.scheduler := by
  unfold QuicSocketTxBuffer.nextStream0Sequence
  cases b.streamZeroList <;> rfl

/-- A packet of at most `numBytes` bytes leaves as many bytes in flight or more, and the queue with
frames. -/
theorem nextSequence_fits (hframes : ∀ item ∈ b.scheduler.appList, PendingFrame item.item.packet)
    (numBytes seq : Nat) (now : Int) (hfits : b.bytesInFlight other + numBytes < 2 ^ 32) :
    let b' := (b.nextSequence numBytes seq pathId now).2
    b.bytesInFlight other ≤ b'.bytesInFlight other ∧
      ∀ item ∈ b'.scheduler.appList, PendingFrame item.item.packet := by
  obtain ⟨hlength, hleft⟩ := segmentLoop_fits numBytes hframes b.scheduler.appSize
    { isStream := true, generated := now } (Nat.zero_le _)
  unfold QuicSocketTxBuffer.nextSequence getNewSegment
  dsimp only
  generalize segmentLoop numBytes b.scheduler.appList b.scheduler.appSize
    { isStream := true, generated := now } = result at hlength hleft
  obtain ⟨outItem, scheduler⟩ := result
  dsimp only at hlength hleft ⊢
  split_ifs
  · exact ⟨le_bytesInFlight_append (b := { b with scheduler })
      { outItem with packetNumber := seq, lastSent := now }
      (Nat.lt_of_le_of_lt (Nat.add_le_add_left hlength _) hfits), hleft⟩
  · exact ⟨Nat.le_refl _, hleft⟩

end

/-! ## Sending a packet -/

section
variable (onPacketSent : Tcb → Nat → Bool → Tcb)

/-- What `SendDataPacket` does to the buffer, and what it leaves alone. -/
theorem sendDataPacket_spec (s : QuicSocketBase) (packetNumber maxSize : Nat) (withAck : Bool)
    (pathId : Nat) :
    let s' := (s.sendDataPacket onPacketSent packetNumber maxSize withAck pathId).2
    s'.txBuffer = (if s.drainingPeriodEvent then s.txBuffer
      else if s.txBuffer.numFrameStream0InBuffer > 0 then
        (s.txBuffer.nextStream0Sequence packetNumber s.now).2
      else (s.txBuffer.nextSequence maxSize packetNumber pathId s.now).2) ∧
      s'.maxData = s.maxData ∧ s'.drainingPeriodEvent = s.drainingPeriodEvent := by
  unfold QuicSocketBase.sendDataPacket
  by_cases hdraining : s.drainingPeriodEvent = true
  · rw [if_pos hdraining, if_pos hdraining]
    exact ⟨rfl, rfl, rfl⟩
  rw [if_neg hdraining, if_neg hdraining]
  -- pacing and the congestion control leave the buffer alone
  by_cases hzero : s.txBuffer.numFrameStream0InBuffer > 0
  · simp only [if_pos hzero]
    split_ifs
    all_goals split
    all_goals exact ⟨rfl, rfl, rfl⟩
  · simp only [if_neg hzero]
    split_ifs
    all_goals split
    all_goals exact ⟨rfl, rfl, rfl⟩

end

/-! ## The loop over the frames of stream 0 -/

section
variable {onPacketSent : Tcb → Nat → Bool → Tcb} {s s' : QuicSocketBase}

theorem iterates_iff : Iterates onPacketSent s s' ↔
    s.txBuffer.numFrameStream0InBuffer > 0 ∧ ¬ ((s.subflow 0).tcb.pacing ∧ s.pacingTimer) ∧
      s' = ((s.nextPacketNumber 0).2.sendDataPacket onPacketSent (s.nextPacketNumber 0).1 0
        ((s.nextPacketNumber 0).2.subflow 0).queueAck 0).2 := by
  unfold Iterates stream0Iteration
  by_cases hframe : s.txBuffer.numFrameStream0InBuffer > 0
  · rw [if_neg (not_not.2 hframe), and_iff_right hframe]
    by_cases hpaced : (s.subflow 0).tcb.pacing ∧ s.pacingTimer
    · rw [if_pos hpaced]
      exact iff_of_false (Option.some_ne_none _ ·.symm) fun h => h.1 hpaced
    · rw [if_neg hpaced, and_iff_right hpaced]
      exact ⟨fun h => (Option.some.inj h).symm, fun h => congrArg some h.symm⟩
  · rw [if_pos hframe]
    exact iff_of_false (Option.some_ne_none _ ·.symm) fun h => hframe h.1

/-- A new packet number changes the number and nothing else that the loops read. -/
theorem nextPacketNumber_pacing (pathId other : Nat) (s : QuicSocketBase) :
    ((s.nextPacketNumber pathId).2.subflow other).tcb.pacing =
      (s.subflow other).tcb.pacing := by
  unfold QuicSocketBase.nextPacketNumber
  dsimp only
  generalize wrapAdd (s.subflow pathId).tcb.nextTxSequence 1 = next
  unfold QuicSocketBase.modifyTcb QuicSocketBase.subflow
  simp only [List.getD_eq_getElem?_getD, List.getElem?_modify]
  cases s.subflows[other]? with
  | none => rfl
  | some subflow => by_cases hsame : pathId = other <;> simp [hsame]

variable (onPacketSent) in
/-- A loop that is stuck goes on as it was. -/
theorem Stuck.iterates (hs : Stuck s) : ∃ s', Iterates onPacketSent s s' ∧ Stuck s' ∧
    s'.txBuffer = s.txBuffer := by
  obtain ⟨hdraining, hframe, hpaced⟩ := hs
  have hkeeps : ((s.nextPacketNumber 0).2.sendDataPacket onPacketSent (s.nextPacketNumber 0).1 0
      ((s.nextPacketNumber 0).2.subflow 0).queueAck 0).2 = (s.nextPacketNumber 0).2 := by
    unfold QuicSocketBase.sendDataPacket
    rw [if_pos (show (s.nextPacketNumber 0).2.drainingPeriodEvent = true from hdraining)]
  refine ⟨(s.nextPacketNumber 0).2, iterates_iff.2 ⟨hframe, hpaced, hkeeps.symm⟩,
    ⟨hdraining, hframe, ?_⟩, rfl⟩
  rw [nextPacketNumber_pacing]
  exact hpaced

theorem Stuck.sendStream0 (hs : Stuck s) (fuel : Nat) :
    sendStream0 onPacketSent fuel s = none := by
  induction fuel generalizing s with
  | zero => rfl
  | succ fuel ih =>
      obtain ⟨s', hiterates, hs', -⟩ := hs.iterates onPacketSent
      rw [sendStream0_succ, show stream0Iteration onPacketSent s = some s' from hiterates]
      exact ih hs'

/-- What an iteration takes out of the buffer waited in it. -/
theorem appSize_nextStream0Sequence {b : QuicSocketTxBuffer} (hb : Accounted b)
    (hlt : waiting b < 2 ^ 32) (hnonempty : ∀ item ∈ b.streamZeroList, item.packet ≠ [])
    (hframe : b.numFrameStream0InBuffer > 0) (seq : Nat) (now : Int) :
    let b' := (b.nextStream0Sequence seq now).2
    b'.appSize < b.appSize ∧ waiting b' < 2 ^ 32 ∧
      ∀ item ∈ b'.streamZeroList, item.packet ≠ [] := by
  obtain ⟨current, rest, hlist⟩ : ∃ current rest, b.streamZeroList = current :: rest := by
    apply List.exists_cons_of_ne_nil
    intro hnil
    have hcount := hb.frames
    rw [hnil] at hcount
    exact absurd hframe (by rw [hcount]; decide)
  rw [hlist] at hnonempty
  obtain ⟨hfirst, hrest⟩ := List.forall_mem_cons.1 hnonempty
  have hpos := List.length_pos_of_ne_nil hfirst
  have hwaiting := nextStream0Sequence_waiting b seq now
  have hnext := hb.nextStream0Sequence seq now
  dsimp only
  rw [appSize_eq_waiting hb hlt, appSize_eq_waiting hnext (Nat.lt_of_le_of_lt hwaiting hlt)]
  refine ⟨?_, Nat.lt_of_le_of_lt hwaiting hlt, ?_⟩
  all_goals
    unfold QuicSocketTxBuffer.nextStream0Sequence
    rw [hlist]
    dsimp only
  · unfold waiting
    rw [hlist, sizes_cons]
    dsimp only
    omega
  · exact hrest

/-- Outside the draining period an iteration takes a frame of stream 0 out of the buffer. -/
theorem Pending.iterates (hs : Pending s) (hnot : s.drainingPeriodEvent = false)
    (hiterates : Iterates onPacketSent s s') :
    Pending s' ∧ s'.drainingPeriodEvent = false ∧
      s'.txBuffer.appSize < s.txBuffer.appSize := by
  obtain ⟨hframe, -, rfl⟩ := iterates_iff.1 hiterates
  obtain ⟨hbuffer, hmax, hdraining⟩ := sendDataPacket_spec onPacketSent
    (s.nextPacketNumber 0).2 (s.nextPacketNumber 0).1 0
    ((s.nextPacketNumber 0).2.subflow 0).queueAck 0
  generalize ((s.nextPacketNumber 0).2.sendDataPacket onPacketSent (s.nextPacketNumber 0).1 0
    ((s.nextPacketNumber 0).2.subflow 0).queueAck 0).2 = s' at hbuffer hmax hdraining
  have hbefore : (s.nextPacketNumber 0).2.drainingPeriodEvent = false := hnot
  rw [hbefore, if_neg Bool.false_ne_true,
    if_pos (show (s.nextPacketNumber 0).2.txBuffer.numFrameStream0InBuffer > 0 from hframe)]
    at hbuffer
  have htaken : s'.txBuffer = (s.txBuffer.nextStream0Sequence (s.nextPacketNumber 0).1 s.now).2 :=
    hbuffer
  obtain ⟨hsmaller, hlt, hnonempty⟩ := appSize_nextStream0Sequence hs.accounted hs.waiting_lt
    hs.nonempty hframe (s.nextPacketNumber 0).1 s.now
  have hqueue := scheduler_nextStream0Sequence (b := s.txBuffer) (s.nextPacketNumber 0).1 s.now
  rw [← htaken] at hsmaller hlt hnonempty hqueue
  refine ⟨⟨?_, hlt, hnonempty, ?_, ?_⟩, hdraining.trans hbefore, hsmaller⟩
  · rw [htaken]
    exact hs.accounted.nextStream0Sequence _ _
  · rw [hqueue]
    exact hs.frames
  · rw [hmax]
    exact hs.maxData_lt

/-- A loop that is not stuck goes on with frames of stream 0 to send, and has advanced. -/
theorem Pending.reached (hs : Pending s) (hnot : ¬ Stuck s)
    (hreached : Relation.ReflTransGen (Iterates onPacketSent) s s') :
    Pending s' ∧ ¬ Stuck s' := by
  induction hreached with
  | refl => exact ⟨hs, hnot⟩
  | @tail t t' _ hiterates ih =>
      obtain ⟨ht, hfree⟩ := ih
      obtain ⟨hframe, hpaced, -⟩ := iterates_iff.1 hiterates
      have hdraining : t.drainingPeriodEvent = false :=
        Bool.eq_false_iff.2 fun hdraining => hfree ⟨hdraining, hframe, hpaced⟩
      obtain ⟨ht', hdraining', -⟩ := ht.iterates hdraining hiterates
      exact ⟨ht', fun hstuck => absurd hstuck.1 (by rw [hdraining']; decide)⟩

theorem Pending.advances (hs : Pending s) (hnot : ¬ Stuck s)
    (hiterates : Iterates onPacketSent s s') : s'.txBuffer.appSize < s.txBuffer.appSize := by
  obtain ⟨hframe, hpaced, -⟩ := iterates_iff.1 hiterates
  have hdraining : s.drainingPeriodEvent = false :=
    Bool.eq_false_iff.2 fun hdraining => hnot ⟨hdraining, hframe, hpaced⟩
  exact (hs.iterates hdraining hiterates).2.2

/-- A loop that is not stuck ends: the buffer gets smaller. -/
theorem Pending.sendStream0_ends (hs : Pending s) (hnot : ¬ Stuck s) :
    ∃ fuel s₀, sendStream0 onPacketSent fuel s = some s₀ := by
  obtain ⟨n, hn⟩ : ∃ n, s.txBuffer.appSize = n := ⟨_, rfl⟩
  induction n using Nat.strongRecOn generalizing s with
  | ind n ih =>
      cases hiteration : stream0Iteration onPacketSent s with
      | none =>
          refine ⟨1, s, ?_⟩
          rw [sendStream0_succ, hiteration]
      | some s' =>
          have hsmaller := hs.advances hnot hiteration
          obtain ⟨hs', hnot'⟩ := hs.reached hnot (.single hiteration)
          obtain ⟨fuel, s₀, hends⟩ := ih _ (hn ▸ hsmaller) hs' hnot' rfl
          refine ⟨fuel + 1, s₀, ?_⟩
          rw [sendStream0_succ, hiteration]
          exact hends

/-- The state that the loop ends in is one that it reaches. -/
theorem sendStream0_reached {fuel : Nat} {s₀ : QuicSocketBase}
    (hends : sendStream0 onPacketSent fuel s = some s₀) :
    Relation.ReflTransGen (Iterates onPacketSent) s s₀ := by
  induction fuel generalizing s with
  | zero => cases hends
  | succ fuel ih =>
      rw [sendStream0_succ] at hends
      cases hiteration : stream0Iteration onPacketSent s with
      | none =>
          rw [hiteration] at hends
          cases hends
          exact .refl
      | some s' =>
          rw [hiteration] at hends
          exact .head hiteration (ih hends)

end

/-! ## The loop over the packets of a path -/

section
variable (onPacketSent : Tcb → Nat → Bool → Tcb)
  {notifySend : QuicSocketBase → QuicSocketBase} (withAck : Bool)

/-- A loop whose socket has only frames to send. -/
structure Sending (l : SendLoop) : Prop where
  frames : ∀ item ∈ l.socket.txBuffer.scheduler.appList, PendingFrame item.item.packet
  maxData_lt : l.socket.maxData < 2 ^ 32

/-- The loop stays on its path, and what is in flight there does not fall. -/
structure Stays (l l' : SendLoop) : Prop where
  pathId : l'.pathId = l.pathId
  returned : l'.returned = l.returned
  inFlight : l.socket.bytesInFlight l.pathId ≤ l'.socket.bytesInFlight l.pathId
  advances : l'.socket.txBuffer.appSize < l.socket.txBuffer.appSize ∨
    l.socket.bytesInFlight l.pathId < l'.socket.bytesInFlight l.pathId

/-- The window is what may be sent besides the bytes in flight. -/
theorem bytesInFlight_add_availableWindow {s : QuicSocketBase} (hmax : s.maxData < 2 ^ 32)
    {pathId n : Nat} (hn : n ≤ s.availableWindow pathId) (hopen : s.availableWindow pathId > 0) :
    s.bytesInFlight pathId + n < 2 ^ 32 := by
  unfold availableWindow at hn hopen
  dsimp only at hn hopen
  split_ifs at hn hopen
  · exact absurd hopen (Nat.lt_irrefl 0)
  · omega

/-- A packet leaves frames in the queue, and no less in flight. -/
theorem sendDataPacket_fits {s : QuicSocketBase} (packetNumber : Nat)
    (hframes : ∀ item ∈ s.txBuffer.scheduler.appList, PendingFrame item.item.packet)
    {maxSize pathId : Nat} (hfits : s.bytesInFlight pathId + maxSize < 2 ^ 32) :
    let s' := (s.sendDataPacket onPacketSent packetNumber maxSize withAck pathId).2
    s.bytesInFlight pathId ≤ s'.bytesInFlight pathId ∧
      ∀ item ∈ s'.txBuffer.scheduler.appList, PendingFrame item.item.packet := by
  obtain ⟨hbuffer, -, -⟩ := sendDataPacket_spec onPacketSent s packetNumber
    maxSize withAck pathId
  dsimp only
  unfold QuicSocketBase.bytesInFlight at hfits ⊢
  rw [hbuffer]
  split_ifs
  · exact ⟨Nat.le_refl _, hframes⟩
  · rw [bytesInFlight_nextStream0Sequence, scheduler_nextStream0Sequence]
    exact ⟨Nat.le_refl _, hframes⟩
  · exact nextSequence_fits hframes maxSize packetNumber s.now hfits

/-- The end of an iteration leaves the loop, or stays on the path with less in the buffer or more
in flight: the source looks for this. -/
theorem sendOnPath_progress {l : SendLoop} (hl : Sending l) (availableWindow : Nat)
    (hfits : ∀ n ≤ availableWindow, l.socket.bytesInFlight l.pathId + n < 2 ^ 32) :
    let l' := sendOnPath onPacketSent withAck availableWindow l
    Sending l' ∧ (Leaves l l' ∨ Stays l l') := by
  obtain ⟨next, hnext⟩ : ∃ next, (l.socket.nextPacketNumber l.pathId).1 = next := ⟨_, rfl⟩
  obtain ⟨socket, hsocket⟩ : ∃ socket, (l.socket.nextPacketNumber l.pathId).2 = socket :=
    ⟨_, rfl⟩
  have hbuffer : socket.txBuffer = l.socket.txBuffer := hsocket ▸ rfl
  have hmax : socket.maxData = l.socket.maxData := hsocket ▸ rfl
  have hinFlight : socket.bytesInFlight l.pathId = l.socket.bytesInFlight l.pathId := by
    unfold QuicSocketBase.bytesInFlight
    rw [hbuffer]
  obtain ⟨hmore, hframes⟩ := sendDataPacket_fits onPacketSent withAck next
    (hbuffer ▸ hl.frames)
    (hinFlight ▸ hfits (min availableWindow socket.segSize) (Nat.min_le_left _ _))
  obtain ⟨-, hkept, -⟩ := sendDataPacket_spec onPacketSent socket next
    (min availableWindow socket.segSize) withAck l.pathId
  unfold sendOnPath
  dsimp only
  rw [hnext, hsocket]
  generalize (socket.sendDataPacket onPacketSent next (min availableWindow socket.segSize) withAck
    l.pathId).2 = s' at hmore hframes hkept
  have hsending : s'.maxData < 2 ^ 32 := (hkept.trans hmax) ▸ hl.maxData_lt
  rw [hinFlight] at hmore ⊢
  rw [hbuffer]
  by_cases hnone : s'.bytesInFlight l.pathId ≤ l.socket.bytesInFlight l.pathId ∧
      s'.txBuffer.appSize ≥ l.socket.txBuffer.appSize
  · rw [if_pos hnone]
    exact ⟨⟨hframes, hsending⟩, Or.inl (Or.inr rfl)⟩
  · rw [if_neg hnone]
    refine ⟨⟨hframes, hsending⟩, Or.inr ⟨rfl, rfl, hmore, ?_⟩⟩
    dsimp only
    omega

/-- The step lemma: an iteration leaves the loop over the packets of the path, or advances. -/
theorem Sending.step_progress (happ : WritesToStreams notifySend) {tosend : List Nat}
    {l : SendLoop} (hl : Sending l) (hrunning : Running tosend l) :
    let l' := step onPacketSent notifySend withAck tosend l
    Sending l' ∧ (Leaves l l' ∨ Stays l l') := by
  have hasked : ∀ socket, socket = notifySend l.socket ∨ socket = l.socket →
      socket.txBuffer = l.socket.txBuffer ∧ socket.maxData = l.socket.maxData := by
    rintro socket (rfl | rfl)
    · exact ⟨happ.txBuffer _, happ.maxData _⟩
    · exact ⟨rfl, rfl⟩
  unfold step
  dsimp only
  rw [if_neg hrunning]
  by_cases hopen : ¬ (l.socket.availableWindow l.pathId > 0 ∧ l.socket.txBuffer.appSize > 0)
  · rw [if_pos hopen]
    exact ⟨⟨hl.frames, hl.maxData_lt⟩, Or.inl (Or.inr rfl)⟩
  rw [if_neg hopen]
  by_cases hdraining : l.socket.drainingPeriodEvent = true
  · rw [if_pos hdraining]
    exact ⟨⟨hl.frames, hl.maxData_lt⟩, Or.inl (Or.inl rfl)⟩
  rw [if_neg hdraining]
  by_cases hpaced : (l.socket.subflow l.pathId).tcb.pacing ∧ l.socket.pacingTimer
  · rw [if_pos hpaced]
    exact ⟨⟨hl.frames, hl.maxData_lt⟩, Or.inl (Or.inr rfl)⟩
  rw [if_neg hpaced]
  by_cases hconnecting : l.socket.socketState = .connectingClt ∨
      l.socket.socketState = .connectingSvr
  · rw [if_pos hconnecting]
    exact ⟨⟨hl.frames, hl.maxData_lt⟩, Or.inl (Or.inr rfl)⟩
  rw [if_neg hconnecting]
  obtain ⟨socket, hsocket⟩ : ∃ socket,
      (if l.socket.txBuffer.appSize < l.socket.availableWindow l.pathId ∧
          ¬ l.socket.closeOnEmpty then notifySend l.socket else l.socket) = socket := ⟨_, rfl⟩
  rw [hsocket]
  -- the application may have been asked for more data
  obtain ⟨hbuffer, hmax⟩ := hasked socket (by
    rw [← hsocket]
    exact ite_eq_or_eq _ _ _)
  have hsending : Sending { l with socket } :=
    ⟨hbuffer ▸ hl.frames, hmax ▸ hl.maxData_lt⟩
  split_ifs
  · exact ⟨⟨hsending.frames, hsending.maxData_lt⟩, Or.inl (Or.inr rfl)⟩
  have hinFlight : socket.bytesInFlight l.pathId = l.socket.bytesInFlight l.pathId := by
    unfold QuicSocketBase.bytesInFlight
    rw [hbuffer]
  obtain ⟨hnext, hprogress⟩ := sendOnPath_progress onPacketSent withAck hsending
    (l.socket.availableWindow l.pathId) (by
      intro n hn
      show socket.bytesInFlight l.pathId + n < 2 ^ 32
      rw [hinFlight]
      exact bytesInFlight_add_availableWindow hl.maxData_lt hn (not_not.1 hopen).1)
  refine ⟨hnext, hprogress.imp_right fun hstays => ⟨hstays.pathId, hstays.returned, ?_, ?_⟩⟩
  · exact hinFlight ▸ hstays.inFlight
  · rw [← hinFlight, ← hbuffer]
    exact hstays.advances

/-- The loop over the packets of a path is left: what is in flight rises to the window, and the
buffer gets smaller between two rises. -/
theorem Sending.exists_leaves (happ : WritesToStreams notifySend) {tosend : List Nat}
    {l : SendLoop} (hl : Sending l) (hrunning : Running tosend l) :
    ∃ n, Leaves l ((step onPacketSent notifySend withAck tosend)^[n] l) ∧
      Sending ((step onPacketSent notifySend withAck tosend)^[n] l) := by
  have hwf : WellFounded (Prod.Lex (fun m n : Nat => m < n) (fun m n : Nat => m < n)) :=
    WellFounded.prod_lex Nat.lt_wfRel.wf Nat.lt_wfRel.wf
  obtain ⟨n, hdone, hsending, -⟩ := Ranking.exists_done
    (step onPacketSent notifySend withAck tosend)
    (fun a => Sending a ∧ (Leaves l a ∨ a.pathId = l.pathId ∧ a.returned = l.returned)) (Leaves l)
    (fun a => (2 ^ 32 - a.socket.bytesInFlight l.pathId, a.socket.txBuffer.appSize))
    hwf ⟨hl, Or.inr ⟨rfl, rfl⟩⟩ (by
      rintro a ⟨ha, hplace⟩ hdone
      obtain ⟨hpath, hreturned⟩ := hplace.resolve_left hdone
      have harunning : Running tosend a := by
        unfold Running
        rw [hpath, hreturned]
        exact hrunning
      obtain ⟨hnext, hprogress⟩ := ha.step_progress onPacketSent withAck happ harunning
      rcases hprogress with hleaves | hstays
      · have hleft : Leaves l (step onPacketSent notifySend withAck tosend a) := by
          unfold Leaves at hleaves ⊢
          rwa [hpath] at hleaves
        exact ⟨⟨hnext, Or.inl hleft⟩, Or.inl hleft⟩
      · refine ⟨⟨hnext, Or.inr ⟨hstays.pathId.trans hpath, hstays.returned.trans hreturned⟩⟩,
          Or.inr ?_⟩
        obtain ⟨-, -, hinFlight, hadvances⟩ := hstays
        rw [hpath] at hinFlight hadvances
        have hlt := bytesInFlight_lt
          (step onPacketSent notifySend withAck tosend a).socket.txBuffer l.pathId
        by_cases hrise : a.socket.bytesInFlight l.pathId <
            (step onPacketSent notifySend withAck tosend a).socket.bytesInFlight l.pathId
        · apply Prod.Lex.left
          show 2 ^ 32 - _ < 2 ^ 32 - _
          unfold QuicSocketBase.bytesInFlight at hrise ⊢
          omega
        · have hsame : 2 ^ 32 - (step onPacketSent notifySend withAck tosend a).socket.bytesInFlight
              l.pathId = 2 ^ 32 - a.socket.bytesInFlight l.pathId := by omega
          rw [hsame]
          exact Prod.Lex.right _ (hadvances.resolve_right hrise))
  exact ⟨n, hdone, hsending⟩

/-- With less than 256 paths the loop over the paths ends: each path is left for the next one. -/
theorem Sending.exists_ended (happ : WritesToStreams notifySend) {tosend : List Nat}
    (hpaths : tosend.length < 2 ^ 8) {l : SendLoop} (hl : Sending l) :
    ∃ n, ¬ Running tosend ((step onPacketSent notifySend withAck tosend)^[n] l) := by
  obtain ⟨k, hk⟩ : ∃ k, tosend.length - l.pathId = k := ⟨_, rfl⟩
  induction k using Nat.strongRecOn generalizing l with
  | ind k ih =>
      by_cases hrunning : Running tosend l
      case neg => exact ⟨0, hrunning⟩
      obtain ⟨n, hleaves, hsending⟩ := hl.exists_leaves onPacketSent withAck happ hrunning
      rcases hleaves with hreturned | hnext
      · exact ⟨n, fun hagain => hagain (Or.inl hreturned)⟩
      · have hpath : l.pathId < tosend.length := by
          by_contra hend
          exact hrunning (Or.inr hend)
        rw [Nat.mod_eq_of_lt (by omega)] at hnext
        obtain ⟨m, hm⟩ := ih _ (by omega) hsending rfl
        refine ⟨m + n, ?_⟩
        rwa [Function.iterate_add_apply]

theorem step_of_not_running {tosend : List Nat} {l : SendLoop} (hended : ¬ Running tosend l) :
    step onPacketSent notifySend withAck tosend l = l := by
  unfold step
  exact if_pos (not_not.1 hended)

theorem after_succ {tosend : List Nat} (s : QuicSocketBase) (n : Nat) :
    SendLoop.after onPacketSent notifySend withAck tosend (n + 1) s =
      step onPacketSent notifySend withAck tosend
        (SendLoop.after onPacketSent notifySend withAck tosend n s) :=
  Function.iterate_succ_apply' _ n _

/-- The socket keeps what the loops rely on all the way. -/
theorem Sending.after (happ : WritesToStreams notifySend) {tosend : List Nat} {s : QuicSocketBase}
    (hs : Sending { socket := s }) (n : Nat) :
    Sending (after onPacketSent notifySend withAck tosend n s) := by
  induction n with
  | zero => exact hs
  | succ n ih =>
      rw [after_succ]
      by_cases hrunning : Running tosend (SendLoop.after onPacketSent notifySend withAck tosend n s)
      · exact (ih.step_progress onPacketSent withAck happ hrunning).1
      · rwa [step_of_not_running _ _ hrunning]

/-- Every iteration advances or leaves its loop, and the loops end, if and only if the draining
period does not run while a frame of stream 0 waits that pacing does not hold back. -/
theorem sendPendingData_progresses_iff (onPacketSent : Tcb → Nat → Bool → Tcb)
    (notifySend : QuicSocketBase → QuicSocketBase) (withAck : Bool)
    (happ : WritesToStreams notifySend) (s : QuicSocketBase) (hs : Pending s) :
    Progresses onPacketSent notifySend withAck s ↔ ¬ Stuck s := by
  constructor
  · intro hprogresses hstuck
    obtain ⟨fuel, s₀, hends⟩ := hprogresses.stream0Ends
    rw [hstuck.sendStream0] at hends
    cases hends
  intro hnot
  have hstart : ∀ {fuel s₀}, sendStream0 onPacketSent fuel s = some s₀ →
      Sending { socket := s₀ } := by
    intro fuel s₀ hends
    obtain ⟨hs₀, -⟩ := hs.reached hnot (sendStream0_reached hends)
    exact ⟨hs₀.frames, hs₀.maxData_lt⟩
  refine ⟨?_, hs.sendStream0_ends hnot, ?_, ?_, ?_⟩
  · intro s' s'' hreached hiterates
    obtain ⟨hs', hnot'⟩ := hs.reached hnot hreached
    exact Or.inl (hs'.advances hnot' hiterates)
  · intro fuel s₀ tosend n hends l l' hrunning
    obtain ⟨-, hprogress⟩ := ((hstart hends).after onPacketSent withAck happ n).step_progress
      onPacketSent withAck happ hrunning
    show Leaves l l' ∨ _
    rw [show l' = step onPacketSent notifySend withAck tosend l from after_succ _ _ _ _]
    exact hprogress.imp_right fun hstays => hstays.advances.imp_right fun hmore => ⟨_, hmore⟩
  · intro fuel s₀ tosend n hends l hrunning
    obtain ⟨m, hleaves, -⟩ := ((hstart hends).after onPacketSent withAck happ n).exists_leaves
      onPacketSent withAck happ hrunning
    refine ⟨m, ?_⟩
    rw [Nat.add_comm]
    unfold SendLoop.after
    rw [Function.iterate_add_apply]
    exact hleaves
  · intro fuel s₀ tosend hends hpaths
    exact (hstart hends).exists_ended onPacketSent withAck happ hpaths

end

/-! ## A connection that is closed -/

/-- A frame of stream 0 with three bytes. -/
def stream0Frame : List UInt8 :=
  (QuicSubheader.createStreamSubHeader 0 0 3 false true false).serialize ++ [1, 2, 3]

/-- A socket with a frame of stream 0 and one of stream 4. -/
def stream0Socket (drainingPeriodEvent : Bool) : QuicSocketBase :=
  { openSocket [.active] with
    txBuffer := ((openSocket [.active]).txBuffer.add stream0Frame 0).2, drainingPeriodEvent }

theorem pendingFrame_threeBytes : PendingFrame threeBytes :=
  Or.inl ⟨⟨4, 0, [1, 2, 3], false, false, by decide, by decide, by decide, fun _ => rfl⟩, rfl⟩

theorem pending_stream0Socket (drainingPeriodEvent : Bool) :
    Pending (stream0Socket drainingPeriodEvent) := by
  have hqueue : (stream0Socket drainingPeriodEvent).txBuffer.scheduler.appList.map
      (·.item.packet) = [threeBytes] := by
    cases drainingPeriodEvent <;> decide
  refine ⟨⟨⟨?_, ?_, ?_⟩, ?_⟩, ?_, ?_, ?_, ?_⟩
  case refine_7 =>
    intro item hitem
    have hpacket := List.mem_map_of_mem (f := fun scheduled => scheduled.item.packet) hitem
    rw [hqueue, List.mem_singleton] at hpacket
    exact hpacket ▸ pendingFrame_threeBytes
  all_goals cases drainingPeriodEvent <;> decide

theorem sendPendingData_progresses_stream0Frame :
    Progresses (fun tcb _ _ => tcb) id true (stream0Socket false) ↔
      ¬ Stuck (stream0Socket false) :=
  sendPendingData_progresses_iff _ _ _ ⟨fun _ => rfl, fun _ => rfl⟩ _ (pending_stream0Socket false)

/-- In the draining period the loop over the frames of stream 0 does not end. -/
theorem not_progresses_draining :
    Pending (stream0Socket true) ∧
      (∀ fuel, sendStream0 (fun tcb _ _ => tcb) fuel (stream0Socket true) = none) ∧
      ¬ Progresses (fun tcb _ _ => tcb) id true (stream0Socket true) := by
  have hstuck : Stuck (stream0Socket true) := by decide
  refine ⟨pending_stream0Socket true, hstuck.sendStream0, fun hprogresses => ?_⟩
  obtain ⟨fuel, s₀, hends⟩ := hprogresses.stream0Ends
  rw [hstuck.sendStream0] at hends
  cases hends

end NtnIab.Quic
