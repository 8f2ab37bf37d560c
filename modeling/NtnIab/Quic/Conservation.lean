import NtnIab.Library.ListFamily
import NtnIab.Library.Run
import NtnIab.Quic.QueuedFrames

/-!
# No data is lost by the transmit buffer of a socket

Frames move between the list of stream 0, the queue of the scheduler, the sent lists of the paths
and back. Every byte that was taken is somewhere in these places, or in a packet that was
acknowledged, and every frame still carries the content of its stream at its offset.

## Strategy

`Carrying` says what the places of a buffer hold, and `Waits` and `InFlight` where a byte is. The
operations on a sent list are compared by the packets and the acknowledgement flags alone (`key`):
those that only declare losses keep the keys (`resetWalk_key`, `lossWalk_key`). An acknowledged
packet leaves `InFlight` and enters the list of acknowledged packets (`ackBlocks_kept`), a lost
one leaves it and its frames wait again (`retxItem_conserves`). Each step then keeps `Conserved`.
-/

namespace NtnIab.Quic

open ListFamily StreamFrame QuicSocketTxScheduler QuicSocketTxBuffer

variable {content : Nat → Nat → UInt8} {streamId x : Nat}

/-! ## The places of a buffer -/

/-- Every place holds frames that carry the content, and path 0 is known. -/
structure Carrying (content : Nat → Nat → UInt8) (b : QuicSocketTxBuffer) : Prop where
  streamZero : ∀ item ∈ b.streamZeroList, Assembled content item.packet
  queue : QueueCarries content b.scheduler.appList
  sent : All b.subflowSentList fun item => Assembled content item.packet
  path : 0 < b.subflowSentList.length

/-- The byte is in the list of stream 0 or in the queue of the scheduler. -/
def Waits (b : QuicSocketTxBuffer) (streamId x : Nat) : Prop :=
  (∃ item ∈ b.streamZeroList, PacketHas item.packet streamId x) ∨
    QueueHas b.scheduler.appList streamId x

/-- The byte is in a packet of some sent list that is not acknowledged. -/
def InFlight (b : QuicSocketTxBuffer) (streamId x : Nat) : Prop :=
  Some b.subflowSentList fun item => item.sacked = false ∧ PacketHas item.packet streamId x

/-- What the operations on a sent list have to keep of a packet. -/
def key (item : QuicSocketTxItem) : List UInt8 × Bool := (item.packet, item.sacked)

theorem exists_of_key {sent sent' : List QuicSocketTxItem}
    (hkey : sent'.map key = sent.map key) {item : QuicSocketTxItem} (hitem : item ∈ sent) :
    ∃ item' ∈ sent', item'.packet = item.packet ∧ item'.sacked = item.sacked := by
  have hmem : key item ∈ sent'.map key := hkey ▸ List.mem_map_of_mem hitem
  obtain ⟨item', hitem', heq⟩ := List.mem_map.1 hmem
  exact ⟨item', hitem', congrArg Prod.fst heq, congrArg Prod.snd heq⟩

section
variable {b : QuicSocketTxBuffer} {pathId : Nat}
  {f : List QuicSocketTxItem → List QuicSocketTxItem}

theorem Carrying.modifySentList (hb : Carrying content b)
    (hf : ∀ item ∈ f (b.sentList pathId), Assembled content item.packet) :
    Carrying content (b.modifySentList pathId f) where
  streamZero := hb.streamZero
  queue := hb.queue
  sent := hb.sent.modify hf
  path := by
    show 0 < (b.subflowSentList.modify pathId f).length
    rw [List.length_modify]
    exact hb.path

/-- An operation that keeps the keys of a sent list keeps what the places hold. -/
theorem Carrying.of_key (hb : Carrying content b)
    (hf : (f (b.sentList pathId)).map key = (b.sentList pathId).map key) :
    Carrying content (b.modifySentList pathId f) := by
  apply hb.modifySentList
  intro item hitem
  obtain ⟨old, hold, hpacket, -⟩ := exists_of_key hf.symm hitem
  rw [← hpacket]
  exact hb.sent.getD pathId old hold

theorem InFlight.of_key (hx : InFlight b streamId x)
    (hf : (f (b.sentList pathId)).map key = (b.sentList pathId).map key) :
    InFlight (b.modifySentList pathId f) streamId x := by
  apply hx.modify
  rintro item hitem ⟨hsacked, hhas⟩
  obtain ⟨new, hnew, hpacket, hflag⟩ := exists_of_key hf hitem
  exact ⟨new, hnew, by rwa [hflag], by rwa [hpacket]⟩

end

/-! ## Declaring losses -/

theorem resetWalk_key (keepItems kept : Nat) (items : List QuicSocketTxItem) :
    (resetWalk keepItems kept items).map key = items.map key := by
  induction items generalizing kept with
  | nil => rfl
  | cons item rest ih =>
      unfold resetWalk
      rw [List.map_cons, List.map_cons, ih]
      split <;> rfl

theorem markHead_key (items : List QuicSocketTxItem) :
    (markHead items).map key = items.map key := by
  induction items with
  | nil => rfl
  | cons item rest ih =>
      unfold markHead
      split
      · rfl
      · rw [List.map_cons, List.map_cons, ih]

theorem map_markLost_key (lost : QuicSocketTxItem → Prop) [DecidablePred lost]
    (items : List QuicSocketTxItem) :
    (items.map fun item => if lost item then markLost item else item).map key =
      items.map key := by
  rw [List.map_map]
  apply List.map_congr_left
  intro item _
  show key (if lost item then markLost item else item) = key item
  split <;> rfl

theorem lossWalk_key (tcb : QuicSocketState) (largest : Nat) (lost : Bool)
    (acked : Option QuicSocketTxItem) (items : List QuicSocketTxItem) :
    (lossWalk tcb largest lost acked items).map key = items.map key := by
  induction items generalizing lost acked with
  | nil => rfl
  | cons item rest ih =>
      unfold lossWalk
      dsimp only
      split
      · rw [List.map_cons, List.map_cons, ih]
        split <;> rfl
      split
      · rw [List.map_cons, List.map_cons, ih]
      split
      · split
        · rw [List.map_cons, List.map_cons, ih]
          rfl
        · rw [List.map_cons, List.map_cons, ih]
      · rw [List.map_cons, List.map_cons, ih]

/-! ## Acknowledgements -/

section
variable (ack : Nat) (gap : Option Nat) (now : Int)

theorem ackWalk_packet (items : List QuicSocketTxItem) :
    (ackWalk ack gap now items).1.map (·.packet) = items.map (·.packet) := by
  induction items with
  | nil => rfl
  | cons item rest ih =>
      unfold ackWalk
      dsimp only
      split
      · rfl
      split
      · rw [List.map_cons, List.map_cons, ih]
      · rw [List.map_cons, List.map_cons, ih]

theorem ackWalk_newlyAcked (items : List QuicSocketTxItem) :
    (ackWalk ack gap now items).2.map (·.packet) ⊆ items.map (·.packet) := by
  induction items with
  | nil => exact fun _ h => h
  | cons item rest ih =>
      unfold ackWalk
      dsimp only
      split
      · simp
      split
      · exact List.cons_subset_cons _ ih
      · exact List.subset_cons_of_subset _ ih

/-- A packet stays as it was, or it is among the newly acknowledged. -/
theorem ackWalk_kept {items : List QuicSocketTxItem} {item : QuicSocketTxItem}
    (hitem : item ∈ items) :
    item ∈ (ackWalk ack gap now items).1 ∨
      item.packet ∈ (ackWalk ack gap now items).2.map (·.packet) := by
  induction items with
  | nil => exact absurd hitem List.not_mem_nil
  | cons first rest ih =>
      unfold ackWalk
      dsimp only
      split
      · exact .inl hitem
      split
      · rcases List.mem_cons.1 hitem with rfl | hrest
        · exact .inr List.mem_cons_self
        · exact (ih hrest).imp (List.mem_cons_of_mem _) (List.mem_cons_of_mem _)
      · rcases List.mem_cons.1 hitem with rfl | hrest
        · exact .inl List.mem_cons_self
        · exact (ih hrest).imp_left (List.mem_cons_of_mem _)

end

section
variable (now : Int)

theorem ackBlocks_packet (blocks gaps : List Nat) (items : List QuicSocketTxItem) :
    (ackBlocks now blocks gaps items).1.map (·.packet) = items.map (·.packet) := by
  induction blocks generalizing gaps items with
  | nil => rfl
  | cons ack rest ih =>
      unfold ackBlocks
      dsimp only
      rw [ih, ackWalk_packet]

theorem ackBlocks_newlyAcked (blocks gaps : List Nat) (items : List QuicSocketTxItem) :
    (ackBlocks now blocks gaps items).2.map (·.packet) ⊆ items.map (·.packet) := by
  induction blocks generalizing gaps items with
  | nil => simp [ackBlocks]
  | cons ack rest ih =>
      unfold ackBlocks
      dsimp only
      rw [List.map_append]
      refine List.append_subset.2 ⟨ackWalk_newlyAcked _ _ _ _, ?_⟩
      have hlater := ih gaps.tail (ackWalk ack gaps.head? now items).1
      rwa [ackWalk_packet] at hlater

theorem ackBlocks_kept (blocks gaps : List Nat) {items : List QuicSocketTxItem}
    {item : QuicSocketTxItem} (hitem : item ∈ items) :
    item ∈ (ackBlocks now blocks gaps items).1 ∨
      item.packet ∈ (ackBlocks now blocks gaps items).2.map (·.packet) := by
  induction blocks generalizing gaps items with
  | nil => exact .inl hitem
  | cons ack rest ih =>
      unfold ackBlocks
      dsimp only
      rw [List.map_append]
      rcases ackWalk_kept ack gaps.head? now hitem with hkept | hacked
      · exact (ih gaps.tail hkept).imp_right (List.mem_append_right _)
      · exact .inr (List.mem_append_left _ hacked)

end

theorem Carrying.onAckUpdate {b : QuicSocketTxBuffer} (hb : Carrying content b)
    (tcb : QuicSocketState) (largest : Nat) (blocks gaps : List Nat) (pathId : Nat) (now : Int) :
    Carrying content (b.onAckUpdate tcb largest blocks gaps pathId now).2 := by
  have hsent := hb.sent.getD pathId
  have hwalked : ∀ item ∈ (lossWalk tcb largest false none
      (ackBlocks now (largest :: blocks) gaps (b.sentList pathId).reverse).1).reverse,
      Assembled content item.packet := by
    intro item hitem
    rw [List.mem_reverse] at hitem
    obtain ⟨walked, hmem, hpacket, -⟩ := exists_of_key (lossWalk_key _ _ _ _ _).symm hitem
    have hold : walked.packet ∈ (b.sentList pathId).reverse.map (·.packet) := by
      rw [← ackBlocks_packet now (largest :: blocks) gaps]
      exact List.mem_map_of_mem hmem
    obtain ⟨old, hold, heq⟩ := List.mem_map.1 hold
    rw [← hpacket, ← heq]
    exact hsent old (List.mem_reverse.1 hold)
  have hmarked : Carrying content (b.modifySentList pathId fun _ => _) :=
    hb.modifySentList hwalked
  refine ⟨hb.streamZero, hb.queue, hmarked.sent.modify ?_, ?_⟩
  · intro item hitem
    exact hmarked.sent.getD pathId item (List.mem_of_mem_filter hitem)
  · show 0 < (List.modify _ _ _).length
    rw [List.length_modify]
    exact hmarked.path

/-- A byte that was in flight still is, or it was acknowledged. -/
theorem InFlight.onAckUpdate {b : QuicSocketTxBuffer} (hx : InFlight b streamId x)
    (tcb : QuicSocketState) (largest : Nat) (blocks gaps : List Nat) (pathId : Nat) (now : Int) :
    let result := b.onAckUpdate tcb largest blocks gaps pathId now
    InFlight result.2 streamId x ∨ ∃ item ∈ result.1, PacketHas item.packet streamId x := by
  dsimp only
  by_cases hacked : ∃ item ∈ (b.onAckUpdate tcb largest blocks gaps pathId now).1,
      PacketHas item.packet streamId x
  · exact .inr hacked
  left
  have hmarked : InFlight (b.modifySentList pathId fun _ => (lossWalk tcb largest false none
      (ackBlocks now (largest :: blocks) gaps (b.sentList pathId).reverse).1).reverse)
      streamId x := by
    apply hx.modify
    rintro item hitem ⟨hsacked, hhas⟩
    rcases ackBlocks_kept now (largest :: blocks) gaps (List.mem_reverse.2 hitem) with
      hkept | hnewly
    · obtain ⟨new, hnew, hpacket, hflag⟩ :=
        exists_of_key (lossWalk_key tcb largest false none _) hkept
      exact ⟨new, List.mem_reverse.2 hnew, by rwa [hflag], by rwa [hpacket]⟩
    · obtain ⟨acked, hmem, hpacket⟩ := List.mem_map.1 hnewly
      exact absurd ⟨acked, hmem, by rwa [hpacket]⟩ hacked
  apply hmarked.modify
  rintro item hitem ⟨hsacked, hhas⟩
  exact ⟨item, List.mem_filter.2 ⟨hitem, by simp [hsacked]⟩, hsacked, hhas⟩

/-! ## Retransmission -/

/-- What a step of the retransmission keeps: the places, the sent lists, and what waits. -/
structure Requeued (content : Nat → Nat → UInt8) (b b' : QuicSocketTxBuffer) : Prop where
  carrying : Carrying content b'
  sent : b'.subflowSentList = b.subflowSentList
  waits : ∀ {streamId x}, Waits b streamId x → Waits b' streamId x

theorem Requeued.refl {b : QuicSocketTxBuffer} (hb : Carrying content b) :
    Requeued content b b :=
  ⟨hb, rfl, fun h => h⟩

theorem Requeued.trans {b b' b'' : QuicSocketTxBuffer} (hfirst : Requeued content b b')
    (hsecond : Requeued content b' b'') : Requeued content b b'' :=
  ⟨hsecond.carrying, hsecond.sent.trans hfirst.sent, fun h => hsecond.waits (hfirst.waits h)⟩

theorem retxFrame_conserves {state : QuicSocketTxBuffer × Nat × Nat} {fr : StreamFrame}
    (hstate : Carrying content state.1) (hfr : fr.Carries content) (now : Int) :
    let result := retxFrame now state (fr.header, fr.encode)
    Requeued content state.1 result.1 ∧
      ∀ streamId x, fr.Has streamId x → Waits result.1 streamId x := by
  refine ⟨⟨⟨hstate.streamZero, hstate.queue.add ⟨fr, rfl, hfr⟩, hstate.sent, hstate.path⟩, rfl,
    ?_⟩, ?_⟩
  · intro streamId x hx
    exact hx.imp_right fun hqueue => queueHas_add.2 (.inr hqueue)
  · intro streamId x hx
    exact .inr (queueHas_add.2 (.inl (packetHas_encode.2 hx)))

theorem retxFrames_conserves {frames : List StreamFrame} (now : Int)
    (hframes : ∀ fr ∈ frames, fr.Carries content) (state : QuicSocketTxBuffer × Nat × Nat)
    (hstate : Carrying content state.1) :
    let result := (frames.map fun fr => (fr.header, fr.encode)).foldl (retxFrame now) state
    Requeued content state.1 result.1 ∧
      ∀ streamId x, PacketHas (encodeAll frames) streamId x → Waits result.1 streamId x := by
  induction frames generalizing state with
  | nil =>
      refine ⟨.refl hstate, ?_⟩
      intro streamId x hx
      rw [packetHas_encodeAll] at hx
      simp at hx
  | cons fr rest ih =>
      obtain ⟨hfirst, hhas⟩ := retxFrame_conserves hstate (hframes fr List.mem_cons_self) now
      obtain ⟨hrest, hbytes⟩ := ih (fun other hother =>
        hframes other (List.mem_cons_of_mem _ hother)) _ hfirst.carrying
      refine ⟨hfirst.trans hrest, ?_⟩
      intro streamId x hx
      rw [packetHas_encodeAll] at hx
      obtain ⟨other, hother, hx⟩ := hx
      rcases List.mem_cons.1 hother with rfl | hother
      · exact hrest.waits (hhas streamId x hx)
      · exact hbytes streamId x (packetHas_encodeAll.2 ⟨other, hother, hx⟩)

/-- The bytes of a lost packet wait again. -/
theorem retxItem_conserves (pathId : Nat) (now : Int) {state : QuicSocketTxBuffer × Nat × Nat}
    (hstate : Carrying content state.1) {item : QuicSocketTxItem}
    (hitem : Assembled content item.packet) :
    let result := retxItem pathId now state item
    Requeued content state.1 result.1 ∧ (item.lost = true →
      ∀ streamId x, PacketHas item.packet streamId x → Waits result.1 streamId x) := by
  unfold retxItem
  dsimp only
  split
  · rename_i hlost
    refine ⟨.refl hstate, ?_⟩
    intro h
    simp [h] at hlost
  split
  · refine ⟨⟨⟨?_, hstate.queue, hstate.sent, hstate.path⟩, rfl, ?_⟩, ?_⟩
    · intro other hother
      rcases List.mem_cons.1 hother with rfl | hother
      · exact hitem
      · exact hstate.streamZero other hother
    · intro streamId x hx
      refine hx.imp_left ?_
      rintro ⟨other, hother, hhas⟩
      exact ⟨other, List.mem_cons_of_mem _ hother, hhas⟩
    · intro _ streamId x hx
      exact .inl ⟨_, List.mem_cons_self, hx⟩
  · obtain ⟨frames, hpacket, hframes⟩ := hitem
    rw [hpacket, retxFrames_encodeAll]
    obtain ⟨hrequeued, hbytes⟩ := retxFrames_conserves now hframes
      ({ state.1 with
        sentSizeList := state.1.sentSizeList.modify pathId (wrapSub · item.packet.length) },
        state.2) ⟨hstate.streamZero, hstate.queue, hstate.sent, hstate.path⟩
    rw [hpacket] at hrequeued hbytes
    exact ⟨⟨hrequeued.carrying, hrequeued.sent, hrequeued.waits⟩, fun _ => hbytes⟩

theorem retxItems_conserves (pathId : Nat) (now : Int) {items : List QuicSocketTxItem}
    (hitems : ∀ item ∈ items, Assembled content item.packet)
    (state : QuicSocketTxBuffer × Nat × Nat) (hstate : Carrying content state.1) :
    let result := items.foldl (retxItem pathId now) state
    Requeued content state.1 result.1 ∧ ∀ item ∈ items, item.lost = true →
      ∀ streamId x, PacketHas item.packet streamId x → Waits result.1 streamId x := by
  induction items generalizing state with
  | nil => exact ⟨.refl hstate, by simp⟩
  | cons item rest ih =>
      obtain ⟨hfirst, hbytes⟩ := retxItem_conserves pathId now hstate
        (hitems item List.mem_cons_self)
      obtain ⟨hrest, hlater⟩ := ih (fun other hother =>
        hitems other (List.mem_cons_of_mem _ hother)) _ hfirst.carrying
      refine ⟨hfirst.trans hrest, ?_⟩
      intro other hother hlost streamId x hx
      rcases List.mem_cons.1 hother with rfl | hother
      · exact hrest.waits (hbytes hlost streamId x hx)
      · exact hlater other hother hlost streamId x hx

/-- A byte in flight still is after a retransmission, or it waits again. -/
theorem retransmission_conserves {b : QuicSocketTxBuffer} (hb : Carrying content b)
    (packetNumber pathId : Nat) (now : Int) :
    let b' := (b.retransmission packetNumber pathId now).2
    Carrying content b' ∧ (∀ streamId x, Waits b streamId x → Waits b' streamId x) ∧
      ∀ streamId x, InFlight b streamId x → Waits b' streamId x ∨ InFlight b' streamId x := by
  have hitems : ∀ item ∈ (b.sentList pathId).reverse, Assembled content item.packet := by
    intro item hitem
    exact hb.sent.getD pathId item (List.mem_reverse.1 hitem)
  obtain ⟨hrequeued, hbytes⟩ := retxItems_conserves pathId now hitems
    (b, packetNumber, 0) hb
  unfold retransmission
  dsimp only
  generalize (b.sentList pathId).reverse.foldl (retxItem pathId now) (b, packetNumber, 0) = state
    at hrequeued hbytes
  have hsent : state.1.sentList pathId = b.sentList pathId := by
    unfold sentList
    rw [hrequeued.sent]
  refine ⟨hrequeued.carrying.modifySentList ?_, fun _ _ hx => hrequeued.waits hx, ?_⟩
  · intro item hitem
    exact hrequeued.carrying.sent.getD pathId item (List.mem_of_mem_filter hitem)
  · intro streamId x hx
    by_cases hlost : ∃ item ∈ b.sentList pathId, item.lost = true ∧
        PacketHas item.packet streamId x
    · obtain ⟨item, hitem, hlost, hhas⟩ := hlost
      exact .inl (hbytes item (List.mem_reverse.2 hitem) hlost streamId x hhas)
    · right
      have hstate : InFlight state.1 streamId x := by
        unfold InFlight
        rw [hrequeued.sent]
        exact hx
      apply hstate.modify
      rintro item hitem ⟨hsacked, hhas⟩
      have hkept : item.lost = false := by
        by_contra h
        refine hlost ⟨item, ?_, by simpa using h, hhas⟩
        rwa [← hsent]
      exact ⟨item, List.mem_filter.2 ⟨hitem, by simp [hkept]⟩, hsacked, hhas⟩

/-! ## New data and new packets -/

/-- A frame that is taken waits, and nothing else changes place. -/
theorem add_conserves {b : QuicSocketTxBuffer} (hb : Carrying content b) {fr : StreamFrame}
    (hfr : fr.Carries content) (now : Int) :
    let result := b.add fr.encode now
    Requeued content b result.2 ∧ (result.1 = true →
      ∀ streamId x, fr.Has streamId x → Waits result.2 streamId x) := by
  have hpeek := peekHeader_encode fr []
  rw [List.append_nil] at hpeek
  have hframe : SingleFrame content fr.encode := ⟨fr, rfl, hfr⟩
  unfold QuicSocketTxBuffer.add
  rw [hpeek]
  dsimp only
  split
  · split
    · split
      · exact ⟨.refl hb, by simp⟩
      · split
        · refine ⟨⟨⟨?_, hb.queue, hb.sent, hb.path⟩, rfl, ?_⟩, ?_⟩
          · intro item hitem
            rcases List.mem_append.1 hitem with hitem | hitem
            · exact hb.streamZero item hitem
            · rw [List.mem_singleton.1 hitem]
              exact hframe.assembled
          · intro streamId x hx
            refine hx.imp_left ?_
            rintro ⟨item, hitem, hhas⟩
            exact ⟨item, List.mem_append_left _ hitem, hhas⟩
          · intro _ streamId x hx
            exact .inl ⟨_, List.mem_append_right _ List.mem_cons_self, packetHas_encode.2 hx⟩
        · refine ⟨⟨⟨hb.streamZero, hb.queue.add hframe, hb.sent, hb.path⟩, rfl, ?_⟩, ?_⟩
          · intro streamId x hx
            exact hx.imp_right fun hqueue => queueHas_add.2 (.inr hqueue)
          · intro _ streamId x hx
            exact .inr (queueHas_add.2 (.inl (packetHas_encode.2 hx)))
    · exact ⟨.refl hb, by simp⟩
  · exact ⟨.refl hb, by simp⟩

/-- What sending a packet keeps: a byte that waits may go in flight, one in flight stays there. -/
structure Sent (content : Nat → Nat → UInt8) (b b' : QuicSocketTxBuffer) : Prop where
  carrying : Carrying content b'
  waits : ∀ {streamId x}, Waits b streamId x → Waits b' streamId x ∨ InFlight b' streamId x
  inFlight : ∀ {streamId x}, InFlight b streamId x → InFlight b' streamId x

/-- Appending a packet to a sent list keeps what is in flight, and puts its bytes there. -/
theorem inFlight_append {b : QuicSocketTxBuffer} {pathId : Nat} (item : QuicSocketTxItem) :
    (InFlight b streamId x → InFlight (b.modifySentList pathId (· ++ [item])) streamId x) ∧
      (pathId < b.subflowSentList.length → item.sacked = false →
        PacketHas item.packet streamId x →
          InFlight (b.modifySentList pathId (· ++ [item])) streamId x) := by
  constructor
  · intro hx
    apply hx.modify
    intro other hother hP
    exact ⟨other, List.mem_append_left _ hother, hP⟩
  · intro hpath hsacked hhas
    exact Some.of_modify hpath (List.mem_append_right _ List.mem_cons_self) ⟨hsacked, hhas⟩

theorem Carrying.append {b : QuicSocketTxBuffer} (hb : Carrying content b) (pathId : Nat)
    (item : QuicSocketTxItem) (hitem : Assembled content item.packet) :
    Carrying content (b.modifySentList pathId (· ++ [item])) := by
  apply hb.modifySentList
  intro other hother
  rcases List.mem_append.1 hother with hother | hother
  · exact hb.sent.getD pathId other hother
  · rw [List.mem_singleton.1 hother]
    exact hitem

theorem nextStream0Sequence_conserves {b : QuicSocketTxBuffer} (hb : Carrying content b)
    (seq : Nat) (now : Int) : Sent content b (b.nextStream0Sequence seq now).2 := by
  unfold nextStream0Sequence
  split
  · exact ⟨hb, .inl, fun h => h⟩
  · rename_i current rest hlist
    have hcurrent : Assembled content current.packet :=
      hb.streamZero current (by simp [hlist])
    let item : QuicSocketTxItem :=
      { packet := current.packet, packetNumber := seq, lastSent := now,
        isStream0 := current.isStream0, generated := now }
    have hsent := hb.append 0 item hcurrent
    refine ⟨⟨?_, hb.queue, hsent.sent, hsent.path⟩, ?_, (inFlight_append _).1⟩
    · intro item hitem
      exact hb.streamZero item (by simp [hlist, hitem])
    · intro streamId x hx
      rcases hx with ⟨item, hitem, hhas⟩ | hqueue
      · rw [hlist] at hitem
        rcases List.mem_cons.1 hitem with rfl | hitem
        · exact .inr ((inFlight_append _).2 hb.path rfl hhas)
        · exact .inl (.inl ⟨item, hitem, hhas⟩)
      · exact .inl (.inr hqueue)

theorem nextSequence_conserves {b : QuicSocketTxBuffer} (hb : Carrying content b)
    (numBytes seq pathId : Nat) (now : Int) (hpath : pathId < b.subflowSentList.length) :
    Assembled content (b.nextSequence numBytes seq pathId now).1 ∧
      Sent content b (b.nextSequence numBytes seq pathId now).2 := by
  obtain ⟨hassembled, hsacked, hqueue, hbytes⟩ := segmentLoop_conserves numBytes
    b.scheduler.appSize { isStream := true, generated := now } hb.queue assembled_nil rfl
  unfold nextSequence getNewSegment
  dsimp only
  generalize segmentLoop numBytes b.scheduler.appList b.scheduler.appSize
    { isStream := true, generated := now } = result at hassembled hsacked hqueue hbytes
  refine ⟨hassembled, ?_⟩
  split
  · have hsent := hb.append pathId { result.1 with packetNumber := seq, lastSent := now }
      hassembled
    refine ⟨⟨hb.streamZero, hqueue, hsent.sent, hsent.path⟩, ?_, (inFlight_append _).1⟩
    intro streamId x hx
    rcases hx with hzero | hwaits
    · exact .inl (.inl hzero)
    · rcases hbytes streamId x (.inr hwaits) with hhas | hqueued
      · exact .inr ((inFlight_append _).2 hpath hsacked hhas)
      · exact .inl (.inr hqueued)
  · rename_i hempty
    refine ⟨⟨hb.streamZero, hqueue, hb.sent, hb.path⟩, ?_, fun h => h⟩
    intro streamId x hx
    rcases hx with hzero | hwaits
    · exact .inl (.inl hzero)
    · rcases hbytes streamId x (.inr hwaits) with hhas | hqueued
      · -- an empty packet has no byte
        have hnil : result.1.packet = encodeAll [] := by
          rw [encodeAll_nil]
          exact List.eq_nil_of_length_eq_zero (by omega)
        rw [hnil, packetHas_encodeAll] at hhas
        simp at hhas
      · exact .inl (.inr hqueued)

/-! ## The run -/

/-- The calls of the socket. -/
inductive TxEvent where
  | add (p : List UInt8) (now : Int)
  | nextStream0Sequence (seq : Nat) (now : Int)
  | nextSequence (numBytes seq pathId : Nat) (now : Int)
  | onAckUpdate (tcb : QuicSocketState) (largestAcknowledged : Nat)
      (additionalAckBlocks gaps : List Nat) (pathId : Nat) (now : Int)
  | addSentList (pathId : Nat)
  | resetSentList (pathId keepItems : Nat)
  | markAsLost (seq pathId : Nat)
  | markHeadAsLost (pathId : Nat)
  | markAllOutstandingAsLost (pathId : Nat)
  | retransmission (packetNumber pathId : Nat) (now : Int)

/-- The buffer, with the packets it took and the packets that were acknowledged. -/
structure TxRun where
  buffer : QuicSocketTxBuffer
  accepted : List (List UInt8) := []
  sacked : List (List UInt8) := []

namespace TxRun

/-- A buffer of the given size that was never used. -/
def start (maxBuffer : Nat) : TxRun := { buffer := { maxBuffer } }

def step (r : TxRun) : TxEvent → TxRun
  | .add p now =>
      let result := r.buffer.add p now
      { r with
        buffer := result.2
        accepted := if result.1 then r.accepted ++ [p] else r.accepted }
  | .nextStream0Sequence seq now => { r with buffer := (r.buffer.nextStream0Sequence seq now).2 }
  | .nextSequence numBytes seq pathId now =>
      { r with buffer := (r.buffer.nextSequence numBytes seq pathId now).2 }
  | .onAckUpdate tcb largest blocks gaps pathId now =>
      let result := r.buffer.onAckUpdate tcb largest blocks gaps pathId now
      { r with buffer := result.2, sacked := r.sacked ++ result.1.map (·.packet) }
  | .addSentList pathId => { r with buffer := r.buffer.addSentList pathId }
  | .resetSentList pathId keepItems =>
      { r with buffer := r.buffer.resetSentList pathId keepItems }
  | .markAsLost seq pathId => { r with buffer := (r.buffer.markAsLost seq pathId).2 }
  | .markHeadAsLost pathId => { r with buffer := (r.buffer.markHeadAsLost pathId).2 }
  | .markAllOutstandingAsLost pathId =>
      { r with buffer := (r.buffer.markAllOutstandingAsLost pathId).2 }
  | .retransmission packetNumber pathId now =>
      { r with buffer := (r.buffer.retransmission packetNumber pathId now).2 }

/-- Only STREAM frames that carry the content of their stream are added, and packets are sent on
known paths. -/
def Valid (content : Nat → Nat → UInt8) (r : TxRun) : TxEvent → Prop
  | .add p _ => SingleFrame content p
  | .nextSequence _ _ pathId _ => pathId < r.buffer.subflowSentList.length
  | _ => True

/-- The byte waits, is in flight, or was acknowledged. -/
def Held (r : TxRun) (streamId x : Nat) : Prop :=
  Waits r.buffer streamId x ∨ InFlight r.buffer streamId x ∨
    ∃ packet ∈ r.sacked, PacketHas packet streamId x

/-- No byte is lost, and the places hold frames that carry the content. -/
structure Conserved (content : Nat → Nat → UInt8) (r : TxRun) : Prop where
  carrying : Carrying content r.buffer
  sacked : ∀ packet ∈ r.sacked, Assembled content packet
  held : ∀ packet ∈ r.accepted, ∀ streamId x, PacketHas packet streamId x → r.Held streamId x

theorem start_conserved (maxBuffer : Nat) : Conserved content (start maxBuffer) where
  carrying :=
    { streamZero := by simp [start]
      queue := by simp [start, QueueCarries]
      sent := by simp [start, All]
      path := by simp [start] }
  sacked := by simp [start]
  held := by simp [start]

/-- A step that changes the buffer alone, without losing a byte, keeps the invariant. -/
theorem Conserved.of_buffer {r : TxRun} (hr : Conserved content r) {b : QuicSocketTxBuffer}
    (hb : Carrying content b)
    (hkeep : ∀ streamId x, Waits r.buffer streamId x ∨ InFlight r.buffer streamId x →
      Waits b streamId x ∨ InFlight b streamId x) :
    Conserved content { r with buffer := b } where
  carrying := hb
  sacked := hr.sacked
  held := by
    intro packet hpacket streamId x hx
    rcases hr.held packet hpacket streamId x hx with hwaits | hflight | hacked
    · exact (or_assoc.1 (.inl (hkeep streamId x (.inl hwaits))))
    · exact (or_assoc.1 (.inl (hkeep streamId x (.inr hflight))))
    · exact .inr (.inr hacked)

/-- A step that rewrites a sent list and keeps its keys keeps the invariant. -/
theorem Conserved.of_key {r : TxRun} (hr : Conserved content r) {pathId : Nat}
    {f : List QuicSocketTxItem → List QuicSocketTxItem}
    (hf : (f (r.buffer.sentList pathId)).map key = (r.buffer.sentList pathId).map key) :
    Conserved content { r with buffer := r.buffer.modifySentList pathId f } := by
  apply hr.of_buffer (hr.carrying.of_key hf)
  intro streamId x hx
  exact hx.imp_right fun hflight => hflight.of_key hf

/-- A step that takes a packet, all of whose bytes then wait, keeps the invariant. -/
theorem Conserved.added {r : TxRun} (hr : Conserved content r) {p : List UInt8}
    {result : Bool × QuicSocketTxBuffer} (hrequeued : Requeued content r.buffer result.2)
    (hbytes : result.1 = true →
      ∀ streamId x, PacketHas p streamId x → Waits result.2 streamId x) :
    Conserved content { r with
      buffer := result.2
      accepted := if result.1 then r.accepted ++ [p] else r.accepted } := by
  have hkept : Conserved content { r with buffer := result.2 } := by
    apply hr.of_buffer hrequeued.carrying
    intro streamId x hx
    unfold InFlight at hx ⊢
    rw [hrequeued.sent]
    exact hx.imp_left hrequeued.waits
  refine ⟨hkept.carrying, hkept.sacked, ?_⟩
  intro packet hpacket streamId x hx
  dsimp only at hpacket
  split at hpacket
  · rename_i htaken
    rcases List.mem_append.1 hpacket with hpacket | hpacket
    · exact hkept.held packet hpacket streamId x hx
    · rw [List.mem_singleton.1 hpacket] at hx
      exact .inl (hbytes htaken streamId x hx)
  · exact hkept.held packet hpacket streamId x hx

theorem Conserved.sent {r : TxRun} (hr : Conserved content r) {b : QuicSocketTxBuffer}
    (hsent : Sent content r.buffer b) : Conserved content { r with buffer := b } := by
  apply hr.of_buffer hsent.carrying
  intro streamId x hx
  rcases hx with hwaits | hflight
  · exact hsent.waits hwaits
  · exact .inr (hsent.inFlight hflight)

theorem step_conserved {r : TxRun} {event : TxEvent} (hr : Conserved content r)
    (hvalid : Valid content r event) : Conserved content (r.step event) := by
  cases event with
  | add p now =>
      obtain ⟨fr, rfl, hfr⟩ := hvalid
      obtain ⟨hrequeued, hbytes⟩ := add_conserves hr.carrying hfr now
      apply hr.added hrequeued
      intro htaken streamId x hx
      exact hbytes htaken streamId x (packetHas_encode.1 hx)
  | nextStream0Sequence seq now => exact hr.sent (nextStream0Sequence_conserves hr.carrying seq now)
  | nextSequence numBytes seq pathId now =>
      exact hr.sent (nextSequence_conserves hr.carrying numBytes seq pathId now hvalid).2
  | onAckUpdate tcb largest blocks gaps pathId now =>
      refine ⟨hr.carrying.onAckUpdate tcb largest blocks gaps pathId now, ?_, ?_⟩
      · intro packet hpacket
        rcases List.mem_append.1 hpacket with hold | hnew
        · exact hr.sacked packet hold
        · have hmem := ackBlocks_newlyAcked now (largest :: blocks) gaps
            (r.buffer.sentList pathId).reverse hnew
          obtain ⟨item, hitem, rfl⟩ := List.mem_map.1 hmem
          exact hr.carrying.sent.getD pathId item (List.mem_reverse.1 hitem)
      · intro packet hpacket streamId x hx
        rcases hr.held packet hpacket streamId x hx with hwaits | hflight | ⟨acked, hmem, hhas⟩
        · exact .inl hwaits
        · rcases hflight.onAckUpdate tcb largest blocks gaps pathId now with
            hflight | ⟨item, hitem, hhas⟩
          · exact .inr (.inl hflight)
          · exact .inr (.inr ⟨item.packet,
              List.mem_append_right _ (List.mem_map_of_mem hitem), hhas⟩)
        · exact .inr (.inr ⟨acked, List.mem_append_left _ hmem, hhas⟩)
  | addSentList pathId =>
      refine hr.of_buffer ⟨hr.carrying.streamZero, hr.carrying.queue, ?_, ?_⟩ ?_
      · intro items hitems item hitem
        rcases List.mem_append.1 hitems with hitems | hitems
        · exact hr.carrying.sent items hitems item hitem
        · rw [List.eq_of_mem_replicate hitems] at hitem
          exact absurd hitem List.not_mem_nil
      · have hpath := hr.carrying.path
        show 0 < (r.buffer.subflowSentList ++ _).length
        rw [List.length_append]
        omega
      · intro streamId x hx
        refine hx.imp_right ?_
        rintro ⟨items, hitems, item, hitem, hP⟩
        exact ⟨items, List.mem_append_left _ hitems, item, hitem, hP⟩
  | resetSentList pathId keepItems =>
      apply hr.of_key
      rw [List.map_reverse, resetWalk_key, ← List.map_reverse, List.reverse_reverse]
  | markAsLost seq pathId => exact hr.of_key (map_markLost_key _ _)
  | markHeadAsLost pathId =>
      show Conserved content { r with buffer := (r.buffer.markHeadAsLost pathId).2 }
      unfold markHeadAsLost
      split
      · exact hr
      · exact hr.of_key (markHead_key _)
  | markAllOutstandingAsLost pathId =>
      show Conserved content { r with buffer := (r.buffer.markAllOutstandingAsLost pathId).2 }
      unfold markAllOutstandingAsLost
      split
      · exact hr
      · exact hr.of_key (map_markLost_key _ _)
  | retransmission packetNumber pathId now =>
      obtain ⟨hcarrying, hwaits, hflight⟩ :=
        retransmission_conserves hr.carrying packetNumber pathId now
      apply hr.of_buffer hcarrying
      intro streamId x hx
      rcases hx with hx | hx
      · exact .inl (hwaits streamId x hx)
      · exact hflight streamId x hx

/-- Whatever the socket does with its buffer, every byte it took waits, is in flight, or was
acknowledged, and every queued or sent frame carries the content at its offset. -/
theorem run_conserves_data (content : Nat → Nat → UInt8) (maxBuffer : Nat)
    (events : List TxEvent)
    (hvalid : Run.AllSteps step (Valid content) (start maxBuffer) events) :
    let r := Run.run step (start maxBuffer) events
    (∀ packet ∈ r.accepted, ∀ streamId x, PacketHas packet streamId x → r.Held streamId x) ∧
      (∀ item ∈ r.buffer.streamZeroList, PacketCarries content item.packet) ∧
      (∀ scheduled ∈ r.buffer.scheduler.appList, PacketCarries content scheduled.item.packet) ∧
      (All r.buffer.subflowSentList fun item => PacketCarries content item.packet) ∧
      ∀ packet ∈ r.sacked, PacketCarries content packet := by
  have hconserved : Conserved content (Run.run step (start maxBuffer) events) :=
    hvalid.invariant (fun _ _ => step_conserved) (start_conserved maxBuffer)
  refine ⟨hconserved.held, ?_, ?_, ?_, ?_⟩
  · intro item hitem
    exact (hconserved.carrying.streamZero item hitem).packetCarries
  · intro scheduled hscheduled
    exact (hconserved.carrying.queue scheduled hscheduled).assembled.packetCarries
  · intro items hitems item hitem
    exact (hconserved.carrying.sent items hitems item hitem).packetCarries
  · intro packet hpacket
    exact (hconserved.sacked packet hpacket).packetCarries

theorem streamId_firstBytes_lt : 4 < 2 ^ 62 := by decide

/-- The first bytes of stream 4, whose byte at `x` is `x`. -/
def firstBytes : StreamFrame where
  streamId := 4
  offset := 0
  payload := [0, 1, 2, 3, 4, 5]
  offBit := false
  fin := false
  streamId_lt := streamId_firstBytes_lt
  payload_ne := by decide
  length_lt := by decide
  end_le := by decide
  offset_eq := by decide

/-- The frame is split, its front is lost and sent again, and its back is acknowledged. -/
theorem run_conserves_data_of_split_frame :
    let events : List TxEvent :=
      [.add firstBytes.encode 0, .nextSequence 7 1 0 1, .nextSequence 100 2 0 2,
        .onAckUpdate {} 2 [] [1] 0 3, .markAsLost 1 0, .retransmission 3 0 4,
        .nextStream0Sequence 3 5]
    let r := Run.run step (start 32768) events
    (∀ packet ∈ r.accepted, ∀ streamId x, PacketHas packet streamId x → r.Held streamId x) ∧
      (∀ item ∈ r.buffer.streamZeroList,
        PacketCarries (fun _ x => UInt8.ofNat x) item.packet) ∧
      (∀ scheduled ∈ r.buffer.scheduler.appList,
        PacketCarries (fun _ x => UInt8.ofNat x) scheduled.item.packet) ∧
      (All r.buffer.subflowSentList fun item =>
        PacketCarries (fun _ x => UInt8.ofNat x) item.packet) ∧
      ∀ packet ∈ r.sacked, PacketCarries (fun _ x => UInt8.ofNat x) packet :=
  run_conserves_data (fun _ x => UInt8.ofNat x) 32768 _
    ⟨⟨firstBytes, rfl, rfl⟩, by unfold Valid; decide, by unfold Valid; decide, trivial, trivial,
      trivial, trivial, trivial⟩

end TxRun

end NtnIab.Quic
