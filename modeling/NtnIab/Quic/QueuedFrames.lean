import NtnIab.Quic.SegmentAssembly
import NtnIab.Quic.SocketTxBuffer
import NtnIab.Quic.StreamFrame

/-!
# The frames of packets and of the scheduler

A packet is read as the receiver reads it, by `disgregate`: it has bytes of streams, and it carries
the content of the streams if each frame has the data of its stream at its offset. The queue of the
scheduler holds single frames. A new segment takes frames from it and may split one, which keeps
every byte at its offset.
-/

namespace NtnIab.Quic

open Window StreamFrame QuicSocketTxScheduler

/-! ## Packets of frames -/

/-- The receiver finds the byte of the stream in the packet. -/
def PacketHas (packet : List UInt8) (streamId x : Nat) : Prop :=
  ∃ frames, disgregate packet = some (frames, false) ∧ ∃ frame ∈ frames,
    frame.2.isStream ∧ frame.2.streamId = streamId ∧ frame.2.offset ≤ x ∧
      x < frame.2.offset + frame.1.length

/-- The receiver finds only STREAM frames in the packet, each with the content of its stream at
its declared offset. -/
def PacketCarries (content : Nat → Nat → UInt8) (packet : List UInt8) : Prop :=
  ∃ frames, disgregate packet = some (frames, false) ∧ ∀ frame ∈ frames,
    frame.2.isStream ∧ frame.1 = window (content frame.2.streamId) frame.2.offset frame.1.length

/-- The packet is a sequence of well-formed frames that carry the content. -/
def Assembled (content : Nat → Nat → UInt8) (packet : List UInt8) : Prop :=
  ∃ frames, packet = encodeAll frames ∧ ∀ fr ∈ frames, fr.Carries content

/-- The packet is one such frame. -/
def SingleFrame (content : Nat → Nat → UInt8) (packet : List UInt8) : Prop :=
  ∃ fr : StreamFrame, packet = fr.encode ∧ fr.Carries content

variable {content : Nat → Nat → UInt8}

theorem packetHas_encodeAll {frames : List StreamFrame} {streamId x : Nat} :
    PacketHas (encodeAll frames) streamId x ↔ ∃ fr ∈ frames, fr.Has streamId x := by
  unfold PacketHas Has
  rw [disgregate_encodeAll]
  simp

theorem packetHas_encode {fr : StreamFrame} {streamId x : Nat} :
    PacketHas fr.encode streamId x ↔ fr.Has streamId x := by
  have hencode : fr.encode = encodeAll [fr] := by simp
  rw [hencode, packetHas_encodeAll]
  simp

theorem Assembled.packetCarries {packet : List UInt8} (hpacket : Assembled content packet) :
    PacketCarries content packet := by
  obtain ⟨frames, rfl, hframes⟩ := hpacket
  refine ⟨_, disgregate_encodeAll frames, ?_⟩
  intro frame hmem
  obtain ⟨fr, hfr, rfl⟩ := List.mem_map.1 hmem
  refine ⟨fr.header_isStream, ?_⟩
  have hcarries := hframes fr hfr
  dsimp only
  rwa [header_streamId, header_offset]

theorem assembled_nil : Assembled content [] := ⟨[], rfl, by simp⟩

theorem SingleFrame.assembled {packet : List UInt8} (hpacket : SingleFrame content packet) :
    Assembled content packet := by
  obtain ⟨fr, rfl, hfr⟩ := hpacket
  exact ⟨[fr], by simp, by simpa using hfr⟩

theorem Assembled.append {first second : List UInt8} (hfirst : Assembled content first)
    (hsecond : Assembled content second) : Assembled content (first ++ second) := by
  obtain ⟨frames, rfl, hframes⟩ := hfirst
  obtain ⟨frames', rfl, hframes'⟩ := hsecond
  refine ⟨frames ++ frames', by simp, ?_⟩
  intro fr hfr
  rcases List.mem_append.1 hfr with hfr | hfr
  · exact hframes fr hfr
  · exact hframes' fr hfr

theorem packetHas_append {first second : List UInt8} {streamId x : Nat}
    (hfirst : Assembled content first) (hsecond : Assembled content second) :
    PacketHas (first ++ second) streamId x ↔
      PacketHas first streamId x ∨ PacketHas second streamId x := by
  obtain ⟨frames, rfl, -⟩ := hfirst
  obtain ⟨frames', rfl, -⟩ := hsecond
  rw [← encodeAll_append, packetHas_encodeAll, packetHas_encodeAll, packetHas_encodeAll]
  simp [or_and_right, exists_or]

/-! ## Splitting and walking -/

theorem peekHeader_encode (fr : StreamFrame) (rest : List UInt8) :
    peekHeader (fr.encode ++ rest) = (fr.header.serialize.length, fr.header) :=
  fr.toLenFrame.peekHeader_encode rest

/-- A frame is split into its front and its back, at their own offsets. -/
theorem splitPacket_encode {fr : StreamFrame} {n : Nat} (hpos : 0 < n)
    (hlt : n < fr.payload.length) :
    splitPacket fr.encode n =
      ((fr.front n hpos hlt).encode, fr.offset + n, (fr.back n hlt).encode) := by
  have hend := fr.end_le
  have hoffset : fr.offset % 2 ^ 32 = fr.offset := Nat.mod_eq_of_lt fr.offset_lt
  have hnew : wrapAdd (fr.offset % 2 ^ 32) n = fr.offset + n := by
    rw [hoffset]
    exact Nat.mod_eq_of_lt (by omega)
  have hfront : fr.toLenFrame.front n = (fr.front n hpos hlt).toLenFrame :=
    LenFrame.ext rfl hoffset rfl
      (by show decide (fr.offset % 2 ^ 32 ≠ 0) = decide (fr.offset ≠ 0); rw [hoffset]) rfl
  have hback : fr.toLenFrame.back n = (fr.back n hlt).toLenFrame :=
    LenFrame.ext rfl hnew rfl rfl rfl
  have hsplit := fr.toLenFrame.splitPacket_encode hlt
  rw [hfront, hback] at hsplit
  exact hsplit

theorem retxFrameLength_header (fr : StreamFrame) (rest : List UInt8) :
    QuicSocketTxBuffer.retxFrameLength fr.header (fr.payload ++ rest).length =
      fr.payload.length := by
  unfold QuicSocketTxBuffer.retxFrameLength
  rw [if_pos fr.header_isStream, if_pos fr.header_lengthBit, header_length,
    Nat.mod_eq_of_lt fr.length_lt, List.length_append]
  exact min_eq_left (Nat.le_add_right _ _)

/-- The walk over a lost packet finds its frames, as they were. -/
theorem retxFrames_encodeAll (frames : List StreamFrame) :
    QuicSocketTxBuffer.retxFrames (encodeAll frames) =
      frames.map fun fr => (fr.header, fr.encode) := by
  induction frames with
  | nil =>
      unfold QuicSocketTxBuffer.retxFrames
      simp
  | cons fr rest ih =>
      obtain ⟨hsize, hpos⟩ := fr.header_getSerializedSize
      have hne : fr.encode ++ encodeAll rest ≠ [] := by
        apply List.ne_nil_of_length_pos
        unfold encode
        simp only [List.length_append]
        omega
      have hdrop : (fr.encode ++ encodeAll rest).drop fr.header.serialize.length =
          fr.payload ++ encodeAll rest := by
        unfold encode
        rw [List.append_assoc, List.drop_left]
      rw [encodeAll_cons]
      unfold QuicSocketTxBuffer.retxFrames
      rw [if_neg hne, peekHeader_encode]
      dsimp only
      rw [if_neg (by omega), hdrop, retxFrameLength_header, List.take_left, List.drop_left, ih]
      rfl

/-! ## The scheduler -/

/-- Every queued packet is a frame that carries the content. -/
def QueueCarries (content : Nat → Nat → UInt8) (queue : List QuicSocketTxScheduleItem) : Prop :=
  ∀ scheduled ∈ queue, SingleFrame content scheduled.item.packet

/-- Some queued packet has the byte. -/
def QueueHas (queue : List QuicSocketTxScheduleItem) (streamId x : Nat) : Prop :=
  ∃ scheduled ∈ queue, PacketHas scheduled.item.packet streamId x

theorem mem_addScheduleItem {item other : QuicSocketTxScheduleItem} {s : QuicSocketTxScheduler} :
    other ∈ (s.addScheduleItem item).appList ↔ other = item ∨ other ∈ s.appList := by
  unfold addScheduleItem
  exact List.mem_orderedInsert _

theorem QueueCarries.add {item : QuicSocketTxScheduleItem} {s : QuicSocketTxScheduler}
    (hqueue : QueueCarries content s.appList) (hitem : SingleFrame content item.item.packet) :
    QueueCarries content (s.addScheduleItem item).appList := by
  intro other hother
  rcases mem_addScheduleItem.1 hother with rfl | hother
  · exact hitem
  · exact hqueue other hother

theorem queueHas_add {item : QuicSocketTxScheduleItem} {s : QuicSocketTxScheduler}
    {streamId x : Nat} :
    QueueHas (s.addScheduleItem item).appList streamId x ↔
      PacketHas item.item.packet streamId x ∨ QueueHas s.appList streamId x := by
  unfold QueueHas
  simp [mem_addScheduleItem, or_and_right, exists_or]

theorem queueHas_cons {item : QuicSocketTxScheduleItem} {rest : List QuicSocketTxScheduleItem}
    {streamId x : Nat} :
    QueueHas (item :: rest) streamId x ↔
      PacketHas item.item.packet streamId x ∨ QueueHas rest streamId x := by
  unfold QueueHas
  simp [or_and_right, exists_or]

/-- A new segment is a sequence of frames, the queue keeps single ones, and each byte is in one of
them. The segment is neither acknowledged nor lost if nothing in it is. -/
theorem segmentLoop_conserves (numBytes appSize : Nat) (outItem : QuicSocketTxItem)
    {queue : List QuicSocketTxScheduleItem} (hqueue : QueueCarries content queue)
    (hout : Assembled content outItem.packet) (hsacked : outItem.sacked = false) :
    let result := segmentLoop numBytes queue appSize outItem
    Assembled content result.1.packet ∧ result.1.sacked = false ∧
      QueueCarries content result.2.appList ∧
      ∀ streamId x, PacketHas outItem.packet streamId x ∨ QueueHas queue streamId x →
        PacketHas result.1.packet streamId x ∨ QueueHas result.2.appList streamId x := by
  induction queue generalizing appSize outItem with
  | nil => exact ⟨hout, hsacked, hqueue, fun _ _ h => h⟩
  | cons top rest ih =>
      have htop : SingleFrame content top.item.packet := hqueue top List.mem_cons_self
      have hrest : QueueCarries content rest := fun other hother =>
        hqueue other (List.mem_cons_of_mem _ hother)
      unfold segmentLoop
      dsimp only
      split
      · exact ⟨hout, hsacked, hqueue, fun _ _ h => h⟩
      split
      · obtain ⟨hassembled, hfresh, hleft, hbytes⟩ :=
          ih (wrapSub appSize top.item.packet.length) (outItem.mergeItems top.item) hrest
            (hout.append htop.assembled) (by simp [QuicSocketTxItem.mergeItems, hsacked])
        refine ⟨hassembled, hfresh, hleft, ?_⟩
        intro streamId x hx
        apply hbytes
        rw [queueHas_cons, ← or_assoc, ← packetHas_append hout htop.assembled] at hx
        exact hx
      · obtain ⟨fr, hfr, hcarries⟩ := htop
        obtain ⟨hsize, -⟩ := fr.header_getSerializedSize
        have hpeek := peekHeader_encode fr []
        rw [List.append_nil] at hpeek
        rw [hfr, hpeek]
        dsimp only
        split
        · refine ⟨hout, hsacked, QueueCarries.add (s := ⟨rest, _⟩) hrest ⟨fr, hfr, hcarries⟩, ?_⟩
          intro streamId x hx
          rw [queueHas_cons] at hx
          rw [queueHas_add]
          exact hx
        · have hlength : fr.encode.length = fr.header.serialize.length + fr.payload.length := by
            unfold encode
            rw [List.length_append]
          rename_i hloop hbig hnonzero
          rw [hfr] at hbig
          have hle := newPacketSize_le (show outItem.packet.length ≤ numBytes by omega)
            (fr.header.getSerializedSize_le.trans (by decide))
          generalize newPacketSize numBytes outItem.packet.length fr.header.getSerializedSize = n
            at hle hnonzero ⊢
          have hpos : 0 < n := by omega
          have hlt : n < fr.payload.length := by omega
          rw [splitPacket_encode hpos hlt]
          dsimp only
          have hfront : SingleFrame content (fr.front _ hpos hlt).encode :=
            ⟨_, rfl, hcarries.front hpos hlt⟩
          have hback : SingleFrame content (fr.back _ hlt).encode := ⟨_, rfl, hcarries.back hlt⟩
          refine ⟨hout.append hfront.assembled, by simp [QuicSocketTxItem.mergeItems, hsacked],
            QueueCarries.add (s := ⟨rest, _⟩) hrest hback, ?_⟩
          intro streamId x hx
          rw [queueHas_cons, hfr, packetHas_encode, ← has_front_or_back hpos hlt] at hx
          unfold QuicSocketTxItem.mergeItems
          dsimp only
          rw [packetHas_append hout hfront.assembled, queueHas_add, packetHas_encode]
          dsimp only
          rw [packetHas_encode]
          tauto

end NtnIab.Quic
