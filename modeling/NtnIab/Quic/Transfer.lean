import NtnIab.Quic.Connection

/-!
# What is delivered is what was written

Whatever is lost, repeated or reordered on the way, every stream of the receiver hands on a prefix
of what was written to the stream of the sender with the same id, and nothing that was written
disappears before its packet is acknowledged.

## Strategy

The content of a stream is not known before its end, so that the frames are said to carry every
content that begins with what was written so far (`Agrees`). The more is written, the fewer contents
agree, and what was said of the frames stays true. It also says that no frame goes beyond what was
written (`end_le_of_agrees`). The socket keeps such frames by `TxRun.step_conserved`, and a stream
that receives them delivers a prefix by `DeliversPrefix.recv`.
-/

namespace NtnIab.Quic

open Window StreamFrame QuicStreamBase QuicStreamTxBuffer

/-! ## Logs and contents -/

section

variable {log written : StreamLog} {i j : Nat} {data : List UInt8}
  {content : Nat → Nat → UInt8}

theorem StreamLog.on_concat (i j : Nat) (data : List UInt8) (log : StreamLog) :
    StreamLog.on i (log ++ [(j, data)]) = log.on i ++ if j = i then data else [] := by
  unfold StreamLog.on
  rw [List.filter_append, List.flatMap_append, List.filter_singleton]
  by_cases hji : j = i
  · simp [hji]
  · simp [hji]

/-- The content of every stream begins with what was written to it. -/
def Agrees (content : Nat → Nat → UInt8) (written : StreamLog) : Prop :=
  ∀ i, written.on i = window (content i) 0 (written.on i).length

/-- A content that agrees with what was written later agrees with what was written before. -/
theorem Agrees.of_concat (hagrees : Agrees content (written ++ [(j, data)])) :
    Agrees content written := by
  intro i
  have hwhole := hagrees i
  rw [StreamLog.on_concat] at hwhole
  have htake := take_eq_window (content i) 0 hwhole (k := (written.on i).length) (by simp)
  rwa [List.take_left] at htake

/-- What was written, and the same byte for ever after it. -/
theorem agrees_getD (d : UInt8) (written : StreamLog) :
    Agrees (fun i x => (written.on i).getD x d) written := by
  intro i
  rw [window_getD d (Nat.le_of_eq (Nat.zero_add _)), List.drop_zero, List.take_length]

/-- A frame that carries every content goes no further than what was written. -/
theorem end_le_of_agrees {fr : StreamFrame}
    (hcarries : ∀ content, Agrees content written → fr.Carries content) :
    fr.offset + fr.payload.length ≤ (written.on fr.streamId).length := by
  by_contra hlong
  have hpos := fr.length_pos
  -- the last byte of the frame would be each of two
  have hlast : ∀ d : UInt8, fr.payload.drop (fr.payload.length - 1) = [d] := by
    intro d
    rw [drop_eq_window _ _ (hcarries _ (agrees_getD d written)),
      show fr.payload.length - (fr.payload.length - 1) = 1 by omega]
    have hbeyond : (written.on fr.streamId).length ≤
        fr.offset + (fr.payload.length - 1) := by omega
    unfold window
    rw [List.range'_one, List.map_singleton, List.getD_eq_default _ _ hbeyond]
  exact absurd (List.singleton_inj.1 ((hlast 0).symm.trans (hlast 1))) (by decide)

/-- A packet that is assembled for every content has one list of frames, for all of them. -/
theorem exists_frames_of_agrees {packet : List UInt8}
    (hpacket : ∀ content, Agrees content written → Assembled content packet) :
    ∃ frames, packet = encodeAll frames ∧
      ∀ fr ∈ frames, ∀ content, Agrees content written → fr.Carries content := by
  obtain ⟨frames, hframes, -⟩ := hpacket _ (agrees_getD 0 written)
  refine ⟨frames, hframes, fun fr hfr content hagrees => ?_⟩
  obtain ⟨others, hothers, hcarries⟩ := hpacket content hagrees
  have hread := disgregate_encodeAll frames
  rw [← hframes, hothers, disgregate_encodeAll others, Option.some.injEq, Prod.mk.injEq] at hread
  have hmem : (fr.payload, fr.header) ∈ others.map fun fr => (fr.payload, fr.header) :=
    hread.1 ▸ List.mem_map_of_mem hfr
  obtain ⟨other, hother, heq⟩ := List.mem_map.1 hmem
  obtain ⟨hpayload, hheader⟩ := Prod.mk.inj heq
  have hid : other.streamId = fr.streamId := congrArg QuicSubheader.streamId hheader
  have hoffset : other.offset = fr.offset := by
    rw [← other.header_offset, ← fr.header_offset, hheader]
  have hother := hcarries other hother
  unfold StreamFrame.Carries at hother ⊢
  rwa [hpayload, hid, hoffset] at hother

end

/-! ## New streams -/

/-- A stream that was just created. -/
structure NewStream (i : Nat) (stream : QuicStreamBase) : Prop where
  streamId_eq : stream.streamId = i
  txBuffer_eq : stream.txBuffer = {}
  rxBuffer_eq : stream.rxBuffer = {}
  sentSize_eq : stream.sentSize = 0
  recvSize_eq : stream.recvSize = 0

theorem NewStream.setMaxStreamData {i : Nat} {stream : QuicStreamBase} (hnew : NewStream i stream)
    (maxStreamData : Nat) : NewStream i (stream.setMaxStreamData maxStreamData) := by
  unfold QuicStreamBase.setMaxStreamData
  dsimp only
  split <;> exact ⟨hnew.streamId_eq, hnew.txBuffer_eq, hnew.rxBuffer_eq, hnew.sentSize_eq,
    hnew.recvSize_eq⟩

namespace QuicL5Protocol

variable {l5 : QuicL5Protocol} {streamDirectionType : QuicStreamDirectionType}

theorem exists_createStream (streamDirectionType : QuicStreamDirectionType)
    (l5 : QuicL5Protocol) : ∃ stream, NewStream l5.streams.length stream ∧
      l5.createStream streamDirectionType = { l5 with streams := l5.streams ++ [stream] } := by
  have hnew : ∀ direction, NewStream l5.streams.length
      { streamId := l5.streams.length, streamDirectionType := direction } :=
    fun _ => ⟨rfl, rfl, rfl, rfl, rfl⟩
  unfold createStream
  dsimp only
  refine ⟨_, ?_, rfl⟩
  exact (hnew _).setMaxStreamData _

/-- The streams that are created follow the others, each with its position for an id. -/
theorem exists_created (streamDirectionType : QuicStreamDirectionType) (n : Nat)
    (l5 : QuicL5Protocol) : ∃ new, new.length = n ∧
      (∀ k stream, new[k]? = some stream → NewStream (l5.streams.length + k) stream) ∧
      (List.range n).foldl (fun l5 _ => l5.createStream streamDirectionType) l5 =
        { l5 with streams := l5.streams ++ new } := by
  induction n with
  | zero => exact ⟨[], rfl, by simp, by simp⟩
  | succ n ih =>
      obtain ⟨new, hlength, hnew, hfold⟩ := ih
      rw [List.range_succ, List.foldl_append, hfold]
      obtain ⟨stream, hstream, hcreate⟩ := exists_createStream streamDirectionType
        { l5 with streams := l5.streams ++ new }
      refine ⟨new ++ [stream], by simp [hlength], ?_, ?_⟩
      · intro k other hk
        rw [List.getElem?_append] at hk
        split at hk
        · exact hnew k other hk
        · rename_i hge
          have hzero : k - new.length = 0 := by
            by_contra hne
            rw [List.getElem?_singleton, if_neg hne] at hk
            cases hk
          rw [hzero] at hk
          obtain rfl := Option.some.inj hk
          rw [show k = new.length by omega]
          rwa [List.length_append] at hstream
      · rw [List.foldl_cons, List.foldl_nil, hcreate, List.append_assoc]

/-- What holds of the streams that are there and of new ones holds of all. -/
theorem forall_created (streamDirectionType : QuicStreamDirectionType) (n : Nat)
    {P : Nat → QuicStreamBase → Prop}
    (hstreams : ∀ i stream, l5.streams[i]? = some stream → P i stream)
    (hnew : ∀ i stream, l5.streams.length ≤ i → NewStream i stream → P i stream) :
    let l5' := (List.range n).foldl (fun l5 _ => l5.createStream streamDirectionType) l5
    (∀ i stream, l5'.streams[i]? = some stream → P i stream) ∧
      l5'.streams.length = l5.streams.length + n ∧ l5'.maxStreamId = l5.maxStreamId := by
  obtain ⟨new, hlength, hcreated, hfold⟩ := exists_created streamDirectionType n l5
  rw [hfold]
  refine ⟨fun i stream hi => ?_, by simp [hlength], rfl⟩
  dsimp only at hi
  rw [List.getElem?_append] at hi
  split at hi
  · exact hstreams i stream hi
  · rename_i hge
    have hstream := hcreated _ stream hi
    rw [Nat.add_sub_cancel' (Nat.le_of_not_lt hge)] at hstream
    exact hnew i stream (Nat.le_of_not_lt hge) hstream

end QuicL5Protocol

/-! ## Receiving -/

theorem DeliversPrefix.mono {f : Nat → UInt8} {limit limit' : Nat} {r : Receiver}
    (hr : DeliversPrefix f limit r) (hle : limit ≤ limit') : DeliversPrefix f limit' r :=
  ⟨hr.streamId_ne, hr.received_eq, hr.recvSize_le.trans hle, hr.accounted,
    fun item hitem => ⟨(hr.holds item hitem).1, (hr.holds item hitem).2.trans hle⟩⟩

theorem NewStream.deliversPrefix {i : Nat} {stream : QuicStreamBase} (hnew : NewStream i stream)
    (hi : i ≠ 0) (f : Nat → UInt8) (limit : Nat) : DeliversPrefix f limit { stream } := by
  have hfresh : stream.Fresh := by
    refine ⟨hnew.recvSize_eq, ?_, ?_, ?_⟩
    · rw [hnew.rxBuffer_eq]
    · rw [hnew.rxBuffer_eq]
    · rw [hnew.rxBuffer_eq]
      decide
  exact hfresh.deliversPrefix (hnew.streamId_eq ▸ hi) f limit

theorem recvStream_streamId (flag : Bool) (frame : List UInt8) (sub : QuicSubheader)
    (s : QuicStreamBase) : (s.recvStream flag frame sub).2.1.streamId = s.streamId := by
  rcases recvStream_cases flag frame sub s with ⟨-, hsame, -⟩ | ⟨-, s', hsame, hresult⟩
  · exact hsame.streamId_eq
  · rw [hresult]
    dsimp only
    split
    · exact (recvInOrder_spec _ sub s').2.2.1.trans hsame.streamId_eq
    · exact (recvUnordered_spec _ sub s').2.2.1.trans hsame.streamId_eq

/-- Every stream of the receiver knows its id, and has handed on the beginning of every content that
agrees with what was written. -/
structure Receiving.Sound (written : StreamLog) (r : Receiving) : Prop where
  streamId_eq : ∀ i (stream : QuicStreamBase), r.l5.streams[i]? = some stream → stream.streamId = i
  delivers : ∀ i (stream : QuicStreamBase), r.l5.streams[i]? = some stream → i ≠ 0 →
    ∀ content, Agrees content written → DeliversPrefix (content i) (written.on i).length
      { stream, received := r.received.on i }
  unopened : ∀ i, r.l5.streams.length ≤ i → r.received.on i = []

namespace Receiving

variable {written : StreamLog} {r : Receiving}

/-- Writing more does not change what was handed on. -/
theorem Sound.concat (hr : Sound written r) (i : Nat) (data : List UInt8) :
    Sound (written ++ [(i, data)]) r where
  streamId_eq := hr.streamId_eq
  delivers := by
    intro k stream hk hne content hagrees
    refine (hr.delivers k stream hk hne content hagrees.of_concat).mono ?_
    rw [StreamLog.on_concat, List.length_append]
    exact Nat.le_add_right _ _
  unopened := hr.unopened

theorem Sound.createStreamsUpTo (hr : Sound written r)
    (streamDirectionType : QuicStreamDirectionType) (streamNum : Nat) :
    Sound written { r with l5 := r.l5.createStreamsUpTo streamDirectionType streamNum } := by
  unfold QuicL5Protocol.createStreamsUpTo
  split
  · exact hr
  have hall := QuicL5Protocol.forall_created streamDirectionType
    (streamNum + 1 - r.l5.streams.length)
    (P := fun i stream => stream.streamId = i ∧ (i ≠ 0 → ∀ content, Agrees content written →
      DeliversPrefix (content i) (written.on i).length { stream, received := r.received.on i }))
    (fun i stream hi => ⟨hr.streamId_eq i stream hi, hr.delivers i stream hi⟩)
    (fun i stream hle hnew => ⟨hnew.streamId_eq, fun hi content _ => by
      rw [hr.unopened i hle]
      exact hnew.deliversPrefix hi _ _⟩)
  obtain ⟨hstreams, hlength, -⟩ := hall
  refine ⟨fun i stream hi => (hstreams i stream hi).1, fun i stream hi => (hstreams i stream hi).2,
    fun i hle => hr.unopened i ?_⟩
  dsimp only at hle
  omega

/-- A frame that carries every content is given to its stream. -/
theorem Sound.recvFrame (hr : Sound written r) (answers : SocketAnswers) {fr : StreamFrame}
    (hfr : ∀ content, Agrees content written → fr.Carries content) :
    Sound written (r.recvFrame answers (fr.payload, fr.header)) := by
  unfold Receiving.recvFrame
  dsimp only
  rw [if_pos (by unfold forStream; rw [fr.header_isStream, Bool.or_true])]
  rw [fr.header_streamId]
  cases hstream : r.l5.streams[fr.streamId]? with
  | none => exact hr
  | some stream =>
      dsimp only
      split
      swap
      · exact hr
      obtain ⟨hlt, -⟩ := List.getElem?_eq_some_iff.1 hstream
      have hrecv : stream.recv answers.couldContainTransportParameters fr.payload fr.header =
          stream.recvStream answers.couldContainTransportParameters fr.payload fr.header :=
        recv_of_isStream fr.header_isStream
      have hid := recvStream_streamId answers.couldContainTransportParameters fr.payload fr.header
        stream
      rw [← hrecv] at hid
      refine ⟨?_, ?_, ?_⟩
      · intro i other hi
        dsimp only at hi
        rw [List.getElem?_set] at hi
        split at hi
        · rename_i heq
          obtain rfl := Option.some.inj hi
          exact hid.trans ((hr.streamId_eq _ stream hstream).trans heq)
        · exact hr.streamId_eq i other hi
      · intro i other hi hne content hagrees
        dsimp only at hi ⊢
        rw [StreamLog.on_concat]
        rw [List.getElem?_set] at hi
        split at hi
        · rename_i heq
          subst heq
          obtain rfl := Option.some.inj hi
          rw [if_pos rfl]
          refine (hr.delivers fr.streamId stream hstream hne content hagrees).recv
            (a := { containsTransportParameters := answers.couldContainTransportParameters
                    frame := fr.payload
                    sub := fr.header }) fr.header_isStream ?_ ?_
          · dsimp only
            rw [fr.header_offset]
            exact end_le_of_agrees hfr
          · dsimp only
            rw [fr.header_offset]
            exact hfr content hagrees
        · rename_i hother
          rw [if_neg hother, List.append_nil]
          exact hr.delivers i other hi hne content hagrees
      · intro i hle
        dsimp only at hle ⊢
        rw [List.length_set] at hle
        rw [StreamLog.on_concat, if_neg (by omega), List.append_nil]
        exact hr.unopened i hle

/-- A packet that was sent is dispatched. -/
theorem Sound.dispatchRecv (hr : Sound written r) (answers : SocketAnswers) (rxFix : Bool)
    {packet : List UInt8}
    (hpacket : ∀ content, Agrees content written → Assembled content packet) :
    Sound written (r.dispatchRecv answers rxFix packet) := by
  obtain ⟨frames, rfl, hframes⟩ := exists_frames_of_agrees hpacket
  unfold Receiving.dispatchRecv disgregateRecv
  rw [disgregate_encodeAll]
  dsimp only [Option.map_some, Bool.false_and]
  split
  · exact hr
  generalize r.l5.currStreamNum _ = streamNum
  have hopened := hr.createStreamsUpTo .RECEIVER streamNum
  generalize { r with l5 := r.l5.createStreamsUpTo .RECEIVER streamNum } = opened at hopened
  show Sound written ((frames.map fun fr => (fr.payload, fr.header)).foldl _ opened)
  clear hpacket
  induction frames generalizing opened with
  | nil => exact hopened
  | cons fr rest ih =>
      obtain ⟨hfr, hrest⟩ := List.forall_mem_cons.1 hframes
      exact ih hrest _ (hopened.recvFrame answers hfr)

end Receiving

/-! ## Sending -/

/-- What waits in the buffer of a stream is what was written to it and not yet handed on. -/
structure QuicStreamBase.Queues (i : Nat) (S : List UInt8) (stream : QuicStreamBase) : Prop where
  streamId_eq : stream.streamId = i
  accounted : stream.txBuffer.Accounted
  sentSize_le : stream.sentSize ≤ S.length
  waits : bytes stream.txBuffer.appList = S.drop stream.sentSize

section

variable {i : Nat} {S data : List UInt8} {stream stream' : QuicStreamBase} {maxPacketSize : Nat}
  {now : Int}

theorem NewStream.queues (hnew : NewStream i stream) : stream.Queues i [] where
  streamId_eq := hnew.streamId_eq
  accounted := by
    rw [hnew.txBuffer_eq]
    exact ⟨rfl, Nat.zero_le _, by decide, nofun⟩
  sentSize_le := Nat.le_of_eq hnew.sentSize_eq
  waits := by
    rw [hnew.txBuffer_eq, hnew.sentSize_eq]
    rfl

theorem QuicStreamBase.Queues.of_sameFlow (hs : stream.Queues i S)
    (hsame : SameFlow stream stream') : stream'.Queues i S where
  streamId_eq := hsame.streamId_eq.trans hs.streamId_eq
  accounted := hsame.txBuffer_eq ▸ hs.accounted
  sentSize_le := hsame.sentSize_eq ▸ hs.sentSize_le
  waits := by
    rw [hsame.txBuffer_eq, hsame.sentSize_eq]
    exact hs.waits

theorem QuicStreamBase.Queues.setMaxStreamData (hs : stream.Queues i S) (maxStreamData : Nat) :
    (stream.setMaxStreamData maxStreamData).Queues i S := by
  unfold QuicStreamBase.setMaxStreamData
  dsimp only
  split <;> exact ⟨hs.streamId_eq, hs.accounted, hs.sentSize_le, hs.waits⟩

/-- What a buffer takes waits behind the rest. -/
theorem QuicStreamBase.Queues.appendingTx (hs : stream.Queues i S) {sent : Int}
    (happ : stream.appendingTx data = (sent, stream')) :
    stream'.Queues i (if sent = -1 then S else S ++ data) ∧
      stream'.sentSize = stream.sentSize := by
  have hcases := add_cases (b := stream.txBuffer) (p := data)
  have haccounted := add_accounted (p := data) hs.accounted
  unfold QuicStreamBase.appendingTx at happ
  generalize stream.txBuffer.add data = added at hcases haccounted happ
  obtain ⟨taken, txBuffer⟩ := added
  dsimp only at hcases haccounted happ
  rcases hcases with ⟨rfl, hbytes⟩ | ⟨rfl, -⟩
  · rw [if_pos rfl] at happ
    obtain ⟨rfl, rfl⟩ := Prod.mk.inj happ
    rw [if_neg (by omega)]
    refine ⟨⟨hs.streamId_eq, haccounted, ?_, ?_⟩, rfl⟩
    · rw [List.length_append]
      exact hs.sentSize_le.trans (Nat.le_add_right _ _)
    · rw [hbytes, hs.waits, List.drop_append_of_le_length hs.sentSize_le]
  · rw [if_neg (by decide)] at happ
    obtain ⟨rfl, rfl⟩ := Prod.mk.inj happ
    rw [if_pos rfl]
    exact ⟨hs, rfl⟩

theorem QuicStreamBase.Queues.send (hs : stream.Queues i S) {sent : Int}
    (hsend : stream.send data = (sent, stream', [])) :
    stream'.Queues i (if sent = -1 then S else S ++ data) ∧
      stream'.sentSize = stream.sentSize := by
  have hsame := setStreamStateSendIf_sameFlow (stream.streamStateSend = .IDLE && stream.sends) .OPEN
    stream
  unfold QuicStreamBase.send at hsend
  dsimp only at hsend
  split at hsend
  swap
  · simp at hsend
  generalize happ : QuicStreamBase.appendingTx data _ = result at hsend
  obtain ⟨hsent, hstream⟩ := Prod.mk.inj hsend
  obtain ⟨rfl, -⟩ := Prod.mk.inj hstream
  obtain ⟨hqueues, hsize⟩ := (hs.of_sameFlow hsame).appendingTx happ
  rw [hsame.sentSize_eq] at hsize
  rw [hsent] at hqueues
  generalize (if sent = -1 then S else S ++ data) = written at hqueues ⊢
  split
  · exact ⟨⟨hqueues.streamId_eq, hqueues.accounted, hqueues.sentSize_le, hqueues.waits⟩, hsize⟩
  · exact ⟨hqueues, hsize⟩

theorem sendIteration_sub (maxPacketSize : Nat) (now : Int) (accepted : Bool)
    (s : QuicStreamBase) : ∃ fin, (s.sendIteration maxPacketSize now accepted).2.sub =
      QuicSubheader.createStreamSubHeader s.streamId (s.sentSize % 2 ^ 32)
        (s.txBuffer.nextSequence (s.requestSize maxPacketSize) (s.sentSize % 2 ^ 32) now).1.length
        (s.sentSize ≠ 0) true fin := by
  have hsame := setStreamStateSendIf_sameFlow (s.streamStateSend = .OPEN && s.sends) .SEND s
  unfold sendIteration sendDataFrame
  dsimp only
  generalize setStreamStateSendIf (s.streamStateSend = .OPEN && s.sends) .SEND s = s₁ at hsame ⊢
  rw [hsame.txBuffer_eq, hsame.sentSize_eq, hsame.streamId_eq]
  cases accepted <;> exact ⟨_, rfl⟩

/-- The frame that a stream hands on is well formed, begins where the last one ended, and holds the
bytes that were written there. -/
theorem QuicStreamBase.Queues.exists_frame (hs : stream.Queues i S) (now : Int)
    (hpending : stream.hasPendingData) (hpos : 0 < maxPacketSize) (hshort : S.length ≤ 2 ^ 32)
    (hid : i < 2 ^ 62) :
    ∃ fr : StreamFrame, fr.streamId = i ∧ fr.offset = stream.sentSize ∧
      (stream.sendIteration maxPacketSize now true).2.sub = fr.header ∧
      (stream.sendIteration maxPacketSize now true).2.payload = fr.payload ∧
      fr.payload ++ bytes (stream.sendIteration maxPacketSize now true).1.txBuffer.appList =
        S.drop stream.sentSize := by
  obtain ⟨fin, hsub⟩ := sendIteration_sub maxPacketSize now true stream
  obtain ⟨hpayload, -, -, -, -, htx, -⟩ := sendDataFrame_spec (stream.sentSize % 2 ^ 32)
    (stream.requestSize maxPacketSize) now true stream
  obtain ⟨hbytes, hlength, -, -, -⟩ := nextSequence_bytes (stream.requestSize maxPacketSize)
    (stream.sentSize % 2 ^ 32) now hs.accounted
  rw [if_pos rfl] at htx
  have hrequest : 0 < stream.requestSize maxPacketSize := lt_min hpending.1 hpos
  have happ : 0 < stream.txBuffer.appSize := hpending.2
  have hle := hs.sentSize_le
  have hwaits := congrArg List.length hs.waits
  have hsizes := congrArg List.length hbytes
  unfold sendIteration at hsub ⊢
  generalize sendDataFrame (stream.sentSize % 2 ^ 32) (stream.requestSize maxPacketSize) now true
    stream = result at hsub hpayload htx ⊢
  generalize stream.txBuffer.nextSequence (stream.requestSize maxPacketSize)
    (stream.sentSize % 2 ^ 32) now = next at *
  rw [List.length_drop] at hwaits
  rw [List.length_append] at hsizes
  have hne : next.1 ≠ [] := List.ne_nil_of_length_pos (by omega)
  have hnext : 0 < next.1.length := List.length_pos_of_ne_nil hne
  have hend : stream.sentSize + next.1.length ≤ 2 ^ 32 := by omega
  have hmod : stream.sentSize % 2 ^ 32 = stream.sentSize := Nat.mod_eq_of_lt (by omega)
  refine ⟨{
    streamId := i
    offset := stream.sentSize
    payload := next.1
    offBit := decide (stream.sentSize ≠ 0)
    fin
    streamId_lt := hid
    payload_ne := hne
    length_lt := by have := hs.accounted.appSize_le; have := hs.accounted.maxBuffer_lt; omega
    end_le := hend
    offset_eq := fun hzero => not_not.1 (of_decide_eq_false hzero) }, rfl, rfl, ?_, hpayload, ?_⟩
  · rw [hsub, hs.streamId_eq, hmod]
    rfl
  · rw [htx, hbytes, hs.waits]

/-- A frame that the socket took leaves the rest in the buffer. -/
theorem QuicStreamBase.Queues.accepted (hs : stream.Queues i S) {fr : StreamFrame}
    (hpayload : (stream.sendIteration maxPacketSize now true).2.payload = fr.payload)
    (hbytes : fr.payload ++ bytes (stream.sendIteration maxPacketSize now true).1.txBuffer.appList =
      S.drop stream.sentSize) :
    (stream.sendIteration maxPacketSize now true).1.Queues i S ∧
      (stream.sendIteration maxPacketSize now true).1.sentSize =
        stream.sentSize + fr.payload.length := by
  obtain ⟨hframe, -, -, -, hid, htx, hsent⟩ := sendDataFrame_spec (stream.sentSize % 2 ^ 32)
    (stream.requestSize maxPacketSize) now true stream
  obtain ⟨-, -, -, -, haccounted⟩ := nextSequence_bytes (stream.requestSize maxPacketSize)
    (stream.sentSize % 2 ^ 32) now hs.accounted
  rw [if_pos rfl] at htx hsent
  unfold sendIteration at hpayload hbytes ⊢
  rw [← hframe, hpayload] at hsent
  have hle := hs.sentSize_le
  have hsizes := congrArg List.length hbytes
  rw [List.length_append, List.length_drop] at hsizes
  refine ⟨⟨hid.trans hs.streamId_eq, ?_, ?_, ?_⟩, hsent⟩
  · rw [htx]
    exact haccounted
  · rw [hsent]
    omega
  · rw [hsent, ← List.drop_drop, ← hbytes, List.drop_left]

/-- A frame that the socket refused is back in the buffer. -/
theorem QuicStreamBase.Queues.refused (hs : stream.Queues i S) (now : Int)
    (hpending : stream.hasPendingData) (hpos : 0 < maxPacketSize) :
    (stream.sendIteration maxPacketSize now false).1.Queues i S ∧
      (stream.sendIteration maxPacketSize now false).1.sentSize = stream.sentSize := by
  obtain ⟨-, -, -, -, hid, htx, hsent⟩ := sendDataFrame_spec (stream.sentSize % 2 ^ 32)
    (stream.requestSize maxPacketSize) now false stream
  obtain ⟨hbytes, hlength, -, -, haccounted⟩ := nextSequence_bytes
    (stream.requestSize maxPacketSize) (stream.sentSize % 2 ^ 32) now hs.accounted
  have hrequest : 0 < stream.requestSize maxPacketSize := lt_min hpending.1 hpos
  have happ : 0 < stream.txBuffer.appSize := hpending.2
  have hnonempty : 0 < (stream.txBuffer.nextSequence (stream.requestSize maxPacketSize)
      (stream.sentSize % 2 ^ 32) now).1.length := by
    rw [hlength]
    omega
  have htaken := rejected_nextSequence_taken hs.accounted hnonempty
  rw [if_neg (by decide)] at htx hsent
  unfold sendIteration
  rcases rejected_cases (p := (stream.txBuffer.nextSequence (stream.requestSize maxPacketSize)
    (stream.sentSize % 2 ^ 32) now).1) haccounted with ⟨-, hback, hrejected⟩ | ⟨hrefused, -⟩
  · refine ⟨⟨hid.trans hs.streamId_eq, ?_, ?_, ?_⟩, hsent⟩
    · rw [htx]
      exact hrejected
    · rw [hsent]
      exact hs.sentSize_le
    · rw [htx, hsent, hback, hbytes, hs.waits]
  · rw [htaken] at hrefused
    cases hrefused

end

/-! ## The connection -/

namespace Connection

/-- No stream is written more bytes than its offsets can count, a frame has room for data, and
packets are sent on known paths. -/
def Allowed (c : Connection) : ConnectionEvent → Prop
  | .send i data => (c.written.on i).length + data.length ≤ 2 ^ 32
  | .sendPendingFrame _ maxPacketSize _ _ => 0 < maxPacketSize
  | .socket ⟨.nextSequence _ _ pathId _, _⟩ => pathId < c.tx.buffer.subflowSentList.length
  | _ => True

instance Allowed.decidable (c : Connection) : ∀ event, Decidable (c.Allowed event)
  | .send i data => inferInstanceAs (Decidable ((c.written.on i).length + data.length ≤ 2 ^ 32))
  | .sendPendingFrame _ m _ _ => inferInstanceAs (Decidable (0 < m))
  | .socket ⟨.nextSequence _ _ pathId _, _⟩ =>
      inferInstanceAs (Decidable (pathId < c.tx.buffer.subflowSentList.length))
  | .createStreams | .setMaxStreamData _ _ | .deliver _ _ _ | .socket ⟨.add _ _, _⟩
  | .socket ⟨.nextStream0Sequence _ _, _⟩ | .socket ⟨.onAckUpdate _ _ _ _ _ _, _⟩
  | .socket ⟨.addSentList _, _⟩ | .socket ⟨.resetSentList _ _, _⟩ | .socket ⟨.markAsLost _ _, _⟩
  | .socket ⟨.markHeadAsLost _, _⟩ | .socket ⟨.markAllOutstandingAsLost _, _⟩
  | .socket ⟨.retransmission _ _ _, _⟩ => isTrue trivial

/-- The byte waits in the buffer of its stream. -/
def Buffered (c : Connection) (streamId x : Nat) : Prop :=
  ∃ stream, c.sender.streams[streamId]? = some stream ∧ stream.sentSize ≤ x ∧
    bytes stream.txBuffer.appList = (c.written.on streamId).drop stream.sentSize

/-- What the receiver handed on is the beginning of what was written, and every byte that was
written waits in its stream or in the socket, is in flight, or was acknowledged. -/
structure Transfers (c : Connection) (streamId : Nat) : Prop where
  received : c.receiving.received.on streamId <+: c.written.on streamId
  kept : ∀ x < (c.written.on streamId).length, c.Buffered streamId x ∨ c.tx.Held streamId x

/-- The streams of the sender hold what they did not hand on, the socket what they did. -/
structure Sound (c : Connection) : Prop where
  queues : ∀ i (stream : QuicStreamBase), c.sender.streams[i]? = some stream →
    stream.Queues i (c.written.on i)
  handedOn : ∀ i (stream : QuicStreamBase), c.sender.streams[i]? = some stream →
    ∀ x < stream.sentSize, ∃ packet ∈ c.tx.accepted, PacketHas packet i x
  unopened : ∀ i, c.sender.streams.length ≤ i → c.written.on i = []
  maxStreamId_lt : c.sender.maxStreamId < 2 ^ 32
  length_le : c.sender.streams.length ≤ c.sender.maxStreamId + 1
  short : ∀ i, (c.written.on i).length ≤ 2 ^ 32
  conserved : ∀ content, Agrees content c.written → c.tx.Conserved content
  packets : ∀ content, Agrees content c.written → ∀ packet ∈ c.packets, Assembled content packet
  receiving : c.receiving.Sound c.written

variable {c : Connection} {streamId maxPacketSize : Nat} {stream stream' : QuicStreamBase}
  {now : Int}

theorem sound_start (senderMaxStreamId receiverMaxStreamId : UInt32)
    (senderMaxStreamData receiverMaxStreamData maxBuffer : Nat) :
    Sound (start senderMaxStreamId receiverMaxStreamId senderMaxStreamData receiverMaxStreamData
      maxBuffer) where
  queues := by simp [start]
  handedOn := by simp [start]
  unopened := fun _ _ => rfl
  maxStreamId_lt := senderMaxStreamId.toNat_lt
  length_le := Nat.zero_le _
  short := fun _ => Nat.zero_le _
  conserved := fun _ _ => TxRun.start_conserved maxBuffer
  packets := by simp [start]
  receiving := ⟨by simp [start], by simp [start], fun _ _ => rfl⟩

/-- A stream of the sender is rewritten. -/
theorem Sound.setStream (hc : Sound c)
    (hqueues : stream'.Queues streamId (c.written.on streamId))
    (hhanded : ∀ x < stream'.sentSize, ∃ packet ∈ c.tx.accepted, PacketHas packet streamId x) :
    Sound (c.setStream streamId stream') := by
  have hall : ∀ i (other : QuicStreamBase), (c.sender.streams.set streamId stream')[i]? =
      some other → other.Queues i (c.written.on i) ∧
        ∀ x < other.sentSize, ∃ packet ∈ c.tx.accepted, PacketHas packet i x := by
    intro i other hi
    rw [List.getElem?_set] at hi
    split at hi
    · rename_i heq
      subst heq
      split at hi
      · obtain rfl := Option.some.inj hi
        exact ⟨hqueues, hhanded⟩
      · cases hi
    · exact ⟨hc.queues i other hi, hc.handedOn i other hi⟩
  have hlength : (c.sender.streams.set streamId stream').length = c.sender.streams.length :=
    List.length_set
  refine ⟨fun i other hi => (hall i other hi).1, fun i other hi => (hall i other hi).2, ?_,
    hc.maxStreamId_lt, ?_, hc.short, hc.conserved, hc.packets, hc.receiving⟩
  · intro i hle
    exact hc.unopened i (hlength ▸ hle)
  · exact hlength.symm ▸ hc.length_le

theorem Sound.createStreams (hc : Sound c) :
    Sound { c with sender := c.sender.createStreams .SENDER } := by
  have hall := QuicL5Protocol.forall_created .SENDER
    (c.sender.maxStreamId + 1 - c.sender.streams.length)
    (P := fun i stream => stream.Queues i (c.written.on i) ∧
      ∀ x < stream.sentSize, ∃ packet ∈ c.tx.accepted, PacketHas packet i x)
    (fun i stream hi => ⟨hc.queues i stream hi, hc.handedOn i stream hi⟩)
    (fun i stream hle hnew => by
      rw [hc.unopened i hle, hnew.sentSize_eq]
      exact ⟨hnew.queues, nofun⟩)
  obtain ⟨hstreams, hlength, hmax⟩ := hall
  have hle := hc.length_le
  refine ⟨fun i stream hi => (hstreams i stream hi).1, fun i stream hi => (hstreams i stream hi).2,
    ?_, ?_, ?_, hc.short, hc.conserved, hc.packets, hc.receiving⟩
  · intro i hi
    refine hc.unopened i (le_trans ?_ hi)
    show c.sender.streams.length ≤ (c.sender.createStreams .SENDER).streams.length
    unfold QuicL5Protocol.createStreams
    omega
  · show (c.sender.createStreams .SENDER).maxStreamId < 2 ^ 32
    unfold QuicL5Protocol.createStreams
    rw [hmax]
    exact hc.maxStreamId_lt
  · show (c.sender.createStreams .SENDER).streams.length ≤
      (c.sender.createStreams .SENDER).maxStreamId + 1
    unfold QuicL5Protocol.createStreams
    omega

/-- What is written to a stream is there for the contents to agree with. -/
theorem Sound.wrote (hc : Sound c) (hstream : c.sender.streams[streamId]? = some stream)
    {data : List UInt8} (hqueues : stream'.Queues streamId (c.written.on streamId ++ data))
    (hsize : stream'.sentSize = stream.sentSize)
    (hshort : (c.written.on streamId).length + data.length ≤ 2 ^ 32) :
    Sound { c.setStream streamId stream' with written := c.written ++ [(streamId, data)] } := by
  have hall : ∀ i (other : QuicStreamBase), (c.sender.streams.set streamId stream')[i]? =
      some other → other.Queues i ((c.written ++ [(streamId, data)]).on i) ∧
        ∀ x < other.sentSize, ∃ packet ∈ c.tx.accepted, PacketHas packet i x := by
    intro i other hi
    rw [StreamLog.on_concat]
    rw [List.getElem?_set] at hi
    split at hi
    · rename_i heq
      subst heq
      split at hi
      · obtain rfl := Option.some.inj hi
        rw [if_pos rfl, hsize]
        exact ⟨hqueues, hc.handedOn streamId stream hstream⟩
      · cases hi
    · rename_i hother
      rw [if_neg hother, List.append_nil]
      exact ⟨hc.queues i other hi, hc.handedOn i other hi⟩
  have hlength : (c.sender.streams.set streamId stream').length = c.sender.streams.length :=
    List.length_set
  obtain ⟨hlt, -⟩ := List.getElem?_eq_some_iff.1 hstream
  refine ⟨fun i other hi => (hall i other hi).1, fun i other hi => (hall i other hi).2, ?_,
    hc.maxStreamId_lt, ?_, ?_, fun content hagrees => hc.conserved content hagrees.of_concat,
    fun content hagrees => hc.packets content hagrees.of_concat,
    hc.receiving.concat streamId data⟩
  · intro i hle
    have hle : c.sender.streams.length ≤ i := hlength ▸ hle
    rw [StreamLog.on_concat, if_neg (by omega), List.append_nil]
    exact hc.unopened i hle
  · exact hlength.symm ▸ hc.length_le
  · intro i
    rw [StreamLog.on_concat, List.length_append]
    split
    · rename_i heq
      subst heq
      exact hshort
    · exact hc.short i

theorem Sound.send (hc : Sound c) (hstream : c.sender.streams[streamId]? = some stream)
    {data : List UInt8} (hshort : (c.written.on streamId).length + data.length ≤ 2 ^ 32) :
    Sound (c.send streamId data stream) := by
  unfold Connection.send
  split
  · rename_i sent stream' hsend
    obtain ⟨hqueues, hsize⟩ := (hc.queues streamId stream hstream).send hsend
    split
    · rename_i hrefused
      rw [if_pos hrefused] at hqueues
      exact hc.setStream hqueues (hsize ▸ hc.handedOn streamId stream hstream)
    · rename_i htaken
      rw [if_neg htaken] at hqueues
      exact hc.wrote hstream hqueues hsize hshort
  · exact ⟨hc.queues, hc.handedOn, hc.unopened, hc.maxStreamId_lt, hc.length_le, hc.short,
      hc.conserved, hc.packets, hc.receiving⟩

theorem Sound.refuse (hc : Sound c) (hstream : c.sender.streams[streamId]? = some stream)
    (hpending : stream.hasPendingData) (hpos : 0 < maxPacketSize) :
    Sound (c.refuse streamId maxPacketSize now stream) := by
  unfold Connection.refuse
  dsimp only
  split
  · exact ⟨hc.queues, hc.handedOn, hc.unopened, hc.maxStreamId_lt, hc.length_le, hc.short,
      hc.conserved, hc.packets, hc.receiving⟩
  · obtain ⟨hqueues, hsize⟩ :=
      (hc.queues streamId stream hstream).refused now hpending hpos
    exact hc.setStream hqueues (hsize ▸ hc.handedOn streamId stream hstream)

/-- The socket is given a frame that carries every content. -/
theorem Sound.add (hc : Sound c) (now : Int) {fr : StreamFrame}
    (hfr : ∀ content, Agrees content c.written → fr.Carries content) :
    Sound { c with tx := c.tx.step (.add fr.encode now) } where
  queues := hc.queues
  handedOn := by
    intro i stream hi x hx
    obtain ⟨packet, hpacket, hhas⟩ := hc.handedOn i stream hi x hx
    refine ⟨packet, ?_, hhas⟩
    show packet ∈ if _ then c.tx.accepted ++ [fr.encode] else c.tx.accepted
    split
    · exact List.mem_append_left _ hpacket
    · exact hpacket
  unopened := hc.unopened
  maxStreamId_lt := hc.maxStreamId_lt
  length_le := hc.length_le
  short := hc.short
  conserved := by
    intro content hagrees
    have hvalid : TxRun.Valid content c.tx (.add fr.encode now) :=
      ⟨fr, rfl, hfr content hagrees⟩
    exact TxRun.step_conserved (hc.conserved content hagrees) hvalid
  packets := hc.packets
  receiving := hc.receiving

theorem Sound.sendPendingFrame (hc : Sound c) (hstream : c.sender.streams[streamId]? = some stream)
    (hpos : 0 < maxPacketSize) (idle : Bool) :
    Sound (c.sendPendingFrame streamId maxPacketSize now idle stream) := by
  unfold Connection.sendPendingFrame
  split
  swap
  · exact hc
  rename_i hpending
  dsimp only
  split
  · exact hc.refuse hstream hpending hpos
  obtain ⟨hlt, -⟩ := List.getElem?_eq_some_iff.1 hstream
  have hmax := hc.maxStreamId_lt
  have hlength := hc.length_le
  have hs := hc.queues streamId stream hstream
  obtain ⟨fr, hid, hoffset, hsub, hpayload, hbytes⟩ := hs.exists_frame now hpending hpos
    (hc.short streamId) (by omega)
  have hfr : ∀ content, Agrees content c.written → fr.Carries content := by
    intro content hagrees
    have hdrop := drop_eq_window (content streamId) 0 (hagrees streamId) stream.sentSize
    rw [Nat.zero_add, ← hbytes] at hdrop
    have hsize := congrArg List.length hdrop
    rw [List.length_append, length_window] at hsize
    rw [← hsize] at hdrop
    unfold StreamFrame.Carries
    rw [hid, hoffset]
    exact (List.append_inj (hdrop.trans (window_append _ _ _ _).symm) (by simp)).1
  have hadded := hc.add now hfr
  have hframe : (stream.sendIteration maxPacketSize now true).2.sub.serialize ++
      (stream.sendIteration maxPacketSize now true).2.payload = fr.encode := by
    rw [hsub, hpayload]
    rfl
  rw [hframe]
  split
  · rename_i htaken
    obtain ⟨hqueues, hsize⟩ := hs.accepted hpayload hbytes
    refine hadded.setStream hqueues fun x hx => ?_
    by_cases hold : x < stream.sentSize
    · exact hadded.handedOn streamId stream hstream x hold
    · refine ⟨fr.encode, ?_, packetHas_encode.2 ⟨hid, ?_, ?_⟩⟩
      · show fr.encode ∈ if (c.tx.buffer.add fr.encode now).1 then c.tx.accepted ++ [fr.encode]
          else c.tx.accepted
        rw [if_pos htaken]
        exact List.mem_append_right _ List.mem_cons_self
      · omega
      · omega
  · exact hadded.refuse hstream hpending hpos

/-- The socket sends, hears an acknowledgement, or gives packets up. -/
theorem Sound.socket (hc : Sound c) {call : SocketCall} (hallowed : c.Allowed (.socket call)) :
    Sound { c with
      tx := c.tx.step call.1
      packets := c.packets ++ (c.tx.sentPacket call.1).toList } := by
  obtain ⟨event, hnotAdd⟩ := call
  have haccepted : (c.tx.step event).accepted = c.tx.accepted := by
    cases event with
    | add p now => exact absurd rfl (hnotAdd p now)
    | _ => rfl
  have hvalid : ∀ content, TxRun.Valid content c.tx event := by
    intro content
    cases event with
    | add p now => exact absurd rfl (hnotAdd p now)
    | nextSequence numBytes seq pathId now => exact hallowed
    | _ => trivial
  refine ⟨hc.queues, ?_, hc.unopened, hc.maxStreamId_lt, hc.length_le, hc.short,
    fun content hagrees => TxRun.step_conserved (hc.conserved content hagrees) (hvalid content),
    fun content hagrees => ?_, hc.receiving⟩
  · dsimp only
    rw [haccepted]
    exact hc.handedOn
  · dsimp only
    rw [List.forall_mem_append]
    refine ⟨hc.packets content hagrees, fun packet hpacket => ?_⟩
    have hcarrying := (hc.conserved content hagrees).carrying
    rw [Option.mem_toList] at hpacket
    cases event with
    | nextStream0Sequence seq now =>
        have hsent : (c.tx.buffer.nextStream0Sequence seq now).1 = some packet := hpacket
        unfold QuicSocketTxBuffer.nextStream0Sequence at hsent
        split at hsent
        · cases hsent
        · rename_i current rest hlist
          obtain rfl := Option.some.inj hsent
          exact hcarrying.streamZero current (by simp [hlist])
    | nextSequence numBytes seq pathId now =>
        obtain rfl := Option.some.inj hpacket
        exact (nextSequence_conserves hcarrying numBytes seq pathId now hallowed).1
    | _ => cases hpacket

theorem Sound.step (hc : Sound c) {event : ConnectionEvent} (hallowed : c.Allowed event) :
    Sound (c.step event) := by
  unfold Connection.step
  split
  · exact hc
  cases event with
  | createStreams => exact hc.createStreams
  | send streamId data =>
      dsimp only [onStream]
      split
      · exact hc
      · rename_i stream hstream
        exact hc.send hstream hallowed
  | sendPendingFrame streamId maxPacketSize now idle =>
      dsimp only [onStream]
      split
      · exact hc
      · rename_i stream hstream
        exact hc.sendPendingFrame hstream hallowed idle
  | setMaxStreamData streamId maxStreamData =>
      dsimp only [onStream]
      split
      · exact hc
      · rename_i stream hstream
        refine hc.setStream
          ((hc.queues streamId stream hstream).setMaxStreamData maxStreamData) ?_
        rw [(setMaxStreamData_spec maxStreamData stream).2.2]
        exact hc.handedOn streamId stream hstream
  | socket call => exact hc.socket hallowed
  | deliver i answers rxFix =>
      dsimp only
      split
      · exact hc
      · rename_i packet hpacket
        exact ⟨hc.queues, hc.handedOn, hc.unopened, hc.maxStreamId_lt, hc.length_le, hc.short,
          hc.conserved, hc.packets, hc.receiving.dispatchRecv answers rxFix
            fun content hagrees => hc.packets content hagrees packet (List.mem_of_getElem? hpacket)⟩

theorem Sound.transfers (hc : Sound c) (hid : streamId ≠ 0) : Transfers c streamId where
  received := by
    have hagrees := agrees_getD 0 c.written
    by_cases hopen : streamId < c.receiving.l5.streams.length
    · have hdelivers := hc.receiving.delivers streamId _ (List.getElem?_eq_getElem hopen) hid _
        hagrees
      rw [show c.receiving.received.on streamId = _ from hdelivers.received_eq,
        ← take_eq_window _ 0 (hagrees streamId) hdelivers.recvSize_le]
      exact List.take_prefix _ _
    · rw [hc.receiving.unopened streamId (Nat.le_of_not_lt hopen)]
      exact List.nil_prefix
  kept := by
    intro x hx
    by_cases hopen : streamId < c.sender.streams.length
    · have hstream := List.getElem?_eq_getElem hopen
      by_cases hsent : x < c.sender.streams[streamId].sentSize
      · obtain ⟨packet, hpacket, hhas⟩ := hc.handedOn streamId _ hstream x hsent
        exact Or.inr ((hc.conserved _ (agrees_getD 0 c.written)).held packet hpacket streamId x
          hhas)
      · exact Or.inl ⟨_, hstream, Nat.le_of_not_lt hsent, (hc.queues streamId _ hstream).waits⟩
    · rw [hc.unopened streamId (Nat.le_of_not_lt hopen)] at hx
      cases hx

/-- Over a network that loses, repeats and reorders packets, every data stream of the receiver
hands on a prefix of what was written to its counterpart, and no byte is lost on the way. -/
theorem run_transfers (senderMaxStreamId receiverMaxStreamId : UInt32)
    (senderMaxStreamData receiverMaxStreamData maxBuffer : Nat) {events : List ConnectionEvent}
    (hallowed : Run.AllSteps step Allowed (start senderMaxStreamId receiverMaxStreamId
      senderMaxStreamData receiverMaxStreamData maxBuffer) events) {streamId : Nat}
    (hid : streamId ≠ 0) :
    Transfers (Run.run step (start senderMaxStreamId receiverMaxStreamId senderMaxStreamData
      receiverMaxStreamData maxBuffer) events) streamId :=
  (hallowed.invariant (fun _ _ hc hevent => hc.step hevent)
    (sound_start senderMaxStreamId receiverMaxStreamId senderMaxStreamData receiverMaxStreamData
      maxBuffer)).transfers hid

/-- Two packets with data of one stream, of which the first counts as lost and is sent again. The
second arrives before it, and the first then arrives twice. -/
def lostFirst : List ConnectionEvent :=
  [.createStreams, .send 4 [1, 2, 3], .sendPendingFrame 4 1400 0 false,
    .socket ⟨.nextSequence 1400 1 0 0, nofun⟩, .send 4 [4, 5], .sendPendingFrame 4 1400 0 false,
    .socket ⟨.nextSequence 1400 2 0 0, nofun⟩, .deliver 1 {} false,
    .socket ⟨.markAsLost 1 0, nofun⟩, .socket ⟨.retransmission 3 0 1, nofun⟩,
    .socket ⟨.nextSequence 1400 3 0 1, nofun⟩, .deliver 2 {} false, .deliver 0 {} false]

theorem run_transfers_lostFirst :
    Transfers (Run.run step (start 5 5 1000 1000 32768) lostFirst) 4 :=
  run_transfers 5 5 1000 1000 32768 (by decide +kernel) (by decide)

example : (Run.run step (start 5 5 1000 1000 32768) lostFirst).receiving.received =
    [(4, []), (4, [1, 2, 3, 4, 5]), (4, [])] := by decide +kernel

end Connection

end NtnIab.Quic
