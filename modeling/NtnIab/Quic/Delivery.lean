import NtnIab.Library.Run
import NtnIab.Quic.Reassembly
import NtnIab.Quic.StreamBase

/-!
# In-order delivery of a stream

The bytes a stream hands to the layer above are the stream's content from its start up to the read
offset, whatever the order, the overlaps and the chunking of the frames that carry them.

## Strategy

A STREAM frame is dropped by a check, continues the stream, or goes to the receive buffer
(`recvStream_cases`). The invariant `DeliversPrefix` says that the delivered bytes are the content
before the read offset and that the buffered items hold the content. A frame that continues the
stream appends its new tail and the chain of buffered items that touch it, which is where
`extract_getDeliverable` is used. A frame that goes to the buffer delivers nothing.
-/

namespace NtnIab.Quic

open Window

namespace QuicStreamBase

/-! ## What a frame does to the receiving side -/

/-- The two streams have the same receiving side, up to the state of the stream. -/
structure SameReceived (s s' : QuicStreamBase) : Prop where
  recvSize_eq : s'.recvSize = s.recvSize
  rxBuffer_eq : s'.rxBuffer = s.rxBuffer
  streamId_eq : s'.streamId = s.streamId

theorem SameReceived.refl (s : QuicStreamBase) : SameReceived s s := ⟨rfl, rfl, rfl⟩

theorem SameReceived.trans {s s' s'' : QuicStreamBase} (hfirst : SameReceived s s')
    (hsecond : SameReceived s' s'') : SameReceived s s'' :=
  ⟨hsecond.recvSize_eq.trans hfirst.recvSize_eq, hsecond.rxBuffer_eq.trans hfirst.rxBuffer_eq,
    hsecond.streamId_eq.trans hfirst.streamId_eq⟩

theorem setStreamStateRecvIf_same (condition : Bool) (streamState : QuicStreamState)
    (s : QuicStreamBase) : SameReceived s (setStreamStateRecvIf condition streamState s) := by
  cases condition <;> exact ⟨rfl, rfl, rfl⟩

theorem setMaxStreamData_same (maxStreamData : Nat) (s : QuicStreamBase) :
    SameReceived s (setMaxStreamData maxStreamData s) := by
  unfold setMaxStreamData
  dsimp only
  split <;> exact ⟨rfl, rfl, rfl⟩

theorem updateMaxStreamData_same (sub : QuicSubheader) (s : QuicStreamBase) :
    SameReceived s (updateMaxStreamData sub s) := by
  unfold updateMaxStreamData
  split
  · exact setMaxStreamData_same ..
  · exact .refl s

theorem settle_same (sub : QuicSubheader) (s : QuicStreamBase) :
    SameReceived s (s.settle sub) :=
  ((setStreamStateRecvIf_same ..).trans (updateMaxStreamData_same ..)).trans
    (setStreamStateRecvIf_same ..)

theorem advertise_same (s : QuicStreamBase) : SameReceived s s.advertise.1 := by
  unfold advertise
  dsimp only
  split <;> exact ⟨rfl, rfl, rfl⟩

/-- The bytes handed to `QuicL5Protocol::Recv`. -/
def delivered (outputs : List StreamOutput) : List UInt8 :=
  outputs.flatMap fun
    | .recv frame => frame
    | _ => []

@[simp] theorem delivered_append (first second : List StreamOutput) :
    delivered (first ++ second) = delivered first ++ delivered second := by
  simp [delivered]

@[simp] theorem delivered_advertise (s : QuicStreamBase) : delivered s.advertise.2 = [] := by
  unfold advertise
  dsimp only
  split <;> rfl

/-- Flushing takes the deliverable bytes out of the buffer; if there are none it does nothing, as
extracting no bytes does. -/
theorem flush_eq (frame : List UInt8) (s : QuicStreamBase) :
    s.flush frame =
      let length := (s.rxBuffer.getDeliverable s.recvSize).2
      let extracted := s.rxBuffer.extract length s.recvSize
      (frame ++ extracted.1,
        { s with rxBuffer := extracted.2, recvSize := s.recvSize + length }) := by
  unfold flush
  dsimp only
  by_cases hpos : (s.rxBuffer.getDeliverable s.recvSize).2 > 0
  · rw [if_pos hpos]
  · have hzero : (s.rxBuffer.getDeliverable s.recvSize).2 = 0 := by omega
    have hnothing : s.rxBuffer.extract 0 s.recvSize = ([], s.rxBuffer) := by
      unfold QuicStreamRxBuffer.extract
      cases hlist : s.rxBuffer.streamRecvList <;>
        simp [QuicStreamRxBuffer.extractFrom, ← hlist]
    rw [if_neg hpos, hzero, hnothing]
    simp

/-- A frame that continues the stream: its tail from the read offset on is delivered, and then the
chain of buffered bytes that follow. On stream 0 nothing is handed on. -/
theorem recvInOrder_spec (frame : List UInt8) (sub : QuicSubheader) (s : QuicStreamBase) :
    let tail := frame.drop (s.recvSize - sub.offset)
    let last := s.recvSize + tail.length
    let length := (s.rxBuffer.getDeliverable last).2
    let result := s.recvInOrder frame sub
    result.2.1.recvSize = last + length ∧
      result.2.1.rxBuffer = (s.rxBuffer.extract length last).2 ∧
      result.2.1.streamId = s.streamId ∧
      (s.streamId ≠ 0 →
        delivered result.2.2 = tail ++ (s.rxBuffer.extract length last).1) := by
  dsimp only
  unfold recvInOrder
  dsimp only
  generalize hs₁ :
    ({ s with recvSize := s.recvSize + (frame.drop (s.recvSize - sub.offset)).length } :
      QuicStreamBase) = s₁
  have hadv := advertise_same s₁
  have hrecv : s₁.advertise.1.recvSize =
      s.recvSize + (frame.drop (s.recvSize - sub.offset)).length := by
    rw [hadv.recvSize_eq, ← hs₁]
  have hrx : s₁.advertise.1.rxBuffer = s.rxBuffer := by rw [hadv.rxBuffer_eq, ← hs₁]
  have hstream : s₁.advertise.1.streamId = s.streamId := by rw [hadv.streamId_eq, ← hs₁]
  rw [flush_eq]
  dsimp only
  rw [hrecv, hrx]
  refine ⟨(settle_same ..).recvSize_eq, (settle_same ..).rxBuffer_eq,
    (settle_same ..).streamId_eq.trans hstream, fun hid => ?_⟩
  rw [delivered_append, delivered_advertise, if_pos (hstream ▸ hid)]
  simp [delivered]

/-- A frame that does not continue the stream goes to the receive buffer. -/
theorem recvUnordered_spec (frame : List UInt8) (sub : QuicSubheader) (s : QuicStreamBase) :
    let result := s.recvUnordered frame sub
    result.2.1.recvSize = s.recvSize ∧
      result.2.1.rxBuffer = (s.rxBuffer.add frame sub s.recvSize).2 ∧
      result.2.1.streamId = s.streamId ∧
      delivered result.2.2 = [] := by
  have hsame := updateMaxStreamData_same sub s
  unfold recvUnordered
  dsimp only
  rw [hsame.recvSize_eq, hsame.rxBuffer_eq]
  refine ⟨rfl, rfl, hsame.streamId_eq, ?_⟩
  split <;> rfl

theorem removeTransportParameters_of_ne {containsTransportParameters : Bool} {streamId : Nat}
    {frame : List UInt8} (hid : streamId ≠ 0) :
    removeTransportParameters containsTransportParameters streamId frame = (frame, []) := by
  unfold removeTransportParameters
  rw [if_neg fun h => hid h.2]

/-- The checks `Recv` makes of a STREAM frame. -/
def passesChecks (sub : QuicSubheader) (s : QuicStreamBase) : Prop :=
  s.receives ∧ s.awaitsData ∧ s.rxBuffer.size + sub.length ≤ s.maxStreamData ∧
    ¬ (s.fin ∧ sub.isStreamFin ∧ s.rxBuffer.finalSize ≠ sub.offset) ∧
    ¬ (sub.isStreamFin ∧ s.streamId = 0)

instance (sub : QuicSubheader) (s : QuicStreamBase) : Decidable (s.passesChecks sub) :=
  inferInstanceAs (Decidable (_ ∧ _ ∧ _ ∧ ¬ (_ ∧ _ ∧ _) ∧ ¬ (_ ∧ _)))

/-- The outputs neither deliver anything nor send a frame. -/
def Quiet (outputs : List StreamOutput) : Prop :=
  ∀ output ∈ outputs, (∃ code reason, output = .signalAbortConnection code reason) ∨
    ∃ transport, output = .onReceivedTransportParameters transport

theorem quiet_removeTransportParameters (containsTransportParameters : Bool) (streamId : Nat)
    (frame : List UInt8) :
    Quiet (removeTransportParameters containsTransportParameters streamId frame).2 := by
  unfold removeTransportParameters
  split
  · split <;> simp [Quiet]
  · simp [Quiet]

theorem Quiet.delivered_eq {outputs : List StreamOutput} (hquiet : Quiet outputs) :
    delivered outputs = [] := by
  unfold delivered
  rw [List.flatMap_eq_nil_iff]
  intro output houtput
  rcases hquiet output houtput with ⟨code, reason, rfl⟩ | ⟨transport, rfl⟩ <;> rfl

/-- A STREAM frame fails a check and changes nothing on the receiving side, or it passes them all
and, without its transport parameters, continues the stream or goes to the receive buffer. -/
theorem recvStream_cases (c : Bool) (frame : List UInt8) (sub : QuicSubheader)
    (s : QuicStreamBase) :
    let removed := removeTransportParameters c s.streamId frame
    let result := s.recvStream c frame sub
    (¬ s.passesChecks sub ∧ SameReceived s result.2.1 ∧ Quiet result.2.2) ∨
      (s.passesChecks sub ∧ ∃ s' : QuicStreamBase, SameReceived s s' ∧
        let step := if s'.inOrder removed.1 sub then s'.recvInOrder removed.1 sub
          else s'.recvUnordered removed.1 sub
        result = (step.1, step.2.1, removed.2 ++ step.2.2)) := by
  have hquiet := quiet_removeTransportParameters c s.streamId frame
  have hsignal : ∀ code reason, Quiet [.signalAbortConnection code reason] := by simp [Quiet]
  dsimp only
  unfold recvStream
  by_cases hreceives : s.receives
  swap
  · rw [if_pos (by simpa using hreceives)]
    exact .inl ⟨fun h => hreceives h.1, .refl s, hsignal _ _⟩
  rw [if_neg (by simpa using hreceives)]
  by_cases hawaits : s.awaitsData
  swap
  · rw [if_pos (by simpa using hawaits)]
    exact .inl ⟨fun h => hawaits h.2.1, .refl s, hsignal _ _⟩
  rw [if_neg (by simpa using hawaits)]
  by_cases hdata : s.rxBuffer.size + sub.length > s.maxStreamData
  · rw [if_pos hdata]
    exact .inl ⟨fun h => absurd h.2.2.1 (by omega), .refl s, hsignal _ _⟩
  rw [if_neg hdata]
  have hsame := setStreamStateRecvIf_same (s.streamStateRecv = .IDLE) .RECV s
  have hfin : (setStreamStateRecvIf (s.streamStateRecv = .IDLE) .RECV s).fin = s.fin := by
    unfold setStreamStateRecvIf
    split <;> rfl
  generalize setStreamStateRecvIf (s.streamStateRecv = .IDLE) .RECV s = s₁ at hsame hfin ⊢
  dsimp only
  rw [hfin, hsame.rxBuffer_eq, hsame.streamId_eq]
  generalize removeTransportParameters c s.streamId frame = removed at hquiet ⊢
  have happend : ∀ code reason, Quiet (removed.2 ++ [.signalAbortConnection code reason]) := by
    intro code reason output houtput
    rcases List.mem_append.1 houtput with houtput | houtput
    · exact hquiet output houtput
    · exact hsignal code reason output houtput
  by_cases hfinal : s.fin ∧ sub.isStreamFin ∧ s.rxBuffer.finalSize ≠ sub.offset
  · rw [if_pos hfinal]
    exact .inl ⟨fun h => h.2.2.2.1 hfinal, hsame, happend _ _⟩
  rw [if_neg hfinal]
  by_cases hzero : sub.isStreamFin ∧ s.streamId = 0
  · rw [if_pos hzero]
    exact .inl ⟨fun h => h.2.2.2.2 hzero, ⟨hsame.recvSize_eq, rfl, rfl⟩, happend _ _⟩
  · rw [if_neg hzero]
    refine .inr ⟨⟨hreceives, hawaits, by omega, hfinal, hzero⟩, _, ?_, rfl⟩
    refine SameReceived.trans ?_ (setStreamStateRecvIf_same ..)
    exact ⟨hsame.recvSize_eq, rfl, rfl⟩

end QuicStreamBase

open QuicStreamBase QuicStreamRxBuffer

/-! ## Runs of the receiving side -/

/-- The arrival of a frame, with the socket's answer about transport parameters. -/
structure Arrival where
  containsTransportParameters : Bool := false
  frame : List UInt8
  sub : QuicSubheader
  deriving Repr, DecidableEq

/-- A stream that receives frames, and the bytes it has handed to `QuicL5Protocol::Recv`. -/
structure Receiver where
  stream : QuicStreamBase
  received : List UInt8 := []
  deriving Repr, DecidableEq

def Receiver.recv (r : Receiver) (a : Arrival) : Receiver :=
  let (_, stream, outputs) := r.stream.recv a.containsTransportParameters a.frame a.sub
  { stream, received := r.received ++ delivered outputs }

/-- The frame is a STREAM frame that carries the bytes of `content` at its offset. -/
def Arrival.Carries (content : List UInt8) (a : Arrival) : Prop :=
  a.sub.isStream ∧ a.sub.offset + a.frame.length ≤ content.length ∧
    a.frame = (content.drop a.sub.offset).take a.frame.length

/-- A stream that has not received anything. -/
structure QuicStreamBase.Fresh (s : QuicStreamBase) : Prop where
  recvSize_eq : s.recvSize = 0
  streamRecvList_eq : s.rxBuffer.streamRecvList = []
  numBytes_eq : s.rxBuffer.numBytesInBuffer = 0
  maxBuffer_lt : s.rxBuffer.maxBuffer < 2 ^ 32

theorem QuicStreamBase.Fresh.accounted {s : QuicStreamBase} (hfresh : s.Fresh) :
    s.rxBuffer.Accounted := by
  refine ⟨?_, ?_, hfresh.maxBuffer_lt⟩
  · rw [hfresh.numBytes_eq, hfresh.streamRecvList_eq]
    rfl
  · rw [hfresh.numBytes_eq]
    exact Nat.zero_le _

/-- The delivered bytes are the content before the read offset, and the buffered ones are the
content at their offsets. -/
structure DeliversPrefix (f : Nat → UInt8) (limit : Nat) (r : Receiver) : Prop where
  streamId_ne : r.stream.streamId ≠ 0
  received_eq : r.received = window f 0 r.stream.recvSize
  recvSize_le : r.stream.recvSize ≤ limit
  accounted : r.stream.rxBuffer.Accounted
  holds : Holds f limit r.stream.rxBuffer.streamRecvList

theorem recv_of_isStream {c : Bool} {frame : List UInt8} {sub : QuicSubheader}
    {s : QuicStreamBase} (hstream : sub.isStream) :
    s.recv c frame sub = s.recvStream c frame sub := by
  unfold QuicSubheader.isStream at hstream
  unfold QuicStreamBase.recv
  revert hstream
  cases sub.frameType <;> simp [FrameType.isStream]

theorem Receiver.recv_recvSize_le (r : Receiver) (a : Arrival) (hstream : a.sub.isStream) :
    r.stream.recvSize ≤ (r.recv a).stream.recvSize := by
  unfold Receiver.recv
  dsimp only
  rw [recv_of_isStream hstream]
  have hcases := recvStream_cases a.containsTransportParameters a.frame a.sub r.stream
  dsimp only at hcases
  generalize removeTransportParameters a.containsTransportParameters r.stream.streamId a.frame =
    removed at hcases
  rcases hcases with ⟨-, hsame, -⟩ | ⟨-, s', hsame, hresult⟩
  · rw [hsame.recvSize_eq]
  · rw [hresult, ← hsame.recvSize_eq]
    dsimp only
    split
    · rw [(recvInOrder_spec ..).1]
      omega
    · rw [(recvUnordered_spec ..).1]

/-- A frame that carries the content keeps the delivered bytes a prefix of it. -/
theorem DeliversPrefix.recv {f : Nat → UInt8} {limit : Nat} {r : Receiver} {a : Arrival}
    (hr : DeliversPrefix f limit r) (hstream : a.sub.isStream)
    (hlimit : a.sub.offset + a.frame.length ≤ limit)
    (hframe : a.frame = window f a.sub.offset a.frame.length) :
    DeliversPrefix f limit (r.recv a) := by
  unfold Receiver.recv
  dsimp only
  rw [recv_of_isStream hstream]
  have hcases := recvStream_cases a.containsTransportParameters a.frame a.sub r.stream
  rw [removeTransportParameters_of_ne hr.streamId_ne] at hcases
  rcases hcases with ⟨-, hsame, hquiet⟩ | ⟨-, s', hsame, hresult⟩
  · rw [hquiet.delivered_eq]
    refine ⟨?_, ?_, ?_, ?_, ?_⟩
    · rw [hsame.streamId_eq]
      exact hr.streamId_ne
    · rw [hsame.recvSize_eq]
      simpa using hr.received_eq
    · rw [hsame.recvSize_eq]
      exact hr.recvSize_le
    · rw [hsame.rxBuffer_eq]
      exact hr.accounted
    · rw [hsame.rxBuffer_eq]
      exact hr.holds
  · have hid' : s'.streamId ≠ 0 := by
      rw [hsame.streamId_eq]
      exact hr.streamId_ne
    have haccounted : s'.rxBuffer.Accounted := hsame.rxBuffer_eq ▸ hr.accounted
    have hholds : Holds f limit s'.rxBuffer.streamRecvList := hsame.rxBuffer_eq ▸ hr.holds
    rw [hresult]
    dsimp only
    rw [List.nil_append]
    by_cases hinOrder : s'.inOrder a.frame a.sub
    · rw [if_pos hinOrder]
      obtain ⟨hsize, hrx, hid, hdelivered⟩ := recvInOrder_spec a.frame a.sub s'
      -- the frame reaches the read offset, so its tail from there on continues the content
      have hreach : a.sub.offset ≤ s'.recvSize ∧
          s'.recvSize ≤ a.sub.offset + a.frame.length := by
        simp only [inOrder, Bool.or_eq_true, Bool.and_eq_true, decide_eq_true_eq] at hinOrder
        omega
      have htail := drop_eq_window f a.sub.offset hframe (s'.recvSize - a.sub.offset)
      rw [Nat.add_sub_cancel' hreach.1] at htail
      have hlength : (a.frame.drop (s'.recvSize - a.sub.offset)).length =
          a.frame.length - (s'.recvSize - a.sub.offset) := List.length_drop
      obtain ⟨hextract, hleft⟩ := extract_getDeliverable
        (s'.recvSize + (a.frame.drop (s'.recvSize - a.sub.offset)).length)
        haccounted hholds
      refine ⟨?_, ?_, ?_, ?_, ?_⟩
      · rw [hid]
        exact hid'
      · rw [hdelivered hid', hsize, hr.received_eq, ← hsame.recvSize_eq, hextract, ← window_append,
          ← window_append, List.append_assoc, Nat.zero_add, Nat.zero_add]
        rw [hlength, htail]
      · rw [hsize]
        have hchain := chainPos_le_limit hholds
          (show s'.recvSize + (a.frame.drop (s'.recvSize - a.sub.offset)).length ≤ limit by omega)
        unfold getDeliverable
        dsimp only
        omega
      · rw [hrx]
        exact extract_accounted haccounted
      · rw [hrx]
        exact hleft
    · rw [if_neg hinOrder]
      obtain ⟨hsize, hrx, hid, hdelivered⟩ := recvUnordered_spec a.frame a.sub s'
      refine ⟨?_, ?_, ?_, ?_, ?_⟩
      · rw [hid]
        exact hid'
      · rw [hdelivered, hsize, hsame.recvSize_eq]
        simpa using hr.received_eq
      · rw [hsize, hsame.recvSize_eq]
        exact hr.recvSize_le
      · rw [hrx]
        exact add_accounted haccounted
      · rw [hrx]
        exact add_holds hframe hlimit hholds

theorem Arrival.Carries.window_eq {S : List UInt8} {a : Arrival} (ha : a.Carries S) :
    a.frame = window (fun i => S.getD i 0) a.sub.offset a.frame.length := by
  rw [window_getD 0 ha.2.1]
  exact ha.2.2

/-- A run over frames that carry the content delivers a prefix of it, and the read offset does not
go back. -/
theorem DeliversPrefix.run {S : List UInt8} {r : Receiver} {arrivals : List Arrival}
    (hr : DeliversPrefix (fun i => S.getD i 0) S.length r)
    (hcarries : ∀ a ∈ arrivals, a.Carries S) :
    DeliversPrefix (fun i => S.getD i 0) S.length (Run.run Receiver.recv r arrivals) ∧
      r.stream.recvSize ≤ (Run.run Receiver.recv r arrivals).stream.recvSize := by
  have hall : Run.AllSteps Receiver.recv (fun _ a => a.Carries S) r arrivals :=
    .of_forall fun a ha _ => hcarries a ha
  refine hall.invariant (I := fun r' => DeliversPrefix (fun i => S.getD i 0) S.length r' ∧
    r.stream.recvSize ≤ r'.stream.recvSize) ?_ ⟨hr, le_refl _⟩
  rintro r' a ⟨hr', hle⟩ ha
  exact ⟨hr'.recv ha.1 ha.2.1 ha.window_eq,
    hle.trans (r'.recv_recvSize_le a ha.1)⟩

theorem QuicStreamBase.Fresh.deliversPrefix {s : QuicStreamBase} (hfresh : s.Fresh)
    (hid : s.streamId ≠ 0) (f : Nat → UInt8) (limit : Nat) :
    DeliversPrefix f limit { stream := s } := by
  refine ⟨hid, ?_, ?_, hfresh.accounted, ?_⟩
  · rw [hfresh.recvSize_eq]
    rfl
  · rw [hfresh.recvSize_eq]
    exact Nat.zero_le _
  · rw [hfresh.streamRecvList_eq]
    exact holds_nil f limit

/-- Whatever frames carry the content `S`, in any order and with any overlaps, the concatenation
of the delivered payloads is `S` up to the read offset, and the read offset never goes back. -/
theorem recv_delivers_in_order (S : List UInt8) (s : QuicStreamBase) (arrivals : List Arrival)
    (hfresh : s.Fresh) (hid : s.streamId ≠ 0) (hcarries : ∀ a ∈ arrivals, a.Carries S) :
    let r := Run.run Receiver.recv { stream := s } arrivals
    r.received = S.take r.stream.recvSize ∧
      ∀ earlier later, arrivals = earlier ++ later →
        (Run.run Receiver.recv { stream := s } earlier).stream.recvSize ≤ r.stream.recvSize := by
  have hs := hfresh.deliversPrefix hid (fun i => S.getD i 0) S.length
  refine ⟨?_, ?_⟩
  · obtain ⟨hr, -⟩ := hs.run hcarries
    rw [hr.received_eq, window_getD 0 (by simpa using hr.recvSize_le)]
    simp
  · rintro earlier later rfl
    have hearlier := (hs.run fun a ha => hcarries a (List.mem_append_left _ ha)).1
    rw [Run.run_append]
    exact (hearlier.run fun a ha => hcarries a (List.mem_append_right _ ha)).2

/-- A stream of a client with the id 4, in the state after the handshake. -/
def freshStream : QuicStreamBase :=
  { streamDirectionType := .BIDIRECTIONAL, streamId := 4, maxStreamData := 100,
    rxBuffer := { maxBuffer := 100 } }

theorem freshStream_fresh : freshStream.Fresh := ⟨rfl, rfl, rfl, by decide⟩

/-- The last two bytes, and then the first three. -/
def overlappingArrivals : List Arrival :=
  [{ frame := [12, 13], sub := .createStreamSubHeader 4 2 2 true true false },
    { frame := [10, 11, 12], sub := .createStreamSubHeader 4 0 3 false true false }]

theorem recv_delivers_in_order_overlap :
    let r := Run.run Receiver.recv { stream := freshStream } overlappingArrivals
    r.received = [10, 11, 12, 13].take r.stream.recvSize ∧ r.stream.recvSize = 4 :=
  ⟨(recv_delivers_in_order [10, 11, 12, 13] freshStream overlappingArrivals freshStream_fresh
      (by decide) (by simp [Arrival.Carries, overlappingArrivals]; decide)).1,
    by decide⟩

end NtnIab.Quic
