import NtnIab.Library.Run
import NtnIab.Quic.StreamBase

/-!
# Flow control of a sending stream

A stream sends as long as the bytes it has in flight are below the credit it was granted. The
buffer counts a frame as in flight only if some packet fits in it whole: a frame cut out of a
packet that is longer than the requested size goes out uncounted, and the window does not shrink.

## Strategy

`InFlow` says that the bytes in flight are the bytes handed out and not refused. An iteration of
`sendPendingData` keeps it if `FrameFits` holds before it, whether the frame is accepted or not
(`inFlow_sendDataFrame`). The loop then keeps it by induction on the accepted frames, and a run by
`Run.AllSteps.invariant`.
-/

namespace NtnIab.Quic

open QuicStreamBase

namespace QuicStreamBase

/-- The first packet fits whole in the frame that is requested next, and the frame in the window
of the stream. -/
def FrameFits (maxPacketSize : Nat) (s : QuicStreamBase) : Prop :=
  s.txBuffer.firstFits (s.requestSize maxPacketSize) ∧
    min (s.requestSize maxPacketSize) s.txBuffer.appSize ≤ s.streamWindow

instance (maxPacketSize : Nat) (s : QuicStreamBase) : Decidable (s.FrameFits maxPacketSize) :=
  inferInstanceAs (Decidable (_ ∧ _))

/-- Every iteration of the loop starts with a frame that fits. -/
def FramesFit (maxPacketSize : Nat) (now : Int) : Nat → QuicStreamBase → Prop
  | 0, s => s.hasPendingData → s.FrameFits maxPacketSize
  | accepts + 1, s => s.hasPendingData → s.FrameFits maxPacketSize ∧
      FramesFit maxPacketSize now accepts (s.sendIteration maxPacketSize now true).1

instance FramesFit.decidable (maxPacketSize : Nat) (now : Int) :
    ∀ accepts s, Decidable (FramesFit maxPacketSize now accepts s)
  | 0, s => inferInstanceAs (Decidable (s.hasPendingData → _))
  | accepts + 1, s =>
      have := FramesFit.decidable maxPacketSize now accepts
        (s.sendIteration maxPacketSize now true).1
      inferInstanceAs (Decidable (s.hasPendingData → _ ∧ _))

/-- On a stream other than 0 a frame that is requested fits in the window. -/
theorem requestSize_le_streamWindow {s : QuicStreamBase} (hid : s.streamId ≠ 0)
    (maxPacketSize : Nat) : s.requestSize maxPacketSize ≤ s.streamWindow := by
  unfold requestSize availableWindow
  rw [if_pos hid]
  exact min_le_left _ _

end QuicStreamBase

/-! ## Runs of the sending side -/

inductive FlowEvent
  | send (frame : List UInt8)
  | sendPendingData (maxPacketSize : Nat) (now : Int) (accepts : Nat)
  | setMaxStreamData (maxStreamData : Nat)
  deriving Repr, DecidableEq

/-- A stream that sends, the largest credit it was granted and the frames it has handed on. -/
structure Sender where
  stream : QuicStreamBase
  granted : Nat
  handOffs : List HandOff := []
  deriving Repr, DecidableEq

namespace Sender

/-- A stream that has not handed on anything, with the credit it starts with. -/
def start (s : QuicStreamBase) : Sender := { stream := s, granted := s.maxStreamData }

def step (r : Sender) : FlowEvent → Sender
  | .send frame => { r with stream := (r.stream.send frame).2.1 }
  | .sendPendingData maxPacketSize now accepts =>
      let (_, stream, handOffs) := r.stream.sendPendingData maxPacketSize now accepts
      { r with stream, handOffs := r.handOffs ++ handOffs }
  | .setMaxStreamData maxStreamData =>
      let stream := r.stream.setMaxStreamData maxStreamData
      { r with stream, granted := max r.granted stream.maxStreamData }

/-- The bytes handed out and not rejected. -/
def acceptedBytes (handOffs : List HandOff) : Nat :=
  ((handOffs.filter fun handOff => handOff.accepted).map fun handOff =>
    handOff.payload.length).sum

/-- The stream keeps to its credit: no byte handed out lies beyond the largest credit granted, and
the bytes in flight are the bytes handed out and not rejected. -/
structure WithinCredit (r : Sender) : Prop where
  offset_le : ∀ handOff ∈ r.handOffs, handOff.sub.offset + handOff.payload.length ≤ r.granted
  bytesInFlight_eq : r.stream.txBuffer.bytesInFlight = acceptedBytes r.handOffs

/-- Every frame that the event sends fits. -/
def Fits (r : Sender) : FlowEvent → Prop
  | .sendPendingData maxPacketSize now accepts =>
      FramesFit maxPacketSize now accepts { r.stream with sendPendingDataEvent := false }
  | _ => True

instance (r : Sender) : (event : FlowEvent) → Decidable (r.Fits event)
  | .sendPendingData .. => FramesFit.decidable ..
  | .send _ => inferInstanceAs (Decidable True)
  | .setMaxStreamData _ => inferInstanceAs (Decidable True)

/-- The counters of the stream and of its buffer agree with the frames handed on, and are within
the credit. -/
structure InFlow (r : Sender) : Prop where
  accounted : r.stream.txBuffer.Accounted
  maxStreamData_le : r.stream.maxStreamData ≤ r.granted
  granted_lt : r.granted < 2 ^ 32
  sentSize_eq : r.stream.sentSize = acceptedBytes r.handOffs
  inFlight_eq : r.stream.txBuffer.sentSize = acceptedBytes r.handOffs
  accepted_le : acceptedBytes r.handOffs ≤ r.granted
  offset_le : ∀ handOff ∈ r.handOffs, handOff.sub.offset + handOff.payload.length ≤ r.granted

theorem InFlow.withinCredit {r : Sender} (hr : InFlow r) : WithinCredit r :=
  ⟨hr.offset_le, hr.inFlight_eq⟩

@[simp] theorem acceptedBytes_append (first second : List HandOff) :
    acceptedBytes (first ++ second) = acceptedBytes first + acceptedBytes second := by
  simp [acceptedBytes]

end Sender

namespace QuicStreamBase

/-! ## One frame -/

/-- The fields of a stream that the counters of `InFlow` do not depend on may change. -/
structure SameFlow (s s' : QuicStreamBase) : Prop where
  txBuffer_eq : s'.txBuffer = s.txBuffer
  maxStreamData_eq : s'.maxStreamData = s.maxStreamData
  sentSize_eq : s'.sentSize = s.sentSize
  streamId_eq : s'.streamId = s.streamId

theorem setStreamStateSendIf_sameFlow (condition : Bool) (streamState : QuicStreamState)
    (s : QuicStreamBase) : SameFlow s (setStreamStateSendIf condition streamState s) := by
  cases condition <;> exact ⟨rfl, rfl, rfl, rfl⟩

/-- What `SendDataFrame` does to the counters and hands on. -/
theorem sendDataFrame_spec (seq maxSize : Nat) (now : Int) (accepted : Bool)
    (s : QuicStreamBase) :
    let frame := (s.txBuffer.nextSequence maxSize seq now).1
    let txBuffer := (s.txBuffer.nextSequence maxSize seq now).2
    let result := sendDataFrame seq maxSize now accepted s
    result.2.payload = frame ∧ result.2.accepted = accepted ∧
      result.2.sub.offset = (if s.sentSize ≠ 0 then seq else 0) ∧
      result.1.maxStreamData = s.maxStreamData ∧ result.1.streamId = s.streamId ∧
      result.1.txBuffer = (if accepted then txBuffer else (txBuffer.rejected frame).2) ∧
      result.1.sentSize = (if accepted then s.sentSize + frame.length else s.sentSize) := by
  have hstate := setStreamStateSendIf_sameFlow (s.streamStateSend = .OPEN && s.sends) .SEND s
  unfold sendDataFrame
  dsimp only
  generalize setStreamStateSendIf (s.streamStateSend = .OPEN && s.sends) .SEND s = s₁
    at hstate ⊢
  rw [hstate.txBuffer_eq, hstate.sentSize_eq, hstate.streamId_eq]
  cases accepted with
  | false =>
      refine ⟨rfl, rfl, ?_, hstate.maxStreamData_eq, rfl, rfl, ?_⟩
      · simp [QuicSubheader.createStreamSubHeader]
      · simp
  | true =>
      have hsame := setStreamStateSendIf_sameFlow
        (s₁.streamStateSend = .SEND && s₁.fin && s₁.sends) .DATA_SENT
      refine ⟨rfl, rfl, ?_, ?_, ?_, ?_, ?_⟩
      · simp [QuicSubheader.createStreamSubHeader]
      · exact (setStreamStateSendIf_sameFlow ..).maxStreamData_eq.trans hstate.maxStreamData_eq
      · exact (setStreamStateSendIf_sameFlow ..).streamId_eq
      · exact (setStreamStateSendIf_sameFlow ..).txBuffer_eq
      · exact (setStreamStateSendIf_sameFlow ..).sentSize_eq

theorem appendingTx_spec (frame : List UInt8) (s : QuicStreamBase) :
    ((appendingTx frame s).2.txBuffer = s.txBuffer ∨
        (appendingTx frame s).2.txBuffer = (s.txBuffer.add frame).2) ∧
      (appendingTx frame s).2.maxStreamData = s.maxStreamData ∧
      (appendingTx frame s).2.sentSize = s.sentSize := by
  unfold appendingTx
  dsimp only
  split
  · exact ⟨.inr rfl, rfl, rfl⟩
  · exact ⟨.inl rfl, rfl, rfl⟩

/-- Writing to a stream only adds to the buffer. -/
theorem send_spec (frame : List UInt8) (s : QuicStreamBase) :
    ((s.send frame).2.1.txBuffer = s.txBuffer ∨
        (s.send frame).2.1.txBuffer = (s.txBuffer.add frame).2) ∧
      (s.send frame).2.1.maxStreamData = s.maxStreamData ∧
      (s.send frame).2.1.sentSize = s.sentSize := by
  have hstate := setStreamStateSendIf_sameFlow (s.streamStateSend = .IDLE && s.sends) .OPEN s
  unfold send
  dsimp only
  generalize setStreamStateSendIf (s.streamStateSend = .IDLE && s.sends) .OPEN s = s₁
    at hstate ⊢
  obtain ⟨htx, hmax, hsent, -⟩ := hstate
  split
  · have happended := appendingTx_spec frame s₁
    rw [htx, hmax, hsent] at happended
    generalize appendingTx frame s₁ = result at happended ⊢
    dsimp only
    split <;> exact happended
  · exact ⟨.inl htx, hmax, hsent⟩

theorem setMaxStreamData_spec (maxStreamData : Nat) (s : QuicStreamBase) :
    (s.setMaxStreamData maxStreamData).txBuffer = s.txBuffer ∧
      (s.setMaxStreamData maxStreamData).maxStreamData = maxStreamData % 2 ^ 32 ∧
      (s.setMaxStreamData maxStreamData).sentSize = s.sentSize := by
  unfold setMaxStreamData
  dsimp only
  split <;> exact ⟨rfl, rfl, rfl⟩

/-- The loop ends by itself once the socket accepts every frame: no more frames are sent than
there are bytes. -/
theorem sendPendingLoop_complete {maxPacketSize accepts : Nat} {now : Int} {s : QuicStreamBase}
    (haccounted : s.txBuffer.Accounted) (hpos : 0 < maxPacketSize)
    (haccepts : s.txBuffer.appSize ≤ accepts) :
    let result := sendPendingLoop maxPacketSize now accepts s
    ¬ result.2.1.hasPendingData ∧ ∀ handOff ∈ result.2.2, handOff.accepted := by
  induction accepts generalizing s with
  | zero =>
      have hidle : ¬ s.hasPendingData := fun h => by
        have := h.2
        omega
      unfold sendPendingLoop
      rw [if_neg hidle]
      exact ⟨hidle, by simp⟩
  | succ accepts ih =>
      unfold sendPendingLoop
      by_cases hpending : s.hasPendingData
      · obtain ⟨-, hanswer, -, -, -, htx, -⟩ := sendDataFrame_spec (s.sentSize % 2 ^ 32)
          (s.requestSize maxPacketSize) now true s
        obtain ⟨-, hlength, happ, -, hnext⟩ := QuicStreamTxBuffer.nextSequence_bytes
          (s.requestSize maxPacketSize) (s.sentSize % 2 ^ 32) now haccounted
        rw [if_pos rfl] at htx
        have hrequest : 0 < s.requestSize maxPacketSize := lt_min hpending.1 hpos
        have happPos : 0 < s.txBuffer.appSize := hpending.2
        obtain ⟨hdone, hall⟩ := ih (s := (s.sendIteration maxPacketSize now true).1)
          (by unfold sendIteration; rw [htx]; exact hnext)
          (by unfold sendIteration; rw [htx]; omega)
        rw [if_pos hpending]
        refine ⟨hdone, ?_⟩
        intro handOff hmem
        rcases List.mem_cons.1 hmem with rfl | hmem
        · exact hanswer
        · exact hall handOff hmem
      · rw [if_neg hpending]
        exact ⟨hpending, by simp⟩

end QuicStreamBase

namespace Sender

/-- An iteration that sends a frame that fits keeps the counters in agreement. -/
theorem inFlow_sendIteration {r : Sender} {maxPacketSize : Nat} {now : Int} (accepted : Bool)
    (hr : InFlow r) (hfits : r.stream.FrameFits maxPacketSize) :
    InFlow { r with
      stream := (r.stream.sendIteration maxPacketSize now accepted).1
      handOffs := r.handOffs ++ [(r.stream.sendIteration maxPacketSize now accepted).2] } := by
  obtain ⟨haccounted, hmax, hgranted, hsent, hinFlight, haccepted, hoffset⟩ := hr
  obtain ⟨hfirst, hwindow⟩ := hfits
  have hlt : r.stream.txBuffer.sentSize < 2 ^ 32 := by omega
  obtain ⟨hpayload, hanswer, hsubOffset, hmaxStreamData, -, htx, hsize⟩ := sendDataFrame_spec
    (r.stream.sentSize % 2 ^ 32) (r.stream.requestSize maxPacketSize) now accepted r.stream
  obtain ⟨-, hlength, -, -, hnext⟩ := QuicStreamTxBuffer.nextSequence_bytes
    (r.stream.requestSize maxPacketSize) (r.stream.sentSize % 2 ^ 32) now haccounted
  have hnextSent := QuicStreamTxBuffer.nextSequence_sentSize (r.stream.sentSize % 2 ^ 32) now
    haccounted hfirst hlt
  obtain ⟨hrejected, hrejectedSent, -⟩ := QuicStreamTxBuffer.rejected_nextSequence
    (r.stream.sentSize % 2 ^ 32) now haccounted hfirst hlt
  unfold sendIteration
  generalize sendDataFrame (r.stream.sentSize % 2 ^ 32) (r.stream.requestSize maxPacketSize) now
    accepted r.stream = result at hpayload hanswer hsubOffset hmaxStreamData htx hsize ⊢
  generalize r.stream.txBuffer.nextSequence (r.stream.requestSize maxPacketSize)
    (r.stream.sentSize % 2 ^ 32) now = next at *
  rw [hsent, Nat.mod_eq_of_lt (by omega)] at hsubOffset
  -- the frame ends within the window that is left
  have hend : acceptedBytes r.handOffs + next.1.length ≤ r.granted := by
    have : next.1.length ≤ r.stream.streamWindow := by omega
    unfold streamWindow QuicStreamTxBuffer.bytesInFlight at this
    dsimp only at this
    split at this <;> omega
  have hsingle : acceptedBytes [result.2] = if accepted then next.1.length else 0 := by
    cases accepted <;> simp [acceptedBytes, hanswer, hpayload]
  have hall : ∀ handOff ∈ r.handOffs ++ [result.2],
      handOff.sub.offset + handOff.payload.length ≤ r.granted := by
    intro handOff hmem
    rcases List.mem_append.1 hmem with hmem | hmem
    · exact hoffset handOff hmem
    · rw [List.mem_singleton.1 hmem, hpayload, hsubOffset]
      split <;> omega
  cases accepted with
  | false =>
      simp only [Bool.false_eq_true, if_false] at htx hsize hsingle
      refine ⟨?_, ?_, hgranted, ?_, ?_, ?_, hall⟩
      · rw [htx]
        exact hrejected
      · rw [hmaxStreamData]
        exact hmax
      · rw [acceptedBytes_append, hsingle, hsize, hsent, Nat.add_zero]
      · rw [acceptedBytes_append, hsingle, htx, hrejectedSent, hinFlight, Nat.add_zero]
      · rw [acceptedBytes_append, hsingle, Nat.add_zero]
        exact haccepted
  | true =>
      simp only [if_true] at htx hsize hsingle
      refine ⟨?_, ?_, hgranted, ?_, ?_, ?_, hall⟩
      · rw [htx]
        exact hnext
      · rw [hmaxStreamData]
        exact hmax
      · rw [acceptedBytes_append, hsingle, hsize, hsent]
      · rw [acceptedBytes_append, hsingle, htx, hnextSent, hinFlight]
        exact Nat.mod_eq_of_lt (by omega)
      · rw [acceptedBytes_append, hsingle]
        exact hend

/-- The loop keeps the counters in agreement if all its frames fit. -/
theorem inFlow_sendPendingLoop {r : Sender} {maxPacketSize : Nat} {now : Int} {accepts : Nat}
    (hr : InFlow r) (hfits : FramesFit maxPacketSize now accepts r.stream) :
    InFlow { r with
      stream := (sendPendingLoop maxPacketSize now accepts r.stream).2.1
      handOffs := r.handOffs ++ (sendPendingLoop maxPacketSize now accepts r.stream).2.2 } := by
  induction accepts generalizing r with
  | zero =>
      unfold sendPendingLoop
      by_cases hpending : r.stream.hasPendingData
      · rw [if_pos hpending]
        exact inFlow_sendIteration false hr (hfits hpending)
      · rw [if_neg hpending]
        simpa using hr
  | succ accepts ih =>
      unfold sendPendingLoop
      by_cases hpending : r.stream.hasPendingData
      · obtain ⟨hfit, hrest⟩ := hfits hpending
        have hnext := ih (inFlow_sendIteration true hr hfit) hrest
        rw [List.append_assoc] at hnext
        rw [if_pos hpending]
        exact hnext
      · rw [if_neg hpending]
        simpa using hr

theorem inFlow_step {r : Sender} {event : FlowEvent} (hr : InFlow r) (hfits : r.Fits event) :
    InFlow (r.step event) := by
  cases event with
  | send frame =>
      obtain ⟨htx, hmax, hsent⟩ := send_spec frame r.stream
      unfold step
      rcases htx with htx | htx
      · refine ⟨?_, ?_, hr.granted_lt, ?_, ?_, hr.accepted_le, hr.offset_le⟩
        · rw [htx]
          exact hr.accounted
        · rw [hmax]
          exact hr.maxStreamData_le
        · rw [hsent]
          exact hr.sentSize_eq
        · rw [htx]
          exact hr.inFlight_eq
      · refine ⟨?_, ?_, hr.granted_lt, ?_, ?_, hr.accepted_le, hr.offset_le⟩
        · rw [htx]
          exact QuicStreamTxBuffer.add_accounted hr.accounted
        · rw [hmax]
          exact hr.maxStreamData_le
        · rw [hsent]
          exact hr.sentSize_eq
        · rw [htx, QuicStreamTxBuffer.add_sentSize]
          exact hr.inFlight_eq
  | sendPendingData maxPacketSize now accepts =>
      have hscheduled : InFlow { r with
          stream := { r.stream with sendPendingDataEvent := false } } :=
        ⟨hr.accounted, hr.maxStreamData_le, hr.granted_lt, hr.sentSize_eq, hr.inFlight_eq,
          hr.accepted_le, hr.offset_le⟩
      exact inFlow_sendPendingLoop hscheduled hfits
  | setMaxStreamData maxStreamData =>
      obtain ⟨htx, hmax, hsent⟩ := setMaxStreamData_spec maxStreamData r.stream
      have hlt : maxStreamData % 2 ^ 32 < 2 ^ 32 := Nat.mod_lt _ (by decide)
      have hle : r.granted ≤ max r.granted (maxStreamData % 2 ^ 32) := le_max_left _ _
      unfold step
      dsimp only
      rw [hmax]
      refine ⟨?_, ?_, max_lt hr.granted_lt hlt, ?_, ?_, hr.accepted_le.trans hle,
        fun handOff hmem => (hr.offset_le handOff hmem).trans hle⟩
      · rw [htx]
        exact hr.accounted
      · rw [hmax]
        exact le_max_right _ _
      · rw [hsent]
        exact hr.sentSize_eq
      · rw [htx]
        exact hr.inFlight_eq

end Sender

open Sender

/-- A stream that has not sent anything. -/
structure QuicStreamBase.Unsent (s : QuicStreamBase) : Prop where
  accounted : s.txBuffer.Accounted
  maxStreamData_lt : s.maxStreamData < 2 ^ 32
  sentSize_eq : s.sentSize = 0
  inFlight_eq : s.txBuffer.sentSize = 0

/-- In a run in which every frame fits when it is sent, the stream keeps to its credit after every
operation. -/
theorem withinCredit_of_fits (s : QuicStreamBase) (events : List FlowEvent) (hunsent : s.Unsent)
    (hfits : Run.AllSteps Sender.step Fits (start s) events) :
    WithinCredit (start s) ∧
      Run.AllSteps Sender.step (fun r event => WithinCredit (r.step event)) (start s) events := by
  have hstart : InFlow (start s) :=
    ⟨hunsent.accounted, le_refl _, hunsent.maxStreamData_lt, hunsent.sentSize_eq,
      hunsent.inFlight_eq, Nat.zero_le _, by simp [start]⟩
  exact ⟨hstart.withinCredit, hfits.imp (fun _ _ => inFlow_step)
    (fun _ _ hr hfit => (inFlow_step hr hfit).withinCredit) hstart⟩

/-- A sending stream that was granted 10 bytes. -/
def grantedStream : QuicStreamBase :=
  { streamDirectionType := .BIDIRECTIONAL, streamId := 4, maxStreamData := 10 }

theorem grantedStream_unsent : grantedStream.Unsent :=
  ⟨⟨rfl, by decide, by decide, by simp [grantedStream]⟩, by decide, rfl, rfl⟩

/-- Two packets of four bytes are merged into one frame. -/
theorem withinCredit_of_fits_merge :
    WithinCredit (start grantedStream) ∧
      Run.AllSteps Sender.step (fun r event => WithinCredit (r.step event)) (start grantedStream)
        [.send [1, 2, 3, 4], .send [5, 6, 7, 8], .sendPendingData 1400 0 5] :=
  withinCredit_of_fits grantedStream _ grantedStream_unsent (by decide)

/-- A packet of 25 bytes goes out in full on a credit of 10: its pieces are not counted. -/
theorem split_not_withinCredit :
    ¬ Run.AllSteps Sender.step (fun r event => WithinCredit (r.step event)) (start grantedStream)
        [.send (List.replicate 25 0), .sendPendingData 1400 0 5] := by
  intro h
  exact absurd h.2.1.offset_le (by decide)

end NtnIab.Quic
