import NtnIab.Dash.DashServer
import NtnIab.Library.Run

/-!
# The bytes that the server queues

`DataSend` takes a frame out of the queue before it knows what the socket does with it. What the
socket does not take of a packet is not put back: a call that takes less than the packet schedules
`DataSend` again, for the next frame, and the result of a call that fails is a large number without
a sign and passes for all of the packet.

## Strategy

`held` are the bytes of a socket that were accepted or wait. A call of `DataSend` leaves them as
they are if every packet is taken whole (`dataSend_flatten`), and makes them fewer if not
(`dataSend_lt`). No event makes up for bytes that are gone (`Lost.step`).
-/

namespace NtnIab.Dash.DashServer

/-- The bytes that a socket accepted. -/
def acceptedBytes (sends : List (List UInt8 × Int)) : List UInt8 :=
  sends.flatMap fun send => send.1.take send.2.toNat

@[simp] theorem acceptedBytes_nil : acceptedBytes [] = [] := rfl

@[simp] theorem acceptedBytes_cons (send : List UInt8 × Int) (rest : List (List UInt8 × Int)) :
    acceptedBytes (send :: rest) = send.1.take send.2.toNat ++ acceptedBytes rest := rfl

@[simp] theorem acceptedBytes_append (first second : List (List UInt8 × Int)) :
    acceptedBytes (first ++ second) = acceptedBytes first ++ acceptedBytes second := by
  simp [acceptedBytes]

/-- With these answers, the socket takes every packet whole that a call of `DataSend` hands to it
from the queue. -/
def TakesAll : List SendAnswer → List (List UInt8) → Prop
  | _, [] => True
  | [], _ => True
  | answer :: answers, frame :: rest =>
      answer.txAvailable = 0 ∨
        min answer.txAvailable frame.length ≤ answer.result.toNat ∧
          TakesAll answers (nextPacket answer.txAvailable frame rest).2

instance TakesAll.decidable : ∀ answers queue, Decidable (TakesAll answers queue)
  | [], [] => inferInstanceAs (Decidable True)
  | _ :: _, [] => inferInstanceAs (Decidable True)
  | [], _ :: _ => inferInstanceAs (Decidable True)
  | answer :: answers, frame :: rest =>
      have := TakesAll.decidable answers (nextPacket answer.txAvailable frame rest).2
      inferInstanceAs (Decidable (_ ∨ _ ∧ _))

/-! ## A call -/

/-- The packet and the queue it leaves hold the bytes of the queue. -/
theorem nextPacket_spec (maxTxSize : Nat) (frame : List UInt8) (rest : List (List UInt8)) :
    let next := nextPacket maxTxSize frame rest
    next.1.length = min maxTxSize frame.length ∧
      next.1 ++ next.2.flatten = (frame :: rest).flatten := by
  unfold nextPacket
  dsimp only
  split_ifs with hcut
  · refine ⟨List.length_take, ?_⟩
    rw [List.flatten_cons, ← List.append_assoc, List.take_append_drop, List.flatten_cons]
  · exact ⟨(Nat.min_eq_right (Nat.not_lt.1 hcut)).symm, rfl⟩

/-- If every packet is taken whole, the accepted bytes and the queue are what was queued. -/
theorem dataSend_flatten {answers : List SendAnswer} {queue : List (List UInt8)}
    (htakes : TakesAll answers queue) :
    acceptedBytes (dataSend answers queue).sends ++ (dataSend answers queue).queue.flatten =
      queue.flatten := by
  induction answers generalizing queue with
  | nil => cases queue <;> rfl
  | cons answer answers ih =>
      cases queue with
      | nil => rfl
      | cons frame rest =>
          unfold dataSend
          by_cases hfull : answer.txAvailable ≤ 0
          · rw [if_pos hfull]
            rfl
          rw [if_neg hfull]
          obtain ⟨hwhole, hrest⟩ := htakes.resolve_left (by omega)
          obtain ⟨hlength, hbytes⟩ := nextPacket_spec answer.txAvailable frame rest
          dsimp only
          calc acceptedBytes ((_, answer.result) :: (dataSend answers _).sends) ++
                (dataSend answers (nextPacket answer.txAvailable frame rest).2).queue.flatten
              = (nextPacket answer.txAvailable frame rest).1 ++
                  (nextPacket answer.txAvailable frame rest).2.flatten := by
                rw [acceptedBytes_cons, List.take_of_length_le (hlength.trans_le hwhole),
                  List.append_assoc, ih hrest]
            _ = (frame :: rest).flatten := hbytes

/-- No bytes are made, and some are lost if a packet is not taken whole. -/
theorem dataSend_length (answers : List SendAnswer) (queue : List (List UInt8)) :
    let kept := acceptedBytes (dataSend answers queue).sends ++
      (dataSend answers queue).queue.flatten
    kept.length ≤ queue.flatten.length ∧
      (¬ TakesAll answers queue → kept.length < queue.flatten.length) := by
  induction answers generalizing queue with
  | nil => cases queue <;> exact ⟨Nat.le_refl _, fun hnot => (hnot trivial).elim⟩
  | cons answer answers ih =>
      cases queue with
      | nil => exact ⟨Nat.le_refl _, fun hnot => (hnot trivial).elim⟩
      | cons frame rest =>
          unfold dataSend
          by_cases hfull : answer.txAvailable ≤ 0
          · rw [if_pos hfull]
            exact ⟨Nat.le_refl _, fun hnot => (hnot (Or.inl (by omega))).elim⟩
          rw [if_neg hfull]
          obtain ⟨hlength, hbytes⟩ := nextPacket_spec answer.txAvailable frame rest
          obtain ⟨hle, hlt⟩ := ih (nextPacket answer.txAvailable frame rest).2
          have htotal := congrArg List.length hbytes
          dsimp only at hle hlt htotal ⊢
          rw [acceptedBytes_cons, List.append_assoc, List.length_append, List.length_take]
          rw [List.length_append] at htotal
          dsimp only
          constructor
          · omega
          · intro hnot
            by_cases hwhole : min answer.txAvailable frame.length ≤ answer.result.toNat
            · have hrest := hlt fun hrest => hnot (Or.inr ⟨hwhole, hrest⟩)
              omega
            · omega

/-- A call asks the socket at most once for each byte and each frame of the queue. -/
theorem dataSend_append (answers more : List SendAnswer) (queue : List (List UInt8))
    (hlong : queue.flatten.length + queue.length ≤ answers.length) :
    dataSend (answers ++ more) queue = dataSend answers queue := by
  induction answers generalizing queue with
  | nil =>
      cases queue with
      | nil => cases more <;> rfl
      | cons frame rest => simp at hlong
  | cons answer answers ih =>
      cases queue with
      | nil => rfl
      | cons frame rest =>
          rw [List.cons_append]
          unfold dataSend
          by_cases hfull : answer.txAvailable ≤ 0
          · rw [if_pos hfull, if_pos hfull]
          rw [if_neg hfull, if_neg hfull]
          have hshorter : (nextPacket answer.txAvailable frame rest).2.flatten.length +
              (nextPacket answer.txAvailable frame rest).2.length ≤ answers.length := by
            unfold nextPacket
            split_ifs
            · simp only [List.flatten_cons, List.length_append, List.length_cons,
                List.length_drop] at hlong ⊢
              omega
            · simp only [List.flatten_cons, List.length_append, List.length_cons] at hlong ⊢
              omega
          dsimp only
          rw [ih _ hshorter]

/-! ## The sockets of a server -/

namespace Sending

/-- The bytes of a socket that were accepted or wait. -/
def held (s : Sending) (socket : SocketId) : List UInt8 :=
  acceptedBytes (s.sends socket) ++ (s.queues socket).flatten

section
variable (s : Sending) (socket other : SocketId) (answers : List SendAnswer)

theorem held_enqueue (frames : List (List UInt8)) :
    (s.enqueue socket frames).held other =
      if other = socket then s.held other ++ frames.flatten else s.held other := by
  unfold held enqueue
  by_cases hsame : other = socket
  · subst hsame
    simp
  · simp [hsame]

theorem held_dataSend_of_ne (hother : other ≠ socket) :
    (s.dataSend socket answers).held other = s.held other := by
  unfold held dataSend
  simp [hother]

theorem held_dataSend_self :
    (s.dataSend socket answers).held socket = acceptedBytes (s.sends socket) ++
      (acceptedBytes (DashServer.dataSend answers (s.queues socket)).sends ++
        (DashServer.dataSend answers (s.queues socket)).queue.flatten) := by
  unfold held dataSend
  simp

/-- A call in which the socket takes every packet whole leaves the bytes as they are. -/
theorem held_dataSend (htakes : TakesAll answers (s.queues socket)) :
    (s.dataSend socket answers).held other = s.held other := by
  by_cases hsame : other = socket
  · rw [hsame, held_dataSend_self, dataSend_flatten htakes]
    rfl
  · exact held_dataSend_of_ne s socket other answers hsame

theorem length_held_dataSend :
    ((s.dataSend socket answers).held other).length ≤ (s.held other).length ∧
      (¬ TakesAll answers (s.queues socket) →
        ((s.dataSend socket answers).held socket).length < (s.held socket).length) := by
  obtain ⟨hle, hlt⟩ := dataSend_length answers (s.queues socket)
  have hheld : (s.held socket).length =
      (acceptedBytes (s.sends socket)).length + (s.queues socket).flatten.length :=
    List.length_append
  have hself : ((s.dataSend socket answers).held socket).length ≤ (s.held socket).length := by
    rw [held_dataSend_self, hheld, List.length_append]
    exact Nat.add_le_add_left hle _
  constructor
  · by_cases hsame : other = socket
    · rw [hsame]
      exact hself
    · exact Nat.le_of_eq (congrArg _ (held_dataSend_of_ne s socket other answers hsame))
  · intro hnot
    rw [held_dataSend_self, hheld, List.length_append]
    exact Nat.add_lt_add_left (hlt hnot) _

end

end Sending

/-! ## A run -/

/-- A segment is asked for, or a socket has room or a scheduled call is due. -/
inductive SendEvent
  | sendSegment (videoId resolution segmentId : UInt32) (socket : SocketId) (input : SegmentInput)
  | dataSend (socket : SocketId) (answers : List SendAnswer)

/-- The sending half, and the bytes that were queued for each socket. -/
structure SendRun where
  sending : Sending
  queued : SocketId → List UInt8

namespace SendRun

/-- A server that has the given frames in its queues. -/
def start (queues : SocketId → List (List UInt8)) : SendRun where
  sending := { queues }
  queued socket := (queues socket).flatten

def step (r : SendRun) : SendEvent → SendRun
  | .sendSegment videoId resolution segmentId socket input =>
      { sending := r.sending.sendSegment videoId resolution segmentId socket input
        queued := Function.update r.queued socket (r.queued socket ++
          (segmentFrames videoId resolution segmentId input).flatten) }
  | .dataSend socket answers => { r with sending := r.sending.dataSend socket answers }

/-- What a socket accepted, followed by what waits for it, is what was queued for it. -/
def Lossless (r : SendRun) : Prop := ∀ socket, r.sending.held socket = r.queued socket

/-- There are bytes of a socket that were neither accepted nor wait. -/
def Lost (r : SendRun) : Prop :=
  ∃ socket, (r.sending.held socket).length < (r.queued socket).length

/-- The socket takes every packet whole that the event hands to it. -/
def Takes (r : SendRun) : SendEvent → Prop
  | .sendSegment videoId resolution segmentId socket input =>
      TakesAll input.answers
        (r.sending.queues socket ++ segmentFrames videoId resolution segmentId input)
  | .dataSend socket answers => TakesAll answers (r.sending.queues socket)

theorem Lost.not_lossless {r : SendRun} (hr : Lost r) : ¬ Lossless r := by
  intro hlossless
  obtain ⟨socket, hlt⟩ := hr
  rw [hlossless socket] at hlt
  exact Nat.lt_irrefl _ hlt

/-- Frames are queued. -/
def enqueue (r : SendRun) (socket : SocketId) (frames : List (List UInt8)) : SendRun :=
  { sending := r.sending.enqueue socket frames
    queued := Function.update r.queued socket (r.queued socket ++ frames.flatten) }

theorem queued_enqueue (r : SendRun) (socket other : SocketId) (frames : List (List UInt8)) :
    (r.enqueue socket frames).queued other =
      if other = socket then r.queued other ++ frames.flatten else r.queued other := by
  unfold enqueue
  by_cases hsame : other = socket
  · subst hsame
    simp
  · simp [hsame]

theorem Lossless.enqueue {r : SendRun} (hr : Lossless r) (socket : SocketId)
    (frames : List (List UInt8)) : Lossless (r.enqueue socket frames) := by
  intro other
  rw [queued_enqueue, ← hr other]
  exact Sending.held_enqueue r.sending socket other frames

theorem Lost.enqueue {r : SendRun} (hr : Lost r) (socket : SocketId)
    (frames : List (List UInt8)) : Lost (r.enqueue socket frames) := by
  obtain ⟨other, hlt⟩ := hr
  refine ⟨other, ?_⟩
  rw [queued_enqueue, show (r.enqueue socket frames).sending = r.sending.enqueue socket frames
    from rfl, Sending.held_enqueue]
  split_ifs
  · rw [List.length_append, List.length_append]
    exact Nat.add_lt_add_right hlt _
  · exact hlt

/-- Both events are a call of `DataSend`, one of them after frames were queued. -/
theorem step_eq (r : SendRun) (event : SendEvent) :
    ∃ r₀ socket answers, (r₀ = r ∨ ∃ frames, r₀ = r.enqueue socket frames) ∧
      r.step event = { r₀ with sending := r₀.sending.dataSend socket answers } ∧
      (Takes r event ↔ TakesAll answers (r₀.sending.queues socket)) := by
  cases event with
  | dataSend socket answers => exact ⟨r, socket, answers, Or.inl rfl, rfl, Iff.rfl⟩
  | sendSegment videoId resolution segmentId socket input =>
      refine ⟨_, socket, input.answers, Or.inr ⟨_, rfl⟩, rfl, ?_⟩
      unfold Takes SendRun.enqueue Sending.enqueue
      dsimp only
      rw [Function.update_self]

theorem Lossless.step {r : SendRun} (hr : Lossless r) {event : SendEvent} :
    (Takes r event → Lossless (r.step event)) ∧ (¬ Takes r event → Lost (r.step event)) := by
  obtain ⟨r₀, socket, answers, hstart, hstep, htakes⟩ := r.step_eq event
  have hr₀ : Lossless r₀ := by
    rcases hstart with rfl | ⟨frames, rfl⟩
    · exact hr
    · exact hr.enqueue socket frames
  rw [hstep, htakes]
  constructor
  · intro hall other
    exact (Sending.held_dataSend r₀.sending socket other answers hall).trans (hr₀ other)
  · intro hnot
    refine ⟨socket, ?_⟩
    have hlt := (Sending.length_held_dataSend r₀.sending socket socket answers).2 hnot
    rwa [hr₀ socket] at hlt

theorem Lost.step {r : SendRun} (hr : Lost r) (event : SendEvent) : Lost (r.step event) := by
  obtain ⟨r₀, socket, answers, hstart, hstep, -⟩ := r.step_eq event
  have hr₀ : Lost r₀ := by
    rcases hstart with rfl | ⟨frames, rfl⟩
    · exact hr
    · exact hr.enqueue socket frames
  obtain ⟨other, hlt⟩ := hr₀
  rw [hstep]
  exact ⟨other, Nat.lt_of_le_of_lt
    (Sending.length_held_dataSend r₀.sending socket other answers).1 hlt⟩

theorem start_lossless (queues : SocketId → List (List UInt8)) : Lossless (start queues) :=
  fun _ => rfl

/-- Bytes that are lost stay lost. -/
theorem Lost.run {r : SendRun} (hr : Lost r) (events : List SendEvent) :
    Lost (Run.run SendRun.step r events) := by
  induction events generalizing r with
  | nil => exact hr
  | cons event rest ih => exact ih (hr.step event)

/-- After any run, from any queues, a socket's accepted bytes and its queue are what was queued for
it if and only if the sockets took every packet whole. -/
theorem run_lossless_iff (queues : SocketId → List (List UInt8)) (events : List SendEvent) :
    Lossless (Run.run step (start queues) events) ↔
      Run.AllSteps step Takes (start queues) events := by
  suffices hall : ∀ r, Lossless r →
      (Lossless (Run.run step r events) ↔ Run.AllSteps step Takes r events) from
    hall _ (start_lossless queues)
  induction events with
  | nil => exact fun r hr => iff_of_true hr trivial
  | cons event rest ih =>
      intro r hr
      unfold Run.AllSteps
      rw [Run.run_cons]
      by_cases htakes : Takes r event
      · rw [ih _ (hr.step.1 htakes), and_iff_right htakes]
      · exact iff_of_false ((hr.step.2 htakes).run rest).not_lossless fun h => htakes h.1

/-- A frame of three bytes and one of a byte. The socket takes one byte of the first, and the others
are gone. When the call fails, all three are, and `DataSend` is not called again. -/
theorem not_run_lossless :
    let r := start fun _ => [[1, 2, 3], [4]]
    let short := r.step (.dataSend 0 [⟨100, 1⟩, ⟨100, 1⟩])
    let failed := r.step (.dataSend 0 [⟨100, -1⟩, ⟨100, 1⟩])
    (short.sending.held 0 = [1, 4] ∧ short.sending.retries 0 = 1 ∧ ¬ Lossless short) ∧
      failed.sending.held 0 = [4] ∧ failed.sending.retries 0 = 0 ∧ ¬ Lossless failed := by
  refine ⟨⟨by decide, by decide, fun hlossless => ?_⟩, by decide, by decide, fun hlossless => ?_⟩
  · exact absurd (hlossless 0) (by decide)
  · exact absurd (hlossless 0) (by decide)

end SendRun

end NtnIab.Dash.DashServer
