import NtnIab.Quic.Delivery

/-!
# The credit a receiving stream advertises

A stream advertises its read offset plus the free space of its receive buffer. That is honest as
long as no delivered byte stays in the buffer. A frame that continues the stream and overtakes
buffered bytes leaves them there, unless the chain of deliverable bytes starts inside one of the
items: `extract` runs only if there is something to deliver.

## Strategy

`Honest` says that the items lie above the read offset and end within the buffer size of it, so
everything ever advertised lies within that range too. `honest_recv` shows that a frame keeps it if
`Settles` holds of the frame. A frame that ends within the range then fits, by
`insertFrom_covered`: the disjoint items and the frame together have no more bytes than the range.
-/

namespace NtnIab.Quic

open QuicStreamBase QuicStreamRxBuffer

/-! ## What is advertised -/

/-- The largest value of the MAX_DATA frames sent. -/
def advertisedCredit (outputs : List StreamOutput) : Nat :=
  (outputs.map fun
    | .send sub _ => if sub.frameType = .MAX_DATA then sub.maxData else 0
    | _ => 0).foldr max 0

@[simp] theorem advertisedCredit_append (first second : List StreamOutput) :
    advertisedCredit (first ++ second) =
      max (advertisedCredit first) (advertisedCredit second) := by
  induction first with
  | nil => simp [advertisedCredit]
  | cons output rest ih =>
      simp only [advertisedCredit, List.cons_append, List.map_cons, List.foldr_cons] at ih ⊢
      rw [ih, max_assoc]

theorem QuicStreamBase.Quiet.advertisedCredit_eq {outputs : List StreamOutput}
    (hquiet : Quiet outputs) : advertisedCredit outputs = 0 := by
  induction outputs with
  | nil => rfl
  | cons output rest ih =>
      have hrest := ih fun other hother => hquiet other (List.mem_cons_of_mem _ hother)
      have houtput := hquiet output List.mem_cons_self
      simp only [advertisedCredit, List.map_cons, List.foldr_cons] at hrest ⊢
      rw [hrest]
      rcases houtput with ⟨code, reason, rfl⟩ | ⟨transport, rfl⟩ <;> rfl

theorem advertisedCredit_advertise (s : QuicStreamBase) :
    advertisedCredit s.advertise.2 ≤ s.recvSize + s.rxBuffer.available := by
  unfold advertise
  dsimp only
  split
  · simp [advertisedCredit]
  · exact Nat.zero_le _

theorem advertisedCredit_recvInOrder (frame : List UInt8) (sub : QuicSubheader)
    (s : QuicStreamBase) :
    advertisedCredit (s.recvInOrder frame sub).2.2 ≤
      s.recvSize + (frame.drop (s.recvSize - sub.offset)).length + s.rxBuffer.available := by
  have hadvertise := advertisedCredit_advertise
    { s with recvSize := s.recvSize + (frame.drop (s.recvSize - sub.offset)).length }
  unfold recvInOrder
  dsimp only
  rw [advertisedCredit_append]
  refine max_le hadvertise ?_
  split <;> exact Nat.zero_le _

theorem advertisedCredit_recvUnordered (frame : List UInt8) (sub : QuicSubheader)
    (s : QuicStreamBase) : advertisedCredit (s.recvUnordered frame sub).2.2 = 0 := by
  unfold recvUnordered
  dsimp only
  split <;> rfl

/-! ## Runs -/

/-- A frame arrives, or the connection reads the credit of the stream for its own. -/
inductive CreditEvent
  | recv (a : Arrival)
  | sendMaxStreamData
  deriving Repr, DecidableEq

/-- A stream that receives frames, and the largest credit it has advertised. -/
structure Creditor where
  stream : QuicStreamBase
  credit : Nat := 0
  deriving Repr, DecidableEq

namespace Creditor

def step (r : Creditor) : CreditEvent → Creditor
  | .recv a =>
      let (_, stream, outputs) := r.stream.recv a.containsTransportParameters a.frame a.sub
      { stream, credit := max r.credit (advertisedCredit outputs) }
  | .sendMaxStreamData => { r with credit := max r.credit r.stream.sendMaxStreamData }

/-- The stream bytes of a frame: what is left of it without transport parameters. -/
def payload (r : Creditor) (a : Arrival) : List UInt8 :=
  (removeTransportParameters a.containsTransportParameters r.stream.streamId a.frame).1

/-- The offset after the last stream byte of a frame. -/
def frameEnd (r : Creditor) (a : Arrival) : Nat := a.sub.offset + (r.payload a).length

/-- Every byte in the buffer lies at or above the read offset. -/
def NoneDelivered (r : Creditor) : Prop :=
  ∀ item ∈ r.stream.rxBuffer.streamRecvList, ∀ x, item.offset ≤ x → x < item.itemEnd →
    r.stream.recvSize ≤ x

/-- The byte is delivered or in the buffer. -/
def Has (r : Creditor) (x : Nat) : Prop :=
  x < r.stream.recvSize ∨ Covered r.stream.rxBuffer.streamRecvList x

/-- The step leaves an honest credit: no delivered byte stays in the buffer, the occupancy counts
the bytes there, and a frame that ends within the credit advertised before is kept in full. -/
structure KeepsCredit (r : Creditor) (event : CreditEvent) : Prop where
  noneDelivered : (r.step event).NoneDelivered
  counted : (r.step event).stream.rxBuffer.size =
    QuicStreamRxBuffer.totalSize (r.step event).stream.rxBuffer.streamRecvList
  keeps : ∀ a, event = .recv a → r.frameEnd a ≤ r.credit →
    ∀ x, a.sub.offset ≤ x → x < r.frameEnd a → (r.step event).Has x

/-- A frame that continues the stream does not pass a buffered byte, unless an item holds the byte
after its last one. Another frame ends within the size of the buffer from the read offset. A frame
that fails a check ends above the credit or in the delivered part. -/
def Settles (r : Creditor) : CreditEvent → Prop
  | .recv a =>
      a.sub.isStream ∧
        if r.stream.passesChecks a.sub then
          if r.stream.inOrder (r.payload a) a.sub then
            (∀ item ∈ r.stream.rxBuffer.streamRecvList, r.frameEnd a ≤ item.offset) ∨
              Covered r.stream.rxBuffer.streamRecvList (r.frameEnd a)
          else r.frameEnd a ≤ r.stream.recvSize + r.stream.rxBuffer.maxBuffer
        else r.credit < r.frameEnd a ∨ r.frameEnd a ≤ r.stream.recvSize
  | .sendMaxStreamData => True

instance (r : Creditor) : (event : CreditEvent) → Decidable (r.Settles event)
  | .recv _ => inferInstanceAs (Decidable (_ ∧ _))
  | .sendMaxStreamData => inferInstanceAs (Decidable True)

/-- The items are above the read offset and end within the size of the buffer from there, and so
does the credit. -/
structure Honest (r : Creditor) : Prop where
  accounted : r.stream.rxBuffer.Accounted
  sorted : Sorted r.stream.recvSize r.stream.rxBuffer.streamRecvList
  itemEnd_le : ∀ item ∈ r.stream.rxBuffer.streamRecvList,
    item.itemEnd ≤ r.stream.recvSize + r.stream.rxBuffer.maxBuffer
  credit_le : r.credit ≤ r.stream.recvSize + r.stream.rxBuffer.maxBuffer

theorem Honest.noneDelivered {r : Creditor} (hr : Honest r) : r.NoneDelivered := by
  intro item hmem x hx _
  have := hr.sorted.lo_le item hmem
  omega

/-- Adding a frame that ends within the range of the buffer keeps all of its undelivered bytes. -/
theorem add_covered {b : QuicStreamRxBuffer} {p : List UInt8} {sub : QuicSubheader}
    {recvSize x : Nat} (hb : b.Accounted) (hsorted : Sorted recvSize b.streamRecvList)
    (hends : ∀ item ∈ b.streamRecvList, item.itemEnd ≤ recvSize + b.maxBuffer)
    (hrange : sub.offset + p.length ≤ recvSize + b.maxBuffer) (hle : sub.offset ≤ x)
    (hlt : x < sub.offset + p.length) :
    x < recvSize ∨ Covered (add p sub recvSize b).2.streamRecvList x := by
  by_cases hdelivered : x < recvSize
  · exact .inl hdelivered
  rcases add_cases p sub recvSize b with ⟨-, hstale⟩ | ⟨-, -, hlist⟩
  · omega
  · rw [hlist]
    have := hb.numBytes_eq
    have := hb.numBytes_le
    refine .inr (insertFrom_covered (le_max_left _ _) rfl (le_max_right _ _) hsorted hends hrange
      ?_ (max_le hle (by omega)) hlt)
    unfold available
    omega

theorem add_sorted {b : QuicStreamRxBuffer} {p : List UInt8} {sub : QuicSubheader}
    {recvSize : Nat} (hsorted : Sorted recvSize b.streamRecvList) :
    Sorted recvSize (add p sub recvSize b).2.streamRecvList := by
  rcases add_cases p sub recvSize b with ⟨hlist, -⟩ | ⟨-, -, hlist⟩
  · rwa [hlist]
  · rw [hlist]
    exact insertFrom_sorted (le_max_left _ _) rfl (le_max_right _ _) hsorted

theorem add_itemEnd_le {b : QuicStreamRxBuffer} {p : List UInt8} {sub : QuicSubheader}
    {recvSize hi : Nat} (hends : ∀ item ∈ b.streamRecvList, item.itemEnd ≤ hi)
    (hrange : sub.offset + p.length ≤ hi) :
    ∀ item ∈ (add p sub recvSize b).2.streamRecvList, item.itemEnd ≤ hi := by
  rcases add_cases p sub recvSize b with ⟨hlist, -⟩ | ⟨-, -, hlist⟩
  · rwa [hlist]
  · rw [hlist]
    exact insertFrom_itemEnd_le _ (le_max_left _ _) rfl hends hrange

/-- The step keeps the credit honest, and a frame that ends within it is kept in full. -/
theorem honest_recv {r : Creditor} {a : Arrival} (hr : Honest r) (ha : r.Settles (.recv a)) :
    Honest (r.step (.recv a)) ∧
      (r.frameEnd a ≤ r.credit → ∀ x, a.sub.offset ≤ x → x < r.frameEnd a →
        (r.step (.recv a)).Has x) := by
  obtain ⟨hstream, hsettles⟩ := ha
  have hcases := recvStream_cases a.containsTransportParameters a.frame a.sub r.stream
  have hquiet := quiet_removeTransportParameters a.containsTransportParameters r.stream.streamId
    a.frame
  unfold step frameEnd payload at *
  dsimp only at hcases ⊢
  rw [recv_of_isStream hstream]
  generalize removeTransportParameters a.containsTransportParameters r.stream.streamId a.frame =
    removed at hcases hquiet hsettles ⊢
  rcases hcases with ⟨hfails, hsame, houtputs⟩ | ⟨hpasses, s', hsame, hresult⟩
  · rw [if_neg hfails] at hsettles
    rw [houtputs.advertisedCredit_eq]
    refine ⟨⟨?_, ?_, ?_, ?_⟩, fun hcredit x hx hlt => .inl ?_⟩
    · rw [hsame.rxBuffer_eq]
      exact hr.accounted
    · rw [hsame.recvSize_eq, hsame.rxBuffer_eq]
      exact hr.sorted
    · rw [hsame.recvSize_eq, hsame.rxBuffer_eq]
      exact hr.itemEnd_le
    · rw [hsame.recvSize_eq, hsame.rxBuffer_eq]
      exact max_le hr.credit_le (Nat.zero_le _)
    · dsimp only
      rw [hsame.recvSize_eq]
      omega
  rw [if_pos hpasses] at hsettles
  have hinOrderEq : r.stream.inOrder removed.1 a.sub = s'.inOrder removed.1 a.sub := by
    unfold inOrder
    rw [hsame.recvSize_eq]
  obtain ⟨haccounted, hsorted, hends, hcredit⟩ := hr
  rw [hinOrderEq, ← hsame.recvSize_eq, ← hsame.rxBuffer_eq] at hsettles
  rw [← hsame.rxBuffer_eq] at haccounted
  rw [← hsame.recvSize_eq, ← hsame.rxBuffer_eq] at hsorted hends hcredit
  rw [hresult]
  dsimp only
  rw [advertisedCredit_append, hquiet.advertisedCredit_eq]
  have havailable : s'.rxBuffer.available ≤ s'.rxBuffer.maxBuffer := Nat.sub_le _ _
  by_cases hinOrder : s'.inOrder removed.1 a.sub
  · rw [if_pos hinOrder] at hsettles ⊢
    have hadvertised := advertisedCredit_recvInOrder removed.1 a.sub s'
    obtain ⟨hsize, hrx, -, -⟩ := recvInOrder_spec removed.1 a.sub s'
    generalize s'.recvInOrder removed.1 a.sub = result at hadvertised hsize hrx ⊢
    have hlength : (removed.1.drop (s'.recvSize - a.sub.offset)).length =
        removed.1.length - (s'.recvSize - a.sub.offset) := List.length_drop
    have hlast : s'.recvSize + (removed.1.drop (s'.recvSize - a.sub.offset)).length =
        a.sub.offset + removed.1.length := by
      simp only [inOrder, Bool.or_eq_true, Bool.and_eq_true, decide_eq_true_eq] at hinOrder
      omega
    rw [hlast] at hsize hrx hadvertised
    have hmax : (extract (getDeliverable (a.sub.offset + removed.1.length) s'.rxBuffer).2
        (a.sub.offset + removed.1.length) s'.rxBuffer).2.maxBuffer = s'.rxBuffer.maxBuffer := rfl
    refine ⟨⟨?_, ?_, ?_, ?_⟩, fun _ x _ hlt => .inl ?_⟩
    · rw [hrx]
      exact extract_accounted haccounted
    · rw [hrx, hsize]
      exact (extract_undelivered_iff haccounted hsorted).2 hsettles
    · rw [hrx, hsize, hmax]
      intro item hmem
      have := hends item (extractFrom_subset hmem)
      omega
    · dsimp only
      rw [hrx, hsize, hmax]
      omega
    · dsimp only
      rw [hsize]
      omega
  · rw [if_neg hinOrder] at hsettles ⊢
    have hadvertised := advertisedCredit_recvUnordered removed.1 a.sub s'
    obtain ⟨hsize, hrx, -, -⟩ := recvUnordered_spec removed.1 a.sub s'
    generalize s'.recvUnordered removed.1 a.sub = result at hadvertised hsize hrx ⊢
    refine ⟨⟨?_, ?_, ?_, ?_⟩, fun _ x hx hlt => ?_⟩
    · rw [hrx]
      exact add_accounted haccounted
    · rw [hrx, hsize]
      exact add_sorted hsorted
    · rw [hrx, hsize, add_maxBuffer]
      exact add_itemEnd_le hends hsettles
    · dsimp only
      rw [hrx, hsize, hadvertised, add_maxBuffer]
      omega
    · unfold Has
      dsimp only
      rw [hrx, hsize]
      exact add_covered haccounted hsorted hends hsettles hx hlt

theorem honest_step {r : Creditor} {event : CreditEvent} (hr : Honest r)
    (hevent : r.Settles event) : Honest (r.step event) := by
  cases event with
  | recv a => exact (honest_recv hr hevent).1
  | sendMaxStreamData =>
      refine ⟨hr.accounted, hr.sorted, hr.itemEnd_le, max_le hr.credit_le ?_⟩
      have : r.stream.rxBuffer.available ≤ r.stream.rxBuffer.maxBuffer := Nat.sub_le _ _
      exact (Nat.mod_le _ _).trans (Nat.add_le_add_left this _)

theorem keepsCredit_of_settles {r : Creditor} {event : CreditEvent} (hr : Honest r)
    (hevent : r.Settles event) : r.KeepsCredit event := by
  have hstep := honest_step hr hevent
  refine ⟨hstep.noneDelivered, hstep.accounted.numBytes_eq, ?_⟩
  rintro a rfl hcredit x hx hlt
  exact (honest_recv hr hevent).2 hcredit x hx hlt

end Creditor

open Creditor

/-- If every frame of a run settles what is buffered, every step leaves the credit honest. -/
theorem credit_honest_of_settles (s : QuicStreamBase) (events : List CreditEvent)
    (hfresh : s.Fresh) (hsettles : Run.AllSteps Creditor.step Settles { stream := s } events) :
    Run.AllSteps Creditor.step KeepsCredit { stream := s } events := by
  refine hsettles.imp (I := Honest) (fun _ _ => honest_step) (fun _ _ => keepsCredit_of_settles) ?_
  refine ⟨hfresh.accounted, ?_, ?_, Nat.zero_le _⟩
  · rw [hfresh.streamRecvList_eq]
    trivial
  · rw [hfresh.streamRecvList_eq]
    simp

/-- The bytes 5 and 6, and then the bytes before them. -/
theorem credit_honest_of_settles_example :
    Run.AllSteps Creditor.step KeepsCredit { stream := freshStream }
      [.recv { frame := [5, 6], sub := .createStreamSubHeader 4 5 2 true true false },
        .sendMaxStreamData,
        .recv { frame := [0, 1, 2, 3, 4], sub := .createStreamSubHeader 4 0 5 false true false }] :=
  credit_honest_of_settles freshStream _ freshStream_fresh (by decide)

/-- A frame that overtakes a buffered one leaves it in the buffer, below the read offset. -/
theorem overtaken_not_honest :
    ¬ Run.AllSteps Creditor.step KeepsCredit { stream := freshStream }
      [.recv { frame := [5, 6], sub := .createStreamSubHeader 4 5 2 true true false },
        .recv { frame := [0, 1, 2, 3, 4, 5, 6, 7]
                sub := .createStreamSubHeader 4 0 8 false true false }] := by
  intro h
  have hstale := h.2.1.noneDelivered ⟨[5, 6], 5⟩ (by decide) 5 (by decide) (by decide)
  exact absurd hstale (by decide)

end NtnIab.Quic
