import NtnIab.Lte.RlcUmWindow

/-!
# Two entities and what is between them

The sending side of one entity and the receiving side of its peer. What is between them may lose a
PDU, deliver it twice and deliver a later one first: a PDU that was sent arrives whenever it does,
however often it does.

An SDU that is received was sent, and SDUs are received in the order in which they were sent, each
one at most once (`run_received`). Those that are missing are exactly the ones of which a PDU was
given up. A receiving side whose timer does not expire gives up nothing (`run_received_prefix`).

A receiver with ten bits for a number cannot tell a PDU from the one that was sent 1024 earlier.
What arrives is therefore in the window: not older than the window, and not further ahead of what
is waited for than it is wide.

## Strategy

The PDUs are the carriers of `Segmentation`, the receiving side follows the `Resequencer`, and the
invariant says so (`Invariant`). Whatever the PDUs that were sent make, and what is still in the
transmission buffer, are the SDUs that were accepted.
-/

namespace NtnIab.Lte

open Segmentation RlcUm Run SequenceNumber10

/-! ## The system -/

structure RlcUmLink where
  sending : RlcUmSending := {}
  receiving : RlcUmReceiving := {}
  /-- The PDUs that were sent. -/
  sent : List (List UInt8) := []
  /-- The sizes of the opportunities at which they were sent. -/
  offered : List ℕ := []
  /-- The SDUs for which there was room. -/
  accepted : List (List UInt8) := []
  /-- The PDUs that have arrived, by their places in what was sent. -/
  arrived : List ℕ := []
  /-- The order in which the receiving side should hand on what arrives. -/
  order : Resequencer := {}
  deriving Repr, DecidableEq

namespace RlcUmLink

inductive Event
  | sdu (p : List UInt8)
  | opportunity (bytes : ℕ)
  | rbsTimer
  /-- The PDU at this place in what was sent arrives. -/
  | arrive (i : ℕ)
  | reorderingTimer
  deriving Repr, DecidableEq

def step (s : RlcUmLink) : Event → Option RlcUmLink
  | .sdu p => some { s with
      sending := s.sending.doTransmitPdcpPdu p
      accepted := if s.sending.Accepts p then s.accepted ++ [p] else s.accepted }
  | .opportunity bytes => do
      let (sending, p) ← s.sending.doNotifyTxOpportunity bytes
      return { s with
        sending
        sent := s.sent ++ p.toList
        offered := s.offered ++ p.toList.map fun _ => bytes }
  | .rbsTimer => some { s with sending := s.sending.expireRbsTimer }
  | .arrive i =>
      match s.sent[i]? with
      | none => some s
      | some p => do
          let receiving ← s.receiving.doReceivePdu p
          return { s with receiving, order := s.order.arrive 1024 i, arrived := i :: s.arrived }
  | .reorderingTimer =>
      if s.receiving.reorderingTimer then do
        let receiving ← s.receiving.expireReorderingTimer
        return { s with receiving, order := s.order.expire }
      else some s

/-- No SDU is empty, since the layer above has a header of its own. The size of an opportunity is
such that a header fits into its sixteen bits. -/
def Allowed (s : RlcUmLink) : Event → Prop
  | .sdu p => p ≠ []
  | .opportunity bytes => bytes ≤ 100000
  | .arrive i => i < s.sent.length → s.order.InWindow 512 i
  | .rbsTimer | .reorderingTimer => True

instance (s : RlcUmLink) : (event : Event) → Decidable (s.Allowed event)
  | .sdu _ => inferInstanceAs (Decidable (_ ≠ _))
  | .opportunity _ => inferInstanceAs (Decidable (_ ≤ _))
  | .arrive _ => inferInstanceAs (Decidable (_ → _))
  | .rbsTimer => inferInstanceAs (Decidable True)
  | .reorderingTimer => inferInstanceAs (Decidable True)

/-- A step of a link that may have failed. -/
def next (s : Option RlcUmLink) (event : Event) : Option RlcUmLink := s.bind fun s => s.step event

/-- Every event of the run is one that can happen. -/
def Runs (s : Option RlcUmLink) (events : List Event) : Prop :=
  AllSteps next (fun s event => ∀ s' ∈ s, Allowed s' event) s events

instance (s : Option RlcUmLink) (events : List Event) : Decidable (Runs s events) :=
  inferInstanceAs (Decidable (AllSteps _ _ _ _))

/-- Both entities are new. -/
def start (maxTxBufferSize : UInt32) (sendBsrWhenPacketTx : Bool) : RlcUmLink where
  sending := { maxTxBufferSize, sendBsrWhenPacketTx }

/-! ### What a step can do -/

section
variable {s s' : RlcUmLink} {bytes i : ℕ}

theorem step_opportunity_cases (hstep : s.step (.opportunity bytes) = some s') :
    ∃ sending, ∃ p : Option (List UInt8), s' = { s with
      sending
      sent := s.sent ++ p.toList
      offered := s.offered ++ p.toList.map fun _ => bytes } := by
  obtain ⟨⟨sending, p⟩, -, hr⟩ := Option.bind_eq_some_iff.1 hstep
  exact ⟨sending, p, (Option.some.inj hr).symm⟩

theorem step_arrive_cases (hstep : s.step (.arrive i) = some s') :
    s' = s ∨ i < s.sent.length ∧ ∃ receiving, s' = { s with
      receiving
      order := s.order.arrive 1024 i
      arrived := i :: s.arrived } := by
  unfold step at hstep
  dsimp only at hstep
  cases hp : s.sent[i]? with
  | none =>
      rw [hp] at hstep
      exact Or.inl (Option.some.inj hstep).symm
  | some p =>
      rw [hp] at hstep
      obtain ⟨receiving, -, hr⟩ := Option.bind_eq_some_iff.1 hstep
      exact Or.inr ⟨(List.getElem?_eq_some_iff.1 hp).1, receiving, (Option.some.inj hr).symm⟩

theorem step_reorderingTimer_cases (hstep : s.step .reorderingTimer = some s') :
    s' = s ∨ ∃ receiving, s' = { s with receiving, order := s.order.expire } := by
  unfold step at hstep
  dsimp only at hstep
  split at hstep
  · obtain ⟨receiving, -, hr⟩ := Option.bind_eq_some_iff.1 hstep
    exact Or.inr ⟨receiving, (Option.some.inj hr).symm⟩
  · exact Or.inl (Option.some.inj hstep).symm

end

/-! ## What is kept -/

open RlcUmSending RlcUmReceiving

/-- The carriers are the PDUs that were sent. -/
structure Invariant (cs : List (Carrier (List UInt8))) (s : RlcUmLink) : Prop where
  sound : s.sending.Sound
  number : s.sending.sequenceNumber.value = number cs.length
  sent : s.sent = cs.mapIdx fun n c => pdu (SequenceNumber10.number n) c
  chained : Chained cs
  follows : ∀ c, cs.getLast? = some c → (carrier s.sending.txBuffer).first = c.last
  accepted : hear (· ++ ·) (heard (fun _ => true) cs) (some (carrier s.sending.txBuffer)) =
    ⟨none, s.accepted⟩
  tracks : Tracks cs s.receiving s.order
  known : ∀ n ∈ s.order.known, n ∈ s.arrived
  reached : ∀ n ∈ s.arrived, n < s.order.high

variable {s s' : RlcUmLink} {cs : List (Carrier (List UInt8))} {c : Carrier (List UInt8)}
  {bytes i : ℕ} {p : List UInt8}

/-! ### The sending side -/

theorem carrier_nil : carrier [] = ⟨[], true, true⟩ := rfl

/-- An empty buffer adds nothing to what was sent. -/
theorem hear_carrier_nil {a : Assembly (List UInt8)} :
    hear (· ++ ·) a (some (carrier [])) = ⟨none, a.done⟩ := by
  rw [carrier_nil, hear_whole, List.append_nil]

/-- An SDU at the end of the buffer comes after all others. -/
theorem hear_carrier_concat {l : List TxSdu} (hl : Queued l) (a : Assembly (List UInt8)) :
    hear (· ++ ·) a (some (carrier (l ++ [⟨p, .fullSdu⟩]))) =
      ⟨none, (hear (· ++ ·) a (some (carrier l))).done ++ [p]⟩ := by
  by_cases hempty : l = []
  · rw [hempty, hear_carrier_nil]
    exact hear_whole
  · have hglue : carrier (l ++ [⟨p, .fullSdu⟩]) =
        (carrier l).glue (· ++ ·) ⟨[p], true, true⟩ := by
      refine Carrier.ext ?_ ?_ ?_
      · show _ = gluePieces (· ++ ·) (carrier l).last _ _
        rw [hl.last]
        simp [carrier, packets, gluePieces]
      · obtain ⟨sdu, rest, rfl⟩ := List.exists_cons_of_ne_nil hempty
        rfl
      · unfold carrier
        rw [List.getLast?_concat]
        rfl
    have hpieces : (carrier l).pieces ≠ [] := by simpa [carrier, packets] using hempty
    rw [hglue, ← hear_glue List.append_assoc a hpieces (List.cons_ne_nil p []) hl.last.symm,
      hear_whole]

/-- What is cut off the buffer and what is left make what the buffer would have made. -/
theorem hear_sends (hsends : Sends bytes s.sending c s'.sending) (a : Assembly (List UInt8)) :
    hear (· ++ ·) (hear (· ++ ·) a (some c)) (some (carrier s'.sending.txBuffer)) =
      hear (· ++ ·) a (some (carrier s.sending.txBuffer)) := by
  by_cases hempty : s'.sending.txBuffer = []
  · have hlast : c.last = true := by
      rw [← hsends.follows, hempty]
      rfl
    have hall : c = carrier s.sending.txBuffer := by
      rw [← hsends.glue, hempty]
      refine Carrier.ext ?_ rfl hlast
      exact (gluePieces_nil _ _).symm
    rw [hempty, hear_carrier_nil, ← hall]
    unfold hear remainder
    dsimp only
    rw [if_pos hlast]
  · have hpieces : (carrier s'.sending.txBuffer).pieces ≠ [] := by
      simpa [carrier, packets] using hempty
    rw [hear_glue List.append_assoc a hsends.writable.ne hpieces hsends.follows, hsends.glue]

theorem heard_all_concat (cs : List (Carrier (List UInt8))) (c : Carrier (List UInt8)) :
    heard (fun _ => true) (cs ++ [c]) = hear (· ++ ·) (heard (fun _ => true) cs) (some c) :=
  heard_concat _ _ _

/-- The layer above hands an SDU over. -/
theorem Invariant.sdu (hs : Invariant cs s) (hp : p ≠ []) :
    ∃ s', s.step (.sdu p) = some s' ∧ Invariant cs s' := by
  refine ⟨_, rfl, ?_⟩
  have hsound := hs.sound.doTransmitPdcpPdu hp
  by_cases haccepts : s.sending.Accepts p
  · obtain ⟨hbuffer, -, hsn, -⟩ := doTransmitPdcpPdu_of_accepts haccepts
    refine ⟨hsound, hsn ▸ hs.number, hs.sent, hs.chained, ?_, ?_, hs.tracks, hs.known, hs.reached⟩
    · intro d hd
      rw [← hs.follows d hd]
      dsimp only
      rw [hbuffer]
      cases s.sending.txBuffer with
      | nil => rfl
      | cons sdu rest => rfl
    · dsimp only
      rw [hbuffer, if_pos haccepts, hear_carrier_concat hs.sound.queued, hs.accepted]
  · obtain ⟨hbuffer, -, hsn, -⟩ := doTransmitPdcpPdu_of_not_accepts haccepts
    refine ⟨hsound, hsn ▸ hs.number, hs.sent, hs.chained, ?_, ?_, hs.tracks, hs.known, hs.reached⟩
    · dsimp only
      rw [hbuffer]
      exact hs.follows
    · dsimp only
      rw [hbuffer, if_neg haccepts]
      exact hs.accepted

/-- One PDU more is sent, and the buffer has less. -/
structure SendsOn (bytes : ℕ) (s s' : RlcUmLink) : Prop where
  size_lt : size s'.sending.txBuffer < size s.sending.txBuffer
  sent : ∃ p, s'.sent = s.sent ++ [p] ∧ p.length ≤ bytes
  offered : s'.offered = s.offered ++ [bytes]
  maxTxBufferSize : s'.sending.maxTxBufferSize = s.sending.maxTxBufferSize
  accepted : s'.accepted = s.accepted
  order : s'.order = s.order

/-- A PDU is sent. -/
theorem Invariant.sends (hs : Invariant cs s) {sending : RlcUmSending}
    (hsends : Sends bytes s.sending c sending) :
    Invariant (cs ++ [c]) { s with
      sending
      sent := s.sent ++ [pdu s.sending.sequenceNumber.value c]
      offered := s.offered ++ [bytes] } := by
  have hfirst : c.first = (carrier s.sending.txBuffer).first := by
    rw [← hsends.glue]
    rfl
  refine ⟨hsends.sound, ?_, ?_, ?_, ?_, ?_, hs.tracks.append [c], hs.known, hs.reached⟩
  · rw [hsends.sequenceNumber, SequenceNumber10.increment, hs.number, List.length_append]
    exact number_add cs.length 1
  · rw [List.mapIdx_concat, hs.sent, hs.number]
  · exact hs.chained.concat hsends.writable fun d hd => hfirst.trans (hs.follows d hd)
  · intro d hd
    rw [List.getLast?_concat] at hd
    rw [← Option.some.inj hd]
    exact hsends.follows
  · rw [heard_all_concat, @hear_sends s { s with sending } _ _ hsends, hs.accepted]

theorem step_idle (hnone : s.sending.doNotifyTxOpportunity bytes = some (s.sending, none)) :
    s.step (.opportunity bytes) = some s := by
  unfold step
  simp only [hnone, Option.bind_eq_bind, Option.bind_some, Option.toList_none, List.map_nil,
    List.append_nil]
  rfl

/-- An opportunity that is large enough takes something from the buffer. -/
theorem Invariant.opportunity_sends (hs : Invariant cs s) (hne : s.sending.txBuffer ≠ [])
    (hbytes : 2 < bytes) (hmax : bytes ≤ 100000) :
    ∃ s' c, s.step (.opportunity bytes) = some s' ∧ Invariant (cs ++ [c]) s' ∧
      SendsOn bytes s s' := by
  obtain ⟨c, sending, hsend, hsends⟩ := doNotifyTxOpportunity_sends hs.sound hne hbytes hmax
  refine ⟨_, c, ?_, hs.sends hsends, ⟨hsends.size_lt, ⟨_, rfl, hsends.fits⟩, rfl,
    hsends.maxTxBufferSize, rfl, rfl⟩⟩
  unfold step
  simp only [hsend, Option.bind_eq_bind, Option.bind_some, Option.toList_some, List.map_cons,
    List.map_nil]
  rfl

theorem Invariant.opportunity (hs : Invariant cs s) (hmax : bytes ≤ 100000) :
    ∃ s' cs', s.step (.opportunity bytes) = some s' ∧ Invariant cs' s' ∧
      (s' = s ∨ SendsOn bytes s s') := by
  by_cases hsmall : bytes ≤ 2
  · exact ⟨s, cs, step_idle (by rw [doNotifyTxOpportunity, if_pos hsmall]), hs, Or.inl rfl⟩
  by_cases hempty : s.sending.txBuffer = []
  · exact ⟨s, cs, step_idle (by rw [doNotifyTxOpportunity, if_neg hsmall, hempty]), hs,
      Or.inl rfl⟩
  obtain ⟨s', c, hstep, hs', hsends⟩ :=
    hs.opportunity_sends hempty (Nat.lt_of_not_le hsmall) hmax
  exact ⟨s', _, hstep, hs', Or.inr hsends⟩

/-! ### The receiving side -/

/-- The PDU at this place has come to the receiving side. -/
structure ArrivesOn (i : ℕ) (s s' : RlcUmLink) : Prop where
  order : i < s.sent.length → s'.order = s.order.arrive 1024 i
  sending : s'.sending = s.sending
  accepted : s'.accepted = s.accepted

theorem Invariant.arrive (hs : Invariant cs s)
    (hwindow : i < s.sent.length → s.order.InWindow 512 i) :
    ∃ s', s.step (.arrive i) = some s' ∧ Invariant cs s' ∧ ArrivesOn i s s' := by
  unfold step
  dsimp only
  cases hp : s.sent[i]? with
  | none => exact ⟨s, rfl, hs, fun hlt => absurd hlt (by simpa using hp), rfl, rfl⟩
  | some p =>
      have hin := hwindow (List.getElem?_eq_some_iff.1 hp).1
      have hcarrier := hp
      rw [hs.sent, List.getElem?_mapIdx] at hcarrier
      obtain ⟨c, hc, rfl⟩ := Option.map_eq_some_iff.1 hcarrier
      obtain ⟨receiving, hreceive, htracks⟩ :=
        doReceivePdu_tracks hs.tracks hs.chained hc hin
      refine ⟨{ s with
        receiving
        order := s.order.arrive 1024 i
        arrived := i :: s.arrived }, ?_, ?_, fun _ => rfl, rfl, rfl⟩
      · dsimp only
        rw [hreceive]
        rfl
      refine ⟨hs.sound, hs.number, hs.sent, hs.chained, hs.follows, hs.accepted, htracks, ?_, ?_⟩
      · intro n hn
        rcases Resequencer.mem_known_arrive hn with rfl | hold
        · exact List.mem_cons_self
        · exact List.mem_cons_of_mem _ (hs.known n hold)
      · have hhigh := hs.tracks.sound.high_arrive 1024 i
        intro n hn
        rcases List.mem_cons.1 hn with rfl | hold
        · exact hhigh.2
        · exact Nat.lt_of_lt_of_le (hs.reached n hold) hhigh.1

theorem Invariant.reorderingTimer (hs : Invariant cs s) :
    ∃ s', s.step .reorderingTimer = some s' ∧ Invariant cs s' := by
  unfold step
  by_cases hrunning : s.receiving.reorderingTimer = true
  · have hwaiting : s.order.waiting = true := by rw [← hs.tracks.reorderingTimer, hrunning]
    obtain ⟨receiving, hexpire, htracks⟩ :=
      expireReorderingTimer_tracks hs.tracks hs.chained hwaiting
    refine ⟨_, by dsimp only; rw [if_pos hrunning, hexpire]; rfl, ?_⟩
    refine ⟨hs.sound, hs.number, hs.sent, hs.chained, hs.follows, hs.accepted, htracks,
      fun n hn => hs.known n (Resequencer.mem_known_expire hn), ?_⟩
    simpa using hs.reached
  · exact ⟨s, if_neg hrunning, hs⟩

/-- Every step that can happen is taken, and keeps the invariant. -/
theorem Invariant.step (hs : Invariant cs s) {event : Event} (hallowed : s.Allowed event) :
    ∃ s' cs', s.step event = some s' ∧ Invariant cs' s' := by
  cases event with
  | sdu p =>
      obtain ⟨s', hs', h⟩ := hs.sdu hallowed
      exact ⟨s', cs, hs', h⟩
  | opportunity bytes =>
      obtain ⟨s', cs', hs', h, -⟩ := hs.opportunity hallowed
      exact ⟨s', cs', hs', h⟩
  | rbsTimer =>
      refine ⟨_, cs, rfl, ⟨hs.sound.expireRbsTimer, ?_, hs.sent, hs.chained, ?_, ?_, hs.tracks,
        hs.known, hs.reached⟩⟩
      · simpa using hs.number
      · simpa using hs.follows
      · simpa using hs.accepted
  | arrive i =>
      obtain ⟨s', hs', h, -⟩ := hs.arrive hallowed
      exact ⟨s', cs, hs', h⟩
  | reorderingTimer =>
      obtain ⟨s', hs', h⟩ := hs.reorderingTimer
      exact ⟨s', cs, hs', h⟩

theorem invariant_start (maxTxBufferSize : UInt32) (sendBsrWhenPacketTx : Bool) :
    Invariant [] (start maxTxBufferSize sendBsrWhenPacketTx) :=
  ⟨⟨⟨nofun, nofun, nofun⟩, rfl, rfl⟩, rfl, rfl, ⟨nofun, nofun⟩, nofun, rfl, tracks_start, nofun,
    nofun⟩

/-! ## Runs -/

section
variable {maxTxBufferSize : UInt32} {sendBsrWhenPacketTx : Bool} {events : List Event}

theorem run_invariant (hruns : Runs (some (start maxTxBufferSize sendBsrWhenPacketTx)) events) :
    ∃ s cs, run next (some (start maxTxBufferSize sendBsrWhenPacketTx)) events = some s ∧
      Invariant cs s := by
  refine hruns.invariant (I := fun s => ∃ s' cs, s = some s' ∧ Invariant cs s') ?_
    ⟨_, [], rfl, invariant_start _ _⟩
  rintro s event ⟨s', cs, rfl, hs⟩ hallowed
  obtain ⟨s'', cs', hstep, hs'⟩ := hs.step (hallowed s' rfl)
  exact ⟨s'', cs', hstep, hs'⟩

/-- What was sent, and what came of it. -/
structure Delivers (cs : List (Carrier (List UInt8))) (s : RlcUmLink) : Prop where
  sent : s.sent = cs.mapIdx fun n c => pdu (SequenceNumber10.number n) c
  /-- The SDUs that were sent are the first ones of those that were accepted. -/
  accepted : (messages cs).map Prod.fst <+: s.accepted
  /-- Those are received of which no PDU was given up. -/
  received : s.receiving.received = ((messages cs).filter fun message =>
    message.2.all fun n => decide (n ∈ s.order.passed)).map Prod.fst
  inOrder : s.receiving.received.Sublist s.accepted
  sorted : s.order.passed.Pairwise (· < ·)
  arrived : ∀ n ∈ s.order.passed, n ∈ s.arrived

theorem Invariant.prefix_accepted (hs : Invariant cs s) :
    (heard (fun _ => true) cs).done <+: s.accepted := by
  have hdone : (hear (· ++ ·) (heard (fun _ => true) cs)
      (some (carrier s.sending.txBuffer))).done = s.accepted := congrArg Assembly.done hs.accepted
  rw [← hdone]
  exact List.prefix_append _ _

theorem Invariant.delivers (hs : Invariant cs s) : Delivers cs s := by
  have hreceives := hs.tracks.carries.receives
  have haccepted := hs.prefix_accepted
  rw [heard_all_done] at haccepted
  have hreceived : s.receiving.received = ((messages cs).filter fun message =>
      message.2.all fun n => decide (n ∈ s.order.passed)).map Prod.fst := by
    have hfst := items_fst hreceives.lt
    have hdone := accepted_done (getElem?_of_items cs s.order.passed)
      (by rw [hfst]; exact hreceives.sorted)
    rw [hfst, ← hreceives.view] at hdone
    exact hdone
  refine ⟨hs.sent, haccepted, hreceived, ?_, hreceives.sorted, fun n hn => ?_⟩
  · rw [hreceived]
    exact ((List.filter_sublist).map _).trans haccepted.sublist
  · exact hs.known n (List.mem_append_left _ hn)

/-- Whatever is lost, delivered twice or overtaken: the run goes on, and what is received was
accepted and is in order. -/
theorem run_received (maxTxBufferSize : UInt32) (sendBsrWhenPacketTx : Bool)
    (hruns : Runs (some (start maxTxBufferSize sendBsrWhenPacketTx)) events) :
    ∃ s cs, run next (some (start maxTxBufferSize sendBsrWhenPacketTx)) events = some s ∧
      Delivers cs s := by
  obtain ⟨s, cs, hrun, hs⟩ := run_invariant hruns
  exact ⟨s, cs, hrun, hs.delivers⟩

/-- Two SDUs in two PDUs, of which neither arrives in time, and a third one. -/
def givenUp : List Event :=
  [.sdu [1, 2, 3], .sdu [4, 5], .opportunity 4, .opportunity 10, .sdu [6], .opportunity 5,
    .arrive 2, .reorderingTimer, .arrive 1]

theorem run_received_givenUp :
    ∃ s cs, run next (some (start 10240 false)) givenUp = some s ∧ Delivers cs s :=
  run_received 10240 false (by decide +kernel)

/-! ### Without giving up -/

/-- Everything before what is waited for has been handed on. -/
theorem Invariant.received_take (hs : Invariant cs s)
    (hpassed : s.order.passed = List.range s.order.next) :
    s.receiving.received = (heard (fun _ => true) (cs.take s.order.next)).done := by
  have hreceives := hs.tracks.carries.receives
  have haccepted := hreceives.accepted
  have hexpected : (run accept {} (items cs s.order.passed)).expected = s.order.next := by
    have hlow : s.order.next - 1 < s.order.next →
        s.order.next - 1 < (run accept {} (items cs s.order.passed)).expected := fun hlt =>
      haccepted.lt_expected _ (by rw [hpassed]; exact List.mem_range.2 hlt)
    have hlast := haccepted.expected
    generalize (run accept {} (items cs s.order.passed)).expected = expected at hlow hlast ⊢
    rw [hpassed, List.mem_range] at hlast
    omega
  have hview := congrArg Assembly.done (hreceives.view.trans haccepted.assembly)
  rw [hexpected] at hview
  refine hview.trans (congrArg Assembly.done (heard_congr fun n hn => ?_))
  rw [List.length_take] at hn
  rw [hpassed]
  simp only [List.mem_range, decide_eq_true_eq]
  omega

theorem Invariant.high_le (hs : Invariant cs s) : s.order.high ≤ cs.length := by
  have hsound := hs.tracks.sound
  rcases Nat.eq_or_lt_of_le hsound.next_le with heq | hlt
  · rcases hsound.last with hzero | hlast
    · omega
    · have := hs.tracks.carries.receives.lt _ hlast
      omega
  · have := hs.tracks.carries.lt _ (hsound.high_held hlt)
    omega

/-- Nothing is given up but when the timer expires. -/
theorem step_passed (hsound : s.order.Sound 512) {event : Event} (hallowed : s.Allowed event)
    (hevent : event ≠ .reorderingTimer) (hstep : s.step event = some s')
    (hpassed : s.order.passed = List.range s.order.next) :
    s'.order.passed = List.range s'.order.next := by
  cases event with
  | sdu p =>
      obtain rfl := Option.some.inj hstep
      exact hpassed
  | opportunity bytes =>
      obtain ⟨sending, p, rfl⟩ := step_opportunity_cases hstep
      exact hpassed
  | rbsTimer =>
      obtain rfl := Option.some.inj hstep
      exact hpassed
  | arrive i =>
      obtain rfl | ⟨hlt, receiving, rfl⟩ := step_arrive_cases hstep
      · exact hpassed
      · exact hsound.passed_arrive (hallowed hlt) hpassed 1024
  | reorderingTimer => exact (hevent rfl).elim

theorem run_invariant_of_not_mem
    (hruns : Runs (some (start maxTxBufferSize sendBsrWhenPacketTx)) events)
    (htimer : .reorderingTimer ∉ events) :
    ∃ s cs, run next (some (start maxTxBufferSize sendBsrWhenPacketTx)) events = some s ∧
      Invariant cs s ∧ s.order.passed = List.range s.order.next := by
  have hall : AllSteps next (fun s event => (∀ s' ∈ s, Allowed s' event) ∧
      event ≠ .reorderingTimer) (some (start maxTxBufferSize sendBsrWhenPacketTx)) events :=
    allSteps_and.2 ⟨hruns, AllSteps.of_forall fun event hmem _ heq => htimer (heq ▸ hmem)⟩
  refine hall.invariant (I := fun s => ∃ s' cs, s = some s' ∧ Invariant cs s' ∧
    s'.order.passed = List.range s'.order.next) ?_ ⟨_, [], rfl, invariant_start _ _, rfl⟩
  rintro s event ⟨s', cs, rfl, hs, hpassed⟩ ⟨hallowed, hevent⟩
  obtain ⟨s'', cs', hstep, hs'⟩ := hs.step (hallowed s' rfl)
  exact ⟨s'', cs', hstep, hs',
    step_passed hs.tracks.sound (hallowed s' rfl) hevent hstep hpassed⟩

/-- What is received are the first ones of the SDUs that were accepted, and in the end all of
them. -/
structure Completes (s : RlcUmLink) : Prop where
  inOrder : s.receiving.received <+: s.accepted
  complete : s.sending.txBuffer = [] → s.receiving.reorderingTimer = false →
    (s.sent ≠ [] → s.sent.length - 1 ∈ s.arrived) → s.receiving.received = s.accepted

theorem Invariant.received_all (hs : Invariant cs s)
    (hpassed : s.order.passed = List.range s.order.next) (hbuffer : s.sending.txBuffer = [])
    (hall : cs.length ≤ s.order.next) : s.receiving.received = s.accepted := by
  have haccepted := hs.accepted
  rw [hbuffer, hear_carrier_nil] at haccepted
  rw [hs.received_take hpassed, List.take_of_length_le hall]
  exact congrArg Assembly.done haccepted

theorem Invariant.length_sent (hs : Invariant cs s) : s.sent.length = cs.length := by
  rw [hs.sent, List.length_mapIdx]

theorem Invariant.completes (hs : Invariant cs s)
    (hpassed : s.order.passed = List.range s.order.next) : Completes s := by
  refine ⟨?_, fun hbuffer hidle hlast => hs.received_all hpassed hbuffer ?_⟩
  · rw [hs.received_take hpassed]
    refine List.IsPrefix.trans ?_ hs.prefix_accepted
    conv_rhs => rw [← List.take_append_drop s.order.next cs]
    exact heard_done_prefix _ _ _
  · have hwaiting : ¬ s.order.next < s.order.high := by
      rw [← hs.tracks.sound.waiting, ← hs.tracks.reorderingTimer, hidle]
      exact Bool.false_ne_true
    by_cases hnone : s.sent = []
    · rw [← hs.length_sent, hnone]
      exact Nat.zero_le _
    · have := hs.reached _ (hlast hnone)
      have := hs.length_sent
      omega

/-- As long as the reordering timer does not expire, nothing is missing in what is received. -/
theorem run_received_prefix (maxTxBufferSize : UInt32) (sendBsrWhenPacketTx : Bool)
    (hruns : Runs (some (start maxTxBufferSize sendBsrWhenPacketTx)) events)
    (htimer : .reorderingTimer ∉ events) :
    ∃ s, run next (some (start maxTxBufferSize sendBsrWhenPacketTx)) events = some s ∧
      Completes s := by
  obtain ⟨s, cs, hrun, hs, hpassed⟩ := run_invariant_of_not_mem hruns htimer
  exact ⟨s, hrun, hs.completes hpassed⟩

/-- The second PDU arrives first, and arrives again. -/
def overtaken : List Event :=
  [.sdu [1, 2, 3], .sdu [4, 5], .opportunity 4, .opportunity 4, .rbsTimer, .arrive 1, .arrive 0,
    .arrive 1, .sdu [6]]

theorem run_received_prefix_overtaken :
    ∃ s, run next (some (start 10240 false)) overtaken = some s ∧ Completes s :=
  run_received_prefix 10240 false (by decide +kernel) (by decide)

/-! ### Everything is received -/

/-- As many opportunities as there are octets in the buffer are enough to send all of it. -/
theorem run_opportunities (hs : Invariant cs s) {opportunities : List ℕ}
    (hbytes : ∀ bytes ∈ opportunities, 2 < bytes ∧ bytes ≤ 100000)
    (hsize : size s.sending.txBuffer ≤ opportunities.length) :
    ∃ s' cs', run next (some s) (opportunities.map .opportunity) = some s' ∧ Invariant cs' s' ∧
      s'.sending.txBuffer = [] ∧ s'.accepted = s.accepted ∧ s'.order = s.order := by
  induction opportunities generalizing s cs with
  | nil =>
      refine ⟨s, cs, rfl, hs, ?_, rfl, rfl⟩
      by_contra hne
      obtain ⟨sdu, rest, hbuffer⟩ := List.exists_cons_of_ne_nil hne
      have hpos := List.length_pos_of_ne_nil
        (hs.sound.queued.ne sdu (by rw [hbuffer]; exact List.mem_cons_self))
      rw [hbuffer, size, packets, List.map_cons, List.flatten_cons, List.length_append,
        List.length_nil] at hsize
      omega
  | cons bytes rest ih =>
      obtain ⟨hlarge, hmax⟩ := hbytes bytes List.mem_cons_self
      have hrest : ∀ bytes ∈ rest, 2 < bytes ∧ bytes ≤ 100000 := fun other hother =>
        hbytes other (List.mem_cons_of_mem _ hother)
      rw [List.length_cons] at hsize
      by_cases hempty : s.sending.txBuffer = []
      · have hidle : s.step (.opportunity bytes) = some s := step_idle (by
          rw [doNotifyTxOpportunity, if_neg (Nat.not_le_of_lt hlarge), hempty])
        obtain ⟨s', cs', hrun, h⟩ := ih hs hrest (by
          rw [hempty]
          exact Nat.zero_le _)
        refine ⟨s', cs', ?_, h⟩
        rw [List.map_cons, run_cons, next, Option.bind_some, hidle, hrun]
      · obtain ⟨s₁, c, hstep, hs₁, hsends⟩ := hs.opportunity_sends hempty hlarge hmax
        have hless := hsends.size_lt
        obtain ⟨s', cs', hrun, hs', hbuffer, haccepted, horder⟩ := ih hs₁ hrest (by omega)
        refine ⟨s', cs', ?_, hs', hbuffer, haccepted.trans hsends.accepted,
          horder.trans hsends.order⟩
        rw [List.map_cons, run_cons, next, Option.bind_some, hstep, hrun]

/-- PDUs that arrive one after the other are handed on. -/
theorem run_arrivals (hs : Invariant cs s) {low : ℕ} (count : ℕ) (hnext : low ≤ s.order.next)
    (hhigh : s.order.high ≤ low + 512) (hcount : low + count ≤ cs.length)
    (hpassed : s.order.passed = List.range s.order.next) :
    ∃ s', run next (some s) ((List.range' low count).map .arrive) = some s' ∧ Invariant cs s' ∧
      low + count ≤ s'.order.next ∧ s'.order.passed = List.range s'.order.next ∧
      s'.accepted = s.accepted ∧ s'.sending = s.sending := by
  induction count generalizing s low with
  | zero => exact ⟨s, rfl, hs, hnext, hpassed, rfl, rfl⟩
  | succ count ih =>
      have hwindow : s.order.InWindow 512 low := ⟨hhigh, by omega⟩
      have hlt : low < s.sent.length := by
        rw [hs.length_sent]
        omega
      obtain ⟨s₁, hstep, hs₁, harrives⟩ := hs.arrive fun _ => hwindow
      have horder := harrives.order hlt
      have hnext₁ := hs.tracks.sound.next_arrive hwindow hnext 1024
      have hhigh₁ := s.order.high_arrive_le 1024 low
      have hpassed₁ := hs.tracks.sound.passed_arrive hwindow hpassed 1024
      rw [← horder] at hnext₁ hhigh₁ hpassed₁
      obtain ⟨s', hrun, hs', hlast, hpassed', haccepted, hsending⟩ :=
        ih hs₁ hnext₁ (by omega) (by omega) hpassed₁
      refine ⟨s', ?_, hs', by omega, hpassed', haccepted.trans harrives.accepted,
        hsending.trans harrives.sending⟩
      rw [List.range'_succ, List.map_cons, run_cons, next, Option.bind_some, hstep, hrun]

/-- The arrivals of the PDUs that have not been handed on, in their order. -/
def missing (s : RlcUmLink) : List Event :=
  (List.range' s.order.next (s.sent.length - s.order.next)).map .arrive

/-- Wherever the link is, enough opportunities to send and the arrival of what has not been handed
on are all that it takes for every SDU to be received. -/
theorem run_completes (maxTxBufferSize : UInt32) (sendBsrWhenPacketTx : Bool)
    (hruns : Runs (some (start maxTxBufferSize sendBsrWhenPacketTx)) events)
    (htimer : .reorderingTimer ∉ events) {opportunities : List ℕ}
    (hbytes : ∀ bytes ∈ opportunities, 2 < bytes ∧ bytes ≤ 100000) :
    ∃ s, run next (some (start maxTxBufferSize sendBsrWhenPacketTx)) events = some s ∧
      (size s.sending.txBuffer ≤ opportunities.length →
        ∃ s' s'', run next (some s) (opportunities.map .opportunity) = some s' ∧
          run next (some s') s'.missing = some s'' ∧ s''.receiving.received = s.accepted) := by
  obtain ⟨s, cs, hrun, hs, hpassed⟩ := run_invariant_of_not_mem hruns htimer
  refine ⟨s, hrun, fun hsize => ?_⟩
  obtain ⟨s', cs', hrun', hs', hbuffer, haccepted, horder⟩ := run_opportunities hs hbytes hsize
  have hnext := hs'.tracks.sound.next_le
  have hhigh := hs'.high_le
  have hlength := hs'.length_sent
  obtain ⟨s'', hrun'', hs'', hlast, hpassed'', haccepted', hsending⟩ :=
    run_arrivals hs' (s'.sent.length - s'.order.next) (Nat.le_refl _)
      hs'.tracks.sound.high_le (by omega) (by rw [horder, hpassed])
  refine ⟨s', s'', hrun', hrun'', ?_⟩
  rw [← haccepted, ← haccepted']
  exact hs''.received_all hpassed'' (hsending ▸ hbuffer) (by omega)

theorem run_completes_overtaken :
    ∃ s, run next (some (start 10240 false)) overtaken = some s ∧
      (size s.sending.txBuffer ≤ [5, 4, 10].length →
        ∃ s' s'', run next (some s) ([5, 4, 10].map .opportunity) = some s' ∧
          run next (some s') s'.missing = some s'' ∧ s''.receiving.received = s.accepted) :=
  run_completes 10240 false (by decide +kernel) (by decide) (by decide)

/-! ### The sizes -/

/-- The size of the buffer with the SDU has 32 bits. -/
def Small (maxTxBufferSize : UInt32) : Event → Prop
  | .sdu p => maxTxBufferSize.toNat + p.length < 2 ^ 32
  | _ => True

instance (maxTxBufferSize : UInt32) : (event : Event) → Decidable (Small maxTxBufferSize event)
  | .sdu _ => inferInstanceAs (Decidable (_ < _))
  | .opportunity _ | .rbsTimer | .arrive _ | .reorderingTimer =>
      inferInstanceAs (Decidable True)

/-- The buffer does not grow beyond its maximum, and no PDU is larger than its opportunity. -/
structure Fits (maxTxBufferSize : UInt32) (s : RlcUmLink) : Prop where
  maximum : s.sending.maxTxBufferSize = maxTxBufferSize
  bound : size s.sending.txBuffer ≤ maxTxBufferSize.toNat
  sent : List.Forall₂ (fun p bytes => p.length ≤ bytes) s.sent s.offered

theorem Fits.step (hfits : Fits maxTxBufferSize s) (hs : Invariant cs s) {event : Event}
    (hallowed : s.Allowed event)
    (hsmall : Small maxTxBufferSize event)
    (hstep : s.step event = some s') : Fits maxTxBufferSize s' := by
  cases event with
  | sdu p =>
      obtain rfl := Option.some.inj hstep
      by_cases haccepts : s.sending.Accepts p
      · obtain ⟨hbuffer, -, -, hmax⟩ := doTransmitPdcpPdu_of_accepts haccepts
        refine ⟨hmax.trans hfits.maximum, ?_, hfits.sent⟩
        have hbound := hfits.bound
        have hp : maxTxBufferSize.toNat + p.length < 2 ^ 32 := hsmall
        -- The sum does not wrap, so the comparison is one of the sizes.
        unfold Accepts at haccepts
        have hsum : (UInt32.ofNat (size s.sending.txBuffer + p.length)).toNat = _ :=
          UInt32.toNat_ofNat_of_lt' (show size s.sending.txBuffer + p.length < 2 ^ 32 by omega)
        rw [hfits.maximum, hs.sound.count, ← UInt32.ofNat_add, UInt32.le_iff_toNat_le, hsum]
          at haccepts
        dsimp only
        rwa [hbuffer, size_append, size_singleton]
      · obtain ⟨hbuffer, -, -, hmax⟩ := doTransmitPdcpPdu_of_not_accepts haccepts
        exact ⟨hmax.trans hfits.maximum, hbuffer ▸ hfits.bound, hfits.sent⟩
  | opportunity bytes =>
      obtain ⟨s'', cs', hstep', -, hsame | hsends⟩ := hs.opportunity hallowed
      · obtain rfl := Option.some.inj (hstep.symm.trans hstep')
        exact hsame ▸ hfits
      · obtain rfl := Option.some.inj (hstep.symm.trans hstep')
        obtain ⟨p, hsent, hp⟩ := hsends.sent
        refine ⟨hsends.maxTxBufferSize.trans hfits.maximum,
          Nat.le_trans (Nat.le_of_lt hsends.size_lt) hfits.bound, ?_⟩
        rw [hsent, hsends.offered]
        exact List.rel_append hfits.sent (List.Forall₂.cons hp List.Forall₂.nil)
  | rbsTimer =>
      obtain rfl := Option.some.inj hstep
      exact ⟨by simpa using hfits.maximum, by simpa using hfits.bound, hfits.sent⟩
  | arrive i =>
      obtain rfl | ⟨-, receiving, rfl⟩ := step_arrive_cases hstep
      · exact hfits
      · exact ⟨hfits.maximum, hfits.bound, hfits.sent⟩
  | reorderingTimer =>
      obtain rfl | ⟨receiving, rfl⟩ := step_reorderingTimer_cases hstep
      · exact hfits
      · exact ⟨hfits.maximum, hfits.bound, hfits.sent⟩

/-- The size that is counted is the size of what is in the buffer, which never has more than its
maximum, and every PDU is sent at an opportunity that is large enough. -/
theorem run_fits (maxTxBufferSize : UInt32) (sendBsrWhenPacketTx : Bool)
    (hruns : Runs (some (start maxTxBufferSize sendBsrWhenPacketTx)) events)
    (hsmall : ∀ event ∈ events, Small maxTxBufferSize event) :
    ∃ s, run next (some (start maxTxBufferSize sendBsrWhenPacketTx)) events = some s ∧
      s.sending.txBufferSize.toNat = size s.sending.txBuffer ∧ Fits maxTxBufferSize s := by
  have hall : AllSteps next (fun s event => (∀ s' ∈ s, Allowed s' event) ∧
      Small maxTxBufferSize event) (some (start maxTxBufferSize sendBsrWhenPacketTx)) events :=
    allSteps_and.2 ⟨hruns, AllSteps.of_forall fun event hmem _ => hsmall event hmem⟩
  obtain ⟨s, cs, hrun, hs, hfits⟩ := hall.invariant (I := fun s => ∃ s' cs, s = some s' ∧
    Invariant cs s' ∧ Fits maxTxBufferSize s') (by
      rintro s event ⟨s', cs, rfl, hs, hfits⟩ ⟨hallowed, hp⟩
      obtain ⟨s'', cs', hstep, hs'⟩ := hs.step (hallowed s' rfl)
      exact ⟨s'', cs', hstep, hs', hfits.step hs (hallowed s' rfl) hp hstep⟩)
    ⟨_, [], rfl, invariant_start _ _, rfl, Nat.zero_le _, List.Forall₂.nil⟩
  have hbound := hfits.bound
  have hmax := maxTxBufferSize.toNat_lt
  refine ⟨s, hrun, ?_, hfits⟩
  rw [hs.sound.count]
  exact UInt32.toNat_ofNat_of_lt' (show size s.sending.txBuffer < 2 ^ 32 by omega)

theorem run_fits_overtaken :
    ∃ s, run next (some (start 10240 false)) overtaken = some s ∧
      s.sending.txBufferSize.toNat = size s.sending.txBuffer ∧ Fits 10240 s :=
  run_fits 10240 false (by decide +kernel) (by decide +kernel)

end

end RlcUmLink

end NtnIab.Lte
