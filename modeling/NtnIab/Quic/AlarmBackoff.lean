import NtnIab.Quic.CongestionOps

/-!
# The back-off of the loss alarm

Alarms that fire without an answer form an epoch, and two counters keep its length. The mark of an
epoch is the highest number that was sent before its first alarm. An acknowledged packet after the
mark shows that something got through since, and ends the epoch. That holds for the packets of the
sent list, of which the mark is one. One counter goes by the largest number of the acknowledgement
instead. This may belong to a packet with nothing but an acknowledgement, which the mark does not
know, or to one that was acknowledged before.

## Strategy

`onAckReceived_counts` says what the acknowledged packets do to the counters, and
`tlpCount_onReceivedAckFrame` and `rtoCount_onReceivedAckFrame` say when an acknowledgement returns
them to zero. The packets of the sent list from before an epoch have numbers up to its mark
(`Marks`), so that the fault is with the largest number alone (`largest_of_stale`).
-/

namespace NtnIab.Quic

open SequenceNumber32

/-! ## Acknowledgements and alarms -/

/-- A packet of the sent list that was newly acknowledged; `acked` says that it left the list. -/
structure AckedItem where
  packetNumber : Nat
  size : UInt32
  acked : Bool := true
  deriving Repr, DecidableEq

/-- The branch that `ReTxTimeout` takes. -/
inductive Alarm
  | handshake
  | earlyRetransmit (lostPackets : List Nat)
  | tailLossProbe
  | timeout
  deriving Repr, DecidableEq

/-- `legacy` is a congestion control of TCP, `noFlush` the setting of the environment. -/
structure BackoffConfig where
  legacy : Bool := false
  noFlush : Bool := false
  kMaxTLPs : UInt32 := 2
  deriving Repr, DecidableEq

namespace CongestionState

variable (c : BackoffConfig)

/-- `OnAckReceived`, without the times. -/
def onAckReceived (newAcks : List AckedItem) (tcb : CongestionState) : CongestionState :=
  newAcks.reverse.foldl
    (fun tcb item => if item.acked then tcb.onPacketAcked item.packetNumber item.size else tcb) tcb

/-- `OnReceivedAckFrame` after the sent list was updated. The windows of a legacy congestion control
are left out. -/
def onReceivedAckFrame (largestAcknowledged : Nat) (ackedPackets : List AckedItem)
    (lostPackets : List Nat) (tcb : CongestionState) : CongestionState :=
  let tcb :=
    if tcb.tlpCount > 0 ∧ ackedPackets ≠ [] ∧ tcb.largestSentBeforeRto < largestAcknowledged then
      { tcb with tlpCount := 0 }
    else tcb
  let tcb := if c.legacy then tcb else tcb.onPacketsLost lostPackets
  if ackedPackets = [] then tcb
  else if c.legacy then
    if tcb.rtoCount > 0 ∧ tcb.largestSentBeforeRto < largestAcknowledged then
      { tcb with rtoCount := 0 }
    else tcb
  else tcb.onAckReceived ackedPackets

/-- The first alarm of an epoch sets its mark. -/
def markEpoch (tcb : CongestionState) : CongestionState :=
  if tcb.tlpCount = 0 ∧ tcb.rtoCount = 0 then
    { tcb with largestSentBeforeRto := tcb.highTxMark }
  else tcb

/-- A flow that makes no progress loses its window, unless its congestion control is a legacy
one. -/
def collapse (condition : Prop) [Decidable condition] (tcb : CongestionState) : CongestionState :=
  if condition ∧ c.legacy = false ∧ c.noFlush = false then tcb.onRetransmissionTimeoutVerified
  else tcb

/-- `ReTxTimeout`. What it sends is sent after the mark was set, and changes nothing that it
reads. `stuck` says that the flow made no progress for three alarms. -/
def reTxTimeout (alarm : Alarm) (stuck : Bool) (tcb : CongestionState) : CongestionState :=
  let tcb :=
    match alarm with
    | .handshake => { tcb with handshakeCount := tcb.handshakeCount + 1 }
    | .earlyRetransmit lostPackets => if c.legacy then tcb else tcb.onPacketsLost lostPackets
    | .tailLossProbe =>
        if tcb.tlpCount < c.kMaxTLPs.toNat then
          { tcb.markEpoch with tlpCount := tcb.tlpCount + 1 }
        else tcb
    | .timeout =>
        let rtoCount := (tcb.rtoCount + 1) % 2 ^ 32
        collapse c (rtoCount ≥ 2) { tcb.markEpoch with rtoCount }
  collapse c (stuck = true) tcb

/-- The alarm is the first of an epoch. -/
def Opens (alarm : Alarm) (tcb : CongestionState) : Prop :=
  (alarm = .tailLossProbe ∧ tcb.tlpCount < c.kMaxTLPs.toNat ∨ alarm = .timeout) ∧
    tcb.tlpCount = 0 ∧ tcb.rtoCount = 0

instance (alarm : Alarm) (tcb : CongestionState) : Decidable (tcb.Opens c alarm) :=
  inferInstanceAs (Decidable (_ ∧ _))

end CongestionState

/-! ## Runs -/

/-- Packets have numbers without a bound. A packet of `SendAck` has an acknowledgement only, and is
not in the sent list. An acknowledgement has its largest number, the newly acknowledged packets of
the sent list, those that are not in it, and the packets that are then lost. -/
inductive BackoffEvent
  | sendDataPacket (packetNumber : Nat)
  | sendAck (packetNumber : Nat)
  | alarm (alarm : Alarm) (stuck : Bool)
  | ack (largestAcknowledged : Nat) (ackedPackets : List AckedItem) (ackOnly lostPackets : List Nat)
  deriving Repr, DecidableEq

/-- The packets that were sent, the last one first, those of them that were in the sent list, those
that were acknowledged, and those that were sent since the first alarm of the epoch. -/
structure BackoffRun where
  tcb : CongestionState
  sent : List Nat := []
  data : List Nat := []
  acknowledged : List Nat := []
  since : Option (List Nat) := none
  deriving Repr, DecidableEq

def AckedItem.seen (item : AckedItem) : AckedItem :=
  { item with packetNumber := RecoveryRun.seen item.packetNumber }

namespace BackoffRun

open RecoveryRun (seen)

variable (c : BackoffConfig)

def step (r : BackoffRun) : BackoffEvent → BackoffRun
  | .sendDataPacket packetNumber =>
      { r with
        tcb := if c.legacy then r.tcb else r.tcb.onPacketSent (seen packetNumber)
        sent := packetNumber :: r.sent
        data := packetNumber :: r.data
        since := r.since.map (packetNumber :: ·) }
  | .sendAck packetNumber =>
      { r with
        sent := packetNumber :: r.sent
        since := r.since.map (packetNumber :: ·) }
  | .alarm alarm stuck =>
      { r with
        tcb := r.tcb.reTxTimeout c alarm stuck
        since := if r.tcb.Opens c alarm then some [] else r.since }
  | .ack largestAcknowledged ackedPackets ackOnly lostPackets =>
      { r with
        tcb := r.tcb.onReceivedAckFrame c (seen largestAcknowledged)
          (ackedPackets.map AckedItem.seen) (lostPackets.map seen)
        acknowledged := ackedPackets.map (·.packetNumber) ++ ackOnly ++ r.acknowledged }

/-- Packet numbers increase. What is acknowledged was sent and was not acknowledged before, and the
largest number is that of an acknowledged packet. -/
def Valid (r : BackoffRun) : BackoffEvent → Prop
  | .sendDataPacket packetNumber => ∀ earlier ∈ r.sent, earlier < packetNumber
  | .sendAck packetNumber => ∀ earlier ∈ r.sent, earlier < packetNumber
  | .alarm _ _ => True
  | .ack largestAcknowledged ackedPackets ackOnly _ =>
      (∀ item ∈ ackedPackets, item.packetNumber ∈ r.data ∧ item.packetNumber ∉ r.acknowledged) ∧
        (∀ n ∈ ackOnly, n ∈ r.sent ∧ n ∉ r.data ∧ n ∉ r.acknowledged) ∧
        largestAcknowledged ∈
          ackedPackets.map (·.packetNumber) ++ ackOnly ++ r.acknowledged

instance (r : BackoffRun) : (event : BackoffEvent) → Decidable (r.Valid event)
  | .sendDataPacket _ => inferInstanceAs (Decidable (∀ earlier ∈ r.sent, _))
  | .sendAck _ => inferInstanceAs (Decidable (∀ earlier ∈ r.sent, _))
  | .alarm .. => inferInstanceAs (Decidable True)
  | .ack .. => inferInstanceAs (Decidable (_ ∧ _ ∧ _))

/-! ## What is claimed -/

/-- An acknowledgement newly acknowledges a packet that was sent since the first alarm. -/
def Fresh (r : BackoffRun) : BackoffEvent → Prop
  | .ack _ ackedPackets ackOnly _ =>
      ∃ since ∈ r.since, ∃ n ∈ since, n ∈ ackedPackets.map (·.packetNumber) ∨ n ∈ ackOnly
  | _ => False

instance (r : BackoffRun) : (event : BackoffEvent) → Decidable (r.Fresh event)
  | .ack .. => inferInstanceAs (Decidable (∃ since ∈ r.since, _))
  | .sendDataPacket _ => inferInstanceAs (Decidable False)
  | .sendAck _ => inferInstanceAs (Decidable False)
  | .alarm .. => inferInstanceAs (Decidable False)

/-- A counter returns to zero only on fresh evidence. -/
structure Keeps (r : BackoffRun) (event : BackoffEvent) : Prop where
  tlpCount : r.tcb.tlpCount ≠ 0 → (step c r event).tcb.tlpCount = 0 → r.Fresh event
  rtoCount : r.tcb.rtoCount ≠ 0 → (step c r event).tcb.rtoCount = 0 → r.Fresh event

/-! ## What it depends on -/

/-- An acknowledgement without fresh evidence, of data that was not acknowledged before, has no
largest number after the mark; and the packets that leave the sent list compare as sent up to the
mark. Timeouts in a row do not fill their counter. -/
def Proper (r : BackoffRun) : BackoffEvent → Prop
  | .ack largestAcknowledged ackedPackets ackOnly lostPackets =>
      r.Fresh (.ack largestAcknowledged ackedPackets ackOnly lostPackets) ∨
        ((r.tcb.tlpCount ≠ 0 ∨ c.legacy ∧ r.tcb.rtoCount ≠ 0) → ackedPackets ≠ [] →
          seen largestAcknowledged ≤ r.tcb.largestSentBeforeRto) ∧
        ((r.tcb.tlpCount ≠ 0 ∨ r.tcb.rtoCount ≠ 0) → c.legacy = false →
          ∀ item ∈ ackedPackets, item.acked → ¬ r.tcb.afterMark (seen item.packetNumber))
  | .alarm .timeout _ => r.tcb.rtoCount % 2 ^ 32 ≠ 2 ^ 32 - 1
  | _ => True

instance (r : BackoffRun) : (event : BackoffEvent) → Decidable (r.Proper c event)
  | .sendDataPacket _ => inferInstanceAs (Decidable True)
  | .sendAck _ => inferInstanceAs (Decidable True)
  | .alarm .handshake _ => inferInstanceAs (Decidable True)
  | .alarm (.earlyRetransmit _) _ => inferInstanceAs (Decidable True)
  | .alarm .tailLossProbe _ => inferInstanceAs (Decidable True)
  | .alarm .timeout _ => inferInstanceAs (Decidable (_ ≠ _))
  | .ack .. => inferInstanceAs (Decidable (_ ∨ _ ∧ _))

end BackoffRun

/-! ## The counters -/

namespace CongestionState

variable (c : BackoffConfig) (tcb : CongestionState)

/-- A packet from after the mark left the sent list. -/
def Answers (newAcks : List AckedItem) (tcb : CongestionState) : Prop :=
  ∃ item ∈ newAcks, item.acked = true ∧ tcb.afterMark item.packetNumber = true

theorem onPacketsLost_counters (lostPackets : List Nat) :
    (tcb.onPacketsLost lostPackets).tlpCount = tcb.tlpCount ∧
      (tcb.onPacketsLost lostPackets).rtoCount = tcb.rtoCount ∧
      (tcb.onPacketsLost lostPackets).largestSentBeforeRto = tcb.largestSentBeforeRto ∧
      (tcb.onPacketsLost lostPackets).highTxMark = tcb.highTxMark := by
  unfold onPacketsLost
  cases lostPackets.getLast? with
  | none => exact ⟨rfl, rfl, rfl, rfl⟩
  | some last =>
      dsimp only
      by_cases hrecovery : tcb.inRecovery last = true
      · rw [if_pos hrecovery]
        exact ⟨rfl, rfl, rfl, rfl⟩
      · rw [if_neg hrecovery]
        exact ⟨rfl, rfl, rfl, rfl⟩

/-- One acknowledged packet sets both counters to zero, or keeps them. -/
theorem onPacketAcked_counters (packetNumber : Nat) (size : UInt32) :
    let after := tcb.onPacketAcked packetNumber size
    after.tlpCount = (if tcb.afterMark packetNumber then 0 else tcb.tlpCount) ∧
      after.rtoCount = (if tcb.afterMark packetNumber then 0 else tcb.rtoCount) ∧
      after.largestSentBeforeRto = tcb.largestSentBeforeRto ∧
      after.highTxMark = tcb.highTxMark := by
  rw [onPacketAcked_eq]
  exact ⟨rfl, rfl, rfl, rfl⟩

/-- The acknowledged packets set the counters to zero if one of them is from after the mark. -/
theorem onAckReceived_counts (newAcks : List AckedItem) :
    let after := tcb.onAckReceived newAcks
    (after.tlpCount = 0 ↔ tcb.tlpCount = 0 ∨ Answers newAcks tcb) ∧
      (after.rtoCount = 0 ↔ tcb.rtoCount = 0 ∨ Answers newAcks tcb) ∧
      after.largestSentBeforeRto = tcb.largestSentBeforeRto ∧
      after.highTxMark = tcb.highTxMark := by
  have hmem : Answers newAcks tcb ↔ Answers newAcks.reverse tcb :=
    exists_congr fun item => and_congr_left fun _ => List.mem_reverse.symm
  unfold onAckReceived
  rw [hmem]
  clear hmem
  generalize newAcks.reverse = items
  induction items generalizing tcb with
  | nil =>
      have hnone : ¬ Answers [] tcb := fun ⟨_, hitem, _⟩ => List.not_mem_nil hitem
      simp [hnone]
  | cons item rest ih =>
      rw [List.foldl_cons]
      have hcons : Answers (item :: rest) tcb ↔
          (item.acked = true ∧ tcb.afterMark item.packetNumber = true) ∨ Answers rest tcb := by
        simp [Answers]
      by_cases hacked : item.acked = true
      · rw [if_pos hacked]
        obtain ⟨htlp, hrto, hmark, hhigh⟩ := tcb.onPacketAcked_counters item.packetNumber item.size
        obtain ⟨ihTlp, ihRto, ihMark, ihHigh⟩ := ih (tcb.onPacketAcked item.packetNumber item.size)
        have hsame : Answers rest (tcb.onPacketAcked item.packetNumber item.size) ↔
            Answers rest tcb := by
          simp only [Answers, afterMark, hmark]
        refine ⟨ihTlp.trans ?_, ihRto.trans ?_, ihMark.trans hmark, ihHigh.trans hhigh⟩
        · rw [htlp, hsame, hcons]
          by_cases hafter : tcb.afterMark item.packetNumber = true <;> simp [hafter, hacked]
        · rw [hrto, hsame, hcons]
          by_cases hafter : tcb.afterMark item.packetNumber = true <;> simp [hafter, hacked]
      · rw [if_neg hacked]
        obtain ⟨ihTlp, ihRto, ihMark⟩ := ih tcb
        rw [hcons, or_iff_right fun h : item.acked = true ∧ _ => hacked h.1]
        exact ⟨ihTlp, ihRto, ihMark⟩

/-- A congestion control of QUIC takes the lost packets and then the acknowledged ones. -/
theorem onPacketsLost_onAckReceived (ackedPackets : List AckedItem) (lostPackets : List Nat) :
    let lost := tcb.onPacketsLost lostPackets
    let after := if ackedPackets = [] then lost else lost.onAckReceived ackedPackets
    (after.tlpCount = 0 ↔ tcb.tlpCount = 0 ∨ Answers ackedPackets tcb) ∧
      (after.rtoCount = 0 ↔ tcb.rtoCount = 0 ∨ Answers ackedPackets tcb) ∧
      after.largestSentBeforeRto = tcb.largestSentBeforeRto ∧
      after.highTxMark = tcb.highTxMark := by
  obtain ⟨hlostTlp, hlostRto, hlostMark, hlostHigh⟩ := tcb.onPacketsLost_counters lostPackets
  dsimp only
  by_cases hnone : ackedPackets = []
  · have hanswers : ¬ Answers ackedPackets tcb := by
      rintro ⟨item, hitem, -⟩
      exact List.not_mem_nil (hnone ▸ hitem)
    rw [if_pos hnone, hlostTlp, hlostRto, or_iff_left hanswers, or_iff_left hanswers]
    exact ⟨Iff.rfl, Iff.rfl, hlostMark, hlostHigh⟩
  · obtain ⟨htlp, hrto, hmark, hhigh⟩ :=
      (tcb.onPacketsLost lostPackets).onAckReceived_counts ackedPackets
    have hsame : Answers ackedPackets (tcb.onPacketsLost lostPackets) ↔
        Answers ackedPackets tcb := by
      simp only [Answers, afterMark, hlostMark]
    rw [if_neg hnone, htlp, hrto, hlostTlp, hlostRto, hsame]
    exact ⟨Iff.rfl, Iff.rfl, hmark.trans hlostMark, hhigh.trans hlostHigh⟩

/-- A counter that is set to zero on a condition. -/
theorem reset_eq_zero_iff {p : Prop} [Decidable p] {count : Nat} :
    (if count > 0 ∧ p then 0 else count) = 0 ↔ count = 0 ∨ p := by
  by_cases hp : p
  · by_cases hpos : count > 0
    · rw [if_pos ⟨hpos, hp⟩]
      exact iff_of_true rfl (Or.inr hp)
    · rw [if_neg fun h => hpos h.1]
      exact iff_of_true (by omega) (Or.inr hp)
  · rw [if_neg fun h => hp h.2]
    exact (or_iff_left hp).symm

/-- What the test of the largest number does to the probes. -/
theorem probe_counters (p : Prop) [Decidable p] :
    let probed := if tcb.tlpCount > 0 ∧ p then { tcb with tlpCount := 0 } else tcb
    (probed.tlpCount = 0 ↔ tcb.tlpCount = 0 ∨ p) ∧ probed.rtoCount = tcb.rtoCount ∧
      probed.largestSentBeforeRto = tcb.largestSentBeforeRto ∧
      probed.highTxMark = tcb.highTxMark := by
  dsimp only
  rw [← reset_eq_zero_iff]
  split_ifs <;> exact ⟨Iff.rfl, rfl, rfl, rfl⟩

/-- The probes are over if there were none, if data is acknowledged and the largest number is after
the mark, or if an acknowledged packet is. -/
theorem tlpCount_onReceivedAckFrame (largestAcknowledged : Nat) (ackedPackets : List AckedItem)
    (lostPackets : List Nat) :
    (tcb.onReceivedAckFrame c largestAcknowledged ackedPackets lostPackets).tlpCount = 0 ↔
      tcb.tlpCount = 0 ∨
        (ackedPackets ≠ [] ∧ tcb.largestSentBeforeRto < largestAcknowledged) ∨
        (c.legacy = false ∧ Answers ackedPackets tcb) := by
  obtain ⟨htlp, -, hmark, -⟩ := tcb.probe_counters
    (ackedPackets ≠ [] ∧ tcb.largestSentBeforeRto < largestAcknowledged)
  unfold onReceivedAckFrame
  dsimp only at htlp hmark ⊢
  rw [← or_assoc, ← htlp]
  revert hmark
  generalize (if tcb.tlpCount > 0 ∧ ackedPackets ≠ [] ∧
    tcb.largestSentBeforeRto < largestAcknowledged then { tcb with tlpCount := 0 }
    else tcb) = probed
  intro hmark
  cases hlegacy : c.legacy with
  | true =>
      simp only [if_true, Bool.true_eq_false, false_and, or_false]
      split_ifs <;> rfl
  | false =>
      simp only [Bool.false_eq_true, if_false, true_and]
      rw [(probed.onPacketsLost_onAckReceived ackedPackets lostPackets).1]
      simp only [Answers, afterMark, hmark]

/-- The timeouts are over if there were none, or if a packet from after the mark is acknowledged:
a legacy congestion control goes by the largest number. -/
theorem rtoCount_onReceivedAckFrame (largestAcknowledged : Nat) (ackedPackets : List AckedItem)
    (lostPackets : List Nat) :
    (tcb.onReceivedAckFrame c largestAcknowledged ackedPackets lostPackets).rtoCount = 0 ↔
      tcb.rtoCount = 0 ∨
        (c.legacy = true ∧ ackedPackets ≠ [] ∧
          tcb.largestSentBeforeRto < largestAcknowledged) ∨
        (c.legacy = false ∧ Answers ackedPackets tcb) := by
  obtain ⟨-, hrto, hmark, -⟩ := tcb.probe_counters
    (ackedPackets ≠ [] ∧ tcb.largestSentBeforeRto < largestAcknowledged)
  unfold onReceivedAckFrame
  dsimp only at hrto hmark ⊢
  revert hrto hmark
  generalize (if tcb.tlpCount > 0 ∧ ackedPackets ≠ [] ∧
    tcb.largestSentBeforeRto < largestAcknowledged then { tcb with tlpCount := 0 }
    else tcb) = probed
  intro hrto hmark
  cases hlegacy : c.legacy with
  | true =>
      simp only [if_true, Bool.true_eq_false, false_and, or_false, true_and]
      by_cases hnone : ackedPackets = []
      · simp [hnone, hrto]
      · rw [if_neg hnone, apply_ite CongestionState.rtoCount, reset_eq_zero_iff, hrto, hmark,
          and_iff_right hnone]
  | false =>
      simp only [Bool.false_eq_true, if_false, true_and, false_and, false_or]
      rw [(probed.onPacketsLost_onAckReceived ackedPackets lostPackets).2.1]
      simp only [Answers, afterMark, hrto, hmark]

theorem onReceivedAckFrame_marks (largestAcknowledged : Nat) (ackedPackets : List AckedItem)
    (lostPackets : List Nat) :
    let after := tcb.onReceivedAckFrame c largestAcknowledged ackedPackets lostPackets
    after.largestSentBeforeRto = tcb.largestSentBeforeRto ∧ after.highTxMark = tcb.highTxMark := by
  obtain ⟨-, -, hmark, hhigh⟩ := tcb.probe_counters
    (ackedPackets ≠ [] ∧ tcb.largestSentBeforeRto < largestAcknowledged)
  unfold onReceivedAckFrame
  dsimp only at hmark hhigh ⊢
  revert hmark hhigh
  generalize (if tcb.tlpCount > 0 ∧ ackedPackets ≠ [] ∧
    tcb.largestSentBeforeRto < largestAcknowledged then { tcb with tlpCount := 0 }
    else tcb) = probed
  intro hmark hhigh
  cases hlegacy : c.legacy with
  | true =>
      simp only [if_true]
      split_ifs <;> exact ⟨hmark, hhigh⟩
  | false =>
      simp only [Bool.false_eq_true, if_false]
      obtain ⟨-, -, hsameMark, hsameHigh⟩ :=
        probed.onPacketsLost_onAckReceived ackedPackets lostPackets
      exact ⟨hsameMark.trans hmark, hsameHigh.trans hhigh⟩

theorem markEpoch_counters :
    tcb.markEpoch.tlpCount = tcb.tlpCount ∧ tcb.markEpoch.rtoCount = tcb.rtoCount ∧
      tcb.markEpoch.highTxMark = tcb.highTxMark ∧
      tcb.markEpoch.largestSentBeforeRto = (if tcb.tlpCount = 0 ∧ tcb.rtoCount = 0
        then tcb.highTxMark else tcb.largestSentBeforeRto) := by
  unfold markEpoch
  split_ifs <;> exact ⟨rfl, rfl, rfl, rfl⟩

theorem collapse_counters (condition : Prop) [Decidable condition] :
    (tcb.collapse c condition).tlpCount = tcb.tlpCount ∧
      (tcb.collapse c condition).rtoCount = tcb.rtoCount ∧
      (tcb.collapse c condition).largestSentBeforeRto = tcb.largestSentBeforeRto ∧
      (tcb.collapse c condition).highTxMark = tcb.highTxMark := by
  unfold collapse
  split_ifs <;> exact ⟨rfl, rfl, rfl, rfl⟩

/-- An alarm counts itself, and the first one of an epoch sets its mark. -/
theorem reTxTimeout_counters (alarm : Alarm) (stuck : Bool) :
    let after := tcb.reTxTimeout c alarm stuck
    after.tlpCount = (if alarm = .tailLossProbe ∧ tcb.tlpCount < c.kMaxTLPs.toNat
        then tcb.tlpCount + 1 else tcb.tlpCount) ∧
      after.rtoCount = (if alarm = .timeout then (tcb.rtoCount + 1) % 2 ^ 32 else tcb.rtoCount) ∧
      after.largestSentBeforeRto = (if tcb.Opens c alarm
        then tcb.highTxMark else tcb.largestSentBeforeRto) ∧
      after.highTxMark = tcb.highTxMark := by
  obtain ⟨hmarkTlp, hmarkRto, hmarkHigh, hmark⟩ := tcb.markEpoch_counters
  unfold reTxTimeout
  dsimp only
  cases alarm with
  | handshake =>
      rw [if_neg (c := tcb.Opens c .handshake) (by rintro ⟨⟨h, -⟩ | h, -⟩ <;> cases h)]
      exact collapse_counters c { tcb with handshakeCount := tcb.handshakeCount + 1 } (stuck = true)
  | earlyRetransmit lostPackets =>
      rw [if_neg (c := tcb.Opens c _) (by rintro ⟨⟨h, -⟩ | h, -⟩ <;> cases h)]
      obtain ⟨hlostTlp, hlostRto, hlostMark, hlostHigh⟩ := tcb.onPacketsLost_counters lostPackets
      obtain ⟨retransmitted, hretransmitted⟩ : ∃ retransmitted,
          (if c.legacy then tcb else tcb.onPacketsLost lostPackets) = retransmitted := ⟨_, rfl⟩
      have hsame : retransmitted.tlpCount = tcb.tlpCount ∧
          retransmitted.rtoCount = tcb.rtoCount ∧
          retransmitted.largestSentBeforeRto = tcb.largestSentBeforeRto ∧
          retransmitted.highTxMark = tcb.highTxMark := by
        rw [← hretransmitted]
        split_ifs
        · exact ⟨rfl, rfl, rfl, rfl⟩
        · exact ⟨hlostTlp, hlostRto, hlostMark, hlostHigh⟩
      dsimp only
      rw [hretransmitted]
      obtain ⟨htlp, hrto, hepoch, hhigh⟩ := collapse_counters c retransmitted (stuck = true)
      exact ⟨htlp.trans hsame.1, hrto.trans hsame.2.1, hepoch.trans hsame.2.2.1,
        hhigh.trans hsame.2.2.2⟩
  | tailLossProbe =>
      dsimp only
      by_cases hfew : tcb.tlpCount < c.kMaxTLPs.toNat
      · have hopens : tcb.Opens c .tailLossProbe ↔ tcb.tlpCount = 0 ∧ tcb.rtoCount = 0 :=
          and_iff_right (Or.inl ⟨rfl, hfew⟩)
        rw [if_pos hfew, if_congr hopens rfl rfl, ← hmark]
        obtain ⟨htlp, hrto, hepoch, hhigh⟩ := collapse_counters c
          { tcb.markEpoch with tlpCount := tcb.tlpCount + 1 } (stuck = true)
        exact ⟨htlp.trans (if_pos ⟨rfl, hfew⟩).symm, hrto.trans hmarkRto, hepoch,
          hhigh.trans hmarkHigh⟩
      · have hopens : ¬ tcb.Opens c .tailLossProbe := by
          rintro ⟨⟨-, h⟩ | h, -⟩
          · exact hfew h
          · cases h
        rw [if_neg hfew, if_neg fun h => hfew h.2, if_neg hopens]
        exact collapse_counters c tcb (stuck = true)
  | timeout =>
      dsimp only
      have hopens : tcb.Opens c .timeout ↔ tcb.tlpCount = 0 ∧ tcb.rtoCount = 0 :=
        and_iff_right (Or.inr rfl)
      obtain ⟨rtoCount, hcount⟩ : ∃ n, (tcb.rtoCount + 1) % 2 ^ 32 = n := ⟨_, rfl⟩
      rw [hcount, if_congr hopens rfl rfl, ← hmark]
      obtain ⟨htlp, hrto, hepoch, hhigh⟩ := collapse_counters c
        { tcb.markEpoch with rtoCount } (rtoCount ≥ 2)
      obtain ⟨htlp', hrto', hepoch', hhigh'⟩ := collapse_counters c
        (collapse c (rtoCount ≥ 2) { tcb.markEpoch with rtoCount }) (stuck = true)
      exact ⟨htlp'.trans (htlp.trans hmarkTlp), hrto'.trans hrto, hepoch'.trans hepoch,
        hhigh'.trans (hhigh.trans hmarkHigh)⟩

end CongestionState

/-! ## Every step of a run -/

namespace BackoffRun

open RecoveryRun (seen)

variable {c : BackoffConfig} {r : BackoffRun}

theorem answers_seen (ackedPackets : List AckedItem) :
    CongestionState.Answers (ackedPackets.map AckedItem.seen) r.tcb ↔
      ∃ item ∈ ackedPackets, item.acked = true ∧
        r.tcb.afterMark (seen item.packetNumber) = true := by
  unfold CongestionState.Answers
  simp [AckedItem.seen]

/-- An acknowledgement without fresh evidence keeps the counters exactly if it is proper. -/
theorem keeps_ack_iff (largestAcknowledged : Nat) (ackedPackets : List AckedItem)
    (ackOnly lostPackets : List Nat) :
    r.Keeps c (.ack largestAcknowledged ackedPackets ackOnly lostPackets) ↔
      r.Proper c (.ack largestAcknowledged ackedPackets ackOnly lostPackets) := by
  have htlp := r.tcb.tlpCount_onReceivedAckFrame c (seen largestAcknowledged)
    (ackedPackets.map AckedItem.seen) (lostPackets.map seen)
  have hrto := r.tcb.rtoCount_onReceivedAckFrame c (seen largestAcknowledged)
    (ackedPackets.map AckedItem.seen) (lostPackets.map seen)
  have hne : ackedPackets.map AckedItem.seen ≠ [] ↔ ackedPackets ≠ [] :=
    not_congr List.map_eq_nil_iff
  rw [hne, answers_seen] at htlp hrto
  unfold Proper
  dsimp only
  by_cases hfresh : r.Fresh (.ack largestAcknowledged ackedPackets ackOnly lostPackets)
  · exact iff_of_true ⟨fun _ _ => hfresh, fun _ _ => hfresh⟩ (Or.inl hfresh)
  · constructor
    · intro hkeeps
      have hkeepsTlp := fun h h' => hfresh (hkeeps.tlpCount h (htlp.2 h'))
      have hkeepsRto := fun h h' => hfresh (hkeeps.rtoCount h (hrto.2 h'))
      refine Or.inr ⟨fun hcounted hacked => Nat.not_lt.1 fun hlarge => ?_,
        fun hcounted hlegacy item hitem hflag hafter => ?_⟩
      · rcases hcounted with hprobed | ⟨hlegacy, hwaited⟩
        · exact hkeepsTlp hprobed (Or.inr (Or.inl ⟨hacked, hlarge⟩))
        · exact hkeepsRto hwaited (Or.inr (Or.inl ⟨hlegacy, hacked, hlarge⟩))
      · rcases hcounted with hprobed | hwaited
        · exact hkeepsTlp hprobed (Or.inr (Or.inr ⟨hlegacy, item, hitem, hflag, hafter⟩))
        · exact hkeepsRto hwaited (Or.inr (Or.inr ⟨hlegacy, item, hitem, hflag, hafter⟩))
    · intro hproper
      obtain ⟨hlargest, hitems⟩ := hproper.resolve_left hfresh
      refine ⟨fun hprobed hzero => ?_, fun hwaited hzero => ?_⟩
      · rcases htlp.1 hzero with hnone | ⟨hacked, hlarge⟩ | ⟨hlegacy, item, hitem, hflag, hafter⟩
        · exact absurd hnone hprobed
        · exact absurd hlarge (Nat.not_lt.2 (hlargest (Or.inl hprobed) hacked))
        · exact absurd hafter (hitems (Or.inl hprobed) hlegacy item hitem hflag)
      · rcases hrto.1 hzero with
          hnone | ⟨hlegacy, hacked, hlarge⟩ | ⟨hlegacy, item, hitem, hflag, hafter⟩
        · exact absurd hnone hwaited
        · exact absurd hlarge (Nat.not_lt.2 (hlargest (Or.inr ⟨hlegacy, hwaited⟩) hacked))
        · exact absurd hafter (hitems (Or.inr hwaited) hlegacy item hitem hflag)

/-- An alarm returns no counter to zero, unless the timeouts fill theirs. -/
theorem keeps_alarm_iff (alarm : Alarm) (stuck : Bool) :
    r.Keeps c (.alarm alarm stuck) ↔ r.Proper c (.alarm alarm stuck) := by
  obtain ⟨htlp, hrto, -⟩ := r.tcb.reTxTimeout_counters c alarm stuck
  have hprobed : r.tcb.tlpCount ≠ 0 → (r.step c (.alarm alarm stuck)).tcb.tlpCount ≠ 0 := by
    intro hne
    have hafter : (r.step c (.alarm alarm stuck)).tcb.tlpCount = _ := htlp
    rw [hafter]
    split_ifs
    · exact Nat.succ_ne_zero _
    · exact hne
  by_cases htimeout : alarm = .timeout
  · subst htimeout
    have hafter : (r.step c (.alarm .timeout stuck)).tcb.rtoCount = _ := hrto
    rw [if_pos rfl] at hafter
    show _ ↔ r.tcb.rtoCount % 2 ^ 32 ≠ 2 ^ 32 - 1
    constructor
    · intro hkeeps hlast
      refine hkeeps.rtoCount (by omega) ?_
      rw [hafter]
      omega
    · intro hroom
      refine ⟨fun hne hzero => absurd hzero (hprobed hne), fun _ hzero => ?_⟩
      rw [hafter] at hzero
      omega
  · have hafter : (r.step c (.alarm alarm stuck)).tcb.rtoCount = _ := hrto
    rw [if_neg htimeout] at hafter
    refine iff_of_true ⟨fun hne hzero => absurd hzero (hprobed hne),
      fun hne hzero => absurd (hafter.symm.trans hzero) hne⟩ ?_
    cases alarm <;> trivial

/-- A step keeps the counters without fresh evidence exactly if it is proper. -/
theorem keeps_iff (event : BackoffEvent) :
    r.Keeps c event ↔ r.Proper c event := by
  cases event with
  | sendDataPacket packetNumber =>
      -- what was sent leaves the counters alone
      refine iff_of_true ⟨fun hne hzero => absurd ?_ hne, fun hne hzero => absurd ?_ hne⟩ trivial
      · refine Eq.trans ?_ hzero
        show _ = (if c.legacy then r.tcb else r.tcb.onPacketSent (seen packetNumber)).tlpCount
        split_ifs <;> rfl
      · refine Eq.trans ?_ hzero
        show _ = (if c.legacy then r.tcb else r.tcb.onPacketSent (seen packetNumber)).rtoCount
        split_ifs <;> rfl
  | sendAck packetNumber =>
      exact iff_of_true ⟨fun hne hzero => absurd hzero hne, fun hne hzero => absurd hzero hne⟩
        trivial
  | alarm alarm stuck => exact keeps_alarm_iff alarm stuck
  | ack largestAcknowledged ackedPackets ackOnly lostPackets =>
      exact keeps_ack_iff largestAcknowledged ackedPackets ackOnly lostPackets

/-- In every run the counters return to zero on fresh evidence only, exactly if every step is
proper. -/
theorem run_resets_iff (c : BackoffConfig) (tcb : CongestionState) (events : List BackoffEvent) :
    Run.AllSteps (step c) (Keeps c) { tcb } events ↔
      Run.AllSteps (step c) (Proper c) { tcb } events :=
  Run.allSteps_congr (I := fun _ => True) (fun _ _ _ _ => trivial)
    (fun _ event _ => keeps_iff event) trivial

/-! ## The number streams -/

/-- The packets that were sent have descending numbers, and the code knows the last one of the sent
list. Those of the sent list from before the epoch have numbers up to its mark. -/
structure Marks (r : BackoffRun) : Prop where
  descending : r.sent.Pairwise (· > ·)
  data : r.data.Sublist r.sent
  highTxMark : ∀ last ∈ r.data.head?, r.tcb.highTxMark = seen last
  epoch : r.since = none → r.tcb.tlpCount = 0 ∧ r.tcb.rtoCount = 0
  since : ∀ since ∈ r.since, ∀ n ∈ r.data, n ∉ since →
    ∃ mark ∈ r.data, r.tcb.largestSentBeforeRto = seen mark ∧ n ≤ mark

theorem marks_start (tcb : CongestionState) (htlp : tcb.tlpCount = 0) (hrto : tcb.rtoCount = 0) :
    Marks { tcb } where
  descending := List.Pairwise.nil
  data := List.Sublist.refl _
  highTxMark := fun _ h => (Option.not_mem_none _ h).elim
  epoch := fun _ => ⟨htlp, hrto⟩
  since := fun _ h => (Option.not_mem_none _ h).elim

/-- Without an alarm of an epoch that began, nothing is counted. -/
theorem Marks.counters_alarm (hr : Marks r) {alarm : Alarm} {stuck : Bool}
    (hnone : r.since = none) (hopens : ¬ r.tcb.Opens c alarm) :
    (r.tcb.reTxTimeout c alarm stuck).tlpCount = 0 ∧
      (r.tcb.reTxTimeout c alarm stuck).rtoCount = 0 := by
  obtain ⟨htlp, hrto, -⟩ := r.tcb.reTxTimeout_counters c alarm stuck
  obtain ⟨hprobed, hwaited⟩ := hr.epoch hnone
  rw [htlp, hrto, if_neg fun h => hopens ⟨Or.inl h, hprobed, hwaited⟩,
    if_neg fun h => hopens ⟨Or.inr h, hprobed, hwaited⟩]
  exact ⟨hprobed, hwaited⟩

theorem Marks.step (hnative : c.legacy = false) (hr : Marks r) {event : BackoffEvent}
    (hvalid : r.Valid event) : Marks (r.step c event) := by
  cases event with
  | sendDataPacket packetNumber =>
      have htcb : (r.step c (.sendDataPacket packetNumber)).tcb =
          r.tcb.onPacketSent (seen packetNumber) :=
        if_neg (hnative ▸ Bool.false_ne_true)
      refine ⟨List.pairwise_cons.2 ⟨hvalid, hr.descending⟩, hr.data.cons_cons _,
        fun last hlast => ?_, fun hnone => ?_, fun since hsince n hn hnot => ?_⟩
      · obtain rfl := Option.some.inj hlast
        exact congrArg (·.highTxMark) htcb
      · obtain ⟨htlp, hrto⟩ := hr.epoch (Option.map_eq_none_iff.1 hnone)
        rw [htcb]
        exact ⟨htlp, hrto⟩
      · obtain ⟨before, hbefore, rfl⟩ := Option.map_eq_some_iff.1 hsince
        obtain ⟨hne, hnot⟩ := not_or.1 fun h => hnot (List.mem_cons.2 h)
        have hearlier := (List.mem_cons.1 hn).resolve_left hne
        obtain ⟨mark, hmem, hmark, hle⟩ := hr.since before hbefore n hearlier hnot
        exact ⟨mark, List.mem_cons_of_mem _ hmem,
          (congrArg (·.largestSentBeforeRto) htcb).trans hmark, hle⟩
  | sendAck packetNumber =>
      refine ⟨List.pairwise_cons.2 ⟨hvalid, hr.descending⟩, hr.data.cons _, hr.highTxMark,
        fun hnone => hr.epoch (Option.map_eq_none_iff.1 hnone), fun since hsince n hn hnot => ?_⟩
      obtain ⟨before, hbefore, rfl⟩ := Option.map_eq_some_iff.1 hsince
      exact hr.since before hbefore n hn fun h => hnot (List.mem_cons_of_mem _ h)
  | alarm alarm stuck =>
      obtain ⟨-, -, hmark, hhigh⟩ := r.tcb.reTxTimeout_counters c alarm stuck
      by_cases hopens : r.tcb.Opens c alarm
      · rw [if_pos hopens] at hmark
        refine ⟨hr.descending, hr.data, fun last hlast => hhigh.trans (hr.highTxMark last hlast),
          fun hnone => ?_, fun since hsince n hn hnot => ?_⟩
        · have hsome : (if r.tcb.Opens c alarm then some [] else r.since) = none := hnone
          rw [if_pos hopens] at hsome
          exact absurd hsome (Option.some_ne_none _)
        · -- the last packet of the sent list is the mark, and no earlier one is after it
          have hn : n ∈ r.data := hn
          obtain ⟨last, earlier, hdata⟩ := List.exists_cons_of_ne_nil (List.ne_nil_of_mem hn)
          have hlast : last ∈ r.data.head? := by
            rw [hdata]
            rfl
          refine ⟨last, List.mem_of_mem_head? hlast,
            hmark.trans (hr.highTxMark last hlast), ?_⟩
          have hdescending := hr.descending.sublist hr.data
          rw [hdata] at hn hdescending
          rcases List.mem_cons.1 hn with rfl | hn
          · exact Nat.le_refl _
          · exact Nat.le_of_lt ((List.pairwise_cons.1 hdescending).1 n hn)
      · rw [if_neg hopens] at hmark
        have hsince : (r.step c (.alarm alarm stuck)).since = r.since := if_neg hopens
        refine ⟨hr.descending, hr.data, fun last hlast => hhigh.trans (hr.highTxMark last hlast),
          fun hnone => hr.counters_alarm (hsince.symm.trans hnone) hopens,
          fun since hmem n hn hnot => ?_⟩
        rw [hsince] at hmem
        obtain ⟨mark, hmem, hseen, hle⟩ := hr.since since hmem n hn hnot
        exact ⟨mark, hmem, hmark.trans hseen, hle⟩
  | ack largestAcknowledged ackedPackets ackOnly lostPackets =>
      obtain ⟨hmark, hhigh⟩ := r.tcb.onReceivedAckFrame_marks c (seen largestAcknowledged)
        (ackedPackets.map AckedItem.seen) (lostPackets.map seen)
      refine ⟨hr.descending, hr.data, fun last hlast => hhigh.trans (hr.highTxMark last hlast),
        fun hnone => ?_, fun since hsince n hn hnot => ?_⟩
      · obtain ⟨htlp, hrto⟩ := hr.epoch hnone
        exact ⟨(r.tcb.tlpCount_onReceivedAckFrame c _ _ _).2 (Or.inl htlp),
          (r.tcb.rtoCount_onReceivedAckFrame c _ _ _).2 (Or.inl hrto)⟩
      · obtain ⟨mark, hmem, hseen, hle⟩ := hr.since since hsince n hn hnot
        exact ⟨mark, hmem, hmark.trans hseen, hle⟩

/-- Numbers that are less than half the range apart are compared as they are. -/
theorem not_afterMark_of_close {n mark : Nat} (hmark : r.tcb.largestSentBeforeRto = seen mark)
    (hle : n ≤ mark) (hclose : mark < n + 2 ^ 31) : r.tcb.afterMark (seen n) = false := by
  unfold CongestionState.afterMark
  rw [hmark]
  unfold seen gt
  simp only [Bool.or_eq_false_iff, Bool.and_eq_false_iff, decide_eq_false_iff_not]
  omega

/-- The packets of the sent list compare as they should. The fault is with the largest number. -/
theorem Marks.proper_of_largest (hr : Marks r) {largestAcknowledged : Nat}
    {ackedPackets : List AckedItem} {ackOnly lostPackets : List Nat} (hnative : c.legacy = false)
    (hvalid : r.Valid (.ack largestAcknowledged ackedPackets ackOnly lostPackets))
    (hclose : ∀ item ∈ ackedPackets, ∀ n ∈ r.sent, n < item.packetNumber + 2 ^ 31)
    (hlargest : r.tcb.tlpCount ≠ 0 → ackedPackets ≠ [] →
      seen largestAcknowledged ≤ r.tcb.largestSentBeforeRto) :
    r.Proper c (.ack largestAcknowledged ackedPackets ackOnly lostPackets) := by
  by_cases hfresh : r.Fresh (.ack largestAcknowledged ackedPackets ackOnly lostPackets)
  · exact Or.inl hfresh
  · refine Or.inr ⟨fun hcounted => hlargest (hcounted.resolve_right fun h => ?_),
      fun hcounted _ item hitem _ => ?_⟩
    · exact Bool.false_ne_true (hnative.symm.trans h.1)
    · obtain ⟨since, hsince⟩ : ∃ since, r.since = some since := by
        refine Option.ne_none_iff_exists'.1 fun hnone => ?_
        obtain ⟨htlp, hrto⟩ := hr.epoch hnone
        exact hcounted.elim (absurd htlp) (absurd hrto)
      obtain ⟨mark, hmem, hseen, hle⟩ := hr.since since hsince item.packetNumber
        (hvalid.1 item hitem).1
        fun hn => hfresh ⟨since, hsince, _, hn, Or.inl (List.mem_map_of_mem hitem)⟩
      rw [not_afterMark_of_close hseen hle (hclose item hitem mark (hr.data.subset hmem))]
      exact Bool.false_ne_true

/-- A largest number after the mark, without fresh evidence, is that of a packet with nothing but an
acknowledgement, or was acknowledged before. -/
theorem Marks.largest_of_stale (hr : Marks r) {largestAcknowledged : Nat}
    {ackedPackets : List AckedItem} {ackOnly lostPackets : List Nat} {since : List Nat}
    (hsince : r.since = some since)
    (hvalid : r.Valid (.ack largestAcknowledged ackedPackets ackOnly lostPackets))
    (hrange : ∀ n ∈ r.sent, n < 2 ^ 32)
    (hstale : ¬ r.Fresh (.ack largestAcknowledged ackedPackets ackOnly lostPackets))
    (hlarge : r.tcb.largestSentBeforeRto < seen largestAcknowledged) :
    largestAcknowledged ∈ ackOnly ∨ largestAcknowledged ∈ r.acknowledged := by
  obtain ⟨hitems, -, hlargest⟩ := hvalid
  rcases List.mem_append.1 hlargest with hnew | hbefore
  · refine Or.inl ((List.mem_append.1 hnew).resolve_left fun hacked => ?_)
    obtain ⟨item, hitem, rfl⟩ := List.mem_map.1 hacked
    obtain ⟨mark, hmem, hseen, hle⟩ := hr.since since hsince item.packetNumber
      (hitems item hitem).1 fun hn => hstale ⟨since, hsince, _, hn, Or.inl hacked⟩
    have hsent := hrange mark (hr.data.subset hmem)
    rw [hseen] at hlarge
    unfold seen at hlarge
    omega
  · exact Or.inr hbefore

/-- Less than half the range is in use, and the largest number of an acknowledgement that comes
after a probe is up to the mark. -/
def Plain (r : BackoffRun) : BackoffEvent → Prop
  | .ack largestAcknowledged ackedPackets _ _ =>
      (∀ item ∈ ackedPackets, ∀ n ∈ r.sent, n < item.packetNumber + 2 ^ 31) ∧
        (r.tcb.tlpCount ≠ 0 → ackedPackets ≠ [] →
          seen largestAcknowledged ≤ r.tcb.largestSentBeforeRto)
  | .alarm .timeout _ => r.tcb.rtoCount % 2 ^ 32 ≠ 2 ^ 32 - 1
  | _ => True

theorem Marks.proper_of_plain (hr : Marks r) (hnative : c.legacy = false) {event : BackoffEvent}
    (hvalid : r.Valid event) (hplain : r.Plain event) : r.Proper c event := by
  cases event with
  | sendDataPacket packetNumber => trivial
  | sendAck packetNumber => trivial
  | alarm alarm stuck =>
      cases alarm with
      | timeout => exact hplain
      | handshake => trivial
      | earlyRetransmit lostPackets => trivial
      | tailLossProbe => trivial
  | ack largestAcknowledged ackedPackets ackOnly lostPackets =>
      exact hr.proper_of_largest hnative hvalid hplain.1 hplain.2

/-- From a connection without an epoch, a run of increasing numbers returns the counters to zero on
fresh evidence only if its largest numbers are plain. -/
theorem run_resets_of_plain (hnative : c.legacy = false) (tcb : CongestionState)
    (htlp : tcb.tlpCount = 0) (hrto : tcb.rtoCount = 0) (events : List BackoffEvent)
    (hvalid : Run.AllSteps (step c) Valid { tcb } events)
    (hplain : Run.AllSteps (step c) Plain { tcb } events) :
    Run.AllSteps (step c) (Keeps c) { tcb } events :=
  ((Run.allSteps_and ..).2 ⟨hvalid, hplain⟩).imp (I := Marks)
    (fun _ _ hr h => hr.step hnative h.1)
    (fun _ event hr h => (keeps_iff event).2 (hr.proper_of_plain hnative h.1 h.2))
    (marks_start tcb htlp hrto)

/-- A packet with nothing but an acknowledgement has a number after the mark. It was sent before the
alarm, and the acknowledgement that covers it ends the probes. -/
theorem not_run_resets_ackOnly :
    ¬ ∀ (c : BackoffConfig) (tcb : CongestionState) (events : List BackoffEvent),
      tcb.tlpCount = 0 → tcb.rtoCount = 0 → Run.AllSteps (step c) Valid { tcb } events →
        Run.AllSteps (step c) (Keeps c) { tcb } events := by
  intro hall
  obtain ⟨-, -, -, hkeeps, -⟩ := hall {} (RecoveryRun.newConnection 0x7fffffff)
    [.sendDataPacket 1, .sendAck 2, .alarm .tailLossProbe false,
      .ack 2 [{ packetNumber := 1, size := 1460 }] [2] []] rfl rfl (by decide)
  exact absurd (hkeeps.tlpCount (by decide) (by decide)) (by decide)

end BackoffRun

end NtnIab.Quic
