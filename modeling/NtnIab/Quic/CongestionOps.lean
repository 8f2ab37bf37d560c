import Mathlib.Data.UInt
import NtnIab.Library.Run
import NtnIab.Network.SequenceNumber

/-!
# Recovery epochs of the congestion control

A loss starts a recovery epoch, which ends with the last packet that was sent by then. In an epoch
the window does not grow and is not reduced again. The window is a number of 32 bits that grows by
what was acknowledged, and nothing looks whether the sum is still one.

## Strategy

Packets are numbered without a bound here, and the code sees the numbers modulo the range. What was
sent since the last reduction is an upper part of what was sent (`Epochs`). So the largest lost
packet was sent since then if any lost packet was, and the code knows it if the comparison of the
sequence numbers agrees.
-/

namespace NtnIab.Quic

open SequenceNumber32

inductive CongState
  | open
  | disorder
  | cwr
  | recovery
  | loss
  deriving Repr, DecidableEq

/-- What the congestion control reads and writes of the state of a connection. The packet numbers
are `SequenceNumber32`. -/
structure CongestionState where
  cWnd : UInt32
  ssThresh : UInt32
  segmentSize : UInt32
  kMinimumWindow : UInt32
  congState : CongState := .open
  highTxMark : Nat := 0
  endOfRecovery : Nat := 0
  largestSentBeforeRto : Nat := 0
  handshakeCount : Nat := 0
  tlpCount : Nat := 0
  rtoCount : Nat := 0
  deriving Repr, DecidableEq

namespace CongestionState

def onPacketSent (packetNumber : Nat) (tcb : CongestionState) : CongestionState :=
  { tcb with highTxMark := packetNumber }

def inRecovery (packetNumber : Nat) (tcb : CongestionState) : Bool :=
  le packetNumber tcb.endOfRecovery

/-- By how much an acknowledged packet lets the window grow. -/
def increase (size : UInt32) (tcb : CongestionState) : UInt32 :=
  if tcb.cWnd < tcb.ssThresh then size else tcb.segmentSize * size / tcb.cWnd

def onPacketAckedCC (packetNumber : Nat) (size : UInt32) (tcb : CongestionState) :
    CongestionState :=
  if tcb.inRecovery packetNumber then tcb
  else if tcb.cWnd < tcb.ssThresh then { tcb with cWnd := tcb.cWnd + size }
  else if tcb.cWnd > 0 then
    { tcb with cWnd := tcb.cWnd + tcb.segmentSize * size / tcb.cWnd }
  else { tcb with cWnd := tcb.kMinimumWindow }

def onRetransmissionTimeoutVerified (tcb : CongestionState) : CongestionState :=
  { tcb with cWnd := tcb.kMinimumWindow, congState := .loss }

/-- The packet was sent after the mark of the alarm. -/
def afterMark (packetNumber : Nat) (tcb : CongestionState) : Bool :=
  gt packetNumber tcb.largestSentBeforeRto

/-- `OnPacketAcked`, of a packet and its size. -/
def onPacketAcked (packetNumber : Nat) (size : UInt32) (tcb : CongestionState) : CongestionState :=
  let tcb := tcb.onPacketAckedCC packetNumber size
  let tcb :=
    if tcb.rtoCount > 0 ∧ tcb.afterMark packetNumber then tcb.onRetransmissionTimeoutVerified
    else tcb
  let tcb := { tcb with handshakeCount := 0 }
  if tcb.afterMark packetNumber then { tcb with tlpCount := 0, rtoCount := 0 } else tcb

/-- `OnPacketsLost`. The callers have a packet that was lost; `m_kLossReductionFactor` is one
half. -/
def onPacketsLost (lostPackets : List Nat) (tcb : CongestionState) : CongestionState :=
  match lostPackets.getLast? with
  | none => tcb
  | some largestLostPacket =>
      if tcb.inRecovery largestLostPacket then tcb
      else
        let cWnd := tcb.cWnd / 2
        let cWnd := if cWnd < tcb.kMinimumWindow then tcb.kMinimumWindow else cWnd
        { tcb with endOfRecovery := tcb.highTxMark, cWnd, ssThresh := cWnd }

end CongestionState

/-! ## Runs -/

/-- The packets have numbers without a bound. -/
inductive RecoveryEvent
  | sent (packetNumber : Nat)
  | acked (packetNumber : Nat) (size : UInt32)
  | lost (lostPackets : List Nat)
  | timeoutVerified
  deriving Repr, DecidableEq

/-- The packets that were sent, the last one first, and those that were sent since the last
reduction by lost packets, if there was one. -/
structure RecoveryRun where
  tcb : CongestionState
  sent : List Nat := []
  since : Option (List Nat) := none
  deriving Repr, DecidableEq

namespace RecoveryRun

/-- What the code sees of a packet number. -/
def seen (packetNumber : Nat) : Nat := packetNumber % 2 ^ 32

/-- The lost packets start a new epoch. -/
def Reduces (lostPackets : List Nat) (r : RecoveryRun) : Prop :=
  ∃ last ∈ lostPackets.getLast?, r.tcb.inRecovery (seen last) = false

instance (lostPackets : List Nat) (r : RecoveryRun) : Decidable (Reduces lostPackets r) :=
  inferInstanceAs (Decidable (∃ last ∈ lostPackets.getLast?, _))

def step (r : RecoveryRun) : RecoveryEvent → RecoveryRun
  | .sent packetNumber =>
      { tcb := r.tcb.onPacketSent (seen packetNumber)
        sent := packetNumber :: r.sent
        since := r.since.map (packetNumber :: ·) }
  | .acked packetNumber size => { r with tcb := r.tcb.onPacketAcked (seen packetNumber) size }
  | .lost lostPackets =>
      { r with
        tcb := r.tcb.onPacketsLost (lostPackets.map seen)
        since := if Reduces lostPackets r then some [] else r.since }
  | .timeoutVerified => { r with tcb := r.tcb.onRetransmissionTimeoutVerified }

/-- Packet numbers increase, and a packet that is lost was sent. -/
def Valid (r : RecoveryRun) : RecoveryEvent → Prop
  | .sent packetNumber => ∀ earlier ∈ r.sent, earlier < packetNumber
  | .lost lostPackets => lostPackets ≠ [] ∧ ∀ n ∈ lostPackets, n ∈ r.sent
  | _ => True

instance (r : RecoveryRun) : (event : RecoveryEvent) → Decidable (r.Valid event)
  | .sent _ => inferInstanceAs (Decidable (∀ earlier ∈ r.sent, _))
  | .lost _ => inferInstanceAs (Decidable (_ ∧ _))
  | .acked _ _ => inferInstanceAs (Decidable True)
  | .timeoutVerified => inferInstanceAs (Decidable True)

/-! ## What is claimed -/

/-- The window stays above the minimum; an acknowledgement in recovery does not let it grow; and of
lost packets that reduce it once more, the largest was sent since the last reduction. -/
structure Keeps (r : RecoveryRun) (event : RecoveryEvent) : Prop where
  minimum : r.tcb.kMinimumWindow ≤ r.tcb.cWnd →
    r.tcb.kMinimumWindow ≤ (r.step event).tcb.cWnd
  recovery : ∀ packetNumber size, event = .acked packetNumber size →
    r.tcb.inRecovery (seen packetNumber) → (r.step event).tcb.cWnd ≤ r.tcb.cWnd
  once : ∀ lostPackets, event = .lost lostPackets → Reduces lostPackets r →
    ∀ since ∈ r.since, ∀ largest ∈ lostPackets.max?, largest ∈ since

/-! ## What it depends on -/

/-- The acknowledgement of the packet verifies a timeout. -/
def Verifies (packetNumber : Nat) (r : RecoveryRun) : Prop :=
  r.tcb.rtoCount > 0 ∧ r.tcb.afterMark (seen packetNumber)

instance (packetNumber : Nat) (r : RecoveryRun) : Decidable (Verifies packetNumber r) :=
  inferInstanceAs (Decidable (_ ∧ _))

/-- The window and what is added are a number of 32 bits, or what is left of their sum is still the
minimum. -/
def Fits (size : UInt32) (tcb : CongestionState) : Prop :=
  tcb.cWnd.toNat + (tcb.increase size).toNat < 2 ^ 32 ∨
    2 ^ 32 + tcb.kMinimumWindow.toNat ≤ tcb.cWnd.toNat + (tcb.increase size).toNat

instance (size : UInt32) (tcb : CongestionState) : Decidable (Fits size tcb) :=
  inferInstanceAs (Decidable (_ ∨ _))

def Proper (r : RecoveryRun) : RecoveryEvent → Prop
  | .acked packetNumber size =>
      if r.tcb.inRecovery (seen packetNumber) then
        Verifies packetNumber r → r.tcb.kMinimumWindow ≤ r.tcb.cWnd
      else
        ¬ Verifies packetNumber r → 0 < r.tcb.cWnd → r.tcb.kMinimumWindow ≤ r.tcb.cWnd →
          Fits size r.tcb
  | .lost lostPackets =>
      -- the comparison knows packets from before the last reduction
      ∀ since ∈ r.since, (∀ n ∈ lostPackets, n ∉ since) →
        ∀ last ∈ lostPackets.getLast?, r.tcb.inRecovery (seen last)
  | _ => True

instance (r : RecoveryRun) : (event : RecoveryEvent) → Decidable (r.Proper event)
  | .sent _ => inferInstanceAs (Decidable True)
  | .acked _ _ => inferInstanceAs (Decidable (ite _ _ _))
  | .lost _ => inferInstanceAs (Decidable (∀ since ∈ r.since, _))
  | .timeoutVerified => inferInstanceAs (Decidable True)

end RecoveryRun

/-! ## The window -/

namespace CongestionState

variable (packetNumber : Nat) (size : UInt32) (tcb : CongestionState)

/-- The window after the acknowledgement of a packet, before timeouts are looked at. -/
def grown : UInt32 :=
  if tcb.inRecovery packetNumber then tcb.cWnd
  else if tcb.cWnd < tcb.ssThresh ∨ tcb.cWnd > 0 then tcb.cWnd + tcb.increase size
  else tcb.kMinimumWindow

theorem onPacketAckedCC_eq :
    tcb.onPacketAckedCC packetNumber size = { tcb with cWnd := tcb.grown packetNumber size } := by
  unfold onPacketAckedCC grown increase
  by_cases hrecovery : tcb.inRecovery packetNumber = true
  · rw [if_pos hrecovery, if_pos hrecovery]
  · rw [if_neg hrecovery, if_neg hrecovery]
    by_cases hstart : tcb.cWnd < tcb.ssThresh
    · rw [if_pos hstart, if_pos hstart, if_pos (Or.inl hstart)]
    · rw [if_neg hstart, if_neg hstart]
      by_cases hpos : tcb.cWnd > 0
      · rw [if_pos hpos, if_pos (Or.inr hpos)]
      · rw [if_neg hpos, if_neg (not_or.2 ⟨hstart, hpos⟩)]

/-- What an acknowledged packet changes: a packet from after the mark verifies a timeout and ends
the back-off. -/
theorem onPacketAcked_eq : tcb.onPacketAcked packetNumber size =
    let verifies := tcb.rtoCount > 0 ∧ tcb.afterMark packetNumber
    { tcb with
      cWnd := if verifies then tcb.kMinimumWindow else tcb.grown packetNumber size
      congState := if verifies then .loss else tcb.congState
      handshakeCount := 0
      tlpCount := if tcb.afterMark packetNumber then 0 else tcb.tlpCount
      rtoCount := if tcb.afterMark packetNumber then 0 else tcb.rtoCount } := by
  have hmark : ∀ cWnd, afterMark packetNumber { tcb with cWnd } = tcb.afterMark packetNumber :=
    fun _ => rfl
  unfold onPacketAcked
  rw [onPacketAckedCC_eq]
  dsimp only
  rw [hmark]
  by_cases hafter : tcb.afterMark packetNumber = true
  · by_cases hrto : tcb.rtoCount > 0
    · simp only [hafter, hrto, and_self, if_true]
      exact if_pos hafter
    · simp only [hafter, hrto, false_and, if_false, if_true]
      exact if_pos hafter
  · have hverifies : ¬ (tcb.rtoCount > 0 ∧ tcb.afterMark packetNumber = true) :=
      fun h => hafter h.2
    simp only [if_neg hverifies, if_neg hafter]
    exact if_neg hafter

variable {tcb}

/-- The window stays above the minimum exactly if the sum fits. -/
theorem minimum_le_add_iff (hmin : tcb.kMinimumWindow ≤ tcb.cWnd) :
    tcb.kMinimumWindow ≤ tcb.cWnd + tcb.increase size ↔ RecoveryRun.Fits size tcb := by
  have hlt := tcb.cWnd.toNat_lt
  have hlt' := (tcb.increase size).toNat_lt
  rw [UInt32.le_iff_toNat_le] at hmin ⊢
  rw [UInt32.toNat_add]
  unfold RecoveryRun.Fits
  omega

/-- The sum fits unless the threshold, a packet or the window is near the end of the range. -/
theorem fits_of_moderate (hthreshold : tcb.ssThresh.toNat ≤ 2 ^ 31) (hsize : size.toNat < 2 ^ 31)
    (hpos : 2 ≤ tcb.cWnd.toNat) (hlarge : tcb.cWnd.toNat < 2 ^ 32 - 1) :
    RecoveryRun.Fits size tcb := by
  left
  unfold increase
  split_ifs with hstart
  · rw [UInt32.lt_iff_toNat_lt] at hstart
    omega
  · have hproduct := (tcb.segmentSize * size).toNat_lt
    rw [UInt32.toNat_div]
    rcases Nat.lt_or_ge tcb.cWnd.toNat (2 ^ 31) with hsmall | hhalf
    · -- half of the range at most is added to less than half of it
      have hle : (tcb.segmentSize * size).toNat / tcb.cWnd.toNat ≤
          (tcb.segmentSize * size).toNat / 2 := Nat.div_le_div_left hpos (by decide)
      omega
    · have hone : (tcb.segmentSize * size).toNat / tcb.cWnd.toNat < 2 :=
        Nat.div_lt_of_lt_mul (by omega)
      omega

variable (tcb) in
/-- Lost packets leave the window as it is or above the minimum. -/
theorem onPacketsLost_cWnd (lostPackets : List Nat) :
    tcb.onPacketsLost lostPackets = tcb ∨
      tcb.kMinimumWindow ≤ (tcb.onPacketsLost lostPackets).cWnd := by
  unfold onPacketsLost
  cases lostPackets.getLast? with
  | none => exact Or.inl rfl
  | some last =>
      dsimp only
      split_ifs with hrecovery hsmall
      · exact Or.inl rfl
      · exact Or.inr (UInt32.le_refl _)
      · exact Or.inr (UInt32.not_lt.1 hsmall)

end CongestionState

/-! ## The epochs -/

namespace RecoveryRun

variable {r : RecoveryRun}

/-- The packets that were sent have descending numbers, the code knows the last one, and those sent
since the last reduction are the ones after some number. -/
structure Epochs (r : RecoveryRun) : Prop where
  descending : r.sent.Pairwise (· > ·)
  highTxMark : ∀ last ∈ r.sent.head?, r.tcb.highTxMark = seen last
  since : ∀ since ∈ r.since, ∃ mark ∈ r.sent, r.tcb.endOfRecovery = seen mark ∧
    ∀ n ∈ r.sent, n ∈ since ↔ mark < n

theorem epochs_start (tcb : CongestionState) : Epochs { tcb } where
  descending := List.Pairwise.nil
  highTxMark := fun _ h => (Option.not_mem_none _ h).elim
  since := fun _ h => (Option.not_mem_none _ h).elim

theorem onPacketsLost_of_reduces {lostPackets : List Nat} (hreduces : Reduces lostPackets r) :
    (r.tcb.onPacketsLost (lostPackets.map seen)).endOfRecovery = r.tcb.highTxMark ∧
      (r.tcb.onPacketsLost (lostPackets.map seen)).highTxMark = r.tcb.highTxMark := by
  obtain ⟨last, hlast, hrecovery⟩ := hreduces
  unfold CongestionState.onPacketsLost
  rw [List.getLast?_map, Option.mem_def.1 hlast, Option.map_some]
  dsimp only
  rw [hrecovery, if_neg Bool.false_ne_true]
  exact ⟨rfl, rfl⟩

theorem onPacketsLost_of_not_reduces {lostPackets : List Nat}
    (hnot : ¬ Reduces lostPackets r) : r.tcb.onPacketsLost (lostPackets.map seen) = r.tcb := by
  unfold CongestionState.onPacketsLost
  rw [List.getLast?_map]
  cases hlast : lostPackets.getLast? with
  | none => rfl
  | some last =>
      rw [Option.map_some]
      dsimp only
      rw [if_pos]
      by_contra hrecovery
      exact hnot ⟨last, hlast, Bool.eq_false_of_not_eq_true hrecovery⟩

theorem Epochs.step (hr : Epochs r) {event : RecoveryEvent} (hvalid : r.Valid event) :
    Epochs (r.step event) := by
  cases event with
  | sent packetNumber =>
      have hlater : ∀ earlier ∈ r.sent, earlier < packetNumber := hvalid
      refine ⟨List.pairwise_cons.2 ⟨hlater, hr.descending⟩, fun last hlast => ?_,
        fun since hsince => ?_⟩
      · obtain rfl := Option.some.inj hlast
        rfl
      · obtain ⟨before, hbefore, rfl⟩ := Option.map_eq_some_iff.1 hsince
        obtain ⟨mark, hsent, hmark, hmem⟩ := hr.since before hbefore
        refine ⟨mark, List.mem_cons_of_mem _ hsent, hmark, fun n hn => ?_⟩
        rcases List.mem_cons.1 hn with rfl | hn
        · exact iff_of_true List.mem_cons_self (hlater mark hsent)
        · have hne : n ≠ packetNumber := (hlater n hn).ne
          rw [List.mem_cons, or_iff_right hne]
          exact hmem n hn
  | acked packetNumber size =>
      have heq := r.tcb.onPacketAcked_eq (seen packetNumber) size
      exact ⟨hr.descending, fun last hlast => (congrArg (·.highTxMark) heq).trans
        (hr.highTxMark last hlast), fun since hsince => by
          obtain ⟨mark, hsent, hmark, hmem⟩ := hr.since since hsince
          exact ⟨mark, hsent, (congrArg (·.endOfRecovery) heq).trans hmark, hmem⟩⟩
  | lost lostPackets =>
      obtain ⟨hne, hsent⟩ := hvalid
      by_cases hreduces : Reduces lostPackets r
      · obtain ⟨hmark, hhigh⟩ := onPacketsLost_of_reduces hreduces
        refine ⟨hr.descending, fun last hlast => hhigh.trans (hr.highTxMark last hlast),
          fun since hsince => ?_⟩
        have hsince : (if Reduces lostPackets r then some [] else r.since) = some since := hsince
        rw [if_pos hreduces] at hsince
        obtain rfl := Option.some.inj hsince
        -- the epoch ends with the last packet sent, and nothing was sent after it
        obtain ⟨first, hfirst⟩ := List.exists_mem_of_ne_nil _ hne
        have hpos := List.ne_nil_of_mem (hsent first hfirst)
        refine ⟨r.sent.head hpos, List.head_mem hpos,
          hmark.trans (hr.highTxMark _ (List.head?_eq_some_head hpos)), fun n hn => ?_⟩
        refine iff_of_false List.not_mem_nil ?_
        have hdescending := hr.descending
        have hn : n ∈ r.sent := hn
        obtain ⟨last, earlier, hlist⟩ := List.exists_cons_of_ne_nil hpos
        simp only [hlist, List.head_cons] at hn hdescending ⊢
        rcases List.mem_cons.1 hn with rfl | hn
        · exact Nat.lt_irrefl _
        · exact Nat.lt_asymm ((List.pairwise_cons.1 hdescending).1 n hn)
      · have hsame : r.step (.lost lostPackets) = r := by
          show RecoveryRun.mk _ _ _ = r
          rw [onPacketsLost_of_not_reduces hreduces, if_neg hreduces]
        rw [hsame]
        exact hr
  | timeoutVerified => exact ⟨hr.descending, hr.highTxMark, hr.since⟩

/-- An acknowledged packet keeps the window as it should exactly if the sum fits, and a timeout that
is verified in recovery finds a window above the minimum. -/
theorem keeps_acked_iff (packetNumber : Nat) (size : UInt32) :
    r.Keeps (.acked packetNumber size) ↔ r.Proper (.acked packetNumber size) := by
  have hafter : (r.step (.acked packetNumber size)).tcb.cWnd = _ :=
    congrArg (·.cWnd) (r.tcb.onPacketAcked_eq (seen packetNumber) size)
  dsimp only at hafter
  unfold Proper
  dsimp only
  by_cases hverifies : Verifies packetNumber r
  · have hwindow : (r.step (.acked packetNumber size)).tcb.cWnd = r.tcb.kMinimumWindow :=
      hafter.trans (if_pos hverifies)
    have hminimum := UInt32.le_refl r.tcb.kMinimumWindow
    by_cases hrecovery : r.tcb.inRecovery (seen packetNumber) = true
    · rw [if_pos hrecovery]
      constructor
      · intro hkeeps _
        exact hwindow ▸ hkeeps.recovery packetNumber size rfl hrecovery
      · intro hproper
        exact ⟨fun _ => hwindow ▸ hminimum, fun _ _ _ _ => hwindow ▸ hproper hverifies,
          nofun⟩
    · rw [if_neg hrecovery]
      refine iff_of_true ⟨fun _ => hwindow ▸ hminimum, fun other _ hother hin => ?_, nofun⟩
        (fun hnot => absurd hverifies hnot)
      obtain rfl := (RecoveryEvent.acked.inj hother).1
      exact absurd hin hrecovery
  · have hwindow : (r.step (.acked packetNumber size)).tcb.cWnd =
        r.tcb.grown (seen packetNumber) size := hafter.trans (if_neg hverifies)
    by_cases hrecovery : r.tcb.inRecovery (seen packetNumber) = true
    · have hsame : (r.step (.acked packetNumber size)).tcb.cWnd = r.tcb.cWnd :=
        hwindow.trans (if_pos hrecovery)
      rw [if_pos hrecovery]
      refine iff_of_true ⟨fun hmin => hsame ▸ hmin, fun _ _ _ _ => ?_, nofun⟩
        (fun h => absurd h hverifies)
      exact hsame ▸ UInt32.le_refl _
    · have hout : ∀ other size', RecoveryEvent.acked packetNumber size = .acked other size' →
          r.tcb.inRecovery (seen other) = true →
          (r.step (.acked packetNumber size)).tcb.cWnd ≤ r.tcb.cWnd := by
        intro other _ hother hin
        obtain rfl := (RecoveryEvent.acked.inj hother).1
        exact absurd hin hrecovery
      rw [if_neg hrecovery]
      by_cases hpos : 0 < r.tcb.cWnd
      · have hsum : (r.step (.acked packetNumber size)).tcb.cWnd =
            r.tcb.cWnd + r.tcb.increase size := by
          rw [hwindow, CongestionState.grown, if_neg hrecovery, if_pos (Or.inr hpos)]
        constructor
        · intro hkeeps _ _ hmin
          exact (CongestionState.minimum_le_add_iff size hmin).1 (hsum ▸ hkeeps.minimum hmin)
        · intro hproper
          refine ⟨fun hmin => ?_, hout, nofun⟩
          rw [hsum]
          exact (CongestionState.minimum_le_add_iff size hmin).2 (hproper hverifies hpos hmin)
      · -- a minimum that an empty window reaches is zero
        refine iff_of_true ⟨fun hmin => ?_, hout, nofun⟩ (fun _ h => absurd h hpos)
        rw [UInt32.le_iff_toNat_le] at hmin ⊢
        have hzero := UInt32.le_iff_toNat_le.1 (UInt32.not_lt.1 hpos)
        have hnone : (0 : UInt32).toNat = 0 := rfl
        omega

/-- Where the packets are in order, a step does what is claimed exactly if it is proper. -/
theorem Epochs.keeps_iff (hr : Epochs r) {event : RecoveryEvent} (hvalid : r.Valid event) :
    r.Keeps event ↔ r.Proper event := by
  cases event with
  | sent packetNumber => exact iff_of_true ⟨id, nofun, nofun⟩ trivial
  | acked packetNumber size => exact keeps_acked_iff packetNumber size
  | lost lostPackets =>
      obtain ⟨hne, hsent⟩ := hvalid
      constructor
      · intro hkeeps since hsince hnone last hlast
        by_contra hrecovery
        obtain ⟨largest, hlargest⟩ := Option.isSome_iff_exists.1
          (List.isSome_max?_of_ne_nil hne)
        have hmem := hkeeps.once lostPackets rfl
          ⟨last, hlast, Bool.eq_false_of_not_eq_true hrecovery⟩ since hsince largest hlargest
        exact hnone largest (List.max?_mem hlargest) hmem
      · intro hproper
        refine ⟨fun hmin => ?_, nofun, ?_⟩
        · rcases r.tcb.onPacketsLost_cWnd (lostPackets.map seen)
            with hsame | hafter
          · exact hsame.symm ▸ hmin
          · exact hafter
        · intro other hother hreduces since hsince largest hlargest
          obtain rfl := RecoveryEvent.lost.inj hother
          obtain ⟨mark, -, -, hmem⟩ := hr.since since hsince
          obtain ⟨last, hlast, hrecovery⟩ := hreduces
          by_contra hnot
          obtain ⟨hlargest, hall⟩ := List.max?_eq_some_iff.1 (Option.mem_def.1 hlargest)
          have hearly := fun h => hnot ((hmem largest (hsent largest hlargest)).2 h)
          have hin := hproper since hsince (fun n hn hsinceN => hearly (Nat.lt_of_lt_of_le
            ((hmem n (hsent n hn)).1 hsinceN) (hall n hn))) last hlast
          exact Bool.false_ne_true (hrecovery.symm.trans hin)
  | timeoutVerified =>
      exact iff_of_true ⟨fun _ => UInt32.le_refl _, nofun, nofun⟩ trivial

/-- Numbers that are less than half the range apart are compared as they are. -/
theorem inRecovery_of_close {n mark : Nat} (hmark : r.tcb.endOfRecovery = seen mark)
    (hle : n ≤ mark) (hclose : mark < n + 2 ^ 31) : r.tcb.inRecovery (seen n) = true := by
  unfold CongestionState.inRecovery
  rw [hmark]
  unfold seen le gt
  simp only [Bool.not_eq_true', Bool.or_eq_false_iff, Bool.and_eq_false_iff,
    decide_eq_false_iff_not]
  omega

/-- Lost packets are handled properly if no more than half the range was sent since the last of
them. -/
theorem Epochs.proper_lost_of_close (hr : Epochs r) {lostPackets : List Nat}
    (hvalid : r.Valid (.lost lostPackets))
    (hclose : ∀ last ∈ lostPackets.getLast?, ∀ n ∈ r.sent, n < last + 2 ^ 31) :
    r.Proper (.lost lostPackets) := by
  intro since hsince hnone last hlast
  obtain ⟨mark, hsent, hmark, hmem⟩ := hr.since since hsince
  have hlost := List.mem_of_getLast? (Option.mem_def.1 hlast)
  have hle : last ≤ mark :=
    Nat.not_lt.1 fun h => hnone last hlost ((hmem last (hvalid.2 last hlost)).2 h)
  exact inRecovery_of_close hmark hle (hclose last hlast mark hsent)

/-- In a run of packets with increasing numbers every step does what is claimed exactly if every
step is proper. -/
theorem run_keeps_iff (tcb : CongestionState) (events : List RecoveryEvent)
    (hvalid : Run.AllSteps step Valid { tcb } events) :
    Run.AllSteps step Keeps { tcb } events ↔ Run.AllSteps step Proper { tcb } events := by
  have hboth : Run.AllSteps step (fun r event => r.Valid event ∧ r.Keeps event) { tcb } events ↔
      Run.AllSteps step (fun r event => r.Valid event ∧ r.Proper event) { tcb } events :=
    Run.allSteps_congr (I := Epochs) (fun _ _ hr h => hr.step h.1)
      (fun _ _ hr => and_congr_right fun h => hr.keeps_iff h) (epochs_start tcb)
  rw [Run.allSteps_and, Run.allSteps_and] at hboth
  exact ⟨fun h => (hboth.1 ⟨hvalid, h⟩).2, fun h => (hboth.2 ⟨hvalid, h⟩).2⟩

/-- A connection with segments of 1460 bytes. -/
def newConnection (ssThresh : UInt32) : CongestionState where
  cWnd := 14600
  ssThresh
  segmentSize := 1460
  kMinimumWindow := 2920

theorem run_keeps_twoLosses :
    Run.AllSteps step Keeps { tcb := newConnection 0x7fffffff }
      [.sent 1, .sent 2, .lost [1], .acked 2 1460, .sent 3, .lost [2], .lost [3]] :=
  (run_keeps_iff _ _ (by decide)).2 (by decide)

/-- In slow start with the largest threshold, the window wraps at the end of its range. -/
theorem not_run_keeps_largestThreshold :
    ¬ ∀ (tcb : CongestionState) (events : List RecoveryEvent),
      Run.AllSteps step Valid { tcb } events → Run.AllSteps step Keeps { tcb } events := by
  intro hall
  obtain ⟨-, hkeeps, -⟩ := hall { newConnection 0xffffffff with cWnd := 4294966000 }
    [.sent 1, .acked 1 1460] (by decide)
  exact absurd (hkeeps.minimum (by decide)) (by decide)

end RecoveryRun

end NtnIab.Quic
