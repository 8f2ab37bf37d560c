import NtnIab.Quic.SocketTxBuffer

/-!
# ACK frames

A path keeps the set of the packet numbers it received, the greatest first. An ACK frame lists the
greatest number and, for each gap between two neighbours of the set, the number below the upper
neighbour and the lower neighbour, until the number of gaps that is tracked is reached. The sender
walks over its sent list with these numbers.
-/

namespace NtnIab.Quic

open SequenceNumber32

/-- Insertion into the ordered set `m_receivedPacketNumbers`. -/
def insertReceived (pn : Nat) : List Nat → List Nat
  | [] => [pn]
  | other :: rest =>
      if gt pn other then pn :: other :: rest
      else if gt other pn then other :: insertReceived pn rest
      else other :: rest

/-- What the sending of ACK frames reads of a path. -/
structure MpQuicSubFlow where
  receivedPacketNumbers : List Nat := []
  lastMaxData : Nat := 0
  maxDataInterval : Nat := 10
  deriving Repr, DecidableEq

/-- The set after packets arrived in some order. -/
def receivedSet (arrivals : List Nat) : List Nat :=
  arrivals.foldl (fun received pn => insertReceived pn received) []

/-- The loop of `OnSendingAckFrame` over the pairs of neighbours: the additional blocks and the
gaps. The break comes after a pair, so the first pair is always looked at. -/
def trackGaps (maxTrackedGaps ackBlockCount : Nat) : List Nat → List Nat × List Nat
  | curr :: next :: rest =>
      let isGap := diff curr next - 1 > 0 ∧ curr ≠ next
      let ackBlockCount := if isGap then ackBlockCount + 1 else ackBlockCount
      let (blocks, gaps) :=
        if ackBlockCount ≥ maxTrackedGaps then ([], [])
        else trackGaps maxTrackedGaps ackBlockCount (next :: rest)
      if isGap then (next :: blocks, wrapSub curr 1 :: gaps) else (blocks, gaps)
  | _ => ([], [])

/-- `OnSendingAckFrame`: the subheaders of the frame, in the order of the packet, and the path. A
path without a received packet ends the simulation. -/
def onSendingAckFrame (maxTrackedGaps pathId ackDelay maxData : Nat) (f : MpQuicSubFlow) :
    Option (List QuicSubheader × MpQuicSubFlow) :=
  match f.receivedPacketNumbers with
  | [] => none
  | largestAcknowledged :: rest =>
      let (additionalAckBlocks, gaps) := trackGaps maxTrackedGaps 0 (largestAcknowledged :: rest)
      let sub := QuicSubheader.createMpAck largestAcknowledged ackDelay largestAcknowledged gaps
        additionalAckBlocks pathId
      if f.lastMaxData < f.maxDataInterval then
        some ([sub], { f with lastMaxData := wrapAdd f.lastMaxData 1 })
      else some ([QuicSubheader.createMaxData maxData, sub], { f with lastMaxData := 0 })

/-- `OnReceivedAckFrame`, up to the newly acknowledged packets. A frame of a path that is not one
of the subflows is dropped; one whose counts do not agree ends the simulation. The recovery from
losses and the congestion control that follow are left out. -/
def onReceivedAckFrame (tcb : QuicSocketState) (numSubflows : Nat) (now : Int)
    (sub : QuicSubheader) (b : QuicSocketTxBuffer) :
    Option (List QuicSocketTxItem × QuicSocketTxBuffer) :=
  if sub.pathId ≥ numSubflows then some ([], b)
  else if sub.ackBlockCount ≠ sub.additionalAckBlocks.length ∧
      sub.ackBlockCount ≠ sub.gaps.length then none
  else
    some (b.onAckUpdate tcb sub.largestAcknowledged sub.additionalAckBlocks sub.gaps sub.pathId now)

/-! ## The received set -/

/-- The numbers are in the window of the base, the greatest first. -/
structure Descending (base : Nat) (numbers : List Nat) : Prop where
  inWindow : ∀ pn ∈ numbers, InWindow base pn
  sorted : numbers.Pairwise fun a b => ahead base b < ahead base a

section
variable {base : Nat}

theorem Descending.tail {pn : Nat} {rest : List Nat} (h : Descending base (pn :: rest)) :
    Descending base rest :=
  ⟨fun other hother => h.inWindow other (List.mem_cons_of_mem _ hother),
    (List.pairwise_cons.1 h.sorted).2⟩

theorem Descending.head_lt {pn : Nat} {rest : List Nat} (h : Descending base (pn :: rest)) :
    ∀ other ∈ rest, ahead base other < ahead base pn :=
  (List.pairwise_cons.1 h.sorted).1

theorem mem_insertReceived {pn x : Nat} {received : List Nat}
    (hreceived : Descending base received) (hpn : InWindow base pn) :
    x ∈ insertReceived pn received ↔ x = pn ∨ x ∈ received := by
  induction received with
  | nil => simp [insertReceived]
  | cons other rest ih =>
      have hother : InWindow base other := hreceived.inWindow other List.mem_cons_self
      unfold insertReceived
      split
      · simp
      split
      · simp only [List.mem_cons, ih hreceived.tail]
        tauto
      · rename_i hgt hlt
        rw [gt_iff hpn hother] at hgt
        rw [gt_iff hother hpn] at hlt
        have heq : pn = other := ahead_inj hpn hother (by omega)
        subst heq
        simp

theorem Descending.insertReceived {pn : Nat} {received : List Nat}
    (hreceived : Descending base received) (hpn : InWindow base pn) :
    Descending base (insertReceived pn received) := by
  refine ⟨?_, ?_⟩
  · intro x hx
    rcases (mem_insertReceived hreceived hpn).1 hx with rfl | hx
    · exact hpn
    · exact hreceived.inWindow x hx
  · induction received with
    | nil => simp [Quic.insertReceived]
    | cons other rest ih =>
        have hother : InWindow base other := hreceived.inWindow other List.mem_cons_self
        unfold Quic.insertReceived
        split
        · rename_i hgt
          rw [gt_iff hpn hother] at hgt
          refine List.pairwise_cons.2 ⟨?_, hreceived.sorted⟩
          intro x hx
          rcases List.mem_cons.1 hx with rfl | hx
          · exact hgt
          · exact (hreceived.head_lt x hx).trans hgt
        split
        · rename_i hlt
          rw [gt_iff hother hpn] at hlt
          refine List.pairwise_cons.2 ⟨?_, ih hreceived.tail⟩
          intro x hx
          rcases (mem_insertReceived hreceived.tail hpn).1 hx with rfl | hx
          · exact hlt
          · exact hreceived.head_lt x hx
        · exact hreceived.sorted

/-- The set holds the packets that arrived, in any order and however often, and is sorted. -/
theorem receivedSet_spec {arrivals : List Nat} (harrivals : ∀ pn ∈ arrivals, InWindow base pn) :
    Descending base (receivedSet arrivals) ∧ ∀ x, x ∈ receivedSet arrivals ↔ x ∈ arrivals := by
  induction arrivals using List.reverseRecOn with
  | nil => exact ⟨⟨by simp [receivedSet], by simp [receivedSet]⟩, by simp [receivedSet]⟩
  | append_singleton before pn ih =>
      have hpn : InWindow base pn := harrivals pn (by simp)
      obtain ⟨hsorted, hmem⟩ := ih fun other hother =>
        harrivals other (List.mem_append_left _ hother)
      have hstep : receivedSet (before ++ [pn]) = insertReceived pn (receivedSet before) := by
        unfold receivedSet
        rw [List.foldl_append]
        rfl
      rw [hstep]
      refine ⟨hsorted.insertReceived hpn, ?_⟩
      intro x
      rw [mem_insertReceived hsorted hpn, hmem, List.mem_append, List.mem_singleton, or_comm]

end

end NtnIab.Quic
