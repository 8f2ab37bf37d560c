import Mathlib.Algebra.BigOperators.Group.List.Basic
import NtnIab.Mmwave.PaddedHbfNewData

/-!
# Downlink demand after an allocation

The bytes of a block are shared by the RLC PDUs of a UE, and the scheduler lowers what it knows of
each queue by what was granted to it. A status PDU that is covered is taken off, but its bytes are
then taken off the data as well; one that is not covered, or the overhead of RLC, may be more than
what was granted, and the difference wraps.

## Strategy

* A PDU that is shorter than the average leaves its rest to the others, so the sum stays within the
  block (`sum_distribute_le`).
* A call is right exactly if it has enough bytes for the status PDU together with the data that is
  taken off (`keepsDemand_iff`), by cases on the queue that is served.
* The calls for a block follow one another (`demandKept_iff`, by induction on the PDUs).
-/

namespace NtnIab.Mmwave

open PaddedHbf Fallible

/-! ## The PDUs of a block -/

namespace NewData

/-- The PDUs that are shorter than a size take that size at most from what is left. -/
theorem foldl_short_spec (avgPduSize : Nat) (short : List RlcPduInfo)
    (hshort : ∀ pdu ∈ short, pdu.size < avgPduSize) (rem : Nat) (hrem : rem < 2 ^ 32)
    (hroom : short.length * avgPduSize ≤ rem) :
    short.foldl (fun rem pdu => sub32 rem pdu.size) rem + (short.map (·.size)).sum = rem := by
  induction short generalizing rem with
  | nil => simp
  | cons pdu rest ih =>
      rw [List.forall_mem_cons] at hshort
      rw [List.length_cons, Nat.succ_mul] at hroom
      have hle : pdu.size ≤ rem := by omega
      rw [List.foldl_cons, List.map_cons, List.sum_cons, sub32_of_le hle hrem]
      have hrest := ih hshort.2 (rem - pdu.size) (by omega) (by omega)
      omega

/-- The PDUs that are cut to a size, and those that are shorter anyway. -/
theorem sum_min_le (avgPduSize bound : Nat) (pdus : List RlcPduInfo) :
    (pdus.map fun pdu => min pdu.size avgPduSize).sum ≤
      ((pdus.filter (·.size < bound)).map (·.size)).sum +
        (pdus.length - (pdus.filter (·.size < bound)).length) * avgPduSize := by
  induction pdus with
  | nil => simp
  | cons pdu rest ih =>
      have hlength := List.length_filter_le (fun pdu : RlcPduInfo => decide (pdu.size < bound)) rest
      by_cases hshort : pdu.size < bound
      · rw [List.filter_cons_of_pos (by simpa using hshort)]
        simp only [List.map_cons, List.sum_cons, List.length_cons, Nat.add_sub_add_right]
        have := Nat.min_le_left pdu.size avgPduSize
        omega
      · rw [List.filter_cons_of_neg (by simpa using hshort)]
        simp only [List.map_cons, List.sum_cons, List.length_cons]
        rw [Nat.sub_add_comm hlength, Nat.succ_mul]
        have := Nat.min_le_right pdu.size avgPduSize
        omega

/-- The PDUs of a block are not longer than the block. -/
theorem sum_distribute_le {tbSize : Nat} (htbSize : tbSize < 2 ^ 32) (pdus : List RlcPduInfo) :
    ((distribute tbSize pdus).map (·.size)).sum ≤ tbSize := by
  unfold distribute
  rw [List.map_map]
  dsimp only [Function.comp_def]
  set average := tbSize / pdus.length % 2 ^ 16 with haverage
  set short := pdus.filter (·.size < average) with hshort
  have hlength : short.length ≤ pdus.length := List.length_filter_le _ _
  have hfit : pdus.length * average ≤ tbSize := by
    calc pdus.length * average ≤ pdus.length * (tbSize / pdus.length) :=
          Nat.mul_le_mul_left _ (Nat.mod_le _ _)
      _ ≤ tbSize := Nat.mul_div_le tbSize pdus.length
  have hrem := foldl_short_spec average short (by simp [hshort]) tbSize htbSize
    (Nat.le_trans (Nat.mul_le_mul_right _ hlength) hfit)
  set bytesRem := short.foldl (fun rem pdu => sub32 rem pdu.size) tbSize
  split_ifs with hsome
  · calc (pdus.map fun pdu => min pdu.size (bytesRem / (pdus.length - short.length) % 2 ^ 16)).sum
        ≤ (short.map (·.size)).sum + (pdus.length - short.length) *
            (bytesRem / (pdus.length - short.length) % 2 ^ 16) := sum_min_le _ average pdus
      _ ≤ (short.map (·.size)).sum + bytesRem := by
          refine Nat.add_le_add_left ?_ _
          exact Nat.le_trans (Nat.mul_le_mul_left _ (Nat.mod_le _ _)) (Nat.mul_div_le _ _)
      _ = tbSize := by rw [Nat.add_comm, hrem]
  · calc (pdus.map fun pdu => min pdu.size average).sum
        ≤ (short.map (·.size)).sum + (pdus.length - short.length) * average :=
          sum_min_le _ average pdus
      _ = (short.map (·.size)).sum := by rw [Nat.sub_eq_zero_of_le (by omega)]; simp
      _ ≤ tbSize := by omega

end NewData

/-! ## One call -/

/-- The overhead of RLC that is assumed for new data. -/
def rlcOverhead (lcid : Nat) : Nat := if lcid = 1 then 4 else 2

namespace SchedDlRlcBufferReqParameters

variable (lcid size : Nat) (req : SchedDlRlcBufferReqParameters)

/-- All that a channel has to send. -/
def queued : Nat :=
  req.rlcStatusPduSize + req.rlcRetransmissionQueueSize + req.rlcTransmissionQueueSize

/-- What is left of the status PDU. -/
def statusLeft : Nat :=
  if 0 < req.rlcStatusPduSize ∧ req.rlcStatusPduSize ≤ size then 0 else req.rlcStatusPduSize

/-- No subtraction of a call is below zero. -/
structure NoWrap : Prop where
  retx : 0 < req.rlcRetransmissionQueueSize → req.statusLeft size ≤ size
  tx : req.rlcRetransmissionQueueSize = 0 → 0 < req.rlcTransmissionQueueSize →
    rlcOverhead lcid + req.statusLeft size ≤ size

/-- A call takes off what was granted at most, and a queue is empty only if that covered it. -/
structure KeepsDemand : Prop where
  noWrap : NoWrap lcid size req
  notRaised : (takeFromQueues lcid size req).queued ≤ req.queued
  lowered : req.queued ≤ (takeFromQueues lcid size req).queued + size
  status : (takeFromQueues lcid size req).rlcStatusPduSize = 0 → req.rlcStatusPduSize ≤ size
  retx : (takeFromQueues lcid size req).rlcRetransmissionQueueSize = 0 →
    req.rlcRetransmissionQueueSize ≤ size
  tx : (takeFromQueues lcid size req).rlcTransmissionQueueSize = 0 →
    req.rlcTransmissionQueueSize ≤ size

/-- The grant is enough for the queue that is served: with retransmissions there is no status PDU,
or both fit; with new data the overhead fits, and the status PDU is not longer than the overhead or
fits with all of the data. -/
structure Suffices : Prop where
  retx : 0 < req.rlcRetransmissionQueueSize →
    req.rlcStatusPduSize = 0 ∨ req.rlcStatusPduSize + req.rlcRetransmissionQueueSize ≤ size
  tx : req.rlcRetransmissionQueueSize = 0 → 0 < req.rlcTransmissionQueueSize →
    rlcOverhead lcid ≤ size ∧ (req.rlcStatusPduSize ≤ rlcOverhead lcid ∨
      req.rlcStatusPduSize + req.rlcTransmissionQueueSize ≤ size)

instance : Decidable (Suffices lcid size req) :=
  decidable_of_iff ((0 < req.rlcRetransmissionQueueSize →
      req.rlcStatusPduSize = 0 ∨ req.rlcStatusPduSize + req.rlcRetransmissionQueueSize ≤ size) ∧
    (req.rlcRetransmissionQueueSize = 0 → 0 < req.rlcTransmissionQueueSize →
      rlcOverhead lcid ≤ size ∧ (req.rlcStatusPduSize ≤ rlcOverhead lcid ∨
        req.rlcStatusPduSize + req.rlcTransmissionQueueSize ≤ size)))
    ⟨fun h => ⟨h.1, h.2⟩, fun h => ⟨h.retx, h.tx⟩⟩

variable {lcid size req}

/-- A call that serves retransmissions. -/
theorem takeFromQueues_retx (lcid : Nat) (hsize : size < 2 ^ 32)
    (hretx : 0 < req.rlcRetransmissionQueueSize) (hwrap : req.statusLeft size ≤ size) :
    takeFromQueues lcid size req = { req with
      rlcStatusPduSize := req.statusLeft size
      rlcRetransmissionQueueSize :=
        req.rlcRetransmissionQueueSize - (size - req.statusLeft size) } := by
  unfold takeFromQueues
  dsimp only
  rw [if_pos hretx]
  change ({ req with
    rlcStatusPduSize := req.statusLeft size
    rlcRetransmissionQueueSize :=
      if req.rlcRetransmissionQueueSize ≤ sub32 size (req.statusLeft size) then 0
      else req.rlcRetransmissionQueueSize - sub32 size (req.statusLeft size) } :
    SchedDlRlcBufferReqParameters) = _
  rw [sub32_of_le hwrap hsize]
  split_ifs with hall
  · rw [Nat.sub_eq_zero_of_le hall]
  · rfl

/-- A call that serves new data. -/
theorem takeFromQueues_tx (hsize : size < 2 ^ 32) (hretx : req.rlcRetransmissionQueueSize = 0)
    (htx : 0 < req.rlcTransmissionQueueSize)
    (hwrap : rlcOverhead lcid + req.statusLeft size ≤ size) :
    takeFromQueues lcid size req = { req with
      rlcStatusPduSize := req.statusLeft size
      rlcTransmissionQueueSize := req.rlcTransmissionQueueSize -
        (size - rlcOverhead lcid - req.statusLeft size) } := by
  unfold takeFromQueues
  dsimp only
  rw [if_neg (by omega), if_pos htx]
  change ({ req with
    rlcStatusPduSize := req.statusLeft size
    rlcTransmissionQueueSize :=
      if req.rlcTransmissionQueueSize ≤
        sub32 (sub32 size (rlcOverhead lcid)) (req.statusLeft size) then 0
      else req.rlcTransmissionQueueSize -
        sub32 (sub32 size (rlcOverhead lcid)) (req.statusLeft size) } :
    SchedDlRlcBufferReqParameters) = _
  rw [sub32_of_le (a := size) (by omega) hsize, sub32_of_le (by omega) (by omega)]
  split_ifs with hall
  · rw [Nat.sub_eq_zero_of_le hall]
  · rfl

/-- A call for a channel without data. -/
theorem takeFromQueues_idle (lcid size : Nat) (hretx : req.rlcRetransmissionQueueSize = 0)
    (htx : req.rlcTransmissionQueueSize = 0) :
    takeFromQueues lcid size req = { req with rlcStatusPduSize := req.statusLeft size } := by
  unfold takeFromQueues
  dsimp only
  rw [if_neg (by omega), if_neg (by omega)]
  rfl

/-- A call is right exactly if the grant is enough for the queue that is served. -/
theorem keepsDemand_iff (hsize : size < 2 ^ 32) :
    KeepsDemand lcid size req ↔ Suffices lcid size req := by
  have hleft : (0 < req.rlcStatusPduSize ∧ req.rlcStatusPduSize ≤ size ∧
      req.statusLeft size = 0) ∨
      (req.rlcStatusPduSize = 0 ∧ req.statusLeft size = 0) ∨
      (size < req.rlcStatusPduSize ∧ req.statusLeft size = req.rlcStatusPduSize) := by
    unfold statusLeft
    split_ifs <;> omega
  rcases Nat.eq_zero_or_pos req.rlcRetransmissionQueueSize with hretx | hretx
  · rcases Nat.eq_zero_or_pos req.rlcTransmissionQueueSize with htx | htx
    · -- nothing but the status PDU
      have htake := takeFromQueues_idle lcid size hretx htx
      refine ⟨fun _ => ⟨by omega, by omega⟩, fun _ => ⟨⟨by omega, by omega⟩, ?_, ?_, ?_, ?_, ?_⟩⟩
      all_goals
        simp only [htake, queued]
        omega
    · constructor
      · intro h
        have hwrap := h.noWrap.tx hretx htx
        have hlowered := h.lowered
        rw [takeFromQueues_tx hsize hretx htx hwrap] at hlowered
        unfold queued at hlowered
        dsimp only at hlowered
        exact ⟨by omega, by omega⟩
      · intro h
        obtain ⟨hoverhead, hstatus⟩ := h.tx hretx htx
        have hwrap : rlcOverhead lcid + req.statusLeft size ≤ size := by omega
        have htake := takeFromQueues_tx hsize hretx htx hwrap
        refine ⟨⟨by omega, fun _ _ => hwrap⟩, ?_, ?_, ?_, ?_, ?_⟩
        all_goals
          simp only [htake, queued]
          omega
  · constructor
    · intro h
      have hwrap := h.noWrap.retx hretx
      have hlowered := h.lowered
      rw [takeFromQueues_retx lcid hsize hretx hwrap] at hlowered
      unfold queued at hlowered
      dsimp only at hlowered
      exact ⟨by omega, by omega⟩
    · intro h
      have hstatus := h.retx hretx
      have hwrap : req.statusLeft size ≤ size := by omega
      have htake := takeFromQueues_retx lcid hsize hretx hwrap
      refine ⟨⟨fun _ => hwrap, by omega⟩, ?_, ?_, ?_, ?_, ?_⟩
      all_goals
        simp only [htake, queued]
        omega

end SchedDlRlcBufferReqParameters

open SchedDlRlcBufferReqParameters

/-! ## The calls for a block -/

/-- The entry that a call changes. -/
def entryOf (rnti lcid : Nat) (reqs : List SchedDlRlcBufferReqParameters) :
    Option SchedDlRlcBufferReqParameters :=
  reqs.find? fun req => req.rnti = rnti ∧ req.logicalChannelIdentity = lcid

/-- A call has no effect but on its entry. -/
theorem updateDlRlcBufferInfo_eq {rnti lcid size : Nat}
    (reqs : List SchedDlRlcBufferReqParameters) :
    updateDlRlcBufferInfo rnti lcid size reqs =
      match entryOf rnti lcid reqs with
      | none => reqs
      | some req => reqs.set (reqs.findIdx fun req =>
          req.rnti = rnti ∧ req.logicalChannelIdentity = lcid)
          (takeFromQueues lcid (size % 2 ^ 16) req) := by
  induction reqs with
  | nil => rfl
  | cons req rest ih =>
      unfold updateDlRlcBufferInfo entryOf
      rw [List.find?_cons, List.findIdx_cons]
      by_cases hreq : req.rnti = rnti ∧ req.logicalChannelIdentity = lcid
      · simp [hreq]
      · rw [if_neg hreq, ih]
        simp only [hreq, decide_false, cond_false]
        unfold entryOf
        cases rest.find? fun req =>
          decide (req.rnti = rnti ∧ req.logicalChannelIdentity = lcid) <;> rfl

/-- What a condition on the size and the entry of a call says of all calls for the PDUs of a block.
A PDU of no bytes stops the simulation. -/
def EveryCall (P : Nat → Nat → SchedDlRlcBufferReqParameters → Prop) (rnti : Nat) :
    List RlcPduInfo → List SchedDlRlcBufferReqParameters → Prop
  | [], _ => True
  | pdu :: rest, reqs =>
      0 < pdu.size →
        (subHdrSize ≤ pdu.size ∧ ∀ req, entryOf rnti pdu.lcid reqs = some req →
          P pdu.lcid (sub32 pdu.size subHdrSize % 2 ^ 16) req) ∧
        EveryCall P rnti rest
          (updateDlRlcBufferInfo rnti pdu.lcid (sub32 pdu.size subHdrSize) reqs)

/-- The calls are those of the loop over the PDUs. -/
theorem NewData.addPdus_rlcBufferReq {c : PaddedHbfConfig} {rnti harqId : Nat} {d d' : NewData}
    {pdus : List RlcPduInfo} (hok : pdus.foldlM (addPdu c rnti harqId) d = .ok d') :
    d'.rlcBufferReq = pdus.foldl (fun reqs pdu =>
      updateDlRlcBufferInfo rnti pdu.lcid (sub32 pdu.size subHdrSize) reqs) d.rlcBufferReq := by
  refine foldlM_view (fun d pdu d' hstep => ?_) hok
  unfold addPdu at hstep
  simp only [bind_eq_ok] at hstep
  obtain ⟨-, -, hstep⟩ := hstep
  split at hstep
  · simp only [bind_eq_ok, pure_eq_ok] at hstep
    obtain ⟨-, -, -, -, rfl⟩ := hstep
    rfl
  · obtain rfl := pure_eq_ok.1 hstep
    rfl

/-- The PDUs of a new block fit into it, and every call takes off what was granted. -/
def DemandKept (c : PaddedHbfConfig) (rnti mcs numSym : Nat) (pdus : List RlcPduInfo)
    (reqs : List SchedDlRlcBufferReqParameters) : Prop :=
  let tbSize := tbSizeOf c mcs numSym
  ((NewData.distribute tbSize pdus).map (·.size)).sum ≤ tbSize ∧
    EveryCall KeepsDemand rnti (NewData.distribute tbSize pdus) reqs

theorem everyCall_congr {P Q : Nat → Nat → SchedDlRlcBufferReqParameters → Prop} {rnti : Nat}
    (hiff : ∀ lcid size req, size < 2 ^ 32 → (P lcid size req ↔ Q lcid size req))
    (pdus : List RlcPduInfo) (reqs : List SchedDlRlcBufferReqParameters) :
    EveryCall P rnti pdus reqs ↔ EveryCall Q rnti pdus reqs := by
  induction pdus generalizing reqs with
  | nil => exact Iff.rfl
  | cons pdu rest ih =>
      unfold EveryCall
      have hsize : sub32 pdu.size subHdrSize % 2 ^ 16 < 2 ^ 32 :=
        Nat.lt_trans (Nat.mod_lt _ (by decide)) (by decide)
      simp only [ih, hiff _ _ _ hsize]

/-- The demand is kept exactly if every PDU of the block is longer than a subheader, and what is
granted is enough for the queue that is served. -/
theorem demandKept_iff (c : PaddedHbfConfig) (rnti mcs numSym : Nat) (pdus : List RlcPduInfo)
    (reqs : List SchedDlRlcBufferReqParameters) :
    DemandKept c rnti mcs numSym pdus reqs ↔
      EveryCall Suffices rnti (NewData.distribute (tbSizeOf c mcs numSym) pdus) reqs := by
  have hsum : ((NewData.distribute (tbSizeOf c mcs numSym) pdus).map (·.size)).sum ≤
      tbSizeOf c mcs numSym := by
    refine NewData.sum_distribute_le ?_ pdus
    unfold tbSizeOf
    have := Int.emod_nonneg ((c.amc.getTbSizeFromMcsSymbols mcs numSym).tdiv 8)
      (b := 2 ^ 32) (by decide)
    have := Int.emod_lt_of_pos ((c.amc.getTbSizeFromMcsSymbols mcs numSym).tdiv 8)
      (b := 2 ^ 32) (by decide)
    omega
  have hcalls : EveryCall KeepsDemand rnti (NewData.distribute (tbSizeOf c mcs numSym) pdus) reqs ↔
      EveryCall Suffices rnti (NewData.distribute (tbSizeOf c mcs numSym) pdus) reqs :=
    everyCall_congr (fun _ _ _ hsize => keepsDemand_iff hsize) _ _
  exact ⟨fun h => hcalls.1 h.2, fun h => ⟨hsum, hcalls.2 h⟩⟩

/-- A channel with a status PDU of 10 bytes and 100 bytes of data, in a block of 1000 bytes: 18
bytes are taken off for the 10 that are granted to the status PDU. -/
theorem not_demandKept_of_status_and_data :
    ∃ (c : PaddedHbfConfig) (req : SchedDlRlcBufferReqParameters), req.rlcStatusPduSize = 10 ∧
      req.rlcTransmissionQueueSize = 100 ∧ tbSizeOf c 5 10 = 1000 ∧
      ¬DemandKept c 1 5 10 (UeSchedInfo.addDl 5 false req {}).rlcPduInfo [req] := by
  refine ⟨{
    amc := {
      getMcsFromCqi := fun cqi => cqi
      getTbSizeFromMcsSymbols := fun _ numSym => 800 * numSym
      getNumSymbolsFromTbsMcs := fun tbSize _ => tbSize / 100
      createCqiFeedbackWbTdma := fun _ _ _ => (5, 10)
      scaleSymbols := fun available requested numSym => numSym * available / requested
      ofNan := 0 } }, ⟨1, 3, 100, 0, 10⟩, rfl, rfl, by decide, ?_⟩
  rintro ⟨-, hcalls⟩
  have hcall := (hcalls (by decide)).1.2 _ rfl
  exact absurd hcall.lowered (by decide)

end NtnIab.Mmwave
