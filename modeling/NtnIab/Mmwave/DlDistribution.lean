import Mathlib.Algebra.BigOperators.Group.List.Basic
import Mathlib.Tactic.Ring
import NtnIab.Mmwave.DemandReports
import NtnIab.Mmwave.PfDivision
import NtnIab.Mmwave.PfRecords

/-!
# The distribution of downlink blocks over the RLC queues

The blocks of a UE are filled with what its queues want, up to a share that is the same for all
queues that are not short. Allowances for headers are subtracted from what is handed out, in
unsigned numbers and without a look at how much there is, and a block that finds no queue is dropped
after its process was taken.

## Strategy

What is handed out does not depend on the buffers. So the loops are followed by a trace of
`HandOut`s (`fillPdus_eq`, `fillSlots_eq`), and the flows change along it. `Exact` says what is
claimed of a hand-out and `Suited` what it needs (`exact_iff_suited`).
-/

namespace NtnIab.Mmwave

open Fallible

/-! ## Hand-outs -/

/-- Bytes of a block are handed out: what is left of the block, the entry of the queue, and the
share of a queue. -/
structure HandOut where
  remTbSize : Nat
  pdu : RlcPduInfo
  avgPduSize : Nat
  deriving Repr, DecidableEq

namespace HandOut

/-- The entry, clipped to the share. -/
def size (h : HandOut) : Nat := min h.pdu.size h.avgPduSize

def given (h : HandOut) : Nat := min h.remTbSize h.size

/-- The size with which the buffers are updated. -/
def passed (h : HandOut) : Nat := sub32 h.given subHdrSize % 2 ^ 16

/-- The entry is larger than what is left of the block. -/
def Cut (h : HandOut) : Prop := h.remTbSize < h.size

instance (h : HandOut) : Decidable h.Cut := inferInstanceAs (Decidable (_ < _))

/-- The size of an entry that was cut. -/
def left (h : HandOut) : Nat := sub32 h.size (sub32 (sub32 h.remTbSize subHdrSize) 10)

def sent (h : HandOut) : RlcPduInfo :=
  ⟨h.pdu.lcid, if h.Cut then h.remTbSize % 2 ^ 16 else h.size⟩

end HandOut

/-- What is handed out of a block, and what is left of the queues. -/
def handOuts (avgPduSize : Nat) : Nat → List RlcPduInfo → List HandOut × List RlcPduInfo
  | _, [] => ([], [])
  | remTbSize, pdu :: rest =>
      if remTbSize = 0 then ([], pdu :: rest)
      else
        let h : HandOut := { remTbSize, pdu, avgPduSize }
        if h.Cut then ([h], ⟨pdu.lcid, h.left⟩ :: rest)
        else
          let more := handOuts avgPduSize (remTbSize - h.size) rest
          (h :: more.1, more.2)

/-- What is handed out of each of the blocks. -/
def slotHandOuts (avgPduSize : Nat) :
    List SlotAllocInfo → List RlcPduInfo → List (SlotAllocInfo × List HandOut)
  | [], _ => []
  | slot :: slots, pdus =>
      let filled := handOuts avgPduSize (toInt32 slot.dci.tbSize).toNat pdus
      (slot, filled.1) :: slotHandOuts avgPduSize slots filled.2

/-- Everything that is handed out, in order. -/
def allHandOuts (avgPduSize : Nat) (slots : List SlotAllocInfo) (pdus : List RlcPduInfo) :
    List HandOut :=
  (slotHandOuts avgPduSize slots pdus).flatMap (·.2)

def totalTbSize (slots : List SlotAllocInfo) : Nat := (slots.map (·.dci.tbSize)).sum % 2 ^ 32

namespace FlexTtiPf

/-- What is subtracted for the RLC header. -/
def dlOverhead (lcid : Nat) : Nat := if lcid = 1 then 4 else 2

/-- The downlink flows of a UE. -/
def dlFlows (rnti : Nat) (ues : OrderedMap UeSchedInfo) : Option (List FlowStats) :=
  (ues.find rnti).map (·.dl.flowStats)

/-! ## What is claimed -/

/-- No subtraction of a hand-out wraps. The entry does not grow, and the demand of its flow is
lowered by no more than the update is given, and cleared only if this covers it. -/
structure Exact (h : HandOut) (flow : FlowStats) : Prop where
  header : (h.passed : Int) = h.given - subHdrSize
  allowance : h.Cut → ((sub32 (sub32 h.remTbSize subHdrSize) 10 : Nat) : Int) =
    h.remTbSize - subHdrSize - 10
  clipped : h.Cut → (h.left : Int) = h.size - (h.remTbSize - subHdrSize - 10)
  shrinks : h.Cut → h.left ≤ h.pdu.size
  overhead : 0 < flow.totalBufSize →
    ((sub32 (h.passed - flow.rlcStatusPduSize) (dlOverhead h.pdu.lcid) : Nat) : Int) =
      (h.passed - flow.rlcStatusPduSize : Nat) - dlOverhead h.pdu.lcid
  lowered : flow.rlcStatusPduSize + flow.totalBufSize ≤
    (flow.takeDl h.pdu.lcid h.passed).rlcStatusPduSize +
      (flow.takeDl h.pdu.lcid h.passed).totalBufSize + h.passed
  cleared : (flow.takeDl h.pdu.lcid h.passed).totalBufSize = 0 → flow.totalBufSize ≤ h.passed

/-- What the hand-outs do to the flows, one after the other, and what holds of each and its flow
before it. -/
def Along (P : HandOut → FlowStats → Prop) : List HandOut → List FlowStats → Prop
  | [], _ => True
  | h :: rest, flows => (∀ flow ∈ flows[h.pdu.lcid]?, P h flow) ∧
      Along P rest (flows.modify h.pdu.lcid (FlowStats.takeDl h.pdu.lcid h.passed))

/-- The flows after some hand-outs. -/
def flowsAfter (hs : List HandOut) (flows : List FlowStats) : List FlowStats :=
  hs.foldl (fun flows h => flows.modify h.pdu.lcid (FlowStats.takeDl h.pdu.lcid h.passed)) flows

/-- The blocks of a UE are distributed exactly: the first loop takes no more for the short queues
than there is, every hand-out is exact, and every block is allocated with PDUs that fit in it. -/
structure DistributedWith (c : FlexTtiConfig) (rnti : Nat) (slots : List SlotAllocInfo)
    (pdus : List RlcPduInfo) (d : Grants (OrderedMap UeSchedInfo)) (avgPduSize : Nat)
    (result : List RlcPduInfo × Grants (OrderedMap UeSchedInfo)) : Prop where
  divides : Grants.avgPduSize (totalTbSize slots) pdus = .ok avgPduSize
  short : ((pdus.filter (·.size < totalTbSize slots / pdus.length % 2 ^ 16)).map (·.size)).sum ≤
    totalTbSize slots
  exact : ∀ flows ∈ dlFlows rnti d.buffers, Along Exact (allHandOuts avgPduSize slots pdus) flows
  ends : d.fillSlots c buffers rnti avgPduSize slots pdus = .ok result
  updated : ∀ flows ∈ dlFlows rnti d.buffers, dlFlows rnti result.2.buffers =
    some (flowsAfter (allHandOuts avgPduSize slots pdus) flows)
  allocated : ∃ added, result.2.subframe.slotAllocInfo = d.subframe.slotAllocInfo ++ added ∧
    added.map (·.dci) = slots.map (·.dci) ∧
    ∀ slot ∈ added, (slot.rlcPduInfo.map (·.size)).sum ≤ slot.dci.tbSize

def Distributed (c : FlexTtiConfig) (rnti : Nat) (slots : List SlotAllocInfo)
    (pdus : List RlcPduInfo) (d : Grants (OrderedMap UeSchedInfo)) : Prop :=
  ∃ avgPduSize result, DistributedWith c rnti slots pdus d avgPduSize result

/-- What a hand-out needs: four bytes for the header, fourteen if the entry is cut, and enough for
the status PDU and the RLC header, if something else waits on the flow. -/
structure Suited (h : HandOut) (flow : FlowStats) : Prop where
  header : subHdrSize ≤ h.given
  allowance : h.Cut → subHdrSize + 10 ≤ h.remTbSize
  overhead : 0 < flow.totalBufSize →
    flow.rlcStatusPduSize + dlOverhead h.pdu.lcid + subHdrSize ≤ h.given

/-- There is a queue, every hand-out has what it needs, and every block finds a queue. -/
def SuitedAll (rnti : Nat) (slots : List SlotAllocInfo) (pdus : List RlcPduInfo)
    (ues : OrderedMap UeSchedInfo) : Prop :=
  pdus ≠ [] ∧ ∀ avgPduSize, Grants.avgPduSize (totalTbSize slots) pdus = .ok avgPduSize →
    (∀ flows ∈ dlFlows rnti ues, Along Suited (allHandOuts avgPduSize slots pdus) flows) ∧
      ∀ filled ∈ slotHandOuts avgPduSize slots pdus, filled.2 ≠ []

/-- The UE has flows for the queues, and lists of PDUs for the processes of the blocks. -/
structure Prepared (c : FlexTtiConfig) (rnti : Nat) (slots : List SlotAllocInfo)
    (pdus : List RlcPduInfo) (d : Grants (OrderedMap UeSchedInfo)) : Prop where
  flows : ∃ flows, dlFlows rnti d.buffers = some flows ∧ ∀ pdu ∈ pdus, pdu.lcid < flows.length
  stored : c.harqOn = true → ∀ slot ∈ slots,
    (processOf d.harq.dlHarqProcessesRlcPduMap rnti slot.dci.harqProcess).isSome

/-! ## One hand-out -/

theorem sub32_eq_iff {a b : Nat} (ha : a < 2 ^ 32) (hb : b ≤ 2 ^ 32) :
    ((sub32 a b : Nat) : Int) = (a : Int) - b ↔ b ≤ a := by
  unfold sub32
  omega

theorem header_iff {given : Nat} (hgiven : given < 2 ^ 16) :
    ((sub32 given subHdrSize % 2 ^ 16 : Nat) : Int) = given - subHdrSize ↔
      subHdrSize ≤ given := by
  unfold sub32 subHdrSize
  omega

theorem allowance_iff {rem : Nat} (hrem : rem < 2 ^ 16) :
    ((sub32 (sub32 rem subHdrSize) 10 : Nat) : Int) = rem - subHdrSize - 10 ↔
      subHdrSize + 10 ≤ rem := by
  unfold sub32 subHdrSize
  omega

theorem sub32_allowance {rem : Nat} (hrem : rem < 2 ^ 16) (hle : subHdrSize + 10 ≤ rem) :
    sub32 (sub32 rem subHdrSize) 10 = rem - 14 := by
  unfold sub32 subHdrSize at *
  omega

theorem takeDl_rlcStatusPduSize (lcid size : Nat) (flow : FlowStats) :
    (flow.takeDl lcid size).rlcStatusPduSize = flow.rlcStatusPduSize - size := rfl

/-- A size that covers the status PDU and the RLC header lowers the queue by what it has beyond
these. -/
theorem takeDl_totalBufSize {lcid size : Nat} {flow : FlowStats} (hlt : size < 2 ^ 16)
    (hle : flow.rlcStatusPduSize + dlOverhead lcid ≤ size) :
    (flow.takeDl lcid size).totalBufSize =
      flow.totalBufSize - (size - flow.rlcStatusPduSize - dlOverhead lcid) := by
  have hsent : sub32 (size - flow.rlcStatusPduSize) (if lcid = 1 then 4 else 2) =
      size - flow.rlcStatusPduSize - dlOverhead lcid := by
    change sub32 _ (dlOverhead lcid) = _
    exact sub32_of_le (by omega) (by omega)
  unfold FlowStats.takeDl
  dsimp only
  rw [hsent]
  split <;> omega

theorem takeDl_of_empty {lcid size : Nat} {flow : FlowStats} (hnone : flow.totalBufSize = 0) :
    (flow.takeDl lcid size).totalBufSize = 0 := by
  unfold FlowStats.takeDl
  dsimp only
  rw [hnone, if_pos (Nat.zero_le _)]

/-- A hand-out is exact exactly if it has what it needs. -/
theorem exact_iff_suited {h : HandOut} {flow : FlowStats} (havg : h.avgPduSize < 2 ^ 16) :
    Exact h flow ↔ Suited h flow := by
  have hsize : h.size < 2 ^ 16 := Nat.lt_of_le_of_lt (Nat.min_le_right _ _) havg
  have hgiven : h.given < 2 ^ 16 := Nat.lt_of_le_of_lt (Nat.min_le_right _ _) hsize
  have hpassed : subHdrSize ≤ h.given → h.passed + subHdrSize = h.given := by
    intro hle
    have heq := (header_iff hgiven).2 hle
    change (h.passed : Int) = _ at heq
    omega
  have hlt : h.passed < 2 ^ 16 := Nat.mod_lt _ (by decide)
  have hpositive : 0 < dlOverhead h.pdu.lcid ∧ dlOverhead h.pdu.lcid ≤ 2 ^ 32 := by
    unfold dlOverhead
    split <;> omega
  constructor
  · intro hexact
    have hheader := (header_iff hgiven).1 hexact.header
    refine ⟨hheader, fun hcut => ?_, fun hwaits => ?_⟩
    · exact (allowance_iff (Nat.lt_trans hcut hsize)).1 (hexact.allowance hcut)
    · have hle := (sub32_eq_iff (by omega) hpositive.2).1 (hexact.overhead hwaits)
      have hsum := hpassed hheader
      omega
  · intro hsuited
    have hsum := hpassed hsuited.header
    have hkept : h.Cut → h.left = h.size - (h.remTbSize - 14) := by
      intro hcut
      have hrem : h.remTbSize < 2 ^ 16 := Nat.lt_trans hcut hsize
      unfold HandOut.left
      rw [sub32_allowance hrem (hsuited.allowance hcut)]
      have hcut : h.remTbSize < h.size := hcut
      exact sub32_of_le (by omega) (by omega)
    have hstatus := takeDl_rlcStatusPduSize h.pdu.lcid h.passed flow
    -- the queue is empty, or the update covers the status PDU and the header
    have hqueue : flow.totalBufSize = 0 ∧
          (flow.takeDl h.pdu.lcid h.passed).totalBufSize = 0 ∨
        flow.rlcStatusPduSize + dlOverhead h.pdu.lcid ≤ h.passed ∧
          (flow.takeDl h.pdu.lcid h.passed).totalBufSize =
            flow.totalBufSize - (h.passed - flow.rlcStatusPduSize - dlOverhead h.pdu.lcid) := by
      rcases Nat.eq_zero_or_pos flow.totalBufSize with hnone | hwaits
      · exact Or.inl ⟨hnone, takeDl_of_empty hnone⟩
      · have hle : flow.rlcStatusPduSize + dlOverhead h.pdu.lcid ≤ h.passed := by
          have := hsuited.overhead hwaits
          omega
        exact Or.inr ⟨hle, takeDl_totalBufSize hlt hle⟩
    refine ⟨(header_iff hgiven).2 hsuited.header, fun hcut => ?_, fun hcut => ?_, fun hcut => ?_,
      fun hwaits => ?_, by omega, fun hempty => by omega⟩
    · exact (allowance_iff (Nat.lt_trans hcut hsize)).2 (hsuited.allowance hcut)
    · have hallowance : 14 ≤ h.remTbSize := hsuited.allowance hcut
      have hcut' : h.remTbSize < h.size := hcut
      rw [hkept hcut]
      unfold subHdrSize
      omega
    · rw [hkept hcut]
      exact Nat.le_trans (Nat.sub_le _ _) (Nat.min_le_left _ _)
    · refine (sub32_eq_iff (by omega) hpositive.2).2 ?_
      rcases hqueue with ⟨hnone, -⟩ | ⟨hle, -⟩
      · omega
      · omega

/-! ## The trace -/

section

variable {P Q : HandOut → FlowStats → Prop} {hs : List HandOut} {flows : List FlowStats}

theorem along_congr (hiff : ∀ h ∈ hs, ∀ flow, P h flow ↔ Q h flow) :
    Along P hs flows ↔ Along Q hs flows := by
  induction hs generalizing flows with
  | nil => exact Iff.rfl
  | cons h rest ih =>
      refine and_congr ?_ (ih fun other hother => hiff other (List.mem_cons_of_mem _ hother))
      exact forall_congr' fun flow => imp_congr_right fun _ => hiff h List.mem_cons_self flow

theorem length_flowsAfter : (flowsAfter hs flows).length = flows.length := by
  unfold flowsAfter
  induction hs generalizing flows with
  | nil => rfl
  | cons h rest ih => rw [List.foldl_cons, ih, List.length_modify]

/-- What holds along the flows holds of every hand-out and some flow. -/
theorem Along.exists (hall : Along P hs flows) (hlcid : ∀ h ∈ hs, h.pdu.lcid < flows.length) :
    ∀ h ∈ hs, ∃ flow, P h flow := by
  induction hs generalizing flows with
  | nil => exact fun h hmem => (List.not_mem_nil hmem).elim
  | cons first rest ih =>
      intro h hmem
      rcases List.mem_cons.1 hmem with rfl | hrest
      · have hlt := hlcid h List.mem_cons_self
        exact ⟨flows[h.pdu.lcid], hall.1 _ (List.getElem?_eq_getElem hlt)⟩
      · refine ih hall.2 (fun other hother => ?_) h hrest
        rw [List.length_modify]
        exact hlcid other (List.mem_cons_of_mem _ hother)

end

section

variable {avgPduSize remTbSize : Nat} {pdus : List RlcPduInfo} {slots : List SlotAllocInfo}

theorem handOuts_cons {pdu : RlcPduInfo} (hrem : remTbSize ≠ 0) :
    handOuts avgPduSize remTbSize (pdu :: pdus) =
      if HandOut.Cut { remTbSize, pdu, avgPduSize } then
        ([{ remTbSize, pdu, avgPduSize }],
          ⟨pdu.lcid, HandOut.left { remTbSize, pdu, avgPduSize }⟩ :: pdus)
      else
        ({ remTbSize, pdu, avgPduSize } ::
            (handOuts avgPduSize (remTbSize - min pdu.size avgPduSize) pdus).1,
          (handOuts avgPduSize (remTbSize - min pdu.size avgPduSize) pdus).2) := by
  rw [handOuts, if_neg hrem]
  rfl

variable (avgPduSize remTbSize pdus) in
/-- The hand-outs have the share that they were made with, and go to the channels of the
entries. -/
theorem handOuts_spec :
    (∀ h ∈ (handOuts avgPduSize remTbSize pdus).1,
      h.avgPduSize = avgPduSize ∧ ∃ pdu ∈ pdus, h.pdu.lcid = pdu.lcid) ∧
    ∀ left ∈ (handOuts avgPduSize remTbSize pdus).2, ∃ pdu ∈ pdus, left.lcid = pdu.lcid := by
  induction pdus generalizing remTbSize with
  | nil => exact ⟨fun _ h => (List.not_mem_nil h).elim, fun _ h => (List.not_mem_nil h).elim⟩
  | cons pdu rest ih =>
      by_cases hrem : remTbSize = 0
      · rw [handOuts, if_pos hrem]
        exact ⟨fun _ h => (List.not_mem_nil h).elim, fun left hleft => ⟨left, hleft, rfl⟩⟩
      · rw [handOuts_cons hrem]
        split
        · refine ⟨fun h hmem => ?_, fun left hmem => ?_⟩
          · obtain rfl := List.mem_singleton.1 hmem
            exact ⟨rfl, pdu, List.mem_cons_self, rfl⟩
          · rcases List.mem_cons.1 hmem with rfl | hrest
            · exact ⟨pdu, List.mem_cons_self, rfl⟩
            · exact ⟨left, List.mem_cons_of_mem _ hrest, rfl⟩
        · obtain ⟨hout, hleft⟩ := ih (remTbSize - min pdu.size avgPduSize)
          refine ⟨fun h hmem => ?_, fun left hmem => ?_⟩
          · rcases List.mem_cons.1 hmem with rfl | hrest
            · exact ⟨rfl, pdu, List.mem_cons_self, rfl⟩
            · obtain ⟨havg, other, hother, hlcid⟩ := hout h hrest
              exact ⟨havg, other, List.mem_cons_of_mem _ hother, hlcid⟩
          · obtain ⟨other, hother, hlcid⟩ := hleft left hmem
            exact ⟨other, List.mem_cons_of_mem _ hother, hlcid⟩

theorem allHandOuts_spec :
    ∀ h ∈ allHandOuts avgPduSize slots pdus,
      h.avgPduSize = avgPduSize ∧ ∃ pdu ∈ pdus, h.pdu.lcid = pdu.lcid := by
  unfold allHandOuts
  induction slots generalizing pdus with
  | nil => exact fun _ h => (List.not_mem_nil h).elim
  | cons slot rest ih =>
      obtain ⟨hout, hleft⟩ := handOuts_spec avgPduSize
        (toInt32 slot.dci.tbSize).toNat pdus
      intro h hmem
      rw [slotHandOuts, List.flatMap_cons, List.mem_append] at hmem
      rcases hmem with hfirst | hrest
      · exact hout h hfirst
      · obtain ⟨havg, pdu, hpdu, hlcid⟩ := ih h hrest
        obtain ⟨other, hother, hsame⟩ := hleft pdu hpdu
        exact ⟨havg, other, hother, hlcid.trans hsame⟩

variable (avgPduSize remTbSize pdus) in
/-- What is put in a block fits in it. -/
theorem sum_sent_le :
    ((handOuts avgPduSize remTbSize pdus).1.map fun h => h.sent.size).sum ≤ remTbSize := by
  induction pdus generalizing remTbSize with
  | nil => exact Nat.zero_le _
  | cons pdu rest ih =>
      by_cases hrem : remTbSize = 0
      · rw [handOuts, if_pos hrem]
        exact Nat.zero_le _
      · rw [handOuts_cons hrem]
        split
        · rename_i hcut
          have hsent : (HandOut.sent { remTbSize, pdu, avgPduSize }).size =
              remTbSize % 2 ^ 16 := if_pos hcut
          simp only [List.map_cons, List.map_nil, List.sum_cons, List.sum_nil, hsent]
          exact Nat.mod_le _ _
        · rename_i hwhole
          have hsent : (HandOut.sent { remTbSize, pdu, avgPduSize }).size =
              min pdu.size avgPduSize := if_neg hwhole
          have hle : min pdu.size avgPduSize ≤ remTbSize := not_lt.1 hwhole
          have hrest := ih (remTbSize - min pdu.size avgPduSize)
          simp only [List.map_cons, List.sum_cons, hsent]
          omega

end

/-! ## The share -/

/-- The short queues get no more than there is. -/
theorem sum_short_le {total : Nat} (pdus : List RlcPduInfo) :
    ((pdus.filter (·.size < total / pdus.length % 2 ^ 16)).map (·.size)).sum ≤ total := by
  have hbound : ∀ size ∈
      (pdus.filter (·.size < total / pdus.length % 2 ^ 16)).map (·.size),
      size ≤ total / pdus.length := by
    intro size hsize
    obtain ⟨pdu, hpdu, rfl⟩ := List.mem_map.1 hsize
    have hlt := of_decide_eq_true (List.mem_filter.1 hpdu).2
    exact Nat.le_of_lt (Nat.lt_of_lt_of_le hlt (Nat.mod_le _ _))
  calc ((pdus.filter (·.size < total / pdus.length % 2 ^ 16)).map (·.size)).sum
      ≤ ((pdus.filter (·.size < total / pdus.length % 2 ^ 16)).map (·.size)).length *
          (total / pdus.length) := by
        simpa using List.sum_le_card_nsmul _ _ hbound
    _ ≤ pdus.length * (total / pdus.length) := by
        refine Nat.mul_le_mul_right _ ?_
        rw [List.length_map]
        exact List.length_filter_le _ _
    _ ≤ total := Nat.mul_div_le _ _

theorem avgPduSize_lt {total avgPduSize : Nat} {pdus : List RlcPduInfo}
    (hok : Grants.avgPduSize total pdus = .ok avgPduSize) : pdus ≠ [] ∧ avgPduSize < 2 ^ 16 := by
  unfold Grants.avgPduSize at hok
  split_ifs at hok with hnil
  dsimp only at hok
  refine ⟨hnil, ?_⟩
  split_ifs at hok
  · exact Except.ok.inj hok ▸ Nat.mod_lt _ (by decide)
  · exact Except.ok.inj hok ▸ Nat.mod_lt _ (by decide)

theorem exists_avgPduSize (total : Nat) {pdus : List RlcPduInfo} (hsome : pdus ≠ []) :
    ∃ avgPduSize, Grants.avgPduSize total pdus = .ok avgPduSize := by
  unfold Grants.avgPduSize
  rw [if_neg hsome]
  dsimp only
  split_ifs
  · exact ⟨_, rfl⟩
  · exact ⟨_, rfl⟩

/-! ## The loops follow the trace -/

/-- The slots that are allocated: those in which something is. -/
def allocatedOf (filled : List (SlotAllocInfo × List HandOut)) : List SlotAllocInfo :=
  filled.flatMap fun entry =>
    if entry.2 = [] then [] else [{ entry.1 with rlcPduInfo := entry.2.map HandOut.sent }]

section

variable {c : FlexTtiConfig} {rnti harqId avgPduSize : Nat} {flows : List FlowStats}
  {d : Grants (OrderedMap UeSchedInfo)}

theorem updateDl_ok {lcid : Nat} (size : Nat) {ues : OrderedMap UeSchedInfo}
    (hflows : dlFlows rnti ues = some flows) (hlcid : lcid < flows.length) :
    ∃ ues', buffers.updateDl rnti lcid size ues = .ok ues' ∧
      dlFlows rnti ues' = some (flows.modify lcid (FlowStats.takeDl lcid size)) := by
  obtain ⟨ue, hfind, rfl⟩ := Option.map_eq_some_iff.1 hflows
  have hflow := List.getElem?_eq_getElem hlcid
  refine ⟨ues.adjust rnti fun other => { other with
    dl.flowStats := other.dl.flowStats.set lcid (ue.dl.flowStats[lcid].takeDl lcid size) },
    ?_, ?_⟩
  · show updateDlRlcBufferInfo rnti lcid size ues = _
    unfold updateDlRlcBufferInfo
    rw [hfind]
    dsimp only
    rw [elementAt_eq_ok.2 hflow]
    rfl
  · unfold dlFlows
    rw [OrderedMap.find_adjust, if_pos rfl, hfind, ← set_eq_modify hflow]
    rfl

variable (d) in
theorem storePdu_ok (pdu : RlcPduInfo) (hstored : c.harqOn = true →
      (processOf d.harq.dlHarqProcessesRlcPduMap rnti harqId).isSome) :
    ∃ d', d.storePdu c rnti harqId pdu = .ok d' ∧ d'.subframe = d.subframe ∧
      d'.buffers = d.buffers ∧ ∀ id,
        (processOf d'.harq.dlHarqProcessesRlcPduMap rnti id).isSome =
          (processOf d.harq.dlHarqProcessesRlcPduMap rnti id).isSome := by
  unfold Grants.storePdu
  by_cases hon : c.harqOn = true
  · rw [if_pos hon]
    obtain ⟨stored, hprocess⟩ := Option.isSome_iff_exists.1 (hstored hon)
    obtain ⟨pdus, hfind, hstored⟩ := processOf_eq_some_iff.1 hprocess
    let harq := { d.harq with
      dlHarqProcessesRlcPduMap :=
        setProcess d.harq.dlHarqProcessesRlcPduMap rnti harqId (stored ++ [pdu]) }
    refine ⟨{ d with harq }, ?_, rfl, rfl, fun id => ?_⟩
    · rw [lookUp_eq_ok.2 hfind, ok_bind, elementAt_eq_ok.2 hstored]
      rfl
    · dsimp only [harq]
      rw [processOf_setProcess]
      split
      · exact Option.isSome_map
      · rfl
  · rw [if_neg hon]
    exact ⟨d, rfl, rfl, rfl, fun _ => rfl⟩

variable (harqId) in
/-- The loop over the queues for one block follows the trace, and keeps what the next block
needs. -/
theorem fillPdus_eq {remTbSize : Nat} {pdus : List RlcPduInfo}
    (hflows : dlFlows rnti d.buffers = some flows)
    (hlcid : ∀ pdu ∈ pdus, pdu.lcid < flows.length)
    (hstored : c.harqOn = true →
      (processOf d.harq.dlHarqProcessesRlcPduMap rnti harqId).isSome)
    (hsize : ∀ h ∈ (handOuts avgPduSize remTbSize pdus).1, 0 < h.size) :
    ∃ d', d.fillPdus c buffers rnti harqId avgPduSize remTbSize pdus =
        .ok ((handOuts avgPduSize remTbSize pdus).1.map HandOut.sent,
          (handOuts avgPduSize remTbSize pdus).2, d') ∧
      d'.subframe = d.subframe ∧
      dlFlows rnti d'.buffers =
        some (flowsAfter (handOuts avgPduSize remTbSize pdus).1 flows) ∧
      ∀ id, (processOf d'.harq.dlHarqProcessesRlcPduMap rnti id).isSome =
        (processOf d.harq.dlHarqProcessesRlcPduMap rnti id).isSome := by
  induction pdus generalizing remTbSize d flows with
  | nil => exact ⟨d, rfl, rfl, hflows, fun _ => rfl⟩
  | cons pdu rest ih =>
      by_cases hrem : remTbSize = 0
      · rw [Grants.fillPdus, if_pos hrem, handOuts, if_pos hrem]
        exact ⟨d, rfl, rfl, hflows, fun _ => rfl⟩
      · have hfirst : { remTbSize, pdu, avgPduSize } ∈
            (handOuts avgPduSize remTbSize (pdu :: rest)).1 := by
          rw [handOuts_cons hrem]
          split <;> exact List.mem_cons_self
        have hpositive : 0 < min pdu.size avgPduSize := hsize _ hfirst
        obtain ⟨ues', hupdate, hflows'⟩ := updateDl_ok
          (HandOut.passed { remTbSize, pdu, avgPduSize }) hflows (hlcid pdu List.mem_cons_self)
        obtain ⟨d', hstore, hsubframe, hbuffers, hsame⟩ := storePdu_ok
          { d with buffers := ues' } (HandOut.sent { remTbSize, pdu, avgPduSize }) hstored
        rw [Grants.fillPdus, if_neg hrem]
        dsimp only
        have hupdate' : buffers.updateDl rnti pdu.lcid
            (sub32 (min remTbSize (min pdu.size avgPduSize)) subHdrSize % 2 ^ 16) d.buffers =
              .ok ues' := hupdate
        rw [assert_eq_ok (u := ()) |>.2 hpositive, ok_bind, hupdate', ok_bind]
        have hflows'' : dlFlows rnti d'.buffers = some (flows.modify pdu.lcid
            (FlowStats.takeDl pdu.lcid (HandOut.passed { remTbSize, pdu, avgPduSize }))) := by
          rw [hbuffers]
          exact hflows'
        rw [handOuts_cons hrem] at hsize ⊢
        by_cases hcut : remTbSize < min pdu.size avgPduSize
        · have hcut' : HandOut.Cut { remTbSize, pdu, avgPduSize } := hcut
          have hsent : HandOut.sent { remTbSize, pdu, avgPduSize } =
              ⟨pdu.lcid, remTbSize % 2 ^ 16⟩ := by
            unfold HandOut.sent
            rw [if_pos hcut']
          rw [hsent] at hstore
          rw [if_pos hcut, if_pos hcut', hstore]
          refine ⟨d', ?_, hsubframe, hflows'', hsame⟩
          rw [List.map_cons, hsent]
          rfl
        · have hwhole : ¬ HandOut.Cut { remTbSize, pdu, avgPduSize } := hcut
          have hsent : HandOut.sent { remTbSize, pdu, avgPduSize } =
              ⟨pdu.lcid, min pdu.size avgPduSize⟩ := by
            unfold HandOut.sent
            rw [if_neg hwhole]
            rfl
          rw [if_neg hwhole] at hsize
          obtain ⟨d'', hrest, hsubframe', hflows', hsame'⟩ :=
            ih (d := d') hflows''
              (fun other hother => by
                rw [List.length_modify]
                exact hlcid other (List.mem_cons_of_mem _ hother))
              (fun hon => by rw [hsame]; exact hstored hon)
              (fun h hmem => hsize h (List.mem_cons_of_mem _ hmem))
          rw [hsent] at hstore
          rw [if_neg hcut, if_neg hwhole, hstore, ok_bind, hrest]
          refine ⟨d'', ?_, hsubframe'.trans hsubframe, hflows',
            fun id => (hsame' id).trans (hsame id)⟩
          rw [List.map_cons, hsent]
          rfl

/-- The loop over the blocks follows the trace, and allocates those in which something is. -/
theorem fillSlots_eq {slots : List SlotAllocInfo} {pdus : List RlcPduInfo}
    (hflows : dlFlows rnti d.buffers = some flows)
    (hlcid : ∀ pdu ∈ pdus, pdu.lcid < flows.length)
    (hstored : c.harqOn = true → ∀ slot ∈ slots,
      (processOf d.harq.dlHarqProcessesRlcPduMap rnti slot.dci.harqProcess).isSome)
    (hsize : ∀ h ∈ allHandOuts avgPduSize slots pdus, 0 < h.size) :
    ∃ result, d.fillSlots c buffers rnti avgPduSize slots pdus = .ok result ∧
      result.2.subframe.slotAllocInfo =
        d.subframe.slotAllocInfo ++ allocatedOf (slotHandOuts avgPduSize slots pdus) ∧
      dlFlows rnti result.2.buffers =
        some (flowsAfter (allHandOuts avgPduSize slots pdus) flows) := by
  induction slots generalizing pdus d flows with
  | nil => exact ⟨(pdus, d), rfl, (List.append_nil _).symm, hflows⟩
  | cons slot rest ih =>
      have hall : ∀ h, h ∈ (handOuts avgPduSize (toInt32 slot.dci.tbSize).toNat pdus).1 ∨
          h ∈ allHandOuts avgPduSize rest
            (handOuts avgPduSize (toInt32 slot.dci.tbSize).toNat pdus).2 → 0 < h.size := by
        intro h hmem
        refine hsize h ?_
        unfold allHandOuts
        rw [slotHandOuts, List.flatMap_cons, List.mem_append]
        exact hmem
      obtain ⟨d', hfilled, hsubframe, hflows', hsame⟩ :=
        fillPdus_eq slot.dci.harqProcess hflows hlcid
          (fun hon => hstored hon slot List.mem_cons_self) fun h hmem => hall h (Or.inl hmem)
      rw [Grants.fillSlots, hfilled, ok_bind]
      dsimp only
      obtain ⟨result, hrest, hslots, hafter⟩ := ih
        (d := Grants.allocateDl slot
          ((handOuts avgPduSize (toInt32 slot.dci.tbSize).toNat pdus).1.map HandOut.sent) d')
        hflows'
        (fun left hleft => by
          obtain ⟨pdu, hpdu, hsamelcid⟩ := (handOuts_spec _ _ _).2 left hleft
          rw [length_flowsAfter, hsamelcid]
          exact hlcid pdu hpdu)
        (fun hon other hother => by
          show (processOf d'.harq.dlHarqProcessesRlcPduMap rnti _).isSome
          rw [hsame]
          exact hstored hon other (List.mem_cons_of_mem _ hother))
        fun h hmem => hall h (Or.inr hmem)
      refine ⟨result, hrest, ?_, ?_⟩
      · rw [hslots, slotHandOuts]
        unfold Grants.allocateDl allocatedOf
        dsimp only
        rw [hsubframe, List.flatMap_cons]
        dsimp only
        by_cases hnone : (handOuts avgPduSize (toInt32 slot.dci.tbSize).toNat pdus).1 = []
        · rw [if_pos hnone, hnone, List.map_nil, if_pos rfl, List.nil_append]
        · rw [if_neg hnone, if_neg (by simpa using hnone), List.append_assoc]
      · rw [hafter]
        unfold allHandOuts flowsAfter
        rw [slotHandOuts, List.flatMap_cons, List.foldl_append]

end

/-! ## What is allocated -/

section

variable {avgPduSize : Nat} {slots : List SlotAllocInfo} {pdus : List RlcPduInfo}

variable (avgPduSize slots pdus) in
theorem slotHandOuts_fst : (slotHandOuts avgPduSize slots pdus).map Prod.fst = slots := by
  induction slots generalizing pdus with
  | nil => rfl
  | cons slot rest ih => rw [slotHandOuts, List.map_cons, ih]

/-- The PDUs of an allocated slot fit in its block. -/
theorem sum_allocated_le : ∀ slot ∈ allocatedOf (slotHandOuts avgPduSize slots pdus),
    (slot.rlcPduInfo.map (·.size)).sum ≤ slot.dci.tbSize := by
  unfold allocatedOf
  induction slots generalizing pdus with
  | nil => exact fun _ h => (List.not_mem_nil h).elim
  | cons slot rest ih =>
      intro other hother
      rw [slotHandOuts, List.flatMap_cons, List.mem_append] at hother
      rcases hother with hfirst | hrest
      · dsimp only at hfirst
        split at hfirst
        · exact (List.not_mem_nil hfirst).elim
        · obtain rfl := List.mem_singleton.1 hfirst
          dsimp only
          rw [List.map_map]
          have hsum := sum_sent_le avgPduSize (toInt32 slot.dci.tbSize).toNat pdus
          refine Nat.le_trans hsum ?_
          unfold toInt32
          split <;> omega
      · exact ih other hrest

/-- Every slot is allocated exactly if something is in each. -/
theorem dci_allocatedOf_iff (filled : List (SlotAllocInfo × List HandOut)) :
    (allocatedOf filled).map (·.dci) = filled.map (·.1.dci) ↔ ∀ entry ∈ filled, entry.2 ≠ [] := by
  constructor
  · intro hdci
    have hlength : (allocatedOf filled).length = filled.length := by
      simpa using congrArg List.length hdci
    have hcount : (allocatedOf filled).length = filled.countP fun entry => !entry.2.isEmpty := by
      unfold allocatedOf
      clear hdci hlength
      induction filled with
      | nil => rfl
      | cons entry rest ih =>
          rw [List.flatMap_cons, List.length_append, ih, List.countP_cons]
          by_cases hnone : entry.2 = []
          · simp [hnone]
          · simp [hnone, Nat.add_comm]
    rw [hcount, List.countP_eq_length] at hlength
    intro entry hentry
    simpa using hlength entry hentry
  · intro hall
    unfold allocatedOf
    induction filled with
    | nil => rfl
    | cons entry rest ih =>
        rw [List.flatMap_cons, List.map_append, if_neg (hall entry List.mem_cons_self),
          ih fun other hother => hall other (List.mem_cons_of_mem _ hother)]
        rfl

end

/-- The blocks of a UE are distributed exactly if and only if there is a queue, every hand-out has
what it needs, and every block finds a queue. -/
theorem distributed_iff_suitedAll (c : FlexTtiConfig) (rnti : Nat) (slots : List SlotAllocInfo)
    (pdus : List RlcPduInfo) (d : Grants (OrderedMap UeSchedInfo))
    (hprepared : Prepared c rnti slots pdus d) :
    Distributed c rnti slots pdus d ↔ SuitedAll rnti slots pdus d.buffers := by
  obtain ⟨flows, hflows, hlcid⟩ := hprepared.flows
  have hsizes : ∀ avgPduSize, Along Suited (allHandOuts avgPduSize slots pdus) flows →
      ∀ h ∈ allHandOuts avgPduSize slots pdus, 0 < h.size := by
    intro avgPduSize hsuited h hmem
    obtain ⟨flow, hflow⟩ := hsuited.exists (fun other hother => by
      obtain ⟨-, pdu, hpdu, hsame⟩ := allHandOuts_spec other hother
      exact hsame ▸ hlcid pdu hpdu) h hmem
    have hgiven : 4 ≤ h.given := hflow.header
    have hle : h.given ≤ h.size := Nat.min_le_right _ _
    omega
  have hiff : ∀ avgPduSize, avgPduSize < 2 ^ 16 →
      (Along Exact (allHandOuts avgPduSize slots pdus) flows ↔
        Along Suited (allHandOuts avgPduSize slots pdus) flows) := by
    intro avgPduSize hlt
    refine along_congr fun h hmem flow => exact_iff_suited ?_
    rw [(allHandOuts_spec h hmem).1]
    exact hlt
  have hdcis : ∀ avgPduSize,
      (slotHandOuts avgPduSize slots pdus).map (·.1.dci) = slots.map (·.dci) := by
    intro avgPduSize
    have hslots := slotHandOuts_fst avgPduSize slots pdus
    calc (slotHandOuts avgPduSize slots pdus).map (·.1.dci)
        = ((slotHandOuts avgPduSize slots pdus).map Prod.fst).map (·.dci) :=
          (List.map_map).symm
      _ = slots.map (·.dci) := by rw [hslots]
  constructor
  · rintro ⟨avgPduSize, result, h⟩
    obtain ⟨hsome, hlt⟩ := avgPduSize_lt h.divides
    refine ⟨hsome, fun other hother => ?_⟩
    obtain rfl : avgPduSize = other := Except.ok.inj (h.divides.symm.trans hother)
    have hsuited := (hiff avgPduSize hlt).1 (h.exact flows hflows)
    refine ⟨fun flows' hflows' => ?_, ?_⟩
    · obtain rfl : flows = flows' := Option.some.inj (hflows.symm.trans hflows')
      exact hsuited
    · obtain ⟨result', hresult', hslots, -⟩ :=
        fillSlots_eq hflows hlcid hprepared.stored (hsizes avgPduSize hsuited)
      obtain rfl : result = result' := Except.ok.inj (h.ends.symm.trans hresult')
      obtain ⟨added, hadded, hdci, -⟩ := h.allocated
      rw [hslots] at hadded
      obtain rfl := List.append_cancel_left hadded
      exact (dci_allocatedOf_iff _).1 (hdci.trans (hdcis avgPduSize).symm)
  · rintro ⟨hsome, hall⟩
    obtain ⟨avgPduSize, havg⟩ := exists_avgPduSize (totalTbSize slots) hsome
    obtain ⟨hsuited, hfull⟩ := hall avgPduSize havg
    obtain ⟨result, hresult, hslots, hafter⟩ := fillSlots_eq hflows hlcid hprepared.stored
      (hsizes avgPduSize (hsuited flows hflows))
    refine ⟨avgPduSize, result, havg, sum_short_le pdus, fun flows' hflows' => ?_, hresult,
      fun flows' hflows' => ?_, _, hslots, ?_, sum_allocated_le⟩
    · obtain rfl : flows = flows' := Option.some.inj (hflows.symm.trans hflows')
      exact (hiff avgPduSize (avgPduSize_lt havg).2).2 (hsuited flows hflows)
    · obtain rfl : flows = flows' := Option.some.inj (hflows.symm.trans hflows')
      exact hafter
    · exact ((dci_allocatedOf_iff _).2 hfull).trans (hdcis avgPduSize)

/-- A UE whose downlink flow 3 has what is given, and nothing in the subframe yet. -/
def grantsOf (flow : FlowStats) : Grants (OrderedMap UeSchedInfo) where
  harq := configured.harq
  subframe := { symAvail := 10, symIdx := 1, busy := {} }
  buffers := configured.ueSchedInfoMap.adjust 1 fun ue => { ue with
    dl.flowStats := ue.dl.flowStats.set 3 flow }
  ulAllocationMap := []
  tbUid := 0

/-- A block of 100 bytes for the UE. -/
def hundredBytes : SlotAllocInfo where
  tddMode := .dl
  slotType := .ctrlData
  rnti := some 1
  dci := { rnti := 1, tbSize := 100 }

theorem prepared_grantsOf (flow : FlowStats) :
    Prepared tenBytes 1 [hundredBytes] [⟨3, 14⟩, ⟨3, 1017⟩] (grantsOf flow) where
  flows := by
    refine ⟨_, rfl, ?_⟩
    simp [newUe, growFlows]
  stored := by
    have hstored : ∀ slot ∈ [hundredBytes],
        (processOf configured.harq.dlHarqProcessesRlcPduMap 1 slot.dci.harqProcess).isSome := by
      decide
    exact fun _ => hstored

theorem distributed_grantsOf : Distributed tenBytes 1 [hundredBytes] [⟨3, 14⟩, ⟨3, 1017⟩]
    (grantsOf { lcid := 3, totalBufSize := 1000 }) := by
  refine (distributed_iff_suitedAll tenBytes 1 _ _ _ (prepared_grantsOf _)).2 ⟨by decide, ?_⟩
  intro avgPduSize havg
  obtain rfl : avgPduSize = 86 := (Except.ok.inj havg).symm
  refine ⟨?_, by decide⟩
  rintro flows ⟨rfl⟩
  refine ⟨?_, ?_, trivial⟩
  · rintro flow ⟨rfl⟩
    exact ⟨by decide, by decide, by decide⟩
  · rintro flow ⟨rfl⟩
    exact ⟨by decide, by decide, by decide⟩

/-- The status PDU takes all that is passed on, and the header is subtracted from zero. -/
theorem not_distributed_statusFirst :
    ¬ ∀ (c : FlexTtiConfig) (rnti : Nat) (slots : List SlotAllocInfo) (pdus : List RlcPduInfo)
        (d : Grants (OrderedMap UeSchedInfo)),
      Prepared c rnti slots pdus d → Distributed c rnti slots pdus d := by
  intro hall
  obtain ⟨avgPduSize, result, h⟩ := hall tenBytes 1 _ _
    (grantsOf { lcid := 3, rlcStatusPduSize := 10, totalBufSize := 1000 }) (prepared_grantsOf _)
  obtain rfl : avgPduSize = 86 := (Except.ok.inj h.divides).symm
  have hexact := (h.exact _ rfl).1 _ rfl
  exact absurd (hexact.cleared (by decide)) (by decide)

end FlexTtiPf

end NtnIab.Mmwave
