import NtnIab.Mmwave.HarqConsistency
import NtnIab.Mmwave.SoundAllocation

/-!
# HARQ records of every run

In every run in which blocks are answered in time, the records of the active processes belong to
the blocks in flight. The RLC PDUs that were sent are read from the allocations: a block is sent
for the first time in a slot with a new data indicator.

## Strategy

The feedback and the retransmissions keep the records of a process, and no slot they place has a
new data indicator. A new block takes a free process, which has no RLC PDUs, and its slot is merged
into the allocation.
-/

namespace NtnIab.Mmwave

open Fallible HarqProcesses

/-! ## What was sent -/

/-- A slot in which a downlink process begins a block. -/
def SlotAllocInfo.begins (rnti id : Nat) (a : SlotAllocInfo) : Bool :=
  a.tddMode = .dl ∧ a.slotType = .ctrlData ∧ a.dci.ndi = 1 ∧ a.dci.rnti = rnti ∧
    a.dci.harqProcess = id

/-- The RLC PDUs of the last block of a downlink process, in allocations of which the last one
comes first. -/
def sentPdus (emitted : List SchedConfigInd) (rnti id : Nat) : Option (List RlcPduInfo) :=
  (emitted.findSome? fun ind => ind.slotAllocInfo.find? (·.begins rnti id)).map (·.rlcPduInfo)

/-- The records of every active process belong to the block in flight. -/
structure HarqConsistent (r : SchedulerRun) : Prop where
  dl : ∀ rnti id count, processOf r.scheduler.harq.dlHarqProcessesStatus rnti id = some count →
    0 < count → ∃ dci, processOf r.scheduler.harq.dlHarqProcessesDciInfoMap rnti id = some dci ∧
      dci.harqProcess = id ∧ dci.rnti = rnti ∧ dci.rv = count - 1
  dlPdus : ∀ rnti id count, processOf r.scheduler.harq.dlHarqProcessesStatus rnti id = some count →
    0 < count → ∃ pdus, processOf r.scheduler.harq.dlHarqProcessesRlcPduMap rnti id = some pdus ∧
      sentPdus r.emitted rnti id = some pdus
  ul : ∀ rnti id count, processOf r.scheduler.harq.ulHarqProcessesStatus rnti id = some count →
    0 < count → ∃ dci, processOf r.scheduler.harq.ulHarqProcessesDciInfoMap rnti id = some dci ∧
      dci.harqProcess = id ∧ dci.rnti = rnti ∧ dci.rv = count - 1

theorem SlotAllocInfo.begins_iff {rnti id : Nat} {a : SlotAllocInfo} :
    a.begins rnti id = true ↔ a.tddMode = .dl ∧ a.slotType = .ctrlData ∧ a.dci.ndi = 1 ∧
      a.dci.rnti = rnti ∧ a.dci.harqProcess = id :=
  decide_eq_true_iff

theorem SlotAllocInfo.begins_unnumbered {rnti id : Nat} {a : SlotAllocInfo} :
    a.unnumbered.begins rnti id = a.begins rnti id := rfl

/-- What the slots on the layers say was sent for a process: what was sent before, or what is in
each slot that begins a block of the process. -/
def SentOn (lanes : Nat → List SlotAllocInfo) (before : Option (List RlcPduInfo)) (rnti id : Nat)
    (sent : Option (List RlcPduInfo)) : Prop :=
  ((∀ i, ∀ a ∈ lanes i, a.begins rnti id = false) ∧ sent = before) ∨
    ((∃ i, ∃ a ∈ lanes i, a.begins rnti id = true) ∧
      ∀ i, ∀ a ∈ lanes i, a.begins rnti id = true → sent = some a.rlcPduInfo)

/-- The slots on the layers are of their direction, and the downlink slots begin in the
subframe. -/
structure Placement.Formed (c : PaddedHbfConfig) (p : Placement) : Prop where
  dl : ∀ i, ∀ a ∈ p.tempDlslotAllocInfo i, a.tddMode = .dl ∧ a.dci.symStart < 2 ^ 8 ∧
    i < c.phyMac.numEnbLayers
  ul : ∀ i, ∀ a ∈ p.tempUlslotAllocInfo i, a.tddMode = .ul

section
variable {c : PaddedHbfConfig} {p : Placement} {rnti id : Nat}

/-- A slot of the allocation that begins a block is one of the downlink layers. -/
theorem begins_of_mem_mergeSlots (hp : p.Formed c) {a : SlotAllocInfo} (ha : a ∈ mergeSlots c p)
    (hbegins : a.begins rnti id = true) :
    ∃ i, ∃ b ∈ p.tempDlslotAllocInfo i, b.unnumbered = a.unnumbered := by
  obtain ⟨hmode, htype, -⟩ := SlotAllocInfo.begins_iff.1 hbegins
  obtain ⟨i, b, hb | hb, heq⟩ := mem_mergeSlots ha htype
  · exact ⟨i, b, hb, heq.symm⟩
  · have hul := hp.ul i b hb
    rw [← (fields_of_unnumbered heq).2.1, hmode] at hul
    cases hul

/-- The allocation says the same as the layers. -/
theorem sentPdus_cons (hp : p.Formed c)
    (hstart : ∀ i, ∀ a ∈ p.tempDlslotAllocInfo i, a.dci.symStart < c.phyMac.symbolsPerSubframe)
    {emitted : List SchedConfigInd} {sent : Option (List RlcPduInfo)} {ind : SchedConfigInd}
    (hind : ind.slotAllocInfo = mergeSlots c p)
    (hsent : SentOn p.tempDlslotAllocInfo (sentPdus emitted rnti id) rnti id sent) :
    sentPdus (ind :: emitted) rnti id = sent := by
  unfold sentPdus
  rw [List.findSome?_cons, hind]
  rcases hsent with ⟨hnone, rfl⟩ | ⟨⟨i, a, ha, hbegins⟩, hall⟩
  · have hfind : (mergeSlots c p).find? (·.begins rnti id) = none := by
      rw [List.find?_eq_none]
      intro a ha hbegins
      obtain ⟨i, b, hb, heq⟩ := begins_of_mem_mergeSlots hp ha hbegins
      have hb := hnone i b hb
      rw [← SlotAllocInfo.begins_unnumbered, heq, SlotAllocInfo.begins_unnumbered, hbegins] at hb
      cases hb
    rw [hfind]
    rfl
  · -- the slot of the layer is merged
    have hmem : a.unnumbered ∈ (mergeLayers c (slotCount c p.tempDlslotAllocInfo)
        p.tempDlslotAllocInfo 1).map (·.unnumbered) := by
      rw [(mergeLayers_perm hstart).mem_iff]
      exact List.mem_map_of_mem (List.mem_flatMap.2
        ⟨i, List.mem_range.2 (hp.dl i a ha).2.2, ha⟩)
    obtain ⟨b, hb, heq⟩ := List.mem_map.1 hmem
    have hfound : ((mergeSlots c p).find? (·.begins rnti id)).isSome := by
      rw [List.find?_isSome]
      refine ⟨b, ?_, ?_⟩
      · unfold mergeSlots
        simp only [List.cons_append, List.mem_cons, List.mem_append]
        exact Or.inr (Or.inl (Or.inl hb))
      · rw [← SlotAllocInfo.begins_unnumbered, heq, SlotAllocInfo.begins_unnumbered, hbegins]
    obtain ⟨b, hb⟩ := Option.isSome_iff_exists.1 hfound
    rw [hb]
    have hbegins' : b.begins rnti id = true := List.find?_some hb
    obtain ⟨j, a', ha', heq'⟩ := begins_of_mem_mergeSlots hp (List.mem_of_find?_eq_some hb) hbegins'
    rw [hall j a' ha' (by
      rw [← SlotAllocInfo.begins_unnumbered, heq', SlotAllocInfo.begins_unnumbered, hbegins'])]
    have hpdus : a'.rlcPduInfo = b.rlcPduInfo := congrArg (·.rlcPduInfo) heq'
    rw [hpdus]
    rfl

end

/-! ## Slots of retransmissions -/

/-- The slots of retransmissions have no new data indicator. -/
structure RetxFormed (c : PaddedHbfConfig) (p : Placement) : Prop where
  layer : p.layerIdx < c.phyMac.numEnbLayers
  formed : p.Formed c
  again : ∀ i, ∀ a ∈ p.tempDlslotAllocInfo i, a.dci.ndi = 0

namespace RetxFormed

variable {c : PaddedHbfConfig} {p p' : Placement}

/-- The slots are the same. -/
theorem of_eq (hp : RetxFormed c p) (hlayer : p'.layerIdx < c.phyMac.numEnbLayers)
    (hdl : p'.tempDlslotAllocInfo = p.tempDlslotAllocInfo)
    (hul : p'.tempUlslotAllocInfo = p.tempUlslotAllocInfo) : RetxFormed c p' := by
  refine ⟨hlayer, ⟨?_, ?_⟩, ?_⟩
  · rw [hdl]
    exact hp.formed.dl
  · rw [hul]
    exact hp.formed.ul
  · rw [hdl]
    exact hp.again

theorem start (hlayers : 0 < c.phyMac.numEnbLayers) : RetxFormed c (.start c) :=
  ⟨hlayers, ⟨fun _ _ ha => (List.not_mem_nil ha).elim, fun _ _ ha => (List.not_mem_nil ha).elim⟩,
    fun _ _ ha => (List.not_mem_nil ha).elim⟩

theorem closeDl (hp : RetxFormed c p) : RetxFormed c (p.closeDlBlock c) :=
  hp.of_eq (Nat.zero_lt_of_lt hp.layer) rfl rfl

theorem closeUl (hp : RetxFormed c p) : RetxFormed c (p.closeUlBlock c) :=
  hp.of_eq (Nat.zero_lt_of_lt hp.layer) rfl rfl

theorem closedDl (hp : RetxFormed c p) : RetxFormed c (PaddedHbf.closedDl c p) := by
  unfold PaddedHbf.closedDl
  split
  · exact hp.closeDl
  · exact hp

theorem closedUl (hp : RetxFormed c p) : RetxFormed c (PaddedHbf.closedUl c p) := by
  unfold PaddedHbf.closedUl
  split
  · exact hp.closeUl
  · exact hp

theorem nextDlLayer (hp : RetxFormed c p) (rnti : Nat) : RetxFormed c (p.nextDlLayer c rnti) := by
  unfold Placement.nextDlLayer
  have hlayer := hp.layer
  split
  · exact hp.of_eq (Nat.zero_lt_of_lt hlayer) rfl rfl
  · exact hp.of_eq (by dsimp only; omega) rfl rfl

theorem nextUlLayer (hp : RetxFormed c p) (rnti : Nat) : RetxFormed c (p.nextUlLayer c rnti) := by
  unfold Placement.nextUlLayer
  have hlayer := hp.layer
  split
  · exact hp.of_eq (Nat.zero_lt_of_lt hlayer) rfl rfl
  · exact hp.of_eq (by dsimp only; omega) rfl rfl

theorem openDlBlock {numSym : Nat} (hp : RetxFormed c p)
    (hok : p.openDlBlock c numSym = .ok p') : RetxFormed c p' := by
  rcases Placement.openDlBlock_ok hok with ⟨-, rfl⟩ | ⟨-, -, rfl⟩
  · exact hp.of_eq hp.layer rfl rfl
  · exact hp

theorem openUlBlock {numSym : Nat} (hp : RetxFormed c p)
    (hok : p.openUlBlock numSym = .ok p') : RetxFormed c p' := by
  rcases Placement.openUlBlock_ok hok with ⟨-, -, rfl⟩ | ⟨-, rfl⟩
  · exact hp.of_eq hp.layer rfl rfl
  · exact hp

/-- A downlink slot that is sent again goes to the current layer. -/
theorem pushDl (hp : RetxFormed c p) (itUeInfo : Option Nat) (dci : DciInfoElementTdma)
    (pdus : List RlcPduInfo) :
    RetxFormed c (p.takeDl.pushDl p.layerIdx (Retx.dlSlot itUeInfo dci pdus p)) := by
  have hlanes : ∀ i, ∀ a ∈ (p.takeDl.pushDl p.layerIdx
      (Retx.dlSlot itUeInfo dci pdus p)).tempDlslotAllocInfo i,
      a ∈ p.tempDlslotAllocInfo i ∨ i = p.layerIdx ∧ a = Retx.dlSlot itUeInfo dci pdus p := by
    intro i a ha
    change a ∈ (if i = p.layerIdx then p.tempDlslotAllocInfo i ++ [_]
      else p.tempDlslotAllocInfo i) at ha
    split at ha
    · rename_i hi
      exact (List.mem_append.1 ha).imp_right fun ha => ⟨hi, List.mem_singleton.1 ha⟩
    · exact Or.inl ha
  refine ⟨hp.layer, ⟨?_, hp.formed.ul⟩, ?_⟩
  · intro i a ha
    rcases hlanes i a ha with ha | ⟨rfl, rfl⟩
    · exact hp.formed.dl i a ha
    · exact ⟨rfl, Nat.mod_lt _ (by decide), hp.layer⟩
  · intro i a ha
    rcases hlanes i a ha with ha | ⟨rfl, rfl⟩
    · exact hp.again i a ha
    · rfl

/-- An uplink slot that is sent again goes to the current layer. -/
theorem pushUl (hp : RetxFormed c p) (itUeInfo : Option Nat) (dci : DciInfoElementTdma) :
    RetxFormed c (p.takeUl.pushUl p.layerIdx (Retx.ulSlot itUeInfo dci p)) := by
  refine ⟨hp.layer, ⟨hp.formed.dl, ?_⟩, hp.again⟩
  intro i a ha
  change a ∈ (if i = p.layerIdx then _ :: p.tempUlslotAllocInfo i
    else p.tempUlslotAllocInfo i) at ha
  split at ha
  · rcases List.mem_cons.1 ha with rfl | ha
    · rfl
    · exact hp.formed.ul i a ha
  · exact hp.formed.ul i a ha

end RetxFormed

section
variable {c : PaddedHbfConfig} {s s' : PaddedHbf} {params : SchedTriggerReqParameters}
  {p : Placement}

/-- The passes over the retransmissions place slots without a new data indicator. -/
theorem PaddedHbf.Passes.ul_formed (t : Passes c params s s' p)
    (hlayers : 0 < c.phyMac.numEnbLayers) : RetxFormed c (closedUl c t.ul.placement) := by
  have hdl : RetxFormed c t.dl.placement := by
    refine RetxLoop.rounds_invariant (I := fun r => RetxFormed c r.placement) t.dlLoop_ok
      (RetxFormed.start hlayers) ?_
    intro r goesOn r' hr hround
    obtain ⟨k, p, x, info, dci, hp, -, -, -, -, hcases⟩ := RetxLoop.round_ok hround
    have hformed : RetxFormed c p := by
      rcases hp with rfl | rfl
      · exact hr
      · exact hr.closeDl
    rcases hcases with ⟨-, -, rfl⟩ | ⟨-, -, ⟨-, placed, hplaced, rfl⟩ | ⟨-, rfl⟩⟩
    · exact hformed
    · obtain ⟨p', count, pdus, hopen, -, -, -, hplacement, -⟩ := Retx.placeDl_ok hplaced
      show RetxFormed c placed.placement
      rw [hplacement]
      exact ((hformed.openDlBlock hopen).pushDl _ _ _).nextDlLayer _
    · exact hformed
  refine (RetxLoop.rounds_invariant (I := fun r => RetxFormed c r.placement) t.ulLoop_ok
    hdl.closedDl ?_).closedUl
  intro r goesOn r' hr hround
  obtain ⟨k, p, x, info, dci, hp, -, -, -, -, hcases⟩ := RetxLoop.round_ok hround
  have hformed : RetxFormed c p := by
    rcases hp with rfl | rfl
    · exact hr
    · exact hr.closeUl
  rcases hcases with ⟨-, -, rfl⟩ | ⟨-, -, ⟨-, placed, hplaced, rfl⟩ | ⟨-, rfl⟩⟩
  · exact hformed
  · obtain ⟨p', count, hopen, -, -, hplacement, -⟩ := Retx.placeUl_ok hplaced
    show RetxFormed c placed.placement
    rw [hplacement]
    exact ((hformed.openUlBlock hopen).pushUl _ _).nextUlLayer _
  · exact hformed

end

/-! ## Uplink retransmissions -/

section
variable {c : PaddedHbfConfig} {s s' : PaddedHbf} {params : SchedTriggerReqParameters}
  {p : Placement}

/-- Only NACKs are noted. -/
theorem ulFeedback_nacks {infos : List UlHarqInfo} {h : HarqProcesses} {f : Feedback}
    (hok : infos.zipIdx.foldlM ulFeedback (h, []) = .ok f) :
    ∀ x ∈ f.2, ∀ info, infos[x.2]? = some info → info.receptionStatus = .notOk := by
  refine feedback_invariant (I := fun f => ∀ x ∈ f.2, ∀ info, infos[x.2]? = some info →
    info.receptionStatus = .notOk) hok (fun _ hx => (List.not_mem_nil hx).elim) ?_
  intro f info i f' hinfo hf hstep
  rcases ulFeedback_ok hstep with ⟨-, rfl | rfl⟩ | ⟨dci, hlive, -, rfl⟩
  · exact hf
  · exact hf
  · intro x hx info' hinfo'
    rcases mem_insertSorted.1 hx with rfl | hx
    · obtain rfl : info = info' := Option.some.inj (hinfo.symm.trans hinfo')
      exact hlive.1
    · exact hf x hx info' hinfo'

/-- The passes over the retransmissions keep the records of the active uplink processes. -/
theorem PaddedHbf.Passes.ul_active (t : Passes c params s s' p)
    (ha : Answered c s t.refreshed (s.dlHarqInfoList ++ params.dlHarqInfoList)
      (s.ulHarqInfoList ++ params.ulHarqInfoList))
    (hactive : ∀ rnti id, UlActive s.harq rnti id) :
    ∀ rnti id, UlActive t.ul.harq rnti id := by
  obtain ⟨-, -, -, -, hdcis, -, htick⟩ := PaddedHbf.refresh_ok t.refresh_ok
  have hdl : ∀ rnti id, UlActive t.dl.harq rnti id := by
    intro rnti id
    refine UlActive.of_same ((hactive rnti id).of_eq ?_ (by rw [hdcis])) t.dl_sameUl
    exact (NtnIab.Mmwave.tick_ok htick rnti id).imp_right And.left
  have hagree : ∀ rnti id, UlAnswersAgree t.dl.harq rnti id
      (s.ulHarqInfoList ++ params.ulHarqInfoList) := by
    intro rnti id
    unfold UlAnswersAgree LiveUlNack
    rw [t.dl_sameUl.status, t.dl_sameUl.dcis]
    exact ha.ulAgree_at rnti id
  have houtcome := fun rnti id => ulFeedback_outcome t.ulFeedback_ok rnti id (hagree rnti id)
  have hnotedDcis := ulFeedback_dcis t.ulFeedback_ok
  have hnoted : ∀ rnti id, UlActive t.ulNoted.1 rnti id := by
    intro rnti id
    refine (hdl rnti id).of_eq ?_ (by rw [hnotedDcis])
    cases houtcome rnti id with
    | waits _ hstatus _ => exact Or.inl hstatus
    | noted first live _ _ hstatus => exact Or.inl hstatus
    | reset _ hstatus _ => exact Or.inr hstatus
  rcases NtnIab.Mmwave.ulLoop_ok t.ulLoop_ok with ⟨-, hsame⟩ | ⟨goesOn, hround⟩
  · rw [hsame]
    exact hnoted
  obtain ⟨k, p, x, info, dci, -, -, hx, hinfo, hdci, hcases⟩ := RetxLoop.round_ok hround
  rcases hcases with ⟨-, -, heq⟩ | ⟨-, -, ⟨-, placed, hplaced, heq⟩ | ⟨-, heq⟩⟩
  · rw [heq]
    exact hnoted
  · obtain ⟨p', count, -, hcount, hharq, -⟩ := Retx.placeUl_ok hplaced
    change processOf t.ulNoted.1.ulHarqProcessesStatus info.rnti info.harqProcessId = some count
      at hcount
    change processOf t.ulNoted.1.ulHarqProcessesDciInfoMap info.rnti info.harqProcessId = some dci
      at hdci
    change placed.harq = t.ulNoted.1.sendUlAgain info.rnti info.harqProcessId count _ at hharq
    -- the block is live, and was sent at most three times
    have hsettles : info.settles info.rnti info.harqProcessId = true := by
      refine UlHarqInfo.settles_iff.2 ⟨⟨rfl, rfl⟩, ?_⟩
      rw [ulFeedback_nacks t.ulFeedback_ok x (List.mem_of_getElem? hx) info hinfo]
      decide
    have hnotes := notes_eraseIdx (UlHarqInfo.settles info.rnti info.harqProcessId) hx hinfo
    rw [if_pos hsettles] at hnotes
    have hlive : ∃ live, Live t.dl.harq.ulHarqProcessesStatus t.dl.harq.ulHarqProcessesDciInfoMap
        info.rnti info.harqProcessId live ∧ count = live.rv + 1 := by
      cases houtcome info.rnti info.harqProcessId with
      | waits _ _ hnone => exact absurd (hnotes.symm.trans hnone) (Nat.succ_ne_zero _)
      | noted first live hanswers hlive hstatus =>
          obtain ⟨⟨hrnti, hid⟩, -⟩ :=
            UlHarqInfo.settles_iff.1 (List.mem_filter.1 (List.mem_of_mem_head? hanswers)).2
          have hlive := hlive.2
          rw [hrnti, hid] at hlive
          refine ⟨live, hlive, Option.some.inj ?_⟩
          rw [← hcount, hstatus, hlive.sent]
      | reset _ _ hnone => exact absurd (hnotes.symm.trans hnone) (Nat.succ_ne_zero _)
    obtain ⟨live, hlive, rfl⟩ := hlive
    obtain ⟨hle, -⟩ := hdl _ _ _ hlive.sent (Nat.succ_pos _)
    have hleft := hlive.retxLeft
    have hstored : dci = live := by
      have hsame := hlive.stored
      rw [← hnotedDcis, hdci] at hsame
      exact Option.some.inj hsame
    intro rnti id
    rw [heq]
    show UlActive placed.harq rnti id
    rw [hharq]
    by_cases hprocess : rnti = info.rnti ∧ id = info.harqProcessId
    · rw [hprocess.1, hprocess.2]
      intro count' hcount' _
      unfold sendUlAgain at hcount' ⊢
      simp only [processOf_setProcess, hcount, hdci, and_self, if_true, Option.map_some,
        Option.some.injEq] at hcount' ⊢
      subst hcount'
      refine ⟨by omega, _, rfl, ?_⟩
      show (dci.rv + 1) % 2 ^ 8 + 1 = _
      rw [hstored]
      omega
    · refine (hnoted rnti id).of_eq (Or.inl ?_) ?_
      · exact processOf_setProcess.trans (if_neg hprocess)
      · exact processOf_setProcess.trans (if_neg hprocess)
  · rw [heq]
    exact hnoted

end

/-! ## New blocks -/

/-- In the passes over the UEs the records belong to what was sent before or to the slot of a new
block, and a process with a new block is active. -/
structure TurnRecords (c : PaddedHbfConfig) (before : Nat → Nat → Option (List RlcPduInfo))
    (d : NewData) : Prop where
  layer : d.layerIdx < c.phyMac.numEnbLayers
  formed : d.placement.Formed c
  empty : ∀ rnti id, DlEmpty d.harq rnti id
  active : ∀ rnti id, ∃ sent,
    SentOn d.placement.tempDlslotAllocInfo (before rnti id) rnti id sent ∧
      DlActive d.harq sent rnti id
  begun : ∀ rnti id i, ∀ a ∈ d.placement.tempDlslotAllocInfo i, a.begins rnti id = true →
    processOf d.harq.dlHarqProcessesStatus rnti id ≠ some 0
  ul : ∀ rnti id, UlActive d.harq rnti id

section
variable {c : PaddedHbfConfig} {before : Nat → Nat → Option (List RlcPduInfo)} {d d' : NewData}
  {region : Region}

/-- A new downlink block is recorded, and its slot begins it. -/
theorem TurnRecords.dlTurn (hharq : c.harqOn = true) {entry : Nat × UeSchedInfo}
    (hok : d.dlTurn c region entry = .ok d') (hd : TurnRecords c before d) :
    TurnRecords c before d' := by
  rcases NewData.dlTurn_ok hok with rfl | ⟨numSym, -, -, -, -, hplace⟩
  · exact hd
  obtain ⟨harqId, pdus, placed, -, hstart, -, hplaced, hnext⟩ := NewData.placeDl_ok hharq hplace
  set dci := d.dlDci c entry.1 entry.2 numSym harqId with hdci
  -- the slot is added on the current layer
  have hdl : d'.placement.tempDlslotAllocInfo = fun i =>
      if i = d.layerIdx then d.placement.tempDlslotAllocInfo i ++ [d.dlSlot dci pdus]
      else d.placement.tempDlslotAllocInfo i := by
    rcases hnext with ⟨-, -, heq⟩ | ⟨-, -, heq⟩ <;> rw [heq, hplaced] <;> rfl
  have hulSlots : d'.placement.tempUlslotAllocInfo = d.placement.tempUlslotAllocInfo := by
    rcases hnext with ⟨-, -, heq⟩ | ⟨-, -, heq⟩ <;> rw [heq, hplaced] <;> rfl
  have hmem : ∀ i, ∀ a ∈ d'.placement.tempDlslotAllocInfo i,
      a ∈ d.placement.tempDlslotAllocInfo i ∨ i = d.layerIdx ∧ a = d.dlSlot dci pdus := by
    intro i a ha
    rw [hdl] at ha
    dsimp only at ha
    split at ha
    · rename_i hi
      exact (List.mem_append.1 ha).imp_right fun ha => ⟨hi, List.mem_singleton.1 ha⟩
    · exact Or.inl ha
  have hsub : ∀ i, ∀ a ∈ d.placement.tempDlslotAllocInfo i,
      a ∈ d'.placement.tempDlslotAllocInfo i := by
    intro i a ha
    rw [hdl]
    dsimp only
    split
    · exact List.mem_append_left _ ha
    · exact ha
  have hstatus : ∀ rnti id, processOf d'.harq.dlHarqProcessesStatus rnti id =
      if rnti = dci.rnti ∧ id = dci.harqProcess then some 1
      else processOf d.harq.dlHarqProcessesStatus rnti id := by
    intro rnti id
    rw [hstart.status, processOf_setProcess]
    split
    · rename_i heq
      rw [heq.1, heq.2, hstart.free]
      rfl
    · rfl
  have hnew : ∀ rnti id, (d.dlSlot dci pdus).begins rnti id = true ↔
      rnti = dci.rnti ∧ id = dci.harqProcess := by
    intro rnti id
    rw [SlotAllocInfo.begins_iff]
    exact ⟨fun h => ⟨h.2.2.2.1.symm, h.2.2.2.2.symm⟩,
      fun h => ⟨rfl, rfl, rfl, h.1.symm, h.2.symm⟩⟩
  -- no other slot begins a block of the process, which was free
  have hfirst : ∀ i, ∀ a ∈ d.placement.tempDlslotAllocInfo i,
      a.begins dci.rnti dci.harqProcess = false := by
    intro i a ha
    cases hbegins : a.begins dci.rnti dci.harqProcess with
    | false => rfl
    | true => exact absurd hstart.free (hd.begun _ _ i a ha hbegins)
  refine ⟨?_, ⟨?_, ?_⟩, ?_, ?_, ?_, ?_⟩
  · have hlayer := hd.layer
    rcases hnext with ⟨-, heq, -⟩ | ⟨hlast, heq, -⟩ <;> omega
  · intro i a ha
    rcases hmem i a ha with ha | ⟨rfl, rfl⟩
    · exact hd.formed.dl i a ha
    · exact ⟨rfl, Nat.mod_lt _ (by decide), hd.layer⟩
  · rw [hulSlots]
    exact hd.formed.ul
  · intro rnti id hzero
    rw [hstatus] at hzero
    split at hzero
    · cases hzero
    · rename_i hother
      rw [hstart.pdus, if_neg hother]
      exact hd.empty rnti id hzero
  · intro rnti id
    by_cases heq : rnti = dci.rnti ∧ id = dci.harqProcess
    · rw [heq.1, heq.2]
      refine ⟨some pdus, Or.inr ⟨⟨d.layerIdx, d.dlSlot dci pdus, ?_, ?_⟩, ?_⟩, ?_⟩
      · rw [hdl]
        dsimp only
        rw [if_pos rfl]
        exact List.mem_append_right _ List.mem_cons_self
      · exact (hnew _ _).2 ⟨rfl, rfl⟩
      · intro i a ha hbegins
        rcases hmem i a ha with ha | ⟨-, rfl⟩
        · rw [hfirst i a ha] at hbegins
          cases hbegins
        · rfl
      · intro count hcount _
        rw [hstatus, if_pos ⟨rfl, rfl⟩] at hcount
        obtain rfl := Option.some.inj hcount
        refine ⟨by decide, ⟨dci, ?_, rfl⟩, pdus, ?_, rfl⟩
        · obtain ⟨old, hold⟩ := Option.isSome_iff_exists.1 hstart.kept
          rw [hstart.dcis, processOf_setProcess, if_pos ⟨rfl, rfl⟩, hold]
          rfl
        · rw [hstart.pdus, if_pos ⟨rfl, rfl⟩, hd.empty _ _ hstart.free]
          rfl
    · obtain ⟨sent, hsent, hactive⟩ := hd.active rnti id
      have hskip : (d.dlSlot dci pdus).begins rnti id = false :=
        Bool.eq_false_iff.2 fun h => heq ((hnew rnti id).1 h)
      refine ⟨sent, ?_, hactive.of_eq (Or.inl ?_) ?_ (Or.inl ?_)⟩
      · rcases hsent with ⟨hnone, hbefore⟩ | ⟨⟨i, a, ha, hbegins⟩, hall⟩
        · refine Or.inl ⟨fun i a ha => ?_, hbefore⟩
          rcases hmem i a ha with ha | ⟨-, rfl⟩
          · exact hnone i a ha
          · exact hskip
        · refine Or.inr ⟨⟨i, a, hsub i a ha, hbegins⟩, fun j b hb hbegins => ?_⟩
          rcases hmem j b hb with hb | ⟨-, rfl⟩
          · exact hall j b hb hbegins
          · rw [hskip] at hbegins
            cases hbegins
      · rw [hstatus, if_neg heq]
      · rw [hstart.dcis, processOf_setProcess, if_neg heq]
      · rw [hstart.pdus, if_neg heq]
  · intro rnti id i a ha hbegins
    rw [hstatus]
    split
    · exact nofun
    · rename_i heq
      rcases hmem i a ha with ha | ⟨-, rfl⟩
      · exact hd.begun rnti id i a ha hbegins
      · exact absurd ((hnew rnti id).1 hbegins) heq
  · intro rnti id
    exact (hd.ul rnti id).of_same ⟨hstart.ulStatus, hstart.ulDcis⟩

/-- A new uplink block is recorded. -/
theorem TurnRecords.ulTurns (hharq : c.harqOn = true) {sfnSf : SfnSf}
    {order : OrderedMap UeSchedInfo} {first : Bool}
    (hok : NewData.ulTurns c sfnSf region first order d = .ok d') (hd : TurnRecords c before d) :
    TurnRecords c before d' := by
  refine (NewData.ulTurns_invariant (I := fun d _ => TurnRecords c before d) hharq hok hd
    (fun _ _ _ hd => hd) ?_).elim fun _ hd => hd
  intro d d' entry rest numSym hd _ _ _ _ _ hfree hplace
  obtain ⟨harqId, placed, -, hstart, hplaced, hnext⟩ := NewData.placeUl_ok hharq hfree hplace
  set dci := d.ulDci c entry.1 entry.2 numSym (NewData.ulStart region d.placement) harqId
  have hsame : SameDl d.harq d'.harq := by
    rw [hstart.eq]
    exact ⟨rfl, rfl, rfl⟩
  have hdl : d'.placement.tempDlslotAllocInfo = d.placement.tempDlslotAllocInfo := by
    rcases hnext with ⟨-, -, heq⟩ | ⟨-, -, heq⟩ <;> rw [heq, hplaced] <;> rfl
  have hul : d'.placement.tempUlslotAllocInfo = fun i =>
      if i = d.layerIdx then d.ulSlot dci :: d.placement.tempUlslotAllocInfo i
      else d.placement.tempUlslotAllocInfo i := by
    rcases hnext with ⟨-, -, heq⟩ | ⟨-, -, heq⟩ <;> rw [heq, hplaced] <;> rfl
  refine ⟨?_, ⟨?_, ?_⟩, fun rnti id => (hd.empty rnti id).of_same hsame, ?_, ?_, ?_⟩
  · have hlayer := hd.layer
    rcases hnext with ⟨-, heq, -⟩ | ⟨hlast, heq, -⟩ <;> omega
  · rw [hdl]
    exact hd.formed.dl
  · intro i a ha
    rw [hul] at ha
    dsimp only at ha
    split at ha
    · rcases List.mem_cons.1 ha with rfl | ha
      · rfl
      · exact hd.formed.ul i a ha
    · exact hd.formed.ul i a ha
  · intro rnti id
    obtain ⟨sent, hsent, hactive⟩ := hd.active rnti id
    rw [hdl]
    exact ⟨sent, hsent, hactive.of_same hsame⟩
  · rw [hdl, hsame.status]
    exact hd.begun
  · intro rnti id
    by_cases heq : rnti = dci.rnti ∧ id = dci.harqProcess
    · rw [heq.1, heq.2]
      intro count hcount _
      rw [hstart.eq] at hcount ⊢
      dsimp only at hcount ⊢
      rw [processOf_setProcess, if_pos ⟨rfl, rfl⟩, hstart.free] at hcount
      obtain rfl := Option.some.inj hcount
      obtain ⟨old, hold⟩ := Option.isSome_iff_exists.1 hstart.kept
      refine ⟨by decide, dci, ?_, rfl⟩
      rw [processOf_setProcess, if_pos ⟨rfl, rfl⟩, hold]
      rfl
    · refine (hd.ul rnti id).of_eq (Or.inl ?_) ?_
      · rw [hstart.eq]
        exact processOf_setProcess.trans (if_neg heq)
      · rw [hstart.eq]
        exact processOf_setProcess.trans (if_neg heq)

end

/-! ## Every run -/

/-- What is kept of the records along a run. -/
structure InFlight (c : PaddedHbfConfig) (h : HarqProcesses)
    (sent : Nat → Nat → Option (List RlcPduInfo)) : Prop where
  owned : h.Owned
  shaped : h.Shaped c.phyMac.numHarqProcess
  dl : ∀ rnti id, DlActive h (sent rnti id) rnti id
  empty : ∀ rnti id, DlEmpty h rnti id
  ul : ∀ rnti id, UlActive h rnti id

section
variable {c : PaddedHbfConfig} {s s' : PaddedHbf} {params : SchedTriggerReqParameters}
  {p : Placement} {before : Nat → Nat → Option (List RlcPduInfo)}

/-- A trigger whose blocks are answered in time keeps the records. -/
theorem PaddedHbf.schedule_inFlight (hlayers : 0 < c.phyMac.numEnbLayers) (hharq : c.harqOn = true)
    (hok : s.schedule c params = .ok (s', p)) (hs : InFlight c s.harq before)
    (ha : ∀ refreshed, s.refresh c = .ok refreshed → Answered c s refreshed
      (s.dlHarqInfoList ++ params.dlHarqInfoList) (s.ulHarqInfoList ++ params.ulHarqInfoList)) :
    p.Formed c ∧ ∀ rnti id, (∃ sent, SentOn p.tempDlslotAllocInfo (before rnti id) rnti id sent ∧
      DlActive s'.harq sent rnti id) ∧ DlEmpty s'.harq rnti id ∧ UlActive s'.harq rnti id := by
  obtain ⟨t⟩ := PaddedHbf.schedule_ok hharq hok
  have ha := ha t.refreshed t.refresh_ok
  have hformed := t.ul_formed hlayers
  have hdl := (RetxLoop.rounds_invariant (I := fun r =>
    (∀ rnti id, DlActive r.harq (before rnti id) rnti id ∧ DlEmpty r.harq rnti id) ∧
      DlNotedFit _ r.harq r.sortedHarqRetx) t.dlLoop_ok
    (t.dlNoted_active ha hs.shaped hs.dl hs.empty)
    fun _ _ _ hr hround => dlRound_active hround hr).1
  have hnone : ∀ rnti id i, ∀ a ∈ (closedUl c t.ul.placement).tempDlslotAllocInfo i,
      a.begins rnti id = false := by
    intro rnti id i a hmem
    refine Bool.eq_false_iff.2 fun hbegins => ?_
    have hnew := (SlotAllocInfo.begins_iff.1 hbegins).2.2.1
    rw [hformed.again i a hmem] at hnew
    cases hnew
  -- the records after the retransmissions
  have hretx : TurnRecords c before
      { harq := t.ul.harq
        placement := closedUl c t.ul.placement
        rlcBufferReq := []
        ceBsrRxed := []
        ulAllocationMap := []
        tbUid := 0 } := by
    refine ⟨hlayers, hformed.formed, fun rnti id => (hdl rnti id).2.of_same t.ul_sameDl,
      fun rnti id => ⟨before rnti id, Or.inl ⟨hnone rnti id, rfl⟩,
        (hdl rnti id).1.of_same t.ul_sameDl⟩, ?_, t.ul_active ha hs.ul⟩
    intro rnti id i a hmem hbegins
    rw [hnone rnti id i a hmem] at hbegins
    cases hbegins
  obtain ⟨-, -, -, ⟨hsame, hp⟩ | ⟨order, dl, ul, d₀, d₁, d₂, -, hd₀, hplacement, hlayer, -, -, -, -,
    hdlTurns, hulTurns, hs', hp⟩⟩ := scheduleNewData_ok t.newData_ok
  · rw [hp, hsame]
    exact ⟨hretx.formed, fun rnti id => ⟨hretx.active rnti id, hretx.empty rnti id,
      hretx.ul rnti id⟩⟩
  · have hstart : TurnRecords c before d₀ := by
      refine ⟨hlayer ▸ hlayers, ?_, ?_, ?_, ?_, ?_⟩ <;>
        simp only [hd₀, hplacement]
      · exact hretx.formed
      · exact hretx.empty
      · exact hretx.active
      · exact hretx.begun
      · exact hretx.ul
    have hd₁ : TurnRecords c before d₁ :=
      foldlM_invariant (I := fun d _ => TurnRecords c before d) hdlTurns hstart
        fun _ _ _ _ hd hturn => hd.dlTurn hharq hturn
    have hd₂ : TurnRecords c before d₂ :=
      TurnRecords.ulTurns hharq hulTurns
        ⟨hlayers, hd₁.formed, hd₁.empty, hd₁.active, hd₁.begun, hd₁.ul⟩
    rw [hs', hp]
    exact ⟨hd₂.formed, fun rnti id => ⟨hd₂.active rnti id, hd₂.empty rnti id, hd₂.ul rnti id⟩⟩

end

namespace SchedulerRun

variable {c : PaddedHbfConfig}

/-- If the event is a trigger, blocks are answered in time and without contradiction. -/
def TriggerAnswered (c : PaddedHbfConfig) (r : SchedulerRun) : SchedulerEvent → Prop
  | .schedTriggerReq params => ∀ refreshed, r.scheduler.refresh c = .ok refreshed →
      Answered c r.scheduler refreshed (r.scheduler.dlHarqInfoList ++ params.dlHarqInfoList)
        (r.scheduler.ulHarqInfoList ++ params.ulHarqInfoList)
  | _ => True

instance TriggerAnswered.decidable {r : SchedulerRun} :
    ∀ event, Decidable (TriggerAnswered c r event)
  | .schedTriggerReq _ => decidableForallOk _
  | .cschedUeConfigReq _ _ _ | .cschedUeReleaseReq _ | .cschedLcReleaseReq _ _
  | .schedDlRlcBufferReq _ | .schedDlCqiInfoReq _ | .schedUlCqiInfoReq _ _
  | .schedUlMacCtrlInfoReq _ | .schedSetMcs _ => isTrue trivial

/-- A UE that is configured has free processes without RLC PDUs, unless it has processes. -/
theorem inFlight_configureUe {h : HarqProcesses} {sent : Nat → Nat → Option (List RlcPduInfo)}
    {rnti : Nat} (hh : InFlight c h sent) : InFlight c (h.configureUe c.phyMac rnti) sent := by
  rcases hh.shaped.configureUe_eq rnti with heq | ⟨hnone, heq⟩
  · rw [heq]
    exact hh
  -- an entry of a map that had none has what the map is extended with
  have hentry : ∀ {α : Type} {m : OrderedMap (List α)} {a b : α} {id : Nat},
      shape m rnti = none → processOf (m.insertNew rnti
        (List.replicate c.phyMac.numHarqProcess a)) rnti id = some b → b = a := by
    intro α m a b id hshape hb
    rw [processOf_insertNew, if_pos rfl, Option.map_eq_none_iff.1 hshape, Option.getD_none] at hb
    exact List.eq_of_mem_replicate (List.mem_of_getElem? hb)
  have hother : ∀ {α : Type} {m : OrderedMap (List α)} {a : α} {k id : Nat}, k ≠ rnti →
      processOf (m.insertNew rnti (List.replicate c.phyMac.numHarqProcess a)) k id =
        processOf m k id := fun hk => processOf_insertNew.trans (if_neg hk)
  have hdl : shape h.dlHarqProcessesStatus rnti = none := congrArg (·.getD 0 none) hnone
  have hpdus : shape h.dlHarqProcessesRlcPduMap rnti = none := congrArg (·.getD 3 none) hnone
  have hul : shape h.ulHarqProcessesStatus rnti = none := congrArg (·.getD 4 none) hnone
  refine ⟨hh.owned.configureUe, hh.shaped.configureUe, ?_, ?_, ?_⟩
  · intro k id
    rw [heq]
    by_cases hk : k = rnti
    · intro count hcount hpos
      rw [hk] at hcount
      exact absurd (hentry hdl hcount) (Nat.ne_of_gt hpos)
    · exact (hh.dl k id).of_eq (Or.inl (hother hk)) (hother hk) (Or.inl (hother hk))
  · intro k id hzero
    rw [heq] at hzero ⊢
    by_cases hk : k = rnti
    · rw [hk] at hzero ⊢
      unfold withUe at hzero ⊢
      dsimp only at hzero ⊢
      rw [processOf_insertNew, if_pos rfl, Option.map_eq_none_iff.1 hdl, Option.getD_none,
        List.getElem?_replicate] at hzero
      rw [processOf_insertNew, if_pos rfl, Option.map_eq_none_iff.1 hpdus, Option.getD_none,
        List.getElem?_replicate]
      split at hzero
      · rename_i hid
        rw [if_pos hid]
      · cases hzero
    · exact (hother hk).trans (hh.empty k id ((hother hk).symm.trans hzero))
  · intro k id
    rw [heq]
    by_cases hk : k = rnti
    · intro count hcount hpos
      rw [hk] at hcount
      exact absurd (hentry hul hcount) (Nat.ne_of_gt hpos)
    · exact (hh.ul k id).of_eq (Or.inl (hother hk)) (hother hk)

/-- A UE that is released has no processes. -/
theorem inFlight_releaseUe {h : HarqProcesses} {sent : Nat → Nat → Option (List RlcPduInfo)}
    {rnti : Nat} (hh : InFlight c h sent) : InFlight c (h.releaseUe rnti) sent := by
  have hgone : ∀ {α : Type} {m : OrderedMap (List α)} {id : Nat} {a : α},
      processOf (m.erase rnti) rnti id ≠ some a := by
    intro α m id a ha
    rw [processOf_erase, if_pos rfl] at ha
    cases ha
  have hother : ∀ {α : Type} {m : OrderedMap (List α)} {k id : Nat}, k ≠ rnti →
      processOf (m.erase rnti) k id = processOf m k id := fun hk => processOf_erase.trans (if_neg hk)
  refine ⟨hh.owned.releaseUe, hh.shaped.releaseUe, ?_, ?_, ?_⟩
  · intro k id
    by_cases hk : k = rnti
    · intro count hcount
      rw [hk] at hcount
      exact absurd hcount hgone
    · exact (hh.dl k id).of_eq (Or.inl (hother hk)) (hother hk) (Or.inl (hother hk))
  · intro k id hzero
    by_cases hk : k = rnti
    · rw [hk] at hzero
      exact absurd hzero hgone
    · exact (hother hk).trans (hh.empty k id ((hother hk).symm.trans hzero))
  · intro k id
    by_cases hk : k = rnti
    · intro count hcount
      rw [hk] at hcount
      exact absurd hcount hgone
    · exact (hh.ul k id).of_eq (Or.inl (hother hk)) (hother hk)

/-- A step keeps the records, if blocks are answered in time. -/
theorem step_inFlight (hdlCtrl : c.phyMac.dlCtrlSymbols = 1) (hulCtrl : c.phyMac.ulCtrlSymbols = 1)
    (htwo : 2 ≤ c.phyMac.symbolsPerSubframe) (hlayers : 1 ≤ c.phyMac.numEnbLayers)
    (hharq : c.harqOn = true) {r : SchedulerRun} {event : SchedulerEvent}
    (hr : InFlight c r.scheduler.harq (sentPdus r.emitted)) (hevent : TriggerAnswered c r event) :
    InFlight c (r.step c event).scheduler.harq (sentPdus (r.step c event).emitted) := by
  obtain ⟨hsame, hemitted⟩ | ⟨hrequest, hemitted, -⟩ | ⟨params, s, p, hparams, -, hok, hs, -,
    hemitted⟩ := r.step_cases event
  · rw [hsame, hemitted]
    exact hr
  · rw [hrequest, hemitted]
    obtain ⟨⟨rnti, _, _, -, heq⟩ | ⟨rnti, -, heq⟩ | heq, -⟩ :=
      request_harq (c := c) (s := r.scheduler) event
    · rw [heq]
      exact inFlight_configureUe hr
    · rw [heq]
      exact inFlight_releaseUe hr
    · rw [heq]
      exact hr
  rw [hs, hemitted]
  rw [hparams] at hevent
  obtain ⟨hformed, hrecords⟩ := PaddedHbf.schedule_inFlight hlayers hharq hok hr hevent
  have hstart : ∀ i, ∀ a ∈ p.tempDlslotAllocInfo i,
      a.dci.symStart < c.phyMac.symbolsPerSubframe := by
    intro i a ha
    have hbyte := (hformed.dl i a ha).2.1
    by_cases hsmall : c.phyMac.symbolsPerSubframe ≤ 2 ^ 8
    · -- in a subframe of at most 256 symbols the downlink is before the last symbol
      obtain ⟨border, hdivided⟩ := PaddedHbf.schedule_divided
        ⟨hdlCtrl, hulCtrl, htwo, hsmall, hlayers⟩ hharq hok hr.owned
      have hbounds := (hdivided.dl_bounds ha).2
      have hlast := hdivided.last
      have hle := symStart_le_symEnd a.dci
      omega
    · omega
  refine ⟨PaddedHbf.schedule_owned hharq hok hr.owned,
    hr.shaped.of_outlines (PaddedHbf.schedule_outlines hharq hok), ?_, fun rnti id =>
      (hrecords rnti id).2.1, fun rnti id => (hrecords rnti id).2.2⟩
  intro rnti id
  obtain ⟨⟨sent, hsent, hactive⟩, -⟩ := hrecords rnti id
  rw [sentPdus_cons hformed hstart rfl hsent]
  exact hactive

/-- In every run in which blocks are answered in time, and not first with a NACK and then with an
ACK, the records of the active processes belong to the blocks in flight. -/
theorem run_harq_consistent (hdlCtrl : c.phyMac.dlCtrlSymbols = 1)
    (hulCtrl : c.phyMac.ulCtrlSymbols = 1) (htwo : 2 ≤ c.phyMac.symbolsPerSubframe)
    (hlayers : 1 ≤ c.phyMac.numEnbLayers) (hharq : c.harqOn = true) (events : List SchedulerEvent)
    (hall : Run.AllSteps (step c) (TriggerAnswered c) {} events) :
    HarqConsistent (Run.run (step c) {} events) := by
  have hinflight : InFlight c (Run.run (step c) {} events).scheduler.harq
      (sentPdus (Run.run (step c) {} events).emitted) := by
    refine hall.invariant (I := fun r : SchedulerRun =>
      InFlight c r.scheduler.harq (sentPdus r.emitted))
      (fun _ _ hr hevent => step_inFlight hdlCtrl hulCtrl htwo hlayers hharq hr hevent)
      ⟨⟨?_, ?_⟩, fun _ => Or.inr rfl, ?_, ?_, ?_⟩
    · exact fun _ _ _ hcount => nomatch hcount
    · exact fun _ _ _ hcount => nomatch hcount
    · exact fun _ _ _ hcount => nomatch hcount
    · exact fun _ _ hzero => nomatch hzero
    · exact fun _ _ _ hcount => nomatch hcount
  refine ⟨?_, ?_, ?_⟩
  · intro rnti id count hcount hpos
    obtain ⟨-, ⟨dci, hdci, hrv⟩, -⟩ := hinflight.dl rnti id count hcount hpos
    have howner := hinflight.owned.dl rnti id count hcount hpos dci hdci
    exact ⟨dci, hdci, howner.harqProcess_eq, howner.rnti_eq, by omega⟩
  · intro rnti id count hcount hpos
    exact (hinflight.dl rnti id count hcount hpos).2.2
  · intro rnti id count hcount hpos
    obtain ⟨-, dci, hdci, hrv⟩ := hinflight.ul rnti id count hcount hpos
    have howner := hinflight.owned.ul rnti id count hcount hpos dci hdci
    exact ⟨dci, hdci, howner.harqProcess_eq, howner.rnti_eq, by omega⟩

/-- Two triggers, of which the second has a NACK in each direction, and an ACK. -/
def answered : List SchedulerEvent :=
  twoUes ++ [.schedTriggerReq {
    sfnSf := { sfNum := 1 }
    dlHarqInfoList := [⟨2, 0, .nack⟩, ⟨1, 0, .ack⟩]
    ulHarqInfoList := [⟨1, 0, .notOk⟩] }]

theorem run_harq_consistent_of_answered :
    Run.AllSteps (step twoLayers) (TriggerAnswered twoLayers) {} answered ∧
      HarqConsistent (Run.run (step twoLayers) {} answered) :=
  ⟨by decide, run_harq_consistent rfl rfl (by decide) (by decide) rfl _ (by decide)⟩

def shortTimeout : PaddedHbfConfig where
  amc := linearAmc
  phyMac := { numHarqProcess := 2, harqTimeout := 1 }

/-- The first block is never answered, and the second one is sent when the timer expires. -/
def unanswered : List SchedulerEvent :=
  [.cschedUeConfigReq 1 false false, .schedDlRlcBufferReq ⟨1, 3, 500, 0, 0⟩,
    .schedTriggerReq { sfnSf := {} }, .schedTriggerReq { sfnSf := { sfNum := 1 } },
    .schedDlRlcBufferReq ⟨1, 3, 200, 0, 0⟩, .schedTriggerReq { sfnSf := { sfNum := 2 } }]

/-- The RLC PDUs of the second block are stored behind those of the first one. -/
theorem not_consistent_of_unanswered :
    ¬HarqConsistent (Run.run (step shortTimeout) {} unanswered) := by
  intro hconsistent
  obtain ⟨pdus, hpdus, hsent⟩ := hconsistent.dlPdus 1 0 1 rfl Nat.zero_lt_one
  have hstored : pdus = [⟨3, 517⟩, ⟨3, 217⟩] := (Option.some.inj hpdus).symm
  have hlast : pdus = [⟨3, 217⟩] := (Option.some.inj hsent).symm
  rw [hstored] at hlast
  cases hlast

end SchedulerRun

end NtnIab.Mmwave
