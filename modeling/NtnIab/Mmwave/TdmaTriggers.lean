import NtnIab.Library.Run
import NtnIab.Mmwave.TdmaProcesses

/-!
# The triggers of the TDMA schedulers and the HARQ processes

A trigger throws away what has expired, answers the feedback and adds new data. Of the feedback it
leaves what the answers keep, and of the slots those of the retransmissions are as the answers made
them. In a subframe without symbols for data nothing but the first of these happens, and no process
is ever active.
-/

namespace NtnIab.Mmwave

open Fallible

variable {c : FlexTtiConfig}

/-! ## Beside the triggers -/

/-- A property of the processes that a configuration and a release of a UE keep. -/
structure KeptByRequests (m : MmWavePhyMacCommon) (I : HarqProcesses → Prop) : Prop where
  configure : ∀ h rnti, I h → I (h.configureUe m rnti)
  release : ∀ h rnti, I h → I (h.releaseUe rnti)

theorem keptByRequests_filed (m : MmWavePhyMacCommon) : KeptByRequests m HarqProcesses.Filed :=
  ⟨fun _ _ hh => hh.configureUe, fun _ _ hh => hh.releaseUe⟩

/-- A UE gets processes that are not active. -/
theorem configure_idle {status : OrderedMap (List Nat)} {rnti n : Nat}
    (hstatus : ∀ rnti id count, processOf status rnti id = some count → count = 0)
    (k id count : Nat)
    (hcount : processOf (status.insertNew rnti (List.replicate n 0)) k id = some count) :
    count = 0 := by
  rw [processOf_insertNew] at hcount
  by_cases hk : k = rnti
  · rw [if_pos hk] at hcount
    cases hfind : status.find k with
    | none =>
        rw [hfind] at hcount
        exact List.eq_of_mem_replicate (List.mem_of_getElem? hcount)
    | some elements =>
        rw [hfind] at hcount
        exact hstatus k id count (processOf_eq_some_iff.2 ⟨elements, hfind, hcount⟩)
  · rw [if_neg hk] at hcount
    exact hstatus k id count hcount

theorem keptByRequests_idle (m : MmWavePhyMacCommon) : KeptByRequests m HarqProcesses.Idle := by
  refine ⟨fun h rnti hh => ?_, fun h rnti hh => ?_⟩
  · unfold HarqProcesses.configureUe
    cases h.dlHarqProcessesStatus.find rnti with
    | some _ =>
        dsimp only
        split
        · exact hh
        · exact ⟨hh.dl, configure_idle hh.ul⟩
    | none =>
        dsimp only
        split
        · exact ⟨configure_idle hh.dl, hh.ul⟩
        · exact ⟨configure_idle hh.dl, configure_idle hh.ul⟩
  · refine ⟨fun k id count hcount => ?_, fun k id count hcount => ?_⟩
    · change processOf (h.dlHarqProcessesStatus.erase rnti) k id = some count at hcount
      rw [processOf_erase] at hcount
      split at hcount
      · cases hcount
      · exact hh.dl k id count hcount
    · change processOf (h.ulHarqProcessesStatus.erase rnti) k id = some count at hcount
      rw [processOf_erase] at hcount
      split at hcount
      · cases hcount
      · exact hh.ul k id count hcount

/-! ## Without UEs -/

theorem HarqProcesses.idle_start : ({} : HarqProcesses).Idle := by
  constructor <;> intro rnti id count hcount <;> cases hcount

theorem HarqProcesses.filed_start : ({} : HarqProcesses).Filed := by
  constructor <;> intro rnti id count hcount <;> cases hcount

/-! ## Requests -/

section

variable {I : HarqProcesses → Prop}

/-- The requests that the padded HBF scheduler has as well. -/
theorem KeptByRequests.request {c : PaddedHbfConfig} (hI : KeptByRequests c.phyMac I)
    {s : PaddedHbf} (hs : I s.harq) (event : SchedulerEvent) :
    I (SchedulerRun.request c event s).harq := by
  obtain ⟨⟨rnti, _, _, -, heq⟩ | ⟨rnti, -, heq⟩ | heq, -⟩ :=
    SchedulerRun.request_harq (c := c) (s := s) event
  · rw [heq]
    exact hI.configure _ _ hs
  · rw [heq]
    exact hI.release _ _ hs
  · rw [heq]
    exact hs

theorem FlexTti.toPaddedHbf_iabBackhaulSchedNotify {s s' : FlexTti} {sfnSf : SfnSf}
    {dci : DciInfoElementTdma} (hok : s.iabBackhaulSchedNotify c sfnSf dci = .ok s') :
    s'.toPaddedHbf = s.toPaddedHbf := by
  obtain ⟨⟨⟩, -, hok⟩ := bind_eq_ok.1 hok
  obtain ⟨_, -, hok⟩ := bind_eq_ok.1 hok
  obtain ⟨_, -, hok⟩ := bind_eq_ok.1 hok
  cases hok
  rfl

theorem FlexTti.toPaddedHbf_cschedUeConfigReq (s : FlexTti) (rnti : Nat)
    (reconfigureFlag iab : Bool) (numIabDevsPerRnti : Nat) :
    (s.cschedUeConfigReq c rnti reconfigureFlag iab numIabDevsPerRnti).toPaddedHbf =
      s.toPaddedHbf.cschedUeConfigReq c.toPaddedHbfConfig rnti reconfigureFlag iab := by
  unfold FlexTti.cschedUeConfigReq
  dsimp only
  split <;> rfl

theorem FlexTti.handle_keeps (hI : KeptByRequests c.phyMac I) {s : FlexTti} (hs : I s.harq)
    {event : FlexTtiEvent} (hno : ∀ params, event ≠ .schedTriggerReq params)
    {result : FlexTti × List SchedConfigInd} (hok : handle c event s = .ok result) :
    I result.1.harq := by
  cases event with
  | cschedUeConfigReq rnti reconfigureFlag iab numIabDevsPerRnti =>
      cases hok
      rw [toPaddedHbf_cschedUeConfigReq]
      exact hI.request hs (.cschedUeConfigReq rnti reconfigureFlag iab)
  | cschedUeReleaseReq rnti =>
      cases hok
      exact hI.request hs (.cschedUeReleaseReq rnti)
  | cschedLcReleaseReq rnti lcids =>
      cases hok
      exact hs
  | schedDlRlcBufferReq params =>
      cases hok
      exact hI.request hs (.schedDlRlcBufferReq params)
  | schedDlCqiInfoReq reports =>
      cases hok
      exact hI.request hs (.schedDlCqiInfoReq reports)
  | schedUlCqiInfoReq sfnSf sinr =>
      cases hok
      exact hI.request hs (.schedUlCqiInfoReq sfnSf sinr)
  | schedUlMacCtrlInfoReq reports =>
      cases hok
      exact hI.request hs (.schedUlMacCtrlInfoReq reports)
  | schedSetMcs mcs =>
      cases hok
      exact hI.request hs (.schedSetMcs mcs)
  | iabBackhaulSchedNotify sfnSf dci =>
      obtain ⟨next, hnext, rfl⟩ := map_eq_ok.1 hok
      rw [toPaddedHbf_iabBackhaulSchedNotify (blame_eq_ok.1 hnext)]
      exact hs
  | schedTriggerReq params => exact absurd rfl (hno params)

end

/-! ## Expiry -/

theorem HarqProcesses.Filed.refresh {c : PaddedHbfConfig} {s s' : PaddedHbf} (hs : s.harq.Filed)
    (hok : s.refresh c = .ok s') : s'.harq.Filed := by
  obtain ⟨-, -, hdl, -, hul, hdlTick, hulTick⟩ := PaddedHbf.refresh_ok hok
  refine ⟨?_, ?_⟩
  · rw [hdl]
    exact hs.dl.tick hdlTick
  · rw [hul]
    exact hs.ul.tick hulTick

/-- An expiry activates no process. -/
theorem tick_idle {m : MmWavePhyMacCommon} {timers status : OrderedMap (List Nat)}
    {maps : OrderedMap (List Nat) × OrderedMap (List Nat)}
    (hstatus : ∀ rnti id count, processOf status rnti id = some count → count = 0)
    (hok : tick m timers status = .ok maps) (rnti id count : Nat)
    (hcount : processOf maps.2 rnti id = some count) : count = 0 := by
  rcases tick_ok hok rnti id with hsame | ⟨hreset, -⟩
  · exact hstatus rnti id count (hsame ▸ hcount)
  · rw [hreset] at hcount
    obtain ⟨_, -, rfl⟩ := Option.map_eq_some_iff.1 hcount
    rfl

theorem HarqProcesses.Idle.refresh {c : PaddedHbfConfig} {s s' : PaddedHbf} (hs : s.harq.Idle)
    (hok : s.refresh c = .ok s') : s'.harq.Idle := by
  obtain ⟨-, -, -, -, -, hdlTick, hulTick⟩ := PaddedHbf.refresh_ok hok
  exact ⟨tick_idle hs.dl hdlTick, tick_idle hs.ul hulTick⟩

theorem FlexTti.toPaddedHbf_updateBusySymbolsForIab {s : FlexTti} {sfNum : Nat} {symAvail : Int}
    {result : Int × FlexTti} (hok : s.updateBusySymbolsForIab c sfNum symAvail = .ok result) :
    result.2.toPaddedHbf = s.toPaddedHbf := by
  unfold updateBusySymbolsForIab at hok
  split at hok
  · obtain ⟨busyResources, -, hok⟩ := bind_eq_ok.1 hok
    split at hok
    · obtain rfl := pure_eq_ok.1 hok
      rfl
    · obtain rfl := pure_eq_ok.1 hok
      rfl
  · obtain rfl := pure_eq_ok.1 hok
    rfl

/-- What a trigger prepares, apart from the busy symbols, is what has not expired. -/
theorem FlexTti.prepare_refresh {s : FlexTti} {params : SchedTriggerReqParameters}
    {prepared : Prepared} (hok : s.prepare c params = .ok prepared) :
    s.toPaddedHbf.refresh c.toPaddedHbfConfig = .ok prepared.scheduler.toPaddedHbf := by
  obtain ⟨sfnSf, -, hok⟩ := bind_eq_ok.1 hok
  obtain ⟨symAvail, hbusy, hok⟩ := bind_eq_ok.1 hok
  obtain ⟨refreshed, hrefreshed, hok⟩ := bind_eq_ok.1 hok
  obtain rfl := pure_eq_ok.1 hok
  rw [← toPaddedHbf_updateBusySymbolsForIab (blame_eq_ok.1 hbusy)]
  exact blame_eq_ok.1 hrefreshed

/-! ## Triggers -/

/-- What a trigger makes of the answers: the feedback that they kept waits, and beside their slots
there are only those of new blocks and of the control regions. -/
structure Concludes {U : Type} (pass : RetxPass U) (s' : PaddedHbf) (ind : SchedConfigInd) :
    Prop where
  filed : s'.harq.Filed
  dlKept : s'.dlHarqInfoList = pass.dlHarqInfoList
  ulKept : s'.ulHarqInfoList = pass.ulHarqInfoList
  slots : ∃ others, ind.slotAllocInfo.Perm (pass.subframe.slotAllocInfo ++ others) ∧
    ∀ slot ∈ others, slot.dci.rv = 0

/-- Nothing is added to the slots of the answers but the control slot at the end. -/
theorem allocationOf_slots (sfnSf : SfnSf) (sf : Subframe) {base new : List SlotAllocInfo}
    (hnew : sf.slotAllocInfo = base ++ new) (hall : ∀ slot ∈ new, slot.dci.rv = 0) :
    ∃ others, (allocationOf c sfnSf sf).slotAllocInfo.Perm (base ++ others) ∧
      ∀ slot ∈ others, slot.dci.rv = 0 := by
  refine ⟨new ++ [ulCtrlSlot c.toPaddedHbfConfig], ?_, ?_⟩
  · show (sf.slotAllocInfo ++ [_]).Perm _
    rw [hnew, List.append_assoc]
  · rw [List.forall_mem_append, List.forall_mem_singleton]
    exact ⟨hall, rfl⟩

theorem sortedAllocation_slots {ind : SchedConfigInd} {base : List SlotAllocInfo}
    (hslots : ∃ others, ind.slotAllocInfo.Perm (base ++ others) ∧
      ∀ slot ∈ others, slot.dci.rv = 0) :
    ∃ others, (sortedAllocation c ind).slotAllocInfo.Perm (base ++ others) ∧
      ∀ slot ∈ others, slot.dci.rv = 0 := by
  obtain ⟨others, hperm, hall⟩ := hslots
  exact ⟨others, (c.slotSort.perm _ _).trans hperm, hall⟩

namespace FlexTti

variable {s : FlexTti} {params : SchedTriggerReqParameters}
  {result : FlexTti × SchedConfigInd}

theorem grantUe_adds (hharq : c.harqOn = true) {base : List SlotAllocInfo} {sfnSf : SfnSf}
    {ueInfo : OrderedMap UeSchedInfo} {rnti : Nat}
    {d d' : Grants (List SchedDlRlcBufferReqParameters × OrderedMap Nat)}
    (hd : d.Adds base) (hok : grantUe c sfnSf ueInfo d rnti = .ok d') : d'.Adds base := by
  have hul : ∀ (next : Grants _) (mcs numSym : Nat), next.Adds base →
      (if 0 < numSym then next.grantUl c buffers sfnSf rnti mcs numSym else pure next) = .ok d' →
      d'.Adds base := by
    intro next mcs numSym hnext hok
    split at hok
    · exact hnext.grantUl hharq hok
    · obtain rfl := pure_eq_ok.1 hok
      exact hnext
  unfold grantUe at hok
  have hok := blame_eq_ok.1 hok
  dsimp only at hok
  split at hok
  · obtain ⟨next, hnext, hok⟩ := bind_eq_ok.1 hok
    exact hul next _ _ (hd.grantDl hharq hnext) hok
  · exact hul d _ _ hd hok

theorem scheduleNewData_concludes (hharq : c.harqOn = true) {sfnSf : SfnSf}
    {pass : RetxPass (OrderedMap UeSchedInfo)} (hpass : pass.harq.Filed)
    (hok : s.scheduleNewData c sfnSf pass = .ok result) :
    Concludes pass result.1.toPaddedHbf result.2 := by
  obtain ⟨flows, -, hok⟩ := bind_eq_ok.1 hok
  split at hok
  · obtain rfl := pure_eq_ok.1 hok
    exact ⟨hpass, rfl, rfl, allocationOf_slots _ _ (List.append_nil _).symm
      fun slot hslot => absurd hslot List.not_mem_nil⟩
  · obtain ⟨divided, -, hok⟩ := bind_eq_ok.1 hok
    obtain ⟨_, -, hok⟩ := bind_eq_ok.1 hok
    obtain ⟨d, hd, hok⟩ := bind_eq_ok.1 hok
    obtain rfl := pure_eq_ok.1 hok
    have hadds : d.Adds pass.subframe.slotAllocInfo :=
      foldlM_invariant (I := fun d _ => d.Adds pass.subframe.slotAllocInfo) hd
        ⟨hpass, [], (List.append_nil _).symm, fun slot hslot => absurd hslot List.not_mem_nil⟩
        fun d rnti _ d' hadds hgrant => grantUe_adds hharq hadds hgrant
    obtain ⟨new, hnew, hall⟩ := hadds.slots
    exact ⟨hadds.filed, rfl, rfl, sortedAllocation_slots (allocationOf_slots _ _ hnew hall)⟩

/-- A trigger answers the feedback that waits together with what came now, and adds new data. -/
theorem schedTriggerReq_ok (hharq : c.harqOn = true) (hs : s.harq.Filed)
    (hok : s.schedTriggerReq c params = .ok result) :
    ∃ prepared, s.prepare c params = .ok prepared ∧
      (hasData c ∧ (∃ pass, answerFeedback c book
          (pendingFeedback params prepared.room prepared.scheduler.toPaddedHbf []) = .ok pass ∧
          Concludes pass result.1.toPaddedHbf result.2) ∨
        ¬ hasData c ∧ result.1 = prepared.scheduler) := by
  obtain ⟨prepared, hprepared, hok⟩ := bind_eq_ok.1 hok
  refine ⟨prepared, hprepared, ?_⟩
  split at hok
  · rename_i hdata
    obtain ⟨pass, hpass, hok⟩ := bind_eq_ok.1 hok
    have hfiled : prepared.scheduler.harq.Filed := hs.refresh (prepare_refresh hprepared)
    exact Or.inl ⟨hdata, pass, hpass,
      scheduleNewData_concludes hharq (answerFeedback_filed hfiled hpass) hok⟩
  · rename_i hno
    obtain rfl := pure_eq_ok.1 hok
    exact Or.inr ⟨hno, rfl⟩

/-- What holds of the processes in every run: active ones have their DCIs, and without symbols for
data there are none. -/
theorem handle_records (hharq : c.harqOn = true) (hs : s.harq.Filed)
    (hidle : ¬ hasData c → s.harq.Idle) {event : FlexTtiEvent}
    {result : FlexTti × List SchedConfigInd} (hok : handle c event s = .ok result) :
    result.1.harq.Filed ∧ (¬ hasData c → result.1.harq.Idle) := by
  by_cases htrigger : ∃ params, event = .schedTriggerReq params
  · obtain ⟨params, rfl⟩ := htrigger
    obtain ⟨next, hnext, rfl⟩ := map_eq_ok.1 hok
    obtain ⟨prepared, hprepared, ⟨hdata, pass, -, hconcludes⟩ | ⟨hno, hsame⟩⟩ :=
      schedTriggerReq_ok hharq hs hnext
    · exact ⟨hconcludes.filed, fun hno => absurd hdata hno⟩
    · have hrefreshed := prepare_refresh hprepared
      show next.1.harq.Filed ∧ _
      rw [hsame]
      exact ⟨hs.refresh hrefreshed, fun hno => (hidle hno).refresh hrefreshed⟩
  · have hno : ∀ params, event ≠ .schedTriggerReq params := fun params heq => htrigger ⟨params, heq⟩
    exact ⟨handle_keeps (keptByRequests_filed _) hs hno hok,
      fun hdata => handle_keeps (keptByRequests_idle _) (hidle hdata) hno hok⟩

theorem run_records (hharq : c.harqOn = true) (events : List FlexTtiEvent) :
    let s := (Run.run (TdmaRun.step (handle c)) { scheduler := start c } events).scheduler
    s.harq.Filed ∧ (¬ hasData c → s.harq.Idle) := by
  refine Run.invariant (I := fun r : TdmaRun FlexTti =>
    r.scheduler.harq.Filed ∧ (¬ hasData c → r.scheduler.harq.Idle)) (fun r event hr => ?_)
    ⟨HarqProcesses.filed_start, fun _ => HarqProcesses.idle_start⟩
  unfold TdmaRun.step
  split
  · exact hr
  · split
    · rename_i result hresult
      exact handle_records hharq hr.1 hr.2 hresult
    · exact hr

end FlexTti

namespace FlexTtiPf

variable {s : FlexTtiPf} {params : SchedTriggerReqParameters}
  {result : FlexTtiPf × SchedConfigInd}

theorem grantAll_adds (hharq : c.harqOn = true) {base : List SlotAllocInfo} {sfnSf : SfnSf}
    {rntis : List Nat} {d d' : Grants (OrderedMap UeSchedInfo)} (hd : d.Adds base)
    (hok : grantAll c sfnSf rntis d = .ok d') : d'.Adds base := by
  obtain ⟨dl, hdl, hul⟩ := bind_eq_ok.1 hok
  have hadds : dl.Adds base := by
    refine foldlM_invariant (I := fun d _ => d.Adds base) hdl hd ?_
    intro d rnti _ d' hadds hgrant
    unfold grantDlOf at hgrant
    have hgrant := blame_eq_ok.1 hgrant
    split at hgrant
    · exact hadds.grantDl hharq hgrant
    · obtain rfl := pure_eq_ok.1 hgrant
      exact hadds
  refine foldlM_invariant (I := fun d _ => d.Adds base) hul hadds ?_
  intro d rnti _ d' hadds hgrant
  unfold grantUlOf at hgrant
  have hgrant := blame_eq_ok.1 hgrant
  split at hgrant
  · exact hadds.grantUl hharq hgrant
  · obtain rfl := pure_eq_ok.1 hgrant
    exact hadds

theorem scheduleNewData_concludes (hharq : c.harqOn = true) {a : Answered}
    {collected : Collected} (hpass : a.pass.harq.Filed) (hharqOf : a.scheduler.harq = a.pass.harq)
    (hdlKept : a.scheduler.dlHarqInfoList = a.pass.dlHarqInfoList)
    (hulKept : a.scheduler.ulHarqInfoList = a.pass.ulHarqInfoList)
    (hok : scheduleNewData c a collected = .ok result) :
    Concludes a.pass result.1.toPaddedHbf result.2 := by
  obtain ⟨divided, -, hok⟩ := bind_eq_ok.1 hok
  split at hok
  · obtain rfl := pure_eq_ok.1 hok
    refine ⟨?_, hdlKept, hulKept, allocationOf_slots _ _ (List.append_nil _).symm
      fun slot hslot => absurd hslot List.not_mem_nil⟩
    show a.scheduler.harq.Filed
    rw [hharqOf]
    exact hpass
  · obtain ⟨d, hd, hok⟩ := bind_eq_ok.1 hok
    obtain rfl := pure_eq_ok.1 hok
    have hadds : d.Adds a.pass.subframe.slotAllocInfo := by
      refine grantAll_adds hharq ⟨?_, [], (List.append_nil _).symm,
        fun slot hslot => absurd hslot List.not_mem_nil⟩ hd
      show a.scheduler.harq.Filed
      rw [hharqOf]
      exact hpass
    obtain ⟨new, hnew, hall⟩ := hadds.slots
    exact ⟨hadds.filed, hdlKept, hulKept,
      sortedAllocation_slots (allocationOf_slots _ _ hnew hall)⟩

/-- A trigger answers the feedback that waits together with what came now, and adds new data. -/
theorem schedTriggerReq_ok (hharq : c.harqOn = true) (hs : s.harq.Filed)
    (hok : s.schedTriggerReq c params = .ok result) :
    ∃ prepared, s.toFlexTti.prepare c params = .ok prepared ∧
      (FlexTti.hasData c ∧ (∃ pass, answerFeedback c book
          (FlexTti.pendingFeedback params prepared.room prepared.scheduler.toPaddedHbf
            { ueSchedInfoMap := s.ueSchedInfoMap }) = .ok pass ∧
          Concludes pass result.1.toPaddedHbf result.2) ∨
        ¬ FlexTti.hasData c ∧ result.1.toFlexTti = prepared.scheduler) := by
  obtain ⟨answered, hanswered, hok⟩ := bind_eq_ok.1 hok
  obtain ⟨prepared, hprepared, hanswered⟩ := bind_eq_ok.1 hanswered
  refine ⟨prepared, hprepared, ?_⟩
  split at hanswered
  · rename_i hdata
    obtain ⟨pass, hpass, hanswered⟩ := bind_eq_ok.1 hanswered
    obtain rfl := pure_eq_ok.1 hanswered
    have hfiled : pass.harq.Filed := by
      refine answerFeedback_filed ?_ hpass
      exact hs.refresh (FlexTti.prepare_refresh hprepared)
    refine Or.inl ⟨hdata, pass, hpass, ?_⟩
    dsimp only at hok
    split at hok
    · obtain rfl := pure_eq_ok.1 hok
      exact ⟨hfiled, rfl, rfl, allocationOf_slots _ _ (List.append_nil _).symm
        fun slot hslot => absurd hslot List.not_mem_nil⟩
    · obtain ⟨collected, -, hok⟩ := bind_eq_ok.1 hok
      exact scheduleNewData_concludes hharq hfiled rfl rfl rfl hok
  · rename_i hno
    obtain rfl := pure_eq_ok.1 hanswered
    obtain rfl := pure_eq_ok.1 hok
    exact Or.inr ⟨hno, rfl⟩

theorem toFlexTti_cschedLcConfigReq {s' : FlexTtiPf} {rnti : Nat}
    {channels : List LogicalChannelConfig} (hok : s.cschedLcConfigReq rnti channels = .ok s') :
    s'.toFlexTti = s.toFlexTti := by
  unfold cschedLcConfigReq at hok
  split at hok
  · obtain rfl := pure_eq_ok.1 hok
    rfl
  · obtain ⟨ue, -, hok⟩ := bind_eq_ok.1 hok
    obtain rfl := pure_eq_ok.1 hok
    rfl

theorem toFlexTti_bsrOf {s' : FlexTtiPf} {rnti lcg : Nat} {bufferStatus : List Nat}
    (hok : bsrOf rnti bufferStatus s lcg = .ok s') : s'.toFlexTti = s.toFlexTti := by
  obtain ⟨bsrId, -, hok⟩ := bind_eq_ok.1 hok
  obtain ⟨bufSize, -, hok⟩ := bind_eq_ok.1 hok
  split at hok
  · obtain rfl := pure_eq_ok.1 hok
    rfl
  · split at hok
    · obtain rfl := pure_eq_ok.1 hok
      rfl
    · obtain ⟨flow, -, hok⟩ := bind_eq_ok.1 hok
      obtain rfl := pure_eq_ok.1 hok
      rfl

/-- The request of the padded HBF scheduler that does the same to what both schedulers have. -/
def shared : FlexTtiPfEvent → Option SchedulerEvent
  | .cschedUeConfigReq rnti reconfigureFlag iab _ =>
      some (.cschedUeConfigReq rnti reconfigureFlag iab)
  | .cschedUeReleaseReq rnti => some (.cschedUeReleaseReq rnti)
  | .cschedLcReleaseReq rnti lcids => some (.cschedLcReleaseReq rnti lcids)
  | .schedDlCqiInfoReq reports => some (.schedDlCqiInfoReq reports)
  | .schedUlCqiInfoReq sfnSf sinr => some (.schedUlCqiInfoReq sfnSf sinr)
  | .schedSetMcs mcs => some (.schedSetMcs mcs)
  | _ => none

/-- What the requests do to the state that the padded HBF scheduler has as well. -/
theorem handle_shared {event : FlexTtiPfEvent} (hno : ∀ params, event ≠ .schedTriggerReq params)
    {result : FlexTtiPf × List SchedConfigInd} (hok : handle c event s = .ok result) :
    result.1.toPaddedHbf = match shared event with
      | some request => SchedulerRun.request c.toPaddedHbfConfig request s.toPaddedHbf
      | none => s.toPaddedHbf := by
  cases event with
  | cschedUeConfigReq rnti reconfigureFlag iab numIabDevsPerRnti =>
      cases hok
      exact FlexTti.toPaddedHbf_cschedUeConfigReq _ rnti reconfigureFlag iab numIabDevsPerRnti
  | cschedLcConfigReq rnti channels =>
      obtain ⟨next, hnext, rfl⟩ := map_eq_ok.1 hok
      exact congrArg FlexTti.toPaddedHbf (toFlexTti_cschedLcConfigReq (blame_eq_ok.1 hnext))
  | schedUlMacCtrlInfoReq reports =>
      obtain ⟨next, hnext, rfl⟩ := map_eq_ok.1 hok
      refine foldlM_invariant (I := fun r _ => r.toPaddedHbf = s.toPaddedHbf)
        (blame_eq_ok.1 hnext) rfl ?_
      intro r report _ r' hr hreport
      refine foldlM_invariant (I := fun r _ => r.toPaddedHbf = s.toPaddedHbf) hreport hr ?_
      intro r lcg _ r' hr hstep
      rw [toFlexTti_bsrOf hstep]
      exact hr
  | iabBackhaulSchedNotify sfnSf dci =>
      obtain ⟨next, hnext, rfl⟩ := map_eq_ok.1 hok
      exact FlexTti.toPaddedHbf_iabBackhaulSchedNotify (blame_eq_ok.1 hnext)
  | schedTriggerReq params => exact absurd rfl (hno params)
  | _ =>
      cases hok
      rfl

theorem handle_keeps {I : HarqProcesses → Prop} (hI : KeptByRequests c.phyMac I)
    (hs : I s.harq) {event : FlexTtiPfEvent} (hno : ∀ params, event ≠ .schedTriggerReq params)
    {result : FlexTtiPf × List SchedConfigInd} (hok : handle c event s = .ok result) :
    I result.1.harq := by
  rw [handle_shared hno hok]
  split
  · exact hI.request hs _
  · exact hs

/-- What holds of the processes in every run: active ones have their DCIs, and without symbols for
data there are none. -/
theorem handle_records (hharq : c.harqOn = true) (hs : s.harq.Filed)
    (hidle : ¬ FlexTti.hasData c → s.harq.Idle) {event : FlexTtiPfEvent}
    {result : FlexTtiPf × List SchedConfigInd} (hok : handle c event s = .ok result) :
    result.1.harq.Filed ∧ (¬ FlexTti.hasData c → result.1.harq.Idle) := by
  by_cases htrigger : ∃ params, event = .schedTriggerReq params
  · obtain ⟨params, rfl⟩ := htrigger
    obtain ⟨next, hnext, rfl⟩ := map_eq_ok.1 hok
    obtain ⟨prepared, hprepared, ⟨hdata, pass, -, hconcludes⟩ | ⟨hno, hsame⟩⟩ :=
      schedTriggerReq_ok hharq hs hnext
    · exact ⟨hconcludes.filed, fun hno => absurd hdata hno⟩
    · have hrefreshed := FlexTti.prepare_refresh hprepared
      show next.1.harq.Filed ∧ _
      rw [hsame]
      exact ⟨hs.refresh hrefreshed, fun hno => (hidle hno).refresh hrefreshed⟩
  · have hno : ∀ params, event ≠ .schedTriggerReq params := fun params heq => htrigger ⟨params, heq⟩
    exact ⟨handle_keeps (keptByRequests_filed _) hs hno hok,
      fun hdata => handle_keeps (keptByRequests_idle _) (hidle hdata) hno hok⟩

theorem run_records (hharq : c.harqOn = true) (events : List FlexTtiPfEvent) :
    let s := (Run.run (TdmaRun.step (handle c)) { scheduler := start c } events).scheduler
    s.harq.Filed ∧ (¬ FlexTti.hasData c → s.harq.Idle) := by
  refine Run.invariant (I := fun r : TdmaRun FlexTtiPf =>
    r.scheduler.harq.Filed ∧ (¬ FlexTti.hasData c → r.scheduler.harq.Idle))
    (fun r event hr => ?_) ⟨HarqProcesses.filed_start, fun _ => HarqProcesses.idle_start⟩
  unfold TdmaRun.step
  split
  · exact hr
  · split
    · rename_i result hresult
      exact handle_records hharq hr.1 hr.2 hresult
    · exact hr

end FlexTtiPf

end NtnIab.Mmwave
