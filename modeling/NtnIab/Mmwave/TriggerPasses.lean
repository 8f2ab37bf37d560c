import NtnIab.Mmwave.NewDataTurns
import NtnIab.Mmwave.PaddedHbfTrigger
import NtnIab.Mmwave.RetxRounds

/-!
# The passes of a trigger

What the requests leave alone, what a trigger refreshes, and the results of its passes one after
the other.
-/

namespace NtnIab.Mmwave

open Fallible

/-! ## Requests -/

namespace PaddedHbf

/-- The processes and the feedback that waits. -/
def sameHarq (s s' : PaddedHbf) : Prop :=
  s'.harq = s.harq ∧ s'.dlHarqInfoList = s.dlHarqInfoList ∧ s'.ulHarqInfoList = s.ulHarqInfoList

variable {c : PaddedHbfConfig} {s : PaddedHbf}

theorem sameHarq_refl : s.sameHarq s := ⟨rfl, rfl, rfl⟩

/-- What no element of a list of reports changes, the list does not change. -/
theorem sameHarq_foldl {Report : Type} {f : PaddedHbf → Report → PaddedHbf}
    (hf : ∀ (s : PaddedHbf) report, s.sameHarq (f s report)) (reports : List Report) :
    s.sameHarq (reports.foldl f s) := by
  refine Run.invariant (I := s.sameHarq) ?_ sameHarq_refl
  intro s' report hs'
  obtain ⟨hharq, hdl, hul⟩ := hf s' report
  exact ⟨hharq.trans hs'.1, hdl.trans hs'.2.1, hul.trans hs'.2.2⟩

theorem sameHarq_schedDlRlcBufferReq (params : SchedDlRlcBufferReqParameters) :
    s.sameHarq (s.schedDlRlcBufferReq c params) := by
  unfold schedDlRlcBufferReq
  simp only
  split <;> exact ⟨rfl, rfl, rfl⟩

theorem sameHarq_schedDlCqiInfoReq (reports : List (Nat × Nat)) :
    s.sameHarq (s.schedDlCqiInfoReq c reports) := by
  refine sameHarq_foldl (fun s report => ?_) reports
  unfold dlCqi
  split <;> exact ⟨rfl, rfl, rfl⟩

theorem sameHarq_schedUlCqiInfoReq (sfnSf : SfnSf) (sinr : List Nat) :
    s.sameHarq (s.schedUlCqiInfoReq c sfnSf sinr) := by
  unfold schedUlCqiInfoReq
  split
  · exact sameHarq_refl
  · rename_i allocation _
    refine sameHarq_foldl (f := ulCqi c allocation sinr) (fun s i => ?_) _
    unfold ulCqi
    simp only
    split <;> exact ⟨rfl, rfl, rfl⟩

theorem sameHarq_schedUlMacCtrlInfoReq (reports : List (Nat × List Nat)) :
    s.sameHarq (s.schedUlMacCtrlInfoReq reports) :=
  sameHarq_foldl (f := fun s report => s.bsr report) (fun _ _ => ⟨rfl, rfl, rfl⟩) reports

theorem sameHarq_schedSetMcs (mcs : Int) : s.sameHarq (s.schedSetMcs mcs) := by
  unfold schedSetMcs
  split <;> exact ⟨rfl, rfl, rfl⟩

end PaddedHbf

/-- Only a configuration or a release of a UE changes the processes, and no request changes the
feedback that waits. -/
theorem SchedulerRun.request_harq {c : PaddedHbfConfig} {s : PaddedHbf} (event : SchedulerEvent) :
    ((∃ rnti reconfigureFlag iab, event = .cschedUeConfigReq rnti reconfigureFlag iab ∧
        (request c event s).harq = s.harq.configureUe c.phyMac rnti) ∨
      (∃ rnti, event = .cschedUeReleaseReq rnti ∧
        (request c event s).harq = s.harq.releaseUe rnti) ∨
      (request c event s).harq = s.harq) ∧
    (request c event s).dlHarqInfoList = s.dlHarqInfoList ∧
    (request c event s).ulHarqInfoList = s.ulHarqInfoList := by
  have hother : ∀ s', s.sameHarq s' →
      ((∃ rnti reconfigureFlag iab, event = .cschedUeConfigReq rnti reconfigureFlag iab ∧
          s'.harq = s.harq.configureUe c.phyMac rnti) ∨
        (∃ rnti, event = .cschedUeReleaseReq rnti ∧ s'.harq = s.harq.releaseUe rnti) ∨
        s'.harq = s.harq) ∧
      s'.dlHarqInfoList = s.dlHarqInfoList ∧ s'.ulHarqInfoList = s.ulHarqInfoList :=
    fun s' hs' => ⟨Or.inr (Or.inr hs'.1), hs'.2⟩
  cases event with
  | cschedUeConfigReq rnti reconfigureFlag iab =>
      show ((∃ _, _) ∨ _) ∧ (s.cschedUeConfigReq c rnti reconfigureFlag iab).dlHarqInfoList = _ ∧ _
      refine ⟨Or.inl ⟨rnti, reconfigureFlag, iab, rfl, ?_⟩, ?_, ?_⟩ <;>
        simp only [request, PaddedHbf.cschedUeConfigReq] <;> split <;> rfl
  | cschedUeReleaseReq rnti => exact ⟨Or.inr (Or.inl ⟨rnti, rfl, rfl⟩), rfl, rfl⟩
  | cschedLcReleaseReq rnti lcids => exact hother _ ⟨rfl, rfl, rfl⟩
  | schedDlRlcBufferReq params => exact hother _ (PaddedHbf.sameHarq_schedDlRlcBufferReq params)
  | schedDlCqiInfoReq reports => exact hother _ (PaddedHbf.sameHarq_schedDlCqiInfoReq reports)
  | schedUlCqiInfoReq sfnSf sinr =>
      exact hother _ (PaddedHbf.sameHarq_schedUlCqiInfoReq sfnSf sinr)
  | schedUlMacCtrlInfoReq reports =>
      exact hother _ (PaddedHbf.sameHarq_schedUlMacCtrlInfoReq reports)
  | schedSetMcs mcs => exact hother _ (PaddedHbf.sameHarq_schedSetMcs mcs)
  | schedTriggerReq params => exact hother _ PaddedHbf.sameHarq_refl

/-- What a step does: nothing, a request, or a trigger that has a result or stops the
simulation. -/
theorem SchedulerRun.step_cases {c : PaddedHbfConfig} (r : SchedulerRun) (event : SchedulerEvent) :
    (r.step c event).scheduler = r.scheduler ∧ (r.step c event).emitted = r.emitted ∨
    (r.step c event).scheduler = request c event r.scheduler ∧
      (r.step c event).emitted = r.emitted ∧ (r.step c event).fault = none ∨
    ∃ params s p, event = .schedTriggerReq params ∧ r.fault = none ∧
      r.scheduler.schedule c params = .ok (s, p) ∧ (r.step c event).scheduler = s ∧
      (r.step c event).fault = none ∧
      (r.step c event).emitted =
        ⟨params.sfnSf, mergeSlots c p, p.numSymAlloc, c.phyMac.numEnbLayers⟩ :: r.emitted := by
  cases hfault : r.fault with
  | some fault =>
      have hstep : r.step c event = r := by
        unfold step
        rw [hfault]
      rw [hstep]
      exact Or.inl ⟨rfl, rfl⟩
  | none =>
      cases event with
      | schedTriggerReq params =>
          have hstep : r.step c (.schedTriggerReq params) = r.trigger c params := by
            unfold step
            rw [hfault]
          rw [hstep]
          unfold trigger PaddedHbf.schedTriggerReq
          cases hok : r.scheduler.schedule c params with
          | error fault => exact Or.inl ⟨rfl, rfl⟩
          | ok result =>
              exact Or.inr (Or.inr ⟨params, result.1, result.2, rfl, rfl, hok, rfl, hfault, rfl⟩)
      | _ =>
          unfold step
          rw [hfault]
          exact Or.inr (Or.inl ⟨rfl, rfl, rfl⟩)

/-! ## What expires -/

/-- The timer of a process of a UE is at the timeout. -/
def Expires (m : MmWavePhyMacCommon) (timers : OrderedMap (List Nat)) (rnti id : Nat) : Prop :=
  ∃ entry ∈ timers, entry.1 = rnti ∧ entry.2[id]? = some m.harqTimeout

/-- The status of a process is as it was, or it is reset because the timer is at the timeout. -/
theorem tick_ok {m : MmWavePhyMacCommon} {timers status : OrderedMap (List Nat)}
    {maps : OrderedMap (List Nat) × OrderedMap (List Nat)}
    (hok : tick m timers status = .ok maps) (rnti id : Nat) :
    processOf maps.2 rnti id = processOf status rnti id ∨
      (processOf maps.2 rnti id = (processOf status rnti id).map (fun _ => 0) ∧
        Expires m timers rnti id) := by
  unfold tick at hok
  refine foldlM_invariant (I := fun maps rest => (∀ entry ∈ rest, entry ∈ timers) ∧
    (processOf maps.2 rnti id = processOf status rnti id ∨
      (processOf maps.2 rnti id = (processOf status rnti id).map (fun _ => 0) ∧
        Expires m timers rnti id))) hok ⟨fun _ h => h, Or.inl rfl⟩ ?_ |>.2
  intro maps entry rest maps' ⟨hmem, hmaps⟩ hentry
  refine ⟨fun other hother => hmem other (List.mem_cons_of_mem _ hother), ?_⟩
  refine foldlM_invariant (I := fun maps _ =>
    processOf maps.2 rnti id = processOf status rnti id ∨
      (processOf maps.2 rnti id = (processOf status rnti id).map (fun _ => 0) ∧
        Expires m timers rnti id)) hentry hmaps ?_
  intro maps i rest maps' hmaps hprocess
  unfold tickProcess at hprocess
  simp only [bind_eq_ok, elementAt_eq_ok] at hprocess
  obtain ⟨timer, htimer, hprocess⟩ := hprocess
  split at hprocess
  · rename_i htimeout
    simp only [bind_eq_ok] at hprocess
    obtain ⟨-, -, -, -, hprocess⟩ := hprocess
    obtain rfl := Except.ok.inj hprocess
    rw [processOf_setProcess]
    split
    · rename_i heq
      refine Or.inr ⟨?_, entry, hmem entry List.mem_cons_self, heq.1.symm, ?_⟩
      · rcases hmaps with hmaps | ⟨hmaps, -⟩
        · rw [hmaps]
        · rw [hmaps, Option.map_map]
          rfl
      · rw [heq.2, htimer, htimeout]
    · exact hmaps
  · obtain rfl := Except.ok.inj hprocess
    exact hmaps

namespace PaddedHbf

variable {c : PaddedHbfConfig} {s s' : PaddedHbf}

/-- A refresh keeps what waits, and of the processes it changes only the status and the timers. -/
theorem refresh_ok (hok : s.refresh c = .ok s') :
    s'.dlHarqInfoList = s.dlHarqInfoList ∧ s'.ulHarqInfoList = s.ulHarqInfoList ∧
    s'.harq.dlHarqProcessesDciInfoMap = s.harq.dlHarqProcessesDciInfoMap ∧
    s'.harq.dlHarqProcessesRlcPduMap = s.harq.dlHarqProcessesRlcPduMap ∧
    s'.harq.ulHarqProcessesDciInfoMap = s.harq.ulHarqProcessesDciInfoMap ∧
    tick c.phyMac s.harq.dlHarqProcessesTimer s.harq.dlHarqProcessesStatus =
      .ok (s'.harq.dlHarqProcessesTimer, s'.harq.dlHarqProcessesStatus) ∧
    tick c.phyMac s.harq.ulHarqProcessesTimer s.harq.ulHarqProcessesStatus =
      .ok (s'.harq.ulHarqProcessesTimer, s'.harq.ulHarqProcessesStatus) := by
  unfold refresh refreshDlCqiMaps refreshUlCqiMaps HarqProcesses.refreshHarqProcesses at hok
  simp only [bind_eq_ok] at hok
  obtain ⟨s₁, ⟨dlMaps, -, hs₁⟩, s₂, ⟨ulMaps, -, hs₂⟩, h, ⟨dl, hdl, ul, hul, hh⟩, hok⟩ := hok
  obtain rfl := Except.ok.inj hs₁
  obtain rfl := Except.ok.inj hs₂
  obtain rfl := Except.ok.inj hh
  obtain rfl := Except.ok.inj hok
  exact ⟨rfl, rfl, rfl, rfl, rfl, hdl, hul⟩

/-! ## The passes -/

/-- The block that is open at the end of the downlink pass is closed. -/
def closedDl (c : PaddedHbfConfig) (p : Placement) : Placement :=
  if 0 < p.layerIdx then p.closeDlBlock c else p

/-- The block that is open at the end of the uplink pass is closed. -/
def closedUl (c : PaddedHbfConfig) (p : Placement) : Placement :=
  if 0 < p.layerIdx then p.closeUlBlock c else p

/-- The passes of a trigger with HARQ on, from the state `s` to the state `s'` and the placement
`p`. -/
structure Passes (c : PaddedHbfConfig) (params : SchedTriggerReqParameters) (s s' : PaddedHbf)
    (p : Placement) where
  refreshed : PaddedHbf
  dlNoted : Feedback
  dl : Retx DlHarqInfo
  ulNoted : Feedback
  ulVisited : Option Nat
  ul : Retx UlHarqInfo
  layers : c.phyMac.numEnbLayers < 2 ^ 8
  refresh_ok : s.refresh c = .ok refreshed
  dlFeedback_ok : (s.dlHarqInfoList ++ params.dlHarqInfoList).zipIdx.foldlM
    (dlFeedback c refreshed.wbCqiRxed) (refreshed.harq, []) = .ok dlNoted
  dlLoop_ok : dlLoop c (s.dlHarqInfoList ++ params.dlHarqInfoList)
    { harq := dlNoted.1
      placement := .start c
      ueInfo := []
      itUeInfo := none
      sortedHarqRetx := dlNoted.2 } = .ok dl
  ulFeedback_ok : (s.ulHarqInfoList ++ params.ulHarqInfoList).zipIdx.foldlM ulFeedback
    (dl.harq, []) = .ok ulNoted
  ulLoop_ok : ulLoop c (s.ulHarqInfoList ++ params.ulHarqInfoList)
    { harq := ulNoted.1
      placement := closedDl c dl.placement
      ueInfo := dl.ueInfo
      itUeInfo := ulVisited
      sortedHarqRetx := ulNoted.2 } = .ok ul
  newData_ok : scheduleNewData c params.sfnSf refreshed
    { harq := ul.harq
      placement := closedUl c ul.placement
      ueInfo := ul.ueInfo
      dlHarqInfoList := dl.infoListUntxed
      ulHarqInfoList := ul.infoListUntxed } = .ok (s', p)

/-- A trigger that has a result goes through the passes. -/
theorem schedule_ok (hharq : c.harqOn = true) {params : SchedTriggerReqParameters} {p : Placement}
    (hok : s.schedule c params = .ok (s', p)) : Nonempty (Passes c params s s' p) := by
  unfold schedule at hok
  split at hok
  · cases hok
  · rename_i hlayers
    simp only [bind_eq_ok] at hok
    obtain ⟨refreshed, hrefresh, pass, hpass, hnew⟩ := hok
    obtain ⟨hdl, hul, -⟩ := PaddedHbf.refresh_ok hrefresh
    unfold scheduleRetx dlPass ulPass at hpass
    simp only [if_pos hharq, bind_eq_ok, hdl, hul] at hpass
    obtain ⟨dlPassed, ⟨dlNoted, hdlNoted, r₁, hr₁, hdlPassed⟩, ulNoted, hulNoted, r₂, hr₂,
      hulPassed⟩ := hpass
    obtain rfl := Except.ok.inj hdlPassed
    obtain rfl := Except.ok.inj hulPassed
    exact ⟨⟨refreshed, dlNoted, r₁, ulNoted, _, r₂, Nat.lt_of_not_le hlayers, hrefresh, hdlNoted,
      hr₁, hulNoted, hr₂, hnew⟩⟩

end PaddedHbf

end NtnIab.Mmwave
