import NtnIab.Mmwave.TriggerPasses

/-!
# Shapes of the HARQ maps

All maps have the same UEs, and the same number of processes of each: a configuration and a
release change all of them, and nothing else changes which processes they have.
-/

namespace NtnIab.Mmwave

open Fallible

namespace HarqProcesses

/-- How many processes of a UE each map has. -/
def shapes (h : HarqProcesses) (rnti : Nat) : List (Option Nat) :=
  [shape h.dlHarqProcessesStatus rnti, shape h.dlHarqProcessesTimer rnti,
    shape h.dlHarqProcessesDciInfoMap rnti, shape h.dlHarqProcessesRlcPduMap rnti,
    shape h.ulHarqProcessesStatus rnti, shape h.ulHarqProcessesTimer rnti,
    shape h.ulHarqProcessesDciInfoMap rnti]

/-- The UEs of each map, with the numbers of their processes. -/
def outlines (h : HarqProcesses) : List (OrderedMap Nat) :=
  [outline h.dlHarqProcessesStatus, outline h.dlHarqProcessesTimer,
    outline h.dlHarqProcessesDciInfoMap, outline h.dlHarqProcessesRlcPduMap,
    outline h.ulHarqProcessesStatus, outline h.ulHarqProcessesTimer,
    outline h.ulHarqProcessesDciInfoMap]

/-- Every map has `n` processes of a UE, or none has an entry for it. -/
def Shaped (n : Nat) (h : HarqProcesses) : Prop :=
  ∀ rnti, h.shapes rnti = List.replicate 7 (some n) ∨ h.shapes rnti = List.replicate 7 none

variable {h h' : HarqProcesses} {rnti id count : Nat} {dci : DciInfoElementTdma}

/-! ## Single operations -/

theorem shapes_eq : h.shapes rnti = h.outlines.map (·.find rnti) := by
  simp [shapes, outlines, shape_eq_find_outline]

theorem shapes_of_outlines (houtlines : h'.outlines = h.outlines) : h'.shapes = h.shapes := by
  funext k
  rw [shapes_eq, shapes_eq, houtlines]


theorem outlines_resetDl : (h.resetDl rnti id).outlines = h.outlines := by
  simp [outlines, resetDl]

theorem outlines_resetUl : (h.resetUl rnti id).outlines = h.outlines := by
  simp [outlines, resetUl]

theorem outlines_sendDlAgain : (h.sendDlAgain rnti id count dci).outlines = h.outlines := by
  simp [outlines, sendDlAgain]

theorem outlines_sendUlAgain : (h.sendUlAgain rnti id count dci).outlines = h.outlines := by
  simp [outlines, sendUlAgain]

theorem StartsDl.outlines_eq {pdus : List RlcPduInfo} (hstart : h.StartsDl dci pdus h') :
    h'.outlines = h.outlines := by
  simp [outlines, hstart.status, hstart.timer, hstart.dcis, hstart.pduOutline, hstart.ulStatus,
    hstart.ulTimer, hstart.ulDcis]

theorem StartsUl.outlines_eq (hstart : h.StartsUl dci h') : h'.outlines = h.outlines := by
  simp [outlines, hstart.eq]

/-- The maps with new entries for a UE. -/
def withUe (n rnti : Nat) (h : HarqProcesses) : HarqProcesses where
  dlHarqProcessesStatus := h.dlHarqProcessesStatus.insertNew rnti (List.replicate n 0)
  dlHarqProcessesTimer := h.dlHarqProcessesTimer.insertNew rnti (List.replicate n 0)
  dlHarqProcessesDciInfoMap := h.dlHarqProcessesDciInfoMap.insertNew rnti (List.replicate n {})
  dlHarqProcessesRlcPduMap := h.dlHarqProcessesRlcPduMap.insertNew rnti (List.replicate n [])
  ulHarqProcessesStatus := h.ulHarqProcessesStatus.insertNew rnti (List.replicate n 0)
  ulHarqProcessesTimer := h.ulHarqProcessesTimer.insertNew rnti (List.replicate n 0)
  ulHarqProcessesDciInfoMap := h.ulHarqProcessesDciInfoMap.insertNew rnti (List.replicate n {})

/-- A UE gets new entries in all maps, or it has them already. -/
theorem Shaped.configureUe_eq {c : MmWavePhyMacCommon} (hh : h.Shaped c.numHarqProcess)
    (rnti : Nat) :
    h.configureUe c rnti = h ∨
      h.shapes rnti = List.replicate 7 none ∧
        h.configureUe c rnti = h.withUe c.numHarqProcess rnti := by
  unfold HarqProcesses.configureUe
  rcases hh rnti with hsome | hnone
  · left
    have hentry : ∀ {m : OrderedMap (List Nat)}, shape m rnti = some c.numHarqProcess →
        ∃ elements, m.find rnti = some elements := fun hshape =>
      (Option.map_eq_some_iff.1 hshape).imp fun _ h => h.1
    obtain ⟨dl, hdl⟩ := hentry (congrArg (·.getD 0 none) hsome)
    obtain ⟨ul, hul⟩ := hentry (congrArg (·.getD 4 none) hsome)
    simp only [hdl, hul]
  · refine Or.inr ⟨hnone, ?_⟩
    have hentry : ∀ {m : OrderedMap (List Nat)}, shape m rnti = none → m.find rnti = none :=
      fun hshape => Option.map_eq_none_iff.1 hshape
    have hdl := hentry (m := h.dlHarqProcessesStatus) (congrArg (·.getD 0 none) hnone)
    have hul := hentry (m := h.ulHarqProcessesStatus) (congrArg (·.getD 4 none) hnone)
    simp only [hdl, hul]
    rfl

theorem Shaped.configureUe {c : MmWavePhyMacCommon} (hh : h.Shaped c.numHarqProcess) :
    (h.configureUe c rnti).Shaped c.numHarqProcess := by
  rcases hh.configureUe_eq rnti with heq | ⟨hnone, heq⟩
  · rw [heq]
    exact hh
  rw [heq]
  simp only [shapes, List.replicate, List.cons.injEq] at hnone
  obtain ⟨h₁, h₂, h₃, h₄, h₅, h₆, h₇, -⟩ := hnone
  intro k
  by_cases hk : k = rnti
  · left
    subst hk
    simp [shapes, withUe, shape_insertNew, h₁, h₂, h₃, h₄, h₅, h₆, h₇, List.replicate]
  · rcases hh k with hsome | hnone
    · left
      simpa [shapes, withUe, shape_insertNew, hk] using hsome
    · right
      simpa [shapes, withUe, shape_insertNew, hk] using hnone

theorem Shaped.releaseUe {n : Nat} (hh : h.Shaped n) : (h.releaseUe rnti).Shaped n := by
  intro k
  by_cases hk : k = rnti
  · right
    simp [shapes, HarqProcesses.releaseUe, shape_erase, hk, List.replicate]
  · rcases hh k with hsome | hnone
    · left
      simpa [shapes, HarqProcesses.releaseUe, shape_erase, hk] using hsome
    · right
      simpa [shapes, HarqProcesses.releaseUe, shape_erase, hk] using hnone

theorem Shaped.of_outlines {n : Nat} (hh : h.Shaped n) (houtlines : h'.outlines = h.outlines) :
    h'.Shaped n := by
  intro k
  rw [shapes_of_outlines houtlines]
  exact hh k

end HarqProcesses

/-! ## Passes -/

/-- The timers and the status keep their outlines. -/
theorem tick_outline {m : MmWavePhyMacCommon} {timers status : OrderedMap (List Nat)}
    {maps : OrderedMap (List Nat) × OrderedMap (List Nat)}
    (hok : tick m timers status = .ok maps) :
    outline maps.1 = outline timers ∧ outline maps.2 = outline status := by
  unfold tick at hok
  refine foldlM_invariant (I := fun maps _ => outline maps.1 = outline timers ∧
    outline maps.2 = outline status) hok ⟨rfl, rfl⟩ ?_
  intro maps entry rest maps' hmaps hentry
  refine foldlM_invariant (I := fun maps _ => outline maps.1 = outline timers ∧
    outline maps.2 = outline status) hentry hmaps ?_
  intro maps i rest maps' hmaps hprocess
  unfold tickProcess at hprocess
  simp only [bind_eq_ok] at hprocess
  obtain ⟨timer, -, hprocess⟩ := hprocess
  split at hprocess
  · simp only [bind_eq_ok] at hprocess
    obtain ⟨-, -, -, -, hprocess⟩ := hprocess
    obtain rfl := Except.ok.inj hprocess
    exact ⟨outline_setProcess.trans hmaps.1,
      outline_setProcess.trans hmaps.2⟩
  · obtain rfl := Except.ok.inj hprocess
    exact ⟨outline_setProcess.trans hmaps.1, hmaps.2⟩

section
variable {c : PaddedHbfConfig} {h : HarqProcesses}

theorem dlFeedback_outlines {wbCqiRxed : OrderedMap Nat} {f f' : Feedback} {info : DlHarqInfo × Nat}
    (hok : dlFeedback c wbCqiRxed f info = .ok f') : f'.1.outlines = f.1.outlines := by
  rcases dlFeedback_ok hok with ⟨-, rfl⟩ | ⟨dci, mcsNew, -, -, rfl⟩
  · exact HarqProcesses.outlines_resetDl
  · simp [HarqProcesses.outlines]

theorem ulFeedback_outlines {f f' : Feedback} {info : UlHarqInfo × Nat}
    (hok : ulFeedback f info = .ok f') : f'.1.outlines = f.1.outlines := by
  rcases ulFeedback_ok hok with ⟨-, rfl | rfl⟩ | ⟨dci, -, -, rfl⟩
  · rfl
  · exact HarqProcesses.outlines_resetUl
  · rfl

theorem dlRound_outlines {infos : List DlHarqInfo} {r r' : Retx DlHarqInfo} {goesOn : Bool}
    (hok : (dlRetx c).round infos r = .ok (goesOn, r')) : r'.harq.outlines = r.harq.outlines := by
  obtain ⟨k, p, x, info, dci, -, -, -, -, -, hcases⟩ := RetxLoop.round_ok hok
  rcases hcases with ⟨-, -, rfl⟩ | ⟨-, -, ⟨-, placed, hplaced, rfl⟩ | ⟨-, rfl⟩⟩
  · rfl
  · obtain ⟨_, count, pdus, -, -, -, hharq, -⟩ := Retx.placeDl_ok hplaced
    rw [hharq]
    exact HarqProcesses.outlines_sendDlAgain
  · rfl

theorem ulRound_outlines {infos : List UlHarqInfo} {r r' : Retx UlHarqInfo} {goesOn : Bool}
    (hok : (ulRetx c).round infos r = .ok (goesOn, r')) : r'.harq.outlines = r.harq.outlines := by
  obtain ⟨k, p, x, info, dci, -, -, -, -, -, hcases⟩ := RetxLoop.round_ok hok
  rcases hcases with ⟨-, -, rfl⟩ | ⟨-, -, ⟨-, placed, hplaced, rfl⟩ | ⟨-, rfl⟩⟩
  · rfl
  · obtain ⟨_, count, -, -, hharq, -⟩ := Retx.placeUl_ok hplaced
    rw [hharq]
    exact HarqProcesses.outlines_sendUlAgain
  · rfl

theorem dlTurn_outlines (hharq : c.harqOn = true) {region : Region} {d d' : NewData}
    {entry : Nat × UeSchedInfo} (hok : d.dlTurn c region entry = .ok d') :
    d'.harq.outlines = d.harq.outlines := by
  rcases NewData.dlTurn_ok hok with rfl | ⟨numSym, -, -, -, -, hplace⟩
  · rfl
  · obtain ⟨harqId, pdus, placed, -, hstart, -⟩ := NewData.placeDl_ok hharq hplace
    exact hstart.outlines_eq

theorem ulTurns_outlines (hharq : c.harqOn = true) {region : Region} {d d' : NewData}
    {sfnSf : SfnSf} {order : OrderedMap UeSchedInfo} {first : Bool}
    (hok : NewData.ulTurns c sfnSf region first order d = .ok d') :
    d'.harq.outlines = d.harq.outlines := by
  refine (NewData.ulTurns_invariant (I := fun d' _ => d'.harq.outlines = d.harq.outlines) hharq hok rfl
    (fun _ _ _ hd => hd) ?_).elim fun _ hd => hd
  intro d d' entry rest numSym hd _ _ _ _ _ hfree hplace
  obtain ⟨harqId, placed, -, hstart, -⟩ := NewData.placeUl_ok hharq hfree hplace
  exact hstart.outlines_eq.trans hd

end

/-! ## Every run -/

section
variable {c : PaddedHbfConfig} {s s' : PaddedHbf} {params : SchedTriggerReqParameters}
  {p : Placement}

theorem PaddedHbf.refresh_outlines (hok : s.refresh c = .ok s') :
    s'.harq.outlines = s.harq.outlines := by
  obtain ⟨-, -, hdl, hpdus, hul, hdlTick, hulTick⟩ := PaddedHbf.refresh_ok hok
  obtain ⟨hdlTimer, hdlStatus⟩ := tick_outline hdlTick
  obtain ⟨hulTimer, hulStatus⟩ := tick_outline hulTick
  simp only [HarqProcesses.outlines, hdl, hpdus, hul, hdlTimer, hdlStatus, hulTimer, hulStatus]

namespace PaddedHbf.Passes

theorem dlNoted_outlines (t : Passes c params s s' p) : t.dlNoted.1.outlines = s.harq.outlines :=
  feedback_invariant (I := fun f => f.1.outlines = s.harq.outlines) t.dlFeedback_ok
    (refresh_outlines t.refresh_ok) fun _ _ _ _ _ hf hok => (dlFeedback_outlines hok).trans hf

theorem dl_outlines (t : Passes c params s s' p) : t.dl.harq.outlines = s.harq.outlines :=
  RetxLoop.rounds_invariant (I := fun r => r.harq.outlines = s.harq.outlines) t.dlLoop_ok
    t.dlNoted_outlines fun _ _ _ hr hround => (dlRound_outlines hround).trans hr

theorem ulNoted_outlines (t : Passes c params s s' p) : t.ulNoted.1.outlines = s.harq.outlines :=
  feedback_invariant (I := fun f => f.1.outlines = s.harq.outlines) t.ulFeedback_ok t.dl_outlines
    fun _ _ _ _ _ hf hok => (ulFeedback_outlines hok).trans hf

theorem ul_outlines (t : Passes c params s s' p) : t.ul.harq.outlines = s.harq.outlines :=
  RetxLoop.rounds_invariant (I := fun r => r.harq.outlines = s.harq.outlines) t.ulLoop_ok
    t.ulNoted_outlines fun _ _ _ hr hround => (ulRound_outlines hround).trans hr

end PaddedHbf.Passes

/-- A trigger changes no shape. -/
theorem PaddedHbf.schedule_outlines (hharq : c.harqOn = true)
    (hok : s.schedule c params = .ok (s', p)) : s'.harq.outlines = s.harq.outlines := by
  obtain ⟨t⟩ := PaddedHbf.schedule_ok hharq hok
  obtain ⟨-, -, -, ⟨hsame, -⟩ | ⟨order, dl, ul, d₀, d₁, d₂, -, hd₀, -, -, -, -, -, -, hdl, hul, hs',
    -⟩⟩ := scheduleNewData_ok t.newData_ok
  · rw [hsame]
    exact t.ul_outlines
  · have hd₁ : d₁.harq.outlines = d₀.harq.outlines :=
      foldlM_invariant (I := fun d _ => d.harq.outlines = d₀.harq.outlines) hdl rfl
        fun _ _ _ _ hd hturn => (dlTurn_outlines hharq hturn).trans hd
    have hd₂ : d₂.harq.outlines = d₁.harq.outlines := by simpa using ulTurns_outlines hharq hul
    calc s'.harq.outlines = d₂.harq.outlines := by rw [hs']
      _ = d₁.harq.outlines := hd₂
      _ = d₀.harq.outlines := hd₁
      _ = t.ul.harq.outlines := by rw [hd₀]
      _ = s.harq.outlines := t.ul_outlines

namespace SchedulerRun

theorem step_shaped (hharq : c.harqOn = true) {r : SchedulerRun} {event : SchedulerEvent}
    (hr : r.scheduler.harq.Shaped c.phyMac.numHarqProcess) :
    (r.step c event).scheduler.harq.Shaped c.phyMac.numHarqProcess := by
  obtain ⟨hsame, -⟩ | ⟨hrequest, -⟩ | ⟨params, s, p, -, -, hok, hs, -⟩ := r.step_cases event
  · rw [hsame]
    exact hr
  · rw [hrequest]
    obtain ⟨⟨rnti, _, _, -, heq⟩ | ⟨rnti, -, heq⟩ | heq, -⟩ :=
      request_harq (c := c) (s := r.scheduler) event
    · rw [heq]
      exact hr.configureUe
    · rw [heq]
      exact hr.releaseUe
    · rw [heq]
      exact hr
  · rw [hs]
    exact hr.of_outlines (PaddedHbf.schedule_outlines hharq hok)

/-- In every run the maps have the same processes. -/
theorem run_shaped (hharq : c.harqOn = true) (events : List SchedulerEvent) :
    (Run.run (step c) {} events).scheduler.harq.Shaped c.phyMac.numHarqProcess :=
  Run.invariant (I := fun r : SchedulerRun => r.scheduler.harq.Shaped c.phyMac.numHarqProcess)
    (fun _ _ hr => step_shaped hharq hr) fun _ => Or.inr rfl

end SchedulerRun

end

end NtnIab.Mmwave
