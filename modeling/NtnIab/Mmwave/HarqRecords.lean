import NtnIab.Mmwave.TriggerPasses

/-!
# Records of HARQ processes

The DCI that is kept for an active process names the UE and the process, and its length has 8
bits. Nothing but a new block makes a process active, and its DCI is then kept; a retransmission
keeps the same DCI, up to where it is placed.
-/

namespace NtnIab.Mmwave

open Fallible

/-! ## Records of one direction -/

/-- A DCI of a process. -/
structure IsOf (rnti id : Nat) (dci : DciInfoElementTdma) : Prop where
  rnti_eq : dci.rnti = rnti
  harqProcess_eq : dci.harqProcess = id
  numSym_lt : dci.numSym < 2 ^ 8

/-- What is kept for a process is a DCI of the process. -/
def OwnedAt (dcis : OrderedMap (List DciInfoElementTdma)) (rnti id : Nat) : Prop :=
  ∀ dci, processOf dcis rnti id = some dci → IsOf rnti id dci

/-- What is kept for an active process is a DCI of the process. -/
def Recorded (status : OrderedMap (List Nat)) (dcis : OrderedMap (List DciInfoElementTdma)) :
    Prop :=
  ∀ rnti id count, processOf status rnti id = some count → 0 < count → OwnedAt dcis rnti id

section
variable {status status' : OrderedMap (List Nat)} {dcis : OrderedMap (List DciInfoElementTdma)}
  {rnti id k i : Nat} {dci : DciInfoElementTdma}

theorem IsOf.again (h : IsOf rnti id dci) (layer start : Nat) : IsOf rnti id (dci.again layer start) :=
  ⟨h.rnti_eq, h.harqProcess_eq, h.numSym_lt⟩

theorem OwnedAt.set (h : OwnedAt dcis k i) (hdci : IsOf rnti id dci) :
    OwnedAt (setProcess dcis rnti id dci) k i := by
  intro dci' hdci'
  rw [processOf_setProcess] at hdci'
  split at hdci'
  · rename_i heq
    obtain ⟨_, -, rfl⟩ := Option.map_eq_some_iff.1 hdci'
    rw [heq.1, heq.2]
    exact hdci
  · exact h dci' hdci'

theorem ownedAt_set_self (hdci : IsOf rnti id dci) :
    OwnedAt (setProcess dcis rnti id dci) rnti id := by
  intro dci' hdci'
  rw [processOf_setProcess, if_pos ⟨rfl, rfl⟩] at hdci'
  obtain ⟨_, -, rfl⟩ := Option.map_eq_some_iff.1 hdci'
  exact hdci

/-- Fewer processes are active. -/
theorem Recorded.mono (h : Recorded status dcis)
    (hactive : ∀ rnti id count, processOf status' rnti id = some count → 0 < count →
      ∃ count', processOf status rnti id = some count' ∧ 0 < count') : Recorded status' dcis := by
  intro rnti id count hcount hpos
  obtain ⟨count', hcount', hpos'⟩ := hactive rnti id count hcount hpos
  exact h rnti id count' hcount' hpos'

theorem Recorded.reset (h : Recorded status dcis) :
    Recorded (setProcess status rnti id 0) dcis := by
  refine h.mono fun k i count hcount hpos => ?_
  rw [processOf_setProcess] at hcount
  split at hcount
  · obtain ⟨_, -, rfl⟩ := Option.map_eq_some_iff.1 hcount
    exact absurd hpos (Nat.lt_irrefl 0)
  · exact ⟨count, hcount, hpos⟩

/-- A DCI of the process is kept. -/
theorem Recorded.keep (h : Recorded status dcis) (hdci : IsOf rnti id dci) :
    Recorded status (setProcess dcis rnti id dci) :=
  fun k i count hcount hpos => (h k i count hcount hpos).set hdci

/-- A block of the process is sent, and its DCI is kept. -/
theorem Recorded.send (h : Recorded status dcis) {count : Nat} (hdci : IsOf rnti id dci) :
    Recorded (setProcess status rnti id count) (setProcess dcis rnti id dci) := by
  intro k i count' hcount hpos
  rw [processOf_setProcess] at hcount
  split at hcount
  · rename_i heq
    obtain ⟨rfl, rfl⟩ := heq
    exact ownedAt_set_self hdci
  · exact (h k i count' hcount hpos).set hdci

theorem Recorded.tick {m : MmWavePhyMacCommon} {timers : OrderedMap (List Nat)}
    {maps : OrderedMap (List Nat) × OrderedMap (List Nat)} (h : Recorded status dcis)
    (hok : NtnIab.Mmwave.tick m timers status = .ok maps) : Recorded maps.2 dcis := by
  refine h.mono fun k i count hcount hpos => ?_
  rcases tick_ok hok k i with hsame | ⟨hreset, -⟩
  · exact ⟨count, hsame ▸ hcount, hpos⟩
  · rw [hreset] at hcount
    obtain ⟨_, -, rfl⟩ := Option.map_eq_some_iff.1 hcount
    exact absurd hpos (Nat.lt_irrefl 0)

/-- A UE gets processes that are not active. -/
theorem Recorded.configure {n : Nat} (h : Recorded status dcis)
    (hnew : status.find rnti = none) :
    Recorded (status.insertNew rnti (List.replicate n 0))
      (dcis.insertNew rnti (List.replicate n {})) := by
  intro k i count hcount hpos
  rw [processOf_insertNew] at hcount
  split at hcount
  · rename_i hk
    rw [hk, hnew, Option.getD_none] at hcount
    obtain rfl := List.eq_of_mem_replicate (List.mem_of_getElem? hcount)
    exact absurd hpos (Nat.lt_irrefl 0)
  · rename_i hk
    intro dci hdci
    rw [processOf_insertNew, if_neg hk] at hdci
    exact h k i count hcount hpos dci hdci

theorem Recorded.release (h : Recorded status dcis) :
    Recorded (status.erase rnti) (dcis.erase rnti) := by
  intro k i count hcount hpos dci hdci
  rw [processOf_erase] at hcount hdci
  split at hcount
  · cases hcount
  · rename_i hk
    rw [if_neg hk] at hdci
    exact h k i count hcount hpos dci hdci

end

/-! ## Records of both directions -/

/-- The records of both directions name the UEs and the processes. -/
structure HarqProcesses.Owned (h : HarqProcesses) : Prop where
  dl : Recorded h.dlHarqProcessesStatus h.dlHarqProcessesDciInfoMap
  ul : Recorded h.ulHarqProcessesStatus h.ulHarqProcessesDciInfoMap

namespace HarqProcesses

variable {h h' : HarqProcesses} {rnti : Nat}

theorem Owned.configureUe {m : MmWavePhyMacCommon} (hh : h.Owned) :
    (h.configureUe m rnti).Owned := by
  unfold HarqProcesses.configureUe
  cases hdl : h.dlHarqProcessesStatus.find rnti with
  | some _ =>
      cases hul : h.ulHarqProcessesStatus.find rnti with
      | some _ =>
          simp only [hul]
          exact hh
      | none =>
          simp only [hul]
          exact ⟨hh.dl, hh.ul.configure hul⟩
  | none =>
      cases hul : h.ulHarqProcessesStatus.find rnti with
      | some _ =>
          simp only [hul]
          exact ⟨hh.dl.configure hdl, hh.ul⟩
      | none =>
          simp only [hul]
          exact ⟨hh.dl.configure hdl, hh.ul.configure hul⟩

theorem Owned.releaseUe (hh : h.Owned) : (h.releaseUe rnti).Owned :=
  ⟨hh.dl.release, hh.ul.release⟩

theorem Owned.startsDl {dci : DciInfoElementTdma} {pdus : List RlcPduInfo} (hh : h.Owned)
    (hstart : h.StartsDl dci pdus h') (hlength : dci.numSym < 2 ^ 8) : h'.Owned := by
  refine ⟨?_, ?_⟩
  · rw [hstart.status, hstart.dcis]
    exact hh.dl.send ⟨rfl, rfl, hlength⟩
  · rw [hstart.ulStatus, hstart.ulDcis]
    exact hh.ul

theorem Owned.startsUl {dci : DciInfoElementTdma} (hh : h.Owned) (hstart : h.StartsUl dci h')
    (hlength : dci.numSym < 2 ^ 8) : h'.Owned := by
  rw [hstart.eq]
  exact ⟨hh.dl, hh.ul.send ⟨rfl, rfl, hlength⟩⟩

end HarqProcesses

/-! ## Retransmissions -/

/-- What is kept for the processes of the feedback that was noted are DCIs of these processes. -/
def NotedOwned {Info : Type} (rnti harqProcessId : Info → Nat) (infos : List Info)
    (dcis : OrderedMap (List DciInfoElementTdma)) (sorted : List (Nat × Nat)) : Prop :=
  ∀ x ∈ sorted, ∀ info, infos[x.2]? = some info → OwnedAt dcis (rnti info) (harqProcessId info)

section
variable {c : PaddedHbfConfig}

theorem lowerMcs_rv (mcsNew : Nat) (dci : DciInfoElementTdma) :
    (lowerMcs c mcsNew dci).rv = dci.rv := by
  unfold lowerMcs
  simp only
  split <;> rfl

/-- With a lower MCS it is a DCI of the same process. -/
theorem IsOf.lowerMcs {rnti id : Nat} {dci : DciInfoElementTdma} (h : IsOf rnti id dci)
    (mcsNew : Nat) : IsOf rnti id (lowerMcs c mcsNew dci) := by
  unfold NtnIab.Mmwave.lowerMcs
  simp only
  split
  · exact ⟨h.rnti_eq, h.harqProcess_eq, Nat.mod_lt _ (by decide)⟩
  · exact h

theorem dlFeedback_owned {wbCqiRxed : OrderedMap Nat} {infos : List DlHarqInfo}
    {h : HarqProcesses} {f : Feedback}
    (hok : infos.zipIdx.foldlM (dlFeedback c wbCqiRxed) (h, []) = .ok f) (hh : h.Owned) :
    f.1.Owned ∧ NotedOwned DlHarqInfo.rnti DlHarqInfo.harqProcessId infos
      f.1.dlHarqProcessesDciInfoMap f.2 := by
  refine feedback_invariant (I := fun f => f.1.Owned ∧ NotedOwned DlHarqInfo.rnti
    DlHarqInfo.harqProcessId infos f.1.dlHarqProcessesDciInfoMap f.2) hok
    ⟨hh, fun _ hx => by cases hx⟩ ?_
  intro f info i f' hinfo ⟨howned, hnoted⟩ hstep
  rcases dlFeedback_ok hstep with ⟨-, rfl⟩ | ⟨dci, mcsNew, ⟨-, -, hlive⟩, -, rfl⟩
  · exact ⟨⟨howned.dl.reset, howned.ul⟩, hnoted⟩
  · have hdci := howned.dl _ _ _ hlive.sent (Nat.succ_pos _) dci hlive.stored
    have hlower := hdci.lowerMcs (c := c) mcsNew
    refine ⟨⟨howned.dl.keep hlower, howned.ul⟩, ?_⟩
    intro x hx info' hinfo'
    rcases mem_insertSorted.1 hx with rfl | hx
    · obtain rfl : info = info' := Option.some.inj (hinfo.symm.trans hinfo')
      exact ownedAt_set_self hlower
    · exact (hnoted x hx info' hinfo').set hlower

theorem ulFeedback_owned {infos : List UlHarqInfo} {h : HarqProcesses} {f : Feedback}
    (hok : infos.zipIdx.foldlM ulFeedback (h, []) = .ok f) (hh : h.Owned) :
    f.1.Owned ∧ NotedOwned UlHarqInfo.rnti UlHarqInfo.harqProcessId infos
      f.1.ulHarqProcessesDciInfoMap f.2 := by
  refine feedback_invariant (I := fun f => f.1.Owned ∧ NotedOwned UlHarqInfo.rnti
    UlHarqInfo.harqProcessId infos f.1.ulHarqProcessesDciInfoMap f.2) hok
    ⟨hh, fun _ hx => by cases hx⟩ ?_
  intro f info i f' hinfo ⟨howned, hnoted⟩ hstep
  rcases ulFeedback_ok hstep with ⟨-, rfl | rfl⟩ | ⟨dci, ⟨-, hlive⟩, -, rfl⟩
  · exact ⟨howned, hnoted⟩
  · exact ⟨⟨howned.dl, howned.ul.reset⟩, hnoted⟩
  · refine ⟨howned, ?_⟩
    intro x hx info' hinfo'
    rcases mem_insertSorted.1 hx with rfl | hx
    · obtain rfl : info = info' := Option.some.inj (hinfo.symm.trans hinfo')
      exact howned.ul _ _ _ hlive.sent (Nat.succ_pos _)
    · exact hnoted x hx info' hinfo'

/-- A round of the downlink loop keeps the records. -/
theorem dlRound_owned {infos : List DlHarqInfo} {r r' : Retx DlHarqInfo} {goesOn : Bool}
    (hok : (dlRetx c).round infos r = .ok (goesOn, r'))
    (hr : r.harq.Owned ∧ NotedOwned DlHarqInfo.rnti DlHarqInfo.harqProcessId infos
      r.harq.dlHarqProcessesDciInfoMap r.sortedHarqRetx) :
    r'.harq.Owned ∧ NotedOwned DlHarqInfo.rnti DlHarqInfo.harqProcessId infos
      r'.harq.dlHarqProcessesDciInfoMap r'.sortedHarqRetx := by
  obtain ⟨k, p, x, info, dci, -, -, hx, hinfo, hdci, hcases⟩ := RetxLoop.round_ok hok
  obtain ⟨howned, hnoted⟩ := hr
  rcases hcases with ⟨-, -, rfl⟩ | ⟨-, -, ⟨-, placed, hplaced, rfl⟩ | ⟨-, rfl⟩⟩
  · exact ⟨howned, hnoted⟩
  · obtain ⟨_, count, pdus, -, -, -, hharq, -, hsorted, -⟩ := Retx.placeDl_ok hplaced
    have howner := hnoted x (List.mem_of_getElem? hx) info hinfo dci hdci
    refine ⟨?_, ?_⟩
    · rw [hharq]
      exact ⟨howned.dl.send (howner.again _ _), howned.ul⟩
    · rw [hharq, hsorted]
      intro y hy info' hinfo'
      exact (hnoted y (List.mem_of_mem_eraseIdx hy) info' hinfo').set (howner.again _ _)
  · exact ⟨howned, fun y hy => hnoted y (List.mem_of_mem_eraseIdx hy)⟩

/-- A round of the uplink loop keeps the records. -/
theorem ulRound_owned {infos : List UlHarqInfo} {r r' : Retx UlHarqInfo} {goesOn : Bool}
    (hok : (ulRetx c).round infos r = .ok (goesOn, r'))
    (hr : r.harq.Owned ∧ NotedOwned UlHarqInfo.rnti UlHarqInfo.harqProcessId infos
      r.harq.ulHarqProcessesDciInfoMap r.sortedHarqRetx) :
    r'.harq.Owned ∧ NotedOwned UlHarqInfo.rnti UlHarqInfo.harqProcessId infos
      r'.harq.ulHarqProcessesDciInfoMap r'.sortedHarqRetx := by
  obtain ⟨k, p, x, info, dci, -, -, hx, hinfo, hdci, hcases⟩ := RetxLoop.round_ok hok
  obtain ⟨howned, hnoted⟩ := hr
  rcases hcases with ⟨-, -, rfl⟩ | ⟨-, -, ⟨-, placed, hplaced, rfl⟩ | ⟨-, rfl⟩⟩
  · exact ⟨howned, hnoted⟩
  · obtain ⟨_, count, -, -, hharq, -, hsorted, -⟩ := Retx.placeUl_ok hplaced
    have howner := hnoted x (List.mem_of_getElem? hx) info hinfo dci hdci
    refine ⟨?_, ?_⟩
    · rw [hharq]
      exact ⟨howned.dl, howned.ul.send (howner.again _ _)⟩
    · rw [hharq, hsorted]
      intro y hy info' hinfo'
      exact (hnoted y (List.mem_of_mem_eraseIdx hy) info' hinfo').set (howner.again _ _)
  · exact ⟨howned, fun y hy => hnoted y (List.mem_of_mem_eraseIdx hy)⟩

/-! ## New blocks -/

variable {d d' : NewData} {region : Region}

theorem dlTurns_owned (hharq : c.harqOn = true) (hregion : region.symPerBlock < 2 ^ 8)
    {order : OrderedMap UeSchedInfo} (hok : order.foldlM (NewData.dlTurn c region) d = .ok d')
    (hd : d.harq.Owned) : d'.harq.Owned := by
  refine foldlM_invariant (I := fun d _ => d.harq.Owned) hok hd ?_
  intro d entry rest d' hd hturn
  rcases NewData.dlTurn_ok hturn with rfl | ⟨numSym, -, hlength, -, -, hplace⟩
  · exact hd
  · obtain ⟨harqId, pdus, placed, -, hstart, -⟩ := NewData.placeDl_ok hharq hplace
    exact hd.startsDl hstart (Nat.lt_of_le_of_lt hlength hregion)

theorem ulTurns_owned (hharq : c.harqOn = true) (hregion : region.symPerBlock < 2 ^ 8)
    {sfnSf : SfnSf} {order : OrderedMap UeSchedInfo} {first : Bool}
    (hok : NewData.ulTurns c sfnSf region first order d = .ok d') (hd : d.harq.Owned) :
    d'.harq.Owned := by
  refine (NewData.ulTurns_invariant (I := fun d _ => d.harq.Owned) hharq hok hd
    (fun _ _ _ hd => hd) ?_).elim fun _ hd => hd
  intro d d' entry rest numSym hd _ hlength _ _ _ hfree hplace
  obtain ⟨harqId, placed, -, hstart, -⟩ := NewData.placeUl_ok hharq hfree hplace
  exact hd.startsUl hstart (Nat.lt_of_le_of_lt hlength hregion)

/-! ## Every run -/

variable {s s' : PaddedHbf} {params : SchedTriggerReqParameters} {p : Placement}

/-- A refresh keeps the records. -/
theorem PaddedHbf.refresh_owned (hok : s.refresh c = .ok s') (hs : s.harq.Owned) :
    s'.harq.Owned := by
  obtain ⟨-, -, hdl, -, hul, hdlTick, hulTick⟩ := PaddedHbf.refresh_ok hok
  refine ⟨?_, ?_⟩
  · rw [hdl]
    exact hs.dl.tick hdlTick
  · rw [hul]
    exact hs.ul.tick hulTick

namespace PaddedHbf.Passes

/-- The records before the downlink loop. -/
theorem dlNoted_owned (t : Passes c params s s' p) (hs : s.harq.Owned) :
    t.dlNoted.1.Owned ∧ NotedOwned DlHarqInfo.rnti DlHarqInfo.harqProcessId
      (s.dlHarqInfoList ++ params.dlHarqInfoList) t.dlNoted.1.dlHarqProcessesDciInfoMap
      t.dlNoted.2 :=
  dlFeedback_owned t.dlFeedback_ok (refresh_owned t.refresh_ok hs)

theorem dl_owned (t : Passes c params s s' p) (hs : s.harq.Owned) : t.dl.harq.Owned :=
  (RetxLoop.rounds_invariant (I := fun r => r.harq.Owned ∧ NotedOwned DlHarqInfo.rnti
    DlHarqInfo.harqProcessId _ r.harq.dlHarqProcessesDciInfoMap r.sortedHarqRetx) t.dlLoop_ok
    (t.dlNoted_owned hs) fun _ _ _ hr hround => dlRound_owned hround hr).1

/-- The records before the uplink loop. -/
theorem ulNoted_owned (t : Passes c params s s' p) (hs : s.harq.Owned) :
    t.ulNoted.1.Owned ∧ NotedOwned UlHarqInfo.rnti UlHarqInfo.harqProcessId
      (s.ulHarqInfoList ++ params.ulHarqInfoList) t.ulNoted.1.ulHarqProcessesDciInfoMap
      t.ulNoted.2 :=
  ulFeedback_owned t.ulFeedback_ok (t.dl_owned hs)

theorem ul_owned (t : Passes c params s s' p) (hs : s.harq.Owned) : t.ul.harq.Owned :=
  (RetxLoop.rounds_invariant (I := fun r => r.harq.Owned ∧ NotedOwned UlHarqInfo.rnti
    UlHarqInfo.harqProcessId _ r.harq.ulHarqProcessesDciInfoMap r.sortedHarqRetx) t.ulLoop_ok
    (t.ulNoted_owned hs) fun _ _ _ hr hround => ulRound_owned hround hr).1

end PaddedHbf.Passes

/-- New data keeps the records. -/
theorem scheduleNewData_owned (hharq : c.harqOn = true) {sfnSf : SfnSf} {pass : HarqPass}
    (hok : scheduleNewData c sfnSf s pass = .ok (s', p)) (hpass : pass.harq.Owned) :
    s'.harq.Owned := by
  obtain ⟨-, -, -, ⟨hsame, -⟩ | ⟨order, dl, ul, d₀, d₁, d₂, -, hd₀, -, -, -, -, hdlLength, hulLength,
    hdl, hul, hs', -⟩⟩ := scheduleNewData_ok hok
  · rw [hsame]
    exact hpass
  · have hd₁ : d₁.harq.Owned := by
      refine dlTurns_owned hharq hdlLength hdl ?_
      rw [hd₀]
      exact hpass
    rw [hs']
    exact ulTurns_owned hharq hulLength hul hd₁

/-- A trigger keeps the records. -/
theorem PaddedHbf.schedule_owned (hharq : c.harqOn = true)
    (hok : s.schedule c params = .ok (s', p)) (hs : s.harq.Owned) : s'.harq.Owned := by
  obtain ⟨t⟩ := PaddedHbf.schedule_ok hharq hok
  exact scheduleNewData_owned hharq t.newData_ok (t.ul_owned hs)

namespace SchedulerRun

theorem step_owned (hharq : c.harqOn = true) {r : SchedulerRun} {event : SchedulerEvent}
    (hr : r.scheduler.harq.Owned) : (r.step c event).scheduler.harq.Owned := by
  obtain ⟨hsame, -⟩ | ⟨hrequest, -⟩ | ⟨params, s, p, -, -, hok, hs, -⟩ := r.step_cases event
  · rw [hsame]
    exact hr
  · rw [hrequest]
    obtain ⟨⟨rnti, _, _, -, heq⟩ | ⟨rnti, -, heq⟩ | heq, -⟩ :=
      request_harq (c := c) (s := r.scheduler) event
    · rw [heq]
      exact hr.configureUe
    · rw [heq]
      exact hr.releaseUe
    · rw [heq]
      exact hr
  · rw [hs]
    exact PaddedHbf.schedule_owned hharq hok hr

/-- In every run the DCIs of active processes are theirs. -/
theorem run_owned (hharq : c.harqOn = true) (events : List SchedulerEvent) :
    (Run.run (step c) {} events).scheduler.harq.Owned := by
  refine Run.invariant (I := fun r : SchedulerRun => r.scheduler.harq.Owned)
    (fun r event hr => step_owned hharq hr) ⟨?_, ?_⟩
  · intro rnti id count hcount
    cases hcount
  · intro rnti id count hcount
    cases hcount

end SchedulerRun

end

end NtnIab.Mmwave
