import NtnIab.Mmwave.CleanStart
import NtnIab.Mmwave.GrantSlots
import NtnIab.Mmwave.PfRecords
import NtnIab.Mmwave.ReleaseSafety
import NtnIab.Mmwave.RntiReuse
import NtnIab.Mmwave.TdmaTriggers

/-!
# Releases and the proportional fair scheduler

A release takes the processes of a UE away, and what the other schedulers keep of its demand. It
leaves the record of the UE, in which this scheduler keeps it, and the feedback that waits. A later
trigger collects the demand and gives the UE symbols, for which it has no process: this is a fatal
error, or, without HARQ, a slot.

A UE that was released is gone for a trigger that does not hear of it, except that its uplink
blocks were good, if nothing waits in its record. That it is in the working list does no harm.

## Strategy

* Between the triggers nothing was collected for a record and it has no symbols (`Quiet`), and the
  maps are in order (`Known`).
* A loop over feedback, the collection, the division and the grants are blamed on the UEs they are
  about. So it remains to show that what they do for the UE succeeds, and adds no slot for it.
* A UE that was released is not configured (`not_configured_of_released`).
-/

namespace NtnIab.Mmwave

open Fallible HarqProcesses

namespace FlexTtiPf

variable {c : FlexTtiConfig} {rnti : Nat}

/-! ## UEs that are gone -/

/-- The request configures or releases the UE. -/
def concerns (rnti : Nat) : FlexTtiPfEvent → Bool
  | .cschedUeConfigReq k _ _ _ => k = rnti
  | .cschedUeReleaseReq k => k = rnti
  | _ => false

/-- The UE was released, and not configured since. -/
def Released (rnti : Nat) (events : List FlexTtiPfEvent) : Prop :=
  (events.filter (concerns rnti)).getLast? = some (.cschedUeReleaseReq rnti)

instance Released.decidable {events : List FlexTtiPfEvent} : Decidable (Released rnti events) :=
  inferInstanceAs
    (Decidable ((events.filter (concerns rnti)).getLast? = some (.cschedUeReleaseReq rnti)))

/-- A slot with data is not for the UE. -/
def Avoids (rnti : Nat) (slot : SlotAllocInfo) : Prop :=
  slot.slotType = .ctrlData → slot.dci.rnti ≠ rnti ∧ slot.rnti ≠ some rnti

/-- The failure is about another UE, or about the cell. -/
def Blameless (rnti : Nat) (failure : Failure) : Prop :=
  failure.cause ≠ .ue rnti ∧ failure.cause ≠ .expiry

/-- A trigger emits no slot for the UE, and does not fail because of it. -/
structure Gone (c : FlexTtiConfig) (rnti : Nat) (r : TdmaRun FlexTtiPf)
    (params : SchedTriggerReqParameters) : Prop where
  slots : ∀ ind, (r.step (handle c) (.schedTriggerReq params)).emitted = ind :: r.emitted →
    ∀ slot ∈ ind.slotAllocInfo, Avoids rnti slot
  failures : r.failure = none → ∀ failure,
    (r.step (handle c) (.schedTriggerReq params)).failure = some failure → Blameless rnti failure

/-- No bytes wait in the record of the UE. -/
def NoBytes (c : FlexTtiConfig) (rnti : Nat) (s : PaddedHbf) (ues : OrderedMap UeSchedInfo) :
    Prop :=
  ∀ ue ∈ ues.find rnti, dlBytes s rnti ue = 0 ∧ ulBytes c s rnti ue = 0

instance NoBytes.decidable {s : PaddedHbf} {ues : OrderedMap UeSchedInfo} :
    Decidable (NoBytes c rnti s ues) :=
  inferInstanceAs
    (Decidable (∀ ue ∈ ues.find rnti, dlBytes s rnti ue = 0 ∧ ulBytes c s rnti ue = 0))

/-- A trigger hears of the UE only that its uplink blocks were good, if it has a record, and no
bytes wait for it. -/
structure Unheard (c : FlexTtiConfig) (rnti : Nat) (s : FlexTtiPf)
    (params : SchedTriggerReqParameters) : Prop where
  dl : c.harqOn = true → ∀ info ∈ s.dlHarqInfoList ++ params.dlHarqInfoList, info.rnti ≠ rnti
  ul : c.harqOn = true → ∀ info ∈ s.ulHarqInfoList ++ params.ulHarqInfoList, info.rnti = rnti →
    info.receptionStatus = .ok ∧ (s.ueSchedInfoMap.find rnti).isSome
  waits : ∀ refreshed, s.toPaddedHbf.refresh c.toPaddedHbfConfig = .ok refreshed →
    NoBytes c rnti refreshed s.ueSchedInfoMap

instance Unheard.decidable {s : FlexTtiPf} {params : SchedTriggerReqParameters} :
    Decidable (Unheard c rnti s params) :=
  decidable_of_iff ((c.harqOn = true →
      ∀ info ∈ s.dlHarqInfoList ++ params.dlHarqInfoList, info.rnti ≠ rnti) ∧
    (c.harqOn = true → ∀ info ∈ s.ulHarqInfoList ++ params.ulHarqInfoList, info.rnti = rnti →
      info.receptionStatus = .ok ∧ (s.ueSchedInfoMap.find rnti).isSome) ∧
    ∀ refreshed, s.toPaddedHbf.refresh c.toPaddedHbfConfig = .ok refreshed →
      NoBytes c rnti refreshed s.ueSchedInfoMap)
    ⟨fun ⟨hdl, hul, hwaits⟩ => ⟨hdl, hul, hwaits⟩, fun h => ⟨h.dl, h.ul, h.waits⟩⟩

/-! ## Records at rest -/

/-- Nothing was collected for a UE, and it has no symbols. -/
def UeSchedInfo.Quiet (ue : UeSchedInfo) : Prop :=
  ∀ mode, (ue.direction mode).totBuf = 0 ∧ (ue.direction mode).symbols = 0

/-- The record of one UE is quiet. -/
def QuietAt (rnti : Nat) (k : Nat) (ue : UeSchedInfo) : Prop := k = rnti → ue.Quiet

section

variable {ue ue' : UeSchedInfo}

/-- What matters is what was collected and the symbols. -/
theorem UeSchedInfo.Quiet.of_same (hue : ue.Quiet)
    (hdl : ue'.dl.totBuf = ue.dl.totBuf ∧ ue'.dl.symbols = ue.dl.symbols)
    (hul : ue'.ul.totBuf = ue.ul.totBuf ∧ ue'.ul.symbols = ue.ul.symbols) : ue'.Quiet := by
  intro mode
  cases mode with
  | dl => exact ⟨hdl.1.trans (hue .dl).1, hdl.2.trans (hue .dl).2⟩
  | ul => exact ⟨hul.1.trans (hue .ul).1, hul.2.trans (hue .ul).2⟩

theorem UeSchedInfo.Quiet.markDone (hue : ue.Quiet) : ue.markDone.Quiet := by
  have hsame : ∀ d : Direction, (d.markDone ue.iab).totBuf = d.totBuf ∧
      (d.markDone ue.iab).symbols = d.symbols := by
    intro d
    unfold Direction.markDone
    split
    · exact ⟨rfl, rfl⟩
    · exact ⟨rfl, rfl⟩
  exact hue.of_same (hsame ue.dl) (hsame ue.ul)

/-- A quiet record has no caps to set. -/
theorem UeSchedInfo.Quiet.limitIab (hue : ue.Quiet) (symAvail : Int) :
    ue.limitIab symAvail = .ok ue := by
  have hdl : ue.dl.totBuf = 0 := (hue .dl).1
  have hul : ue.ul.totBuf = 0 := (hue .ul).1
  unfold UeSchedInfo.limitIab
  rw [if_neg (by simp [hdl, hul])]
  rfl

theorem UeSchedInfo.Quiet.nextTurn (hue : ue.Quiet) : ue.markDone.nextTurn = none :=
  UeSchedInfo.nextTurn_markDone_eq_none fun mode => (hue mode).1

/-- What a collection finds for a quiet record. -/
theorem UeSchedInfo.Quiet.collectUe {s : PaddedHbf} {candidate : Candidate} (hue : ue.Quiet)
    (hok : collectUe c s rnti ue = .ok candidate) :
    (candidate.waits = false ↔ dlBytes s rnti ue = 0 ∧ ulBytes c s rnti ue = 0) ∧
      (candidate.waits = false → candidate.ue.Quiet) := by
  obtain ⟨hwaits, hidle⟩ := collectUe_idle (hue .dl).1 (hue .ul).1 hok
  refine ⟨hwaits, fun hnone => ?_⟩
  obtain ⟨dlMcs, ulMcs, rlcPduInfo, iab, hsame⟩ := hidle hnone
  rw [hsame]
  exact hue.of_same ⟨rfl, rfl⟩ ⟨rfl, rfl⟩

end

theorem steady_quiet : Steady fun _ ue => ue.Quiet where
  new := fun _ mode => by cases mode <;> exact ⟨rfl, rfl⟩
  flows := fun _ _ _ _ hue => hue.of_same ⟨rfl, rfl⟩ ⟨rfl, rfl⟩
  retx := fun _ _ _ _ hue => hue.of_same ⟨rfl, rfl⟩ ⟨rfl, rfl⟩

theorem resting_quiet : Resting c UeSchedInfo.Quiet where
  steady := steady_quiet
  reset := fun _ mode => by cases mode <;> exact ⟨rfl, rfl⟩
  idle := fun _ _ _ _ hue hok => (hue.collectUe hok).2
  limit := by
    intro symAvail ue ue' hue hok
    rw [hue.limitIab] at hok
    exact Except.ok.inj hok ▸ hue
  mark := fun _ hue => hue.markDone
  noTurn := fun _ hue => hue.nextTurn

theorem steady_quietAt : Steady (QuietAt rnti) where
  new := fun k _ => steady_quiet.new k
  flows := fun k ue dlFlows ulFlows hue hk => steady_quiet.flows k ue dlFlows ulFlows (hue hk)
  retx := fun k ue dlRetx ulRetx hue hk => steady_quiet.retx k ue dlRetx ulRetx (hue hk)

theorem keptInTurns_quietAt : KeptInTurns c (QuietAt rnti) where
  mark := fun _ _ hue hk => (hue hk).markDone
  turn := by
    intro k ue mode hue hturn hk
    rw [(hue hk).nextTurn] at hturn
    cases hturn

/-! ## What a trigger keeps -/

section

variable {U : Type} {book : UeBook U}

theorem answerDl_outlines {info : DlHarqInfo} {r r' : Retransmissions U DlHarqInfo}
    (hok : answerDl c book r info = .ok r') : r'.harq.outlines = r.harq.outlines := by
  obtain ⟨count, -, ⟨-, rfl⟩ | ⟨-, -, dci, -, ⟨-, rfl⟩ | ⟨-, hsend⟩⟩⟩ := answerDl_ok hok
  · exact outlines_resetDl
  · exact outlines_resetDl
  · rcases sendDl_ok hsend with ⟨-, rfl⟩ | ⟨found, slot, -, -, -, -, rfl⟩
    · rfl
    · exact outlines_sendDlAgain

theorem answerUl_outlines {info : UlHarqInfo} {r r' : Retransmissions U UlHarqInfo}
    (hok : answerUl c book r info = .ok r') : r'.harq.outlines = r.harq.outlines := by
  rcases answerUl_ok hok with ⟨-, rfl, -⟩ | ⟨count, -, ⟨-, rfl⟩ | ⟨-, rfl⟩ |
    ⟨-, -, dci, -, ⟨-, rfl⟩ | ⟨-, hsend⟩⟩⟩
  · rfl
  · exact outlines_resetUl
  · rfl
  · exact outlines_resetUl
  · rcases sendUl_ok hsend with ⟨-, rfl⟩ | ⟨found, slot, -, -, -, -, rfl⟩
    · rfl
    · exact outlines_sendUlAgain

theorem answerFeedback_outlines {pass pass' : RetxPass U}
    (hok : answerFeedback c book pass = .ok pass') :
    pass'.harq.outlines = pass.harq.outlines := by
  unfold answerFeedback at hok
  split at hok
  · obtain ⟨dl, hdl, hok⟩ := bind_eq_ok.1 hok
    obtain ⟨ul, hul, hok⟩ := bind_eq_ok.1 hok
    cases hok
    have hbetween : dl.harq.outlines = pass.harq.outlines :=
      answerInTurn_keeps (P := fun r => r.harq.outlines = pass.harq.outlines)
        (fun _ _ _ hr hanswer => (answerDl_outlines hanswer).trans hr) rfl hdl
    exact answerInTurn_keeps (P := fun r => r.harq.outlines = pass.harq.outlines)
      (fun _ _ _ hr hanswer => (answerUl_outlines hanswer).trans hr) hbetween hul
  · cases hok
    rfl

end

theorem grantDlOf_grows {d d' : Grants (OrderedMap UeSchedInfo)}
    (hok : grantDlOf c d rnti = .ok d') : d.Grows rnti d' := by
  unfold grantDlOf at hok
  have hok := blame_eq_ok.1 hok
  split at hok
  · exact Grants.grows_grantDl hok
  · exact pure_eq_ok.1 hok ▸ .refl

theorem grantUlOf_grows {sfnSf : SfnSf} {d d' : Grants (OrderedMap UeSchedInfo)}
    (hok : grantUlOf c sfnSf d rnti = .ok d') : d.Grows rnti d' := by
  unfold grantUlOf at hok
  have hok := blame_eq_ok.1 hok
  split at hok
  · exact Grants.grows_grantUl hok
  · exact pure_eq_ok.1 hok ▸ .refl

theorem grantAll_outlines {sfnSf : SfnSf} {rntis : List Nat}
    {d d' : Grants (OrderedMap UeSchedInfo)} (hok : grantAll c sfnSf rntis d = .ok d') :
    d'.harq.outlines = d.harq.outlines := by
  obtain ⟨dl, hdl, hul⟩ := bind_eq_ok.1 hok
  have hbetween : dl.harq.outlines = d.harq.outlines :=
    foldlM_invariant (I := fun d' _ => d'.harq.outlines = d.harq.outlines) hdl rfl
      fun _ _ _ _ hd hgrant => (grantDlOf_grows hgrant).outlines.trans hd
  exact foldlM_invariant (I := fun d' _ => d'.harq.outlines = d.harq.outlines) hul hbetween
    fun _ _ _ _ hd hgrant => (grantUlOf_grows hgrant).outlines.trans hd

/-- The CQIs and their timers, which a trigger leaves after it has refreshed them. -/
structure SameCqis (s s' : PaddedHbf) : Prop where
  wbCqiRxed : s'.wbCqiRxed = s.wbCqiRxed
  wbCqiTimers : s'.wbCqiTimers = s.wbCqiTimers
  ueUlCqi : s'.ueUlCqi = s.ueUlCqi
  ueCqiTimers : s'.ueCqiTimers = s.ueCqiTimers

/-- After its refresh a trigger leaves the CQIs, and no UE is configured or released. -/
theorem schedTriggerReq_refresh {s : FlexTtiPf} {params : SchedTriggerReqParameters}
    {result : FlexTtiPf × SchedConfigInd} (hok : s.schedTriggerReq c params = .ok result) :
    ∃ refreshed, s.toPaddedHbf.refresh c.toPaddedHbfConfig = .ok refreshed ∧
      result.1.harq.outlines = refreshed.harq.outlines ∧
      SameCqis refreshed result.1.toPaddedHbf := by
  obtain ⟨answered, hanswered, hok⟩ := bind_eq_ok.1 hok
  obtain ⟨prepared, hprepared, hanswered⟩ := bind_eq_ok.1 hanswered
  refine ⟨prepared.scheduler.toPaddedHbf, FlexTti.prepare_refresh hprepared, ?_⟩
  split at hanswered
  · obtain ⟨pass, hpass, hanswered⟩ := bind_eq_ok.1 hanswered
    obtain rfl := pure_eq_ok.1 hanswered
    have houtlines : pass.harq.outlines = prepared.scheduler.harq.outlines :=
      answerFeedback_outlines hpass
    dsimp only at hok
    split at hok
    · obtain rfl := pure_eq_ok.1 hok
      exact ⟨houtlines, rfl, rfl, rfl, rfl⟩
    · obtain ⟨collected, -, hok⟩ := bind_eq_ok.1 hok
      obtain ⟨divided, -, hok⟩ := bind_eq_ok.1 hok
      dsimp only at hok
      split at hok
      · obtain rfl := pure_eq_ok.1 hok
        exact ⟨houtlines, rfl, rfl, rfl, rfl⟩
      · obtain ⟨d, hd, hok⟩ := bind_eq_ok.1 hok
        obtain rfl := pure_eq_ok.1 hok
        have hgranted : d.harq.outlines = pass.harq.outlines := grantAll_outlines hd
        exact ⟨hgranted.trans houtlines, rfl, rfl, rfl, rfl⟩
  · obtain rfl := pure_eq_ok.1 hanswered
    obtain rfl := pure_eq_ok.1 hok
    exact ⟨rfl, rfl, rfl, rfl, rfl⟩

/-! ## Runs -/

/-- What is known of the scheduler in every run. -/
structure Known (c : FlexTtiConfig) (s : FlexTtiPf) : Prop where
  tidy : s.toPaddedHbf.Tidy c.toPaddedHbfConfig
  timed : s.toPaddedHbf.CqisTimed
  filed : c.harqOn = true → s.harq.Filed
  quiet : AllRecords (fun _ ue => ue.Quiet) s.ueSchedInfoMap

/-- A request keeps the maps in order. -/
theorem handle_tidy {s : FlexTtiPf} (htidy : s.toPaddedHbf.Tidy c.toPaddedHbfConfig)
    (htimed : s.toPaddedHbf.CqisTimed) {event : FlexTtiPfEvent}
    {result : FlexTtiPf × List SchedConfigInd} (hok : handle c event s = .ok result) :
    result.1.toPaddedHbf.Tidy c.toPaddedHbfConfig ∧ result.1.toPaddedHbf.CqisTimed := by
  by_cases htrigger : ∃ params, event = .schedTriggerReq params
  · obtain ⟨params, rfl⟩ := htrigger
    obtain ⟨next, hnext, rfl⟩ := map_eq_ok.1 hok
    obtain ⟨refreshed, hrefreshed, houtlines, hcqis⟩ := schedTriggerReq_refresh hnext
    have htidy' := (htidy.refresh hrefreshed).1
    have htimed' := (PaddedHbf.refresh_keeps hrefreshed).2 htimed
    refine ⟨htidy'.of_outlines houtlines ?_, ?_, ?_⟩
    · rw [hcqis.ueUlCqi]
      exact fun _ _ hcqi => hcqi
    · rw [hcqis.wbCqiRxed, hcqis.wbCqiTimers]
      exact htimed'.dl
    · rw [hcqis.ueUlCqi, hcqis.ueCqiTimers]
      exact htimed'.ul
  · rw [handle_shared (fun params heq => htrigger ⟨params, heq⟩) hok]
    split
    · exact ⟨SchedulerRun.request_tidy htidy, htimed.request⟩
    · exact ⟨htidy, htimed⟩

theorem run_tidy (c : FlexTtiConfig) (events : List FlexTtiPfEvent) :
    let s := (Run.run (TdmaRun.step (handle c)) { scheduler := start c } events).scheduler
    s.toPaddedHbf.Tidy c.toPaddedHbfConfig ∧ s.toPaddedHbf.CqisTimed := by
  refine Run.invariant (I := fun r : TdmaRun FlexTtiPf =>
    r.scheduler.toPaddedHbf.Tidy c.toPaddedHbfConfig ∧ r.scheduler.toPaddedHbf.CqisTimed)
    (fun r event hr => ?_) ?_
  · unfold TdmaRun.step
    split
    · exact hr
    · split
      · rename_i result hresult
        exact handle_tidy hr.1 hr.2 hresult
      · exact hr
  · refine ⟨⟨fun _ => Or.inr rfl, List.nodup_nil, List.nodup_nil, nofun⟩, ⟨?_, ?_⟩⟩
    · exact ⟨List.Pairwise.nil, List.Pairwise.nil, fun _ => rfl⟩
    · exact ⟨List.Pairwise.nil, List.Pairwise.nil, fun _ => rfl⟩

theorem run_known (c : FlexTtiConfig) (events : List FlexTtiPfEvent) :
    Known c (Run.run (TdmaRun.step (handle c)) { scheduler := start c } events).scheduler :=
  ⟨(run_tidy c events).1, (run_tidy c events).2, fun hharq => (run_records hharq events).1,
    resting_quiet.run events⟩

/-! ## Released UEs -/

theorem configured_of_outlines {h h' : HarqProcesses} (houtlines : h'.outlines = h.outlines) :
    h'.Configured rnti ↔ h.Configured rnti := by
  have hshape : shape h'.dlHarqProcessesStatus rnti = shape h.dlHarqProcessesStatus rnti :=
    congrArg (·.getD 0 none) (congrFun (shapes_of_outlines houtlines) rnti)
  unfold shape at hshape
  unfold HarqProcesses.Configured
  rw [← Option.isSome_map, hshape, Option.isSome_map]

theorem configured_configureUe {m : MmWavePhyMacCommon} {h : HarqProcesses} {k : Nat}
    (hh : h.Shaped m.numHarqProcess) (hk : rnti ≠ k) :
    (h.configureUe m k).Configured rnti ↔ h.Configured rnti := by
  rcases hh.configureUe_eq k with hsame | ⟨-, hnew⟩
  · rw [hsame]
  · rw [hnew]
    unfold HarqProcesses.Configured HarqProcesses.withUe
    dsimp only
    rw [OrderedMap.find_insertNew, if_neg hk]

theorem not_configured_releaseUe (h : HarqProcesses) : ¬ (h.releaseUe rnti).Configured rnti := by
  unfold HarqProcesses.Configured HarqProcesses.releaseUe
  dsimp only
  rw [OrderedMap.find_erase, if_pos rfl]
  exact nofun

theorem configured_of_releaseUe {h : HarqProcesses} {k : Nat}
    (hconfigured : (h.releaseUe k).Configured rnti) : h.Configured rnti := by
  unfold HarqProcesses.Configured HarqProcesses.releaseUe at hconfigured
  dsimp only at hconfigured
  rw [OrderedMap.find_erase] at hconfigured
  split at hconfigured
  · cases hconfigured
  · exact hconfigured

/-- Only a configuration of the UE configures it. -/
theorem not_configured_handle {s : FlexTtiPf} (hs : s.toPaddedHbf.Tidy c.toPaddedHbfConfig)
    (hno : ¬ s.harq.Configured rnti) {event : FlexTtiPfEvent} (hevent : concerns rnti event = false)
    {result : FlexTtiPf × List SchedConfigInd} (hok : handle c event s = .ok result) :
    ¬ result.1.harq.Configured rnti := by
  by_cases htrigger : ∃ params, event = .schedTriggerReq params
  · obtain ⟨params, rfl⟩ := htrigger
    obtain ⟨next, hnext, rfl⟩ := map_eq_ok.1 hok
    obtain ⟨refreshed, hrefreshed, houtlines, -⟩ := schedTriggerReq_refresh hnext
    rwa [configured_of_outlines (houtlines.trans (PaddedHbf.refresh_outlines hrefreshed))]
  · rw [handle_shared (fun params heq => htrigger ⟨params, heq⟩) hok]
    split
    · rename_i request hrequest
      obtain ⟨⟨k, reconfigureFlag, iab, rfl, heq⟩ | ⟨k, -, heq⟩ | heq, -⟩ :=
        SchedulerRun.request_harq (c := c.toPaddedHbfConfig) (s := s.toPaddedHbf) request
      · rw [heq]
        have hk : rnti ≠ k := by
          rintro rfl
          cases event <;> simp [shared, concerns] at hrequest hevent
          exact hevent hrequest.1
        rwa [configured_configureUe hs.shaped hk]
      · rw [heq]
        exact fun hconfigured => hno (configured_of_releaseUe hconfigured)
      · rwa [heq]
    · exact hno

/-- A step after which the run goes on. -/
theorem step_of_fine {r : TdmaRun FlexTtiPf} {event : FlexTtiPfEvent}
    (hfine : (r.step (handle c) event).failure = none) :
    r.failure = none ∧ ∃ result, handle c event r.scheduler = .ok result ∧
      (r.step (handle c) event).scheduler = result.1 := by
  unfold TdmaRun.step at hfine ⊢
  cases hfailure : r.failure with
  | some failure =>
      rw [hfailure] at hfine
      exact absurd (hfailure.symm.trans hfine) nofun
  | none =>
      refine ⟨rfl, ?_⟩
      rw [hfailure] at hfine
      dsimp only at hfine ⊢
      cases hok : handle c event r.scheduler with
      | ok result => exact ⟨result, rfl, rfl⟩
      | error failure =>
          rw [hok] at hfine
          cases hfine

theorem not_configured_of_released {events : List FlexTtiPfEvent}
    (hfine : (Run.run (TdmaRun.step (handle c)) { scheduler := start c } events).failure = none)
    (hreleased : Released rnti events) :
    ¬ (Run.run (TdmaRun.step (handle c)) { scheduler := start c }
      events).scheduler.harq.Configured rnti := by
  induction events using List.reverseRecOn with
  | nil => cases hreleased
  | append_singleton before event ih =>
      rw [Run.run_append, Run.run_cons, Run.run_nil] at hfine ⊢
      obtain ⟨hbefore, result, hok, hnext⟩ := step_of_fine hfine
      rw [hnext]
      unfold Released at hreleased
      rw [List.filter_append, List.filter_singleton] at hreleased
      cases hconcerns : concerns rnti event with
      | true =>
          rw [hconcerns] at hreleased
          have hlast : event = .cschedUeReleaseReq rnti := by simpa using hreleased
          subst hlast
          cases hok
          exact not_configured_releaseUe _
      | false =>
          rw [hconcerns] at hreleased
          have hearlier : Released rnti before := by simpa [Released] using hreleased
          exact not_configured_handle (run_tidy c before).1 (ih hbefore hearlier) hconcerns hok

/-! ## Failures -/

section

variable {α : Type} {cause : Cause} {x : Except Fault α} {P : α → Prop}

/-- What is blamed on another UE or the cell may fail. -/
theorem yields_blame_other (hue : cause ≠ .ue rnti) (hexpiry : cause ≠ .expiry)
    (hP : ∀ a, x = .ok a → P a) : Yields (Blameless rnti) P (blame cause x) := by
  cases x with
  | ok a => exact hP a rfl
  | error fault => exact ⟨hue, hexpiry⟩

/-- What succeeds is blamed on nobody. -/
theorem yields_blame_ok {a : α} (hx : x = .ok a) (ha : P a) :
    Yields (Blameless rnti) P (blame cause x) := by
  rw [hx]
  exact ha

theorem yields_blame_cell : Yields (Blameless rnti) (fun a => x = .ok a) (blame .cell x) :=
  yields_blame_other nofun nofun fun _ hok => hok

theorem ue_ne_expiry (k : Nat) : Cause.ue k ≠ .expiry := Cause.noConfusion

theorem ne_of_ue {k : Nat} (hk : k ≠ rnti) : Cause.ue k ≠ .ue rnti :=
  fun heq => hk (Cause.ue.inj heq)

end

/-- The timers are no cause of a failure. -/
theorem exists_refresh {c : PaddedHbfConfig} {s : PaddedHbf} (htidy : s.Tidy c)
    (htimed : s.CqisTimed) : ∃ refreshed, s.refresh c = .ok refreshed := by
  obtain ⟨dlMaps, hdl⟩ := htimed.dl.exists_refresh
  obtain ⟨ulMaps, hul⟩ := htimed.ul.exists_refresh
  have hharq : Yields (fun _ => False) (fun _ => True) (s.harq.refreshHarqProcesses c.phyMac) :=
    yields_refreshHarqProcesses htidy.shaped htidy.dlTimers htidy.ulTimers
  cases hok : s.harq.refreshHarqProcesses c.phyMac with
  | ok harq =>
      unfold PaddedHbf.refresh PaddedHbf.refreshDlCqiMaps PaddedHbf.refreshUlCqiMaps
      simp only [bind_assoc, pure_bind]
      rw [hdl, ok_bind, hul, ok_bind, hok, ok_bind]
      exact ⟨_, rfl⟩
  | error fault => exact (hharq.of_error hok).elim

theorem yields_prepare {s : FlexTti} {params : SchedTriggerReqParameters}
    (htidy : s.toPaddedHbf.Tidy c.toPaddedHbfConfig) (htimed : s.toPaddedHbf.CqisTimed) :
    Yields (Blameless rnti) (fun prepared => s.prepare c params = .ok prepared)
      (s.prepare c params) := by
  have htrue : Yields (Blameless rnti) (fun _ => True) (s.prepare c params) := by
    unfold FlexTti.prepare
    refine yields_blame_cell.bind fun sfnSf _ => ?_
    refine yields_blame_cell.bind fun symAvail hbusy => ?_
    rw [FlexTti.toPaddedHbf_updateBusySymbolsForIab hbusy]
    obtain ⟨refreshed, hrefreshed⟩ := exists_refresh htidy htimed
    exact (yields_blame_ok (P := fun _ => True) hrefreshed trivial).bind fun _ _ => trivial
  exact htrue.and_ok fun _ hok => hok

/-! ## Feedback -/

/-- What a loop over feedback leaves of what is about the UE. -/
structure Spared (rnti : Nat) (h : HarqProcesses) (record : Option UeSchedInfo) {Info : Type}
    (r : Retransmissions Working Info) : Prop where
  filed : r.harq.Filed
  outlines : r.harq.outlines = h.outlines
  record : r.ues.ueSchedInfoMap.find rnti = record
  slots : ∀ slot ∈ r.subframe.slotAllocInfo, Avoids rnti slot

section

variable {h : HarqProcesses} {record : Option UeSchedInfo}

/-- A slot of another UE is added. -/
theorem avoids_push {slots : List SlotAllocInfo} {slot : SlotAllocInfo} {k : Nat} (hk : k ≠ rnti)
    (hslots : ∀ slot ∈ slots, Avoids rnti slot) (hdci : slot.dci.rnti = k)
    (hslot : slot.rnti = some k) : ∀ other ∈ slots ++ [slot], Avoids rnti other := by
  rw [List.forall_mem_append, List.forall_mem_singleton]
  refine ⟨hslots, fun _ => ⟨?_, ?_⟩⟩
  · rw [hdci]
    exact hk
  · rw [hslot]
    exact fun heq => hk (Option.some.inj heq)

theorem find_note {w : Working} {k : Nat} {f : UeSchedInfo → UeSchedInfo} (hk : k ≠ rnti) :
    (w.note k f).ueSchedInfoMap.find rnti = w.ueSchedInfoMap.find rnti := by
  unfold Working.note
  dsimp only
  rw [OrderedMap.find_adjust, if_neg hk.symm]

theorem Spared.answerDl {info : DlHarqInfo} {r r' : Retransmissions Working DlHarqInfo}
    (hr : Spared rnti h record r) (hinfo : info.rnti ≠ rnti)
    (hok : Mmwave.answerDl c book r info = .ok r') : Spared rnti h record r' := by
  have hfiled : r'.harq.Filed := answerDl_filed hr.filed hok
  have houtlines : r'.harq.outlines = h.outlines := (answerDl_outlines hok).trans hr.outlines
  obtain ⟨count, hcount, ⟨-, rfl⟩ | ⟨-, hpos, dci, hdci, ⟨-, rfl⟩ | ⟨-, hsend⟩⟩⟩ :=
    answerDl_ok hok
  · exact ⟨hfiled, houtlines, hr.record, hr.slots⟩
  · exact ⟨hfiled, houtlines, hr.record, hr.slots⟩
  · -- the stored DCI is that of the UE, and so the slot is
    obtain ⟨stored, hstored, hrecord⟩ := hr.filed.dl _ _ _ hcount (Nat.pos_of_ne_zero hpos)
    obtain rfl := Option.some.inj (hdci.symm.trans hstored)
    obtain ⟨found, -, hsend⟩ := bind_eq_ok.1 hsend
    cases found with
    | none =>
        cases hsend
        exact ⟨hfiled, houtlines, hr.record, hr.slots⟩
    | some found =>
        obtain ⟨pdus, -, hsend⟩ := bind_eq_ok.1 hsend
        obtain ⟨rlcPduInfo, -, hsend⟩ := bind_eq_ok.1 hsend
        cases hsend
        refine ⟨hfiled, houtlines, (find_note hinfo).trans hr.record, ?_⟩
        refine avoids_push hinfo hr.slots hrecord.rnti_eq ?_
        show some (if found.later then dci.rnti else info.rnti) = some info.rnti
        rw [hrecord.rnti_eq, ite_self]

theorem Spared.answerUl {info : UlHarqInfo} {r r' : Retransmissions Working UlHarqInfo}
    (hr : Spared rnti h record r) (hinfo : info.rnti ≠ rnti)
    (hok : Mmwave.answerUl c book r info = .ok r') : Spared rnti h record r' := by
  have hfiled : r'.harq.Filed := answerUl_filed hr.filed hok
  have houtlines : r'.harq.outlines = h.outlines := (answerUl_outlines hok).trans hr.outlines
  rcases answerUl_ok hok with ⟨-, rfl, -⟩ | ⟨count, hcount, ⟨-, rfl⟩ | ⟨-, rfl⟩ |
    ⟨-, hpos, dci, hdci, ⟨-, rfl⟩ | ⟨-, hsend⟩⟩⟩
  · exact hr
  · exact ⟨hfiled, houtlines, hr.record, hr.slots⟩
  · exact hr
  · exact ⟨hfiled, houtlines, hr.record, hr.slots⟩
  · obtain ⟨stored, hstored, hrecord⟩ := hr.filed.ul _ _ _ hcount (Nat.pos_of_ne_zero hpos)
    obtain rfl := Option.some.inj (hdci.symm.trans hstored)
    obtain ⟨found, -, hsend⟩ := bind_eq_ok.1 hsend
    cases found with
    | none =>
        cases hsend
        exact ⟨hfiled, houtlines, hr.record, hr.slots⟩
    | some found =>
        cases hsend
        exact ⟨hfiled, houtlines, (find_note hinfo).trans hr.record,
          avoids_push hinfo hr.slots hrecord.rnti_eq rfl⟩

/-- That an uplink block of a UE without processes was good does nothing. -/
theorem answerUl_good {info : UlHarqInfo} {r : Retransmissions Working UlHarqInfo}
    (hexpects : (r.ues.ueSchedInfoMap.find info.rnti).isSome = true)
    (hgood : info.receptionStatus = .ok)
    (hnone : r.harq.ulHarqProcessesStatus.find info.rnti = none) :
    Mmwave.answerUl c book r info = .ok r := by
  unfold Mmwave.answerUl
  dsimp only
  have hassert : assert (book.expects info.rnti r.ues = true) = .ok () := assert_eq_ok.2 hexpects
  rw [hassert, ok_bind, if_pos hgood, hnone]
  rfl

/-- A loop over feedback keeps what its answers keep, if those about the UE succeed. -/
theorem yields_answerInTurn {Info : Type} {rntiOf : Info → Nat}
    {answer : Retransmissions Working Info → Info → Except Fault (Retransmissions Working Info)}
    {I : Retransmissions Working Info → Prop} {infos : List Info}
    {r : Retransmissions Working Info} (hr : I r)
    (hstep : ∀ info ∈ infos, ∀ r, I r → (rntiOf info ≠ rnti ∧
      ∀ r', answer r info = .ok r' → I r') ∨ answer r info = .ok r) :
    Yields (Blameless rnti) I (answerInTurn rntiOf answer infos r) := by
  induction infos generalizing r with
  | nil => exact hr
  | cons info rest ih =>
      unfold answerInTurn
      split
      · exact hr
      · have hnext : Yields (Blameless rnti) I (blame (.ue (rntiOf info)) (answer r info)) := by
          rcases hstep info List.mem_cons_self r hr with ⟨hother, hkeeps⟩ | hsame
          · exact yields_blame_other (ne_of_ue hother) (ue_ne_expiry _) hkeeps
          · exact yields_blame_ok hsame hr
        exact hnext.bind fun r' hr' =>
          ih hr' fun other hmem => hstep other (List.mem_cons_of_mem _ hmem)

/-- The feedback of a trigger that does not hear of the UE. -/
theorem yields_answerFeedback {pass : RetxPass Working}
    (hfiled : c.harqOn = true → pass.harq.Filed)
    (hnone : shape pass.harq.ulHarqProcessesStatus rnti = none)
    (hslots : ∀ slot ∈ pass.subframe.slotAllocInfo, Avoids rnti slot)
    (hdl : c.harqOn = true → ∀ info ∈ pass.dlHarqInfoList, info.rnti ≠ rnti)
    (hul : c.harqOn = true → ∀ info ∈ pass.ulHarqInfoList, info.rnti = rnti →
      info.receptionStatus = .ok ∧ (pass.ues.ueSchedInfoMap.find rnti).isSome) :
    Yields (Blameless rnti) (fun pass' =>
        pass'.ues.ueSchedInfoMap.find rnti = pass.ues.ueSchedInfoMap.find rnti ∧
        ∀ slot ∈ pass'.subframe.slotAllocInfo, Avoids rnti slot)
      (answerFeedback c book pass) := by
  unfold answerFeedback
  split
  swap
  · exact ⟨rfl, hslots⟩
  rename_i hharq
  have hstart : Spared rnti pass.harq (pass.ues.ueSchedInfoMap.find rnti)
      ({ harq := pass.harq, subframe := pass.subframe, ues := pass.ues } :
        Retransmissions Working DlHarqInfo) := ⟨hfiled hharq, rfl, rfl, hslots⟩
  refine (yields_answerInTurn hstart fun info hinfo r hr =>
    Or.inl ⟨hdl hharq info hinfo, fun r' hok => hr.answerDl (hdl hharq info hinfo) hok⟩).bind
      fun dl hdlSpared => ?_
  have hbetween : Spared rnti pass.harq (pass.ues.ueSchedInfoMap.find rnti)
      ({ harq := dl.harq, subframe := dl.subframe, ues := dl.ues } :
        Retransmissions Working UlHarqInfo) :=
    ⟨hdlSpared.filed, hdlSpared.outlines, hdlSpared.record, hdlSpared.slots⟩
  refine (yields_answerInTurn hbetween fun info hinfo r hr => ?_).bind fun ul hulSpared =>
    ⟨hulSpared.record, hulSpared.slots⟩
  by_cases hother : info.rnti = rnti
  · obtain ⟨hgood, hrecord⟩ := hul hharq info hinfo hother
    refine Or.inr (answerUl_good ?_ hgood ?_)
    · rw [hother, hr.record]
      exact hrecord
    · have hsame : shape r.harq.ulHarqProcessesStatus rnti =
          shape pass.harq.ulHarqProcessesStatus rnti :=
        congrArg (·.getD 4 none) (congrFun (shapes_of_outlines hr.outlines) rnti)
      rw [hother]
      exact Option.map_eq_none_iff.1 (hsame.trans hnone)
  · exact Or.inl ⟨hother, fun r' hok => hr.answerUl hother hok⟩

end

/-! ## New data -/

/-- What waits for a UE is collected without a fault, as its SINRs are known for every chunk. -/
theorem exists_collectUe {s : PaddedHbf} (hcqis : ∀ k cqi, s.ueUlCqi.find k = some cqi →
    c.phyMac.totalNumChunk ≤ cqi.ueUlCqi.length) (k : Nat) (ue : UeSchedInfo) :
    ∃ candidate, collectUe c s k ue = .ok candidate := by
  obtain ⟨cqi, hcqi⟩ : ∃ cqi, Mmwave.Flows.ulCqi c.toPaddedHbfConfig s k = .ok cqi := by
    unfold Mmwave.Flows.ulCqi
    cases hfind : s.ueUlCqi.find k with
    | none => exact ⟨_, rfl⟩
    | some cqi =>
        dsimp only
        rw [if_neg (Nat.not_lt.2 (hcqis k cqi hfind))]
        exact ⟨_, rfl⟩
  unfold collectUe collectUl
  dsimp only
  rw [hcqi, ok_bind]
  split
  · exact ⟨_, rfl⟩
  · split
    · exact ⟨_, rfl⟩
    · exact ⟨_, rfl⟩

/-- The collection leaves a record quiet for which no bytes wait. -/
theorem yields_collect {s : FlexTtiPf} {w : Working}
    (hcqis : ∀ k cqi, s.ueUlCqi.find k = some cqi → c.phyMac.totalNumChunk ≤ cqi.ueUlCqi.length)
    (hw : AllRecords (fun _ ue => ue.Quiet) w.ueSchedInfoMap)
    (hbytes : NoBytes c rnti s.toPaddedHbf w.ueSchedInfoMap) :
    Yields (Blameless rnti) (fun collected => AllRecords (QuietAt rnti) collected.ueSchedInfoMap)
      (collect c s w) := by
  have htrue : Yields (Blameless rnti) (fun _ => True) (collect c s w) := by
    unfold collect
    refine (OrderedMap.yields_traverse fun entry _ => ?_).bind fun candidates _ => trivial
    obtain ⟨candidate, hcandidate⟩ := exists_collectUe hcqis entry.1 entry.2
    rw [hcandidate]
    trivial
  refine htrue.and_ok fun collected hok => hw.collect hok ?_
  rintro k ue candidate hfind hue hcollect - rfl
  obtain ⟨hwaits, hquiet⟩ := hue.collectUe hcollect
  exact hquiet (hwaits.2 (hbytes ue hfind))

theorem yields_divideSymbols {symAvail : Int} {heap : List Nat} {ues : OrderedMap UeSchedInfo}
    (hues : AllRecords (QuietAt rnti) ues) :
    Yields (Blameless rnti) (fun d => AllRecords (QuietAt rnti) d.ueSchedInfoMap)
      (divideSymbols c symAvail heap ues) := by
  have htrue : Yields (Blameless rnti) (fun _ => True) (divideSymbols c symAvail heap ues) := by
    unfold divideSymbols
    refine (OrderedMap.yields_traverse fun entry hentry => ?_).bind fun limited _ => trivial
    by_cases hk : entry.1 = rnti
    · have hquiet := hues.each entry.1 entry.2 (OrderedMap.find_of_mem hues.nodup hentry) hk
      exact yields_blame_ok (hquiet.limitIab symAvail) trivial
    · exact yields_blame_other (ne_of_ue hk) (ue_ne_expiry _) fun _ _ => trivial
  refine htrue.and_ok fun d hok => hues.divideSymbols keptInTurns_quietAt ?_ hok
  intro k ue ue' hue hlimit hk
  rw [(hue hk).limitIab] at hlimit
  exact Except.ok.inj hlimit ▸ hue hk

/-- While grants are made the record of the UE is quiet, and no slot is for it. -/
structure Withheld (rnti : Nat) (d : Grants (OrderedMap UeSchedInfo)) : Prop where
  records : AllRecords (QuietAt rnti) d.buffers
  slots : ∀ slot ∈ d.subframe.slotAllocInfo, Avoids rnti slot

section

variable {d : Grants (OrderedMap UeSchedInfo)}

/-- The UE has no symbols, in either direction. -/
theorem Withheld.symbols (hd : Withheld rnti d) (mode : TddMode) :
    (((d.buffers.find rnti).getD {}).direction mode).symbols = 0 := by
  cases hfind : d.buffers.find rnti with
  | none => cases mode <;> rfl
  | some ue => exact (hd.records.each rnti ue hfind rfl mode).2

/-- A grant for another UE. -/
theorem Withheld.grant (hd : Withheld rnti d) {k : Nat} (hk : k ≠ rnti)
    {x : Except Fault (Grants (OrderedMap UeSchedInfo))}
    (hgrows : ∀ d', x = .ok d' → d.Grows k d')
    (hrecords : ∀ d', x = .ok d' → AllRecords (QuietAt rnti) d'.buffers) :
    Yields (Blameless rnti) (Withheld rnti) (blame (.ue k) x) := by
  refine yields_blame_other (ne_of_ue hk) (ue_ne_expiry _) fun d' hok =>
    ⟨hrecords d' hok, fun slot hslot => ?_⟩
  rcases (hgrows d' hok).slots slot hslot with hold | hnew
  · exact hd.slots slot hold
  · refine fun _ => ⟨?_, ?_⟩
    · rw [hnew.dci]
      exact hk
    · rw [hnew.slot]
      exact fun heq => hk (Option.some.inj heq)

theorem Withheld.grantDlOf (hd : Withheld rnti d) (k : Nat) :
    Yields (Blameless rnti) (Withheld rnti) (FlexTtiPf.grantDlOf c d k) := by
  by_cases hk : k = rnti
  · subst hk
    have hsymbols : ((d.buffers.find k).getD {}).dl.symbols = 0 := hd.symbols .dl
    unfold FlexTtiPf.grantDlOf
    dsimp only
    rw [if_neg (by rw [hsymbols]; exact Nat.lt_irrefl 0)]
    exact hd
  · refine hd.grant hk (fun d' hok => grantDlOf_grows (blame_eq_ok.2 hok)) fun d' hok => ?_
    split at hok
    · exact Grants.keeps_grantDl steady_quietAt.keeps_buffers hd.records hok
    · exact pure_eq_ok.1 hok ▸ hd.records

theorem Withheld.grantUlOf (hd : Withheld rnti d) (sfnSf : SfnSf) (k : Nat) :
    Yields (Blameless rnti) (Withheld rnti) (FlexTtiPf.grantUlOf c sfnSf d k) := by
  by_cases hk : k = rnti
  · subst hk
    have hsymbols : ((d.buffers.find k).getD {}).ul.symbols = 0 := hd.symbols .ul
    unfold FlexTtiPf.grantUlOf
    dsimp only
    rw [if_neg (by rw [hsymbols]; exact Nat.lt_irrefl 0)]
    exact hd
  · refine hd.grant hk (fun d' hok => grantUlOf_grows (blame_eq_ok.2 hok)) fun d' hok => ?_
    split at hok
    · exact Grants.keeps_grantUl steady_quietAt.keeps_buffers hd.records hok
    · exact pure_eq_ok.1 hok ▸ hd.records

theorem Withheld.grantAll (hd : Withheld rnti d) (sfnSf : SfnSf) (rntis : List Nat) :
    Yields (Blameless rnti) (Withheld rnti) (FlexTtiPf.grantAll c sfnSf rntis d) := by
  unfold FlexTtiPf.grantAll
  refine (yields_foldlM (I := fun d _ => Withheld rnti d) hd
    fun d k _ hd => hd.grantDlOf k).bind fun dl hdl => ?_
  exact yields_foldlM (I := fun d _ => Withheld rnti d) hdl fun d k _ hd => hd.grantUlOf sfnSf k

end

/-! ## Triggers -/

/-- Only the control slot at the end is added. -/
theorem avoids_allocationOf {sfnSf : SfnSf} {sf : Subframe}
    (hslots : ∀ slot ∈ sf.slotAllocInfo, Avoids rnti slot) :
    ∀ slot ∈ (allocationOf c sfnSf sf).slotAllocInfo, Avoids rnti slot := by
  show ∀ slot ∈ sf.slotAllocInfo ++ [ulCtrlSlot c.toPaddedHbfConfig], Avoids rnti slot
  rw [List.forall_mem_append, List.forall_mem_singleton]
  exact ⟨hslots, nofun⟩

theorem avoids_sortedAllocation {ind : SchedConfigInd}
    (hslots : ∀ slot ∈ ind.slotAllocInfo, Avoids rnti slot) :
    ∀ slot ∈ (sortedAllocation c ind).slotAllocInfo, Avoids rnti slot :=
  fun slot hslot => hslots slot ((c.slotSort.perm _ _).mem_iff.1 hslot)

/-- What the feedback leaves for the division, with regard to the UE. -/
structure Ready (c : FlexTtiConfig) (rnti : Nat) (a : Answered) : Prop where
  cqis : ∀ k cqi, a.scheduler.ueUlCqi.find k = some cqi →
    c.phyMac.totalNumChunk ≤ cqi.ueUlCqi.length
  records : AllRecords (fun _ ue => ue.Quiet) a.pass.ues.ueSchedInfoMap
  noBytes : NoBytes c rnti a.scheduler.toPaddedHbf a.pass.ues.ueSchedInfoMap
  slots : ∀ slot ∈ a.pass.subframe.slotAllocInfo, Avoids rnti slot

theorem yields_answer {s : FlexTtiPf} (hs : Known c s) (hno : ¬ s.harq.Configured rnti)
    {params : SchedTriggerReqParameters}
    (hunheard : FlexTti.hasData c → Unheard c rnti s params) :
    Yields (Blameless rnti)
      (fun answered => (∃ a, answered = .inl a ∧ Ready c rnti a) ∨
        ∃ result, answered = .inr result ∧ ∀ slot ∈ result.2.slotAllocInfo, Avoids rnti slot)
      (s.answer c params) := by
  unfold answer
  refine (yields_prepare hs.tidy hs.timed).bind fun prepared hprepared => ?_
  have hrefreshed := FlexTti.prepare_refresh hprepared
  have hstart : ∀ slot ∈ [dlCtrlSlot], Avoids rnti slot := by
    rw [List.forall_mem_singleton]
    exact nofun
  split
  · rename_i hdata
    have hunheard := hunheard hdata
    obtain ⟨hdlInfos, hulInfos, -⟩ := PaddedHbf.refresh_ok hrefreshed
    obtain ⟨htidy, houtlines, -⟩ := hs.tidy.refresh hrefreshed
    have hnone : ¬ prepared.scheduler.harq.Configured rnti := by
      rwa [configured_of_outlines houtlines]
    refine Yields.bind ((yields_answerFeedback
      (fun hharq => (hs.filed hharq).refresh hrefreshed) (htidy.shaped.ulStatus_none hnone) hstart
      ?_ ?_).and fun pass hpass => answerFeedback_steady steady_quiet hs.quiet hpass) ?_
    · show c.harqOn = true → ∀ info ∈ prepared.scheduler.dlHarqInfoList ++ _, _
      rw [hdlInfos]
      exact hunheard.dl
    · show c.harqOn = true → ∀ info ∈ prepared.scheduler.ulHarqInfoList ++ _, _
      rw [hulInfos]
      exact hunheard.ul
    · rintro pass ⟨⟨hrecord, hslots⟩, hquiet⟩
      have hwaits : NoBytes c rnti prepared.scheduler.toPaddedHbf s.ueSchedInfoMap :=
        hunheard.waits prepared.scheduler.toPaddedHbf hrefreshed
      refine Or.inl ⟨_, rfl, htidy.cqis, hquiet, ?_, hslots⟩
      unfold NoBytes
      dsimp only
      rw [hrecord]
      exact hwaits
  · exact Or.inr ⟨_, rfl, avoids_allocationOf hstart⟩

/-- A trigger that does not hear of a UE emits no slot for it, and does not fail because of it. -/
theorem yields_schedTriggerReq {s : FlexTtiPf} (hs : Known c s) (hno : ¬ s.harq.Configured rnti)
    {params : SchedTriggerReqParameters}
    (hunheard : FlexTti.hasData c → Unheard c rnti s params) :
    Yields (Blameless rnti) (fun result => ∀ slot ∈ result.2.slotAllocInfo, Avoids rnti slot)
      (s.schedTriggerReq c params) := by
  unfold schedTriggerReq
  refine (yields_answer hs hno hunheard).bind ?_
  rintro answered (⟨a, rfl, ha⟩ | ⟨result, rfl, hslots⟩)
  · dsimp only
    split
    · exact avoids_allocationOf ha.slots
    · refine (yields_collect ha.cqis ha.records ha.noBytes).bind fun collected hcollected => ?_
      unfold scheduleNewData
      refine (yields_divideSymbols hcollected).bind fun divided hdivided => ?_
      dsimp only
      split
      · exact avoids_allocationOf ha.slots
      · have hbegin : Withheld rnti {
            harq := a.scheduler.harq
            subframe := { a.pass.subframe with symAvail :=
              a.pass.subframe.symAvail - (divided.given.length : Nat) }
            buffers := divided.ueSchedInfoMap
            ulAllocationMap := a.scheduler.ulAllocationMap
            tbUid := a.scheduler.tbUid } := ⟨hdivided, ha.slots⟩
        refine (hbegin.grantAll _ _).bind fun d hd => ?_
        exact avoids_sortedAllocation (avoids_allocationOf hd.slots)
  · exact hslots

/-- In every run a trigger after the release of a UE, and before it is configured again, emits no
slot for it and does not fail because of it, if the trigger does not hear of the UE. Triggers
without data symbols only refresh the timers. -/
theorem run_gone {events : List FlexTtiPfEvent} (hreleased : Released rnti events)
    {params : SchedTriggerReqParameters}
    (hunheard : FlexTti.hasData c → Unheard c rnti
      (Run.run (TdmaRun.step (handle c)) { scheduler := start c } events).scheduler params) :
    Gone c rnti (Run.run (TdmaRun.step (handle c)) { scheduler := start c } events) params := by
  have hknown := run_known c events
  have hno (hfine) := not_configured_of_released (c := c) hfine hreleased
  revert hunheard hknown hno
  generalize Run.run (TdmaRun.step (handle c)) { scheduler := start c } events = r
  intro hunheard hknown hno
  cases hfine : r.failure with
  | some failure =>
      have hstuck : r.step (handle c) (.schedTriggerReq params) = r := by
        unfold TdmaRun.step
        rw [hfine]
      constructor
      · intro ind hemitted
        rw [hstuck] at hemitted
        exact absurd hemitted.symm (List.cons_ne_self _ _)
      · intro hnone
        rw [hfine] at hnone
        cases hnone
  | none =>
      have hyields := yields_schedTriggerReq hknown (hno hfine) hunheard
      have hstep : r.step (handle c) (.schedTriggerReq params) =
          match r.scheduler.schedTriggerReq c params with
          | .ok result => { r with scheduler := result.1, emitted := result.2 :: r.emitted }
          | .error failure => { r with failure := some failure } := by
        unfold TdmaRun.step
        rw [hfine]
        dsimp only [handle]
        cases r.scheduler.schedTriggerReq c params <;> rfl
      cases hok : r.scheduler.schedTriggerReq c params with
      | ok result =>
          rw [hok] at hstep
          rw [hok] at hyields
          constructor
          · intro ind hemitted
            rw [hstep] at hemitted
            exact (List.cons.inj hemitted).1 ▸ hyields
          · intro _ failure hfailure
            rw [hstep] at hfailure
            exact absurd (hfine.symm.trans hfailure) nofun
      | error failure =>
          rw [hok] at hstep
          rw [hok] at hyields
          constructor
          · intro ind hemitted
            rw [hstep] at hemitted
            exact absurd hemitted.symm (List.cons_ne_self _ _)
          · intro _ other hother
            rw [hstep] at hother
            exact Option.some.inj hother ▸ hyields

/-- All the bytes of a UE are sent, and it is released. Another one follows. -/
def servedBefore : List FlexTtiPfEvent :=
  [.cschedUeConfigReq 1 false false 0,
    .schedDlRlcBufferReq
      { rnti := 1, logicalChannelIdentity := 3, rlcTransmissionQueueSize := 94 },
    .schedTriggerReq { sfnSf := {} },
    .cschedUeReleaseReq 1,
    .cschedUeConfigReq 2 false false 0,
    .schedDlRlcBufferReq
      { rnti := 2, logicalChannelIdentity := 3, rlcTransmissionQueueSize := 100 }]

/-- The working list has the UE, and an uplink block of it was good. -/
theorem run_gone_servedBefore :
    1 ∈ (after servedBefore).ueStatHeap ∧
      Gone tenBytes 1
        (Run.run (TdmaRun.step (handle tenBytes)) { scheduler := start tenBytes } servedBefore)
        { sfnSf := { sfNum := 1 }
          ulHarqInfoList := [{ rnti := 1, harqProcessId := 0, receptionStatus := .ok }] } :=
  ⟨by decide +kernel, run_gone (by decide) fun _ => by decide +kernel⟩

/-- The bytes that waited for a UE when it was released make the next trigger fail. -/
theorem not_run_gone_bytesWait :
    ¬ ∀ (c : FlexTtiConfig) (rnti : Nat) (events : List FlexTtiPfEvent), Released rnti events →
      ∀ params, Gone c rnti
        (Run.run (TdmaRun.step (handle c)) { scheduler := start c } events) params := by
  intro hall
  have hgone := hall tenBytes 1 (oneUe ++ [.cschedUeReleaseReq 1]) (by decide) { sfnSf := {} }
  have hcause : (Run.run (TdmaRun.step (handle tenBytes)) { scheduler := start tenBytes }
      (oneUe ++ [.cschedUeReleaseReq 1, .schedTriggerReq { sfnSf := {} }])).failure.map
        (·.cause) = some (.ue 1) := by
    decide +kernel
  obtain ⟨failure, hfailure, hue⟩ := Option.map_eq_some_iff.1 hcause
  exact (hgone.failures (by decide +kernel) failure hfailure).1 hue

end FlexTtiPf

end NtnIab.Mmwave
