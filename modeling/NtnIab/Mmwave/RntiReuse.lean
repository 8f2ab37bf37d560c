import NtnIab.Library.Fallible
import NtnIab.Mmwave.SoundAllocation

/-!
# An RNTI that is used again

A release takes the processes of a UE, its buffer report and its RLC requests away. Everything
else that was heard of the UE stays: its CQIs with their timers, its feedback that waits, the
uplink allocations whose CQI has not come, and its IAB flag. Its turn stays as well: the source
looks at `m_nextRntiDl` and `m_nextRntiUl`, which nothing reads, and not at `m_nextRnti`. The
handlers then take what is left for what they know of the next UE, as they only add an entry that
is not there.

If nothing is left, the next UE starts afresh: what the scheduler does does not depend on what its
predecessor did. A wideband CQI may be left if the new UE reports its own before a trigger, and
an IAB flag if the new UE is configured with one.

## Strategy

Two runs are compared that differ in what they recorded for one UE before it was released.

* After the release they agree in all but the wideband CQIs and the IAB flags, which are known
  through what is found for each UE (`kept` and `flag`). A request that is not a trigger keeps that.
* At the first trigger the CQIs agree too, and so do the flags, up to a flag that is not set and
  one that is not there (`Alike`). A trigger does not tell these apart.
-/

namespace NtnIab.Mmwave

open Fallible

variable {c : PaddedHbfConfig}

namespace PaddedHbf

/-! ## What is recorded for a UE -/

/-- The states differ at most in what is recorded for one UE. -/
structure DifferOnlyIn (rnti : Nat) (s t : PaddedHbf) : Prop where
  rlcBufferReq : s.rlcBufferReq.filter (·.rnti ≠ rnti) = t.rlcBufferReq.filter (·.rnti ≠ rnti)
  wbCqiRxed : s.wbCqiRxed.erase rnti = t.wbCqiRxed.erase rnti
  wbCqiTimers : s.wbCqiTimers.erase rnti = t.wbCqiTimers.erase rnti
  ueUlCqi : s.ueUlCqi.erase rnti = t.ueUlCqi.erase rnti
  ueCqiTimers : s.ueCqiTimers.erase rnti = t.ueCqiTimers.erase rnti
  ceBsrRxed : s.ceBsrRxed.erase rnti = t.ceBsrRxed.erase rnti
  nextRnti : s.nextRnti = t.nextRnti ∨ s.nextRnti = rnti ∨ t.nextRnti = rnti
  tbUid : s.tbUid = t.tbUid
  ulAllocationMap : s.ulAllocationMap.filter (rnti ∉ ·.2.rntiPerChunk) =
    t.ulAllocationMap.filter (rnti ∉ ·.2.rntiPerChunk)
  harq : s.harq.releaseUe rnti = t.harq.releaseUe rnti
  dlHarqInfoList : s.dlHarqInfoList.filter (·.rnti ≠ rnti) =
    t.dlHarqInfoList.filter (·.rnti ≠ rnti)
  ulHarqInfoList : s.ulHarqInfoList.filter (·.rnti ≠ rnti) =
    t.ulHarqInfoList.filter (·.rnti ≠ rnti)
  mcsDefaultDl : s.mcsDefaultDl = t.mcsDefaultDl
  mcsDefaultUl : s.mcsDefaultUl = t.mcsDefaultUl
  rntiIabInfoMap : s.rntiIabInfoMap.erase rnti = t.rntiIabInfoMap.erase rnti

end PaddedHbf

namespace SchedulerEvent

def IsTrigger : SchedulerEvent → Prop
  | .schedTriggerReq _ => True
  | _ => False

instance IsTrigger.decidable : DecidablePred IsTrigger
  | .schedTriggerReq _ => .isTrue trivial
  | .cschedUeConfigReq _ _ _ | .cschedUeReleaseReq _ | .cschedLcReleaseReq _ _
  | .schedDlRlcBufferReq _ | .schedDlCqiInfoReq _ | .schedUlCqiInfoReq _ _
  | .schedUlMacCtrlInfoReq _ | .schedSetMcs _ => .isFalse id

/-- The wideband CQI of a UE is reported. -/
def ReportsCqi (rnti : Nat) : SchedulerEvent → Prop
  | .schedDlCqiInfoReq reports => rnti ∈ reports.map (·.1)
  | _ => False

instance ReportsCqi.decidable (rnti : Nat) : DecidablePred (ReportsCqi rnti)
  | .schedDlCqiInfoReq reports => inferInstanceAs (Decidable (rnti ∈ reports.map (·.1)))
  | .cschedUeConfigReq _ _ _ | .cschedUeReleaseReq _ | .cschedLcReleaseReq _ _
  | .schedDlRlcBufferReq _ | .schedUlCqiInfoReq _ _ | .schedUlMacCtrlInfoReq _ | .schedSetMcs _
  | .schedTriggerReq _ => .isFalse id

/-- A UE is configured with its IAB flag. -/
def SetsFlag (rnti : Nat) : SchedulerEvent → Prop
  | .cschedUeConfigReq other reconfigureFlag _ => other = rnti ∧ reconfigureFlag = true
  | _ => False

instance SetsFlag.decidable (rnti : Nat) : DecidablePred (SetsFlag rnti)
  | .cschedUeConfigReq other reconfigureFlag _ =>
      inferInstanceAs (Decidable (other = rnti ∧ reconfigureFlag = true))
  | .cschedUeReleaseReq _ | .cschedLcReleaseReq _ _ | .schedDlRlcBufferReq _
  | .schedDlCqiInfoReq _ | .schedUlCqiInfoReq _ _ | .schedUlMacCtrlInfoReq _ | .schedSetMcs _
  | .schedTriggerReq _ => .isFalse id

/-- The requests before the first trigger. -/
def beforeTrigger (events : List SchedulerEvent) : List SchedulerEvent :=
  events.takeWhile fun event => ¬event.IsTrigger

end SchedulerEvent

open SchedulerEvent

namespace PaddedHbf

/-- Of what is recorded for a UE, a release of it that is followed by the requests `later` leaves
nothing that anything reads. -/
structure NothingLeft (rnti : Nat) (later : List SchedulerEvent) (s : PaddedHbf) : Prop where
  wbCqi : s.wbCqiRxed.find rnti = none ∨ ∃ event ∈ beforeTrigger later, event.ReportsCqi rnti
  ulCqi : s.ueUlCqi.find rnti = none
  ulAllocation : ∀ entry ∈ s.ulAllocationMap, rnti ∉ entry.2.rntiPerChunk
  dlHarqInfo : ∀ info ∈ s.dlHarqInfoList, info.rnti ≠ rnti
  ulHarqInfo : ∀ info ∈ s.ulHarqInfoList, info.rnti ≠ rnti
  turn : s.nextRnti ≠ rnti
  iabFlag : (s.rntiIabInfoMap.find rnti).getD false = false ∨
    ∃ event ∈ beforeTrigger later, event.SetsFlag rnti

end PaddedHbf

/-- The run has no fault, and ends in the state `s`. -/
def Reaches (c : PaddedHbfConfig) (events : List SchedulerEvent) (s : PaddedHbf) : Prop :=
  (Run.run (SchedulerRun.step c) {} events).fault = none ∧
    (Run.run (SchedulerRun.step c) {} events).scheduler = s

/-- The slots for a UE in every allocation of a run that goes on from the state `s`. -/
def slotsFor (c : PaddedHbfConfig) (rnti : Nat) (s : PaddedHbf) (events : List SchedulerEvent) :
    List (SfnSf × List SlotAllocInfo) :=
  (Run.run (SchedulerRun.step c) { scheduler := s } events).emitted.map fun ind =>
    (ind.sfnSf, ind.slotAllocInfo.filter (·.dci.rnti = rnti))

/-- A release of a UE, and a new UE with its RNTI later. -/
def reuse (rnti : Nat) (between : List SchedulerEvent) (reconfigureFlag iab : Bool)
    (after : List SchedulerEvent) : List SchedulerEvent :=
  .cschedUeReleaseReq rnti :: between ++ .cschedUeConfigReq rnti reconfigureFlag iab :: after

namespace PaddedHbf

/-! ## Timers -/

/-- A map of CQIs has a timer for each entry. -/
structure Timed {α : Type} (cqis : OrderedMap α) (timers : OrderedMap Nat) : Prop where
  cqisOrdered : cqis.Ordered
  timersOrdered : timers.Ordered
  same : ∀ rnti, (timers.find rnti).isSome = (cqis.find rnti).isSome

namespace Timed

variable {α : Type} {cqis : OrderedMap α} {timers : OrderedMap Nat} {rnti : Nat}

theorem insertNew (h : Timed cqis timers) {a : α} {timer : Nat} :
    Timed (cqis.insertNew rnti a) (timers.insertNew rnti timer) := by
  refine ⟨OrderedMap.ordered_insertNew h.cqisOrdered, OrderedMap.ordered_insertNew h.timersOrdered,
    fun other => ?_⟩
  rw [OrderedMap.find_insertNew, OrderedMap.find_insertNew]
  split
  · rfl
  · exact h.same other

theorem adjust (h : Timed cqis timers) {f : α → α} {g : Nat → Nat} :
    Timed (cqis.adjust rnti f) (timers.adjust rnti g) := by
  refine ⟨OrderedMap.ordered_adjust h.cqisOrdered, OrderedMap.ordered_adjust h.timersOrdered,
    fun other => ?_⟩
  have hisSome : ∀ {β : Type} {m : OrderedMap β} {f : β → β},
      ((m.adjust rnti f).find other).isSome = (m.find other).isSome := by
    intro β m f
    rw [OrderedMap.find_adjust]
    split <;> simp
  rw [hisSome, hisSome]
  exact h.same other

theorem adjustTimer (h : Timed cqis timers) {g : Nat → Nat} :
    Timed cqis (timers.adjust rnti g) := by
  have hsame : Timed (cqis.adjust rnti id) (timers.adjust rnti g) := h.adjust
  have hid : cqis.adjust rnti id = cqis := by
    refine (List.map_congr_left fun entry _ => ?_).trans (List.map_id cqis)
    simp
  rwa [hid] at hsame

theorem erase (h : Timed cqis timers) : Timed (cqis.erase rnti) (timers.erase rnti) := by
  refine ⟨OrderedMap.ordered_erase h.cqisOrdered, OrderedMap.ordered_erase h.timersOrdered,
    fun other => ?_⟩
  rw [OrderedMap.find_erase, OrderedMap.find_erase]
  split
  · rfl
  · exact h.same other

theorem timer_eq_none (h : Timed cqis timers) (hnone : cqis.find rnti = none) :
    timers.find rnti = none := by
  have hsame := h.same rnti
  rwa [hnone, Option.isSome_none, Option.isSome_eq_false_iff, Option.isNone_iff_eq_none] at hsame

/-- An expiry takes an entry and its timer away together. -/
theorem refresh (h : Timed cqis timers) {maps : OrderedMap α × OrderedMap Nat}
    (hok : timers.foldlM refreshCqi (cqis, timers) = .ok maps) : Timed maps.1 maps.2 := by
  refine foldlM_invariant (I := fun maps _ => Timed maps.1 maps.2) hok h ?_
  intro maps timer rest maps' hmaps hstep
  unfold refreshCqi at hstep
  split at hstep
  · obtain ⟨⟨⟩, -, hstep⟩ := bind_eq_ok.1 hstep
    obtain rfl := pure_eq_ok.1 hstep
    exact hmaps.erase
  · obtain rfl := pure_eq_ok.1 hstep
    show Timed maps.1 (maps.2.adjust timer.1 fun _ => timer.2 - 1)
    exact hmaps.adjustTimer

/-- With a timer for each entry, no timer expires in vain. -/
theorem exists_refresh (h : Timed cqis timers) :
    ∃ maps, timers.foldlM refreshCqi (cqis, timers) = .ok maps := by
  have hyields : Yields (fun _ => False) (fun _ => True)
      (timers.foldlM refreshCqi (cqis, timers)) := by
    refine (yields_foldlM (I := fun (maps : OrderedMap α × OrderedMap Nat) rest =>
      (OrderedMap.keys rest).Nodup ∧ ∀ entry ∈ rest, (maps.1.find entry.1).isSome)
      ⟨h.timersOrdered.nodup, fun entry hentry => ?_⟩ ?_).imp fun _ _ => trivial
    · rw [← h.same, ← OrderedMap.mem_keys_iff]
      exact List.mem_map_of_mem hentry
    · rintro maps timer rest ⟨hnodup, hfound⟩
      obtain ⟨hnew, hrest⟩ := List.nodup_cons.1 hnodup
      have hlater : ∀ entry ∈ rest, (maps.1.find entry.1).isSome :=
        fun entry hentry => hfound entry (List.mem_cons_of_mem _ hentry)
      unfold refreshCqi
      split
      · unfold assert
        rw [if_pos (hfound timer List.mem_cons_self)]
        refine ⟨hrest, fun entry hentry => ?_⟩
        have hother : entry.1 ≠ timer.1 :=
          fun heq => hnew (List.mem_map.2 ⟨entry, hentry, heq⟩)
        rw [OrderedMap.find_erase, if_neg hother]
        exact hlater entry hentry
      · exact ⟨hrest, hlater⟩
  cases hok : timers.foldlM refreshCqi (cqis, timers) with
  | ok maps => exact ⟨maps, rfl⟩
  | error fault => exact (hyields.of_error hok).elim

end Timed

/-- Both maps of CQIs have their timers. -/
structure CqisTimed (s : PaddedHbf) : Prop where
  dl : Timed s.wbCqiRxed s.wbCqiTimers
  ul : Timed s.ueUlCqi s.ueCqiTimers

/-! ## The IAB flags -/

/-- The scheduler takes a UE for an IAB device. -/
def flag (s : PaddedHbf) (rnti : Nat) : Bool := (s.rntiIabInfoMap.find rnti).getD false

/-- The state with other IAB flags. -/
def withFlags (flags : OrderedMap Bool) (s : PaddedHbf) : PaddedHbf :=
  { s with rntiIabInfoMap := flags }

section
variable {s t : PaddedHbf} {flags : OrderedMap Bool} {pass : HarqPass}

theorem collect_withFlags (hflags : (s.withFlags flags).flag = s.flag) :
    Flows.collect c (s.withFlags flags) pass = Flows.collect c s pass := by
  have hflag : ∀ rnti, ((s.withFlags flags).rntiIabInfoMap.find rnti).getD false =
      (s.rntiIabInfoMap.find rnti).getD false := fun rnti => congrFun hflags rnti
  have hdl : Flows.collectDl c (s.withFlags flags) pass = Flows.collectDl c s pass := by
    have hadd : Flows.addDl c (s.withFlags flags) = Flows.addDl c s := by
      funext acc req
      unfold Flows.addDl
      simp only [hflag]
      rfl
    unfold Flows.collectDl
    rw [hadd]
    rfl
  have hul : ∀ entries acc, Flows.addUl c (s.withFlags flags) entries acc =
      Flows.addUl c s entries acc := by
    intro entries
    induction entries with
    | nil => exact fun _ => rfl
    | cons entry rest ih =>
        intro acc
        unfold Flows.addUl
        simp only [ih, hflag]
        rfl
  unfold Flows.collect
  rw [hdl, hul]
  rfl

theorem refresh_withFlags :
    (s.withFlags flags).refresh c = (s.refresh c).map (withFlags flags) := by
  unfold refresh refreshDlCqiMaps refreshUlCqiMaps
  simp only [map_bind, bind_assoc, pure_bind]
  rfl

theorem scheduleNewData_withFlags {sfnSf : SfnSf} (hflags : (s.withFlags flags).flag = s.flag) :
    scheduleNewData c sfnSf (s.withFlags flags) pass =
      (scheduleNewData c sfnSf s pass).map fun result => (result.1.withFlags flags, result.2) := by
  unfold scheduleNewData
  rw [collect_withFlags hflags, map_bind]
  congr 1
  funext flows
  dsimp only
  split
  · rfl
  · simp only [map_bind]
    rfl

/-- A refresh takes CQIs away with their timers, and leaves the flags. -/
theorem refresh_keeps (hok : s.refresh c = .ok t) :
    t.rntiIabInfoMap = s.rntiIabInfoMap ∧ (s.CqisTimed → t.CqisTimed) := by
  unfold refresh refreshDlCqiMaps refreshUlCqiMaps at hok
  simp only [bind_assoc, pure_bind] at hok
  obtain ⟨dlMaps, hdl, hok⟩ := bind_eq_ok.1 hok
  obtain ⟨ulMaps, hul, hok⟩ := bind_eq_ok.1 hok
  obtain ⟨harq, -, hok⟩ := bind_eq_ok.1 hok
  obtain rfl := pure_eq_ok.1 hok
  exact ⟨rfl, fun h => ⟨h.dl.refresh hdl, h.ul.refresh hul⟩⟩

/-- The passes over the UEs leave the CQIs and the flags. -/
theorem scheduleNewData_keeps {sfnSf : SfnSf} {p : Placement}
    (hok : scheduleNewData c sfnSf s pass = .ok (t, p)) :
    t.rntiIabInfoMap = s.rntiIabInfoMap ∧ (s.CqisTimed → t.CqisTimed) := by
  unfold scheduleNewData at hok
  obtain ⟨flows, -, hok⟩ := bind_eq_ok.1 hok
  dsimp only at hok
  split at hok
  · cases pure_eq_ok.1 hok
    exact ⟨rfl, fun h => ⟨h.dl, h.ul⟩⟩
  · obtain ⟨d, -, hok⟩ := bind_eq_ok.1 hok
    obtain ⟨d', -, hok⟩ := bind_eq_ok.1 hok
    cases pure_eq_ok.1 hok
    exact ⟨rfl, fun h => ⟨h.dl, h.ul⟩⟩

variable {params : SchedTriggerReqParameters}

theorem schedTriggerReq_keeps {ind : SchedConfigInd}
    (hok : s.schedTriggerReq c params = .ok (t, ind)) :
    t.rntiIabInfoMap = s.rntiIabInfoMap ∧ (s.CqisTimed → t.CqisTimed) := by
  unfold schedTriggerReq schedule at hok
  split at hok
  · cases hok
  · simp only [bind_assoc] at hok
    obtain ⟨refreshed, hrefresh, hok⟩ := bind_eq_ok.1 hok
    obtain ⟨pass, -, hok⟩ := bind_eq_ok.1 hok
    obtain ⟨⟨s', p⟩, hnew, hok⟩ := bind_eq_ok.1 hok
    cases pure_eq_ok.1 hok
    obtain ⟨hflags, htimed⟩ := refresh_keeps hrefresh
    obtain ⟨hflags', htimed'⟩ := scheduleNewData_keeps hnew
    exact ⟨hflags'.trans hflags, fun h => htimed' (htimed h)⟩

/-- A trigger does the same with other flags that say the same. -/
theorem schedTriggerReq_withFlags (hflags : (s.withFlags flags).flag = s.flag) :
    (s.withFlags flags).schedTriggerReq c params =
      (s.schedTriggerReq c params).map fun result => (result.1.withFlags flags, result.2) := by
  unfold schedTriggerReq schedule
  split
  · rfl
  · rw [refresh_withFlags]
    cases hrefresh : s.refresh c with
    | error fault => rfl
    | ok refreshed =>
        have hretx : (refreshed.withFlags flags).scheduleRetx c params =
            refreshed.scheduleRetx c params := rfl
        have hsame : (refreshed.withFlags flags).flag = refreshed.flag := by
          unfold flag at hflags ⊢
          rw [(refresh_keeps hrefresh).1]
          exact hflags
        simp only [Except.map, ok_bind, hretx, scheduleNewData_withFlags hsame]
        cases refreshed.scheduleRetx c params with
        | error fault => rfl
        | ok pass =>
            rw [ok_bind, ok_bind]
            cases scheduleNewData c params.sfnSf refreshed pass with
            | error fault => rfl
            | ok result => rfl

end

/-! ## Requests -/

/-- The state without the wideband CQIs and the flags. -/
def rest (s : PaddedHbf) : PaddedHbf :=
  { s with wbCqiRxed := [], wbCqiTimers := [], rntiIabInfoMap := [] }

/-- The wideband CQI of a UE, and its timer. -/
def kept (s : PaddedHbf) (rnti : Nat) : Option Nat × Option Nat :=
  (s.wbCqiRxed.find rnti, s.wbCqiTimers.find rnti)

section
variable {s t : PaddedHbf} {event : SchedulerEvent} {rnti : Nat}

theorem CqisTimed.dlCqi (h : s.CqisTimed) {report : Nat × Nat} : (s.dlCqi c report).CqisTimed := by
  unfold PaddedHbf.dlCqi
  split
  · exact ⟨h.dl.insertNew, h.ul⟩
  · refine ⟨?_, h.ul⟩
    dsimp only
    exact h.dl.adjust

theorem CqisTimed.ulCqi (h : s.CqisTimed) {allocation : AllocMapElem} {sinr : List Nat} {i : Nat} :
    (s.ulCqi c allocation sinr i).CqisTimed := by
  unfold PaddedHbf.ulCqi
  dsimp only
  split
  · exact ⟨h.dl, h.ul.insertNew⟩
  · refine ⟨h.dl, ?_⟩
    dsimp only
    exact h.ul.adjust

/-- A CQI that is reported is kept with a new timer. -/
theorem kept_dlCqi (h : s.CqisTimed) {report : Nat × Nat} :
    (s.dlCqi c report).kept rnti =
      if rnti = report.1 then (some report.2, some c.cqiTimersThreshold) else s.kept rnti := by
  unfold PaddedHbf.dlCqi kept
  split
  · rename_i hnone
    simp only [OrderedMap.find_insertNew, hnone, h.dl.timer_eq_none hnone, Option.getD_none]
    split <;> rfl
  · rename_i cqi hsome
    have htimer := h.dl.same report.1
    rw [hsome, Option.isSome_some, Option.isSome_iff_exists] at htimer
    obtain ⟨timer, htimer⟩ := htimer
    simp only [OrderedMap.find_adjust]
    split
    · rename_i heq
      rw [heq, hsome, htimer]
      rfl
    · rfl

/-- What is kept of the CQIs after some reports depends on what was kept before them. -/
theorem kept_dlCqis {reports : List (Nat × Nat)} (hs : s.CqisTimed) (ht : t.CqisTimed)
    (hkept : s.kept rnti = t.kept rnti ∨ rnti ∈ reports.map (·.1)) :
    (reports.foldl (fun s report => s.dlCqi c report) s).kept rnti =
      (reports.foldl (fun s report => s.dlCqi c report) t).kept rnti := by
  induction reports generalizing s t with
  | nil => exact hkept.elim id fun hmem => (List.not_mem_nil hmem).elim
  | cons report rest ih =>
      refine ih hs.dlCqi ht.dlCqi ?_
      rw [kept_dlCqi hs, kept_dlCqi ht]
      by_cases heq : rnti = report.1
      · rw [if_pos heq, if_pos heq]
        exact Or.inl rfl
      · rw [if_neg heq, if_neg heq]
        refine hkept.imp_right fun hmem => ?_
        exact (List.mem_cons.1 hmem).resolve_left heq

theorem rest_dlCqis {reports : List (Nat × Nat)} :
    (reports.foldl (fun s report => s.dlCqi c report) s).rest = s.rest := by
  induction reports generalizing s with
  | nil => rfl
  | cons report others ih =>
      refine ih.trans ?_
      unfold PaddedHbf.dlCqi
      dsimp only
      split <;> rfl

theorem rest_ulCqis {allocation : AllocMapElem} {sinr : List Nat} {chunks : List Nat} :
    (chunks.foldl (PaddedHbf.ulCqi c allocation sinr) s).rest =
      chunks.foldl (PaddedHbf.ulCqi c allocation sinr) s.rest := by
  induction chunks generalizing s with
  | nil => rfl
  | cons i others ih =>
      rw [List.foldl_cons, List.foldl_cons, ih]
      congr 1
      have hfind : s.rest.ueUlCqi = s.ueUlCqi := rfl
      unfold PaddedHbf.ulCqi
      dsimp only
      rw [hfind]
      split <;> rfl

/-- Uplink CQIs leave what is kept beside them. -/
theorem ulCqis_keep (allocation : AllocMapElem) (sinr chunks : List Nat) :
    (chunks.foldl (PaddedHbf.ulCqi c allocation sinr) s).kept = s.kept ∧
      (chunks.foldl (PaddedHbf.ulCqi c allocation sinr) s).flag = s.flag ∧
      (s.CqisTimed → (chunks.foldl (PaddedHbf.ulCqi c allocation sinr) s).CqisTimed) := by
  induction chunks generalizing s with
  | nil => exact ⟨rfl, rfl, id⟩
  | cons i others ih =>
      obtain ⟨hkept, hflag, htimed⟩ := ih (s := s.ulCqi c allocation sinr i)
      refine ⟨hkept.trans ?_, hflag.trans ?_, fun h => htimed h.ulCqi⟩
      · unfold PaddedHbf.ulCqi
        dsimp only
        split <;> rfl
      · unfold PaddedHbf.ulCqi
        dsimp only
        split <;> rfl

theorem schedUlCqiInfoReq_keeps (s : PaddedHbf) (sfnSf : SfnSf) (sinr : List Nat) :
    (s.schedUlCqiInfoReq c sfnSf sinr).kept = s.kept ∧
      (s.schedUlCqiInfoReq c sfnSf sinr).flag = s.flag := by
  unfold PaddedHbf.schedUlCqiInfoReq
  split
  · exact ⟨rfl, rfl⟩
  · exact ⟨(ulCqis_keep _ _ _).1, (ulCqis_keep _ _ _).2.1⟩

theorem schedUlMacCtrlInfoReq_keeps (s : PaddedHbf) (reports : List (Nat × List Nat)) :
    (s.schedUlMacCtrlInfoReq reports).kept = s.kept ∧
      (s.schedUlMacCtrlInfoReq reports).flag = s.flag := by
  unfold PaddedHbf.schedUlMacCtrlInfoReq
  induction reports generalizing s with
  | nil => exact ⟨rfl, rfl⟩
  | cons report others ih => exact ih (s.bsr report)

theorem schedSetMcs_keeps (s : PaddedHbf) (mcs : Int) :
    (s.schedSetMcs mcs).kept = s.kept ∧ (s.schedSetMcs mcs).flag = s.flag := by
  unfold PaddedHbf.schedSetMcs
  split <;> exact ⟨rfl, rfl⟩

theorem CqisTimed.request (h : s.CqisTimed) : (SchedulerRun.request c event s).CqisTimed := by
  cases event with
  | cschedUeConfigReq other reconfigureFlag iab =>
      cases reconfigureFlag with
      | false => exact ⟨h.dl, h.ul⟩
      | true => exact ⟨h.dl, h.ul⟩
  | cschedUeReleaseReq other => exact ⟨h.dl, h.ul⟩
  | cschedLcReleaseReq other lcids => exact ⟨h.dl, h.ul⟩
  | schedDlRlcBufferReq params =>
      show (s.schedDlRlcBufferReq c params).CqisTimed
      unfold PaddedHbf.schedDlRlcBufferReq
      dsimp only
      split
      · exact ⟨h.dl.insertNew, h.ul⟩
      · exact ⟨h.dl, h.ul⟩
  | schedDlCqiInfoReq reports =>
      show (s.schedDlCqiInfoReq c reports).CqisTimed
      unfold PaddedHbf.schedDlCqiInfoReq
      induction reports generalizing s with
      | nil => exact h
      | cons report rest ih => exact ih h.dlCqi
  | schedUlCqiInfoReq sfnSf sinr =>
      show (s.schedUlCqiInfoReq c sfnSf sinr).CqisTimed
      unfold PaddedHbf.schedUlCqiInfoReq
      split
      · exact h
      · rename_i allocation _
        have htimed := (ulCqis_keep (c := c) allocation sinr
          (List.range allocation.rntiPerChunk.length)).2.2 h
        exact ⟨htimed.dl, htimed.ul⟩
  | schedUlMacCtrlInfoReq reports =>
      show (s.schedUlMacCtrlInfoReq reports).CqisTimed
      unfold PaddedHbf.schedUlMacCtrlInfoReq
      induction reports generalizing s with
      | nil => exact h
      | cons report rest ih => exact ih ⟨h.dl, h.ul⟩
  | schedSetMcs mcs =>
      show (s.schedSetMcs mcs).CqisTimed
      unfold PaddedHbf.schedSetMcs
      split
      · exact ⟨h.dl, h.ul⟩
      · exact h
  | schedTriggerReq params => exact h

/-- What a request does beside the CQIs and the flags depends on neither. -/
theorem rest_request : (SchedulerRun.request c event s).rest =
    (SchedulerRun.request c event s.rest).rest := by
  cases event with
  | cschedUeConfigReq other reconfigureFlag iab => cases reconfigureFlag <;> rfl
  | cschedUeReleaseReq other => rfl
  | cschedLcReleaseReq other lcids => rfl
  | schedDlRlcBufferReq params =>
      show (s.schedDlRlcBufferReq c params).rest = (s.rest.schedDlRlcBufferReq c params).rest
      have hreq : s.rest.rlcBufferReq = s.rlcBufferReq := rfl
      unfold PaddedHbf.schedDlRlcBufferReq
      dsimp only
      rw [hreq]
      split <;> rfl
  | schedDlCqiInfoReq reports =>
      show (s.schedDlCqiInfoReq c reports).rest = (s.rest.schedDlCqiInfoReq c reports).rest
      unfold PaddedHbf.schedDlCqiInfoReq
      rw [rest_dlCqis, rest_dlCqis]
      rfl
  | schedUlCqiInfoReq sfnSf sinr =>
      show (s.schedUlCqiInfoReq c sfnSf sinr).rest = (s.rest.schedUlCqiInfoReq c sfnSf sinr).rest
      have hmap : s.rest.ulAllocationMap = s.ulAllocationMap := rfl
      unfold PaddedHbf.schedUlCqiInfoReq
      rw [hmap]
      split
      · rfl
      · rw [← rest_ulCqis]
        rfl
  | schedUlMacCtrlInfoReq reports =>
      show (s.schedUlMacCtrlInfoReq reports).rest = (s.rest.schedUlMacCtrlInfoReq reports).rest
      unfold PaddedHbf.schedUlMacCtrlInfoReq
      induction reports generalizing s with
      | nil => rfl
      | cons report others ih =>
          rw [List.foldl_cons, List.foldl_cons, ih, ih (s := s.rest.bsr report)]
          rfl
  | schedSetMcs mcs =>
      show (s.schedSetMcs mcs).rest = (s.rest.schedSetMcs mcs).rest
      unfold PaddedHbf.schedSetMcs
      split <;> rfl
  | schedTriggerReq params => rfl

/-- What is kept of a UE after a request depends on what was kept before it, and on nothing if
the CQI is reported. -/
theorem kept_request (hs : s.CqisTimed) (ht : t.CqisTimed) (hrest : s.rest = t.rest)
    (hkept : s.kept rnti = t.kept rnti ∨ event.ReportsCqi rnti) :
    (SchedulerRun.request c event s).kept rnti = (SchedulerRun.request c event t).kept rnti := by
  cases event with
  | cschedUeConfigReq other reconfigureFlag iab =>
      cases reconfigureFlag <;> exact hkept.resolve_right id
  | cschedUeReleaseReq other => exact hkept.resolve_right id
  | cschedLcReleaseReq other lcids => exact hkept.resolve_right id
  | schedDlRlcBufferReq params =>
      show (s.schedDlRlcBufferReq c params).kept rnti = (t.schedDlRlcBufferReq c params).kept rnti
      have hreq : s.rlcBufferReq = t.rlcBufferReq := congrArg (fun s => s.rest.rlcBufferReq) hrest
      obtain ⟨hcqi, htimer⟩ : s.wbCqiRxed.find rnti = t.wbCqiRxed.find rnti ∧
          s.wbCqiTimers.find rnti = t.wbCqiTimers.find rnti := Prod.mk.inj (hkept.resolve_right id)
      unfold PaddedHbf.schedDlRlcBufferReq
      dsimp only
      rw [hreq]
      split
      · unfold kept
        simp only [OrderedMap.find_insertNew]
        split
        · rename_i heq
          rw [← heq, hcqi, htimer]
        · rw [hcqi, htimer]
      · exact hkept.resolve_right id
  | schedDlCqiInfoReq reports => exact kept_dlCqis hs ht hkept
  | schedUlCqiInfoReq sfnSf sinr =>
      show (s.schedUlCqiInfoReq c sfnSf sinr).kept rnti = (t.schedUlCqiInfoReq c sfnSf sinr).kept rnti
      rw [(schedUlCqiInfoReq_keeps s sfnSf sinr).1, (schedUlCqiInfoReq_keeps t sfnSf sinr).1]
      exact hkept.resolve_right id
  | schedUlMacCtrlInfoReq reports =>
      show (s.schedUlMacCtrlInfoReq reports).kept rnti = (t.schedUlMacCtrlInfoReq reports).kept rnti
      rw [(schedUlMacCtrlInfoReq_keeps s reports).1, (schedUlMacCtrlInfoReq_keeps t reports).1]
      exact hkept.resolve_right id
  | schedSetMcs mcs =>
      show (s.schedSetMcs mcs).kept rnti = (t.schedSetMcs mcs).kept rnti
      rw [(schedSetMcs_keeps s mcs).1, (schedSetMcs_keeps t mcs).1]
      exact hkept.resolve_right id
  | schedTriggerReq params => exact hkept.resolve_right id

/-- The flag of a UE after a request depends on what it was before, and on nothing if the UE is
configured with one. -/
theorem flag_request (hflag : s.flag rnti = t.flag rnti ∨ event.SetsFlag rnti) :
    (SchedulerRun.request c event s).flag rnti = (SchedulerRun.request c event t).flag rnti := by
  have hcqis : ∀ (reports : List (Nat × Nat)) (s : PaddedHbf),
      (s.schedDlCqiInfoReq c reports).flag = s.flag := by
    intro reports
    unfold PaddedHbf.schedDlCqiInfoReq
    induction reports with
    | nil => exact fun _ => rfl
    | cons report others ih =>
        intro s
        refine (ih (s.dlCqi c report)).trans ?_
        unfold PaddedHbf.dlCqi
        split <;> rfl
  have hbuffer : ∀ (params : SchedDlRlcBufferReqParameters) (s : PaddedHbf),
      (s.schedDlRlcBufferReq c params).flag = s.flag := by
    intro params s
    unfold PaddedHbf.schedDlRlcBufferReq
    dsimp only
    split <;> rfl
  cases event with
  | cschedUeConfigReq other reconfigureFlag iab =>
      cases reconfigureFlag with
      | false => exact hflag.resolve_right fun h => Bool.false_ne_true h.2
      | true =>
          have hset : ∀ s : PaddedHbf, (s.cschedUeConfigReq c other true iab).flag rnti =
              if rnti = other then iab else s.flag rnti := by
            intro s
            have hmap : (s.cschedUeConfigReq c other true iab).rntiIabInfoMap =
                s.rntiIabInfoMap.assign other iab := rfl
            unfold flag
            rw [hmap, OrderedMap.find_assign]
            split <;> rfl
          show (s.cschedUeConfigReq c other true iab).flag rnti =
            (t.cschedUeConfigReq c other true iab).flag rnti
          rw [hset, hset]
          by_cases heq : rnti = other
          · rw [if_pos heq, if_pos heq]
          · rw [if_neg heq, if_neg heq]
            exact hflag.resolve_right fun h => heq h.1.symm
  | cschedUeReleaseReq other => exact hflag.resolve_right id
  | cschedLcReleaseReq other lcids => exact hflag.resolve_right id
  | schedDlRlcBufferReq params =>
      show (s.schedDlRlcBufferReq c params).flag rnti = (t.schedDlRlcBufferReq c params).flag rnti
      rw [hbuffer, hbuffer]
      exact hflag.resolve_right id
  | schedDlCqiInfoReq reports =>
      show (s.schedDlCqiInfoReq c reports).flag rnti = (t.schedDlCqiInfoReq c reports).flag rnti
      rw [hcqis, hcqis]
      exact hflag.resolve_right id
  | schedUlCqiInfoReq sfnSf sinr =>
      show (s.schedUlCqiInfoReq c sfnSf sinr).flag rnti = (t.schedUlCqiInfoReq c sfnSf sinr).flag rnti
      rw [(schedUlCqiInfoReq_keeps s sfnSf sinr).2, (schedUlCqiInfoReq_keeps t sfnSf sinr).2]
      exact hflag.resolve_right id
  | schedUlMacCtrlInfoReq reports =>
      show (s.schedUlMacCtrlInfoReq reports).flag rnti = (t.schedUlMacCtrlInfoReq reports).flag rnti
      rw [(schedUlMacCtrlInfoReq_keeps s reports).2, (schedUlMacCtrlInfoReq_keeps t reports).2]
      exact hflag.resolve_right id
  | schedSetMcs mcs =>
      show (s.schedSetMcs mcs).flag rnti = (t.schedSetMcs mcs).flag rnti
      rw [(schedSetMcs_keeps s mcs).2, (schedSetMcs_keeps t mcs).2]
      exact hflag.resolve_right id
  | schedTriggerReq params => exact hflag.resolve_right id

/-! ## Two runs -/

/-- The states agree, but for what the next requests make agree. -/
structure Settles (events : List SchedulerEvent) (s t : PaddedHbf) : Prop where
  timed : s.CqisTimed
  timed' : t.CqisTimed
  rest : s.rest = t.rest
  kept : ∀ rnti, s.kept rnti = t.kept rnti ∨ ∃ event ∈ events, event.ReportsCqi rnti
  flag : ∀ rnti, s.flag rnti = t.flag rnti ∨ ∃ event ∈ events, event.SetsFlag rnti

theorem Settles.request {events : List SchedulerEvent} (h : Settles (event :: events) s t) :
    Settles events (SchedulerRun.request c event s) (SchedulerRun.request c event t) := by
  have hnext : ∀ {P : SchedulerEvent → Prop} {p : Prop}, (p ∨ ∃ e ∈ event :: events, P e) →
      (p ∨ P event) ∨ ∃ e ∈ events, P e := by
    rintro P p (hp | ⟨e, he, hP⟩)
    · exact Or.inl (Or.inl hp)
    · rcases List.mem_cons.1 he with rfl | he
      · exact Or.inl (Or.inr hP)
      · exact Or.inr ⟨e, he, hP⟩
  refine ⟨h.timed.request, h.timed'.request, ?_, fun rnti => ?_, fun rnti => ?_⟩
  · rw [rest_request, h.rest, ← rest_request]
  · exact (hnext (h.kept rnti)).imp_left (kept_request h.timed h.timed' h.rest)
  · exact (hnext (h.flag rnti)).imp_left flag_request

/-- States that agree are the same up to flags that say the same. -/
theorem Settles.eq (h : Settles [] s t) :
    t = s.withFlags t.rntiIabInfoMap ∧ (s.withFlags t.rntiIabInfoMap).flag = s.flag := by
  have hkept : ∀ rnti, s.kept rnti = t.kept rnti := fun rnti =>
    (h.kept rnti).resolve_right fun ⟨event, hevent, _⟩ => List.not_mem_nil hevent
  have hflag : ∀ rnti, s.flag rnti = t.flag rnti := fun rnti =>
    (h.flag rnti).resolve_right fun ⟨event, hevent, _⟩ => List.not_mem_nil hevent
  have hcqis : s.wbCqiRxed = t.wbCqiRxed :=
    h.timed.dl.cqisOrdered.ext h.timed'.dl.cqisOrdered fun rnti => (Prod.mk.inj (hkept rnti)).1
  have htimers : s.wbCqiTimers = t.wbCqiTimers :=
    h.timed.dl.timersOrdered.ext h.timed'.dl.timersOrdered fun rnti => (Prod.mk.inj (hkept rnti)).2
  refine ⟨?_, funext fun rnti => (hflag rnti).symm⟩
  calc t = { t.rest with
        wbCqiRxed := t.wbCqiRxed
        wbCqiTimers := t.wbCqiTimers
        rntiIabInfoMap := t.rntiIabInfoMap } := rfl
    _ = { s.rest with
        wbCqiRxed := s.wbCqiRxed
        wbCqiTimers := s.wbCqiTimers
        rntiIabInfoMap := t.rntiIabInfoMap } := by rw [h.rest, hcqis, htimers]
    _ = s.withFlags t.rntiIabInfoMap := rfl

end

end PaddedHbf

namespace SchedulerRun

open PaddedHbf

/-- The runs have made the same allocations, and what they do next is the same. -/
structure Agree (r r' : SchedulerRun) : Prop where
  scheduler : Settles [] r.scheduler r'.scheduler
  fault : r.fault = r'.fault
  emitted : r.emitted = r'.emitted

theorem Agree.trigger {r r' : SchedulerRun} {params : SchedTriggerReqParameters}
    (h : Agree r r') : Agree (r.trigger c params) (r'.trigger c params) := by
  obtain ⟨heq, hflags⟩ := h.scheduler.eq
  have hrequest : r'.scheduler.schedTriggerReq c params = (r.scheduler.schedTriggerReq c params).map
      fun result => (result.1.withFlags r'.scheduler.rntiIabInfoMap, result.2) := by
    rw [← schedTriggerReq_withFlags hflags, ← heq]
  unfold SchedulerRun.trigger
  cases hresult : r.scheduler.schedTriggerReq c params with
  | error fault =>
      rw [hrequest, hresult]
      exact ⟨h.scheduler, rfl, h.emitted⟩
  | ok result =>
      have hkeeps := schedTriggerReq_keeps hresult
      rw [hrequest, hresult]
      refine ⟨⟨hkeeps.2 h.scheduler.timed, ?_, rfl, fun _ => Or.inl rfl, fun rnti => Or.inl ?_⟩,
        h.fault, congrArg (result.2 :: ·) h.emitted⟩
      · have htimed := hkeeps.2 h.scheduler.timed
        exact ⟨htimed.dl, htimed.ul⟩
      · have hsame := congrFun hflags rnti
        unfold PaddedHbf.flag at hsame ⊢
        rw [hkeeps.1]
        exact hsame.symm

theorem step_request {r : SchedulerRun} {event : SchedulerEvent} (hfault : r.fault = none)
    (hevent : ¬event.IsTrigger) :
    r.step c event = { r with scheduler := request c event r.scheduler } := by
  unfold SchedulerRun.step
  rw [hfault]
  cases event with
  | schedTriggerReq params => exact absurd trivial hevent
  | _ => rfl

theorem step_trigger {r : SchedulerRun} {params : SchedTriggerReqParameters}
    (hfault : r.fault = none) : r.step c (.schedTriggerReq params) = r.trigger c params := by
  unfold SchedulerRun.step
  rw [hfault]

theorem Agree.step {r r' : SchedulerRun} {event : SchedulerEvent} (h : Agree r r') :
    Agree (r.step c event) (r'.step c event) := by
  cases hfault : r.fault with
  | some fault =>
      have hstays : ∀ {r : SchedulerRun}, r.fault = some fault → r.step c event = r := by
        intro r hr
        unfold SchedulerRun.step
        rw [hr]
      rwa [hstays hfault, hstays (h.fault ▸ hfault)]
  | none =>
      have hfault' : r'.fault = none := h.fault ▸ hfault
      by_cases hevent : event.IsTrigger
      · cases event with
        | schedTriggerReq params =>
            rw [step_trigger hfault, step_trigger hfault']
            exact h.trigger
        | _ => exact hevent.elim
      · rw [step_request hfault hevent, step_request hfault' hevent]
        refine ⟨Settles.request ⟨h.scheduler.timed, h.scheduler.timed', h.scheduler.rest,
          fun rnti => ?_, fun rnti => ?_⟩, h.fault, h.emitted⟩
        · exact (h.scheduler.kept rnti).imp_right fun ⟨_, he, _⟩ => (List.not_mem_nil he).elim
        · exact (h.scheduler.flag rnti).imp_right fun ⟨_, he, _⟩ => (List.not_mem_nil he).elim

/-- Runs agree from the first trigger on if the requests before it settle what is left. -/
theorem agree_run {s t : PaddedHbf} {requests : List SchedulerEvent} (after : List SchedulerEvent)
    (h : Settles requests s t) (hrequests : ∀ event ∈ requests, ¬event.IsTrigger) :
    Agree (Run.run (SchedulerRun.step c) { scheduler := s } (requests ++ after))
      (Run.run (SchedulerRun.step c) { scheduler := t } (requests ++ after)) := by
  induction requests generalizing s t with
  | nil =>
      refine Run.simulates (R := Agree) (fun event _ {r r'} hagree => hagree.step) ?_
      exact ⟨h, rfl, rfl⟩
  | cons event rest ih =>
      have hstep : ∀ s : PaddedHbf, SchedulerRun.step c { scheduler := s } event =
          { scheduler := SchedulerRun.request c event s } := fun s =>
        step_request rfl (hrequests event List.mem_cons_self)
      rw [List.cons_append, Run.run_cons, Run.run_cons, hstep, hstep]
      exact ih h.request fun other hother => hrequests other (List.mem_cons_of_mem _ hother)

/-- The timers of the CQIs fit in every run. -/
theorem cqisTimed_run {events : List SchedulerEvent} :
    (Run.run (SchedulerRun.step c) {} events).scheduler.CqisTimed := by
  refine Run.invariant (I := fun r : SchedulerRun => r.scheduler.CqisTimed) ?_ ?_
  · intro r event hr
    cases hfault : r.fault with
    | some fault =>
        unfold SchedulerRun.step
        rwa [hfault]
    | none =>
        by_cases hevent : event.IsTrigger
        · cases event with
          | schedTriggerReq params =>
              rw [step_trigger hfault]
              unfold SchedulerRun.trigger
              split
              · rename_i hok
                exact (schedTriggerReq_keeps hok).2 hr
              · exact hr
          | _ => exact hevent.elim
        · rw [step_request hfault hevent]
          exact hr.request
  · exact ⟨⟨.nil, .nil, fun _ => rfl⟩, ⟨.nil, .nil, fun _ => rfl⟩⟩

end SchedulerRun

/-! ## The release -/

namespace PaddedHbf

variable {s t : PaddedHbf} {rnti : Nat} {later : List SchedulerEvent}

theorem NothingLeft.ulCqi_erase (h : NothingLeft rnti later s) :
    s.ueUlCqi.erase rnti = s.ueUlCqi :=
  OrderedMap.erase_of_not_mem (OrderedMap.find_eq_none_iff.1 h.ulCqi)

theorem NothingLeft.ulTimer_erase (h : NothingLeft rnti later s) (htimed : s.CqisTimed) :
    s.ueCqiTimers.erase rnti = s.ueCqiTimers :=
  OrderedMap.erase_of_not_mem (OrderedMap.find_eq_none_iff.1 (htimed.ul.timer_eq_none h.ulCqi))

theorem NothingLeft.ulAllocation_filter (h : NothingLeft rnti later s) :
    s.ulAllocationMap.filter (rnti ∉ ·.2.rntiPerChunk) = s.ulAllocationMap :=
  List.filter_eq_self.2 fun entry hentry => decide_eq_true (h.ulAllocation entry hentry)

theorem NothingLeft.dlHarqInfo_filter (h : NothingLeft rnti later s) :
    s.dlHarqInfoList.filter (·.rnti ≠ rnti) = s.dlHarqInfoList :=
  List.filter_eq_self.2 fun info hinfo => decide_eq_true (h.dlHarqInfo info hinfo)

theorem NothingLeft.ulHarqInfo_filter (h : NothingLeft rnti later s) :
    s.ulHarqInfoList.filter (·.rnti ≠ rnti) = s.ulHarqInfoList :=
  List.filter_eq_self.2 fun info hinfo => decide_eq_true (h.ulHarqInfo info hinfo)

/-- After the release of a UE of which nothing is left, what the states do not agree in is settled
by the requests before the next trigger. -/
theorem DifferOnlyIn.settles (h : DifferOnlyIn rnti s t) (hs : s.CqisTimed) (ht : t.CqisTimed)
    (hleft : NothingLeft rnti later s) (hleft' : NothingLeft rnti later t) :
    Settles (beforeTrigger later) (s.cschedUeReleaseReq rnti) (t.cschedUeReleaseReq rnti) := by
  have hfind : ∀ {α : Type} {m m' : OrderedMap α} {other : Nat}, m.erase rnti = m'.erase rnti →
      other ≠ rnti → m.find other = m'.find other := by
    intro α m m' other herase hother
    have hother' := congrArg (OrderedMap.find other) herase
    rwa [OrderedMap.find_erase, OrderedMap.find_erase, if_neg hother, if_neg hother] at hother'
  refine ⟨⟨hs.dl, hs.ul⟩, ⟨ht.dl, ht.ul⟩, ?_, fun other => ?_, fun other => ?_⟩
  · have hulCqi := h.ueUlCqi
    rw [hleft.ulCqi_erase, hleft'.ulCqi_erase] at hulCqi
    have hulTimer := h.ueCqiTimers
    rw [hleft.ulTimer_erase hs, hleft'.ulTimer_erase ht] at hulTimer
    have hallocation := h.ulAllocationMap
    rw [hleft.ulAllocation_filter, hleft'.ulAllocation_filter] at hallocation
    have hdlInfo := h.dlHarqInfoList
    rw [hleft.dlHarqInfo_filter, hleft'.dlHarqInfo_filter] at hdlInfo
    have hulInfo := h.ulHarqInfoList
    rw [hleft.ulHarqInfo_filter, hleft'.ulHarqInfo_filter] at hulInfo
    have hturn : s.nextRnti = t.nextRnti :=
      h.nextRnti.resolve_right fun hor => hor.elim hleft.turn hleft'.turn
    simp only [rest, cschedUeReleaseReq, h.rlcBufferReq, hulCqi, hulTimer, h.ceBsrRxed, hturn,
      h.tbUid, hallocation, h.harq, hdlInfo, hulInfo, h.mcsDefaultDl, h.mcsDefaultUl]
  · by_cases hother : other = rnti
    · -- the CQI of the UE is reported anew, or none of them has one
      rw [hother]
      refine or_iff_not_imp_right.2 fun hnot => ?_
      have hcqi := hleft.wbCqi.resolve_right hnot
      have hcqi' := hleft'.wbCqi.resolve_right hnot
      show (s.wbCqiRxed.find rnti, s.wbCqiTimers.find rnti) =
        (t.wbCqiRxed.find rnti, t.wbCqiTimers.find rnti)
      rw [hcqi, hcqi', hs.dl.timer_eq_none hcqi, ht.dl.timer_eq_none hcqi']
    · exact Or.inl (Prod.ext (hfind h.wbCqiRxed hother) (hfind h.wbCqiTimers hother))
  · by_cases hother : other = rnti
    · rw [hother]
      refine or_iff_not_imp_right.2 fun hnot => ?_
      exact (hleft.iabFlag.resolve_right hnot).trans (hleft'.iabFlag.resolve_right hnot).symm
    · exact Or.inl (congrArg (·.getD false) (hfind h.rntiIabInfoMap hother))

end PaddedHbf

/-- **The reuse of an RNTI.** If a release leaves nothing of a UE, then whatever the UE did before
it, the next one with its RNTI gets the same slots. -/
theorem slotsFor_reuse {rnti : Nat} {before before' between after : List SchedulerEvent}
    {reconfigureFlag iab : Bool} {s t : PaddedHbf} (hs : Reaches c before s)
    (ht : Reaches c before' t) (hdiffer : s.DifferOnlyIn rnti t)
    (hleft : s.NothingLeft rnti (between ++ .cschedUeConfigReq rnti reconfigureFlag iab :: after))
    (hleft' : t.NothingLeft rnti (between ++ .cschedUeConfigReq rnti reconfigureFlag iab :: after)) :
    slotsFor c rnti s (reuse rnti between reconfigureFlag iab after) =
      slotsFor c rnti t (reuse rnti between reconfigureFlag iab after) := by
  have htimed : s.CqisTimed := hs.2 ▸ SchedulerRun.cqisTimed_run
  have htimed' : t.CqisTimed := ht.2 ▸ SchedulerRun.cqisTimed_run
  have hsettles := hdiffer.settles htimed htimed' hleft hleft'
  unfold slotsFor reuse
  rw [List.cons_append]
  generalize between ++ .cschedUeConfigReq rnti reconfigureFlag iab :: after = later at hsettles ⊢
  have hrelease : ∀ s : PaddedHbf, SchedulerRun.step c { scheduler := s } (.cschedUeReleaseReq rnti) =
      { scheduler := s.cschedUeReleaseReq rnti } := fun _ => rfl
  have hagree := SchedulerRun.agree_run (c := c) (later.dropWhile fun event => ¬event.IsTrigger)
    hsettles ?_
  · have hlater : beforeTrigger later ++ later.dropWhile (fun event => ¬event.IsTrigger) = later :=
      List.takeWhile_append_dropWhile
    rw [hlater] at hagree
    rw [Run.run_cons, Run.run_cons, hrelease, hrelease, hagree.emitted]
  · intro event hevent
    exact of_decide_eq_true (List.all_eq_true.1 List.all_takeWhile event hevent)

section
open SchedulerRun

/-- A UE that reported a good CQI, had data and was taken for an IAB device. -/
def busyUe : List SchedulerEvent :=
  [.cschedUeConfigReq 1 true true, .schedDlRlcBufferReq ⟨1, 3, 500, 0, 0⟩,
    .schedDlCqiInfoReq [(1, 15)], .schedUlMacCtrlInfoReq [(1, [30, 0, 0, 0])]]

/-- A UE that was configured, and nothing else. -/
def quietUe : List SchedulerEvent := [.cschedUeConfigReq 1 false false]

/-- The next UE is configured with its flag, reports its CQI and has data. -/
theorem slotsFor_reuse_busyUe :
    slotsFor twoLayers 1 (Run.run (step twoLayers) {} busyUe).scheduler
        (reuse 1 [] true false [.schedDlRlcBufferReq ⟨1, 3, 400, 0, 0⟩,
          .schedDlCqiInfoReq [(1, 7)], .schedTriggerReq { sfnSf := {} }]) =
      slotsFor twoLayers 1 (Run.run (step twoLayers) {} quietUe).scheduler
        (reuse 1 [] true false [.schedDlRlcBufferReq ⟨1, 3, 400, 0, 0⟩,
          .schedDlCqiInfoReq [(1, 7)], .schedTriggerReq { sfnSf := {} }]) := by
  have hbusy : Reaches twoLayers busyUe _ := ⟨by decide, rfl⟩
  have hquiet : Reaches twoLayers quietUe _ := ⟨by decide, rfl⟩
  refine slotsFor_reuse hbusy hquiet ?_ ?_ ?_
  · constructor <;> decide
  · constructor <;> decide
  · constructor <;> decide

/-- With the CQI that its predecessor reported, the next UE gets other slots. -/
theorem not_slotsFor_reuse :
    ¬∀ (c : PaddedHbfConfig) (rnti : Nat) (before before' between after : List SchedulerEvent)
      (reconfigureFlag iab : Bool) (s t : PaddedHbf), Reaches c before s → Reaches c before' t →
      s.DifferOnlyIn rnti t →
        slotsFor c rnti s (reuse rnti between reconfigureFlag iab after) =
          slotsFor c rnti t (reuse rnti between reconfigureFlag iab after) := by
  intro h
  have hslots := h twoLayers 1 (quietUe ++ [.schedDlCqiInfoReq [(1, 15)]]) quietUe []
    [.schedDlRlcBufferReq ⟨1, 3, 400, 0, 0⟩, .schedTriggerReq { sfnSf := {} }] false false _ _
    ⟨by decide, rfl⟩ ⟨by decide, rfl⟩ (by constructor <;> decide)
  exact absurd hslots (by decide +kernel)

end

end NtnIab.Mmwave
