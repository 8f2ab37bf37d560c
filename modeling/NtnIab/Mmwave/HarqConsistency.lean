import NtnIab.Mmwave.FeedbackOutcome
import NtnIab.Mmwave.HarqShapes

/-!
# Records and blocks in flight

The records of an active process belong to the block in flight: the DCI has the redundancy version
of the status, and the stored RLC PDUs are those that were sent. This section looks at what the
refresh, the feedback and the retransmissions of a trigger do to the records of one process.

The timer of a process resets its status and leaves its RLC PDUs, to which those of the next block
are then appended. A process is kept from this if feedback for it comes with the trigger in which
its timer expires.
-/

namespace NtnIab.Mmwave

open Fallible

/-! ## The other direction -/

namespace HarqProcesses

/-- The records of the downlink are the same. -/
structure SameDl (h h' : HarqProcesses) : Prop where
  status : h'.dlHarqProcessesStatus = h.dlHarqProcessesStatus
  dcis : h'.dlHarqProcessesDciInfoMap = h.dlHarqProcessesDciInfoMap
  pdus : h'.dlHarqProcessesRlcPduMap = h.dlHarqProcessesRlcPduMap

/-- The records of the uplink are the same. -/
structure SameUl (h h' : HarqProcesses) : Prop where
  status : h'.ulHarqProcessesStatus = h.ulHarqProcessesStatus
  dcis : h'.ulHarqProcessesDciInfoMap = h.ulHarqProcessesDciInfoMap

variable {h h' h'' : HarqProcesses}

theorem SameDl.refl : SameDl h h := ⟨rfl, rfl, rfl⟩

theorem SameDl.trans (hh : SameDl h h') (hh' : SameDl h' h'') : SameDl h h'' :=
  ⟨hh'.status.trans hh.status, hh'.dcis.trans hh.dcis, hh'.pdus.trans hh.pdus⟩

theorem SameUl.refl : SameUl h h := ⟨rfl, rfl⟩

theorem SameUl.trans (hh : SameUl h h') (hh' : SameUl h' h'') : SameUl h h'' :=
  ⟨hh'.status.trans hh.status, hh'.dcis.trans hh.dcis⟩

end HarqProcesses

open HarqProcesses

section
variable {c : PaddedHbfConfig} {s s' : PaddedHbf} {params : SchedTriggerReqParameters}
  {p : Placement}

/-- The uplink pass over the retransmissions keeps the records of the downlink. -/
theorem PaddedHbf.Passes.ul_sameDl (t : Passes c params s s' p) :
    SameDl t.dl.harq t.ul.harq := by
  have hnoted : SameDl t.dl.harq t.ulNoted.1 := by
    refine feedback_invariant (I := fun f => SameDl t.dl.harq f.1) t.ulFeedback_ok SameDl.refl ?_
    intro f info i f' _ hf hok
    rcases NtnIab.Mmwave.ulFeedback_ok hok with ⟨-, rfl | rfl⟩ | ⟨dci, -, -, rfl⟩
    · exact hf
    · exact hf.trans ⟨rfl, rfl, rfl⟩
    · exact hf
  refine RetxLoop.rounds_invariant (I := fun r => SameDl t.dl.harq r.harq) t.ulLoop_ok hnoted ?_
  intro r goesOn r' hr hround
  obtain ⟨k, p, x, info, dci, -, -, -, -, -, hcases⟩ := RetxLoop.round_ok hround
  rcases hcases with ⟨-, -, rfl⟩ | ⟨-, -, ⟨-, placed, hplaced, rfl⟩ | ⟨-, rfl⟩⟩
  · exact hr
  · obtain ⟨_, count, -, -, hharq, -⟩ := Retx.placeUl_ok hplaced
    rw [hharq]
    exact hr.trans ⟨rfl, rfl, rfl⟩
  · exact hr

theorem dlFeedback_sameUl {wbCqiRxed : OrderedMap Nat} {infos : List DlHarqInfo}
    {h : HarqProcesses} {f : Feedback}
    (hok : infos.zipIdx.foldlM (dlFeedback c wbCqiRxed) (h, []) = .ok f) : SameUl h f.1 := by
  refine feedback_invariant (I := fun f => SameUl h f.1) hok SameUl.refl ?_
  intro f info i f' _ hf hstep
  rcases dlFeedback_ok hstep with ⟨-, rfl⟩ | ⟨dci, mcsNew, -, -, rfl⟩
  · exact hf.trans ⟨rfl, rfl⟩
  · exact hf.trans ⟨rfl, rfl⟩

theorem dlLoop_sameUl {infos : List DlHarqInfo} {r r' : Retx DlHarqInfo}
    (hok : dlLoop c infos r = .ok r') : SameUl r.harq r'.harq := by
  refine RetxLoop.rounds_invariant (I := fun r' => SameUl r.harq r'.harq) hok SameUl.refl ?_
  intro r₁ goesOn r₂ hr hround
  obtain ⟨k, p, x, info, dci, -, -, -, -, -, hcases⟩ := RetxLoop.round_ok hround
  rcases hcases with ⟨-, -, rfl⟩ | ⟨-, -, ⟨-, placed, hplaced, rfl⟩ | ⟨-, rfl⟩⟩
  · exact hr
  · obtain ⟨_, count, pdus, -, -, -, hharq, -⟩ := Retx.placeDl_ok hplaced
    rw [hharq]
    exact hr.trans ⟨rfl, rfl⟩
  · exact hr

/-- The downlink pass over the retransmissions keeps the records of the uplink. -/
theorem PaddedHbf.Passes.dl_sameUl (t : Passes c params s s' p) :
    SameUl t.refreshed.harq t.dl.harq :=
  (dlFeedback_sameUl t.dlFeedback_ok).trans (dlLoop_sameUl t.dlLoop_ok)

end

/-! ## Records of a process -/

/-- The records of an active downlink process belong to a block with some RLC PDUs. -/
def DlActive (h : HarqProcesses) (sent : Option (List RlcPduInfo)) (rnti id : Nat) : Prop :=
  ∀ count, processOf h.dlHarqProcessesStatus rnti id = some count → 0 < count → count < 2 ^ 8 ∧
    (∃ dci, processOf h.dlHarqProcessesDciInfoMap rnti id = some dci ∧ dci.rv + 1 = count) ∧
    ∃ pdus, processOf h.dlHarqProcessesRlcPduMap rnti id = some pdus ∧ sent = some pdus

/-- A free downlink process has no RLC PDUs. -/
def DlEmpty (h : HarqProcesses) (rnti id : Nat) : Prop :=
  processOf h.dlHarqProcessesStatus rnti id = some 0 →
    processOf h.dlHarqProcessesRlcPduMap rnti id = some []

/-- The records of an active uplink process belong to a block, which was sent at most four
times. -/
def UlActive (h : HarqProcesses) (rnti id : Nat) : Prop :=
  ∀ count, processOf h.ulHarqProcessesStatus rnti id = some count → 0 < count → count ≤ 4 ∧
    ∃ dci, processOf h.ulHarqProcessesDciInfoMap rnti id = some dci ∧ dci.rv + 1 = count

section
variable {h h' : HarqProcesses} {sent : Option (List RlcPduInfo)} {rnti id : Nat}

theorem DlActive.of_same (hh : DlActive h sent rnti id) (hsame : SameDl h h') :
    DlActive h' sent rnti id := by
  unfold DlActive
  rw [hsame.status, hsame.dcis, hsame.pdus]
  exact hh

theorem DlEmpty.of_same (hh : DlEmpty h rnti id) (hsame : SameDl h h') : DlEmpty h' rnti id := by
  unfold DlEmpty
  rw [hsame.status, hsame.pdus]
  exact hh

theorem UlActive.of_same (hh : UlActive h rnti id) (hsame : SameUl h h') : UlActive h' rnti id := by
  unfold UlActive
  rw [hsame.status, hsame.dcis]
  exact hh

/-- What is recorded at a process is the same, or the process is free. -/
theorem DlActive.of_eq (hh : DlActive h sent rnti id)
    (hstatus : processOf h'.dlHarqProcessesStatus rnti id =
        processOf h.dlHarqProcessesStatus rnti id ∨
      processOf h'.dlHarqProcessesStatus rnti id =
        (processOf h.dlHarqProcessesStatus rnti id).map fun _ => 0)
    (hdcis : processOf h'.dlHarqProcessesDciInfoMap rnti id =
      processOf h.dlHarqProcessesDciInfoMap rnti id)
    (hpdus : processOf h'.dlHarqProcessesRlcPduMap rnti id =
        processOf h.dlHarqProcessesRlcPduMap rnti id ∨
      processOf h'.dlHarqProcessesStatus rnti id =
        (processOf h.dlHarqProcessesStatus rnti id).map fun _ => 0) :
    DlActive h' sent rnti id := by
  intro count hcount hpos
  have hnot : processOf h'.dlHarqProcessesStatus rnti id ≠
      (processOf h.dlHarqProcessesStatus rnti id).map fun _ => 0 := by
    intro hreset
    rw [hcount] at hreset
    obtain ⟨_, -, hzero⟩ := Option.map_eq_some_iff.1 hreset.symm
    omega
  rw [hstatus.resolve_right hnot] at hcount
  rw [hdcis, hpdus.resolve_right hnot]
  exact hh count hcount hpos

theorem UlActive.of_eq (hh : UlActive h rnti id)
    (hstatus : processOf h'.ulHarqProcessesStatus rnti id =
        processOf h.ulHarqProcessesStatus rnti id ∨
      processOf h'.ulHarqProcessesStatus rnti id =
        (processOf h.ulHarqProcessesStatus rnti id).map fun _ => 0)
    (hdcis : processOf h'.ulHarqProcessesDciInfoMap rnti id =
      processOf h.ulHarqProcessesDciInfoMap rnti id) : UlActive h' rnti id := by
  intro count hcount hpos
  rcases hstatus with hsame | hreset
  · rw [hdcis]
    exact hh count (hsame ▸ hcount) hpos
  · rw [hcount] at hreset
    obtain ⟨_, -, hzero⟩ := Option.map_eq_some_iff.1 hreset.symm
    omega

end

/-! ## What a trigger needs -/

/-- The counters of a downlink process do not overflow, whatever of its NACKs are followed. -/
def DlCountFits (wbCqiRxed : OrderedMap Nat) (h : HarqProcesses) (rnti id : Nat)
    (infos : List DlHarqInfo) : Prop :=
  ∀ first ∈ (infos.filter (DlHarqInfo.isFor rnti id)).head?,
    (∃ dci, LiveDlNack wbCqiRxed h first dci) →
      ∀ count ∈ processOf h.dlHarqProcessesStatus rnti id,
        count + (infos.filter (DlHarqInfo.isFor rnti id)).length < 2 ^ 8

instance DlCountFits.decidable {wbCqiRxed : OrderedMap Nat} {h : HarqProcesses} {rnti id : Nat}
    {infos : List DlHarqInfo} : Decidable (DlCountFits wbCqiRxed h rnti id infos) :=
  inferInstanceAs (Decidable (∀ first ∈ (infos.filter (DlHarqInfo.isFor rnti id)).head?, _ → _))

/-- Blocks are answered in time and without contradiction: if the timer of a downlink process is
at the timeout, then it has no RLC PDUs or is answered now; and if the first answer for a process
is a NACK that is followed, then all of them are NACKs, no more than its counters can count. -/
structure Answered (c : PaddedHbfConfig) (s refreshed : PaddedHbf) (dl : List DlHarqInfo)
    (ul : List UlHarqInfo) : Prop where
  expired : ∀ entry ∈ s.harq.dlHarqProcessesTimer, ∀ id < entry.2.length,
    entry.2[id]? = some c.phyMac.harqTimeout →
      processOf s.harq.dlHarqProcessesRlcPduMap entry.1 id = some [] ∨
        ∃ info ∈ dl, info.isFor entry.1 id
  dlAgree : ∀ info ∈ dl,
    DlAnswersAgree refreshed.wbCqiRxed refreshed.harq info.rnti info.harqProcessId dl
  dlFits : ∀ info ∈ dl,
    DlCountFits refreshed.wbCqiRxed refreshed.harq info.rnti info.harqProcessId dl
  ulAgree : ∀ info ∈ ul, UlAnswersAgree refreshed.harq info.rnti info.harqProcessId ul

namespace Answered

variable {c : PaddedHbfConfig} {s refreshed : PaddedHbf} {dl : List DlHarqInfo}
  {ul : List UlHarqInfo} {rnti id : Nat}

instance decidable : Decidable (Answered c s refreshed dl ul) :=
  decidable_of_iff ((∀ entry ∈ s.harq.dlHarqProcessesTimer, ∀ id < entry.2.length,
      entry.2[id]? = some c.phyMac.harqTimeout →
        processOf s.harq.dlHarqProcessesRlcPduMap entry.1 id = some [] ∨
          ∃ info ∈ dl, info.isFor entry.1 id) ∧
    (∀ info ∈ dl,
      DlAnswersAgree refreshed.wbCqiRxed refreshed.harq info.rnti info.harqProcessId dl) ∧
    (∀ info ∈ dl, DlCountFits refreshed.wbCqiRxed refreshed.harq info.rnti info.harqProcessId dl) ∧
    ∀ info ∈ ul, UlAnswersAgree refreshed.harq info.rnti info.harqProcessId ul)
    ⟨fun h => ⟨h.1, h.2.1, h.2.2.1, h.2.2.2⟩,
      fun h => ⟨h.expired, h.dlAgree, h.dlFits, h.ulAgree⟩⟩

theorem dlAgree_at (ha : Answered c s refreshed dl ul) (rnti id : Nat) :
    DlAnswersAgree refreshed.wbCqiRxed refreshed.harq rnti id dl := by
  intro first hfirst
  obtain ⟨hmem, hfor⟩ := List.mem_filter.1 (List.mem_of_mem_head? hfirst)
  obtain ⟨rfl, rfl⟩ := DlHarqInfo.isFor_iff.1 hfor
  exact ha.dlAgree first hmem first hfirst

theorem dlFits_at (ha : Answered c s refreshed dl ul) (rnti id : Nat) :
    DlCountFits refreshed.wbCqiRxed refreshed.harq rnti id dl := by
  intro first hfirst
  obtain ⟨hmem, hfor⟩ := List.mem_filter.1 (List.mem_of_mem_head? hfirst)
  obtain ⟨rfl, rfl⟩ := DlHarqInfo.isFor_iff.1 hfor
  exact ha.dlFits first hmem first hfirst

theorem ulAgree_at (ha : Answered c s refreshed dl ul) (rnti id : Nat) :
    UlAnswersAgree refreshed.harq rnti id ul := by
  intro first hfirst
  obtain ⟨hmem, hfor⟩ := List.mem_filter.1 (List.mem_of_mem_head? hfirst)
  obtain ⟨⟨rfl, rfl⟩, -⟩ := UlHarqInfo.settles_iff.1 hfor
  exact ha.ulAgree first hmem first hfirst

theorem expired_at (ha : Answered c s refreshed dl ul)
    (hexpires : Expires c.phyMac s.harq.dlHarqProcessesTimer rnti id) :
    processOf s.harq.dlHarqProcessesRlcPduMap rnti id = some [] ∨
      dl.filter (DlHarqInfo.isFor rnti id) ≠ [] := by
  obtain ⟨entry, hentry, rfl, htimer⟩ := hexpires
  have hlt : id < entry.2.length := (List.getElem?_eq_some_iff.1 htimer).1
  refine (ha.expired entry hentry id hlt htimer).imp_right fun ⟨info, hinfo, hfor⟩ => ?_
  exact List.ne_nil_of_mem (List.mem_filter.2 ⟨hinfo, hfor⟩)

end Answered

/-! ## Downlink retransmissions -/

/-- Processes that are noted are active, and their counters do not overflow. -/
def DlNotedFit (infos : List DlHarqInfo) (h : HarqProcesses) (sorted : List (Nat × Nat)) : Prop :=
  ∀ rnti id, 0 < notes (DlHarqInfo.isFor rnti id) infos sorted →
    ∃ count, processOf h.dlHarqProcessesStatus rnti id = some count ∧ 0 < count ∧
      count + notes (DlHarqInfo.isFor rnti id) infos sorted < 2 ^ 8

section
variable {c : PaddedHbfConfig} {s s' : PaddedHbf} {params : SchedTriggerReqParameters}
  {p : Placement} {sent : Nat → Nat → Option (List RlcPduInfo)}

/-- After the feedback the free processes have no RLC PDUs, and the processes that are noted are
active. -/
theorem PaddedHbf.Passes.dlNoted_active (t : Passes c params s s' p)
    (ha : Answered c s t.refreshed (s.dlHarqInfoList ++ params.dlHarqInfoList)
      (s.ulHarqInfoList ++ params.ulHarqInfoList))
    (hshaped : s.harq.Shaped c.phyMac.numHarqProcess)
    (hactive : ∀ rnti id, DlActive s.harq (sent rnti id) rnti id)
    (hempty : ∀ rnti id, DlEmpty s.harq rnti id) :
    (∀ rnti id, DlActive t.dlNoted.1 (sent rnti id) rnti id ∧ DlEmpty t.dlNoted.1 rnti id) ∧
      DlNotedFit (s.dlHarqInfoList ++ params.dlHarqInfoList) t.dlNoted.1 t.dlNoted.2 := by
  obtain ⟨-, -, hdcis, hpdus, -, htick, -⟩ := PaddedHbf.refresh_ok t.refresh_ok
  have houtcome := fun rnti id => dlFeedback_outcome t.dlFeedback_ok rnti id (ha.dlAgree_at rnti id)
  -- the timers only make processes free
  have hrefreshed : ∀ rnti id, DlActive t.refreshed.harq (sent rnti id) rnti id := by
    intro rnti id
    refine (hactive rnti id).of_eq ?_ (by rw [hdcis]) (Or.inl (by rw [hpdus]))
    exact (tick_ok htick rnti id).imp_right And.left
  have hexists : ∀ rnti id, (processOf t.refreshed.harq.dlHarqProcessesStatus rnti id).isSome →
      (processOf t.refreshed.harq.dlHarqProcessesRlcPduMap rnti id).isSome := by
    intro rnti id hsome
    rw [isSome_processOf] at hsome ⊢
    obtain ⟨n, hn, hid⟩ := hsome
    refine ⟨n, ?_, hid⟩
    rcases hshaped.of_outlines (refresh_outlines t.refresh_ok) rnti with hall | hnone
    · have hstatus : shape _ rnti = _ := congrArg (·.getD 0 none) hall
      have hpdu : shape _ rnti = _ := congrArg (·.getD 3 none) hall
      exact hpdu.trans (hstatus.symm.trans hn)
    · have hstatus : shape _ rnti = _ := congrArg (·.getD 0 none) hnone
      cases hstatus.symm.trans hn
  refine ⟨fun rnti id => ⟨?_, ?_⟩, fun rnti id hpos => ?_⟩
  · cases houtcome rnti id with
    | waits _ hstatus hpdus hdcis _ =>
        exact (hrefreshed rnti id).of_eq (Or.inl hstatus) hdcis (Or.inl hpdus)
    | noted first live dci _ hlive hstatus hpdus hdcis hrv _ =>
        intro count hcount hpos
        rw [hstatus] at hcount
        obtain ⟨hbyte, ⟨dci', hdci', hrv'⟩, hpdus'⟩ := hrefreshed rnti id count hcount hpos
        obtain ⟨hrnti, hid⟩ := DlHarqInfo.isFor_iff.1
          (List.mem_filter.1 (List.mem_of_mem_head? ‹_›)).2
        have hstored := hlive.2.2.stored
        rw [hrnti, hid, hdci'] at hstored
        rw [hpdus]
        refine ⟨hbyte, ⟨dci, hdcis, ?_⟩, hpdus'⟩
        rw [hrv, ← Option.some.inj hstored, hrv']
    | reset _ hstatus _ hdcis _ =>
        exact (hrefreshed rnti id).of_eq (Or.inr hstatus) hdcis (Or.inr hstatus)
  · intro hzero
    cases houtcome rnti id with
    | waits hanswers hstatus hpdus' hdcis _ =>
        rw [hstatus] at hzero
        rw [hpdus', hpdus]
        rcases tick_ok htick rnti id with hsame | ⟨-, hexpires⟩
        · exact hempty rnti id (hsame ▸ hzero)
        · exact (ha.expired_at hexpires).resolve_right (not_not.2 hanswers)
    | noted first live dci _ hlive hstatus _ _ _ _ =>
        obtain ⟨hrnti, hid⟩ := DlHarqInfo.isFor_iff.1
          (List.mem_filter.1 (List.mem_of_mem_head? ‹_›)).2
        have hsent := hlive.2.2.sent
        rw [hrnti, hid, ← hstatus, hzero] at hsent
        cases hsent
    | reset _ hstatus hpdus' _ _ =>
        rw [hstatus] at hzero
        obtain ⟨count, hcount, -⟩ := Option.map_eq_some_iff.1 hzero
        obtain ⟨pdus, hpdus⟩ := Option.isSome_iff_exists.1
          (hexists rnti id (Option.isSome_iff_exists.2 ⟨count, hcount⟩))
        rw [hpdus', hpdus]
        rfl
  · cases houtcome rnti id with
    | waits _ _ _ _ hnotes => exact absurd hnotes (Nat.ne_of_gt hpos)
    | noted first live dci hanswers hlive hstatus _ _ _ hnotes =>
        obtain ⟨hrnti, hid⟩ := DlHarqInfo.isFor_iff.1
          (List.mem_filter.1 (List.mem_of_mem_head? hanswers)).2
        have hsent := hlive.2.2.sent
        rw [hrnti, hid] at hsent
        have hfits := ha.dlFits_at rnti id first hanswers ⟨live, hlive⟩ _ hsent
        exact ⟨live.rv + 1, hstatus.trans hsent, Nat.succ_pos _, by omega⟩
    | reset _ _ _ _ hnotes => exact absurd hnotes (Nat.ne_of_gt hpos)

/-- A round of the downlink loop keeps the records of the active processes. -/
theorem dlRound_active {infos : List DlHarqInfo} {r r' : Retx DlHarqInfo} {goesOn : Bool}
    (hok : (dlRetx c).round infos r = .ok (goesOn, r'))
    (hr : (∀ rnti id, DlActive r.harq (sent rnti id) rnti id ∧ DlEmpty r.harq rnti id) ∧
      DlNotedFit infos r.harq r.sortedHarqRetx) :
    (∀ rnti id, DlActive r'.harq (sent rnti id) rnti id ∧ DlEmpty r'.harq rnti id) ∧
      DlNotedFit infos r'.harq r'.sortedHarqRetx := by
  obtain ⟨k, p, x, info, dci, -, -, hx, hinfo, hdci, hcases⟩ := RetxLoop.round_ok hok
  obtain ⟨hrecords, hfit⟩ := hr
  -- what is left in the list is still noted
  have hleft : ∀ rnti id,
      0 < notes (DlHarqInfo.isFor rnti id) infos (r.sortedHarqRetx.eraseIdx k) →
      ∃ count, processOf r.harq.dlHarqProcessesStatus rnti id = some count ∧ 0 < count ∧
        count + notes (DlHarqInfo.isFor rnti id) infos (r.sortedHarqRetx.eraseIdx k) +
          (if info.isFor rnti id then 1 else 0) < 2 ^ 8 := by
    intro rnti id hpos
    have heq := notes_eraseIdx (DlHarqInfo.isFor rnti id) hx hinfo
    obtain ⟨count, hcount, hpos', hlt⟩ := hfit rnti id (by omega)
    exact ⟨count, hcount, hpos', by omega⟩
  rcases hcases with ⟨-, -, rfl⟩ | ⟨-, -, ⟨-, placed, hplaced, rfl⟩ | ⟨-, rfl⟩⟩
  · exact ⟨hrecords, hfit⟩
  · obtain ⟨p', count, pdus, -, hcount, -, hharq, -, hsorted, -⟩ := Retx.placeDl_ok hplaced
    change processOf r.harq.dlHarqProcessesStatus info.rnti info.harqProcessId = some count
      at hcount
    change processOf r.harq.dlHarqProcessesDciInfoMap info.rnti info.harqProcessId = some dci
      at hdci
    change placed.harq = r.harq.sendDlAgain info.rnti info.harqProcessId count _ at hharq
    change placed.sortedHarqRetx = r.sortedHarqRetx at hsorted
    -- the process is active, since it is noted
    have hnoted := notes_eraseIdx (DlHarqInfo.isFor info.rnti info.harqProcessId) hx hinfo
    rw [if_pos (DlHarqInfo.isFor_iff.2 ⟨rfl, rfl⟩)] at hnoted
    obtain ⟨count', hcount', hpos, hlt⟩ := hfit info.rnti info.harqProcessId (by omega)
    obtain rfl : count = count' := Option.some.inj (hcount.symm.trans hcount')
    obtain ⟨-, ⟨dci', hdci', hrv⟩, pdus', hpdus', hsent⟩ :=
      (hrecords info.rnti info.harqProcessId).1 count hcount hpos
    obtain rfl : dci = dci' := Option.some.inj (hdci.symm.trans hdci')
    have hmod : (count + 1) % 2 ^ 8 = count + 1 := Nat.mod_eq_of_lt (by omega)
    have hstatus : ∀ rnti id, processOf placed.harq.dlHarqProcessesStatus rnti id =
        if rnti = info.rnti ∧ id = info.harqProcessId then some (count + 1)
        else processOf r.harq.dlHarqProcessesStatus rnti id := by
      intro rnti id
      rw [hharq]
      unfold HarqProcesses.sendDlAgain
      simp only [processOf_setProcess]
      split
      · rename_i heq
        obtain ⟨rfl, rfl⟩ := heq
        rw [hcount, Option.map_some, hmod]
      · rfl
    refine ⟨fun rnti id => ?_, ?_⟩
    · show DlActive placed.harq _ rnti id ∧ DlEmpty placed.harq rnti id
      by_cases heq : rnti = info.rnti ∧ id = info.harqProcessId
      · obtain ⟨rfl, rfl⟩ := heq
        have hthis := hstatus info.rnti info.harqProcessId
        rw [if_pos ⟨rfl, rfl⟩] at hthis
        refine ⟨fun count₁ hcount₁ _ => ?_, fun hzero => ?_⟩
        · rw [hthis] at hcount₁
          obtain rfl := Option.some.inj hcount₁
          refine ⟨by omega, ⟨dci.again p'.layerIdx p'.nextSymAvail, ?_, ?_⟩, pdus', ?_, hsent⟩
          · rw [hharq]
            unfold HarqProcesses.sendDlAgain
            simp [processOf_setProcess, hdci]
          · show (dci.rv + 1) % 2 ^ 8 + 1 = count + 1
            rw [Nat.mod_eq_of_lt (by omega), hrv]
          · rw [hharq]
            exact hpdus'
        · rw [hthis] at hzero
          cases hzero
      · have hthis := hstatus rnti id
        rw [if_neg heq] at hthis
        have hdcis : processOf placed.harq.dlHarqProcessesDciInfoMap rnti id =
            processOf r.harq.dlHarqProcessesDciInfoMap rnti id := by
          rw [hharq]
          unfold HarqProcesses.sendDlAgain
          simp only [processOf_setProcess]
          exact if_neg heq
        have hpdus : placed.harq.dlHarqProcessesRlcPduMap = r.harq.dlHarqProcessesRlcPduMap := by
          rw [hharq]
          rfl
        refine ⟨(hrecords rnti id).1.of_eq (Or.inl hthis) hdcis (Or.inl (by rw [hpdus])), ?_⟩
        intro hzero
        rw [hthis] at hzero
        rw [hpdus]
        exact (hrecords rnti id).2 hzero
    · intro rnti id hpos'
      dsimp only at hpos' ⊢
      rw [hsorted] at hpos' ⊢
      obtain ⟨count₁, hcount₁, hpos₁, hlt₁⟩ := hleft rnti id hpos'
      rw [hstatus]
      by_cases heq : rnti = info.rnti ∧ id = info.harqProcessId
      · obtain ⟨rfl, rfl⟩ := heq
        rw [if_pos (DlHarqInfo.isFor_iff.2 ⟨rfl, rfl⟩)] at hlt₁
        obtain rfl : count = count₁ := Option.some.inj (hcount.symm.trans hcount₁)
        exact ⟨count + 1, if_pos ⟨rfl, rfl⟩, Nat.succ_pos _, by omega⟩
      · exact ⟨count₁, (if_neg heq).trans hcount₁, hpos₁, by omega⟩
  · refine ⟨hrecords, fun rnti id hpos => ?_⟩
    obtain ⟨count, hcount, hpos', hlt⟩ := hleft rnti id hpos
    exact ⟨count, hcount, hpos', Nat.lt_of_le_of_lt (Nat.le_add_right _ _) hlt⟩

end

end NtnIab.Mmwave
