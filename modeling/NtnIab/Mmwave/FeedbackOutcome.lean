import NtnIab.Mmwave.HarqRecords

/-!
# What the feedback does to a process

The feedback of a trigger is looked at in its order. The first element for a process decides: if
it is a NACK for a live block, the block is noted to be sent again, and otherwise the process is
reset. A later acknowledgement resets a process even if its block was noted before.
-/

namespace NtnIab.Mmwave

open Fallible

/-! ## Feedback for a process -/

def DlHarqInfo.isFor (rnti id : Nat) (info : DlHarqInfo) : Bool :=
  info.rnti = rnti ∧ info.harqProcessId = id

/-- Uplink feedback for a process, unless it is not valid. -/
def UlHarqInfo.settles (rnti id : Nat) (info : UlHarqInfo) : Bool :=
  (info.rnti = rnti ∧ info.harqProcessId = id) ∧ info.receptionStatus ≠ .notValid

theorem DlHarqInfo.isFor_iff {rnti id : Nat} {info : DlHarqInfo} :
    info.isFor rnti id = true ↔ info.rnti = rnti ∧ info.harqProcessId = id :=
  decide_eq_true_iff

theorem UlHarqInfo.settles_iff {rnti id : Nat} {info : UlHarqInfo} :
    info.settles rnti id = true ↔
      (info.rnti = rnti ∧ info.harqProcessId = id) ∧ info.receptionStatus ≠ .notValid :=
  decide_eq_true_iff

/-- How often feedback of a kind was noted. -/
def notes {Info : Type} (isFor : Info → Bool) (infos : List Info) (sorted : List (Nat × Nat)) :
    Nat :=
  sorted.countP fun x => (infos[x.2]?).any isFor

section
variable {Info : Type} {isFor : Info → Bool} {infos : List Info} {sorted : List (Nat × Nat)}
  {info : Info}

theorem notes_insertSorted (isFor : Info → Bool) (sorted : List (Nat × Nat)) (n : Nat) {i : Nat}
    (hinfo : infos[i]? = some info) :
    notes isFor infos (insertSorted (n, i) sorted) =
      notes isFor infos sorted + if isFor info then 1 else 0 := by
  unfold notes
  rw [(insertSorted_perm _ _).countP_eq, List.countP_cons, hinfo, Option.any_some]

/-- What is taken out of the list is one note less. -/
theorem notes_eraseIdx (isFor : Info → Bool) {k : Nat} {x : Nat × Nat} (hx : sorted[k]? = some x)
    (hinfo : infos[x.2]? = some info) :
    notes isFor infos sorted =
      notes isFor infos (sorted.eraseIdx k) + if isFor info then 1 else 0 := by
  obtain ⟨hk, rfl⟩ := List.getElem?_eq_some_iff.1 hx
  unfold notes
  rw [← (List.getElem_cons_eraseIdx_perm hk).countP_eq, List.countP_cons, hinfo, Option.any_some]

end

/-! ## Downlink -/

section
variable {c : PaddedHbfConfig} {wbCqiRxed : OrderedMap Nat}

/-- What the feedback `answers` for a process does to it, from the processes `h`. -/
inductive DlOutcome (wbCqiRxed : OrderedMap Nat) (h : HarqProcesses) (rnti id : Nat)
    (infos answers : List DlHarqInfo) (f : Feedback) : Prop
  /-- There is none. -/
  | waits (hanswers : answers = [])
      (hstatus : processOf f.1.dlHarqProcessesStatus rnti id =
        processOf h.dlHarqProcessesStatus rnti id)
      (hpdus : processOf f.1.dlHarqProcessesRlcPduMap rnti id =
        processOf h.dlHarqProcessesRlcPduMap rnti id)
      (hdcis : processOf f.1.dlHarqProcessesDciInfoMap rnti id =
        processOf h.dlHarqProcessesDciInfoMap rnti id)
      (hnotes : notes (DlHarqInfo.isFor rnti id) infos f.2 = 0)
  /-- The block is to be sent again. -/
  | noted (first : DlHarqInfo) (live dci : DciInfoElementTdma)
      (hanswers : answers.head? = some first) (hlive : LiveDlNack wbCqiRxed h first live)
      (hstatus : processOf f.1.dlHarqProcessesStatus rnti id =
        processOf h.dlHarqProcessesStatus rnti id)
      (hpdus : processOf f.1.dlHarqProcessesRlcPduMap rnti id =
        processOf h.dlHarqProcessesRlcPduMap rnti id)
      (hdcis : processOf f.1.dlHarqProcessesDciInfoMap rnti id = some dci)
      (hrv : dci.rv = live.rv)
      (hnotes : notes (DlHarqInfo.isFor rnti id) infos f.2 ≤ answers.length)
  /-- The process is free. -/
  | reset (hanswers : answers ≠ [])
      (hstatus : processOf f.1.dlHarqProcessesStatus rnti id =
        (processOf h.dlHarqProcessesStatus rnti id).map fun _ => 0)
      (hpdus : processOf f.1.dlHarqProcessesRlcPduMap rnti id =
        (processOf h.dlHarqProcessesRlcPduMap rnti id).map fun _ => [])
      (hdcis : processOf f.1.dlHarqProcessesDciInfoMap rnti id =
        processOf h.dlHarqProcessesDciInfoMap rnti id)
      (hnotes : notes (DlHarqInfo.isFor rnti id) infos f.2 = 0)

/-- If the first answer for a process is a NACK for a live block, then all of them are NACKs. -/
def DlAnswersAgree (wbCqiRxed : OrderedMap Nat) (h : HarqProcesses) (rnti id : Nat)
    (infos : List DlHarqInfo) : Prop :=
  ∀ first ∈ (infos.filter (DlHarqInfo.isFor rnti id)).head?,
    (∃ dci, LiveDlNack wbCqiRxed h first dci) →
      ∀ info ∈ infos.filter (DlHarqInfo.isFor rnti id), info.harqStatus = .nack

instance DlAnswersAgree.decidable {h : HarqProcesses} {rnti id : Nat} {infos : List DlHarqInfo} :
    Decidable (DlAnswersAgree wbCqiRxed h rnti id infos) :=
  inferInstanceAs (Decidable (∀ first ∈ (infos.filter (DlHarqInfo.isFor rnti id)).head?, _ → _))

/-- What one more element of the feedback does to a process. -/
theorem DlOutcome.step {h : HarqProcesses} {rnti id : Nat} {infos done rest : List DlHarqInfo}
    {info : DlHarqInfo} {f f' : Feedback} (hinfos : infos = done ++ info :: rest)
    (hagree : DlAnswersAgree wbCqiRxed h rnti id infos)
    (hf : DlOutcome wbCqiRxed h rnti id infos (done.filter (DlHarqInfo.isFor rnti id)) f)
    (hok : dlFeedback c wbCqiRxed f (info, done.length) = .ok f') :
    DlOutcome wbCqiRxed h rnti id infos
      ((done ++ [info]).filter (DlHarqInfo.isFor rnti id)) f' := by
  have hget : infos[done.length]? = some info := by
    rw [hinfos, List.getElem?_append_right (Nat.le_refl _), Nat.sub_self]
    rfl
  rw [List.filter_append]
  by_cases hfor : info.isFor rnti id = true
  swap
  · -- feedback for another process
    have hfilter : [info].filter (DlHarqInfo.isFor rnti id) = [] := by simp [hfor]
    have hother : ¬(rnti = info.rnti ∧ id = info.harqProcessId) := fun heq =>
      hfor (DlHarqInfo.isFor_iff.2 ⟨heq.1.symm, heq.2.symm⟩)
    rw [hfilter, List.append_nil]
    have hsame : processOf f'.1.dlHarqProcessesStatus rnti id =
          processOf f.1.dlHarqProcessesStatus rnti id ∧
        processOf f'.1.dlHarqProcessesRlcPduMap rnti id =
          processOf f.1.dlHarqProcessesRlcPduMap rnti id ∧
        processOf f'.1.dlHarqProcessesDciInfoMap rnti id =
          processOf f.1.dlHarqProcessesDciInfoMap rnti id ∧
        notes (DlHarqInfo.isFor rnti id) infos f'.2 =
          notes (DlHarqInfo.isFor rnti id) infos f.2 := by
      rcases dlFeedback_ok hok with ⟨-, rfl⟩ | ⟨dci, mcsNew, -, -, rfl⟩
      · simp only [HarqProcesses.resetDl, processOf_setProcess, if_neg hother, true_and]
      · simp only [processOf_setProcess, if_neg hother, notes_insertSorted _ _ _ hget, hfor, true_and]
        rfl
    obtain ⟨hs, hp, hd, hn⟩ := hsame
    cases hf with
    | waits hanswers hstatus hpdus hdcis hnotes =>
        exact .waits hanswers (hs.trans hstatus) (hp.trans hpdus) (hd.trans hdcis) (hn.trans hnotes)
    | noted first live dci hanswers hlive hstatus hpdus hdcis hrv hnotes =>
        exact .noted first live dci hanswers hlive (hs.trans hstatus) (hp.trans hpdus)
          (hd.trans hdcis) hrv (hn ▸ hnotes)
    | reset hanswers hstatus hpdus hdcis hnotes =>
        exact .reset hanswers (hs.trans hstatus) (hp.trans hpdus) (hd.trans hdcis)
          (hn.trans hnotes)
  have hfilter : [info].filter (DlHarqInfo.isFor rnti id) = [info] := by simp [hfor]
  rw [hfilter]
  obtain ⟨rfl, rfl⟩ := DlHarqInfo.isFor_iff.1 hfor
  rcases dlFeedback_ok hok with ⟨hdead, rfl⟩ | ⟨dci, mcsNew, hlive, -, rfl⟩
  · -- the process is reset
    have hnonempty : done.filter (DlHarqInfo.isFor info.rnti info.harqProcessId) ++ [info] ≠ [] := by
      simp
    cases hf with
    | waits hanswers hstatus hpdus hdcis hnotes =>
        refine .reset hnonempty ?_ ?_ hdcis hnotes
        · simp [HarqProcesses.resetDl, processOf_setProcess, hstatus]
        · simp [HarqProcesses.resetDl, processOf_setProcess, hpdus]
    | noted first live dci hanswers hlive hstatus hpdus hdcis hrv hnotes =>
        -- then all answers are NACKs, and the block is still live
        have hhead : (infos.filter (DlHarqInfo.isFor info.rnti info.harqProcessId)).head? =
            some first := by
          rw [hinfos, List.filter_append, List.head?_append, hanswers]
          rfl
        have hnack : info.harqStatus = .nack := by
          refine hagree first hhead ⟨live, hlive⟩ info (List.mem_filter.2 ⟨?_, hfor⟩)
          rw [hinfos]
          exact List.mem_append_right _ List.mem_cons_self
        have hfirst : first.rnti = info.rnti ∧ first.harqProcessId = info.harqProcessId :=
          DlHarqInfo.isFor_iff.1 (List.mem_filter.1 (List.mem_of_mem_head? hanswers)).2
        obtain ⟨-, hcqi, hlive⟩ := hlive
        rw [hfirst.1] at hcqi
        rw [hfirst.1, hfirst.2] at hlive
        refine absurd ⟨hnack, hcqi, ?_, hdcis, ?_⟩ (hdead dci)
        · rw [hstatus, hlive.sent, hrv]
        · rw [hrv]
          exact hlive.retxLeft
    | reset hanswers hstatus hpdus hdcis hnotes =>
        refine .reset hnonempty ?_ ?_ hdcis hnotes
        · simp [HarqProcesses.resetDl, processOf_setProcess, hstatus, Function.comp_def]
        · simp [HarqProcesses.resetDl, processOf_setProcess, hpdus, Function.comp_def]
  · -- the block is noted
    have hstored : processOf (setProcess f.1.dlHarqProcessesDciInfoMap info.rnti info.harqProcessId
        (lowerMcs c mcsNew dci)) info.rnti info.harqProcessId = some (lowerMcs c mcsNew dci) := by
      rw [processOf_setProcess, if_pos ⟨rfl, rfl⟩, hlive.2.2.stored]
      rfl
    have hcount := notes_insertSorted (DlHarqInfo.isFor info.rnti info.harqProcessId) f.2
      (lowerMcs c mcsNew dci).numSym hget
    rw [if_pos hfor] at hcount
    cases hf with
    | waits hanswers hstatus hpdus hdcis hnotes =>
        rw [hanswers]
        refine .noted info dci _ rfl ⟨hlive.1, hlive.2.1, ?_, ?_, hlive.2.2.retxLeft⟩ hstatus hpdus
          hstored (lowerMcs_rv mcsNew dci) ?_
        · rw [← hstatus]
          exact hlive.2.2.sent
        · rw [← hdcis]
          exact hlive.2.2.stored
        · show notes _ _ (insertSorted _ _) ≤ 1
          exact Nat.le_of_eq (hcount.trans (congrArg (· + 1) hnotes))
    | noted first live stored hanswers hfirst hstatus hpdus hdcis hrv hnotes =>
        refine .noted first live _ ?_ hfirst hstatus hpdus hstored ?_ ?_
        · rw [List.head?_append, hanswers]
          rfl
        · rw [lowerMcs_rv, ← hrv]
          have hsame := hlive.2.2.stored
          rw [hdcis] at hsame
          rw [Option.some.inj hsame]
        · show notes _ _ (insertSorted _ _) ≤ _
          rw [hcount, List.length_append]
          exact Nat.add_le_add_right hnotes 1
    | reset hanswers hstatus hpdus hdcis hnotes =>
        have hsent := hlive.2.2.sent
        rw [hstatus] at hsent
        obtain ⟨_, -, hzero⟩ := Option.map_eq_some_iff.1 hsent
        cases hzero

/-- What the feedback of a trigger does to a process. -/
theorem dlFeedback_outcome {h : HarqProcesses} {infos : List DlHarqInfo} {f : Feedback}
    (hok : infos.zipIdx.foldlM (dlFeedback c wbCqiRxed) (h, []) = .ok f) (rnti id : Nat)
    (hagree : DlAnswersAgree wbCqiRxed h rnti id infos) :
    DlOutcome wbCqiRxed h rnti id infos (infos.filter (DlHarqInfo.isFor rnti id)) f :=
  feedback_loop (I := fun f done => DlOutcome wbCqiRxed h rnti id infos
    (done.filter (DlHarqInfo.isFor rnti id)) f) hok (.waits rfl rfl rfl rfl rfl)
    fun _ _ _ _ _ hinfos hf hstep => hf.step hinfos hagree hstep

end

/-! ## Uplink -/

/-- Feedback that is no NACK for a live block resets its process, unless it is not valid. -/
theorem ulFeedback_dead {f f' : Feedback} {info : UlHarqInfo × Nat}
    (hok : ulFeedback f info = .ok f') (hdead : ∀ dci, ¬LiveUlNack f.1 info.1 dci)
    (rnti id : Nat) :
    f'.2 = f.2 ∧ f'.1.ulHarqProcessesDciInfoMap = f.1.ulHarqProcessesDciInfoMap ∧
      processOf f'.1.ulHarqProcessesStatus rnti id =
        if info.1.settles rnti id then (processOf f.1.ulHarqProcessesStatus rnti id).map fun _ => 0
        else processOf f.1.ulHarqProcessesStatus rnti id := by
  have hkept : (∀ count, info.1.receptionStatus ≠ .notValid →
      processOf f.1.ulHarqProcessesStatus info.1.rnti info.1.harqProcessId ≠ some count) →
      processOf f.1.ulHarqProcessesStatus rnti id =
        if info.1.settles rnti id then (processOf f.1.ulHarqProcessesStatus rnti id).map fun _ => 0
        else processOf f.1.ulHarqProcessesStatus rnti id := by
    intro hnone
    split
    · rename_i hsettles
      obtain ⟨⟨rfl, rfl⟩, hvalid⟩ := UlHarqInfo.settles_iff.1 hsettles
      cases hcount : processOf f.1.ulHarqProcessesStatus info.1.rnti info.1.harqProcessId with
      | none => rfl
      | some count => exact absurd hcount (hnone count hvalid)
    · rfl
  have hreset : (info.1.receptionStatus = .notValid →
      processOf f.1.ulHarqProcessesStatus info.1.rnti info.1.harqProcessId = some 0) →
      processOf (f.1.resetUl info.1.rnti info.1.harqProcessId).ulHarqProcessesStatus rnti id =
        if info.1.settles rnti id then (processOf f.1.ulHarqProcessesStatus rnti id).map fun _ => 0
        else processOf f.1.ulHarqProcessesStatus rnti id := by
    intro hzero
    unfold HarqProcesses.resetUl
    simp only [processOf_setProcess]
    by_cases heq : rnti = info.1.rnti ∧ id = info.1.harqProcessId
    · obtain ⟨rfl, rfl⟩ := heq
      by_cases hvalid : info.1.receptionStatus = .notValid
      · have hsettles : ¬(info.1.settles info.1.rnti info.1.harqProcessId = true) := fun h =>
          (UlHarqInfo.settles_iff.1 h).2 hvalid
        rw [if_pos ⟨rfl, rfl⟩, if_neg hsettles, hzero hvalid]
        rfl
      · rw [if_pos ⟨rfl, rfl⟩, if_pos (UlHarqInfo.settles_iff.2 ⟨⟨rfl, rfl⟩, hvalid⟩)]
    · have hsettles : ¬(info.1.settles rnti id = true) := fun h =>
        heq ⟨(UlHarqInfo.settles_iff.1 h).1.1.symm, (UlHarqInfo.settles_iff.1 h).1.2.symm⟩
      rw [if_neg heq, if_neg hsettles]
  unfold ulFeedback at hok
  split at hok
  · rename_i hgood
    have hvalid : info.1.receptionStatus ≠ .notValid := by
      rw [hgood]
      decide
    simp only at hok
    split at hok
    · rename_i hunknown
      obtain rfl := Except.ok.inj hok
      refine ⟨rfl, rfl, hkept fun count _ hcount => ?_⟩
      unfold processOf at hcount
      rw [hunknown] at hcount
      cases hcount
    · simp only [bind_eq_ok] at hok
      obtain ⟨-, -, hok⟩ := hok
      obtain rfl := Except.ok.inj hok
      exact ⟨rfl, rfl, hreset fun h => absurd h hvalid⟩
  · simp only [bind_eq_ok, lookUp_eq_ok, elementAt_eq_ok] at hok
    obtain ⟨status, hstatus, count, hcount, hok⟩ := hok
    have hsent : processOf f.1.ulHarqProcessesStatus info.1.rnti info.1.harqProcessId =
        some count := processOf_eq_some_iff.2 ⟨status, hstatus, hcount⟩
    split at hok
    · rename_i hzero
      obtain rfl := Except.ok.inj hok
      exact ⟨rfl, rfl, hreset fun _ => hzero ▸ hsent⟩
    · rename_i hpos
      split at hok
      · rename_i hnack
        have hvalid : info.1.receptionStatus ≠ .notValid := by
          rw [hnack]
          decide
        simp only [bind_eq_ok, lookUp_eq_ok, elementAt_eq_ok, assert_eq_ok] at hok
        obtain ⟨dcis, hdcis, dci, hdci, -, -, hok⟩ := hok
        split at hok
        · obtain rfl := Except.ok.inj hok
          exact ⟨rfl, rfl, hreset fun h => absurd h hvalid⟩
        · rename_i hrv
          split at hok
          · obtain rfl := Except.ok.inj hok
            exact ⟨rfl, rfl, hreset fun h => absurd h hvalid⟩
          · rename_i hleft
            refine absurd ⟨hnack, ?_, processOf_eq_some_iff.2 ⟨dcis, hdcis, hdci⟩, hleft⟩ (hdead dci)
            rw [hsent]
            exact congrArg some (by omega)
      · rename_i hgood hnack
        obtain rfl := Except.ok.inj hok
        refine ⟨rfl, rfl, hkept fun count hvalid => ?_⟩
        cases hstat : info.1.receptionStatus with
        | ok => exact absurd hstat hgood
        | notOk => exact absurd hstat hnack
        | notValid => exact absurd hstat hvalid

/-- What the feedback `answers` for an uplink process does to it, from the processes `h`. -/
inductive UlOutcome (h : HarqProcesses) (rnti id : Nat) (infos answers : List UlHarqInfo)
    (f : Feedback) : Prop
  /-- There is none. -/
  | waits (hanswers : answers = [])
      (hstatus : processOf f.1.ulHarqProcessesStatus rnti id =
        processOf h.ulHarqProcessesStatus rnti id)
      (hnotes : notes (UlHarqInfo.settles rnti id) infos f.2 = 0)
  /-- The block is to be sent again. -/
  | noted (first : UlHarqInfo) (live : DciInfoElementTdma) (hanswers : answers.head? = some first)
      (hlive : LiveUlNack h first live)
      (hstatus : processOf f.1.ulHarqProcessesStatus rnti id =
        processOf h.ulHarqProcessesStatus rnti id)
  /-- The process is free. -/
  | reset (hanswers : answers ≠ [])
      (hstatus : processOf f.1.ulHarqProcessesStatus rnti id =
        (processOf h.ulHarqProcessesStatus rnti id).map fun _ => 0)
      (hnotes : notes (UlHarqInfo.settles rnti id) infos f.2 = 0)

/-- If the first answer for an uplink process is a NACK for a live block, then all of them are
NACKs. -/
def UlAnswersAgree (h : HarqProcesses) (rnti id : Nat) (infos : List UlHarqInfo) : Prop :=
  ∀ first ∈ (infos.filter (UlHarqInfo.settles rnti id)).head?, (∃ dci, LiveUlNack h first dci) →
    ∀ info ∈ infos.filter (UlHarqInfo.settles rnti id), info.receptionStatus = .notOk

section
variable {h : HarqProcesses}

instance UlAnswersAgree.decidable {rnti id : Nat} {infos : List UlHarqInfo} :
    Decidable (UlAnswersAgree h rnti id infos) :=
  inferInstanceAs (Decidable (∀ first ∈ (infos.filter (UlHarqInfo.settles rnti id)).head?, _ → _))

/-- Feedback changes no DCI of the uplink. -/
theorem ulFeedback_dcis {infos : List UlHarqInfo} {f : Feedback}
    (hok : infos.zipIdx.foldlM ulFeedback (h, []) = .ok f) :
    f.1.ulHarqProcessesDciInfoMap = h.ulHarqProcessesDciInfoMap := by
  refine feedback_invariant (I := fun f =>
    f.1.ulHarqProcessesDciInfoMap = h.ulHarqProcessesDciInfoMap) hok rfl ?_
  intro f info i f' _ hf hstep
  rcases ulFeedback_ok hstep with ⟨-, rfl | rfl⟩ | ⟨dci, -, -, rfl⟩
  · exact hf
  · exact hf
  · exact hf

/-- What one more element of the feedback does to an uplink process. -/
theorem UlOutcome.step {rnti id : Nat} {infos done rest : List UlHarqInfo}
    {info : UlHarqInfo} {f f' : Feedback} (hinfos : infos = done ++ info :: rest)
    (hagree : UlAnswersAgree h rnti id infos)
    (hdcis : f.1.ulHarqProcessesDciInfoMap = h.ulHarqProcessesDciInfoMap)
    (hf : UlOutcome h rnti id infos (done.filter (UlHarqInfo.settles rnti id)) f)
    (hok : ulFeedback f (info, done.length) = .ok f') :
    UlOutcome h rnti id infos ((done ++ [info]).filter (UlHarqInfo.settles rnti id)) f' := by
  have hget : infos[done.length]? = some info := by
    rw [hinfos, List.getElem?_append_right (Nat.le_refl _), Nat.sub_self]
    rfl
  rw [List.filter_append]
  by_cases hdead : ∀ dci, ¬LiveUlNack f.1 info dci
  · obtain ⟨hsorted, -, hstatus'⟩ := ulFeedback_dead hok hdead rnti id
    by_cases hsettles : info.settles rnti id = true
    · -- the process is reset
      have hfilter : [info].filter (UlHarqInfo.settles rnti id) = [info] := by simp [hsettles]
      have hnonempty : done.filter (UlHarqInfo.settles rnti id) ++ [info] ≠ [] := by simp
      rw [hfilter]
      simp only [if_pos hsettles] at hstatus'
      cases hf with
      | waits hanswers hstatus hnotes =>
          exact .reset hnonempty (by rw [hstatus', hstatus]) (by rw [hsorted, hnotes])
      | noted first live hanswers hlive hstatus =>
          -- then all answers are NACKs, and the block is still live
          have hhead : (infos.filter (UlHarqInfo.settles rnti id)).head? = some first := by
            rw [hinfos, List.filter_append, List.head?_append, hanswers]
            rfl
          have hnack : info.receptionStatus = .notOk := by
            refine hagree first hhead ⟨live, hlive⟩ info (List.mem_filter.2 ⟨?_, hsettles⟩)
            rw [hinfos]
            exact List.mem_append_right _ List.mem_cons_self
          obtain ⟨⟨hrnti, hid⟩, -⟩ := UlHarqInfo.settles_iff.1 hsettles
          obtain ⟨⟨hrnti', hid'⟩, -⟩ :=
            UlHarqInfo.settles_iff.1 (List.mem_filter.1 (List.mem_of_mem_head? hanswers)).2
          obtain ⟨-, hlive⟩ := hlive
          rw [hrnti', hid'] at hlive
          refine absurd ⟨hnack, ?_, ?_, hlive.retxLeft⟩ (hdead live)
          · rw [hrnti, hid, hstatus, hlive.sent]
          · rw [hrnti, hid, hdcis]
            exact hlive.stored
      | reset hanswers hstatus hnotes =>
          refine .reset hnonempty ?_ (by rw [hsorted, hnotes])
          rw [hstatus', hstatus, Option.map_map]
          rfl
    · have hfilter : [info].filter (UlHarqInfo.settles rnti id) = [] := by simp [hsettles]
      rw [hfilter, List.append_nil]
      simp only [if_neg hsettles] at hstatus'
      cases hf with
      | waits hanswers hstatus hnotes =>
          exact .waits hanswers (hstatus'.trans hstatus) (by rw [hsorted, hnotes])
      | noted first live hanswers hlive hstatus =>
          exact .noted first live hanswers hlive (hstatus'.trans hstatus)
      | reset hanswers hstatus hnotes =>
          exact .reset hanswers (hstatus'.trans hstatus) (by rw [hsorted, hnotes])
  · -- the block is noted
    simp only [not_forall, not_not] at hdead
    obtain ⟨dci, hlive⟩ := hdead
    obtain rfl : f' = (f.1, insertSorted (dci.numSym, done.length) f.2) := by
      rcases ulFeedback_ok hok with ⟨hdead, -⟩ | ⟨dci', hlive', -, hf'⟩
      · exact absurd hlive (hdead dci)
      · have hsame := hlive.2.stored
        rw [hlive'.2.stored] at hsame
        rw [hf', Option.some.inj hsame]
    have hcount := notes_insertSorted (UlHarqInfo.settles rnti id) f.2 dci.numSym hget
    by_cases hsettles : info.settles rnti id = true
    · have hfilter : [info].filter (UlHarqInfo.settles rnti id) = [info] := by simp [hsettles]
      rw [hfilter]
      obtain ⟨⟨rfl, rfl⟩, -⟩ := UlHarqInfo.settles_iff.1 hsettles
      cases hf with
      | waits hanswers hstatus hnotes =>
          rw [hanswers]
          refine .noted info dci rfl ⟨hlive.1, ?_, ?_, hlive.2.retxLeft⟩ hstatus
          · rw [← hstatus]
            exact hlive.2.sent
          · rw [← hdcis]
            exact hlive.2.stored
      | noted first live hanswers hfirst hstatus =>
          refine .noted first live ?_ hfirst hstatus
          rw [List.head?_append, hanswers]
          rfl
      | reset hanswers hstatus hnotes =>
          have hsent := hlive.2.sent
          rw [hstatus] at hsent
          obtain ⟨_, -, hzero⟩ := Option.map_eq_some_iff.1 hsent
          cases hzero
    · have hfilter : [info].filter (UlHarqInfo.settles rnti id) = [] := by simp [hsettles]
      rw [hfilter, List.append_nil]
      rw [if_neg hsettles, Nat.add_zero] at hcount
      cases hf with
      | waits hanswers hstatus hnotes => exact .waits hanswers hstatus (hcount.trans hnotes)
      | noted first live hanswers hlive hstatus => exact .noted first live hanswers hlive hstatus
      | reset hanswers hstatus hnotes => exact .reset hanswers hstatus (hcount.trans hnotes)

/-- What the feedback of a trigger does to an uplink process. -/
theorem ulFeedback_outcome {infos : List UlHarqInfo} {f : Feedback}
    (hok : infos.zipIdx.foldlM ulFeedback (h, []) = .ok f) (rnti id : Nat)
    (hagree : UlAnswersAgree h rnti id infos) :
    UlOutcome h rnti id infos (infos.filter (UlHarqInfo.settles rnti id)) f := by
  refine (feedback_loop (I := fun f done =>
    f.1.ulHarqProcessesDciInfoMap = h.ulHarqProcessesDciInfoMap ∧
      UlOutcome h rnti id infos (done.filter (UlHarqInfo.settles rnti id)) f) hok
    ⟨rfl, .waits rfl rfl rfl⟩ ?_).2
  intro f done info rest f' hinfos ⟨hdcis, hf⟩ hstep
  refine ⟨?_, hf.step hinfos hagree hdcis hstep⟩
  rcases ulFeedback_ok hstep with ⟨-, rfl | rfl⟩ | ⟨dci, -, -, rfl⟩
  · exact hdcis
  · exact hdcis
  · exact hdcis

end

end NtnIab.Mmwave
