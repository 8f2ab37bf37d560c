import NtnIab.Library.Run
import NtnIab.Mmwave.FlexTtiPfTrigger
import NtnIab.Mmwave.PfDivision

/-!
# The working set of the proportional fair scheduler

When the division of the symbols starts, the working list should have the UEs for which something
waits, each once, with cleared records. It does as long as no trigger before found anything that
waits. The working list is never reset, so every UE that was in it once is in it for good, and at
the end of a trigger the records of those are not reset for which nothing was collected.

## Strategy

`Clean` says that the working list is empty and the records are as new. Every request keeps it, and
a trigger keeps it that finds nothing (`schedTriggerReq_clean`). A collection that begins with a
clean scheduler yields a clean start (`Clean.cleanStart`).
-/

namespace NtnIab.Mmwave

namespace FlexTtiPf

open Fallible

variable (c : FlexTtiConfig)

/-! ## What waits -/

/-- The RLC PDUs for what waits on a downlink flow. -/
def FlowStats.pdus (flow : FlowStats) : List RlcPduInfo :=
  (if 0 < flow.rlcStatusPduSize then
    [⟨flow.lcid, (flow.rlcStatusPduSize + subHdrSize) % 2 ^ 32⟩] else []) ++
  if 0 < flow.totalBufSize then
    [⟨flow.lcid, (flow.totalBufSize + (rlcHdrSize + subHdrSize + 10)) % 2 ^ 32⟩] else []

/-- The RLC PDUs for the downlink of a UE. -/
def dlPdus (s : PaddedHbf) (rnti : Nat) (ue : UeSchedInfo) : List RlcPduInfo :=
  if (s.wbCqiRxed.find rnti).getD 1 = 0 then [] else ue.dl.flowStats.flatMap FlowStats.pdus

/-- The bytes that wait for the downlink of a UE. -/
def dlBytes (s : PaddedHbf) (rnti : Nat) (ue : UeSchedInfo) : Nat :=
  if (s.wbCqiRxed.find rnti).getD 1 = 0 then 0
  else (ue.dl.flowStats.map fun flow => flow.rlcStatusPduSize + flow.totalBufSize).sum % 2 ^ 32

/-- The bytes that wait for the uplink of a UE. -/
def ulBytes (s : PaddedHbf) (rnti : Nat) (ue : UeSchedInfo) : Nat :=
  match Mmwave.Flows.ulCqi c.toPaddedHbfConfig s rnti with
  | .ok cqi => if cqi.1 = 0 then 0 else (ue.ul.flowStats.map (·.totalBufSize)).sum % 2 ^ 32
  | .error _ => 0

/-! ## What is claimed -/

/-- The working list has the UEs for which something waits, each once and with a cleared record
and the RLC PDUs that were collected now. -/
structure CleanStart (s : FlexTtiPf) (collected : Collected) : Prop where
  nodup : collected.ueStatHeap.Nodup
  waiting : ∀ rnti, rnti ∈ collected.ueStatHeap ↔
    ∃ ue, s.ueSchedInfoMap.find rnti = some ue ∧
      (0 < dlBytes s.toPaddedHbf rnti ue ∨ 0 < ulBytes c s.toPaddedHbf rnti ue)
  cleared : ∀ rnti ∈ collected.ueStatHeap, ∃ ue ue',
    s.ueSchedInfoMap.find rnti = some ue ∧ collected.ueSchedInfoMap.find rnti = some ue' ∧
      ue'.Cleared ∧ ue'.rlcPduInfo = dlPdus s.toPaddedHbf rnti ue

/-- The division of a trigger starts: symbols are left after the feedback. -/
structure Starts (params : SchedTriggerReqParameters) (s : FlexTtiPf) (a : Answered)
    (collected : Collected) : Prop where
  answered : s.answer c params = .ok (.inl a)
  left : a.pass.subframe.symAvail ≠ 0
  collected : collect c a.scheduler a.pass.ues = .ok collected

/-- A trigger finds nothing that waits. -/
def FindsNothing (s : FlexTtiPf) (event : FlexTtiPfEvent) : Prop :=
  ∀ params a, event = .schedTriggerReq params → s.answer c params = .ok (.inl a) →
    a.pass.subframe.symAvail ≠ 0 → ∀ rnti ue, a.scheduler.ueSchedInfoMap.find rnti = some ue →
      dlPdus a.scheduler.toPaddedHbf rnti ue = [] ∧ ulBytes c a.scheduler.toPaddedHbf rnti ue = 0

variable {c}

/-- What a trigger does once the division starts. -/
theorem Starts.schedTriggerReq_eq {params : SchedTriggerReqParameters} {s : FlexTtiPf}
    {a : Answered} {collected : Collected} (h : Starts c params s a collected) :
    s.schedTriggerReq c params = scheduleNewData c a collected := by
  unfold schedTriggerReq
  rw [h.answered, ok_bind]
  dsimp only
  rw [if_neg h.left, h.collected, ok_bind]

/-! ## Clean records -/

/-- A record as it is between the triggers. -/
structure UeSchedInfo.Fresh (ue : UeSchedInfo) : Prop where
  cleared : ue.Cleared
  rlcPduInfo : ue.rlcPduInfo = []
  totBufDl : ue.dl.totBuf = 0
  totBufUl : ue.ul.totBuf = 0

theorem fresh_newUe : newUe.Fresh := ⟨⟨⟨rfl, rfl, rfl⟩, rfl, rfl, rfl⟩, rfl, rfl, rfl⟩

/-- The records of a scheduler are fresh, and every RNTI has one. -/
structure AllFresh (ues : OrderedMap UeSchedInfo) : Prop where
  nodup : ues.keys.Nodup
  fresh : ∀ rnti ue, ues.find rnti = some ue → ue.Fresh

namespace AllFresh

variable {ues : OrderedMap UeSchedInfo} {rnti : Nat} {f : UeSchedInfo → UeSchedInfo}

theorem adjust (h : AllFresh ues) (hf : ∀ ue, ue.Fresh → (f ue).Fresh) :
    AllFresh (ues.adjust rnti f) := by
  refine ⟨OrderedMap.nodup_adjust h.nodup, fun other ue hfind => ?_⟩
  rw [OrderedMap.find_adjust] at hfind
  split_ifs at hfind
  · obtain ⟨old, hold, rfl⟩ := Option.map_eq_some_iff.1 hfind
    exact hf old (h.fresh other old hold)
  · exact h.fresh other ue hfind

theorem insertNew (h : AllFresh ues) : AllFresh (ues.insertNew rnti newUe) := by
  refine ⟨OrderedMap.nodup_insertNew h.nodup, fun other ue hfind => ?_⟩
  rw [OrderedMap.find_insertNew] at hfind
  split_ifs at hfind with heq
  · obtain rfl := Option.some.inj hfind
    cases hold : ues.find rnti with
    | none => exact fresh_newUe
    | some old => exact h.fresh rnti old hold
  · exact h.fresh other ue hfind

theorem updateAll (h : AllFresh ues) (hf : ∀ ue, ue.Fresh → (f ue).Fresh)
    (ueAllocMap : OrderedMap Unit) : AllFresh (FlexTtiPf.updateAll ueAllocMap f ues) := by
  unfold FlexTtiPf.updateAll
  induction ueAllocMap generalizing ues with
  | nil => exact h
  | cons entry rest ih => exact ih (h.adjust hf)

end AllFresh

/-- The working list is empty, and the records are fresh. -/
structure Clean (s : FlexTtiPf) : Prop where
  heap : s.ueStatHeap = []
  ues : AllFresh s.ueSchedInfoMap

/-- A change of a record that leaves it fresh. -/
theorem Clean.adjust {s : FlexTtiPf} (hs : s.Clean) {rnti : Nat} {f : UeSchedInfo → UeSchedInfo}
    (hf : ∀ ue, ue.Fresh → (f ue).Fresh) :
    Clean { s with ueSchedInfoMap := s.ueSchedInfoMap.adjust rnti f } :=
  ⟨hs.heap, hs.ues.adjust hf⟩

theorem clean_start : (start c).Clean :=
  ⟨rfl, List.nodup_nil, fun _ _ hfind => by cases hfind⟩

/-! ## Feedback -/

/-- A retransmission is noted in fresh records. -/
theorem Working.note_allFresh {w : Working} {rnti : Nat} {f : UeSchedInfo → UeSchedInfo}
    (hw : AllFresh w.ueSchedInfoMap) (hf : ∀ ue, ue.Fresh → (f ue).Fresh) :
    AllFresh (w.note rnti f).ueSchedInfoMap :=
  hw.adjust hf

theorem answerFeedback_allFresh {pass pass' : RetxPass Working}
    (hpass : AllFresh pass.ues.ueSchedInfoMap) (hok : answerFeedback c book pass = .ok pass') :
    AllFresh pass'.ues.ueSchedInfoMap := by
  unfold answerFeedback at hok
  split at hok
  · obtain ⟨dl, hdl, hok⟩ := bind_eq_ok.1 hok
    obtain ⟨ul, hul, hok⟩ := bind_eq_ok.1 hok
    cases hok
    have hbetween : AllFresh dl.ues.ueSchedInfoMap := by
      refine answerInTurn_keeps (P := fun r => AllFresh r.ues.ueSchedInfoMap) ?_ hpass hdl
      intro r info r' hr hanswer
      rcases answerDl_cases hanswer with ⟨harq, rfl⟩ | ⟨count, dci, hsend⟩
      · exact hr
      · rcases sendDl_cases hsend with rfl | ⟨found, -, -, hues⟩
        · exact hr
        · rw [hues]
          exact Working.note_allFresh hr fun ue hue => ⟨hue.1, hue.2, hue.3, hue.4⟩
    refine answerInTurn_keeps (P := fun r => AllFresh r.ues.ueSchedInfoMap) ?_ hbetween hul
    intro r info r' hr hanswer
    rcases answerUl_cases hanswer with ⟨harq, rfl⟩ | ⟨count, dci, hsend⟩
    · exact hr
    · rcases sendUl_cases hsend with rfl | ⟨found, -, -, hues⟩
      · exact hr
      · rw [hues]
        exact Working.note_allFresh hr fun ue hue => ⟨hue.1, hue.2, hue.3, hue.4⟩
  · cases hok
    exact hpass

/-- The feedback leaves a clean scheduler clean. -/
theorem Clean.answer {s : FlexTtiPf} (hs : s.Clean) {params : SchedTriggerReqParameters}
    {result : Answered ⊕ (FlexTtiPf × SchedConfigInd)} (hok : s.answer c params = .ok result) :
    (∃ a, result = .inl a ∧ a.scheduler.Clean ∧
      a.pass.ues.ueSchedInfoMap = a.scheduler.ueSchedInfoMap) ∨
    ∃ next, result = .inr next ∧ next.1.Clean := by
  obtain ⟨prepared, -, hok⟩ := bind_eq_ok.1 hok
  dsimp only at hok
  split at hok
  · obtain ⟨pass, hpass, hok⟩ := bind_eq_ok.1 hok
    obtain rfl := pure_eq_ok.1 hok
    exact Or.inl ⟨_, rfl, ⟨hs.heap, answerFeedback_allFresh hs.ues hpass⟩, rfl⟩
  · obtain rfl := pure_eq_ok.1 hok
    exact Or.inr ⟨_, rfl, hs.heap, hs.ues⟩

/-! ## Collection -/

section

variable {isIab : Bool} {ue : UeSchedInfo}

theorem UeSchedInfo.addPdu_eq (isIab : Bool) (lcid size header : Nat) (hlt : ue.dl.totBuf < 2 ^ 32) :
    ∃ iab, ue.addPdu isIab lcid size header = { ue with
      rlcPduInfo := ue.rlcPduInfo ++
        if 0 < size then [⟨lcid, (size + header) % 2 ^ 32⟩] else []
      dl.totBuf := (ue.dl.totBuf + size) % 2 ^ 32
      iab := iab } := by
  unfold UeSchedInfo.addPdu
  split_ifs with hsize
  · exact ⟨_, rfl⟩
  · obtain rfl : size = 0 := by omega
    refine ⟨ue.iab, ?_⟩
    rw [List.append_nil, Nat.add_zero, Nat.mod_eq_of_lt hlt]

/-- The flows of the downlink add their PDUs and their bytes. -/
theorem foldl_addFlow_eq (isIab : Bool) (ue : UeSchedInfo) (flows : List FlowStats)
    (hlt : ue.dl.totBuf < 2 ^ 32) :
    ∃ iab, flows.foldl (UeSchedInfo.addFlow isIab) ue = { ue with
      rlcPduInfo := ue.rlcPduInfo ++ flows.flatMap FlowStats.pdus
      dl.totBuf := (ue.dl.totBuf +
        (flows.map fun flow => flow.rlcStatusPduSize + flow.totalBufSize).sum) % 2 ^ 32
      iab := iab } := by
  induction flows generalizing ue with
  | nil =>
      refine ⟨ue.iab, ?_⟩
      rw [List.flatMap_nil, List.append_nil, List.map_nil, List.sum_nil, Nat.add_zero,
        Nat.mod_eq_of_lt hlt]
      rfl
  | cons flow rest ih =>
      obtain ⟨iab₁, hstatus⟩ :=
        UeSchedInfo.addPdu_eq isIab flow.lcid flow.rlcStatusPduSize subHdrSize hlt
      have hmod : (ue.dl.totBuf + flow.rlcStatusPduSize) % 2 ^ 32 < 2 ^ 32 :=
        Nat.mod_lt _ (by decide)
      have hlt' : (ue.addPdu isIab flow.lcid flow.rlcStatusPduSize subHdrSize).dl.totBuf <
          2 ^ 32 := by
        rw [hstatus]
        exact hmod
      obtain ⟨iab₂, hqueue⟩ := UeSchedInfo.addPdu_eq isIab flow.lcid flow.totalBufSize
        (rlcHdrSize + subHdrSize + 10) hlt'
      have hflow : UeSchedInfo.addFlow isIab ue flow = { ue with
          rlcPduInfo := ue.rlcPduInfo ++ flow.pdus
          dl.totBuf :=
            (ue.dl.totBuf + (flow.rlcStatusPduSize + flow.totalBufSize)) % 2 ^ 32
          iab := iab₂ } := by
        unfold UeSchedInfo.addFlow FlowStats.pdus
        rw [hqueue, hstatus]
        simp only [List.append_assoc, Nat.mod_add_mod, Nat.add_assoc]
      obtain ⟨iab, hrest⟩ := ih (UeSchedInfo.addFlow isIab ue flow)
        (by rw [hflow]; exact Nat.mod_lt _ (by decide))
      refine ⟨iab, ?_⟩
      rw [List.foldl_cons, hrest, hflow]
      simp only [List.flatMap_cons, List.append_assoc, List.map_cons, List.sum_cons,
        Nat.mod_add_mod, Nat.add_assoc]

variable {s : PaddedHbf} {rnti : Nat}

/-- What the collection makes of the downlink of a fresh record. -/
theorem collectDl_spec (isIab : Bool) (rnti : Nat) (hue : ue.Fresh) :
    (collectDl c s isIab rnti ue).1.Cleared ∧
      (collectDl c s isIab rnti ue).1.rlcPduInfo = dlPdus s rnti ue ∧
      (collectDl c s isIab rnti ue).1.dl.totBuf = dlBytes s rnti ue ∧
      (collectDl c s isIab rnti ue).1.ul = ue.ul ∧
      ((collectDl c s isIab rnti ue).2 = true ↔ 0 < dlBytes s rnti ue) := by
  unfold collectDl dlPdus dlBytes
  dsimp only
  split_ifs with hcqi hzero
  · exact ⟨hue.cleared, hue.rlcPduInfo, hue.totBufDl, rfl, by simp⟩
  · obtain ⟨iab, hflows⟩ := foldl_addFlow_eq isIab
      { ue with dl.mcs := c.amc.getMcsFromCqi ((s.wbCqiRxed.find rnti).getD 1) % 2 ^ 8 }
      ue.dl.flowStats (by rw [hue.totBufDl]; decide)
    rw [hflows] at hzero ⊢
    dsimp only at hzero ⊢
    rw [hue.totBufDl, Nat.zero_add] at hzero ⊢
    rw [hue.rlcPduInfo, List.nil_append]
    exact ⟨hue.cleared, rfl, rfl, rfl, by rw [hzero]; simp⟩
  · obtain ⟨iab, hflows⟩ := foldl_addFlow_eq isIab
      { ue with dl.mcs := c.amc.getMcsFromCqi ((s.wbCqiRxed.find rnti).getD 1) % 2 ^ 8 }
      ue.dl.flowStats (by rw [hue.totBufDl]; decide)
    rw [hflows] at hzero ⊢
    dsimp only at hzero ⊢
    rw [hue.totBufDl, Nat.zero_add] at hzero ⊢
    rw [hue.rlcPduInfo, List.nil_append]
    exact ⟨hue.cleared, rfl, rfl, rfl, by simpa using Nat.pos_of_ne_zero hzero⟩

/-- What the collection makes of the uplink of a record for which nothing waited. -/
theorem collectUl_spec {result : UeSchedInfo × Bool} (hue : ue.ul.totBuf = 0)
    (hok : collectUl c s isIab rnti ue = .ok result) :
    (ue.Cleared → result.1.Cleared) ∧ result.1.rlcPduInfo = ue.rlcPduInfo ∧
      result.1.dl = ue.dl ∧ (result.2 = true ↔ 0 < ulBytes c s rnti ue) ∧
      (ulBytes c s rnti ue = 0 → result.1.ul.totBuf = 0) := by
  unfold collectUl at hok
  obtain ⟨cqi, hcqi, hok⟩ := bind_eq_ok.1 hok
  unfold ulBytes
  rw [hcqi]
  dsimp only
  rw [hue, Nat.zero_add] at hok
  split_ifs at hok ⊢ with hzero
  · obtain rfl := pure_eq_ok.1 hok
    exact ⟨id, rfl, rfl, by simp, fun _ => hue⟩
  · dsimp only at hok
    split_ifs at hok with hwaiting
    · obtain rfl := pure_eq_ok.1 hok
      exact ⟨id, rfl, rfl, by rw [hwaiting]; simp, fun h => h⟩
    · obtain rfl := pure_eq_ok.1 hok
      refine ⟨id, rfl, rfl, ?_, fun h => absurd h hwaiting⟩
      simpa using Nat.pos_of_ne_zero hwaiting

/-- What the collection makes of a fresh record. -/
theorem collectUe_spec {candidate : Candidate} (hue : ue.Fresh)
    (hok : collectUe c s rnti ue = .ok candidate) :
    candidate.ue.Cleared ∧ candidate.ue.rlcPduInfo = dlPdus s rnti ue ∧
      (candidate.waits = true ↔ 0 < dlBytes s rnti ue ∨ 0 < ulBytes c s rnti ue) ∧
      (dlPdus s rnti ue = [] → dlBytes s rnti ue = 0 → ulBytes c s rnti ue = 0 →
        candidate.ue.Fresh) := by
  unfold collectUe at hok
  have hok := blame_eq_ok.1 hok
  dsimp only at hok
  obtain ⟨ul, hul, hok⟩ := bind_eq_ok.1 hok
  obtain rfl := pure_eq_ok.1 hok
  obtain ⟨hcleared, hpdus, hbytes, hsame, hwaits⟩ := collectDl_spec (c := c) (s := s)
    ((s.rntiIabInfoMap.find rnti).getD false) rnti hue
  obtain ⟨hcleared', hpdus', hdl, hwaits', hzero⟩ :=
    collectUl_spec (by rw [hsame]; exact hue.totBufUl) hul
  have hul : ulBytes c s rnti (collectDl c s ((s.rntiIabInfoMap.find rnti).getD false) rnti ue).1 =
      ulBytes c s rnti ue := by
    unfold ulBytes
    rw [hsame]
  rw [hul] at hwaits' hzero
  have hrlc := hpdus'.trans hpdus
  refine ⟨hcleared' hcleared, hrlc, ?_, fun hnone hdlzero hulzero =>
    ⟨hcleared' hcleared, hrlc.trans hnone, ?_, hzero hulzero⟩⟩
  · rw [Bool.or_eq_true, hwaits, hwaits']
  · rw [hdl, hbytes, hdlzero]

/-- If nothing waits for the downlink, its record is collected as it was, but for its MCS, its RLC
PDUs and its flag. -/
theorem collectDl_idle (isIab : Bool) (rnti : Nat) (hue : ue.dl.totBuf = 0) :
    ((collectDl c s isIab rnti ue).2 = false ↔ dlBytes s rnti ue = 0) ∧
      (collectDl c s isIab rnti ue).1.ul = ue.ul ∧
      ((collectDl c s isIab rnti ue).2 = false → ∃ mcs rlcPduInfo iab,
        (collectDl c s isIab rnti ue).1 = { ue with dl.mcs := mcs, rlcPduInfo, iab }) := by
  unfold collectDl dlBytes
  dsimp only
  split_ifs with hcqi hzero
  · exact ⟨by simp, rfl, fun _ => ⟨ue.dl.mcs, ue.rlcPduInfo, ue.iab, rfl⟩⟩
  · obtain ⟨iab, hflows⟩ := foldl_addFlow_eq isIab
      { ue with dl.mcs := c.amc.getMcsFromCqi ((s.wbCqiRxed.find rnti).getD 1) % 2 ^ 8 }
      ue.dl.flowStats (by rw [hue]; decide)
    rw [hflows] at hzero ⊢
    dsimp only at hzero ⊢
    rw [hzero.trans hue.symm]
    rw [hue, Nat.zero_add] at hzero
    exact ⟨iff_of_true rfl hzero, rfl, fun _ => ⟨_, _, iab, rfl⟩⟩
  · obtain ⟨iab, hflows⟩ := foldl_addFlow_eq isIab
      { ue with dl.mcs := c.amc.getMcsFromCqi ((s.wbCqiRxed.find rnti).getD 1) % 2 ^ 8 }
      ue.dl.flowStats (by rw [hue]; decide)
    rw [hflows] at hzero ⊢
    dsimp only at hzero ⊢
    rw [hue, Nat.zero_add] at hzero
    exact ⟨iff_of_false nofun hzero, rfl, nofun⟩

/-- If nothing waits for the uplink, its record is collected as it was, but for its MCS. -/
theorem collectUl_idle {result : UeSchedInfo × Bool} (hue : ue.ul.totBuf = 0)
    (hok : collectUl c s isIab rnti ue = .ok result) :
    (result.2 = false ↔ ulBytes c s rnti ue = 0) ∧
      (result.2 = false → ∃ mcs, result.1 = { ue with ul.mcs := mcs }) := by
  unfold collectUl at hok
  obtain ⟨cqi, hcqi, hok⟩ := bind_eq_ok.1 hok
  unfold ulBytes
  rw [hcqi]
  dsimp only
  rw [hue, Nat.zero_add] at hok
  split_ifs at hok ⊢ with hzero
  · obtain rfl := pure_eq_ok.1 hok
    exact ⟨by simp, fun _ => ⟨ue.ul.mcs, rfl⟩⟩
  · dsimp only at hok
    split_ifs at hok with hwaiting
    · obtain rfl := pure_eq_ok.1 hok
      refine ⟨iff_of_true rfl hwaiting, fun _ => ⟨cqi.2 % 2 ^ 8, ?_⟩⟩
      rw [hwaiting.trans hue.symm]
    · obtain rfl := pure_eq_ok.1 hok
      exact ⟨iff_of_false nofun hwaiting, nofun⟩

/-- A record for which nothing waited before takes part in the division if bytes wait for it, and
else stays as it was in all that the division looks at. -/
theorem collectUe_idle {candidate : Candidate} (hdl : ue.dl.totBuf = 0) (hul : ue.ul.totBuf = 0)
    (hok : collectUe c s rnti ue = .ok candidate) :
    (candidate.waits = false ↔ dlBytes s rnti ue = 0 ∧ ulBytes c s rnti ue = 0) ∧
      (candidate.waits = false → ∃ dlMcs ulMcs rlcPduInfo iab,
        candidate.ue = { ue with dl.mcs := dlMcs, ul.mcs := ulMcs, rlcPduInfo, iab }) := by
  unfold collectUe at hok
  have hok := blame_eq_ok.1 hok
  dsimp only at hok
  obtain ⟨result, hresult, hok⟩ := bind_eq_ok.1 hok
  obtain rfl := pure_eq_ok.1 hok
  obtain ⟨hdlWaits, hsame, hdlIdle⟩ := collectDl_idle (c := c) (s := s)
    ((s.rntiIabInfoMap.find rnti).getD false) rnti hdl
  obtain ⟨hulWaits, hulIdle⟩ := collectUl_idle (by rw [hsame]; exact hul) hresult
  have hbytes : ulBytes c s rnti
      (collectDl c s ((s.rntiIabInfoMap.find rnti).getD false) rnti ue).1 =
      ulBytes c s rnti ue := by
    unfold ulBytes
    rw [hsame]
  rw [hbytes] at hulWaits
  refine ⟨by rw [Bool.or_eq_false_iff, hdlWaits, hulWaits], fun hwaits => ?_⟩
  obtain ⟨hdlNone, hulNone⟩ := Bool.or_eq_false_iff.1 hwaits
  obtain ⟨dlMcs, rlcPduInfo, iab, hfirst⟩ := hdlIdle hdlNone
  obtain ⟨ulMcs, hsecond⟩ := hulIdle hulNone
  refine ⟨dlMcs, ulMcs, rlcPduInfo, iab, ?_⟩
  dsimp only
  rw [hsecond, hfirst]

end

/-- Without PDUs there are no bytes. -/
theorem dlBytes_eq_zero {s : PaddedHbf} {rnti : Nat} {ue : UeSchedInfo}
    (hnone : dlPdus s rnti ue = []) : dlBytes s rnti ue = 0 := by
  unfold dlPdus at hnone
  unfold dlBytes
  split_ifs at hnone ⊢ with hcqi
  · rfl
  · have hsum : (ue.dl.flowStats.map fun flow =>
        flow.rlcStatusPduSize + flow.totalBufSize).sum = 0 := by
      refine List.sum_eq_zero fun size hsize => ?_
      obtain ⟨flow, hflow, rfl⟩ := List.mem_map.1 hsize
      have hpdus := List.flatMap_eq_nil_iff.1 hnone flow hflow
      unfold FlowStats.pdus at hpdus
      obtain ⟨hstatus, hqueue⟩ := List.append_eq_nil_iff.1 hpdus
      split_ifs at hstatus hqueue
      omega
    rw [hsum]
    rfl

/-- What a collection does with the record of a UE. -/
theorem collect_spec {s : FlexTtiPf} {w : Working} {collected : Collected}
    (hok : collect c s w = .ok collected) (hnodup : w.ueSchedInfoMap.keys.Nodup) :
    ∃ candidates : OrderedMap Candidate,
      w.ueSchedInfoMap.traverse (collectUe c s.toPaddedHbf) = .ok candidates ∧
      candidates.keys.Nodup ∧ collected.ueSchedInfoMap.keys.Nodup ∧
      (∀ rnti, collected.ueSchedInfoMap.find rnti = (candidates.find rnti).map (·.ue)) ∧
      ∃ waiting : List Nat, collected.ueStatHeap = s.ueStatHeap ++ waiting ∧ waiting.Nodup ∧
        ∀ rnti, rnti ∈ waiting ↔ ∃ candidate, candidates.find rnti = some candidate ∧
          candidate.waits = true := by
  obtain ⟨candidates, hcandidates, hok⟩ := bind_eq_ok.1 hok
  obtain rfl := pure_eq_ok.1 hok
  have hkeys : candidates.keys.Nodup := OrderedMap.keys_traverse hcandidates ▸ hnodup
  refine ⟨candidates, hcandidates, hkeys, ?_, fun rnti => ?_, _, rfl, ?_, fun rnti => ?_⟩
  · rw [OrderedMap.keys_map_snd]
    exact hkeys
  · exact OrderedMap.find_map_snd candidates
  · exact hkeys.sublist (List.filter_sublist.map _)
  · constructor
    · intro hmem
      obtain ⟨entry, hentry, rfl⟩ := List.mem_map.1 hmem
      obtain ⟨hentry, hwaits⟩ := List.mem_filter.1 hentry
      exact ⟨entry.2, OrderedMap.find_of_mem hkeys hentry, hwaits⟩
    · rintro ⟨candidate, hfind, hwaits⟩
      exact List.mem_map.2 ⟨(rnti, candidate),
        List.mem_filter.2 ⟨OrderedMap.mem_of_find hfind, hwaits⟩, rfl⟩

/-- A collection that begins with a clean scheduler yields a clean start. -/
theorem Clean.cleanStart {s : FlexTtiPf} (hs : s.Clean) {w : Working} {collected : Collected}
    (hw : w.ueSchedInfoMap = s.ueSchedInfoMap) (hok : collect c s w = .ok collected) :
    CleanStart c s collected := by
  obtain ⟨candidates, hcandidates, -, -, hfind, waiting, hheap, hnodup, hwaiting⟩ :=
    collect_spec hok (hw ▸ hs.ues.nodup)
  rw [hw] at hcandidates
  rw [hs.heap, List.nil_append] at hheap
  refine ⟨hheap ▸ hnodup, fun rnti => ?_, fun rnti hmem => ?_⟩
  · rw [hheap, hwaiting]
    constructor
    · rintro ⟨candidate, hcandidate, hwaits⟩
      obtain ⟨ue, hue, hcollect⟩ := OrderedMap.find_of_traverse hcandidates hcandidate
      exact ⟨ue, hue, (collectUe_spec (hs.ues.fresh rnti ue hue) hcollect).2.2.1.1 hwaits⟩
    · rintro ⟨ue, hue, hbytes⟩
      obtain ⟨candidate, hcollect, hcandidate⟩ := OrderedMap.find_traverse hcandidates hue
      exact ⟨candidate, hcandidate,
        (collectUe_spec (hs.ues.fresh rnti ue hue) hcollect).2.2.1.2 hbytes⟩
  · rw [hheap, hwaiting] at hmem
    obtain ⟨candidate, hcandidate, -⟩ := hmem
    obtain ⟨ue, hue, hcollect⟩ := OrderedMap.find_of_traverse hcandidates hcandidate
    have hspec := collectUe_spec (hs.ues.fresh rnti ue hue) hcollect
    exact ⟨ue, candidate.ue, hue, by rw [hfind, hcandidate]; rfl, hspec.1, hspec.2.1⟩

/-! ## A trigger that finds nothing -/

/-- Nothing is collected where nothing waits. -/
theorem collect_of_nothing {s : FlexTtiPf} (hs : s.Clean) {w : Working} {collected : Collected}
    (hw : w.ueSchedInfoMap = s.ueSchedInfoMap) (hok : collect c s w = .ok collected)
    (hnothing : ∀ rnti ue, s.ueSchedInfoMap.find rnti = some ue →
      dlPdus s.toPaddedHbf rnti ue = [] ∧ ulBytes c s.toPaddedHbf rnti ue = 0) :
    collected.ueStatHeap = [] ∧ AllFresh collected.ueSchedInfoMap := by
  have hclean := hs.cleanStart hw hok
  obtain ⟨candidates, hcandidates, -, hnodup, hfind, -⟩ := collect_spec hok (hw ▸ hs.ues.nodup)
  rw [hw] at hcandidates
  constructor
  · refine List.eq_nil_iff_forall_not_mem.2 fun rnti hmem => ?_
    obtain ⟨ue, hue, hbytes⟩ := (hclean.waiting rnti).1 hmem
    have hzero := hnothing rnti ue hue
    have hdl := dlBytes_eq_zero hzero.1
    omega
  · refine ⟨hnodup, fun rnti ue' hue' => ?_⟩
    rw [hfind] at hue'
    obtain ⟨candidate, hcandidate, rfl⟩ := Option.map_eq_some_iff.1 hue'
    obtain ⟨ue, hue, hcollect⟩ := OrderedMap.find_of_traverse hcandidates hcandidate
    obtain ⟨hpdus, hul⟩ := hnothing rnti ue hue
    exact (collectUe_spec (hs.ues.fresh rnti ue hue) hcollect).2.2.2 hpdus
      (dlBytes_eq_zero hpdus) hul

/-- Where nothing waits, nothing is limited and no symbol is given out. -/
theorem divideSymbols_nil {symAvail : Int} {ues : OrderedMap UeSchedInfo} {d : Division}
    (hues : AllFresh ues) (hok : divideSymbols c symAvail [] ues = .ok d) :
    d.ueStatHeap = [] ∧ AllFresh d.ueSchedInfoMap := by
  obtain ⟨limited, hlimited, hok⟩ := bind_eq_ok.1 hok
  obtain rfl := pure_eq_ok.1 hok
  have hfresh : AllFresh limited := by
    refine ⟨OrderedMap.keys_traverse hlimited ▸ hues.nodup, fun rnti ue' hue' => ?_⟩
    obtain ⟨ue, hue, hlimit⟩ := OrderedMap.find_of_traverse hlimited hue'
    have hue := hues.fresh rnti ue hue
    have hlimit := blame_eq_ok.1 hlimit
    unfold UeSchedInfo.limitIab at hlimit
    rw [if_neg (by rw [hue.totBufDl, hue.totBufUl]; simp)] at hlimit
    exact pure_eq_ok.1 hlimit ▸ hue
  unfold Division.run
  generalize symAvail.toNat = n
  have hsort : c.ueSort.sort (compareUeWeightsPf limited) [] = [] :=
    (c.ueSort.perm _ []).eq_nil
  cases n with
  | zero => exact ⟨rfl, hfresh⟩
  | succ n =>
      unfold Division.rounds Division.round
      dsimp only
      rw [hsort]
      exact ⟨rfl, hfresh⟩

/-- A loop whose body changes nothing. -/
theorem foldlM_of_fixed {ε α β : Type} {f : β → α → Except ε β} {b : β} {items : List α}
    (hfixed : ∀ item, f b item = .ok b) : items.foldlM f b = .ok b := by
  induction items with
  | nil => rfl
  | cons item rest ih => rw [List.foldlM_cons, hfixed, ok_bind, ih]

/-- UEs without symbols get no grants. -/
theorem grantAll_of_fresh {sfnSf : SfnSf} {rntis : List Nat}
    {d : Grants (OrderedMap UeSchedInfo)} (hues : AllFresh d.buffers) :
    grantAll c sfnSf rntis d = .ok d := by
  have hrecord : ∀ rnti, ((d.buffers.find rnti).getD {}).Fresh := by
    intro rnti
    cases hfind : d.buffers.find rnti with
    | none => exact ⟨⟨⟨rfl, rfl, rfl⟩, rfl, rfl, rfl⟩, rfl, rfl, rfl⟩
    | some ue => exact hues.fresh rnti ue hfind
  have hdl : ∀ rnti, grantDlOf c d rnti = .ok d := by
    intro rnti
    unfold grantDlOf
    dsimp only
    rw [(hrecord rnti).cleared.1.1, if_neg (Nat.lt_irrefl 0)]
    rfl
  have hul : ∀ rnti, grantUlOf c sfnSf d rnti = .ok d := by
    intro rnti
    unfold grantUlOf
    dsimp only
    rw [(hrecord rnti).cleared.2.1, if_neg (Nat.lt_irrefl 0)]
    rfl
  unfold grantAll
  rw [foldlM_of_fixed hdl, ok_bind, foldlM_of_fixed hul]

/-- A trigger that finds nothing leaves a clean scheduler clean. -/
theorem schedTriggerReq_clean {s : FlexTtiPf} (hs : s.Clean)
    {params : SchedTriggerReqParameters} {result : FlexTtiPf × SchedConfigInd}
    (hnothing : FindsNothing c s (.schedTriggerReq params))
    (hok : s.schedTriggerReq c params = .ok result) : result.1.Clean := by
  obtain ⟨answered, hanswered, hok⟩ := bind_eq_ok.1 hok
  rcases hs.answer hanswered with ⟨a, rfl, ha, hpass⟩ | ⟨next, rfl, hnext⟩
  · dsimp only at hok
    split at hok
    · obtain rfl := pure_eq_ok.1 hok
      refine ⟨ha.heap, ha.ues.updateAll (f := UeSchedInfo.resetRetx) (fun ue hue => ?_) _⟩
      exact ⟨hue.1, hue.2, hue.3, hue.4⟩
    · rename_i hleft
      obtain ⟨collected, hcollected, hok⟩ := bind_eq_ok.1 hok
      obtain ⟨hheap, hues⟩ := collect_of_nothing ha hpass hcollected
        (hnothing params a rfl hanswered hleft)
      obtain ⟨divided, hdivided, hok⟩ := bind_eq_ok.1 hok
      rw [hheap] at hdivided
      obtain ⟨hheap', hues'⟩ := divideSymbols_nil hues hdivided
      dsimp only at hok
      split at hok
      · obtain rfl := pure_eq_ok.1 hok
        exact ⟨hheap', hues'⟩
      · rw [grantAll_of_fresh hues', ok_bind] at hok
        obtain rfl := pure_eq_ok.1 hok
        refine ⟨hheap', hues'.updateAll (fun ue _ => ?_) _⟩
        exact ⟨⟨⟨rfl, rfl, rfl⟩, rfl, rfl, rfl⟩, rfl, rfl, rfl⟩
  · obtain rfl := pure_eq_ok.1 hok
    exact hnext

/-! ## The other requests -/

/-- A configuration of channels leaves the record as fresh as it is. -/
theorem configureLc_fresh {ue ue' : UeSchedInfo} {lc : LogicalChannelConfig} (hue : ue.Fresh)
    (hok : configureLc ue lc = .ok ue') : ue'.Fresh := by
  unfold configureLc at hok
  split at hok
  · obtain rfl := pure_eq_ok.1 hok
    exact ⟨hue.1, hue.2, hue.3, hue.4⟩
  · obtain rfl := pure_eq_ok.1 hok
    exact ⟨hue.1, hue.2, hue.3, hue.4⟩
  · obtain ⟨flow, -, hok⟩ := bind_eq_ok.1 hok
    obtain rfl := pure_eq_ok.1 hok
    exact ⟨hue.1, hue.2, hue.3, hue.4⟩

theorem cschedLcConfigReq_clean {s s' : FlexTtiPf} (hs : s.Clean) {rnti : Nat}
    {channels : List LogicalChannelConfig} (hok : s.cschedLcConfigReq rnti channels = .ok s') :
    s'.Clean := by
  unfold cschedLcConfigReq at hok
  split at hok
  · obtain rfl := pure_eq_ok.1 hok
    exact hs
  · rename_i ue hfind
    obtain ⟨ue', hue', hok⟩ := bind_eq_ok.1 hok
    obtain rfl := pure_eq_ok.1 hok
    have hfresh : ue'.Fresh := foldlM_invariant (I := fun ue _ => ue.Fresh) hue'
      (hs.ues.fresh rnti ue hfind) fun ue lc _ ue' hue hstep => configureLc_fresh hue hstep
    exact ⟨hs.heap, hs.ues.adjust fun _ _ => hfresh⟩

theorem bsrOf_clean {s s' : FlexTtiPf} (hs : s.Clean) {rnti lcg : Nat} {bufferStatus : List Nat}
    (hok : bsrOf rnti bufferStatus s lcg = .ok s') : s'.Clean := by
  obtain ⟨bsrId, -, hok⟩ := bind_eq_ok.1 hok
  obtain ⟨bufSize, -, hok⟩ := bind_eq_ok.1 hok
  split at hok
  · obtain rfl := pure_eq_ok.1 hok
    exact hs
  · split at hok
    · obtain rfl := pure_eq_ok.1 hok
      exact hs
    · obtain ⟨flow, -, hok⟩ := bind_eq_ok.1 hok
      obtain rfl := pure_eq_ok.1 hok
      refine hs.adjust fun ue hue => ?_
      exact ⟨hue.1, hue.2, hue.3, hue.4⟩

/-- Every request leaves a clean scheduler clean, unless it is a trigger that finds something. -/
theorem handle_clean {s : FlexTtiPf} (hs : s.Clean) {event : FlexTtiPfEvent}
    {result : FlexTtiPf × List SchedConfigInd} (hnothing : FindsNothing c s event)
    (hok : handle c event s = .ok result) : result.1.Clean := by
  cases event with
  | cschedUeConfigReq rnti reconfigureFlag iab numIabDevsPerRnti =>
      cases hok
      exact ⟨hs.heap, hs.ues.insertNew⟩
  | cschedLcConfigReq rnti channels =>
      obtain ⟨next, hnext, rfl⟩ := map_eq_ok.1 hok
      exact cschedLcConfigReq_clean hs (blame_eq_ok.1 hnext)
  | schedDlRlcBufferReq req =>
      cases hok
      refine hs.adjust fun ue hue => ?_
      exact ⟨hue.1, hue.2, hue.3, hue.4⟩
  | schedUlMacCtrlInfoReq reports =>
      obtain ⟨next, hnext, rfl⟩ := map_eq_ok.1 hok
      refine foldlM_invariant (I := fun s _ => s.Clean) (blame_eq_ok.1 hnext) hs ?_
      intro s report _ s' hs hreport
      exact foldlM_invariant (I := fun s _ => s.Clean) hreport hs
        fun s lcg _ s' hs hstep => bsrOf_clean hs hstep
  | iabBackhaulSchedNotify sfnSf dci =>
      obtain ⟨next, -, rfl⟩ := map_eq_ok.1 hok
      exact ⟨hs.heap, hs.ues⟩
  | schedTriggerReq params =>
      obtain ⟨next, hnext, rfl⟩ := map_eq_ok.1 hok
      exact schedTriggerReq_clean hs hnothing hnext
  | _ =>
      cases hok
      exact ⟨hs.heap, hs.ues⟩

/-! ## Runs -/

/-- As long as no trigger found anything that waits, the scheduler is clean. -/
theorem run_clean {events : List FlexTtiPfEvent}
    (hnothing : Run.AllSteps (TdmaRun.step (handle c))
      (fun r event => FindsNothing c r.scheduler event) { scheduler := start c } events) :
    (Run.run (TdmaRun.step (handle c)) { scheduler := start c } events).scheduler.Clean := by
  refine hnothing.invariant (I := fun r : TdmaRun FlexTtiPf => r.scheduler.Clean)
    (fun r event hr hevent => ?_) clean_start
  unfold TdmaRun.step
  split
  · exact hr
  · split
    · rename_i result hresult
      exact handle_clean hr hevent hresult
    · exact hr

/-- In every run the division of a trigger starts from a clean working set, if no trigger before
found anything that waits. -/
theorem run_cleanStart (events : List FlexTtiPfEvent)
    (hnothing : Run.AllSteps (TdmaRun.step (handle c))
      (fun r event => FindsNothing c r.scheduler event) { scheduler := start c } events)
    (params : SchedTriggerReqParameters) (a : Answered) (collected : Collected)
    (hstarts : Starts c params
      (Run.run (TdmaRun.step (handle c)) { scheduler := start c } events).scheduler a collected) :
    CleanStart c a.scheduler collected := by
  rcases (run_clean hnothing).answer hstarts.answered with ⟨a', ha', hclean, hpass⟩ | ⟨next, h, -⟩
  · obtain rfl := Sum.inl.inj ha'
    exact hclean.cleanStart hpass hstarts.collected
  · cases h

/-- A clean start is a working list with cleared fields. -/
def CleanStart.workingList {s : FlexTtiPf} {collected : Collected} (h : CleanStart c s collected)
    (hnodup : collected.ueSchedInfoMap.keys.Nodup) : WorkingList where
  ueStatHeap := collected.ueStatHeap
  ueSchedInfoMap := collected.ueSchedInfoMap
  nodup := hnodup
  cleared := fun rnti hmem => by
    obtain ⟨ue, ue', -, hfind, hcleared, -⟩ := h.cleared rnti hmem
    exact ⟨ue', hfind, hcleared⟩

/-- In a run without earlier data, the symbols that a trigger divides are shared out as they should
be, if the caps fit and no counter can wrap. -/
theorem run_sharedOut (hgrowing : Growing c) {events : List FlexTtiPfEvent}
    (hnothing : Run.AllSteps (TdmaRun.step (handle c))
      (fun r event => FindsNothing c r.scheduler event) { scheduler := start c } events)
    {params : SchedTriggerReqParameters} {a : Answered} {collected : Collected}
    (hstarts : Starts c params
      (Run.run (TdmaRun.step (handle c)) { scheduler := start c } events).scheduler a collected)
    {symAvail : Nat}
    (hcaps : ∀ rnti ue, collected.ueSchedInfoMap.find rnti = some ue → ue.CapsFit symAvail)
    (hcounters : symAvail ≤ 2 ^ 8 ∨ ∀ rnti ∈ collected.ueStatHeap, ∀ ue,
      collected.ueSchedInfoMap.find rnti = some ue → ue.CountersFit c) :
    ∃ w : WorkingList, w.ueStatHeap = collected.ueStatHeap ∧
      w.ueSchedInfoMap = collected.ueSchedInfoMap ∧
      ∃ d, divideSymbols c symAvail collected.ueStatHeap collected.ueSchedInfoMap = .ok d ∧
        SharedOut c symAvail w d := by
  rcases (run_clean hnothing).answer hstarts.answered with ⟨a', ha', hclean, hpass⟩ | ⟨next, h, -⟩
  · obtain rfl := Sum.inl.inj ha'
    have hcleanStart := hclean.cleanStart hpass hstarts.collected
    obtain ⟨candidates, -, -, hnodup, -⟩ :=
      collect_spec hstarts.collected (hpass ▸ hclean.ues.nodup)
    exact ⟨hcleanStart.workingList hnodup, rfl, rfl,
      WorkingList.sharedOut hgrowing (hcleanStart.workingList hnodup) symAvail hcaps hcounters⟩
  · cases h

/-! ## Two triggers -/

/-- The working list when the division of a trigger starts. -/
def heapAtStart (c : FlexTtiConfig) (params : SchedTriggerReqParameters) (s : FlexTtiPf) :
    Except Failure (List Nat) := do
  let answered ← s.answer c params
  match answered with
  | .inr _ => pure []
  | .inl a =>
      if a.pass.subframe.symAvail = 0 then pure []
      else
        let collected ← collect c a.scheduler a.pass.ues
        pure collected.ueStatHeap

theorem exists_starts (params : SchedTriggerReqParameters) (s : FlexTtiPf) (heap : List Nat)
    (hok : heapAtStart c params s = .ok heap) (hheap : heap ≠ []) :
    ∃ a collected, Starts c params s a collected ∧ collected.ueStatHeap = heap := by
  obtain ⟨answered, hanswered, hok⟩ := bind_eq_ok.1 hok
  rcases answered with a | next
  · dsimp only at hok
    split at hok
    · exact absurd (pure_eq_ok.1 hok).symm hheap
    · rename_i hleft
      obtain ⟨collected, hcollected, hok⟩ := bind_eq_ok.1 hok
      exact ⟨a, collected, ⟨hanswered, hleft, hcollected⟩, pure_eq_ok.1 hok⟩
  · exact absurd (pure_eq_ok.1 hok).symm hheap

/-- A UE, and a hundred bytes for it. -/
def oneUe : List FlexTtiPfEvent :=
  [.cschedUeConfigReq 1 false false 0,
    .schedDlRlcBufferReq { rnti := 1, logicalChannelIdentity := 3, rlcTransmissionQueueSize := 100 }]

/-- The scheduler after some requests. -/
def after (events : List FlexTtiPfEvent) : FlexTtiPf :=
  (Run.run (TdmaRun.step (handle tenBytes)) { scheduler := start tenBytes } events).scheduler

theorem run_cleanStart_oneUe :
    ∃ a collected, Starts tenBytes { sfnSf := {} } (after oneUe) a collected ∧
      CleanStart tenBytes a.scheduler collected := by
  obtain ⟨a, collected, hstarts, -⟩ := exists_starts (c := tenBytes) { sfnSf := {} }
    (after oneUe) [1] (by decide +kernel) (by decide)
  refine ⟨a, collected, hstarts, run_cleanStart oneUe ⟨?_, ?_, trivial⟩ _ a collected hstarts⟩
  · intro params a htrigger
    cases htrigger
  · intro params a htrigger
    cases htrigger

/-- After a trigger that found the UE, the working list has it twice. -/
theorem not_cleanStart_secondTrigger :
    ∃ a collected, Starts tenBytes { sfnSf := {} }
        (after (oneUe ++ .schedTriggerReq { sfnSf := {} } :: oneUe)) a collected ∧
      ¬ CleanStart tenBytes a.scheduler collected := by
  obtain ⟨a, collected, hstarts, hheap⟩ := exists_starts (c := tenBytes) { sfnSf := {} }
    (after (oneUe ++ .schedTriggerReq { sfnSf := {} } :: oneUe)) [1, 1] (by decide +kernel)
    (by decide)
  refine ⟨a, collected, hstarts, fun h => ?_⟩
  have hnodup := h.nodup
  rw [hheap] at hnodup
  exact absurd hnodup (by decide)

end FlexTtiPf

end NtnIab.Mmwave
