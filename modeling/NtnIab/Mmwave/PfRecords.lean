import NtnIab.Library.Run
import NtnIab.Mmwave.FlexTtiPfTrigger
import NtnIab.Mmwave.GrantBuffers

/-!
# The records of the proportional fair scheduler

A property of the records that does not depend on their flows and on the symbols of their
retransmissions is kept by every request that is no trigger, and by the feedback and the grants of a
trigger. What a trigger does beyond these is its collection, the division and a reset.

## Strategy

`Steady` is what is asked of the property, and `AllRecords` says that every record has it. There is
one lemma for each request and each part of a trigger.
-/

namespace NtnIab.Mmwave

namespace FlexTtiPf

open Fallible

variable {c : FlexTtiConfig}

/-- To write back an element that was looked up and changed is to change it in place. -/
theorem set_eq_modify {α : Type} {items : List α} {i : Nat} {a : α} {f : α → α}
    (ha : items[i]? = some a) : items.set i (f a) = items.modify i f := by
  apply List.ext_getElem?
  intro j
  rw [List.getElem?_set, List.getElem?_modify]
  by_cases hj : i = j
  · subst hj
    obtain ⟨hlt, rfl⟩ := List.getElem?_eq_some_iff.1 ha
    simp [hlt]
  · simp [hj]

/-- A property that a new record has, and that depends on neither the flows nor the symbols of the
retransmissions. -/
structure Steady (P : Nat → UeSchedInfo → Prop) : Prop where
  new : ∀ rnti, P rnti newUe
  flows : ∀ rnti ue dlFlows ulFlows, P rnti ue →
    P rnti { ue with dl.flowStats := dlFlows, ul.flowStats := ulFlows }
  retx : ∀ rnti ue dlRetx ulRetx, P rnti ue →
    P rnti { ue with dl.symbolsRetx := dlRetx, ul.symbolsRetx := ulRetx }

/-- Every RNTI has one record, and it has the property. -/
structure AllRecords (P : Nat → UeSchedInfo → Prop) (ues : OrderedMap UeSchedInfo) : Prop where
  nodup : ues.keys.Nodup
  each : ∀ rnti ue, ues.find rnti = some ue → P rnti ue

section

variable {P Q : Nat → UeSchedInfo → Prop} {ues : OrderedMap UeSchedInfo} {rnti : Nat}
  {f : UeSchedInfo → UeSchedInfo}

namespace AllRecords

theorem imp (h : AllRecords P ues) (himp : ∀ rnti ue, P rnti ue → Q rnti ue) :
    AllRecords Q ues :=
  ⟨h.nodup, fun rnti ue hfind => himp rnti ue (h.each rnti ue hfind)⟩

theorem adjust (h : AllRecords P ues)
    (hf : ∀ ue, ues.find rnti = some ue → P rnti ue → P rnti (f ue)) :
    AllRecords P (ues.adjust rnti f) := by
  refine ⟨OrderedMap.nodup_adjust h.nodup, fun other ue hfind => ?_⟩
  rw [OrderedMap.find_adjust] at hfind
  split_ifs at hfind with heq
  · subst heq
    obtain ⟨old, hold, rfl⟩ := Option.map_eq_some_iff.1 hfind
    exact hf old hold (h.each other old hold)
  · exact h.each other ue hfind

theorem insertNew (h : AllRecords P ues) (hnew : P rnti newUe) :
    AllRecords P (ues.insertNew rnti newUe) := by
  refine ⟨OrderedMap.nodup_insertNew h.nodup, fun other ue hfind => ?_⟩
  rw [OrderedMap.find_insertNew] at hfind
  split_ifs at hfind with heq
  · obtain rfl := Option.some.inj hfind
    cases hold : ues.find rnti with
    | none => exact heq ▸ hnew
    | some old => exact heq ▸ h.each rnti old hold
  · exact h.each other ue hfind

/-- Records of the subframe are changed by `f`, and they may lose a property that the others
have. -/
theorem updateAll (h : AllRecords P ues) (ueAllocMap : OrderedMap Unit)
    (hf : ∀ rnti ue, rnti ∈ ueAllocMap.keys → P rnti ue → P rnti (f ue)) :
    AllRecords P (FlexTtiPf.updateAll ueAllocMap f ues) := by
  unfold FlexTtiPf.updateAll
  induction ueAllocMap generalizing ues with
  | nil => exact h
  | cons entry rest ih =>
      refine ih (h.adjust fun ue _ => hf entry.1 ue ?_) fun rnti ue hmem => hf rnti ue ?_
      · exact List.mem_cons_self
      · exact List.mem_cons_of_mem _ hmem

/-- The records of the subframe get a property that the others have. -/
theorem updateAll_of_keys {ueAllocMap : OrderedMap Unit}
    (h : AllRecords (fun rnti ue => rnti ∈ ueAllocMap.keys ∨ P rnti ue) ues)
    (hf : ∀ rnti ue, P rnti (f ue)) :
    AllRecords P (FlexTtiPf.updateAll ueAllocMap f ues) := by
  unfold FlexTtiPf.updateAll
  induction ueAllocMap generalizing ues with
  | nil => exact h.imp fun rnti ue hue => hue.resolve_left List.not_mem_nil
  | cons entry rest ih =>
      refine ih ⟨OrderedMap.nodup_adjust h.nodup, fun rnti ue hfind => ?_⟩
      rw [OrderedMap.find_adjust] at hfind
      split_ifs at hfind with heq
      · obtain ⟨old, -, rfl⟩ := Option.map_eq_some_iff.1 hfind
        exact Or.inr (hf rnti old)
      · refine (h.each rnti ue hfind).imp_left fun hmem => ?_
        exact (List.mem_cons.1 hmem).resolve_left heq

end AllRecords

/-! ## Requests -/

theorem Steady.dlFlows (hP : Steady P) {ue : UeSchedInfo} (dlFlows : List FlowStats)
    (hue : P rnti ue) : P rnti { ue with dl.flowStats := dlFlows } :=
  hP.flows rnti ue dlFlows ue.ul.flowStats hue

theorem Steady.ulFlows (hP : Steady P) {ue : UeSchedInfo} (ulFlows : List FlowStats)
    (hue : P rnti ue) : P rnti { ue with ul.flowStats := ulFlows } :=
  hP.flows rnti ue ue.dl.flowStats ulFlows hue

theorem configureLc_steady (hP : Steady P) {ue ue' : UeSchedInfo} {lc : LogicalChannelConfig}
    (hue : P rnti ue) (hok : configureLc ue lc = .ok ue') : P rnti ue' := by
  unfold configureLc at hok
  split at hok
  · obtain rfl := pure_eq_ok.1 hok
    exact hP.dlFlows _ hue
  · obtain rfl := pure_eq_ok.1 hok
    exact hP.ulFlows _ hue
  · obtain ⟨flow, -, hok⟩ := bind_eq_ok.1 hok
    obtain rfl := pure_eq_ok.1 hok
    exact hP.flows rnti ue _ _ hue

theorem cschedLcConfigReq_steady (hP : Steady P) {s s' : FlexTtiPf}
    (hs : AllRecords P s.ueSchedInfoMap) {channels : List LogicalChannelConfig}
    (hok : s.cschedLcConfigReq rnti channels = .ok s') :
    AllRecords P s'.ueSchedInfoMap ∧ s'.ueStatHeap = s.ueStatHeap := by
  unfold cschedLcConfigReq at hok
  split at hok
  · obtain rfl := pure_eq_ok.1 hok
    exact ⟨hs, rfl⟩
  · rename_i ue hfind
    obtain ⟨ue', hue', hok⟩ := bind_eq_ok.1 hok
    obtain rfl := pure_eq_ok.1 hok
    have hsteady : P rnti ue' := foldlM_invariant (I := fun ue _ => P rnti ue) hue'
      (hs.each rnti ue hfind) fun ue lc _ ue' hue hstep => configureLc_steady hP hue hstep
    exact ⟨hs.adjust fun _ _ _ => hsteady, rfl⟩

theorem bsrOf_steady (hP : Steady P) {s s' : FlexTtiPf} (hs : AllRecords P s.ueSchedInfoMap)
    {lcg : Nat} {bufferStatus : List Nat} (hok : bsrOf rnti bufferStatus s lcg = .ok s') :
    AllRecords P s'.ueSchedInfoMap ∧ s'.ueStatHeap = s.ueStatHeap := by
  obtain ⟨bsrId, -, hok⟩ := bind_eq_ok.1 hok
  obtain ⟨bufSize, -, hok⟩ := bind_eq_ok.1 hok
  split at hok
  · obtain rfl := pure_eq_ok.1 hok
    exact ⟨hs, rfl⟩
  · split at hok
    · obtain rfl := pure_eq_ok.1 hok
      exact ⟨hs, rfl⟩
    · obtain ⟨flow, -, hok⟩ := bind_eq_ok.1 hok
      obtain rfl := pure_eq_ok.1 hok
      refine ⟨?_, rfl⟩
      dsimp only
      exact hs.adjust fun ue _ hue => hP.ulFlows _ hue

theorem schedUlMacCtrlInfoReq_steady (hP : Steady P) {s s' : FlexTtiPf}
    (hs : AllRecords P s.ueSchedInfoMap) {reports : List (Nat × List Nat)}
    (hok : s.schedUlMacCtrlInfoReq reports = .ok s') :
    AllRecords P s'.ueSchedInfoMap ∧ s'.ueStatHeap = s.ueStatHeap := by
  refine foldlM_invariant
    (I := fun r _ => AllRecords P r.ueSchedInfoMap ∧ r.ueStatHeap = s.ueStatHeap) hok ⟨hs, rfl⟩ ?_
  intro r report _ r' hr hreport
  refine foldlM_invariant
    (I := fun r _ => AllRecords P r.ueSchedInfoMap ∧ r.ueStatHeap = s.ueStatHeap) hreport hr ?_
  intro r lcg _ r' hr hstep
  obtain ⟨hkept, hheap⟩ := bsrOf_steady hP hr.1 hstep
  exact ⟨hkept, hheap.trans hr.2⟩

/-- Every request that is no trigger keeps a steady property, and the working list. -/
theorem handle_steady (hP : Steady P) {s : FlexTtiPf} (hs : AllRecords P s.ueSchedInfoMap)
    {event : FlexTtiPfEvent} (hno : ∀ params, event ≠ .schedTriggerReq params)
    {result : FlexTtiPf × List SchedConfigInd} (hok : handle c event s = .ok result) :
    AllRecords P result.1.ueSchedInfoMap ∧ result.1.ueStatHeap = s.ueStatHeap := by
  cases event with
  | cschedUeConfigReq rnti reconfigureFlag iab numIabDevsPerRnti =>
      cases hok
      exact ⟨hs.insertNew (hP.new rnti), rfl⟩
  | cschedLcConfigReq rnti channels =>
      obtain ⟨next, hnext, rfl⟩ := map_eq_ok.1 hok
      exact cschedLcConfigReq_steady hP hs (blame_eq_ok.1 hnext)
  | schedDlRlcBufferReq req =>
      cases hok
      refine ⟨?_, rfl⟩
      unfold schedDlRlcBufferReq
      dsimp only
      exact hs.adjust fun ue _ hue => hP.dlFlows _ hue
  | schedUlMacCtrlInfoReq reports =>
      obtain ⟨next, hnext, rfl⟩ := map_eq_ok.1 hok
      exact schedUlMacCtrlInfoReq_steady hP hs (blame_eq_ok.1 hnext)
  | iabBackhaulSchedNotify sfnSf dci =>
      obtain ⟨next, -, rfl⟩ := map_eq_ok.1 hok
      exact ⟨hs, rfl⟩
  | schedTriggerReq params => exact absurd rfl (hno params)
  | _ =>
      cases hok
      exact ⟨hs, rfl⟩

/-! ## Feedback -/

theorem answerFeedback_steady (hP : Steady P) {pass pass' : RetxPass Working}
    (hpass : AllRecords P pass.ues.ueSchedInfoMap)
    (hok : answerFeedback c book pass = .ok pass') :
    AllRecords P pass'.ues.ueSchedInfoMap := by
  unfold answerFeedback at hok
  split at hok
  · obtain ⟨dl, hdl, hok⟩ := bind_eq_ok.1 hok
    obtain ⟨ul, hul, hok⟩ := bind_eq_ok.1 hok
    cases hok
    have hbetween : AllRecords P dl.ues.ueSchedInfoMap := by
      refine answerInTurn_keeps (P := fun r => AllRecords P r.ues.ueSchedInfoMap) ?_ hpass hdl
      intro r info r' hr hanswer
      rcases answerDl_cases hanswer with ⟨harq, rfl⟩ | ⟨count, dci, hsend⟩
      · exact hr
      · rcases sendDl_cases hsend with rfl | ⟨found, -, -, hues⟩
        · exact hr
        · rw [hues]
          exact hr.adjust fun ue _ hue => hP.retx _ ue _ ue.ul.symbolsRetx hue
    refine answerInTurn_keeps (P := fun r => AllRecords P r.ues.ueSchedInfoMap) ?_ hbetween hul
    intro r info r' hr hanswer
    rcases answerUl_cases hanswer with ⟨harq, rfl⟩ | ⟨count, dci, hsend⟩
    · exact hr
    · rcases sendUl_cases hsend with rfl | ⟨found, -, -, hues⟩
      · exact hr
      · rw [hues]
        exact hr.adjust fun ue _ hue => hP.retx _ ue ue.dl.symbolsRetx _ hue
  · cases hok
    exact hpass

/-- The feedback keeps a steady property, and the working list. -/
theorem answer_steady (hP : Steady P) {s : FlexTtiPf} (hs : AllRecords P s.ueSchedInfoMap)
    {params : SchedTriggerReqParameters} {result : Answered ⊕ (FlexTtiPf × SchedConfigInd)}
    (hok : s.answer c params = .ok result) :
    (∃ a, result = .inl a ∧ AllRecords P a.scheduler.ueSchedInfoMap ∧
      a.scheduler.ueStatHeap = s.ueStatHeap ∧
      a.pass.ues.ueSchedInfoMap = a.scheduler.ueSchedInfoMap) ∨
    ∃ next, result = .inr next ∧ AllRecords P next.1.ueSchedInfoMap ∧
      next.1.ueStatHeap = s.ueStatHeap := by
  obtain ⟨prepared, -, hok⟩ := bind_eq_ok.1 hok
  dsimp only at hok
  split at hok
  · obtain ⟨pass, hpass, hok⟩ := bind_eq_ok.1 hok
    obtain rfl := pure_eq_ok.1 hok
    exact Or.inl ⟨_, rfl, answerFeedback_steady hP hs hpass, rfl, rfl⟩
  · obtain rfl := pure_eq_ok.1 hok
    exact Or.inr ⟨_, rfl, hs, rfl⟩

/-! ## Division -/

/-- The caps are set. -/
theorem AllRecords.limited {symAvail : Int} {limited : OrderedMap UeSchedInfo}
    (h : AllRecords P ues)
    (hlimit : ∀ rnti ue ue', P rnti ue → ue.limitIab symAvail = .ok ue' → P rnti ue')
    (hok : ues.traverse (fun rnti ue => blame (.ue rnti) (ue.limitIab symAvail)) = .ok limited) :
    AllRecords P limited := by
  refine ⟨OrderedMap.keys_traverse hok ▸ h.nodup, fun rnti ue' hue' => ?_⟩
  obtain ⟨ue, hue, hstep⟩ := OrderedMap.find_of_traverse hok hue'
  exact hlimit rnti ue ue' (h.each rnti ue hue) (blame_eq_ok.1 hstep)

/-- What is kept where a UE is looked at and where it gets a symbol. -/
structure KeptInTurns (c : FlexTtiConfig) (P : Nat → UeSchedInfo → Prop) : Prop where
  mark : ∀ rnti ue, P rnti ue → P rnti ue.markDone
  turn : ∀ rnti ue mode, P rnti ue → ue.markDone.nextTurn = some mode →
    P rnti (ue.markDone.addSymbol c mode)

theorem AllRecords.walk (hP : KeptInTurns c P) {list : List Nat} (h : AllRecords P ues) :
    AllRecords P (walk c list ues).2 := by
  induction list generalizing ues with
  | nil => exact h
  | cons first rest ih =>
      unfold FlexTtiPf.walk
      dsimp only
      cases hnext : ((ues.find first).getD {}).markDone.nextTurn with
      | some mode =>
          dsimp only
          refine h.adjust fun ue hfind hue => ?_
          rw [hfind, Option.getD_some] at hnext ⊢
          exact hP.turn first ue mode hue hnext
      | none =>
          refine ih (h.adjust fun ue hfind hue => ?_)
          rw [hfind, Option.getD_some]
          exact hP.mark first ue hue

theorem AllRecords.round (hP : KeptInTurns c P) {d : Division}
    (h : AllRecords P d.ueSchedInfoMap) : AllRecords P (d.round c).1.ueSchedInfoMap := by
  unfold Division.round
  dsimp only
  split
  · exact h.walk hP
  · exact h.walk hP

theorem AllRecords.rounds (hP : KeptInTurns c P) {d : Division} {n : Nat}
    (h : AllRecords P d.ueSchedInfoMap) : AllRecords P (d.rounds c n).ueSchedInfoMap := by
  induction n generalizing d with
  | zero => exact h
  | succ n ih =>
      unfold Division.rounds
      dsimp only
      split
      · exact ih (h.round hP)
      · exact h.round hP

/-! ## Grants -/

theorem Steady.keeps_buffers (hP : Steady P) : buffers.Keeps (AllRecords P) where
  dl := by
    intro rnti lcid size ues ues' h hok
    change updateDlRlcBufferInfo rnti lcid size ues = .ok ues' at hok
    unfold updateDlRlcBufferInfo at hok
    split at hok
    · exact pure_eq_ok.1 hok ▸ h
    · obtain ⟨flow, -, hok⟩ := bind_eq_ok.1 hok
      rw [← pure_eq_ok.1 hok]
      exact h.adjust fun ue _ hue => hP.dlFlows _ hue
  ul := by
    intro rnti size ues ues' h hok
    change updateUlRlcBufferInfo rnti size ues = .ok ues' at hok
    unfold updateUlRlcBufferInfo at hok
    split at hok
    · exact pure_eq_ok.1 hok ▸ h
    · obtain ⟨taken, -, hok⟩ := bind_eq_ok.1 hok
      rw [← pure_eq_ok.1 hok]
      exact h.adjust fun ue _ hue => hP.ulFlows _ hue

/-- The grants keep a steady property. -/
theorem grantAll_steady (hP : Steady P) {sfnSf : SfnSf} {rntis : List Nat}
    {d d' : Grants (OrderedMap UeSchedInfo)} (hd : AllRecords P d.buffers)
    (hok : grantAll c sfnSf rntis d = .ok d') : AllRecords P d'.buffers := by
  obtain ⟨dl, hdl, hul⟩ := bind_eq_ok.1 hok
  have hbetween : AllRecords P dl.buffers := by
    refine foldlM_invariant (I := fun d _ => AllRecords P d.buffers) hdl hd ?_
    intro d rnti _ d' hd hstep
    unfold grantDlOf at hstep
    have hstep := blame_eq_ok.1 hstep
    split at hstep
    · exact Grants.keeps_grantDl hP.keeps_buffers hd hstep
    · exact pure_eq_ok.1 hstep ▸ hd
  refine foldlM_invariant (I := fun d _ => AllRecords P d.buffers) hul hbetween ?_
  intro d rnti _ d' hd hstep
  unfold grantUlOf at hstep
  have hstep := blame_eq_ok.1 hstep
  split at hstep
  · exact Grants.keeps_grantUl hP.keeps_buffers hd hstep
  · exact pure_eq_ok.1 hstep ▸ hd

/-! ## Triggers -/

/-- The UEs that something waits for are in the map of the subframe. -/
theorem mem_keys_insertAll {rntis : List Nat} {ueAllocMap : OrderedMap Unit} {rnti : Nat}
    (hmem : rnti ∈ rntis) :
    rnti ∈ (rntis.foldl (fun ues rnti => ues.insertNew rnti ()) ueAllocMap).keys := by
  have hkept : ∀ rntis : List Nat, ∀ ueAllocMap : OrderedMap Unit, rnti ∈ ueAllocMap.keys →
      rnti ∈ (rntis.foldl (fun ues rnti => ues.insertNew rnti ()) ueAllocMap).keys := by
    intro rntis
    induction rntis with
    | nil => exact fun _ h => h
    | cons first rest ih =>
        exact fun ueAllocMap h => ih _ (OrderedMap.mem_keys_insertNew.2 (Or.inr h))
  induction rntis generalizing ueAllocMap with
  | nil => cases hmem
  | cons first rest ih =>
      rcases List.mem_cons.1 hmem with rfl | hrest
      · exact hkept rest _ (OrderedMap.mem_keys_insertNew.2 (Or.inl rfl))
      · exact ih hrest

/-- The records of a collection come from those before, and the UEs for which something waits are
in the map of the subframe. -/
theorem AllRecords.collect {s : FlexTtiPf} {w : Working} {collected : Collected}
    (hw : AllRecords P w.ueSchedInfoMap) (hok : FlexTtiPf.collect c s w = .ok collected)
    (hQ : ∀ rnti ue candidate, w.ueSchedInfoMap.find rnti = some ue → P rnti ue →
      collectUe c s.toPaddedHbf rnti ue = .ok candidate →
      (candidate.waits = true → rnti ∈ collected.ueAllocMap.keys) → Q rnti candidate.ue) :
    AllRecords Q collected.ueSchedInfoMap := by
  obtain ⟨candidates, hcandidates, hok⟩ := bind_eq_ok.1 hok
  obtain rfl := pure_eq_ok.1 hok
  have hkeys := OrderedMap.keys_traverse hcandidates
  refine ⟨by rw [OrderedMap.keys_map_snd, hkeys]; exact hw.nodup, fun rnti ue' hue' => ?_⟩
  rw [OrderedMap.find_map_snd] at hue'
  obtain ⟨candidate, hcandidate, rfl⟩ := Option.map_eq_some_iff.1 hue'
  obtain ⟨ue, hue, hcollect⟩ := OrderedMap.find_of_traverse hcandidates hcandidate
  refine hQ rnti ue candidate hue (hw.each rnti ue hue) hcollect fun hwaits => ?_
  refine mem_keys_insertAll (List.mem_map.2 ⟨(rnti, candidate), ?_, rfl⟩)
  exact List.mem_filter.2 ⟨OrderedMap.mem_of_find hcandidate, hwaits⟩

/-- The records after the division. -/
theorem AllRecords.divideSymbols (hP : KeptInTurns c P) {symAvail : Int} {heap : List Nat}
    {d : Division} (h : AllRecords P ues)
    (hlimit : ∀ rnti ue ue', P rnti ue → ue.limitIab symAvail = .ok ue' → P rnti ue')
    (hok : FlexTtiPf.divideSymbols c symAvail heap ues = .ok d) :
    AllRecords P d.ueSchedInfoMap := by
  obtain ⟨limited, hlimited, hok⟩ := bind_eq_ok.1 hok
  obtain rfl := pure_eq_ok.1 hok
  exact AllRecords.rounds hP (h.limited hlimit hlimited)

end

/-! ## Between the triggers -/

theorem Direction.allocDone_markDone {d : Direction} {iab : Bool} (hd : d.totBuf = 0) :
    (d.markDone iab).allocDone = true := by
  unfold Direction.markDone
  rw [if_pos (Or.inl hd)]

/-- Nobody gets a symbol for whom nothing waits. -/
theorem UeSchedInfo.nextTurn_markDone_eq_none {ue : UeSchedInfo}
    (hue : ∀ mode, (ue.direction mode).totBuf = 0) : ue.markDone.nextTurn = none := by
  have hdl : ue.markDone.dl.allocDone = true := Direction.allocDone_markDone (hue .dl)
  have hul : ue.markDone.ul.allocDone = true := Direction.allocDone_markDone (hue .ul)
  simp [UeSchedInfo.nextTurn, hdl, hul]

/-- A property that the records have between the triggers: a reset gives it, and a record keeps it
as long as nothing waits for its UE. -/
structure Resting (c : FlexTtiConfig) (P : UeSchedInfo → Prop) : Prop where
  steady : Steady fun _ ue => P ue
  reset : ∀ ue : UeSchedInfo, P ue.reset
  idle : ∀ s rnti ue candidate, P ue → collectUe c s rnti ue = .ok candidate →
    candidate.waits = false → P candidate.ue
  limit : ∀ (symAvail : Int) (ue ue' : UeSchedInfo), P ue → ue.limitIab symAvail = .ok ue' → P ue'
  mark : ∀ ue : UeSchedInfo, P ue → P ue.markDone
  noTurn : ∀ ue : UeSchedInfo, P ue → ue.markDone.nextTurn = none

section

variable {P : UeSchedInfo → Prop}

/-- The UEs of the subframe, and the others as they rest. -/
def Allocated (P : UeSchedInfo → Prop) (ueAllocMap : OrderedMap Unit) (rnti : Nat)
    (ue : UeSchedInfo) : Prop :=
  rnti ∈ ueAllocMap.keys ∨ P ue

namespace Resting

theorem steady_allocated (hP : Resting c P) (ueAllocMap : OrderedMap Unit) :
    Steady (Allocated P ueAllocMap) where
  new := fun rnti => Or.inr (hP.steady.new rnti)
  flows := fun rnti ue dlFlows ulFlows h =>
    h.imp_right (hP.steady.flows rnti ue dlFlows ulFlows)
  retx := fun rnti ue dlRetx ulRetx h => h.imp_right (hP.steady.retx rnti ue dlRetx ulRetx)

theorem keptInTurns_allocated (hP : Resting c P) (ueAllocMap : OrderedMap Unit) :
    KeptInTurns c (Allocated P ueAllocMap) where
  mark := fun _ ue h => h.imp_right (hP.mark ue)
  turn := by
    intro rnti ue mode h hturn
    rcases h with hmem | hrests
    · exact Or.inl hmem
    · rw [hP.noTurn ue hrests] at hturn
      cases hturn

theorem collect (hP : Resting c P) {s : FlexTtiPf} {w : Working} {collected : Collected}
    (hw : AllRecords (fun _ ue => P ue) w.ueSchedInfoMap)
    (hok : FlexTtiPf.collect c s w = .ok collected) :
    AllRecords (Allocated P collected.ueAllocMap) collected.ueSchedInfoMap := by
  refine hw.collect hok fun rnti ue candidate _ hue hcollect hwaits => ?_
  cases hwaiting : candidate.waits with
  | false => exact Or.inr (hP.idle _ rnti ue candidate hue hcollect hwaiting)
  | true => exact Or.inl (hwaits hwaiting)

/-- A trigger leaves every record at rest. -/
theorem schedTriggerReq (hP : Resting c P) {s : FlexTtiPf}
    (hs : AllRecords (fun _ ue => P ue) s.ueSchedInfoMap)
    {params : SchedTriggerReqParameters} {result : FlexTtiPf × SchedConfigInd}
    (hok : s.schedTriggerReq c params = .ok result) :
    AllRecords (fun _ ue => P ue) result.1.ueSchedInfoMap := by
  obtain ⟨answered, hanswered, hok⟩ := bind_eq_ok.1 hok
  rcases answer_steady hP.steady hs hanswered with
    ⟨a, rfl, ha, -, hpass⟩ | ⟨next, rfl, hnext, -⟩
  · dsimp only at hok
    split at hok
    · obtain rfl := pure_eq_ok.1 hok
      exact ha.updateAll _ fun rnti ue _ hue => hP.steady.retx rnti ue 0 0 hue
    · obtain ⟨collected, hcollected, hok⟩ := bind_eq_ok.1 hok
      have hbegin := hP.collect (hpass ▸ ha) hcollected
      obtain ⟨divided, hdivided, hok⟩ := bind_eq_ok.1 hok
      have hend : AllRecords (Allocated P collected.ueAllocMap) divided.ueSchedInfoMap :=
        hbegin.divideSymbols (hP.keptInTurns_allocated _)
          (fun _ ue ue' h hlimit => h.imp_right fun hue => hP.limit _ ue ue' hue hlimit) hdivided
      dsimp only at hok
      split at hok
      · rename_i hnobody
        obtain rfl := pure_eq_ok.1 hok
        refine hend.imp fun rnti ue h => h.resolve_left ?_
        rw [hnobody]
        exact List.not_mem_nil
      · obtain ⟨granted, hgranted, hok⟩ := bind_eq_ok.1 hok
        obtain rfl := pure_eq_ok.1 hok
        exact (grantAll_steady (hP.steady_allocated _) hend hgranted).updateAll_of_keys
          fun _ ue => hP.reset ue
  · obtain rfl := pure_eq_ok.1 hok
    exact hnext

/-- Between the triggers of a run every record is at rest. -/
theorem run (hP : Resting c P) (events : List FlexTtiPfEvent) :
    AllRecords (fun _ ue => P ue) (Run.run (TdmaRun.step (FlexTtiPf.handle c))
      { scheduler := start c } events).scheduler.ueSchedInfoMap := by
  refine Run.invariant (I := fun r : TdmaRun FlexTtiPf =>
    AllRecords (fun _ ue => P ue) r.scheduler.ueSchedInfoMap) (fun r event hr => ?_)
    ⟨List.nodup_nil, fun _ _ hfind => by cases hfind⟩
  unfold TdmaRun.step
  split
  · exact hr
  split
  · rename_i result hok
    by_cases htrigger : ∃ params, event = .schedTriggerReq params
    · obtain ⟨params, rfl⟩ := htrigger
      obtain ⟨next, hnext, rfl⟩ := map_eq_ok.1 hok
      exact hP.schedTriggerReq hr hnext
    · exact (handle_steady hP.steady hr (fun params heq => htrigger ⟨params, heq⟩) hok).1
  · exact hr

end Resting

end

end FlexTtiPf

end NtnIab.Mmwave
