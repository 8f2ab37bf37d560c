import NtnIab.Mmwave.PaddedHbfHarq

/-!
# What the passes over the retransmissions do

The result of each step of the two passes, if there is one: of an element of the feedback, of a
block that is sent again, and of a round of a loop. What holds of the passes is shown from these,
and not from the definitions.
-/

namespace NtnIab.Mmwave

open Fallible

variable {c : PaddedHbfConfig}

/-! ## Feedback -/

/-- A block that may be sent again: its process is active, with the redundancy version of its
status, which is not the last one. -/
structure Live (status : OrderedMap (List Nat)) (dcis : OrderedMap (List DciInfoElementTdma))
    (rnti id : Nat) (dci : DciInfoElementTdma) : Prop where
  sent : processOf status rnti id = some (dci.rv + 1)
  stored : processOf dcis rnti id = some dci
  retxLeft : dci.rv ≠ 3

/-- A downlink NACK for a live block of a UE whose CQI is in range. -/
def LiveDlNack (wbCqiRxed : OrderedMap Nat) (h : HarqProcesses) (info : DlHarqInfo)
    (dci : DciInfoElementTdma) : Prop :=
  info.harqStatus = .nack ∧ wbCqiRxed.find info.rnti ≠ some 0 ∧
    Live h.dlHarqProcessesStatus h.dlHarqProcessesDciInfoMap info.rnti info.harqProcessId dci

/-- An uplink NACK for a live block. -/
def LiveUlNack (h : HarqProcesses) (info : UlHarqInfo) (dci : DciInfoElementTdma) : Prop :=
  info.receptionStatus = .notOk ∧
    Live h.ulHarqProcessesStatus h.ulHarqProcessesDciInfoMap info.rnti info.harqProcessId dci

instance Live.decidable {status : OrderedMap (List Nat)}
    {dcis : OrderedMap (List DciInfoElementTdma)} {rnti id : Nat} {dci : DciInfoElementTdma} :
    Decidable (Live status dcis rnti id dci) :=
  decidable_of_iff (processOf status rnti id = some (dci.rv + 1) ∧
    processOf dcis rnti id = some dci ∧ dci.rv ≠ 3)
    ⟨fun h => ⟨h.1, h.2.1, h.2.2⟩, fun h => ⟨h.sent, h.stored, h.retxLeft⟩⟩

/-- Only the block that is stored can be live. -/
instance LiveDlNack.decidableExists {wbCqiRxed : OrderedMap Nat} {h : HarqProcesses}
    {info : DlHarqInfo} : Decidable (∃ dci, LiveDlNack wbCqiRxed h info dci) :=
  decidable_of_iff (∃ dci ∈ (processOf h.dlHarqProcessesDciInfoMap info.rnti
    info.harqProcessId).toList, info.harqStatus = .nack ∧ wbCqiRxed.find info.rnti ≠ some 0 ∧
      Live h.dlHarqProcessesStatus h.dlHarqProcessesDciInfoMap info.rnti info.harqProcessId dci)
    ⟨fun ⟨dci, _, hlive⟩ => ⟨dci, hlive⟩,
      fun ⟨dci, hlive⟩ => ⟨dci, Option.mem_toList.2 hlive.2.2.stored, hlive⟩⟩

instance LiveUlNack.decidableExists {h : HarqProcesses} {info : UlHarqInfo} :
    Decidable (∃ dci, LiveUlNack h info dci) :=
  decidable_of_iff (∃ dci ∈ (processOf h.ulHarqProcessesDciInfoMap info.rnti
    info.harqProcessId).toList, info.receptionStatus = .notOk ∧
      Live h.ulHarqProcessesStatus h.ulHarqProcessesDciInfoMap info.rnti info.harqProcessId dci)
    ⟨fun ⟨dci, _, hlive⟩ => ⟨dci, hlive⟩,
      fun ⟨dci, hlive⟩ => ⟨dci, Option.mem_toList.2 hlive.2.stored, hlive⟩⟩

theorem retxMcs_eq_none_iff {wbCqiRxed : OrderedMap Nat} {rnti mcs : Nat} :
    retxMcs c wbCqiRxed rnti mcs = none ↔ wbCqiRxed.find rnti = some 0 := by
  unfold retxMcs
  cases wbCqiRxed.find rnti with
  | none => simp
  | some cqi =>
      by_cases hcqi : cqi = 0
      · simp [hcqi]
      · simp [hcqi]

/-- Downlink feedback resets its process, unless it is a NACK for a live block: then the block may
get a lower MCS, and it is noted with its length. -/
theorem dlFeedback_ok {wbCqiRxed : OrderedMap Nat} {f f' : Feedback} {info : DlHarqInfo × Nat}
    (hok : dlFeedback c wbCqiRxed f info = .ok f') :
    ((∀ dci, ¬LiveDlNack wbCqiRxed f.1 info.1 dci) ∧
      f' = (f.1.resetDl info.1.rnti info.1.harqProcessId, f.2)) ∨
    (∃ dci mcsNew, LiveDlNack wbCqiRxed f.1 info.1 dci ∧ dci.harqProcess = info.1.harqProcessId ∧
      f' = ({ f.1 with
          dlHarqProcessesDciInfoMap := setProcess f.1.dlHarqProcessesDciInfoMap info.1.rnti
            info.1.harqProcessId (lowerMcs c mcsNew dci) },
        insertSorted ((lowerMcs c mcsNew dci).numSym, info.2) f.2)) := by
  unfold dlFeedback at hok
  simp only [bind_eq_ok, lookUp_eq_ok, elementAt_eq_ok] at hok
  obtain ⟨status, hstatus, pdus, -, count, hcount, -, -, hok⟩ := hok
  have hsent : processOf f.1.dlHarqProcessesStatus info.1.rnti info.1.harqProcessId = some count :=
    processOf_eq_some_iff.2 ⟨status, hstatus, hcount⟩
  split at hok
  · rename_i hreset
    refine Or.inl ⟨?_, (Except.ok.inj hok).symm⟩
    rintro dci ⟨hnack, -, hlive⟩
    rcases hreset with hack | hzero
    · rw [hnack] at hack
      cases hack
    · have := hlive.sent
      rw [hsent, hzero] at this
      cases this
  · rename_i hnack
    simp only [bind_eq_ok, lookUp_eq_ok, elementAt_eq_ok, assert_eq_ok] at hok
    obtain ⟨dcis, hdcis, dci, hdci, -, hid, hok⟩ := hok
    have hstored : processOf f.1.dlHarqProcessesDciInfoMap info.1.rnti info.1.harqProcessId =
        some dci := processOf_eq_some_iff.2 ⟨dcis, hdcis, hdci⟩
    -- the live block could only be the one that is stored
    have hsame : ∀ {dci'}, LiveDlNack wbCqiRxed f.1 info.1 dci' → dci' = dci := by
      rintro dci' ⟨-, -, hlive⟩
      exact Option.some.inj (hlive.stored.symm.trans hstored)
    split at hok
    · rename_i hrv
      refine Or.inl ⟨fun dci' hlive => ?_, (Except.ok.inj hok).symm⟩
      obtain rfl := hsame hlive
      have := hlive.2.2.sent
      rw [hsent] at this
      exact hrv (by rw [Option.some.inj this, Nat.add_sub_cancel])
    · rename_i hrv
      split at hok
      · rename_i hlast
        refine Or.inl ⟨fun dci' hlive => ?_, (Except.ok.inj hok).symm⟩
        obtain rfl := hsame hlive
        exact hlive.2.2.retxLeft hlast
      · rename_i hleft
        split at hok
        · rename_i hnone
          refine Or.inl ⟨fun dci' hlive => ?_, (Except.ok.inj hok).symm⟩
          exact hlive.2.1 (retxMcs_eq_none_iff.1 hnone)
        · rename_i mcsNew hsome
          refine Or.inr ⟨dci, mcsNew, ⟨?_, ?_, ?_, hstored, hleft⟩, hid.symm,
            (Except.ok.inj hok).symm⟩
          · cases hstat : info.1.harqStatus with
            | nack => rfl
            | ack => exact absurd (Or.inl hstat) hnack
          · intro hzero
            rw [retxMcs_eq_none_iff.2 hzero] at hsome
            cases hsome
          · rw [hsent]
            have : count ≠ 0 := fun hzero => hnack (Or.inr hzero)
            exact congrArg some (by omega)

/-- Uplink feedback does nothing, or it resets its process, or it is a NACK for a live block,
which is noted with its length. -/
theorem ulFeedback_ok {f f' : Feedback} {info : UlHarqInfo × Nat}
    (hok : ulFeedback f info = .ok f') :
    ((∀ dci, ¬LiveUlNack f.1 info.1 dci) ∧
      (f' = f ∨ f' = (f.1.resetUl info.1.rnti info.1.harqProcessId, f.2))) ∨
    (∃ dci, LiveUlNack f.1 info.1 dci ∧ dci.harqProcess = info.1.harqProcessId ∧
      f' = (f.1, insertSorted (dci.numSym, info.2) f.2)) := by
  unfold ulFeedback at hok
  split at hok
  · rename_i hstat
    refine Or.inl ⟨fun dci hlive => ?_, ?_⟩
    · have hnack := hlive.1
      rw [hstat] at hnack
      cases hnack
    · simp only at hok
      split at hok
      · exact Or.inl (Except.ok.inj hok).symm
      · simp only [bind_eq_ok] at hok
        obtain ⟨-, -, hok⟩ := hok
        exact Or.inr (Except.ok.inj hok).symm
  · simp only [bind_eq_ok, lookUp_eq_ok, elementAt_eq_ok] at hok
    obtain ⟨status, hstatus, count, hcount, hok⟩ := hok
    have hsent : processOf f.1.ulHarqProcessesStatus info.1.rnti info.1.harqProcessId =
        some count := processOf_eq_some_iff.2 ⟨status, hstatus, hcount⟩
    split at hok
    · rename_i hzero
      refine Or.inl ⟨fun dci hlive => ?_, Or.inr (Except.ok.inj hok).symm⟩
      have := hlive.2.sent
      rw [hsent, hzero] at this
      cases this
    · rename_i hpos
      split at hok
      · rename_i hnack
        simp only [bind_eq_ok, lookUp_eq_ok, elementAt_eq_ok, assert_eq_ok] at hok
        obtain ⟨dcis, hdcis, dci, hdci, -, hid, hok⟩ := hok
        have hstored : processOf f.1.ulHarqProcessesDciInfoMap info.1.rnti info.1.harqProcessId =
            some dci := processOf_eq_some_iff.2 ⟨dcis, hdcis, hdci⟩
        have hsame : ∀ {dci'}, LiveUlNack f.1 info.1 dci' → dci' = dci := by
          rintro dci' ⟨-, hlive⟩
          exact Option.some.inj (hlive.stored.symm.trans hstored)
        split at hok
        · rename_i hrv
          refine Or.inl ⟨fun dci' hlive => ?_, Or.inr (Except.ok.inj hok).symm⟩
          obtain rfl := hsame hlive
          have := hlive.2.sent
          rw [hsent] at this
          exact hrv (by rw [Option.some.inj this, Nat.add_sub_cancel])
        · rename_i hrv
          split at hok
          · rename_i hlast
            refine Or.inl ⟨fun dci' hlive => ?_, Or.inr (Except.ok.inj hok).symm⟩
            obtain rfl := hsame hlive
            exact hlive.2.retxLeft hlast
          · rename_i hleft
            refine Or.inr ⟨dci, ⟨hnack, ?_, hstored, hleft⟩, hid.symm, (Except.ok.inj hok).symm⟩
            rw [hsent]
            exact congrArg some (by omega)
      · rename_i hnack
        exact Or.inl ⟨fun dci hlive => hnack hlive.1, Or.inl (Except.ok.inj hok).symm⟩

/-- What every element of the feedback preserves, the whole feedback preserves. -/
theorem feedback_invariant {Info : Type} {infos : List Info}
    {step : Feedback → Info × Nat → Except Fault Feedback} {I : Feedback → Prop}
    {f f' : Feedback} (hok : infos.zipIdx.foldlM step f = .ok f') (hf : I f)
    (hstep : ∀ f info i f', infos[i]? = some info → I f → step f (info, i) = .ok f' → I f') :
    I f' := by
  refine (foldlM_invariant (I := fun f rest => (∀ entry ∈ rest, entry ∈ infos.zipIdx) ∧ I f) hok
    ⟨fun _ h => h, hf⟩ ?_).2
  intro f entry rest f' ⟨hmem, hI⟩ hentry
  refine ⟨fun other hother => hmem other (List.mem_cons_of_mem _ hother), ?_⟩
  have hinfo := List.mem_zipIdx_iff_getElem?.1 (hmem entry List.mem_cons_self)
  exact hstep f entry.1 entry.2 f' hinfo hI hentry

/-- What every element of the feedback preserves, given the elements before it, holds after the
whole feedback. -/
theorem feedback_loop {Info : Type} {infos : List Info}
    {step : Feedback → Info × Nat → Except Fault Feedback} {I : Feedback → List Info → Prop}
    {f f' : Feedback} (hok : infos.zipIdx.foldlM step f = .ok f') (hf : I f [])
    (hstep : ∀ f done info rest f', infos = done ++ info :: rest → I f done →
      step f (info, done.length) = .ok f' → I f' (done ++ [info])) : I f' infos := by
  obtain ⟨done, rest, hinfos, hnil, hI⟩ := foldlM_invariant (I := fun f entries =>
    ∃ done rest, infos = done ++ rest ∧ entries = rest.zipIdx done.length ∧ I f done) hok
    ⟨[], infos, rfl, rfl, hf⟩ fun f entry entries f' ⟨done, rest, hinfos, hentries, hI⟩ hentry => by
      cases rest with
      | nil => cases hentries
      | cons info rest =>
          rw [List.zipIdx_cons] at hentries
          obtain ⟨rfl, rfl⟩ := List.cons.inj hentries
          refine ⟨done ++ [info], rest, by simp [hinfos], ?_, hstep f done info rest f' hinfos hI hentry⟩
          rw [List.length_append]
          rfl
  have hrest : rest = [] := by
    cases rest with
    | nil => rfl
    | cons info rest => cases hnil
  rw [hinfos, hrest, List.append_nil]
  exact hI

theorem insertSorted_perm (x : Nat × Nat) (sorted : List (Nat × Nat)) :
    (insertSorted x sorted).Perm (x :: sorted) := by
  induction sorted with
  | nil => exact List.Perm.refl _
  | cons y rest ih =>
      unfold insertSorted
      split
      · exact (ih.cons y).trans (List.Perm.swap x y rest)
      · exact List.Perm.refl _

theorem mem_insertSorted {x y : Nat × Nat} {sorted : List (Nat × Nat)} :
    y ∈ insertSorted x sorted ↔ y = x ∨ y ∈ sorted :=
  (insertSorted_perm x sorted).mem_iff.trans List.mem_cons

/-! ## Blocks that are sent again -/

namespace Placement

variable {p p' : Placement} {numSym : Nat}

theorem openDlBlock_ok (hok : p.openDlBlock c numSym = .ok p') :
    (p.layerIdx = 0 ∧ p' = { p with futureNextSymAvail := (p.nextSymAvail + numSym) % 2 ^ 32 }) ∨
    (p.layerIdx ≠ 0 ∧ numSym ≤ sub32 p.futureNextSymAvail p.nextSymAvail ∧ p' = p) := by
  unfold openDlBlock at hok
  split at hok
  · rename_i hlayer
    simp only [bind_eq_ok] at hok
    obtain ⟨-, -, hok⟩ := hok
    exact Or.inl ⟨hlayer, (Except.ok.inj hok).symm⟩
  · rename_i hlayer
    simp only [bind_eq_ok, assert_eq_ok] at hok
    obtain ⟨-, hfits, hok⟩ := hok
    exact Or.inr ⟨hlayer, hfits, (Except.ok.inj hok).symm⟩

theorem openUlBlock_ok (hok : p.openUlBlock numSym = .ok p') :
    (p.layerIdx = 0 ∧ numSym ≤ p.lastSymAvail ∧
      p' = { p with futureLastSymAvail := p.lastSymAvail - numSym }) ∨
    (p.layerIdx ≠ 0 ∧ p' = p) := by
  unfold openUlBlock at hok
  split at hok
  · rename_i hlayer
    simp only [bind_eq_ok, assert_eq_ok] at hok
    obtain ⟨-, hfits, hok⟩ := hok
    exact Or.inl ⟨hlayer, hfits, (Except.ok.inj hok).symm⟩
  · rename_i hlayer
    simp only [bind_eq_ok] at hok
    obtain ⟨-, -, hok⟩ := hok
    exact Or.inr ⟨hlayer, (Except.ok.inj hok).symm⟩

end Placement

namespace Retx

section
variable {Info : Type} {r : Retx Info} {rnti : Nat}

@[simp] theorem visitUe_harq : (r.visitUe rnti).harq = r.harq := by
  unfold visitUe
  split <;> rfl

@[simp] theorem visitUe_placement : (r.visitUe rnti).placement = r.placement := by
  unfold visitUe
  split <;> rfl

@[simp] theorem visitUe_sortedHarqRetx :
    (r.visitUe rnti).sortedHarqRetx = r.sortedHarqRetx := by
  unfold visitUe
  split <;> rfl

@[simp] theorem visitUe_infoListUntxed :
    (r.visitUe rnti).infoListUntxed = r.infoListUntxed := by
  unfold visitUe
  split <;> rfl

end

variable {rnti harqId : Nat} {dci : DciInfoElementTdma}

/-- The slot of a downlink block that is sent again. -/
def dlSlot (itUeInfo : Option Nat) (dci : DciInfoElementTdma) (pdus : List RlcPduInfo)
    (p : Placement) : SlotAllocInfo where
  slotIdx := p.tempDlslotIdx
  tddMode := .dl
  slotType := .ctrlData
  rnti := itUeInfo
  layerInd := p.layerIdx
  dci := dci.again p.layerIdx p.nextSymAvail
  rlcPduInfo := pdus

/-- The slot of an uplink block that is sent again. -/
def ulSlot (itUeInfo : Option Nat) (dci : DciInfoElementTdma) (p : Placement) : SlotAllocInfo where
  slotIdx := p.tempUlSlotIdx
  tddMode := .ul
  slotType := .ctrlData
  rnti := itUeInfo
  layerInd := p.layerIdx
  dci := dci.again p.layerIdx (p.futureLastSymAvail + 1)

theorem placeDl_ok {r r' : Retx DlHarqInfo} (hok : r.placeDl c rnti harqId dci = .ok r') :
    ∃ p count pdus, r.placement.openDlBlock c dci.numSym = .ok p ∧
      processOf r.harq.dlHarqProcessesStatus rnti harqId = some count ∧
      processOf r.harq.dlHarqProcessesRlcPduMap rnti dci.harqProcess = some pdus ∧
      r'.harq = r.harq.sendDlAgain rnti harqId count (dci.again p.layerIdx p.nextSymAvail) ∧
      r'.placement =
        (p.takeDl.pushDl p.layerIdx (dlSlot r.itUeInfo dci pdus p)).nextDlLayer c rnti ∧
      r'.sortedHarqRetx = r.sortedHarqRetx ∧ r'.infoListUntxed = r.infoListUntxed := by
  unfold placeDl at hok
  simp only [bind_eq_ok, lookUp_eq_ok, elementAt_eq_ok] at hok
  obtain ⟨p, hp, status, hstatus, count, hcount, lists, hlists, pdus, hpdus, hok⟩ := hok
  obtain rfl := Except.ok.inj hok
  refine ⟨p, count, pdus, hp, processOf_eq_some_iff.2 ⟨status, hstatus, hcount⟩,
    processOf_eq_some_iff.2 ⟨lists, hlists, hpdus⟩, ?_⟩
  exact ⟨visitUe_harq, visitUe_placement, visitUe_sortedHarqRetx, visitUe_infoListUntxed⟩

theorem placeUl_ok {r r' : Retx UlHarqInfo} (hok : r.placeUl c rnti harqId dci = .ok r') :
    ∃ p count, r.placement.openUlBlock dci.numSym = .ok p ∧
      processOf r.harq.ulHarqProcessesStatus rnti harqId = some count ∧
      r'.harq =
        r.harq.sendUlAgain rnti harqId count (dci.again p.layerIdx (p.futureLastSymAvail + 1)) ∧
      r'.placement =
        (p.takeUl.pushUl p.layerIdx (ulSlot r.itUeInfo dci p)).nextUlLayer c rnti ∧
      r'.sortedHarqRetx = r.sortedHarqRetx ∧ r'.infoListUntxed = r.infoListUntxed := by
  unfold placeUl at hok
  simp only [bind_eq_ok, lookUp_eq_ok, elementAt_eq_ok] at hok
  obtain ⟨p, hp, status, hstatus, count, hcount, hok⟩ := hok
  obtain rfl := Except.ok.inj hok
  refine ⟨p, count, hp, processOf_eq_some_iff.2 ⟨status, hstatus, hcount⟩, ?_⟩
  exact ⟨visitUe_harq, visitUe_placement, visitUe_sortedHarqRetx, visitUe_infoListUntxed⟩

end Retx

/-! ## Rounds -/

namespace RetxLoop

variable {Info : Type} {loop : RetxLoop Info} {infos : List Info} {r r' : Retx Info}

/-- Only the placement may change, by the end of a block. -/
theorem skip_eq (loop : RetxLoop Info) (infos : List Info) (r : Retx Info) :
    ∃ p, (loop.skip infos r).2 = { r with placement := p } ∧
    (p = r.placement ∨ p = loop.closeBlock r.placement) := by
  unfold skip
  simp only
  split
  · exact ⟨r.placement, rfl, Or.inl rfl⟩
  · exact ⟨_, rfl, Or.inr rfl⟩

/-- The retransmission that is taken is one of a UE that has none in the block. -/
theorem skip_free (loop : RetxLoop Info) (infos : List Info) (r : Retx Info)
    (hclose : ∀ p, (loop.closeBlock p).setUeInCurrentSymbolBlock = [])
    {x : Nat × Nat} {info : Info}
    (hx : (loop.skip infos r).2.sortedHarqRetx[(loop.skip infos r).1]? = some x)
    (hinfo : infos[x.2]? = some info) :
    loop.rnti info ∉ (loop.skip infos r).2.placement.setUeInCurrentSymbolBlock := by
  unfold skip at hx ⊢
  simp only at hx ⊢
  split
  · rename_i k hk
    rw [hk] at hx
    obtain ⟨hlt, hfree, -⟩ := List.findIdx?_eq_some_iff_getElem.1 hk
    rw [List.getElem?_eq_getElem hlt] at hx
    rw [Option.some.inj hx, hinfo] at hfree
    simpa using hfree
  · rw [hclose]
    exact List.not_mem_nil

/-- The result of a round: the loop ends because no symbols are left, or the retransmission is
placed, or its feedback is kept. -/
theorem round_ok {goesOn : Bool} (hok : loop.round infos r = .ok (goesOn, r')) :
    ∃ k p x info dci, (p = r.placement ∨ p = loop.closeBlock r.placement) ∧
      loop.skip infos r = (k, { r with placement := p }) ∧ r.sortedHarqRetx[k]? = some x ∧
      infos[x.2]? = some info ∧
      processOf (loop.dciInfoMap r.harq) (loop.rnti info) (loop.harqProcessId info) = some dci ∧
      ((goesOn = false ∧ p.symAvail = 0 ∧ r' = { r with placement := p }) ∨
        (goesOn = true ∧ p.symAvail ≠ 0 ∧
          ((loop.fits dci p ∧ ∃ placed,
              loop.place (loop.rnti info) (loop.harqProcessId info) dci
                { r with placement := p } = .ok placed ∧
              r' = { placed with sortedHarqRetx := placed.sortedHarqRetx.eraseIdx k }) ∨
            (loop.fits dci p = false ∧
              r' = { r with
                placement := p
                infoListUntxed := r.infoListUntxed ++ [info]
                sortedHarqRetx := r.sortedHarqRetx.eraseIdx k })))) := by
  unfold round at hok
  obtain ⟨p, hskip, hp⟩ := skip_eq loop infos r
  simp only [hskip, bind_eq_ok, lookUp_eq_ok, elementAt_eq_ok] at hok
  obtain ⟨x, hx, info, hinfo, dcis, hdcis, dci, hdci, hok⟩ := hok
  refine ⟨_, p, x, info, dci, hp, Prod.ext rfl hskip, hx, hinfo,
    processOf_eq_some_iff.2 ⟨dcis, hdcis, hdci⟩, ?_⟩
  split at hok
  · rename_i hempty
    have hok := Except.ok.inj hok
    exact Or.inl ⟨(congrArg Prod.fst hok).symm, hempty, (congrArg Prod.snd hok).symm⟩
  · rename_i hleft
    split at hok
    · rename_i hfits
      simp only [bind_eq_ok] at hok
      obtain ⟨placed, hplaced, hok⟩ := hok
      have hok := Except.ok.inj hok
      exact Or.inr ⟨(congrArg Prod.fst hok).symm, hleft,
        Or.inl ⟨hfits, placed, hplaced, (congrArg Prod.snd hok).symm⟩⟩
    · rename_i hfits
      simp only [bind_eq_ok, pure_eq_ok] at hok
      obtain ⟨kept, hkept, hok⟩ := hok
      subst hkept
      exact Or.inr ⟨(congrArg Prod.fst hok).symm, hleft,
        Or.inr ⟨Bool.eq_false_iff.2 hfits, (congrArg Prod.snd hok).symm⟩⟩

/-- What a round preserves, the rounds preserve. -/
theorem rounds_invariant {I : Retx Info → Prop} {n : Nat}
    (hrounds : loop.rounds infos n r = .ok r') (hr : I r)
    (hround : ∀ r goesOn r', I r → loop.round infos r = .ok (goesOn, r') → I r') : I r' := by
  induction n generalizing r with
  | zero =>
      obtain rfl := Except.ok.inj hrounds
      exact hr
  | succ n ih =>
      unfold rounds at hrounds
      simp only [bind_eq_ok] at hrounds
      obtain ⟨⟨goesOn, s⟩, hs, hrest⟩ := hrounds
      have hI := hround r goesOn s hr hs
      cases goesOn with
      | true => exact ih hrest hI
      | false =>
          obtain rfl := Except.ok.inj hrest
          exact hI

end RetxLoop

/-- The uplink loop has no round or one. -/
theorem ulLoop_ok {infos : List UlHarqInfo} {r r' : Retx UlHarqInfo}
    (hok : ulLoop c infos r = .ok r') :
    (r.sortedHarqRetx = [] ∧ r' = r) ∨
      ∃ goesOn, (ulRetx c).round infos r = .ok (goesOn, r') := by
  unfold ulLoop at hok
  cases hsorted : r.sortedHarqRetx with
  | nil =>
      rw [hsorted] at hok
      exact Or.inl ⟨rfl, (Except.ok.inj hok).symm⟩
  | cons x rest =>
      rw [hsorted, List.length_cons, Nat.min_eq_left (by omega)] at hok
      unfold RetxLoop.rounds at hok
      simp only [bind_eq_ok] at hok
      obtain ⟨⟨goesOn, s⟩, hround, hrest⟩ := hok
      refine Or.inr ⟨goesOn, ?_⟩
      cases goesOn with
      | true => exact Except.ok.inj hrest ▸ hround
      | false => exact Except.ok.inj hrest ▸ hround

end NtnIab.Mmwave
