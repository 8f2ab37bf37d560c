import NtnIab.Mmwave.HarqConsistency

/-!
# Lookups that succeed

A trigger that only hears of configured UEs, and of processes that they have, reads no entry of a
map that is not there and reaches no fatal error. What else may stop it is an assertion that does
not hold, or a loop that does not end.

## Strategy

The maps have the same UEs with the same number of processes, whatever has been done in the
trigger. So the lookups for a configured UE succeed in every step, and it remains to show that all
the steps are about configured UEs.
-/

namespace NtnIab.Mmwave

open Fallible

/-- A fault other than a fatal error and a missing entry. -/
def Benign (fault : Fault) : Prop := fault ≠ .fatalError ∧ fault ≠ .absent

theorem benign_assertion : Benign .assertion := ⟨nofun, nofun⟩

theorem benign_endless : Benign .endless := ⟨nofun, nofun⟩

theorem yields_assert (condition : Prop) [Decidable condition] :
    Yields Benign (fun _ => condition) (assert condition) := by
  unfold assert
  split
  · assumption
  · exact benign_assertion

section
variable {α : Type} {fault : Fault} {m : OrderedMap (List α)} {n rnti i : Nat} {elements : List α}
  {E : Fault → Prop}

theorem yields_lookUp (hshape : shape m rnti = some n) :
    Yields E (fun elements => elements.length = n) (lookUp fault m rnti) := by
  obtain ⟨elements, hfind, hlength⟩ := Option.map_eq_some_iff.1 hshape
  unfold lookUp
  rw [hfind]
  exact hlength

theorem yields_elementAt (hi : i < elements.length) :
    Yields E (fun _ => True) (elementAt elements i) := by
  unfold elementAt
  rw [List.getElem?_eq_getElem hi]
  trivial

end

/-! ## UEs with processes -/

namespace HarqProcesses

/-- Every map has `n` processes of a UE. -/
def Has (n : Nat) (h : HarqProcesses) (rnti : Nat) : Prop :=
  h.shapes rnti = List.replicate 7 (some n)

/-- The scheduler has processes for a UE. -/
def Configured (h : HarqProcesses) (rnti : Nat) : Prop :=
  (h.dlHarqProcessesStatus.find rnti).isSome

instance {h : HarqProcesses} {rnti : Nat} : Decidable (h.Configured rnti) :=
  inferInstanceAs (Decidable ((h.dlHarqProcessesStatus.find rnti).isSome = true))

variable {h h' : HarqProcesses} {n rnti : Nat}

theorem Shaped.has (hh : h.Shaped n) (hrnti : h.Configured rnti) : h.Has n rnti := by
  rcases hh rnti with hall | hnone
  · exact hall
  · have hstatus : shape h.dlHarqProcessesStatus rnti = none := congrArg (·.getD 0 none) hnone
    unfold Configured at hrnti
    rw [Option.map_eq_none_iff.1 hstatus] at hrnti
    cases hrnti

/-- The timers have the shape of the status, and all of them have `n` processes. -/
theorem Shaped.dlTimer_shape (hh : h.Shaped n) (rnti : Nat) :
    shape h.dlHarqProcessesTimer rnti = shape h.dlHarqProcessesStatus rnti ∧
      ∀ m, shape h.dlHarqProcessesTimer rnti = some m → m = n := by
  rcases hh rnti with hall | hnone
  · have htimer : shape h.dlHarqProcessesTimer rnti = some n := congrArg (·.getD 1 none) hall
    have hstatus : shape h.dlHarqProcessesStatus rnti = some n := congrArg (·.getD 0 none) hall
    exact ⟨htimer.trans hstatus.symm, fun m hm => Option.some.inj (hm.symm.trans htimer)⟩
  · have htimer : shape h.dlHarqProcessesTimer rnti = none := congrArg (·.getD 1 none) hnone
    have hstatus : shape h.dlHarqProcessesStatus rnti = none := congrArg (·.getD 0 none) hnone
    exact ⟨htimer.trans hstatus.symm, fun m hm => nomatch hm.symm.trans htimer⟩

theorem Shaped.ulTimer_shape (hh : h.Shaped n) (rnti : Nat) :
    shape h.ulHarqProcessesTimer rnti = shape h.ulHarqProcessesStatus rnti ∧
      ∀ m, shape h.ulHarqProcessesTimer rnti = some m → m = n := by
  rcases hh rnti with hall | hnone
  · have htimer : shape h.ulHarqProcessesTimer rnti = some n := congrArg (·.getD 5 none) hall
    have hstatus : shape h.ulHarqProcessesStatus rnti = some n := congrArg (·.getD 4 none) hall
    exact ⟨htimer.trans hstatus.symm, fun m hm => Option.some.inj (hm.symm.trans htimer)⟩
  · have htimer : shape h.ulHarqProcessesTimer rnti = none := congrArg (·.getD 5 none) hnone
    have hstatus : shape h.ulHarqProcessesStatus rnti = none := congrArg (·.getD 4 none) hnone
    exact ⟨htimer.trans hstatus.symm, fun m hm => nomatch hm.symm.trans htimer⟩

/-- A UE that is not configured has no processes in the uplink either. -/
theorem Shaped.ulStatus_none (hh : h.Shaped n) (hrnti : ¬h.Configured rnti) :
    shape h.ulHarqProcessesStatus rnti = none := by
  rcases hh rnti with hall | hnone
  · refine absurd ?_ hrnti
    have hstatus : shape h.dlHarqProcessesStatus rnti = some n := congrArg (·.getD 0 none) hall
    obtain ⟨status, hfind, -⟩ := Option.map_eq_some_iff.1 hstatus
    exact Option.isSome_iff_exists.2 ⟨status, hfind⟩
  · exact congrArg (·.getD 4 none) hnone

/-- The timers have entries for the same UEs, in the same order. -/
theorem timer_keys_of_outlines (houtlines : h'.outlines = h.outlines) :
    h'.dlHarqProcessesTimer.keys = h.dlHarqProcessesTimer.keys ∧
      h'.ulHarqProcessesTimer.keys = h.ulHarqProcessesTimer.keys := by
  have hdl : outline h'.dlHarqProcessesTimer = outline h.dlHarqProcessesTimer :=
    congrArg (·.getD 1 []) houtlines
  have hul : outline h'.ulHarqProcessesTimer = outline h.ulHarqProcessesTimer :=
    congrArg (·.getD 5 []) houtlines
  exact ⟨by rw [keys_eq_keys_outline, hdl, ← keys_eq_keys_outline],
    by rw [keys_eq_keys_outline, hul, ← keys_eq_keys_outline]⟩

theorem Has.of_outlines (hh : h.Has n rnti) (houtlines : h'.outlines = h.outlines) :
    h'.Has n rnti := by
  unfold Has
  rw [shapes_of_outlines houtlines]
  exact hh

theorem Has.dlStatus (hh : h.Has n rnti) : shape h.dlHarqProcessesStatus rnti = some n :=
  congrArg (·.getD 0 none) hh

theorem Has.dlTimer (hh : h.Has n rnti) : shape h.dlHarqProcessesTimer rnti = some n :=
  congrArg (·.getD 1 none) hh

theorem Has.dlDcis (hh : h.Has n rnti) : shape h.dlHarqProcessesDciInfoMap rnti = some n :=
  congrArg (·.getD 2 none) hh

theorem Has.dlPdus (hh : h.Has n rnti) : shape h.dlHarqProcessesRlcPduMap rnti = some n :=
  congrArg (·.getD 3 none) hh

theorem Has.ulStatus (hh : h.Has n rnti) : shape h.ulHarqProcessesStatus rnti = some n :=
  congrArg (·.getD 4 none) hh

theorem Has.ulTimer (hh : h.Has n rnti) : shape h.ulHarqProcessesTimer rnti = some n :=
  congrArg (·.getD 5 none) hh

theorem Has.ulDcis (hh : h.Has n rnti) : shape h.ulHarqProcessesDciInfoMap rnti = some n :=
  congrArg (·.getD 6 none) hh

end HarqProcesses

open HarqProcesses

/-! ## Timers -/

/-- A timer that is in a map of the same shape as the status is looked at without a fault. -/
theorem yields_tick {E : Fault → Prop} {m : MmWavePhyMacCommon}
    {timers status : OrderedMap (List Nat)} (hkeys : timers.keys.Nodup)
    (hshape : ∀ rnti, shape timers rnti = shape status rnti)
    (hlength : ∀ rnti n, shape timers rnti = some n → n = m.numHarqProcess) :
    Yields E (fun _ => True) (tick m timers status) := by
  unfold tick
  refine (yields_foldlM (I := fun maps rest =>
    (∀ entry ∈ rest, entry ∈ timers) ∧ shape maps.2 = shape status) ⟨fun _ h => h, rfl⟩ ?_).imp
    fun _ _ => trivial
  intro maps entry rest ⟨hmem, hstatus⟩
  have hentry := hmem entry List.mem_cons_self
  have htimers : shape timers entry.1 = some entry.2.length := by
    unfold shape
    rw [OrderedMap.find_of_mem hkeys hentry]
    rfl
  have hn := hlength _ _ htimers
  refine (yields_foldlM (I := fun maps rest =>
    (∀ i ∈ rest, i < m.numHarqProcess) ∧ shape maps.2 = shape status)
    ⟨fun i hi => List.mem_range.1 hi, hstatus⟩ ?_).imp
    fun _ hI => ⟨fun other hother => hmem other (List.mem_cons_of_mem _ hother), hI.2⟩
  intro maps i rest ⟨hi, hstatus⟩
  have hi' := hi i List.mem_cons_self
  have hrest : ∀ j ∈ rest, j < m.numHarqProcess := fun j hj => hi j (List.mem_cons_of_mem _ hj)
  unfold tickProcess
  refine (yields_elementAt (by omega)).bind fun timer _ => ?_
  split
  · have hshape' : shape maps.2 entry.1 = some entry.2.length := by
      rw [hstatus, ← hshape, htimers]
    refine (yields_lookUp hshape').bind fun elements helements => ?_
    refine (yields_elementAt (by omega)).bind fun _ _ => ?_
    exact ⟨hrest, (funext fun _ => shape_setProcess).trans hstatus⟩
  · exact ⟨hrest, hstatus⟩

/-! ## Feedback -/

section
variable {c : PaddedHbfConfig} {f : Feedback} {n : Nat}

theorem yields_dlFeedback {wbCqiRxed : OrderedMap Nat} {info : DlHarqInfo × Nat}
    (hhas : f.1.Has n info.1.rnti) (hid : info.1.harqProcessId < n) :
    Yields Benign (fun _ => True) (dlFeedback c wbCqiRxed f info) := by
  unfold dlFeedback
  refine (yields_lookUp hhas.dlStatus).bind fun status hstatus => ?_
  refine (yields_lookUp hhas.dlPdus).bind fun pdus hpdus => ?_
  refine (yields_elementAt (by omega)).bind fun count _ => ?_
  refine (yields_elementAt (by omega)).bind fun _ _ => ?_
  split
  · trivial
  · refine (yields_lookUp hhas.dlDcis).bind fun dcis hdcis => ?_
    refine (yields_elementAt (by omega)).bind fun dci _ => ?_
    refine (yields_assert _).bind fun _ _ => ?_
    split
    · trivial
    · split
      · trivial
      · split <;> trivial

/-- Feedback of an uplink process that a UE has, or a good one of a UE without processes. -/
theorem yields_ulFeedback {info : UlHarqInfo × Nat}
    (hinfo : f.1.Has n info.1.rnti ∧ info.1.harqProcessId < n ∨
      info.1.receptionStatus = .ok ∧ f.1.ulHarqProcessesStatus.find info.1.rnti = none) :
    Yields Benign (fun _ => True) (ulFeedback f info) := by
  unfold ulFeedback
  split
  · dsimp only
    split
    · trivial
    · rename_i status hstatus
      rcases hinfo with ⟨hhas, hid⟩ | ⟨-, hnone⟩
      · have hshape := hhas.ulStatus
        unfold shape at hshape
        rw [hstatus] at hshape
        have hlength : status.length = n := Option.some.inj hshape
        exact (yields_elementAt (by omega)).bind fun _ _ => trivial
      · rw [hnone] at hstatus
        cases hstatus
  · rename_i hbad
    obtain ⟨hhas, hid⟩ := hinfo.resolve_right fun h => hbad h.1
    refine (yields_lookUp hhas.ulStatus).bind fun status hstatus => ?_
    refine (yields_elementAt (by omega)).bind fun count _ => ?_
    split
    · trivial
    · split
      · refine (yields_lookUp hhas.ulDcis).bind fun dcis hdcis => ?_
        refine (yields_elementAt (by omega)).bind fun dci _ => ?_
        refine (yields_assert _).bind fun _ _ => ?_
        split
        · trivial
        · split <;> trivial
      · trivial

end

/-! ## Retransmissions -/

section
variable {c : PaddedHbfConfig} {n rnti id : Nat} {dci : DciInfoElementTdma}

theorem yields_openDlBlock {p : Placement} {numSym : Nat} :
    Yields Benign (fun _ => True) (p.openDlBlock c numSym) := by
  unfold Placement.openDlBlock
  split <;> exact (yields_assert _).bind fun _ _ => trivial

theorem yields_openUlBlock {p : Placement} {numSym : Nat} :
    Yields Benign (fun _ => True) (p.openUlBlock numSym) := by
  unfold Placement.openUlBlock
  split <;> exact (yields_assert _).bind fun _ _ => trivial

theorem yields_placeDl {r : Retx DlHarqInfo} (hhas : r.harq.Has n rnti) (hid : id < n)
    (hdci : IsOf rnti id dci) : Yields Benign (fun _ => True) (r.placeDl c rnti id dci) := by
  unfold Retx.placeDl
  refine yields_openDlBlock.bind fun p _ => ?_
  refine (yields_lookUp hhas.dlStatus).bind fun status hstatus => ?_
  refine (yields_elementAt (by omega)).bind fun count _ => ?_
  refine (yields_lookUp hhas.dlPdus).bind fun pdus hpdus => ?_
  refine (yields_elementAt ?_).bind fun _ _ => trivial
  show dci.harqProcess < _
  rw [hdci.harqProcess_eq]
  omega

theorem yields_placeUl {r : Retx UlHarqInfo} (hhas : r.harq.Has n rnti) (hid : id < n) :
    Yields Benign (fun _ => True) (r.placeUl c rnti id dci) := by
  unfold Retx.placeUl
  refine yields_openUlBlock.bind fun p _ => ?_
  refine (yields_lookUp hhas.ulStatus).bind fun status hstatus => ?_
  exact (yields_elementAt (by omega)).bind fun count _ => trivial

end

namespace RetxLoop

variable {Info : Type} {loop : RetxLoop Info} {infos : List Info} {r : Retx Info} {n : Nat}

/-- Every noted element of the feedback is there, and is for a process of a UE that has it. -/
def NotedKnown (loop : RetxLoop Info) (infos : List Info) (known : Nat → Prop) (n : Nat)
    (sorted : List (Nat × Nat)) : Prop :=
  ∀ x ∈ sorted, ∃ info, infos[x.2]? = some info ∧ known (loop.rnti info) ∧
    loop.harqProcessId info < n

/-- A round with something left to do takes it out of the list or ends the loop. -/
theorem yields_round {known : Nat → Prop} (hsorted : r.sortedHarqRetx ≠ [])
    (hnoted : NotedKnown loop infos known n r.sortedHarqRetx)
    (hshape : ∀ rnti, known rnti → shape (loop.dciInfoMap r.harq) rnti = some n)
    (hplace : ∀ info dci p, info ∈ infos → known (loop.rnti info) → loop.harqProcessId info < n →
      (∃ x ∈ r.sortedHarqRetx, infos[x.2]? = some info) →
      processOf (loop.dciInfoMap r.harq) (loop.rnti info) (loop.harqProcessId info) = some dci →
      Yields Benign (fun _ => True) (loop.place (loop.rnti info) (loop.harqProcessId info) dci
        { r with placement := p })) :
    Yields Benign (fun _ => True) (loop.round infos r) := by
  obtain ⟨p, hskip, -⟩ := skip_eq loop infos r
  have hk : (loop.skip infos r).1 < r.sortedHarqRetx.length := by
    unfold skip
    simp only
    split
    · rename_i k hk
      exact (List.findIdx?_eq_some_iff_getElem.1 hk).1
    · exact List.length_pos_iff.2 hsorted
  unfold round
  simp only [hskip]
  have hx := List.getElem?_eq_getElem hk
  have helement : elementAt r.sortedHarqRetx (loop.skip infos r).1 =
      .ok r.sortedHarqRetx[(loop.skip infos r).1] := elementAt_eq_ok.2 hx
  rw [helement]
  obtain ⟨info, hinfo, hknown, hid⟩ := hnoted _ (List.getElem_mem hk)
  have hfound : elementAt infos r.sortedHarqRetx[(loop.skip infos r).1].2 = .ok info :=
    elementAt_eq_ok.2 hinfo
  show Yields Benign _ (elementAt infos _ >>= _)
  rw [hfound]
  obtain ⟨dcis, hdcis, hlength⟩ := Option.map_eq_some_iff.1 (hshape _ hknown)
  have hlookUp : lookUp .absent (loop.dciInfoMap r.harq) (loop.rnti info) = .ok dcis :=
    lookUp_eq_ok.2 hdcis
  show Yields Benign _ (lookUp _ _ _ >>= _)
  rw [hlookUp]
  obtain ⟨dci, hstored⟩ : ∃ dci, dcis[loop.harqProcessId info]? = some dci :=
    ⟨_, List.getElem?_eq_getElem (by omega)⟩
  have hdci : elementAt dcis (loop.harqProcessId info) = .ok dci := elementAt_eq_ok.2 hstored
  show Yields Benign _ (elementAt _ _ >>= _)
  rw [hdci]
  show Yields Benign _ (if _ then _ else _)
  split
  · trivial
  · split
    · refine (hplace info _ p (List.mem_of_getElem? hinfo) hknown hid
        ⟨_, List.getElem_mem hk, hinfo⟩ ?_).bind fun _ _ => trivial
      exact processOf_eq_some_iff.2 ⟨dcis, hdcis, hstored⟩
    · trivial

/-- What is done without a fault in a round is done without a fault in as many rounds as there are
elements in the list. -/
theorem yields_rounds {I : Retx Info → Prop} {count : Nat} (hr : I r)
    (hlength : count ≤ r.sortedHarqRetx.length)
    (hround : ∀ r, I r → r.sortedHarqRetx ≠ [] →
      Yields Benign (fun result => I result.2 ∧
        (result.1 = true → r.sortedHarqRetx.length ≤ result.2.sortedHarqRetx.length + 1))
        (loop.round infos r)) :
    Yields Benign I (loop.rounds infos count r) := by
  induction count generalizing r with
  | zero => exact hr
  | succ count ih =>
      unfold RetxLoop.rounds
      have hsorted : r.sortedHarqRetx ≠ [] := by
        intro hnil
        rw [hnil] at hlength
        exact absurd hlength (Nat.not_succ_le_zero _)
      refine (hround r hr hsorted).bind fun result hresult => ?_
      obtain ⟨hI, hleft⟩ := hresult
      split
      · rename_i hgoesOn
        have hlength' := hleft hgoesOn
        exact ih hI (by omega)
      · exact hI

end RetxLoop

/-! ## Flows -/

/-- A logical channel gives its UE an entry: something waits, and the CQI is in range. -/
def PaddedHbf.Asks (c : PaddedHbfConfig) (s : PaddedHbf) (req : SchedDlRlcBufferReqParameters) :
    Prop :=
  c.ulOnly = false ∧ req.active = true ∧
    ((s.wbCqiRxed.find req.rnti).getD 1 ≠ 0 ∨ c.fixedMcsDl = true)

instance {c : PaddedHbfConfig} {s : PaddedHbf} {req : SchedDlRlcBufferReqParameters} :
    Decidable (s.Asks c req) :=
  inferInstanceAs (Decidable (_ ∧ _ ∧ (_ ∨ _)))

namespace Flows

variable {c : PaddedHbfConfig} {s : PaddedHbf} {pass : HarqPass} {known : Nat → Prop}

/-- Only UEs with retransmissions or something to send have an entry. -/
theorem collectDl_known (hpass : ∀ rnti ∈ pass.ueInfo, known rnti)
    (hrequests : ∀ req ∈ s.rlcBufferReq, s.Asks c req → known req.rnti) :
    ∀ rnti ∈ (collectDl c s pass).ueInfo.keys, known rnti := by
  have hretx : ∀ (rntis : List Nat) (m : OrderedMap UeSchedInfo), (∀ rnti ∈ rntis, known rnti) →
      (∀ rnti ∈ m.keys, known rnti) →
      ∀ rnti ∈ (rntis.foldl (fun m rnti => m.insertNew rnti {}) m).keys, known rnti := by
    intro rntis
    induction rntis with
    | nil => exact fun _ _ hm => hm
    | cons rnti rest ih =>
        intro m hrntis hm
        refine ih _ (fun k hk => hrntis k (List.mem_cons_of_mem _ hk)) fun k hk => ?_
        rcases OrderedMap.mem_keys_insertNew.1 hk with rfl | hk
        · exact hrntis _ List.mem_cons_self
        · exact hm k hk
  have hdl : c.ulOnly = false → ∀ (reqs : List SchedDlRlcBufferReqParameters) (flows : Flows),
      (∀ req ∈ reqs, s.Asks c req → known req.rnti) → (∀ rnti ∈ flows.ueInfo.keys, known rnti) →
      ∀ rnti ∈ (reqs.foldl (addDl c s) flows).ueInfo.keys, known rnti := by
    intro hdlToo reqs
    induction reqs with
    | nil => exact fun _ _ hm => hm
    | cons req rest ih =>
        intro flows hreqs hflows
        refine ih _ (fun k hk => hreqs k (List.mem_cons_of_mem _ hk)) ?_
        unfold addDl
        simp only
        split
        · rename_i hactive
          intro k hk
          rw [OrderedMap.keys_adjust] at hk
          rcases OrderedMap.mem_keys_insertNew.1 hk with rfl | hk
          · exact hreqs req List.mem_cons_self ⟨hdlToo, hactive.1, hactive.2⟩
          · exact hflows k hk
        · exact hflows
  have hstart := hretx pass.ueInfo [] hpass fun _ hk => (List.not_mem_nil hk).elim
  unfold collectDl
  simp only
  split
  · rename_i hroom
    exact hdl (Bool.eq_false_iff.2 hroom.2) s.rlcBufferReq _ hrequests hstart
  · exact hstart

theorem yields_addUl
    (hcqis : ∀ rnti cqi, s.ueUlCqi.find rnti = some cqi →
      c.phyMac.totalNumChunk ≤ cqi.ueUlCqi.length)
    {entries : OrderedMap Nat} (hentries : ∀ entry ∈ entries, 0 < entry.2 → known entry.1)
    {flows : Flows} (hflows : ∀ rnti ∈ flows.ueInfo.keys, known rnti) :
    Yields Benign (fun flows => ∀ rnti ∈ flows.ueInfo.keys, known rnti)
      (addUl c s entries flows) := by
  induction entries generalizing flows with
  | nil => exact hflows
  | cons entry rest ih =>
      have hrest : ∀ other ∈ rest, 0 < other.2 → known other.1 :=
        fun other hother => hentries other (List.mem_cons_of_mem _ hother)
      have hcqi : Yields Benign (fun _ => True) (ulCqi c s entry.1) := by
        unfold ulCqi
        split
        · trivial
        · rename_i cqi hcqi
          rw [if_neg (Nat.not_lt.2 (hcqis _ _ hcqi))]
          trivial
      unfold addUl
      split
      · exact ih hrest hflows
      · rename_i hbuffer
        refine hcqi.bind fun result _ => ?_
        dsimp only
        split
        · exact hflows
        · refine ih hrest fun k hk => ?_
          rw [OrderedMap.keys_adjust] at hk
          rcases OrderedMap.mem_keys_insertNew.1 hk with rfl | hk
          · exact hentries entry List.mem_cons_self (Nat.pos_of_ne_zero hbuffer)
          · exact hflows k hk

theorem yields_collect
    (hcqis : ∀ rnti cqi, s.ueUlCqi.find rnti = some cqi →
      c.phyMac.totalNumChunk ≤ cqi.ueUlCqi.length)
    (hpass : ∀ rnti ∈ pass.ueInfo, known rnti)
    (hrequests : ∀ req ∈ s.rlcBufferReq, s.Asks c req → known req.rnti)
    (hbsrs : c.dlOnly = false → ∀ entry ∈ s.ceBsrRxed, 0 < entry.2 → known entry.1) :
    Yields Benign (fun flows => ∀ rnti ∈ flows.ueInfo.keys, known rnti) (collect c s pass) := by
  unfold collect
  split
  · rename_i hroom
    exact yields_addUl hcqis (hbsrs (Bool.eq_false_iff.2 hroom.2)) (collectDl_known hpass hrequests)
  · exact collectDl_known hpass hrequests

end Flows

/-! ## New blocks -/

/-- What holds of every slot on the layers. -/
def Placement.All (P : SlotAllocInfo → Prop) (p : Placement) : Prop :=
  ∀ i, (∀ a ∈ p.tempDlslotAllocInfo i, P a) ∧ ∀ a ∈ p.tempUlslotAllocInfo i, P a

/-- The same slots, and maps with the same processes. -/
structure SameSlots (d d' : NewData) : Prop where
  outlines : d'.harq.outlines = d.harq.outlines
  dl : d'.placement.tempDlslotAllocInfo = d.placement.tempDlslotAllocInfo
  ul : d'.placement.tempUlslotAllocInfo = d.placement.tempUlslotAllocInfo

theorem SameSlots.trans {d d' d'' : NewData} (h : SameSlots d d') (h' : SameSlots d' d'') :
    SameSlots d d'' :=
  ⟨h'.outlines.trans h.outlines, h'.dl.trans h.dl, h'.ul.trans h.ul⟩

namespace NewData

variable {c : PaddedHbfConfig} {d : NewData} {region : Region} {n rnti harqId : Nat}
  {P : SlotAllocInfo → Prop}

theorem yields_dlHarqId (hhas : d.harq.Has n rnti) :
    Yields Benign (fun result => SameSlots d result.2) (d.dlHarqId c rnti) := by
  unfold dlHarqId
  split
  · unfold HarqProcesses.updateDlHarqProcessId
    simp only [bind_assoc]
    refine (yields_lookUp hhas.dlStatus).bind fun elements _ => ?_
    refine ⟨?_, rfl, rfl⟩
    rcases takeProcess_cases c.phyMac rnti elements d.harq.dlHarqProcessesStatus with
      ⟨id, -, -, htake⟩ | htake
    · simp [outlines, htake]
    · simp [outlines, htake]
  · exact ⟨rfl, rfl, rfl⟩

theorem yields_storeDl {dci : DciInfoElementTdma} (hhas : d.harq.Has n dci.rnti)
    (hid : dci.harqProcess < n) :
    Yields Benign (fun d' => SameSlots d d') (d.storeDl c dci) := by
  unfold storeDl
  split
  · refine (yields_lookUp hhas.dlDcis).bind fun dcis hdcis => ?_
    refine (yields_elementAt (by omega)).bind fun _ _ => ?_
    refine (yields_lookUp hhas.dlTimer).bind fun timers htimers => ?_
    refine (yields_elementAt (by omega)).bind fun _ _ => ?_
    refine ⟨?_, rfl, rfl⟩
    simp [HarqProcesses.outlines, startDl]
  · exact ⟨rfl, rfl, rfl⟩

theorem yields_addPdu {pdu : RlcPduInfo} (hhas : d.harq.Has n rnti) (hid : harqId < n) :
    Yields Benign (fun d' => SameSlots d d') (d.addPdu c rnti harqId pdu) := by
  unfold addPdu
  refine (yields_assert _).bind fun _ _ => ?_
  dsimp only
  split
  · refine (yields_lookUp hhas.dlPdus).bind fun pdus hpdus => ?_
    refine (yields_elementAt (by omega)).bind fun stored _ => ?_
    refine ⟨?_, rfl, rfl⟩
    simp [HarqProcesses.outlines]
  · exact ⟨rfl, rfl, rfl⟩

theorem yields_nextDlBlock {symStart : Nat} :
    Yields Benign (fun d' => SameSlots d d') (d.nextDlBlock c region symStart) := by
  unfold nextDlBlock
  split
  · exact (yields_assert _).bind fun _ _ => ⟨rfl, rfl, rfl⟩
  · exact ⟨rfl, rfl, rfl⟩

/-- The turn of a configured UE: its slot, if it gets one, has its RNTI. -/
theorem yields_dlTurn {entry : Nat × UeSchedInfo} (hhas : d.harq.Has c.phyMac.numHarqProcess entry.1)
    (hP : ∀ a : SlotAllocInfo, a.rnti = some entry.1 → a.dci.rnti = entry.1 → P a)
    (hd : d.placement.All P) :
    Yields Benign (fun d' => d'.harq.outlines = d.harq.outlines ∧ d'.placement.All P)
      (d.dlTurn c region entry) := by
  unfold dlTurn
  dsimp only
  split
  swap
  · exact ⟨rfl, hd⟩
  unfold placeDl
  refine (yields_assert _).bind fun _ _ => ?_
  refine (yields_assert _).bind fun _ _ => ?_
  have hprocess := yields_dlHarqId (c := c)
    (d := { d with placement := d.placement.take d.layerIdx region.symPerBlock }) hhas
  refine hprocess.bind fun ⟨harqId, d₁⟩ h₁ => ?_
  have h₁' : SameSlots d d₁ := ⟨h₁.outlines, h₁.dl, h₁.ul⟩
  refine (yields_assert _).bind fun _ hlt => ?_
  dsimp only
  refine (yields_storeDl (hhas.of_outlines h₁.outlines) hlt).bind fun d₂ h₂ => ?_
  refine (yields_foldlM (I := fun d' _ => SameSlots d d') (h₁'.trans h₂) ?_).bind fun d₃ h₃ => ?_
  · intro d' pdu rest hd'
    exact (yields_addPdu (hhas.of_outlines hd'.outlines) hlt).imp fun _ h => hd'.trans h
  refine yields_nextDlBlock.imp fun d₄ h₄ => ⟨h₄.outlines.trans h₃.outlines, fun i => ⟨?_, ?_⟩⟩
  · intro a ha
    rw [h₄.dl] at ha
    change a ∈ (if i = d₃.layerIdx then d₃.placement.tempDlslotAllocInfo i ++ [_]
      else d₃.placement.tempDlslotAllocInfo i) at ha
    rw [h₃.dl] at ha
    split at ha
    · rcases List.mem_append.1 ha with ha | ha
      · exact (hd i).1 a ha
      · obtain rfl := List.mem_singleton.1 ha
        exact hP _ rfl rfl
    · exact (hd i).1 a ha
  · intro a ha
    rw [h₄.ul] at ha
    change a ∈ d₃.placement.tempUlslotAllocInfo i at ha
    rw [h₃.ul] at ha
    exact (hd i).2 a ha

theorem sameSlots_ulHarqId : SameSlots d (d.ulHarqId c rnti).2 := by
  unfold ulHarqId
  split
  · unfold HarqProcesses.updateUlHarqProcessId
    cases hstatus : d.harq.ulHarqProcessesStatus.find rnti with
    | none => exact ⟨rfl, rfl, rfl⟩
    | some elements =>
        refine ⟨?_, rfl, rfl⟩
        rcases takeProcess_cases c.phyMac rnti elements d.harq.ulHarqProcessesStatus with
          ⟨id, -, -, htake⟩ | htake
        · simp [HarqProcesses.outlines, htake]
        · simp [HarqProcesses.outlines, htake]
  · exact ⟨rfl, rfl, rfl⟩

theorem yields_storeUl {dci : DciInfoElementTdma} (hhas : d.harq.Has n dci.rnti)
    (hid : dci.harqProcess < n) :
    Yields Benign (fun d' => SameSlots d d') (d.storeUl c dci) := by
  unfold storeUl
  split
  · refine (yields_lookUp hhas.ulDcis).bind fun dcis hdcis => ?_
    refine (yields_elementAt (by omega)).bind fun _ _ => ?_
    refine (yields_lookUp hhas.ulStatus).bind fun status hstatus => ?_
    refine (yields_elementAt (by omega)).bind fun count _ => ?_
    refine (yields_assert _).bind fun _ _ => ?_
    refine (yields_lookUp hhas.ulTimer).bind fun timers htimers => ?_
    refine (yields_elementAt (by omega)).bind fun _ _ => ?_
    refine ⟨?_, rfl, rfl⟩
    simp [HarqProcesses.outlines, startUl]
  · exact ⟨rfl, rfl, rfl⟩

theorem yields_nextUlBlock {start : Nat} :
    Yields Benign (fun d' => SameSlots d d') (d.nextUlBlock c region start) := by
  unfold nextUlBlock
  split
  · refine (yields_assert _).bind fun _ _ => ?_
    exact (yields_assert _).bind fun _ _ => ⟨rfl, rfl, rfl⟩
  · exact ⟨rfl, rfl, rfl⟩

/-- The uplink pass over configured UEs. -/
theorem yields_ulTurns {sfnSf : SfnSf} {first : Bool} {entries : OrderedMap UeSchedInfo}
    (hhas : ∀ rnti ∈ entries.keys, d.harq.Has c.phyMac.numHarqProcess rnti)
    (hP : ∀ a : SlotAllocInfo, ∀ rnti ∈ entries.keys, a.rnti = some rnti → a.dci.rnti = rnti → P a)
    (hd : d.placement.All P) :
    Yields Benign (fun d' => d'.harq.outlines = d.harq.outlines ∧ d'.placement.All P)
      (ulTurns c sfnSf region first entries d) := by
  induction entries generalizing d first with
  | nil => exact ⟨rfl, hd⟩
  | cons entry rest ih =>
      have hkeys : OrderedMap.keys (entry :: rest) = entry.1 :: OrderedMap.keys rest := rfl
      rw [hkeys] at hhas hP
      have hrestP : ∀ a : SlotAllocInfo, ∀ rnti ∈ OrderedMap.keys rest, a.rnti = some rnti →
          a.dci.rnti = rnti → P a :=
        fun a rnti hrnti => hP a rnti (List.mem_cons_of_mem _ hrnti)
      unfold ulTurns
      dsimp only
      split
      swap
      · exact ih (fun rnti hrnti => hhas rnti (List.mem_cons_of_mem _ hrnti)) hrestP hd
      split
      · split
        · have hsame : SameSlots d (d.ulHarqId c entry.1).2 := sameSlots_ulHarqId
          refine ⟨hsame.outlines, fun i => ?_⟩
          rw [hsame.dl, hsame.ul]
          exact hd i
        · exact benign_endless
      rename_i hfree
      have h₁ : SameSlots d (d.ulHarqId c entry.1).2 := sameSlots_ulHarqId
      unfold placeUl
      dsimp only
      simp only [bind_assoc]
      have hentry := (hhas entry.1 List.mem_cons_self).of_outlines h₁.outlines
      refine (yields_storeUl hentry (Nat.lt_of_not_le hfree)).bind fun d₂ h₂ => ?_
      refine yields_nextUlBlock.bind fun d₃ h₃ => ?_
      have houtlines : d₃.harq.outlines = d.harq.outlines :=
        h₃.outlines.trans (h₂.outlines.trans h₁.outlines)
      have hplaced : d₃.placement.All P := by
        refine fun i => ⟨?_, ?_⟩
        · intro a ha
          rw [h₃.dl] at ha
          change a ∈ d₂.placement.tempDlslotAllocInfo i at ha
          rw [h₂.dl, h₁.dl] at ha
          exact (hd i).1 a ha
        · intro a ha
          rw [h₃.ul] at ha
          change a ∈ (if i = d₂.layerIdx then _ :: d₂.placement.tempUlslotAllocInfo i
            else d₂.placement.tempUlslotAllocInfo i) at ha
          rw [h₂.ul, h₁.ul] at ha
          split at ha
          · rcases List.mem_cons.1 ha with rfl | ha
            · exact hP _ entry.1 List.mem_cons_self rfl rfl
            · exact (hd i).2 a ha
          · exact (hd i).2 a ha
      refine (ih (fun rnti hrnti => (hhas rnti (List.mem_cons_of_mem _ hrnti)).of_outlines
        houtlines) hrestP hplaced).imp fun d' hd' => ⟨hd'.1.trans houtlines, hd'.2⟩

end NewData

/-- New data only for configured UEs goes to slots that have their RNTIs. -/
theorem yields_scheduleNewData {c : PaddedHbfConfig} {s : PaddedHbf} {pass : HarqPass}
    {sfnSf : SfnSf} {known : Nat → Prop} {P : SlotAllocInfo → Prop}
    (hcqis : ∀ rnti cqi, s.ueUlCqi.find rnti = some cqi →
      c.phyMac.totalNumChunk ≤ cqi.ueUlCqi.length)
    (hpass : ∀ rnti ∈ pass.ueInfo, known rnti)
    (hrequests : ∀ req ∈ s.rlcBufferReq, s.Asks c req → known req.rnti)
    (hbsrs : c.dlOnly = false → ∀ entry ∈ s.ceBsrRxed, 0 < entry.2 → known entry.1)
    (hhas : ∀ rnti, known rnti → pass.harq.Has c.phyMac.numHarqProcess rnti)
    (hP : ∀ (a : SlotAllocInfo) rnti, known rnti → a.rnti = some rnti → a.dci.rnti = rnti → P a)
    (hslots : pass.placement.All P) :
    Yields Benign (fun result => result.1.harq.outlines = pass.harq.outlines ∧
        result.1.ueUlCqi = s.ueUlCqi ∧ result.1.dlHarqInfoList = pass.dlHarqInfoList ∧
        result.1.ulHarqInfoList = pass.ulHarqInfoList ∧ result.2.All P)
      (scheduleNewData c sfnSf s pass) := by
  unfold scheduleNewData
  refine (Flows.yields_collect hcqis hpass hrequests hbsrs).bind fun flows hflows => ?_
  dsimp only
  split
  · exact ⟨rfl, rfl, rfl, rfl, hslots⟩
  -- the turns are those of the UEs with an entry, in another order
  set ueInfo : OrderedMap UeSchedInfo := flows.ueInfo.map fun entry =>
    (entry.1, (entry.2.demand c).limitIab c pass.placement.symAvail) with hueInfo
  have horder : ∀ entry ∈ rotate s.nextRnti ueInfo, known entry.1 := by
    intro entry hentry
    apply hflows
    have hmem := (rotate_perm s.nextRnti ueInfo).mem_iff.1 hentry
    rw [hueInfo] at hmem
    obtain ⟨other, hother, rfl⟩ := List.mem_map.1 hmem
    exact List.mem_map.2 ⟨other, hother, rfl⟩
  have hkeys : ∀ rnti ∈ OrderedMap.keys (rotate s.nextRnti ueInfo), known rnti := by
    intro rnti hrnti
    obtain ⟨entry, hentry, rfl⟩ := List.mem_map.1 hrnti
    exact horder entry hentry
  refine (yields_foldlM (I := fun d rest => (∀ entry ∈ rest, known entry.1) ∧
    d.harq.outlines = pass.harq.outlines ∧ d.placement.All P)
    ⟨horder, rfl, hslots⟩ ?_).bind fun d₁ ⟨_, houtlines, hd₁⟩ => ?_
  · intro d entry rest ⟨hrest, hd, hall⟩
    have hentry := hrest entry List.mem_cons_self
    refine (NewData.yields_dlTurn ((hhas _ hentry).of_outlines hd)
      (fun a => hP a entry.1 hentry) hall).imp fun d' hd' => ?_
    exact ⟨fun other hother => hrest other (List.mem_cons_of_mem _ hother), hd'.1.trans hd, hd'.2⟩
  refine (NewData.yields_ulTurns (P := P) (d := { d₁ with layerIdx := 0, blockIdx := 0 })
    (fun rnti hrnti => (hhas rnti (hkeys rnti hrnti)).of_outlines houtlines)
    (fun a rnti hrnti => hP a rnti (hkeys rnti hrnti)) hd₁).bind fun d₂ hd₂ => ?_
  exact ⟨hd₂.1.trans houtlines, rfl, rfl, rfl, hd₂.2⟩

end NtnIab.Mmwave
