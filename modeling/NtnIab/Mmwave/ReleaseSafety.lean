import NtnIab.Mmwave.FaultFree
import NtnIab.Mmwave.SoundAllocation

/-!
# Releases at any moment

A release of a UE takes its processes, its buffer reports and its RLC requests away, and leaves
the feedback that waits. Feedback, reports and requests that come later are taken as they are. A
trigger reaches a fatal error, or reads an entry that is not there, only if it hears of a UE that
is not configured; good uplink feedback of such a UE is ignored.

A block that is sent again reads the RNTI of its slot through an iterator that is at the end of a
map. This has nothing to do with a release, and happens whenever a block is sent again.

## Strategy

As long as the triggers only hear of configured UEs, all their lookups succeed, and every slot is
that of a configured UE.
-/

namespace NtnIab.Mmwave

open Fallible HarqProcesses

variable {c : PaddedHbfConfig}

/-! ## Nothing to be sent again -/

/-- The first answer for no downlink process is a NACK for a live block. -/
def DlNothingAgain (wbCqiRxed : OrderedMap Nat) (h : HarqProcesses) (infos : List DlHarqInfo) :
    Prop :=
  ∀ info ∈ infos, ∀ first ∈ (infos.filter (DlHarqInfo.isFor info.rnti info.harqProcessId)).head?,
    ¬∃ dci, LiveDlNack wbCqiRxed h first dci

/-- The first answer for no uplink process is a NACK for a live block. -/
def UlNothingAgain (h : HarqProcesses) (infos : List UlHarqInfo) : Prop :=
  ∀ info ∈ infos,
    ∀ first ∈ (infos.filter (UlHarqInfo.settles info.rnti info.harqProcessId)).head?,
      ¬∃ dci, LiveUlNack h first dci

instance {wbCqiRxed : OrderedMap Nat} {h : HarqProcesses} {infos : List DlHarqInfo} :
    Decidable (DlNothingAgain wbCqiRxed h infos) :=
  inferInstanceAs (Decidable (∀ info ∈ infos, ∀ first ∈ (infos.filter _).head?, ¬_))

instance {h : HarqProcesses} {infos : List UlHarqInfo} : Decidable (UlNothingAgain h infos) :=
  inferInstanceAs (Decidable (∀ info ∈ infos, ∀ first ∈ (infos.filter _).head?, ¬_))

/-- What is noted in the downlink is an element of the feedback. -/
theorem dlNoted_mem {wbCqiRxed : OrderedMap Nat} {infos : List DlHarqInfo} {h : HarqProcesses}
    {f : Feedback} (hok : infos.zipIdx.foldlM (dlFeedback c wbCqiRxed) (h, []) = .ok f) :
    ∀ x ∈ f.2, ∃ info, infos[x.2]? = some info := by
  refine feedback_invariant (I := fun f => ∀ x ∈ f.2, ∃ info, infos[x.2]? = some info) hok
    (fun _ hx => nomatch hx) ?_
  intro f info i f' hinfo hf hstep x hx
  rcases dlFeedback_ok hstep with ⟨-, rfl⟩ | ⟨dci, mcsNew, -, -, rfl⟩
  · exact hf x hx
  · rcases mem_insertSorted.1 hx with rfl | hx
    · exact ⟨info, hinfo⟩
    · exact hf x hx

/-- What was noted is counted among the notes of its kind. -/
theorem notes_pos {Info : Type} {isFor : Info → Bool} {infos : List Info}
    {sorted : List (Nat × Nat)} {x : Nat × Nat} {info : Info} (hx : x ∈ sorted)
    (hinfo : infos[x.2]? = some info) (hfor : isFor info = true) : notes isFor infos sorted ≠ 0 := by
  unfold notes
  refine Nat.ne_of_gt (List.countP_pos_iff.2 ⟨x, hx, ?_⟩)
  rw [hinfo]
  exact hfor

theorem dlNoted_nil {wbCqiRxed : OrderedMap Nat} {h : HarqProcesses} {infos : List DlHarqInfo}
    {f : Feedback} (hok : infos.zipIdx.foldlM (dlFeedback c wbCqiRxed) (h, []) = .ok f)
    (hnothing : DlNothingAgain wbCqiRxed h infos) : f.2 = [] := by
  refine List.eq_nil_iff_forall_not_mem.2 fun x hx => ?_
  obtain ⟨info, hinfo⟩ := dlNoted_mem hok x hx
  have hmem := List.mem_of_getElem? hinfo
  have hfor : info.isFor info.rnti info.harqProcessId = true := DlHarqInfo.isFor_iff.2 ⟨rfl, rfl⟩
  have hnotes := notes_pos hx hinfo hfor
  cases dlFeedback_outcome hok info.rnti info.harqProcessId fun first hfirst hlive =>
      absurd hlive (hnothing info hmem first hfirst) with
  | waits _ _ _ _ hnone => exact hnotes hnone
  | noted first live _ hfirst hlive => exact hnothing info hmem first hfirst ⟨live, hlive⟩
  | reset _ _ _ _ hnone => exact hnotes hnone

/-- Only NACKs are noted in the uplink. -/
theorem ulNoted_nack {h : HarqProcesses} {infos : List UlHarqInfo} {f : Feedback}
    (hok : infos.zipIdx.foldlM ulFeedback (h, []) = .ok f) :
    ∀ x ∈ f.2, ∃ info, infos[x.2]? = some info ∧ info.receptionStatus = .notOk := by
  refine feedback_invariant (I := fun f => ∀ x ∈ f.2, ∃ info, infos[x.2]? = some info ∧
    info.receptionStatus = .notOk) hok (fun _ hx => nomatch hx) ?_
  intro f info i f' hinfo hf hstep x hx
  rcases ulFeedback_ok hstep with ⟨-, rfl | rfl⟩ | ⟨dci, hlive, -, rfl⟩
  · exact hf x hx
  · exact hf x hx
  · rcases mem_insertSorted.1 hx with rfl | hx
    · exact ⟨info, hinfo, hlive.1⟩
    · exact hf x hx

theorem ulNoted_nil {h : HarqProcesses} {infos : List UlHarqInfo} {f : Feedback}
    (hok : infos.zipIdx.foldlM ulFeedback (h, []) = .ok f) (hnothing : UlNothingAgain h infos) :
    f.2 = [] := by
  refine List.eq_nil_iff_forall_not_mem.2 fun x hx => ?_
  obtain ⟨info, hinfo, hstat⟩ := ulNoted_nack hok x hx
  have hmem := List.mem_of_getElem? hinfo
  have hsettles : info.settles info.rnti info.harqProcessId = true := by
    refine UlHarqInfo.settles_iff.2 ⟨⟨rfl, rfl⟩, ?_⟩
    rw [hstat]
    decide
  have hnotes := notes_pos hx hinfo hsettles
  cases ulFeedback_outcome hok info.rnti info.harqProcessId fun first hfirst hlive =>
      absurd hlive (hnothing info hmem first hfirst) with
  | waits _ _ hnone => exact hnotes hnone
  | noted first live hfirst hlive => exact hnothing info hmem first hfirst ⟨live, hlive⟩
  | reset _ _ hnone => exact hnotes hnone

/-! ## Retransmissions -/

section
variable {Info : Type} {loop : RetxLoop Info} {infos : List Info} {P : SlotAllocInfo → Prop}
  {h : HarqProcesses} {n : Nat}

/-- A block that is placed is one slot more, with the RNTI of its DCI, and an entry for its UE. -/
structure RetxLoop.AddsSlot (loop : RetxLoop Info) (P : SlotAllocInfo → Prop) : Prop where
  place : ∀ {rnti id dci r r'}, loop.place rnti id dci r = .ok r' → r.placement.All P →
    (∀ a : SlotAllocInfo, a.dci.rnti = dci.rnti → P a) →
      r'.placement.All P ∧ (∀ k ∈ r'.ueInfo, k = rnti ∨ k ∈ r.ueInfo) ∧
        r'.sortedHarqRetx = r.sortedHarqRetx ∧ r'.infoListUntxed = r.infoListUntxed
  close : ∀ {p : Placement}, p.All P → (loop.closeBlock p).All P

/-- What the rounds keep, from the processes `h`: everything is about UEs that are configured. -/
structure RetxLoop.Keeps (loop : RetxLoop Info) (infos : List Info) (n : Nat) (h : HarqProcesses)
    (P : SlotAllocInfo → Prop) (r : Retx Info) : Prop where
  outlines : r.harq.outlines = h.outlines
  owned : r.harq.Owned
  notedOwned : NotedOwned loop.rnti loop.harqProcessId infos (loop.dciInfoMap r.harq)
    r.sortedHarqRetx
  noted : loop.NotedKnown infos h.Configured n r.sortedHarqRetx
  slots : r.placement.All P
  ues : ∀ rnti ∈ r.ueInfo, h.Configured rnti
  untxed : ∀ info ∈ r.infoListUntxed, h.Configured (loop.rnti info)

/-- A round takes one element out of the list, unless it ends the loop. -/
theorem RetxLoop.Keeps.round {r r' : Retx Info} {goesOn : Bool} (hr : loop.Keeps infos n h P r)
    (hadds : loop.AddsSlot P) (hP : ∀ a : SlotAllocInfo, h.Configured a.dci.rnti → P a)
    (hok : loop.round infos r = .ok (goesOn, r'))
    (houtlines : r'.harq.outlines = r.harq.outlines) (howned : r'.harq.Owned)
    (hnotedOwned : NotedOwned loop.rnti loop.harqProcessId infos (loop.dciInfoMap r'.harq)
      r'.sortedHarqRetx) :
    loop.Keeps infos n h P r' ∧
      (goesOn = true → r.sortedHarqRetx.length ≤ r'.sortedHarqRetx.length + 1) := by
  obtain ⟨k, p, x, info, dci, hp, -, hx, hinfo, hdci, hcases⟩ := RetxLoop.round_ok hok
  have hplacement : p.All P := by
    rcases hp with rfl | rfl
    · exact hr.slots
    · exact hadds.close hr.slots
  have hmem := List.mem_of_getElem? hx
  have hknown : h.Configured (loop.rnti info) := by
    obtain ⟨info', hinfo', hknown, -⟩ := hr.noted x hmem
    rw [hinfo] at hinfo'
    exact Option.some.inj hinfo' ▸ hknown
  have herase : (r.sortedHarqRetx.eraseIdx k).length + 1 = r.sortedHarqRetx.length :=
    List.length_eraseIdx_add_one (List.getElem?_eq_some_iff.1 hx).1
  rcases hcases with ⟨hends, -, rfl⟩ | ⟨-, -, ⟨-, placed, hplaced, rfl⟩ | ⟨-, rfl⟩⟩
  · refine ⟨⟨houtlines.trans hr.outlines, howned, hnotedOwned, hr.noted, hplacement, hr.ues,
      hr.untxed⟩, fun hgoes => ?_⟩
    rw [hends] at hgoes
    cases hgoes
  · have howner := hr.notedOwned x hmem info hinfo dci hdci
    obtain ⟨hslots, hues, hsorted, huntxed⟩ := hadds.place hplaced hplacement fun a ha => by
      apply hP
      rw [ha, howner.rnti_eq]
      exact hknown
    refine ⟨⟨houtlines.trans hr.outlines, howned, hnotedOwned, ?_, hslots, ?_, ?_⟩, fun _ => ?_⟩
    · intro y hy
      rw [hsorted] at hy
      exact hr.noted y (List.mem_of_mem_eraseIdx hy)
    · intro rnti hrnti
      rcases hues rnti hrnti with rfl | hrnti
      · exact hknown
      · exact hr.ues rnti hrnti
    · intro other hother
      rw [huntxed] at hother
      exact hr.untxed other hother
    · show _ ≤ (placed.sortedHarqRetx.eraseIdx k).length + 1
      rw [hsorted]
      exact Nat.le_of_eq herase.symm
  · refine ⟨⟨houtlines.trans hr.outlines, howned, hnotedOwned, ?_, hplacement, hr.ues, ?_⟩,
      fun _ => Nat.le_of_eq herase.symm⟩
    · exact fun y hy => hr.noted y (List.mem_of_mem_eraseIdx hy)
    · intro other hother
      rcases List.mem_append.1 hother with hother | hother
      · exact hr.untxed other hother
      · obtain rfl := List.mem_singleton.1 hother
        exact hknown

end

theorem Placement.All.closeDl {P : SlotAllocInfo → Prop} {p : Placement} (hp : p.All P) :
    (p.closeDlBlock c).All P := hp

theorem Placement.All.closeUl {P : SlotAllocInfo → Prop} {p : Placement} (hp : p.All P) :
    (p.closeUlBlock c).All P := hp

namespace Retx

theorem visitUe_ueInfo {Info : Type} {r : Retx Info} {rnti k : Nat}
    (hk : k ∈ (r.visitUe rnti).ueInfo) : k = rnti ∨ k ∈ r.ueInfo := by
  unfold visitUe at hk
  split at hk
  · exact Or.inr hk
  · exact List.mem_cons.1 hk

theorem placeDl_ueInfo {r r' : Retx DlHarqInfo} {rnti id k : Nat} {dci : DciInfoElementTdma}
    (hok : r.placeDl c rnti id dci = .ok r') (hk : k ∈ r'.ueInfo) : k = rnti ∨ k ∈ r.ueInfo := by
  unfold placeDl at hok
  simp only [bind_eq_ok] at hok
  obtain ⟨p, -, status, -, count, -, lists, -, pdus, -, hok⟩ := hok
  obtain rfl := Except.ok.inj hok
  have hue := visitUe_ueInfo hk
  exact hue

theorem placeUl_ueInfo {r r' : Retx UlHarqInfo} {rnti id k : Nat} {dci : DciInfoElementTdma}
    (hok : r.placeUl c rnti id dci = .ok r') (hk : k ∈ r'.ueInfo) : k = rnti ∨ k ∈ r.ueInfo := by
  unfold placeUl at hok
  simp only [bind_eq_ok] at hok
  obtain ⟨p, -, status, -, count, -, hok⟩ := hok
  obtain rfl := Except.ok.inj hok
  have hue := visitUe_ueInfo hk
  exact hue

end Retx

section
variable {P : SlotAllocInfo → Prop}

theorem dlRetx_addsSlot : (dlRetx c).AddsSlot P where
  place := by
    intro rnti id dci r r' hok hr hdci
    obtain ⟨p, count, pdus, hopen, -, -, -, hplacement, hsorted, huntxed⟩ := Retx.placeDl_ok hok
    refine ⟨?_, fun k hk => Retx.placeDl_ueInfo hok hk, hsorted, huntxed⟩
    have hp : p.All P := by
      rcases Placement.openDlBlock_ok hopen with ⟨-, rfl⟩ | ⟨-, -, rfl⟩
      · exact hr
      · exact hr
    have hnext : ∀ (q : Placement), q.All P → (q.nextDlLayer c rnti).All P := by
      intro q hq
      unfold Placement.nextDlLayer
      split
      · exact hq
      · exact hq
    rw [hplacement]
    apply hnext
    intro i
    refine ⟨fun a ha => ?_, (hp i).2⟩
    change a ∈ (if i = p.layerIdx then p.tempDlslotAllocInfo i ++ [_]
      else p.tempDlslotAllocInfo i) at ha
    split at ha
    · rcases List.mem_append.1 ha with ha | ha
      · exact (hp i).1 a ha
      · obtain rfl := List.mem_singleton.1 ha
        exact hdci _ rfl
    · exact (hp i).1 a ha
  close := Placement.All.closeDl

theorem ulRetx_addsSlot : (ulRetx c).AddsSlot P where
  place := by
    intro rnti id dci r r' hok hr hdci
    obtain ⟨p, count, hopen, -, -, hplacement, hsorted, huntxed⟩ := Retx.placeUl_ok hok
    refine ⟨?_, fun k hk => Retx.placeUl_ueInfo hok hk, hsorted, huntxed⟩
    have hp : p.All P := by
      rcases Placement.openUlBlock_ok hopen with ⟨-, -, rfl⟩ | ⟨-, rfl⟩
      · exact hr
      · exact hr
    have hnext : ∀ (q : Placement), q.All P → (q.nextUlLayer c rnti).All P := by
      intro q hq
      unfold Placement.nextUlLayer
      split
      · exact hq
      · exact hq
    rw [hplacement]
    apply hnext
    intro i
    refine ⟨(hp i).1, fun a ha => ?_⟩
    change a ∈ (if i = p.layerIdx then _ :: p.tempUlslotAllocInfo i
      else p.tempUlslotAllocInfo i) at ha
    split at ha
    · rcases List.mem_cons.1 ha with rfl | ha
      · exact hdci _ rfl
      · exact (hp i).2 a ha
    · exact (hp i).2 a ha
  close := Placement.All.closeUl

end

/-! ## The passes over the retransmissions -/

section
variable {P : SlotAllocInfo → Prop} {h : HarqProcesses} {n : Nat} {wbCqiRxed : OrderedMap Nat}

/-- What the passes over the retransmissions hand on is about UEs that are configured. -/
structure HarqPass.Keeps (h : HarqProcesses) (P : SlotAllocInfo → Prop) (pass : HarqPass) :
    Prop where
  outlines : pass.harq.outlines = h.outlines
  slots : pass.placement.All P
  ues : ∀ rnti ∈ pass.ueInfo, h.Configured rnti

/-- The downlink feedback of configured UEs. -/
theorem yields_dlFeedbacks {infos : List DlHarqInfo} {h₀ : HarqProcesses}
    (houtlines : h₀.outlines = h.outlines) (hhas : ∀ rnti, h.Configured rnti → h.Has n rnti)
    (hinfos : ∀ info ∈ infos, h.Configured info.rnti ∧ info.harqProcessId < n) :
    Yields Benign (fun f => infos.zipIdx.foldlM (dlFeedback c wbCqiRxed) (h₀, []) = .ok f)
      (infos.zipIdx.foldlM (dlFeedback c wbCqiRxed) (h₀, [])) := by
  refine Yields.and_ok ((yields_foldlM (I := fun f rest =>
    f.1.outlines = h.outlines ∧ ∀ entry ∈ rest, entry.1 ∈ infos) ⟨houtlines, ?_⟩ ?_).imp
    fun _ _ => trivial) fun _ hok => hok
  · intro entry hentry
    exact List.mem_of_getElem? (List.mem_zipIdx_iff_getElem?.1 hentry)
  · intro f entry rest ⟨hf, hmem⟩
    obtain ⟨hknown, hid⟩ := hinfos entry.1 (hmem entry List.mem_cons_self)
    refine (yields_dlFeedback ((hhas _ hknown).of_outlines hf) hid).and_ok fun f' hok => ?_
    exact ⟨(dlFeedback_outlines hok).trans hf,
      fun other hother => hmem other (List.mem_cons_of_mem _ hother)⟩

/-- The uplink feedback of configured UEs, and good one of others. -/
theorem yields_ulFeedbacks {infos : List UlHarqInfo} {h₀ : HarqProcesses}
    (houtlines : h₀.outlines = h.outlines) (hhas : ∀ rnti, h.Configured rnti → h.Has n rnti)
    (hother : ∀ rnti, ¬h.Configured rnti → shape h.ulHarqProcessesStatus rnti = none)
    (hinfos : ∀ info ∈ infos, h.Configured info.rnti ∧ info.harqProcessId < n ∨
      info.receptionStatus = .ok ∧ ¬h.Configured info.rnti) :
    Yields Benign (fun f => infos.zipIdx.foldlM ulFeedback (h₀, []) = .ok f)
      (infos.zipIdx.foldlM ulFeedback (h₀, [])) := by
  refine Yields.and_ok ((yields_foldlM (I := fun f rest =>
    f.1.outlines = h.outlines ∧ ∀ entry ∈ rest, entry.1 ∈ infos) ⟨houtlines, ?_⟩ ?_).imp
    fun _ _ => trivial) fun _ hok => hok
  · intro entry hentry
    exact List.mem_of_getElem? (List.mem_zipIdx_iff_getElem?.1 hentry)
  · intro f entry rest ⟨hf, hmem⟩
    have hinfo : f.1.Has n entry.1.rnti ∧ entry.1.harqProcessId < n ∨
        entry.1.receptionStatus = .ok ∧ f.1.ulHarqProcessesStatus.find entry.1.rnti = none := by
      rcases hinfos entry.1 (hmem entry List.mem_cons_self) with ⟨hknown, hid⟩ | ⟨hgood, hunknown⟩
      · exact Or.inl ⟨(hhas _ hknown).of_outlines hf, hid⟩
      · have hshape : shape f.1.ulHarqProcessesStatus entry.1.rnti = none := by
          have hsame : f.1.shapes entry.1.rnti = h.shapes entry.1.rnti :=
            congrFun (shapes_of_outlines hf) _
          exact (congrArg (·.getD 4 none) hsame).trans (hother _ hunknown)
        exact Or.inr ⟨hgood, Option.map_eq_none_iff.1 hshape⟩
    refine (yields_ulFeedback hinfo).and_ok fun f' hok => ?_
    exact ⟨(ulFeedback_outlines hok).trans hf,
      fun other hother => hmem other (List.mem_cons_of_mem _ hother)⟩

/-- The downlink pass over feedback of configured UEs. -/
theorem yields_dlPass {infos : List DlHarqInfo} {pass : HarqPass} (hpass : pass.Keeps h P)
    (howned : pass.harq.Owned) (hhas : ∀ rnti, h.Configured rnti → h.Has n rnti)
    (hinfos : ∀ info ∈ infos, h.Configured info.rnti ∧ info.harqProcessId < n)
    (hP : ¬DlNothingAgain wbCqiRxed pass.harq infos →
      ∀ a : SlotAllocInfo, h.Configured a.dci.rnti → P a) :
    Yields Benign (fun pass' => pass'.Keeps h P ∧ pass'.harq.Owned ∧
        SameUl pass.harq pass'.harq ∧ (∀ info ∈ pass'.dlHarqInfoList, h.Configured info.rnti) ∧
        pass'.ulHarqInfoList = pass.ulHarqInfoList)
      (dlPass c wbCqiRxed infos pass) := by
  unfold dlPass
  refine (yields_dlFeedbacks hpass.outlines hhas hinfos).bind fun f hf => ?_
  obtain ⟨hfOwned, hfNoted⟩ := dlFeedback_owned hf howned
  have hfOutlines : f.1.outlines = h.outlines :=
    feedback_invariant (I := fun f => f.1.outlines = h.outlines) hf hpass.outlines
      fun _ _ _ _ _ hf hok => (dlFeedback_outlines hok).trans hf
  have hfKnown : (dlRetx c).NotedKnown infos h.Configured n f.2 := by
    intro x hx
    obtain ⟨info, hinfo⟩ := dlNoted_mem hf x hx
    exact ⟨info, hinfo, hinfos info (List.mem_of_getElem? hinfo)⟩
  have hstart : (dlRetx c).Keeps infos n h P
      { harq := f.1
        placement := pass.placement
        ueInfo := pass.ueInfo
        itUeInfo := none
        sortedHarqRetx := f.2 } :=
    ⟨hfOutlines, hfOwned, hfNoted, hfKnown, hpass.slots, hpass.ues, fun _ hinfo => nomatch hinfo⟩
  have hloop : Yields Benign (fun r => (dlRetx c).Keeps infos n h P r ∧ SameUl f.1 r.harq)
      (dlLoop c infos
        { harq := f.1
          placement := pass.placement
          ueInfo := pass.ueInfo
          itUeInfo := none
          sortedHarqRetx := f.2 }) := by
    by_cases hnothing : DlNothingAgain wbCqiRxed pass.harq infos
    · -- without a retransmission there is no round
      have hnil := dlNoted_nil hf hnothing
      unfold dlLoop
      rw [hnil] at hstart ⊢
      exact ⟨hstart, SameUl.refl⟩
    refine (RetxLoop.yields_rounds hstart (Nat.le_refl _) fun r hr hsorted => ?_).and
      fun r hok => dlLoop_sameUl hok
    refine (RetxLoop.yields_round hsorted hr.noted
      (fun rnti hrnti => ((hhas rnti hrnti).of_outlines hr.outlines).dlDcis) ?_).and_ok ?_
    · intro info dci p hinfo hknown hid hx hdci
      obtain ⟨x, hx, hinfo'⟩ := hx
      exact yields_placeDl ((hhas _ hknown).of_outlines hr.outlines) hid
        (hr.notedOwned x hx info hinfo' dci hdci)
    · intro result hok
      obtain ⟨howned', hnoted'⟩ := dlRound_owned hok ⟨hr.owned, hr.notedOwned⟩
      exact hr.round dlRetx_addsSlot (hP hnothing) hok (dlRound_outlines hok) howned' hnoted'
  refine hloop.bind fun r ⟨hr, hsame⟩ => ?_
  refine ⟨⟨hr.outlines, ?_, hr.ues⟩, hr.owned, (dlFeedback_sameUl hf).trans hsame, hr.untxed, rfl⟩
  dsimp only
  split
  · exact hr.slots.closeDl
  · exact hr.slots

/-- The uplink pass over feedback of configured UEs, and good one of others. -/
theorem yields_ulPass {infos : List UlHarqInfo} {pass : HarqPass} (hpass : pass.Keeps h P)
    (howned : pass.harq.Owned) (hhas : ∀ rnti, h.Configured rnti → h.Has n rnti)
    (hother : ∀ rnti, ¬h.Configured rnti → shape h.ulHarqProcessesStatus rnti = none)
    (hinfos : ∀ info ∈ infos, h.Configured info.rnti ∧ info.harqProcessId < n ∨
      info.receptionStatus = .ok ∧ ¬h.Configured info.rnti)
    (hP : ¬UlNothingAgain pass.harq infos → ∀ a : SlotAllocInfo, h.Configured a.dci.rnti → P a) :
    Yields Benign (fun pass' => pass'.Keeps h P ∧ pass'.harq.Owned ∧
        pass'.dlHarqInfoList = pass.dlHarqInfoList ∧
        ∀ info ∈ pass'.ulHarqInfoList, h.Configured info.rnti)
      (ulPass c infos pass) := by
  unfold ulPass
  refine (yields_ulFeedbacks hpass.outlines hhas hother hinfos).bind fun f hf => ?_
  obtain ⟨hfOwned, hfNoted⟩ := ulFeedback_owned hf howned
  have hfOutlines : f.1.outlines = h.outlines :=
    feedback_invariant (I := fun f => f.1.outlines = h.outlines) hf hpass.outlines
      fun _ _ _ _ _ hf hok => (ulFeedback_outlines hok).trans hf
  have hfKnown : (ulRetx c).NotedKnown infos h.Configured n f.2 := by
    intro x hx
    obtain ⟨info, hinfo, hnack⟩ := ulNoted_nack hf x hx
    rcases hinfos info (List.mem_of_getElem? hinfo) with hknown | ⟨hgood, -⟩
    · exact ⟨info, hinfo, hknown⟩
    · rw [hnack] at hgood
      cases hgood
  dsimp only
  generalize (infos.getLast?.bind fun info =>
    if info.rnti ∈ pass.ueInfo then some info.rnti else none) = visited
  have hstart : (ulRetx c).Keeps infos n h P
      { harq := f.1
        placement := pass.placement
        ueInfo := pass.ueInfo
        itUeInfo := visited
        sortedHarqRetx := f.2 } :=
    ⟨hfOutlines, hfOwned, hfNoted, hfKnown, hpass.slots, hpass.ues, fun _ hinfo => nomatch hinfo⟩
  have hloop : Yields Benign ((ulRetx c).Keeps infos n h P)
      (ulLoop c infos
        { harq := f.1
          placement := pass.placement
          ueInfo := pass.ueInfo
          itUeInfo := visited
          sortedHarqRetx := f.2 }) := by
    by_cases hnothing : UlNothingAgain pass.harq infos
    · have hnil := ulNoted_nil hf hnothing
      unfold ulLoop
      rw [hnil] at hstart ⊢
      exact hstart
    refine RetxLoop.yields_rounds hstart (Nat.min_le_right _ _) fun r hr hsorted => ?_
    refine (RetxLoop.yields_round hsorted hr.noted
      (fun rnti hrnti => ((hhas rnti hrnti).of_outlines hr.outlines).ulDcis) ?_).and_ok ?_
    · intro info dci p hinfo hknown hid _ _
      exact yields_placeUl ((hhas _ hknown).of_outlines hr.outlines) hid
    · intro result hok
      obtain ⟨howned', hnoted'⟩ := ulRound_owned hok ⟨hr.owned, hr.notedOwned⟩
      exact hr.round ulRetx_addsSlot (hP hnothing) hok (ulRound_outlines hok) howned' hnoted'
  refine hloop.bind fun r hr => ?_
  refine ⟨⟨hr.outlines, ?_, hr.ues⟩, hr.owned, rfl, hr.untxed⟩
  dsimp only
  split
  · exact hr.slots.closeUl
  · exact hr.slots

end

/-! ## Triggers -/

/-- What is known of the scheduler along a run. -/
structure PaddedHbf.Sane (c : PaddedHbfConfig) (s : PaddedHbf) : Prop where
  shaped : s.harq.Shaped c.phyMac.numHarqProcess
  dlTimers : s.harq.dlHarqProcessesTimer.keys.Nodup
  ulTimers : s.harq.ulHarqProcessesTimer.keys.Nodup
  cqis : ∀ rnti cqi, s.ueUlCqi.find rnti = some cqi → c.phyMac.totalNumChunk ≤ cqi.ueUlCqi.length
  owned : c.harqOn = true → s.harq.Owned

/-- A trigger only hears of UEs that are configured, and of processes that they have, except that
it may hear of good uplink blocks of others. -/
structure HearsOfConfigured (c : PaddedHbfConfig) (s refreshed : PaddedHbf)
    (dlInfos : List DlHarqInfo) (ulInfos : List UlHarqInfo) : Prop where
  dl : c.harqOn = true → ∀ info ∈ dlInfos,
    s.harq.Configured info.rnti ∧ info.harqProcessId < c.phyMac.numHarqProcess
  ul : c.harqOn = true → ∀ info ∈ ulInfos,
    s.harq.Configured info.rnti ∧ info.harqProcessId < c.phyMac.numHarqProcess ∨
      info.receptionStatus = .ok ∧ ¬s.harq.Configured info.rnti
  requests : ∀ req ∈ s.rlcBufferReq, refreshed.Asks c req → s.harq.Configured req.rnti
  bsrs : c.dlOnly = false → ∀ entry ∈ s.ceBsrRxed, 0 < entry.2 → s.harq.Configured entry.1

instance HearsOfConfigured.decidable {s refreshed : PaddedHbf} {dlInfos : List DlHarqInfo}
    {ulInfos : List UlHarqInfo} : Decidable (HearsOfConfigured c s refreshed dlInfos ulInfos) :=
  decidable_of_iff ((c.harqOn = true → ∀ info ∈ dlInfos,
      s.harq.Configured info.rnti ∧ info.harqProcessId < c.phyMac.numHarqProcess) ∧
    (c.harqOn = true → ∀ info ∈ ulInfos,
      s.harq.Configured info.rnti ∧ info.harqProcessId < c.phyMac.numHarqProcess ∨
        info.receptionStatus = .ok ∧ ¬s.harq.Configured info.rnti) ∧
    (∀ req ∈ s.rlcBufferReq, refreshed.Asks c req → s.harq.Configured req.rnti) ∧
    (c.dlOnly = false → ∀ entry ∈ s.ceBsrRxed, 0 < entry.2 → s.harq.Configured entry.1))
    ⟨fun ⟨hdl, hul, hrequests, hbsrs⟩ => ⟨hdl, hul, hrequests, hbsrs⟩,
      fun h => ⟨h.dl, h.ul, h.requests, h.bsrs⟩⟩

/-- Nothing is to be sent again. -/
def NothingAgain (c : PaddedHbfConfig) (refreshed : PaddedHbf) (dlInfos : List DlHarqInfo)
    (ulInfos : List UlHarqInfo) : Prop :=
  c.harqOn = true →
    DlNothingAgain refreshed.wbCqiRxed refreshed.harq dlInfos ∧ UlNothingAgain refreshed.harq ulInfos

section
variable {s s' : PaddedHbf} {params : SchedTriggerReqParameters}

/-- What is found in a CQI map after its timers were looked at was found before. -/
theorem yields_refreshCqi {α : Type} {cqis : OrderedMap α} {timers : OrderedMap Nat} :
    Yields Benign (fun maps : OrderedMap α × OrderedMap Nat =>
        ∀ rnti a, maps.1.find rnti = some a → cqis.find rnti = some a)
      (timers.foldlM PaddedHbf.refreshCqi (cqis, timers)) := by
  refine yields_foldlM (I := fun (maps : OrderedMap α × OrderedMap Nat) _ =>
    ∀ rnti a, maps.1.find rnti = some a → cqis.find rnti = some a) (fun _ _ h => h) ?_
  intro maps timer rest hmaps
  unfold PaddedHbf.refreshCqi
  split
  · refine (yields_assert _).bind fun _ _ => ?_
    intro rnti a ha
    rw [OrderedMap.find_erase] at ha
    split at ha
    · cases ha
    · exact hmaps rnti a ha
  · exact hmaps

theorem yields_refreshHarqProcesses {E : Fault → Prop} {h : HarqProcesses}
    (hh : h.Shaped c.phyMac.numHarqProcess) (hdl : h.dlHarqProcessesTimer.keys.Nodup)
    (hul : h.ulHarqProcessesTimer.keys.Nodup) :
    Yields E (fun _ => True) (h.refreshHarqProcesses c.phyMac) := by
  unfold HarqProcesses.refreshHarqProcesses
  refine (yields_tick hdl (fun rnti => (hh.dlTimer_shape rnti).1)
    fun rnti => (hh.dlTimer_shape rnti).2).bind fun _ _ => ?_
  exact (yields_tick hul (fun rnti => (hh.ulTimer_shape rnti).1)
    fun rnti => (hh.ulTimer_shape rnti).2).bind fun _ _ => trivial

/-- What is known of the scheduler, apart from its records. -/
structure PaddedHbf.Tidy (c : PaddedHbfConfig) (s : PaddedHbf) : Prop where
  shaped : s.harq.Shaped c.phyMac.numHarqProcess
  dlTimers : s.harq.dlHarqProcessesTimer.keys.Nodup
  ulTimers : s.harq.ulHarqProcessesTimer.keys.Nodup
  cqis : ∀ rnti cqi, s.ueUlCqi.find rnti = some cqi → c.phyMac.totalNumChunk ≤ cqi.ueUlCqi.length

theorem PaddedHbf.Sane.tidy (hs : s.Sane c) : s.Tidy c :=
  ⟨hs.shaped, hs.dlTimers, hs.ulTimers, hs.cqis⟩

theorem PaddedHbf.Tidy.sane (hs : s.Tidy c) (howned : c.harqOn = true → s.harq.Owned) : s.Sane c :=
  ⟨hs.shaped, hs.dlTimers, hs.ulTimers, hs.cqis, howned⟩

/-- What a step does not need to say about a scheduler whose processes keep their UEs. -/
theorem PaddedHbf.Tidy.of_outlines (hs : s.Tidy c) (houtlines : s'.harq.outlines = s.harq.outlines)
    (hcqis : ∀ rnti cqi, s'.ueUlCqi.find rnti = some cqi → s.ueUlCqi.find rnti = some cqi) :
    s'.Tidy c := by
  obtain ⟨hdl, hul⟩ := timer_keys_of_outlines houtlines
  refine ⟨hs.shaped.of_outlines houtlines, ?_, ?_, fun rnti cqi h => hs.cqis rnti cqi
    (hcqis rnti cqi h)⟩
  · rw [hdl]
    exact hs.dlTimers
  · rw [hul]
    exact hs.ulTimers

theorem PaddedHbf.Sane.of_outlines (hs : s.Sane c) (houtlines : s'.harq.outlines = s.harq.outlines)
    (hcqis : ∀ rnti cqi, s'.ueUlCqi.find rnti = some cqi → s.ueUlCqi.find rnti = some cqi)
    (howned : c.harqOn = true → s'.harq.Owned) : s'.Sane c :=
  (hs.tidy.of_outlines houtlines hcqis).sane howned

/-- What a refresh keeps. -/
theorem PaddedHbf.Tidy.refresh (hs : s.Tidy c) (hok : s.refresh c = .ok s') :
    s'.Tidy c ∧ s'.harq.outlines = s.harq.outlines ∧ s'.rlcBufferReq = s.rlcBufferReq ∧
      s'.ceBsrRxed = s.ceBsrRxed := by
  have houtlines := PaddedHbf.refresh_outlines hok
  unfold PaddedHbf.refresh PaddedHbf.refreshDlCqiMaps PaddedHbf.refreshUlCqiMaps at hok
  simp only [bind_assoc, pure_bind] at hok
  obtain ⟨dlMaps, -, hok⟩ := bind_eq_ok.1 hok
  obtain ⟨ulMaps, hul, hok⟩ := bind_eq_ok.1 hok
  obtain ⟨harq, -, hok⟩ := bind_eq_ok.1 hok
  obtain rfl := pure_eq_ok.1 hok
  exact ⟨hs.of_outlines houtlines (yields_refreshCqi.of_ok hul), houtlines, rfl, rfl⟩

/-- A refresh. -/
theorem PaddedHbf.yields_refresh (hs : s.Sane c) :
    Yields Benign (fun s' => s'.Sane c ∧ s.refresh c = .ok s' ∧ s'.harq.outlines = s.harq.outlines ∧
        s'.rlcBufferReq = s.rlcBufferReq ∧ s'.ceBsrRxed = s.ceBsrRxed)
      (s.refresh c) := by
  have hbenign : Yields Benign (fun _ : PaddedHbf => True) (s.refresh c) := by
    unfold PaddedHbf.refresh PaddedHbf.refreshDlCqiMaps PaddedHbf.refreshUlCqiMaps
    simp only [bind_assoc, pure_bind]
    refine yields_refreshCqi.bind fun _ _ => ?_
    refine yields_refreshCqi.bind fun _ _ => ?_
    exact (yields_refreshHarqProcesses hs.shaped hs.dlTimers hs.ulTimers).bind fun _ _ => trivial
  refine hbenign.and_ok fun s' hok => ?_
  obtain ⟨htidy, hkept⟩ := hs.tidy.refresh hok
  exact ⟨htidy.sane fun hharq => PaddedHbf.refresh_owned hok (hs.owned hharq), hok, hkept⟩

/-- What a slot is allowed to be. -/
def OfConfigured (h : HarqProcesses) (nothingAgain : Prop) (a : SlotAllocInfo) : Prop :=
  h.Configured a.dci.rnti ∧ (nothingAgain → a.rnti.isSome)

/-- The feedback that waits is that of configured UEs. -/
def WaitsForConfigured (h : HarqProcesses) (dlInfos : List DlHarqInfo)
    (ulInfos : List UlHarqInfo) : Prop :=
  (∀ info ∈ dlInfos, h.Configured info.rnti) ∧ ∀ info ∈ ulInfos, h.Configured info.rnti

/-- The passes over the retransmissions, after a refresh. -/
theorem PaddedHbf.yields_scheduleRetx {refreshed : PaddedHbf} (hs : s.Sane c)
    (hrefreshed : refreshed.Sane c) (hok : s.refresh c = .ok refreshed)
    (hears : HearsOfConfigured c s refreshed (s.dlHarqInfoList ++ params.dlHarqInfoList)
      (s.ulHarqInfoList ++ params.ulHarqInfoList)) :
    Yields Benign (fun pass =>
        pass.Keeps s.harq (OfConfigured s.harq (NothingAgain c refreshed
          (s.dlHarqInfoList ++ params.dlHarqInfoList)
          (s.ulHarqInfoList ++ params.ulHarqInfoList))) ∧
        (c.harqOn = true → pass.harq.Owned ∧
          WaitsForConfigured s.harq pass.dlHarqInfoList pass.ulHarqInfoList))
      (refreshed.scheduleRetx c params) := by
  obtain ⟨hdlInfos, hulInfos, -⟩ := PaddedHbf.refresh_ok hok
  have houtlines := PaddedHbf.refresh_outlines hok
  unfold PaddedHbf.scheduleRetx
  rw [hdlInfos, hulInfos]
  generalize s.dlHarqInfoList ++ params.dlHarqInfoList = dlInfos at hears ⊢
  generalize s.ulHarqInfoList ++ params.ulHarqInfoList = ulInfos at hears ⊢
  have hhas : ∀ rnti, s.harq.Configured rnti → s.harq.Has c.phyMac.numHarqProcess rnti :=
    fun rnti => hs.shaped.has
  have hstart : (Placement.start c).All (OfConfigured s.harq
      (NothingAgain c refreshed dlInfos ulInfos)) :=
    fun i => ⟨fun _ ha => (List.not_mem_nil ha).elim, fun _ ha => (List.not_mem_nil ha).elim⟩
  split
  swap
  · rename_i hoff
    exact ⟨⟨houtlines, hstart, fun _ h => (List.not_mem_nil h).elim⟩, fun hon => absurd hon hoff⟩
  rename_i hon
  refine (yields_dlPass (h := s.harq) ⟨houtlines, hstart, fun _ h => (List.not_mem_nil h).elim⟩
    (hrefreshed.owned hon) hhas (hears.dl hon) ?_).bind fun pass hpass => ?_
  · intro hagain a ha
    exact ⟨ha, fun hnothing => absurd (hnothing hon).1 hagain⟩
  obtain ⟨hkeeps, howned, hsame, hwaits, -⟩ := hpass
  refine (yields_ulPass hkeeps howned hhas (fun rnti => hs.shaped.ulStatus_none) (hears.ul hon)
    ?_).imp ?_
  · intro hagain a ha
    refine ⟨ha, fun hnothing => absurd ?_ hagain⟩
    -- the downlink pass leaves the records of the uplink alone
    intro info hinfo first hfirst hlive
    apply (hnothing hon).2 info hinfo first hfirst
    obtain ⟨dci, hnack, hsent, hstored, hleft⟩ := hlive
    rw [hsame.status] at hsent
    rw [hsame.dcis] at hstored
    exact ⟨dci, hnack, hsent, hstored, hleft⟩
  · intro pass' ⟨hkeeps', howned', hdl, hul⟩
    exact ⟨hkeeps', fun _ => ⟨howned', hdl ▸ hwaits, hul⟩⟩

/-- A trigger that only hears of configured UEs reads nothing that is not there. -/
theorem PaddedHbf.yields_schedule (hs : s.Sane c)
    (hears : ∀ refreshed, s.refresh c = .ok refreshed →
      HearsOfConfigured c s refreshed (s.dlHarqInfoList ++ params.dlHarqInfoList)
        (s.ulHarqInfoList ++ params.ulHarqInfoList)) :
    Yields Benign (fun result => result.1.Sane c ∧
        (c.harqOn = true →
          WaitsForConfigured s.harq result.1.dlHarqInfoList result.1.ulHarqInfoList) ∧
        ∃ refreshed, s.refresh c = .ok refreshed ∧
          result.2.All (OfConfigured s.harq (NothingAgain c refreshed
            (s.dlHarqInfoList ++ params.dlHarqInfoList)
            (s.ulHarqInfoList ++ params.ulHarqInfoList))))
      (s.schedule c params) := by
  unfold PaddedHbf.schedule
  split
  · exact benign_endless
  refine (PaddedHbf.yields_refresh hs).bind fun refreshed ⟨hrefreshed, hok, houtlines, hrequests,
    hbsrs⟩ => ?_
  have hears := hears refreshed hok
  refine (PaddedHbf.yields_scheduleRetx hs hrefreshed hok hears).bind fun pass
    ⟨hkeeps, hon⟩ => ?_
  refine Yields.imp (Yields.and (yields_scheduleNewData
    hrefreshed.cqis hkeeps.ues (hrequests ▸ hears.requests) (hbsrs ▸ hears.bsrs)
    (fun rnti hrnti => (hs.shaped.has hrnti).of_outlines hkeeps.outlines) ?_ hkeeps.slots)
    (Q := fun result => c.harqOn = true → result.1.harq.Owned) ?_) ?_
  · intro a rnti hrnti ha hdci
    refine ⟨hdci ▸ hrnti, fun _ => ?_⟩
    rw [ha]
    rfl
  · exact fun result hnew hharqOn => scheduleNewData_owned hharqOn hnew (hon hharqOn).1
  · intro result ⟨⟨hharq, hcqis, hdl, hul, hslots⟩, howned⟩
    refine ⟨hrefreshed.of_outlines (hharq.trans (hkeeps.outlines.trans houtlines.symm)) ?_ howned,
      ?_, refreshed, hok, hslots⟩
    · intro rnti cqi hcqi
      rw [hcqis] at hcqi
      exact hcqi
    · rw [hdl, hul]
      exact fun hharqOn => (hon hharqOn).2

end

/-! ## Every run -/

/-- The SINRs of a UE are known for every chunk. -/
theorem PaddedHbf.cqis_schedUlCqiInfoReq {s : PaddedHbf} {sfnSf : SfnSf} {sinr : List Nat}
    (hs : ∀ rnti cqi, s.ueUlCqi.find rnti = some cqi →
      c.phyMac.totalNumChunk ≤ cqi.ueUlCqi.length) :
    ∀ rnti cqi, (s.schedUlCqiInfoReq c sfnSf sinr).ueUlCqi.find rnti = some cqi →
      c.phyMac.totalNumChunk ≤ cqi.ueUlCqi.length := by
  unfold schedUlCqiInfoReq
  split
  · exact hs
  rename_i allocation _
  have hfoldl : ∀ is : List Nat, ∀ rnti cqi,
      (is.foldl (ulCqi c allocation sinr) s).ueUlCqi.find rnti = some cqi →
        c.phyMac.totalNumChunk ≤ cqi.ueUlCqi.length := fun is =>
    Run.invariant (I := fun s : PaddedHbf => ∀ rnti cqi, s.ueUlCqi.find rnti = some cqi →
      c.phyMac.totalNumChunk ≤ cqi.ueUlCqi.length) ?_ hs
  · exact hfoldl _
  intro s i hs rnti cqi
  unfold ulCqi
  dsimp only
  split
  · rename_i hnone
    dsimp only
    rw [OrderedMap.find_insertNew]
    split
    · intro hcqi
      rw [hnone, Option.getD_none] at hcqi
      obtain rfl := Option.some.inj hcqi
      simp
    · exact hs rnti cqi
  · dsimp only
    rw [OrderedMap.find_adjust]
    split
    · intro hcqi
      obtain ⟨old, hold, rfl⟩ := Option.map_eq_some_iff.1 hcqi
      simpa using hs _ old hold
    · exact hs rnti cqi

namespace SchedulerRun

theorem request_ueUlCqi {s : PaddedHbf} {event : SchedulerEvent}
    (hevent : ∀ sfnSf sinr, event ≠ .schedUlCqiInfoReq sfnSf sinr) :
    (request c event s).ueUlCqi = s.ueUlCqi := by
  have hfoldl : ∀ {Report : Type} {f : PaddedHbf → Report → PaddedHbf},
      (∀ s report, (f s report).ueUlCqi = s.ueUlCqi) → ∀ reports : List Report,
      (reports.foldl f s).ueUlCqi = s.ueUlCqi := fun hf reports =>
    Run.invariant (I := fun s' : PaddedHbf => s'.ueUlCqi = s.ueUlCqi)
      (fun s' report hs' => (hf s' report).trans hs') rfl
  cases event with
  | cschedUeConfigReq rnti reconfigureFlag iab =>
      simp only [request, PaddedHbf.cschedUeConfigReq]
      split <;> rfl
  | cschedUeReleaseReq rnti => rfl
  | cschedLcReleaseReq rnti lcids => rfl
  | schedDlRlcBufferReq params =>
      simp only [request, PaddedHbf.schedDlRlcBufferReq]
      split <;> rfl
  | schedDlCqiInfoReq reports =>
      refine hfoldl (fun s report => ?_) reports
      unfold PaddedHbf.dlCqi
      split <;> rfl
  | schedUlCqiInfoReq sfnSf sinr => exact absurd rfl (hevent sfnSf sinr)
  | schedUlMacCtrlInfoReq reports =>
      exact hfoldl (f := fun s report => s.bsr report) (fun _ _ => rfl) reports
  | schedSetMcs mcs =>
      simp only [request, PaddedHbf.schedSetMcs]
      split <;> rfl
  | schedTriggerReq params => rfl

theorem request_tidy {s : PaddedHbf} {event : SchedulerEvent} (hs : s.Tidy c) :
    (request c event s).Tidy c := by
  have hcqis : ∀ rnti cqi, (request c event s).ueUlCqi.find rnti = some cqi →
      c.phyMac.totalNumChunk ≤ cqi.ueUlCqi.length := by
    by_cases hevent : ∀ sfnSf sinr, event ≠ .schedUlCqiInfoReq sfnSf sinr
    · rw [request_ueUlCqi hevent]
      exact hs.cqis
    · simp only [not_forall, not_not] at hevent
      obtain ⟨sfnSf, sinr, rfl⟩ := hevent
      exact PaddedHbf.cqis_schedUlCqiInfoReq hs.cqis
  obtain ⟨⟨rnti, _, _, -, heq⟩ | ⟨rnti, -, heq⟩ | heq, -⟩ := request_harq (c := c) (s := s) event
  · have hconfigured : (s.harq.configureUe c.phyMac rnti).dlHarqProcessesTimer.keys.Nodup ∧
        (s.harq.configureUe c.phyMac rnti).ulHarqProcessesTimer.keys.Nodup := by
      rcases hs.shaped.configureUe_eq rnti with hsame | ⟨-, hnew⟩
      · rw [hsame]
        exact ⟨hs.dlTimers, hs.ulTimers⟩
      · rw [hnew]
        exact ⟨OrderedMap.nodup_insertNew hs.dlTimers, OrderedMap.nodup_insertNew hs.ulTimers⟩
    refine ⟨?_, ?_, ?_, hcqis⟩ <;> rw [heq]
    · exact hs.shaped.configureUe
    · exact hconfigured.1
    · exact hconfigured.2
  · refine ⟨?_, ?_, ?_, hcqis⟩ <;> rw [heq]
    · exact hs.shaped.releaseUe
    · exact OrderedMap.nodup_erase hs.dlTimers
    · exact OrderedMap.nodup_erase hs.ulTimers
  · refine ⟨?_, ?_, ?_, hcqis⟩ <;> rw [heq]
    · exact hs.shaped
    · exact hs.dlTimers
    · exact hs.ulTimers

/-- A request keeps the scheduler sane. -/
theorem request_sane {s : PaddedHbf} {event : SchedulerEvent} (hs : s.Sane c) :
    (request c event s).Sane c := by
  refine (request_tidy hs.tidy).sane fun hon => ?_
  obtain ⟨⟨rnti, _, _, -, heq⟩ | ⟨rnti, -, heq⟩ | heq, -⟩ := request_harq (c := c) (s := s) event
  · rw [heq]
    exact (hs.owned hon).configureUe
  · rw [heq]
    exact (hs.owned hon).releaseUe
  · rw [heq]
    exact hs.owned hon

/-- If the event is a trigger, it only hears of configured UEs. -/
def TriggerOfConfigured (c : PaddedHbfConfig) (r : SchedulerRun) : SchedulerEvent → Prop
  | .schedTriggerReq params => ∀ refreshed, r.scheduler.refresh c = .ok refreshed →
      HearsOfConfigured c r.scheduler refreshed
        (r.scheduler.dlHarqInfoList ++ params.dlHarqInfoList)
        (r.scheduler.ulHarqInfoList ++ params.ulHarqInfoList)
  | _ => True

instance TriggerOfConfigured.decidable {r : SchedulerRun} :
    ∀ event, Decidable (TriggerOfConfigured c r event)
  | .schedTriggerReq _ => decidableForallOk _
  | .cschedUeConfigReq _ _ _ | .cschedUeReleaseReq _ | .cschedLcReleaseReq _ _
  | .schedDlRlcBufferReq _ | .schedDlCqiInfoReq _ | .schedUlCqiInfoReq _ _
  | .schedUlMacCtrlInfoReq _ | .schedSetMcs _ => isTrue trivial

/-- If the event is a trigger, there is nothing to be sent again. -/
def TriggerOfNewData (c : PaddedHbfConfig) (r : SchedulerRun) : SchedulerEvent → Prop
  | .schedTriggerReq params => ∀ refreshed, r.scheduler.refresh c = .ok refreshed →
      NothingAgain c refreshed (r.scheduler.dlHarqInfoList ++ params.dlHarqInfoList)
        (r.scheduler.ulHarqInfoList ++ params.ulHarqInfoList)
  | _ => True

/-- A step reaches no fatal error and reads no entry that is not there. A UE that is not configured
gets no slot, and no feedback waits for it after a trigger. -/
structure ReleaseSafe (c : PaddedHbfConfig) (r : SchedulerRun) (event : SchedulerEvent) : Prop where
  noFault : ∀ fault, (r.step c event).fault = some fault → Benign fault
  slots : ∀ ind, (r.step c event).emitted = ind :: r.emitted → ∀ a ∈ ind.slotAllocInfo,
    a.slotType = .ctrlData → r.scheduler.harq.Configured a.dci.rnti
  waits : c.harqOn = true → ∀ ind, (r.step c event).emitted = ind :: r.emitted →
    WaitsForConfigured r.scheduler.harq (r.step c event).scheduler.dlHarqInfoList
      (r.step c event).scheduler.ulHarqInfoList

/-- No slot of an allocation reads the RNTI of an entry that is not there. -/
def ReadsEntries (c : PaddedHbfConfig) (r : SchedulerRun) (event : SchedulerEvent) : Prop :=
  ∀ ind, (r.step c event).emitted = ind :: r.emitted → ∀ a ∈ ind.slotAllocInfo,
    a.slotType = .ctrlData → a.rnti.isSome

/-- What is known of a run: the scheduler is sane, and what stopped it is benign. -/
def Known (c : PaddedHbfConfig) (r : SchedulerRun) : Prop :=
  r.scheduler.Sane c ∧ ∀ fault, r.fault = some fault → Benign fault

/-- A trigger that only hears of configured UEs is safe. -/
theorem step_releaseSafe {r : SchedulerRun} {event : SchedulerEvent} (hr : Known c r)
    (hevent : TriggerOfConfigured c r event) :
    Known c (r.step c event) ∧ ReleaseSafe c r event ∧
      (TriggerOfNewData c r event → ReadsEntries c r event) := by
  obtain ⟨hs, hfault⟩ := hr
  -- without an allocation there is nothing to show of one
  have hquiet : (r.step c event).emitted = r.emitted →
      (∀ fault, (r.step c event).fault = some fault → Benign fault) →
      (r.step c event).scheduler.Sane c →
      Known c (r.step c event) ∧ ReleaseSafe c r event ∧
        (TriggerOfNewData c r event → ReadsEntries c r event) := by
    intro hemitted hfault' hsane
    have hnone : ∀ ind, (r.step c event).emitted ≠ ind :: r.emitted := by
      intro ind heq
      rw [hemitted] at heq
      exact List.cons_ne_self _ _ heq.symm
    exact ⟨⟨hsane, hfault'⟩, ⟨hfault', fun ind heq => absurd heq (hnone ind),
      fun _ ind heq => absurd heq (hnone ind)⟩, fun _ ind heq => absurd heq (hnone ind)⟩
  cases hstopped : r.fault with
  | some fault =>
      have hstep : r.step c event = r := by
        unfold step
        rw [hstopped]
      refine hquiet ?_ ?_ ?_ <;> rw [hstep]
      · exact hfault
      · exact hs
  | none =>
      by_cases htrigger : ∃ params, event = .schedTriggerReq params
      swap
      · have hstep : r.step c event = { r with scheduler := request c event r.scheduler } := by
          unfold step
          rw [hstopped]
          cases event with
          | schedTriggerReq params => exact absurd ⟨params, rfl⟩ htrigger
          | _ => rfl
        refine hquiet ?_ ?_ ?_ <;> rw [hstep]
        · exact hfault
        · exact request_sane hs
      obtain ⟨params, rfl⟩ := htrigger
      have hstep : r.step c (.schedTriggerReq params) = r.trigger c params := by
        unfold step
        rw [hstopped]
      have hschedule := PaddedHbf.yields_schedule hs hevent
      cases hok : r.scheduler.schedule c params with
      | error fault =>
          have htrigger : r.trigger c params = { r with fault := some fault } := by
            unfold trigger PaddedHbf.schedTriggerReq
            rw [hok]
            rfl
          refine hquiet ?_ ?_ ?_ <;> rw [hstep, htrigger]
          · intro fault' hfault'
            exact Option.some.inj hfault' ▸ hschedule.of_error hok
          · exact hs
      | ok result =>
          obtain ⟨hsane, hwaits, refreshed, hrefresh, hslots⟩ := hschedule.of_ok hok
          have htrigger : r.trigger c params = { r with
              scheduler := result.1
              emitted := ⟨params.sfnSf, mergeSlots c result.2, result.2.numSymAlloc,
                c.phyMac.numEnbLayers⟩ :: r.emitted } := by
            unfold trigger PaddedHbf.schedTriggerReq
            rw [hok]
            rfl
          have hdata : ∀ ind, (r.step c (.schedTriggerReq params)).emitted = ind :: r.emitted →
              ∀ a ∈ ind.slotAllocInfo, a.slotType = .ctrlData →
                OfConfigured r.scheduler.harq (NothingAgain c refreshed
                  (r.scheduler.dlHarqInfoList ++ params.dlHarqInfoList)
                  (r.scheduler.ulHarqInfoList ++ params.ulHarqInfoList)) a := by
            intro ind hind a ha htype
            rw [hstep, htrigger] at hind
            obtain rfl := (List.cons.inj hind).1
            obtain ⟨i, b, hb, heq⟩ := mem_mergeSlots ha htype
            have hslot : OfConfigured r.scheduler.harq _ b := hb.elim ((hslots i).1 b) ((hslots i).2 b)
            rw [OfConfigured, (fields_of_unnumbered heq).1, rnti_of_unnumbered heq]
            exact hslot
          refine ⟨⟨?_, ?_⟩, ⟨?_, fun ind hind a ha htype => (hdata ind hind a ha htype).1, ?_⟩, ?_⟩
          · rw [hstep, htrigger]
            exact hsane
          · rw [hstep, htrigger]
            exact hfault
          · rw [hstep, htrigger]
            exact hfault
          · intro hon ind _
            rw [hstep, htrigger]
            exact hwaits hon
          · intro hnew ind hind a ha htype
            exact (hdata ind hind a ha htype).2 (hnew refreshed hrefresh)

/-- A UE is released, and good feedback for its uplink block comes afterwards, with a NACK of the
other UE. -/
def releasedInTime : List SchedulerEvent :=
  twoUes ++ [.cschedUeReleaseReq 1, .schedTriggerReq {
    sfnSf := { sfNum := 1 }
    dlHarqInfoList := [⟨2, 0, .nack⟩]
    ulHarqInfoList := [⟨1, 0, .ok⟩] }]

/-- A UE is released, and feedback for its downlink block comes afterwards. -/
def releasedInFlight : List SchedulerEvent :=
  twoUes ++ [.cschedUeReleaseReq 1, .schedTriggerReq {
    sfnSf := { sfNum := 1 }
    dlHarqInfoList := [⟨1, 0, .ack⟩] }]

end SchedulerRun

end NtnIab.Mmwave
