import Mathlib.Logic.Relation
import NtnIab.Mmwave.SlotBundles

/-!
# The slots of the eNB PHY

What the functions of the PHY do when a slot starts: the control slot of the downlink, the slots of
a bundle, or the control slot of the uplink. The end of a slot changes only the list of the active
slots, unless the last slot has started, so the ends of slots may be passed over until the next
slot starts.
-/

namespace NtnIab.Mmwave

open Fallible

namespace EnbPhy

/-! ## Starts of slots -/

section
variable {μ : Type} {c : Config μ} {phy phy' : EnbPhy μ}

theorem Reaches.head (hstep : step c phy = .ok phy') {last : EnbPhy μ}
    (hrest : Reaches c phy' last) : Reaches c phy last :=
  Relation.ReflTransGen.head hstep hrest

theorem schedule_ok {delay : Int} {event : Event} (hdelay : 0 ≤ delay) :
    schedule delay event phy =
      .ok { phy with agenda := Agenda.schedule (phy.now + delay.toNat) event phy.agenda } := by
  rw [schedule, assert_eq_ok (u := ()).2 hdelay]
  rfl

theorem startLayers (phy : EnbPhy μ) (bundle : SlotBundleInfo) {tddMode : TddMode} {layers : Nat}
    (hslots : ∀ k < layers, ∃ slot,
      phy.currSfAllocInfo.slotAllocInfo[phy.slotNum + k]? = some slot ∧ slot.tddMode = tddMode)
    (hbound : phy.slotNum + layers ≤ 2 ^ 8) :
    (List.range layers).foldlM (startLayer bundle tddMode) phy =
      .ok { phy with
        slotNum := phy.slotNum + (layers - 1)
        allActiveSlotNums := phy.allActiveSlotNums ++ List.range' phy.slotNum layers
        handled := phy.handled ++ (List.range' phy.slotNum layers).map (·, bundle) } := by
  induction layers with
  | zero => simp [pure, Except.pure]
  | succ layers ih =>
      have hnum : (if layers > 0 then (phy.slotNum + (layers - 1) + 1) % 2 ^ 8
          else phy.slotNum + (layers - 1)) = phy.slotNum + layers := by
        split_ifs <;> omega
      obtain ⟨slot, hget, hmode⟩ := hslots layers (Nat.lt_succ_self layers)
      rw [List.range_succ, List.foldlM_append,
        ih (fun k hk => hslots k (Nat.lt_succ_of_lt hk)) (by omega), ok_bind, List.foldlM_cons,
        startLayer]
      dsimp only
      rw [hnum, elementAt_eq_ok.2 hget, ok_bind,
        assert_eq_ok (u := ()).2 fun hdl => hmode.trans hdl]
      simp [List.range'_1_concat, pure, Except.pure, bind, Except.bind]

/-- The slots of a group are started, with its bundle. -/
theorem startBundle_ok {group : List SlotAllocInfo} {bundles : List SlotBundleInfo}
    {tddMode : TddMode} (hbundles : phy.slotBundleList = bundleOf group :: bundles)
    (hslots : ∀ k < group.length, ∃ slot,
      phy.currSfAllocInfo.slotAllocInfo[phy.slotNum + k]? = some slot ∧ slot.tddMode = tddMode)
    (hbound : phy.slotNum + group.length ≤ 2 ^ 8)
    (hmmse : tddMode = .dl → c.mmseBeamforming = true) :
    startBundle c tddMode phy =
      .ok (c.symbolTime (bundleOf group).minNumSym,
        { phy with
          slotBundleList := bundles
          slotNum := phy.slotNum + (group.length - 1)
          allActiveSlotNums := phy.allActiveSlotNums ++ List.range' phy.slotNum group.length
          handled := phy.handled ++
            (List.range' phy.slotNum group.length).map (·, bundleOf group) }) := by
  have hset : ¬ (tddMode = .dl ∧ c.mmseBeamforming = false) := by
    rintro ⟨hdl, hnot⟩
    rw [hmmse hdl] at hnot
    cases hnot
  have hlayers := startLayers { phy with slotBundleList := bundles } (bundleOf group) hslots hbound
  unfold startBundle
  rw [hbundles]
  dsimp only
  rw [show (bundleOf group).numLayers = group.length from rfl, hlayers, ok_bind, if_neg hset]
  rfl

/-- After a slot that is not the last one, the next one is scheduled. -/
theorem scheduleSlots_next (phy : EnbPhy μ) {slotPeriod : Nat} {this next : SlotAllocInfo}
    (hnum : phy.slotNum + 1 < phy.currSfNumSlots)
    (hthis : phy.currSfAllocInfo.slotAllocInfo[phy.slotNum]? = some this)
    (hnext : phy.currSfAllocInfo.slotAllocInfo[phy.slotNum + 1]? = some next)
    (hle : c.symbolTime this.dci.symStart ≤ c.symbolTime next.dci.symStart) :
    scheduleSlots c slotPeriod phy =
      .ok { phy with
        agenda := Agenda.schedule
          (phy.now + (c.symbolTime next.dci.symStart - c.symbolTime this.dci.symStart))
          .incrSlotCtrAndStartSlot
          (Agenda.schedule (phy.now + slotPeriod) .endSlot phy.agenda) } := by
  unfold scheduleSlots
  rw [schedule_ok (Int.natCast_nonneg slotPeriod), ok_bind, if_pos (by dsimp only; omega),
    elementAt_eq_ok.2 hthis, ok_bind, Nat.add_comm 1, elementAt_eq_ok.2 hnext, ok_bind,
    schedule_ok (by omega)]
  dsimp only
  rw [Int.toNat_natCast, Int.toNat_sub]

/-- After the last slot only its end is scheduled, and so it is without slots. -/
theorem scheduleSlots_last (phy : EnbPhy μ) {slotPeriod : Nat}
    (hnum : ¬ (phy.slotNum : Int) < phy.currSfNumSlots - 1) :
    scheduleSlots c slotPeriod phy =
      .ok { phy with
        agenda := Agenda.schedule (phy.now + slotPeriod) .endSlot phy.agenda } := by
  unfold scheduleSlots
  rw [schedule_ok (Int.natCast_nonneg slotPeriod), ok_bind, if_neg hnum, Int.toNat_natCast]
  rfl

theorem stillActive_ok {slots : List SlotAllocInfo} (now : Nat) {active : List Nat}
    (hactive : ∀ i ∈ active, ∃ slot, slots[i]? = some slot) :
    ∃ others, stillActive c slots now active = .ok others ∧ others ⊆ active ∧
      ((∀ i ∈ active, ∀ slot, slots[i]? = some slot → c.symbolTime slot.dci.symEnd ≤ now) →
        others = []) := by
  induction active with
  | nil => exact ⟨[], rfl, List.Subset.refl _, fun _ => rfl⟩
  | cons i rest ih =>
      rw [List.forall_mem_cons] at hactive
      obtain ⟨others, hothers, hsub, hnone⟩ := ih hactive.2
      obtain ⟨slot, hget⟩ := hactive.1
      unfold stillActive
      rw [elementAt_eq_ok.2 hget, ok_bind, hothers, ok_bind]
      by_cases hover : c.symbolTime slot.dci.symEnd ≤ now
      · rw [if_pos hover]
        refine ⟨others, rfl, List.subset_cons_of_subset i hsub, fun hall => ?_⟩
        exact hnone (List.forall_mem_cons.1 hall).2
      · rw [if_neg hover]
        refine ⟨i :: others, rfl, List.cons_subset_cons i hsub, fun hall => ?_⟩
        exact (hover ((List.forall_mem_cons.1 hall).1 slot hget)).elim


/-- A data slot starts, and with it the others of its group. -/
theorem startSlot_bundle (phy : EnbPhy μ) {group : List SlotAllocInfo}
    {bundles : List SlotBundleInfo} {tddMode : TddMode} {this next : SlotAllocInfo}
    (hfirst : phy.slotNum ≠ 0) (hpos : 0 < group.length)
    (hbundles : phy.slotBundleList = bundleOf group :: bundles)
    (hslots : ∀ k < group.length, ∃ slot,
      phy.currSfAllocInfo.slotAllocInfo[phy.slotNum + k]? = some slot ∧ slot.tddMode = tddMode)
    (hnum : phy.slotNum + group.length < phy.currSfNumSlots)
    (hbound : phy.currSfNumSlots ≤ 2 ^ 8)
    (hmmse : tddMode = .dl → c.mmseBeamforming = true)
    (hthis : phy.currSfAllocInfo.slotAllocInfo[phy.slotNum + (group.length - 1)]? = some this)
    (hnext : phy.currSfAllocInfo.slotAllocInfo[phy.slotNum + group.length]? = some next)
    (hle : c.symbolTime this.dci.symStart ≤ c.symbolTime next.dci.symStart) :
    ∃ mac infos, startSlot c phy = .ok
      { phy with
        mac := mac
        sfAllocInfo := infos
        slotBundleList := bundles
        slotNum := phy.slotNum + (group.length - 1)
        allActiveSlotNums := phy.allActiveSlotNums ++ List.range' phy.slotNum group.length
        handled := phy.handled ++
          (List.range' phy.slotNum group.length).map (·, bundleOf group)
        agenda := Agenda.schedule
          (phy.now + (c.symbolTime next.dci.symStart - c.symbolTime this.dci.symStart))
          .incrSlotCtrAndStartSlot
          (Agenda.schedule (phy.now + c.symbolTime (bundleOf group).minNumSym) .endSlot
            phy.agenda) } := by
  obtain ⟨slot, hslot, hmode⟩ := hslots 0 hpos
  have hlast : ¬ (phy.slotNum : Int) = phy.currSfNumSlots - 1 := by omega
  have hbundle := startBundle_ok (c := c) hbundles hslots (by omega) hmmse
  have hat : phy.slotNum + (group.length - 1) + 1 = phy.slotNum + group.length := by omega
  rw [← hat] at hnum hnext
  rw [Nat.add_zero] at hslot
  obtain ⟨started, hstarted⟩ : ∃ started : EnbPhy μ, started =
      { phy with
        slotBundleList := bundles
        slotNum := phy.slotNum + (group.length - 1)
        allActiveSlotNums := phy.allActiveSlotNums ++ List.range' phy.slotNum group.length
        handled := phy.handled ++
          (List.range' phy.slotNum group.length).map (·, bundleOf group) } := ⟨_, rfl⟩
  rw [← hstarted] at hbundle
  refine ⟨(indicateSlot c started).mac, (indicateSlot c started).sfAllocInfo, ?_⟩
  unfold startSlot runSlot
  rw [elementAt_eq_ok.2 hslot, ok_bind, if_neg hfirst, if_neg hlast, hmode, hbundle, ok_bind]
  subst hstarted
  exact scheduleSlots_next (indicateSlot c _) hnum hthis hnext hle

/-- The control slot of the downlink starts. -/
theorem startSlot_dl (phy : EnbPhy μ) {dl next : SlotAllocInfo} (hfirst : phy.slotNum = 0)
    (hnum : 1 < phy.currSfNumSlots) (hdl : phy.currSfAllocInfo.slotAllocInfo[0]? = some dl)
    (hnext : phy.currSfAllocInfo.slotAllocInfo[1]? = some next)
    (hle : c.symbolTime dl.dci.symStart ≤ c.symbolTime next.dci.symStart) :
    ∃ mac infos, startSlot c phy = .ok
      { phy with
        mac := mac
        sfAllocInfo := infos
        agenda := Agenda.schedule
          (phy.now + (c.symbolTime next.dci.symStart - c.symbolTime dl.dci.symStart))
          .incrSlotCtrAndStartSlot
          (Agenda.schedule (phy.now + c.symbolTime c.phyMacConfig.dlCtrlSymbols) .endSlot
            phy.agenda) } := by
  rw [← hfirst] at hdl
  rw [show 1 = phy.slotNum + 1 by rw [hfirst]] at hnext
  refine ⟨(indicateSlot c phy).mac, (indicateSlot c phy).sfAllocInfo, ?_⟩
  unfold startSlot runSlot
  rw [elementAt_eq_ok.2 hdl, ok_bind, if_pos hfirst, ok_bind]
  exact scheduleSlots_next (indicateSlot c phy) (by rw [indicateSlot, hfirst]; exact hnum)
    hdl hnext hle

/-- The control slot of the uplink starts. -/
theorem startSlot_ul (phy : EnbPhy μ) {ul : SlotAllocInfo} (hfirst : phy.slotNum ≠ 0)
    (hnum : phy.slotNum + 1 = phy.currSfNumSlots)
    (hul : phy.currSfAllocInfo.slotAllocInfo[phy.slotNum]? = some ul) :
    ∃ mac infos, startSlot c phy = .ok
      { phy with
        mac := mac
        sfAllocInfo := infos
        agenda := Agenda.schedule (phy.now + c.symbolTime c.phyMacConfig.ulCtrlSymbols) .endSlot
          phy.agenda } := by
  have hlast : (phy.slotNum : Int) = phy.currSfNumSlots - 1 := by omega
  refine ⟨(indicateSlot c phy).mac, (indicateSlot c phy).sfAllocInfo, ?_⟩
  unfold startSlot runSlot
  rw [elementAt_eq_ok.2 hul, ok_bind, if_neg hfirst, if_pos hlast, ok_bind]
  refine scheduleSlots_last (indicateSlot c phy) ?_
  rw [indicateSlot]
  dsimp only
  omega

/-! ## Waiting for the next start -/

/-- An end of a slot changes only the active slots, unless it ends the subframe. -/
theorem endSlot_waits (c : Config μ) (phy : EnbPhy μ)
    (hactive : ∀ i ∈ phy.allActiveSlotNums, ∃ slot,
      phy.currSfAllocInfo.slotAllocInfo[i]? = some slot)
    (hnum : (phy.slotNum : Int) ≠ phy.currSfNumSlots - 1) :
    ∃ active ⊆ phy.allActiveSlotNums,
      endSlot c phy = .ok { phy with allActiveSlotNums := active } := by
  obtain ⟨active, hok, hsub, -⟩ := stillActive_ok phy.now hactive
  refine ⟨active, hsub, ?_⟩
  unfold endSlot
  rw [hok, ok_bind, if_neg fun h => hnum h.2]
  rfl

/-- The ends of slots that come first are handled. -/
theorem reaches_later (c : Config μ) (phy : EnbPhy μ) {earlier later : List (Nat × Event)}
    (hagenda : phy.agenda = earlier ++ later)
    (hends : ∀ entry ∈ earlier, entry.2 = .endSlot)
    (hactive : ∀ i ∈ phy.allActiveSlotNums, ∃ slot,
      phy.currSfAllocInfo.slotAllocInfo[i]? = some slot)
    (hnum : (phy.slotNum : Int) ≠ phy.currSfNumSlots - 1) :
    ∃ now, ∃ active ⊆ phy.allActiveSlotNums,
      Reaches c phy { phy with now := now, agenda := later, allActiveSlotNums := active } := by
  induction earlier generalizing phy with
  | nil =>
      refine ⟨phy.now, phy.allActiveSlotNums, List.Subset.refl _, ?_⟩
      rw [← show phy.agenda = later from hagenda]
      exact .refl
  | cons entry rest ih =>
      rw [List.forall_mem_cons] at hends
      obtain ⟨time, event⟩ := entry
      obtain rfl : event = .endSlot := hends.1
      obtain ⟨active, hsub, hok⟩ := endSlot_waits c
        { phy with now := time, agenda := rest ++ later } hactive hnum
      have hstep : step c phy = .ok { phy with
          now := time
          agenda := rest ++ later
          allActiveSlotNums := active } := by
        rw [step, hagenda]
        exact hok
      obtain ⟨now, fewer, hfewer, hreach⟩ := ih
        { phy with
          now := time
          agenda := rest ++ later
          allActiveSlotNums := active } rfl hends.2 (fun i hi => hactive i (hsub hi)) hnum
      exact ⟨now, fewer, fun i hi => hsub (hfewer hi), hreach.head hstep⟩

end

end EnbPhy

end NtnIab.Mmwave
