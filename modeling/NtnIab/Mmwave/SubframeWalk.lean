import Mathlib.Order.Monotone.Defs
import NtnIab.Mmwave.SlotStarts

/-!
# A subframe of the eNB PHY

Whether the PHY goes through a subframe to its end: it builds a bundle for each group of data slots
with one start symbol, every data slot is started once and with the bundle of its group, and the
subframe ends once.

## Strategy

* Between two starts the agenda has one event that starts the next slot, and otherwise only ends of
  slots, which change nothing but the list of the active slots. So the next group starts, and an
  induction on the groups that are left leads to the control slot of the uplink.
* From there on only ends of slots are left. One of them is that of the control slot, when all data
  slots are over, so one of them ends the subframe, and those after it find slot number 0.

A used allocation has no slots: the number of the last one is then -1, which no slot number equals,
and the subframe does not end.
-/

namespace NtnIab.Mmwave

open Fallible

namespace EnbPhy

/-! ## What a subframe should do -/

/-- Times of symbols: a product with a number that is not negative. -/
structure SymbolTimes {μ : Type} (c : Config μ) : Prop where
  zero : c.symbolTime 0 = 0
  monotone : Monotone c.symbolTime

/-- An allocation for one subframe: the data slots lie between the control slots, sorted by their
start symbols, and all slots are over when the next subframe begins. -/
structure SubframeLayout {μ : Type} (c : Config μ) (slots : List SlotAllocInfo)
    (dl : SlotAllocInfo) (data : List SlotAllocInfo) (ul : SlotAllocInfo) : Prop where
  slots_eq : slots = dl :: (data ++ [ul])
  dlStart : dl.dci.symStart = 0
  sorted : data.Pairwise fun a b => a.dci.symStart ≤ b.dci.symStart
  direction : ∀ a ∈ data, ∀ b ∈ data, a.dci.symStart = b.dci.symStart → a.tddMode = b.tddMode
  beforeUl : ∀ slot ∈ data, slot.dci.symStart < ul.dci.symStart ∧
    slot.dci.symEnd ≤ ul.dci.symStart
  dlEnd : c.symbolTime c.phyMacConfig.dlCtrlSymbols ≤ c.sfPeriod
  dataEnd : ∀ slot ∈ data,
    c.symbolTime slot.dci.symStart + c.symbolTime slot.dci.numSym ≤ c.sfPeriod
  ulEnd : c.symbolTime ul.dci.symStart + c.symbolTime c.phyMacConfig.ulCtrlSymbols ≤ c.sfPeriod
  beamforming : ∀ slot ∈ data, slot.tddMode = .dl → c.mmseBeamforming = true

theorem SubframeLayout.length_eq {μ : Type} {c : Config μ} {slots data : List SlotAllocInfo}
    {dl ul : SlotAllocInfo} (hlayout : SubframeLayout c slots dl data ul) :
    slots.length = data.length + 2 := by
  rw [hlayout.slots_eq, List.length_cons, List.length_append, List.length_singleton]

section
variable {μ : Type} (c : Config μ)

/-- A subframe starts next, at a time, and it will find an allocation: its own, unless it was used
before. -/
structure Ready (time : Nat) (info : SfAllocInfo) (dl : SlotAllocInfo)
    (data : List SlotAllocInfo) (ul : SlotAllocInfo) (phy : EnbPhy μ) : Prop where
  agenda : phy.agenda = [(time, .startSubFrame)]
  slotNum : phy.slotNum = 0
  active : phy.allActiveSlotNums = []
  found : phy.sfAllocInfo[phy.sfn.sfNum]? = some info
  own : info.valid = true →
    info.sfnSf.frameNum = phy.sfn.frameNum ∧ info.sfnSf.sfNum = phy.sfn.sfNum
  layout : SubframeLayout c info.slotAllocInfo dl data ul

/-- The subframe has ended once, and the next one will start when it is over. -/
structure Ended (time : Nat) (before phy : EnbPhy μ) : Prop where
  agenda : phy.agenda = [(time + c.sfPeriod, .startSubFrame)]
  slotNum : phy.slotNum = 0
  active : phy.allActiveSlotNums = []
  sfn : phy.sfn = before.sfn.next c.phyMacConfig
  ended : phy.ended = before.ended + 1

end

/-- Every data slot is started once, in order, with the bundle of its group. -/
def EachOnce (slots data : List SlotAllocInfo) (handled : List (Nat × SlotBundleInfo)) : Prop :=
  handled.map Prod.fst = List.range' 1 data.length ∧
    ∀ entry ∈ handled, ∃ group ∈ groups data, ∃ slot ∈ group,
      slots[entry.1]? = some slot ∧ entry.2 = bundleOf group ∧
        entry.2.symStart = slot.dci.symStart

/-- The PHY goes through the whole subframe. Bundles are built for an allocation that was not used
before; every subframe ends. -/
def WalksThrough {μ : Type} (c : Config μ) (time : Nat) (info : SfAllocInfo)
    (data : List SlotAllocInfo) (phy : EnbPhy μ) : Prop :=
  (info.valid = true →
    ∃ begun, step c phy = .ok begun ∧ begun.slotBundleList = (groups data).map bundleOf) ∧
  ∃ closed, Reaches c phy closed ∧ Ended c time phy closed ∧
    (info.valid = true → ∃ handled, closed.handled = phy.handled ++ handled ∧
      EachOnce info.slotAllocInfo data handled)

/-! ## The turns of the slots -/

/-- The slots of groups from a slot number on, each with the bundle of its group. -/
def turns : Nat → List (List SlotAllocInfo) → List (Nat × SlotBundleInfo)
  | _, [] => []
  | i, group :: rest =>
      (List.range' i group.length).map (·, bundleOf group) ++ turns (i + group.length) rest

theorem turns_fst (i : Nat) (gs : List (List SlotAllocInfo)) :
    (turns i gs).map Prod.fst = List.range' i gs.flatten.length := by
  induction gs generalizing i with
  | nil => rfl
  | cons group rest ih =>
      have hfirst : ((List.range' i group.length).map (·, bundleOf group)).map Prod.fst =
          List.range' i group.length := by
        rw [List.map_map]
        exact List.map_id _
      rw [turns, List.map_append, hfirst, ih, List.flatten_cons, List.length_append,
        ← List.range'_append_1]

theorem mem_turns {i : Nat} {gs : List (List SlotAllocInfo)} {entry : Nat × SlotBundleInfo}
    (hmem : entry ∈ turns i gs) :
    i ≤ entry.1 ∧ ∃ group ∈ gs, ∃ slot ∈ group,
      gs.flatten[entry.1 - i]? = some slot ∧ entry.2 = bundleOf group := by
  induction gs generalizing i with
  | nil => exact (List.not_mem_nil hmem).elim
  | cons group rest ih =>
      rw [turns, List.mem_append] at hmem
      rcases hmem with hfirst | hlater
      · obtain ⟨j, hj, rfl⟩ := List.mem_map.1 hfirst
        rw [List.mem_range'_1] at hj
        have hlt : j - i < group.length := by omega
        refine ⟨hj.1, group, List.mem_cons_self, group[j - i], List.getElem_mem hlt, ?_, rfl⟩
        rw [List.flatten_cons, List.getElem?_append_left hlt]
        exact List.getElem?_eq_getElem hlt
      · obtain ⟨hle, other, hother, slot, hslot, hget, hbundle⟩ := ih hlater
        refine ⟨by omega, other, List.mem_cons_of_mem _ hother, slot, hslot, ?_, hbundle⟩
        rw [List.flatten_cons, List.getElem?_append_right (by omega), ← hget]
        congr 1
        omega

theorem eachOnce_turns {slots data : List SlotAllocInfo} {dl ul : SlotAllocInfo}
    (hslots : slots = dl :: (data ++ [ul])) (hgroups : Grouped ul (groups data)) :
    EachOnce slots data (turns 1 (groups data)) := by
  have hflatten : (groups data).flatten = data := List.flatten_splitBy _ _
  refine ⟨by rw [turns_fst, hflatten], fun entry hmem => ?_⟩
  obtain ⟨hle, group, hgroup, slot, hslot, hget, hbundle⟩ := mem_turns hmem
  refine ⟨group, hgroup, slot, hslot, ?_, hbundle, ?_⟩
  · have hlt : entry.1 - 1 < data.length := by
      rw [hflatten] at hget
      exact (List.getElem?_eq_some_iff.1 hget).1
    obtain ⟨j, hj⟩ : ∃ j, entry.1 = j + 1 := ⟨entry.1 - 1, by omega⟩
    rw [hflatten, hj, Nat.add_sub_cancel] at hget
    rw [hj, Nat.add_sub_cancel] at hlt
    rw [hslots, hj, List.getElem?_cons_succ, List.getElem?_append_left hlt, hget]
  · rw [hbundle]
    exact (hgroups.symStart_eq hgroup slot hslot).symm

section
variable {μ : Type} {c : Config μ} {phy phy' : EnbPhy μ}

/-! ## The way to the control slot of the uplink -/

/-- Only ends of slots, in time. -/
def EndSlots (latest : Nat) (agenda : List (Nat × Event)) : Prop :=
  ∀ entry ∈ agenda, entry.2 = .endSlot ∧ entry.1 ≤ latest

/-- The slots before `left` were started, and the next one is awaited. -/
structure Walking (c : Config μ) (time : Nat) (info : SfAllocInfo) (data : List SlotAllocInfo)
    (ul : SlotAllocInfo) (origin : EnbPhy μ) (done : List SlotAllocInfo)
    (left : List (List SlotAllocInfo)) (phy : EnbPhy μ) : Prop where
  info_eq : phy.currSfAllocInfo = info
  numSlots : phy.currSfNumSlots = data.length + 2
  start : phy.lastSfStart = time
  sfn : phy.sfn = origin.sfn
  ended : phy.ended = origin.ended
  bundles : phy.slotBundleList = left.map bundleOf
  data_eq : data = done ++ left.flatten
  slotNum : phy.slotNum = done.length
  agenda : ∃ earlier later, phy.agenda = earlier ++
      (time + c.symbolTime (left.flatten.headD ul).dci.symStart, .incrSlotCtrAndStartSlot) ::
        later ∧
    EndSlots (time + c.sfPeriod) (earlier ++ later)
  active : ∀ i ∈ phy.allActiveSlotNums, 1 ≤ i ∧ i ≤ data.length
  handled : phy.handled ++ turns (done.length + 1) left = origin.handled ++ turns 1 (groups data)

theorem getElem?_after {dl : SlotAllocInfo} {slots done more : List SlotAllocInfo}
    (hslots : slots = dl :: (done ++ more)) (k : Nat) : slots[done.length + 1 + k]? = more[k]? := by
  rw [hslots, Nat.add_right_comm, List.getElem?_cons_succ,
    List.getElem?_append_right (Nat.le_add_right _ _), Nat.add_sub_cancel_left]

section
variable {time : Nat} {info : SfAllocInfo} {dl ul : SlotAllocInfo} {data done group :
  List SlotAllocInfo} {left : List (List SlotAllocInfo)} {origin : EnbPhy μ}

theorem SubframeLayout.getElem?_data (hlayout : SubframeLayout c info.slotAllocInfo dl data ul)
    {i : Nat} (hi : 1 ≤ i ∧ i ≤ data.length) :
    ∃ slot ∈ data, info.slotAllocInfo[i]? = some slot := by
  have hlt : i - 1 < data.length := by omega
  refine ⟨data[i - 1], List.getElem_mem hlt, ?_⟩
  have hslots : info.slotAllocInfo = dl :: ([] ++ (data ++ [ul])) := hlayout.slots_eq
  have hafter := getElem?_after hslots (i - 1)
  rw [List.length_nil, Nat.zero_add, Nat.add_sub_of_le hi.1] at hafter
  rw [hafter, List.getElem?_append_left hlt]
  exact List.getElem?_eq_getElem hlt

/-- Everything before the next start is handled, and then it comes. -/
theorem Walking.reaches_start (hwalk : Walking c time info data ul origin done left phy)
    (hlayout : SubframeLayout c info.slotAllocInfo dl data ul) (hlength : data.length < 2 ^ 8 - 2) :
    ∃ later, EndSlots (time + c.sfPeriod) later ∧ ∃ active ⊆ phy.allActiveSlotNums,
      ∀ phy', startSlot c { phy with
        now := time + c.symbolTime (left.flatten.headD ul).dci.symStart
        agenda := later
        allActiveSlotNums := active
        slotNum := done.length + 1 } = .ok phy' → Reaches c phy phy' := by
  obtain ⟨earlier, later, hagenda, hends⟩ := hwalk.agenda
  have hle : done.length ≤ data.length := by
    rw [hwalk.data_eq, List.length_append]
    exact Nat.le_add_right _ _
  have hactive : ∀ i ∈ phy.allActiveSlotNums, ∃ slot,
      phy.currSfAllocInfo.slotAllocInfo[i]? = some slot := by
    intro i hi
    obtain ⟨slot, -, hget⟩ := hlayout.getElem?_data (hwalk.active i hi)
    exact ⟨slot, by rw [hwalk.info_eq, hget]⟩
  have hnum : (phy.slotNum : Int) ≠ phy.currSfNumSlots - 1 := by
    rw [hwalk.slotNum, hwalk.numSlots]
    omega
  obtain ⟨now, active, hsub, hreach⟩ := reaches_later c phy hagenda
    (fun entry hmem => (hends entry (List.mem_append_left _ hmem)).1) hactive hnum
  refine ⟨later, fun entry hmem => hends entry (List.mem_append_right _ hmem), active, hsub, ?_⟩
  intro phy' hok
  refine Relation.ReflTransGen.tail hreach ?_
  have hincr : (phy.slotNum + 1) % 2 ^ 8 = done.length + 1 := by
    rw [hwalk.slotNum]
    omega
  dsimp only [step, handle, incrSlotCtrAndStartSlot]
  rw [hincr]
  exact hok

/-- The next group is started. -/
theorem Walking.startGroup (hwalk : Walking c time info data ul origin done (group :: left) phy)
    (htimes : SymbolTimes c) (hlayout : SubframeLayout c info.slotAllocInfo dl data ul)
    (hlength : data.length < 2 ^ 8 - 2) (hgroups : Grouped ul (group :: left)) :
    ∃ phy', Reaches c phy phy' ∧
      Walking c time info data ul origin (done ++ group) left phy' := by
  obtain ⟨later, hends, active, hsub, hreach⟩ := hwalk.reaches_start hlayout hlength
  obtain ⟨hne, hsame, -, -⟩ := hgroups
  obtain ⟨slot, others, rfl⟩ := List.exists_cons_of_ne_nil hne
  set group := slot :: others with hgroup
  have hdata : data = done ++ (group ++ left.flatten) := hwalk.data_eq
  have hlengths : data.length = done.length + (group.length + left.flatten.length) := by
    rw [hdata, List.length_append, List.length_append]
  have hpos : 0 < group.length := Nat.succ_pos _
  have hslots : info.slotAllocInfo = dl :: (done ++ (group ++ (left.flatten ++ [ul]))) := by
    rw [hlayout.slots_eq, hdata]
    simp only [List.append_assoc]
  have hmem : ∀ other ∈ group, other ∈ data := by
    intro other hother
    rw [hdata]
    exact List.mem_append_right _ (List.mem_append_left _ hother)
  have hget : ∀ k < group.length, ∃ other ∈ group,
      info.slotAllocInfo[done.length + 1 + k]? = some other := by
    intro k hk
    refine ⟨group[k], List.getElem_mem hk, ?_⟩
    rw [getElem?_after hslots, List.getElem?_append_left hk]
    exact List.getElem?_eq_getElem hk
  have hmode : ∀ k < group.length, ∃ other,
      info.slotAllocInfo[done.length + 1 + k]? = some other ∧ other.tddMode = slot.tddMode := by
    intro k hk
    obtain ⟨other, hother, hat⟩ := hget k hk
    refine ⟨other, hat, hlayout.direction other (hmem other hother) slot
      (hmem slot List.mem_cons_self) ?_⟩
    rw [hsame other hother, hsame slot List.mem_cons_self]
  -- the slots after which the next one is scheduled
  obtain ⟨this, hthismem, hthis⟩ := hget (group.length - 1) (by omega)
  have hnext : info.slotAllocInfo[done.length + 1 + group.length]? =
      some (left.flatten.headD ul) := by
    rw [getElem?_after hslots, List.getElem?_append_right le_rfl, Nat.sub_self]
    cases left.flatten <;> rfl
  have hle : c.symbolTime this.dci.symStart ≤
      c.symbolTime (left.flatten.headD ul).dci.symStart := by
    apply htimes.monotone
    cases hleft : left.flatten with
    | nil => exact (hlayout.beforeUl this (hmem this hthismem)).1.le
    | cons next more =>
        have hsorted := hlayout.sorted
        rw [hdata, hleft] at hsorted
        have hafter := (List.pairwise_append.1 hsorted).2.1
        exact (List.pairwise_append.1 hafter).2.2 this hthismem next List.mem_cons_self
  obtain ⟨mac, infos, hok⟩ := startSlot_bundle (c := c)
    { phy with
      now := time + c.symbolTime slot.dci.symStart
      agenda := later
      allActiveSlotNums := active
      slotNum := done.length + 1 }
    (Nat.succ_ne_zero _) hpos hwalk.bundles
    (by
      dsimp only
      rw [hwalk.info_eq]
      exact hmode)
    (by
      dsimp only
      rw [hwalk.numSlots]
      omega)
    (by
      dsimp only
      rw [hwalk.numSlots]
      omega)
    (fun hdl => hlayout.beamforming slot (hmem slot List.mem_cons_self) hdl)
    (by
      dsimp only
      rw [hwalk.info_eq]
      exact hthis)
    (by
      dsimp only
      rw [hwalk.info_eq]
      exact hnext)
    hle
  refine ⟨_, hreach _ hok, ?_⟩
  have hthisStart : this.dci.symStart = slot.dci.symStart := by
    rw [hsame this hthismem, hsame slot List.mem_cons_self]
  have hnextTime : time + c.symbolTime slot.dci.symStart +
      (c.symbolTime (left.flatten.headD ul).dci.symStart - c.symbolTime this.dci.symStart) =
      time + c.symbolTime (left.flatten.headD ul).dci.symStart := by
    rw [hthisStart] at hle ⊢
    omega
  have hend : time + c.symbolTime slot.dci.symStart +
      c.symbolTime (bundleOf group).minNumSym ≤ time + c.sfPeriod := by
    have hmin : (bundleOf group).minNumSym ≤ slot.dci.numSym := minNumSym_le List.mem_cons_self
    calc
      _ ≤ time + c.symbolTime slot.dci.symStart + c.symbolTime slot.dci.numSym :=
          Nat.add_le_add_left (htimes.monotone hmin) _
      _ ≤ time + c.sfPeriod := by
          have hslot := hlayout.dataEnd slot (hmem slot List.mem_cons_self)
          omega
  have hlast : done.length + 1 + (group.length - 1) = (done ++ group).length := by
    rw [List.length_append]
    omega
  exact
    { info_eq := hwalk.info_eq
      numSlots := hwalk.numSlots
      start := hwalk.start
      sfn := hwalk.sfn
      ended := hwalk.ended
      bundles := rfl
      data_eq := by rw [hdata, List.append_assoc]
      slotNum := hlast
      agenda := by
        dsimp only
        rw [hnextTime]
        obtain ⟨earlier, rest, hsplit, hschedule⟩ := Agenda.exists_schedule_eq
          (time + c.symbolTime (left.flatten.headD ul).dci.symStart)
          Event.incrSlotCtrAndStartSlot (Agenda.schedule
            (time + c.symbolTime slot.dci.symStart + c.symbolTime (bundleOf group).minNumSym)
            .endSlot later)
        refine ⟨earlier, rest, hschedule, ?_⟩
        rw [hsplit]
        intro entry hentry
        rcases Agenda.mem_schedule.1 hentry with rfl | hlater
        · exact ⟨rfl, hend⟩
        · exact hends entry hlater
      active := by
        intro i hi
        rcases List.mem_append.1 hi with hold | hnew
        · exact hwalk.active i (hsub hold)
        · have hrange : done.length + 1 ≤ i ∧ i < done.length + 1 + group.length :=
            List.mem_range'_1.1 hnew
          omega
      handled := by
        rw [← hwalk.handled, turns, List.append_assoc, List.length_append,
          Nat.add_right_comm done.length] }

theorem Walking.reaches_ul (hwalk : Walking c time info data ul origin done left phy)
    (htimes : SymbolTimes c) (hlayout : SubframeLayout c info.slotAllocInfo dl data ul)
    (hlength : data.length < 2 ^ 8 - 2) (hgroups : Grouped ul left) :
    ∃ phy', Reaches c phy phy' ∧ Walking c time info data ul origin data [] phy' := by
  induction left generalizing done phy with
  | nil =>
      have hdone : data = done := by rw [hwalk.data_eq, List.flatten_nil, List.append_nil]
      subst hdone
      exact ⟨phy, .refl, hwalk⟩
  | cons group rest ih =>
      obtain ⟨started, hstarted, hnext⟩ := hwalk.startGroup htimes hlayout hlength hgroups
      obtain ⟨last, hlast, hfinal⟩ := ih hnext hgroups.2.2.2
      exact ⟨last, hstarted.trans hlast, hfinal⟩

/-! ## The end of the subframe -/

/-- The last slot has started, and what is left are ends of slots, its own among them. -/
structure Closing (c : Config μ) (time : Nat) (info : SfAllocInfo) (data : List SlotAllocInfo)
    (ul : SlotAllocInfo) (origin phy : EnbPhy μ) : Prop where
  info_eq : phy.currSfAllocInfo = info
  numSlots : phy.currSfNumSlots = data.length + 2
  start : phy.lastSfStart = time
  sfn : phy.sfn = origin.sfn
  ended : phy.ended = origin.ended
  slotNum : phy.slotNum = data.length + 1
  agenda : EndSlots (time + c.sfPeriod) phy.agenda
  ulEnd : ∃ entry ∈ phy.agenda, time + c.symbolTime ul.dci.symStart ≤ entry.1
  active : ∀ i ∈ phy.allActiveSlotNums, 1 ≤ i ∧ i ≤ data.length
  handled : phy.handled = origin.handled ++ turns 1 (groups data)

theorem Walking.closes (hwalk : Walking c time info data ul origin data [] phy)
    (hlayout : SubframeLayout c info.slotAllocInfo dl data ul) (hlength : data.length < 2 ^ 8 - 2) :
    ∃ phy', Reaches c phy phy' ∧ Closing c time info data ul origin phy' := by
  obtain ⟨later, hends, active, hsub, hreach⟩ := hwalk.reaches_start hlayout hlength
  have hslots : info.slotAllocInfo = dl :: (data ++ [ul]) := hlayout.slots_eq
  have hul : phy.currSfAllocInfo.slotAllocInfo[data.length + 1]? = some ul := by
    rw [hwalk.info_eq, hslots, List.getElem?_cons_succ, List.getElem?_concat_length]
  obtain ⟨mac, infos, hok⟩ := startSlot_ul (c := c)
    { phy with
      now := time + c.symbolTime ul.dci.symStart
      agenda := later
      allActiveSlotNums := active
      slotNum := data.length + 1 } (Nat.succ_ne_zero _) hwalk.numSlots.symm hul
  refine ⟨_, hreach _ hok, ?_⟩
  exact
    { info_eq := hwalk.info_eq
      numSlots := hwalk.numSlots
      start := hwalk.start
      sfn := hwalk.sfn
      ended := hwalk.ended
      slotNum := rfl
      agenda := by
        intro entry hentry
        rcases Agenda.mem_schedule.1 hentry with rfl | hlater
        · refine ⟨rfl, ?_⟩
          have hulEnd := hlayout.ulEnd
          dsimp only
          omega
        · exact hends entry hlater
      ulEnd := ⟨_, Agenda.mem_schedule.2 (Or.inl rfl), Nat.le_add_right _ _⟩
      active := fun i hi => hwalk.active i (hsub hi)
      handled := by
        rw [← hwalk.handled, turns, List.append_nil] }

theorem endSubFrame_ok (phy : EnbPhy μ) (hinTime : phy.now ≤ phy.lastSfStart + c.sfPeriod) :
    endSubFrame c phy = .ok { phy with
      slotNum := 0
      sfn := phy.sfn.next c.phyMacConfig
      ended := phy.ended + 1
      agenda := Agenda.schedule (phy.lastSfStart + c.sfPeriod) .startSubFrame phy.agenda } := by
  have hdelay : phy.now + (phy.lastSfStart + c.sfPeriod - phy.now : Int).toNat =
      phy.lastSfStart + c.sfPeriod := by omega
  unfold endSubFrame
  rw [schedule_ok (by omega)]
  dsimp only
  rw [hdelay]

/-- Once the subframe has ended, nothing more happens until the next one. -/
theorem ends_of_agenda (phy : EnbPhy μ) {earlier : List (Nat × Event)}
    (hagenda : phy.agenda = earlier ++ [(time + c.sfPeriod, .startSubFrame)])
    (hends : ∀ entry ∈ earlier, entry.2 = .endSlot) (hactive : phy.allActiveSlotNums = [])
    (hslotNum : phy.slotNum = 0) (hnum : phy.currSfNumSlots ≠ 1)
    (hsfn : phy.sfn = origin.sfn.next c.phyMacConfig) (hended : phy.ended = origin.ended + 1) :
    ∃ closed, Reaches c phy closed ∧ Ended c time origin closed ∧ closed.handled = phy.handled := by
  obtain ⟨now, active, hsub, hreach⟩ := reaches_later c phy hagenda hends
    (by
      rw [hactive]
      exact fun i hi => (List.not_mem_nil hi).elim)
    (by
      rw [hslotNum]
      omega)
  rw [hactive, List.subset_nil] at hsub
  subst hsub
  refine ⟨_, hreach, ?_, rfl⟩
  exact
    { agenda := rfl
      slotNum := hslotNum
      active := rfl
      sfn := hsfn
      ended := hended }

/-- One of the ends of slots ends the subframe. -/
theorem Closing.reaches_ended (hclosing : Closing c time info data ul origin phy)
    (htimes : SymbolTimes c) (hlayout : SubframeLayout c info.slotAllocInfo dl data ul) :
    ∃ closed, Reaches c phy closed ∧ Ended c time origin closed ∧
      closed.handled = origin.handled ++ turns 1 (groups data) := by
  obtain ⟨agenda, hagenda⟩ : ∃ agenda, phy.agenda = agenda := ⟨_, rfl⟩
  induction agenda generalizing phy with
  | nil =>
      obtain ⟨entry, hmem, -⟩ := hclosing.ulEnd
      rw [hagenda] at hmem
      exact (List.not_mem_nil hmem).elim
  | cons entry rest ih =>
      have hends := hclosing.agenda
      rw [hagenda, EndSlots, List.forall_mem_cons] at hends
      obtain ⟨now, event⟩ := entry
      obtain ⟨rfl, hnow⟩ : event = .endSlot ∧ now ≤ time + c.sfPeriod := hends.1
      have hactive : ∀ i ∈ phy.allActiveSlotNums, ∃ slot,
          phy.currSfAllocInfo.slotAllocInfo[i]? = some slot := by
        intro i hi
        obtain ⟨slot, -, hget⟩ := hlayout.getElem?_data (hclosing.active i hi)
        exact ⟨slot, by rw [hclosing.info_eq, hget]⟩
      obtain ⟨active, hstill, hsub, hover⟩ := stillActive_ok now hactive
      have hlast : (phy.slotNum : Int) = phy.currSfNumSlots - 1 := by
        rw [hclosing.slotNum, hclosing.numSlots]
        omega
      have hstep : step c phy =
          endSlot c { phy with now := now, agenda := rest } := by
        rw [step, hagenda]
        rfl
      by_cases hnone : active = []
      · -- the subframe ends now
        subst hnone
        obtain ⟨next, hnext⟩ : ∃ next : EnbPhy μ, next =
            { phy with
              now := now
              slotNum := 0
              sfn := phy.sfn.next c.phyMacConfig
              ended := phy.ended + 1
              allActiveSlotNums := []
              agenda := rest ++ [(time + c.sfPeriod, .startSubFrame)] } := ⟨_, rfl⟩
        have hschedule : Agenda.schedule (time + c.sfPeriod) Event.startSubFrame rest =
            rest ++ [(time + c.sfPeriod, .startSubFrame)] :=
          Agenda.schedule_of_le fun entry hmem => (hends.2 entry hmem).2
        have hok : step c phy = .ok next := by
          rw [hstep, endSlot]
          dsimp only
          rw [hstill, ok_bind, if_pos ⟨rfl, hlast⟩,
            endSubFrame_ok _ (by rw [hclosing.start]; exact hnow)]
          dsimp only
          rw [hclosing.start, hschedule, hnext, hclosing.start]
        have hnextAgenda : next.agenda = rest ++ [(time + c.sfPeriod, .startSubFrame)] := by
          rw [hnext]
        have hsfn : next.sfn = origin.sfn.next c.phyMacConfig := by
          rw [hnext, ← hclosing.sfn]
        have hended : next.ended = origin.ended + 1 := by
          rw [hnext, ← hclosing.ended]
        have hnum : next.currSfNumSlots ≠ 1 := by
          rw [hnext]
          dsimp only
          rw [hclosing.numSlots]
          omega
        obtain ⟨closed, hreach, hover, hhandled⟩ := ends_of_agenda next hnextAgenda
          (fun entry hmem => (hends.2 entry hmem).1) (by rw [hnext]) (by rw [hnext]) hnum hsfn
          hended
        refine ⟨closed, hreach.head hok, hover, ?_⟩
        rw [hhandled, hnext]
        exact hclosing.handled
      · -- some slot is active, so this is not the end of the control slot
        have hok : step c phy = .ok { phy with
            now := now
            agenda := rest
            allActiveSlotNums := active } := by
          rw [hstep, endSlot]
          dsimp only
          rw [hstill, ok_bind, if_neg fun h => hnone h.1]
          rfl
        have hearly : now < time + c.symbolTime ul.dci.symStart := by
          by_contra hlate
          refine hnone (hover fun i hi slot hget => ?_)
          obtain ⟨other, hdata, hother⟩ := hlayout.getElem?_data (hclosing.active i hi)
          rw [hclosing.info_eq, hother] at hget
          obtain rfl := Option.some.inj hget
          calc
            _ ≤ c.symbolTime ul.dci.symStart := htimes.monotone (hlayout.beforeUl other hdata).2
            _ ≤ now := by omega
        have hnext : Closing c time info data ul origin { phy with
            now := now
            agenda := rest
            allActiveSlotNums := active } := by
          refine { hclosing with
            agenda := hends.2
            ulEnd := ?_
            active := fun i hi => hclosing.active i (hsub hi) }
          obtain ⟨entry, hmem, hlate⟩ := hclosing.ulEnd
          rw [hagenda] at hmem
          rcases List.mem_cons.1 hmem with rfl | hrest
          · exact (hearly.not_ge hlate).elim
          · exact ⟨entry, hrest, hlate⟩
        obtain ⟨closed, hreach, hfinal⟩ := ih hnext rfl
        exact ⟨closed, hreach.head hok, hfinal⟩

/-! ## The start of the subframe -/

theorem bundles_ok (hlayout : SubframeLayout c info.slotAllocInfo dl data ul)
    (hvalid : info.valid = true) (hlength : data.length < 2 ^ 8 - 2) :
    info.bundles = .ok (data.length + 2, (groups data).map bundleOf) := by
  have hslots := hlayout.length_eq
  have hconsidered : (info.slotAllocInfo.take (data.length + 2)).drop 1 =
      (groups data).flatten ++ [ul] := by
    rw [List.take_of_length_le hslots.le, hlayout.slots_eq, groups, List.flatten_splitBy]
    rfl
  have hgroups := grouped_groups fun slot hmem => (hlayout.beforeUl slot hmem).1
  have hflatten : (groups data).flatten.length < data.length + 2 := by
    rw [groups, List.flatten_splitBy]
    omega
  unfold SfAllocInfo.bundles
  dsimp only
  rw [if_pos hvalid, hslots, Nat.mod_eq_of_lt (by omega), hconsidered,
    buildBundles_groups hgroups hflatten (by omega)]
  rfl

theorem Ready.step_eq (hready : Ready c time info dl data ul phy)
    (hown : info.sfnSf.frameNum = phy.sfn.frameNum ∧ info.sfnSf.sfNum = phy.sfn.sfNum)
    {bundles : Nat × List SlotBundleInfo} (hbundles : info.bundles = .ok bundles) :
    step c phy = startSlot c
      { phy with
        now := time
        agenda := []
        lastSfStart := time
        sfAllocInfo := phy.sfAllocInfo.set phy.sfn.sfNum { info with valid := false }
        currSfAllocInfo := info
        currSfNumSlots := bundles.1
        slotBundleList := bundles.2 } := by
  rw [step, hready.agenda]
  dsimp only [handle]
  rw [startSubFrame]
  dsimp only
  rw [elementAt_eq_ok.2 hready.found, ok_bind, hbundles, ok_bind,
    assert_eq_ok (u := ()).2 hown, ok_bind]

theorem Ready.walks (hready : Ready c time info dl data ul phy) (htimes : SymbolTimes c)
    (hvalid : info.valid = true) (hlength : data.length < 2 ^ 8 - 2) :
    ∃ begun, step c phy = .ok begun ∧
      Walking c time info data ul phy [] (groups data) begun := by
  have hlayout := hready.layout
  have hflatten : (groups data).flatten = data := List.flatten_splitBy _ _
  have hslots := hlayout.slots_eq
  have hdl : info.slotAllocInfo[0]? = some dl := by rw [hslots, List.getElem?_cons_zero]
  have hnext : info.slotAllocInfo[1]? = some ((groups data).flatten.headD ul) := by
    rw [hflatten, hslots, List.getElem?_cons_succ]
    cases data <;> rfl
  have hzero : c.symbolTime dl.dci.symStart = 0 := by rw [hlayout.dlStart, htimes.zero]
  have hbundles := bundles_ok hlayout hvalid hlength
  obtain ⟨mac, infos, hok⟩ := startSlot_dl (c := c)
    { phy with
      now := time
      agenda := []
      lastSfStart := time
      sfAllocInfo := phy.sfAllocInfo.set phy.sfn.sfNum { info with valid := false }
      currSfAllocInfo := info
      currSfNumSlots := data.length + 2
      slotBundleList := (groups data).map bundleOf }
    hready.slotNum (Nat.lt_add_left _ (Nat.lt_succ_self 1)) hdl hnext
    (by
      rw [hzero]
      exact Nat.zero_le _)
  refine ⟨_, (hready.step_eq (hready.own hvalid) hbundles).trans hok, ?_⟩
  exact
    { info_eq := rfl
      numSlots := rfl
      start := rfl
      sfn := rfl
      ended := rfl
      bundles := rfl
      data_eq := hflatten.symm
      slotNum := hready.slotNum
      agenda := by
        dsimp only
        rw [hzero, Nat.sub_zero]
        obtain ⟨earlier, later, hsplit, hschedule⟩ := Agenda.exists_schedule_eq
          (time + c.symbolTime ((groups data).flatten.headD ul).dci.symStart)
          Event.incrSlotCtrAndStartSlot (Agenda.schedule
            (time + c.symbolTime c.phyMacConfig.dlCtrlSymbols) .endSlot [])
        refine ⟨earlier, later, hschedule, ?_⟩
        rw [hsplit]
        intro entry hentry
        rcases Agenda.mem_schedule.1 hentry with rfl | hnone
        · exact ⟨rfl, Nat.add_le_add_left hlayout.dlEnd _⟩
        · exact (List.not_mem_nil hnone).elim
      active := by
        dsimp only
        rw [hready.active]
        exact fun i hi => (List.not_mem_nil hi).elim
      handled := rfl }

/-- A subframe with an allocation that was not used before is gone through. -/
theorem Ready.walksThrough (hready : Ready c time info dl data ul phy) (htimes : SymbolTimes c)
    (hvalid : info.valid = true) (hlength : data.length < 2 ^ 8 - 2) :
    WalksThrough c time info data phy := by
  have hlayout := hready.layout
  have hgroups := grouped_groups fun slot hmem => (hlayout.beforeUl slot hmem).1
  obtain ⟨begun, hok, hwalk⟩ := hready.walks htimes hvalid hlength
  refine ⟨fun _ => ⟨begun, hok, hwalk.bundles⟩, ?_⟩
  obtain ⟨last, hlast, hwalked⟩ := hwalk.reaches_ul htimes hlayout hlength hgroups
  obtain ⟨closing, hreach, hclosing⟩ := hwalked.closes hlayout hlength
  obtain ⟨closed, hover, hended, hhandled⟩ := hclosing.reaches_ended htimes hlayout
  refine ⟨closed, ((hlast.trans hreach).trans hover).head hok, hended, fun _ => ?_⟩
  exact ⟨_, hhandled, eachOnce_turns hlayout.slots_eq hgroups⟩

/-! ## Used allocations -/

/-- No subframe ends any more. -/
structure Stopped (origin phy : EnbPhy μ) : Prop where
  slotNum : phy.slotNum = 0
  numSlots : phy.currSfNumSlots = 0
  ended : phy.ended = origin.ended
  agenda : ∀ entry ∈ phy.agenda, entry.2 = .endSlot

theorem Stopped.step (hstopped : Stopped origin phy) (hok : step c phy = .ok phy') :
    Stopped origin phy' := by
  have hends := hstopped.agenda
  cases hagenda : phy.agenda with
  | nil =>
      rw [EnbPhy.step, hagenda] at hok
      obtain rfl := Except.ok.inj hok
      exact hstopped
  | cons entry rest =>
      obtain ⟨now, event⟩ := entry
      rw [hagenda, List.forall_mem_cons] at hends
      obtain rfl : event = .endSlot := hends.1
      rw [EnbPhy.step, hagenda] at hok
      obtain ⟨active, -, hend⟩ := bind_eq_ok.1 hok
      -- slot number 0 is not the one before the first
      have hnum : ¬ (active = [] ∧ (phy.slotNum : Int) = phy.currSfNumSlots - 1) := by
        rw [hstopped.slotNum, hstopped.numSlots]
        omega
      rw [if_neg hnum] at hend
      obtain rfl := Except.ok.inj hend
      exact
        { slotNum := hstopped.slotNum
          numSlots := hstopped.numSlots
          ended := hstopped.ended
          agenda := hends.2 }

theorem Stopped.reaches (hstopped : Stopped origin phy) (hreach : Reaches c phy phy') :
    Stopped origin phy' := by
  induction hreach with
  | refl => exact hstopped
  | tail _ hok ih => exact ih.step hok

/-- The subframe of a used allocation never ends. -/
theorem Ready.not_ended (hready : Ready c time info dl data ul phy) (hused : info.valid = false)
    {closed : EnbPhy μ} (hreach : Reaches c phy closed) : closed.ended = phy.ended := by
  have hbundles : info.bundles = .ok (0, []) := by
    unfold SfAllocInfo.bundles
    rw [hused]
    rfl
  rcases hreach.cases_head with rfl | ⟨begun, hok, hrest⟩
  · rfl
  by_cases hown : info.sfnSf.frameNum = phy.sfn.frameNum ∧ info.sfnSf.sfNum = phy.sfn.sfNum
  swap
  · -- an allocation of another subframe fails the assertion
    rw [step, hready.agenda] at hok
    dsimp only [handle] at hok
    rw [startSubFrame] at hok
    dsimp only at hok
    rw [elementAt_eq_ok.2 hready.found, ok_bind, hbundles, ok_bind, assert, if_neg hown] at hok
    cases hok
  rw [hready.step_eq hown hbundles, startSlot] at hok
  dsimp only at hok
  obtain ⟨slot, -, hok⟩ := bind_eq_ok.1 hok
  rw [runSlot, if_pos hready.slotNum, ok_bind,
    scheduleSlots_last _ (by
      rw [indicateSlot]
      dsimp only
      omega)] at hok
  suffices hstopped : Stopped phy begun from (hstopped.reaches hrest).ended
  obtain rfl := Except.ok.inj hok
  exact
    { slotNum := hready.slotNum
      numSlots := rfl
      ended := rfl
      agenda := by
        intro entry hentry
        rcases Agenda.mem_schedule.1 hentry with rfl | hnone
        · rfl
        · exact (List.not_mem_nil hnone).elim }

/-! ## Too many slots -/

theorem schedule_bundles {delay : Int} {event : Event} (hok : schedule delay event phy = .ok phy') :
    phy'.slotBundleList = phy.slotBundleList := by
  obtain ⟨-, -, hrest⟩ := bind_eq_ok.1 hok
  obtain rfl := Except.ok.inj hrest
  rfl

theorem scheduleSlots_bundles {slotPeriod : Nat} (hok : scheduleSlots c slotPeriod phy = .ok phy') :
    phy'.slotBundleList = phy.slotBundleList := by
  obtain ⟨mid, hmid, hrest⟩ := bind_eq_ok.1 hok
  rw [← schedule_bundles hmid]
  split at hrest
  · obtain ⟨this, -, hrest⟩ := bind_eq_ok.1 hrest
    obtain ⟨next, -, hrest⟩ := bind_eq_ok.1 hrest
    exact schedule_bundles hrest
  · obtain rfl := Except.ok.inj hrest
    rfl

/-- With more slots than an 8-bit number can count, the bundles are not those of the groups. -/
theorem Ready.not_bundles (hready : Ready c time info dl data ul phy) (hvalid : info.valid = true)
    (hmany : ¬ info.slotAllocInfo.length ≤ 255) {begun : EnbPhy μ}
    (hok : step c phy = .ok begun) : begun.slotBundleList ≠ (groups data).map bundleOf := by
  intro hbundles
  have hlength := hready.layout.length_eq
  cases hbuilt : info.bundles with
  | error e =>
      rw [step, hready.agenda] at hok
      dsimp only [handle] at hok
      rw [startSubFrame] at hok
      dsimp only at hok
      rw [elementAt_eq_ok.2 hready.found, ok_bind, hbuilt] at hok
      cases hok
  | ok bundles =>
      rw [hready.step_eq (hready.own hvalid) hbuilt, startSlot] at hok
      dsimp only at hok
      obtain ⟨slot, -, hok⟩ := bind_eq_ok.1 hok
      rw [runSlot, if_pos hready.slotNum, ok_bind] at hok
      have hkept : begun.slotBundleList = bundles.2 := scheduleSlots_bundles hok
      unfold SfAllocInfo.bundles at hbuilt
      dsimp only at hbuilt
      rw [if_pos hvalid] at hbuilt
      obtain ⟨built, hbuild, rfl⟩ := map_eq_ok.1 hbuilt
      have hlayers := buildBundles_layers hbuild
      rw [show built = (groups data).map bundleOf from hkept.symm.trans hbundles, groups_layers,
        List.length_drop, List.length_take, hlength] at hlayers
      rw [hlength] at hmany
      omega

/-! ## All subframes -/

/-- Subframes that were gone through one after the other. -/
inductive Subframes (c : Config μ) (first : EnbPhy μ) : Nat → EnbPhy μ → Prop
  | zero : Subframes c first 0 first
  | succ {count time : Nat} {before closed : EnbPhy μ} (hbefore : Subframes c first count before)
      (hreach : Reaches c before closed) (hended : Ended c time before closed) :
      Subframes c first (count + 1) closed

end

/-- A subframe starts next, with an allocation that was not used before and whose slots an 8-bit
number can count. -/
def StartsAnew (c : Config μ) (phy : EnbPhy μ) : Prop :=
  ∃ time info dl data ul, Ready c time info dl data ul phy ∧ info.valid = true ∧
    info.slotAllocInfo.length ≤ 255

/-- The PHY goes through a subframe exactly if its allocation was not used before and has at most
255 slots. As long as this holds of every subframe, one comes after the other. -/
theorem walksThrough_iff (c : Config μ) (htimes : SymbolTimes c) :
    (∀ time info dl data ul phy, Ready c time info dl data ul phy →
      (WalksThrough c time info data phy ↔
        info.valid = true ∧ info.slotAllocInfo.length ≤ 255)) ∧
    ∀ first count, (∀ n < count, ∀ phy, Subframes c first n phy → StartsAnew c phy) →
      ∃ last, Subframes c first count last := by
  constructor
  · intro time info dl data ul phy hready
    have hlength := hready.layout.length_eq
    constructor
    · rintro ⟨hbundles, closed, hreach, hended, -⟩
      have hvalid : info.valid = true := by
        by_contra hused
        have hnot := hready.not_ended (Bool.eq_false_iff.2 hused) hreach
        rw [hended.ended] at hnot
        omega
      obtain ⟨begun, hok, hbuilt⟩ := hbundles hvalid
      exact ⟨hvalid, not_not.1 fun hmany => hready.not_bundles hvalid hmany hok hbuilt⟩
    · rintro ⟨hvalid, hfew⟩
      exact hready.walksThrough htimes hvalid (by omega)
  · intro first count hall
    induction count with
    | zero => exact ⟨first, .zero⟩
    | succ count ih =>
        obtain ⟨before, hbefore⟩ := ih fun n hn => hall n (Nat.lt_succ_of_lt hn)
        obtain ⟨time, info, dl, data, ul, hready, hvalid, hfew⟩ :=
          hall count (Nat.lt_succ_self count) before hbefore
        have hlength := hready.layout.length_eq
        obtain ⟨-, closed, hreach, hended, -⟩ := hready.walksThrough htimes hvalid (by omega)
        exact ⟨closed, hbefore.succ hreach hended⟩

end

/-! ## Examples -/

/-- Symbols of 4160 ns, and a MAC that stores nothing. -/
def shortSymbols : Config Unit where
  phyMacConfig := {}
  symbolTime k := 4160 * k
  sfPeriod := 100000
  mmseBeamforming := true
  subframeIndication _ mac infos := (mac, infos)

theorem shortSymbols_times : SymbolTimes shortSymbols where
  zero := rfl
  monotone _ _ hle := Nat.mul_le_mul_left _ hle

/-- A slot of a UE, or a control slot. -/
def slotAt (tddMode : TddMode) (layerInd symStart numSym : Nat) : SlotAllocInfo where
  tddMode := tddMode
  slotType := .ctrlData
  rnti := some 1
  layerInd := layerInd
  dci := { symStart := symStart, numSym := numSym, layerInd := layerInd }

/-- Two slots that start together, and one of the other direction. -/
def threeSlots : List SlotAllocInfo := [slotAt .dl 0 1 9, slotAt .dl 1 1 4, slotAt .ul 0 10 13]

/-- Control slots around data slots, for the first subframe. -/
def allocationOf (valid : Bool) (data : List SlotAllocInfo) : SfAllocInfo where
  sfnSf := {}
  valid := valid
  slotAllocInfo := slotAt .dl 0 0 1 :: (data ++ [slotAt .ul 0 23 1])

/-- The first subframe of a frame, with an allocation. -/
def subframeOf (frameNum : Nat) (info : SfAllocInfo) : EnbPhy Unit where
  agenda := [(0, .startSubFrame)]
  mac := ()
  sfn := { frameNum := frameNum }
  sfAllocInfo := [info]
  currSfAllocInfo := { sfnSf := {}, slotAllocInfo := [] }

theorem subframeOf_ready {valid : Bool} {frameNum : Nat} (hown : valid = true → frameNum = 0)
    {data : List SlotAllocInfo}
    (hlayout : SubframeLayout shortSymbols (allocationOf valid data).slotAllocInfo
      (slotAt .dl 0 0 1) data (slotAt .ul 0 23 1)) :
    Ready shortSymbols 0 (allocationOf valid data) (slotAt .dl 0 0 1) data (slotAt .ul 0 23 1)
      (subframeOf frameNum (allocationOf valid data)) where
  agenda := rfl
  slotNum := rfl
  active := rfl
  found := rfl
  own hvalid := ⟨(hown hvalid).symm, rfl⟩
  layout := hlayout

theorem threeSlots_layout (valid : Bool) :
    SubframeLayout shortSymbols (allocationOf valid threeSlots).slotAllocInfo
      (slotAt .dl 0 0 1) threeSlots (slotAt .ul 0 23 1) where
  slots_eq := rfl
  dlStart := rfl
  sorted := by decide
  direction := by decide
  beforeUl := by decide
  dlEnd := by decide
  dataEnd := by decide
  ulEnd := by decide
  beamforming := by decide

theorem walksThrough_threeSlots :
    WalksThrough shortSymbols 0 (allocationOf true threeSlots) threeSlots
        (subframeOf 0 (allocationOf true threeSlots)) ∧
      ∃ last, Subframes shortSymbols (subframeOf 0 (allocationOf true threeSlots)) 1 last := by
  have hready := subframeOf_ready (fun _ => rfl) (threeSlots_layout true)
  obtain ⟨hiff, hchain⟩ := walksThrough_iff shortSymbols shortSymbols_times
  refine ⟨(hiff _ _ _ _ _ _ hready).2 ⟨rfl, by decide⟩, hchain _ 1 fun n hn phy hphy => ?_⟩
  obtain rfl : n = 0 := by omega
  cases hphy
  exact ⟨_, _, _, _, _, hready, rfl, by decide⟩

theorem usedSubframe (frameNum : Nat) :
    Ready shortSymbols 0 (allocationOf false threeSlots) (slotAt .dl 0 0 1) threeSlots
        (slotAt .ul 0 23 1) (subframeOf frameNum (allocationOf false threeSlots)) ∧
      ¬ WalksThrough shortSymbols 0 (allocationOf false threeSlots) threeSlots
        (subframeOf frameNum (allocationOf false threeSlots)) := by
  have hready : Ready shortSymbols 0 (allocationOf false threeSlots) (slotAt .dl 0 0 1) threeSlots
      (slotAt .ul 0 23 1) (subframeOf frameNum (allocationOf false threeSlots)) :=
    subframeOf_ready (fun h => Bool.noConfusion h) (threeSlots_layout false)
  refine ⟨hready, ?_⟩
  rintro ⟨-, closed, hreach, hended, -⟩
  have hnot := hready.not_ended rfl hreach
  rw [hended.ended] at hnot
  omega

/-- A subframe does not end if the allocation that it finds was used before, in its own frame or in
the one before. -/
theorem not_walksThrough_used :
    (Ready shortSymbols 0 (allocationOf false threeSlots) (slotAt .dl 0 0 1) threeSlots
        (slotAt .ul 0 23 1) (subframeOf 0 (allocationOf false threeSlots)) ∧
      ¬ WalksThrough shortSymbols 0 (allocationOf false threeSlots) threeSlots
        (subframeOf 0 (allocationOf false threeSlots))) ∧
    Ready shortSymbols 0 (allocationOf false threeSlots) (slotAt .dl 0 0 1) threeSlots
        (slotAt .ul 0 23 1) (subframeOf 1 (allocationOf false threeSlots)) ∧
      ¬ WalksThrough shortSymbols 0 (allocationOf false threeSlots) threeSlots
        (subframeOf 1 (allocationOf false threeSlots)) :=
  ⟨usedSubframe 0, usedSubframe 1⟩

end EnbPhy

end NtnIab.Mmwave
