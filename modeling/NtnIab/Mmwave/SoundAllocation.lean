import NtnIab.Mmwave.AllocationLayout

/-!
# Sound allocations

The slots of an allocation do not overlap on a layer, nor do those of a UE on any layers; the data
is between the control symbols, with the downlink before the uplink; and the slots come in the
order of their first symbols, each one that was placed on a layer once. All this holds in
subframes of at most 256 symbols, since the first symbol of a slot has 8 bits.

## Strategy

On the layers the slots are divided in a downlink and an uplink part, each of which is merged on
its own. Merging keeps what holds of any two slots, and sorts them.
-/

namespace NtnIab.Mmwave

open Fallible

variable {c : PaddedHbfConfig}

/-! ## Sound allocations -/

/-- A slot takes up a symbol. -/
def SlotAllocInfo.occupies (a : SlotAllocInfo) (symbol : Nat) : Prop :=
  a.dci.symStart ≤ symbol ∧ symbol < a.dci.symEnd

/-- Two slots have no symbol in common. -/
def Apart (a b : SlotAllocInfo) : Prop :=
  ∀ symbol, ¬(a.occupies symbol ∧ b.occupies symbol)

/-- The slots on the layers, before they are merged. -/
def Placement.slots (c : PaddedHbfConfig) (p : Placement) : List SlotAllocInfo :=
  (List.range c.phyMac.numEnbLayers).flatMap p.tempDlslotAllocInfo ++
    (List.range c.phyMac.numEnbLayers).flatMap p.tempUlslotAllocInfo

/-- The merged list numbers the slots anew. -/
def SlotAllocInfo.unnumbered (a : SlotAllocInfo) : SlotAllocInfo := { a with slotIdx := 0 }

/-- What an allocation promises for the slots that were placed. -/
structure SoundAllocation (c : PaddedHbfConfig) (p : Placement) (slots : List SlotAllocInfo) : Prop
    where
  onLayer : slots.Pairwise fun a b => a.layerInd = b.layerInd → Apart a b
  ofUe : slots.Pairwise fun a b => a.dci.rnti = b.dci.rnti → Apart a b
  inside : ∀ a ∈ slots, a.slotType = .ctrlData → c.phyMac.dlCtrlSymbols ≤ a.dci.symStart ∧
    a.dci.symEnd ≤ c.phyMac.symbolsPerSubframe - c.phyMac.ulCtrlSymbols
  downlinkFirst : ∀ a ∈ slots, ∀ b ∈ slots, a.tddMode = .dl → b.tddMode = .ul →
    a.dci.symEnd ≤ b.dci.symStart
  sorted : slots.Pairwise fun a b => a.dci.symStart ≤ b.dci.symStart
  complete : ((slots.filter (·.slotType = .ctrlData)).map (·.unnumbered)).Perm
    ((p.slots c).map (·.unnumbered))

theorem fields_of_unnumbered {a b : SlotAllocInfo} (h : a.unnumbered = b.unnumbered) :
    a.dci = b.dci ∧ a.tddMode = b.tddMode ∧ a.slotType = b.slotType := by
  unfold SlotAllocInfo.unnumbered at h
  simp only [SlotAllocInfo.mk.injEq] at h
  exact ⟨h.2.2.2.2.2.1, h.2.1, h.2.2.1⟩

theorem rnti_of_unnumbered {a b : SlotAllocInfo} (h : a.unnumbered = b.unnumbered) :
    a.rnti = b.rnti := by
  unfold SlotAllocInfo.unnumbered at h
  simp only [SlotAllocInfo.mk.injEq] at h
  exact h.2.2.2.1

theorem apart_of_le {a b : SlotAllocInfo} (h : a.dci.symEnd ≤ b.dci.symStart) : Apart a b := by
  rintro symbol ⟨ha, hb⟩
  have := ha.2
  have := hb.1
  omega

theorem Apart.symm {a b : SlotAllocInfo} (h : Apart a b) : Apart b a :=
  fun symbol hab => h symbol ⟨hab.2, hab.1⟩

/-! ## Merged layers -/

section
variable {layers : Nat → List SlotAllocInfo}

/-- Up to their numbers the slots are merged as in any merge of lanes. -/
theorem mergeLayers_unnumbered {rounds slotIdx : Nat} :
    (mergeLayers c rounds layers slotIdx).map (·.unnumbered) =
      (Lanes.merge (fun a : SlotAllocInfo => a.dci.symStart) c.phyMac.symbolsPerSubframe
        c.phyMac.numEnbLayers rounds layers).map (·.unnumbered) := by
  induction rounds generalizing layers slotIdx with
  | zero => rfl
  | succ rounds ih =>
      have hfirst : firstLayer c layers =
          Lanes.first (fun a : SlotAllocInfo => a.dci.symStart) c.phyMac.symbolsPerSubframe
            c.phyMac.numEnbLayers layers := by
        unfold firstLayer Lanes.first
        congr 1
        funext best lane
        cases (layers lane).head? <;> rfl
      unfold mergeLayers Lanes.merge
      rw [hfirst]
      generalize (Lanes.first (fun a : SlotAllocInfo => a.dci.symStart)
        c.phyMac.symbolsPerSubframe c.phyMac.numEnbLayers layers).1 = found
      cases found with
      | none => rfl
      | some lane =>
          dsimp only
          cases layers lane with
          | nil => rfl
          | cons slot rest =>
              simp only [List.map_cons, ih]
              rfl

theorem slotCount_eq :
    slotCount c layers = ((List.range c.phyMac.numEnbLayers).flatMap layers).length := by
  rw [List.length_flatMap]
  rfl

/-- Every slot that begins in the subframe is merged once. -/
theorem mergeLayers_perm {slotIdx : Nat}
    (hbegins : ∀ i, ∀ a ∈ layers i, a.dci.symStart < c.phyMac.symbolsPerSubframe) :
    ((mergeLayers c (slotCount c layers) layers slotIdx).map (·.unnumbered)).Perm
      (((List.range c.phyMac.numEnbLayers).flatMap layers).map (·.unnumbered)) := by
  rw [mergeLayers_unnumbered]
  exact (Lanes.merge_perm (fun i _ a ha => hbegins i a ha) (Nat.le_of_eq slotCount_eq.symm)).map _

/-- What holds of any two slots, whatever their numbers, holds of the merged slots. -/
theorem mergeLayers_pairwise {slotIdx : Nat} {R : SlotAllocInfo → SlotAllocInfo → Prop}
    (hsymm : ∀ a b, R a b → R b a) (hR : ∀ a b, R a b ↔ R a.unnumbered b.unnumbered)
    (hbegins : ∀ i, ∀ a ∈ layers i, a.dci.symStart < c.phyMac.symbolsPerSubframe)
    (hlayers : ((List.range c.phyMac.numEnbLayers).flatMap layers).Pairwise R) :
    (mergeLayers c (slotCount c layers) layers slotIdx).Pairwise R := by
  have hmap : ∀ l : List SlotAllocInfo, l.Pairwise R ↔ (l.map (·.unnumbered)).Pairwise R := by
    intro l
    rw [List.pairwise_map]
    exact List.Pairwise.iff hR
  rw [hmap] at hlayers ⊢
  exact ((mergeLayers_perm hbegins).pairwise_iff fun h => hsymm _ _ h).2 hlayers

/-- The merged slots are in the order of their first symbols. -/
theorem mergeLayers_sorted {rounds slotIdx : Nat}
    (hlayers : ∀ i, (layers i).Pairwise fun a b => a.dci.symStart ≤ b.dci.symStart) :
    (mergeLayers c rounds layers slotIdx).Pairwise fun a b =>
      a.dci.symStart ≤ b.dci.symStart := by
  have hmap : ∀ l : List SlotAllocInfo,
      l.Pairwise (fun a b => a.dci.symStart ≤ b.dci.symStart) ↔
        (l.map (·.unnumbered)).Pairwise fun a b => a.dci.symStart ≤ b.dci.symStart := by
    intro l
    rw [List.pairwise_map]
    rfl
  rw [hmap, mergeLayers_unnumbered, ← hmap]
  exact Lanes.merge_sorted fun i _ => hlayers i

/-- A merged slot is one of a layer, up to its number. -/
theorem mem_mergeLayers {rounds slotIdx : Nat} {a : SlotAllocInfo}
    (ha : a ∈ mergeLayers c rounds layers slotIdx) :
    ∃ i, ∃ b ∈ layers i, a.unnumbered = b.unnumbered := by
  have hmem := List.mem_map_of_mem (f := (·.unnumbered)) ha
  rw [mergeLayers_unnumbered] at hmem
  obtain ⟨b, hb, heq⟩ := List.mem_map.1 hmem
  obtain ⟨i, -, hb⟩ := Lanes.mem_merge hb
  exact ⟨i, b, hb, heq.symm⟩

/-- A data slot of an allocation is one of a layer, up to its number. -/
theorem mem_mergeSlots {p : Placement} {a : SlotAllocInfo} (ha : a ∈ mergeSlots c p)
    (htype : a.slotType = .ctrlData) :
    ∃ i b, (b ∈ p.tempDlslotAllocInfo i ∨ b ∈ p.tempUlslotAllocInfo i) ∧
      a.unnumbered = b.unnumbered := by
  unfold mergeSlots at ha
  simp only [List.cons_append, List.mem_cons, List.mem_append, List.not_mem_nil, or_false] at ha
  rcases ha with rfl | (ha | ha) | rfl
  · cases htype
  · obtain ⟨i, b, hb, heq⟩ := mem_mergeLayers ha
    exact ⟨i, b, Or.inl hb, heq⟩
  · obtain ⟨i, b, hb, heq⟩ := mem_mergeLayers ha
    exact ⟨i, b, Or.inr hb, heq⟩
  · cases htype

end

/-! ## Slots that were laid -/

/-- Two slots on one layer, or two slots of one UE, have no symbol in common. -/
def NoClash (a b : SlotAllocInfo) : Prop :=
  (a.layerInd = b.layerInd → Apart a b) ∧ (a.dci.rnti = b.dci.rnti → Apart a b)

theorem noClash_of_le {a b : SlotAllocInfo} (h : a.dci.symEnd ≤ b.dci.symStart) : NoClash a b :=
  ⟨fun _ => apart_of_le h, fun _ => apart_of_le h⟩

theorem NoClash.symm {a b : SlotAllocInfo} (h : NoClash a b) : NoClash b a :=
  ⟨fun heq => (h.1 heq.symm).symm, fun heq => (h.2 heq.symm).symm⟩

/-- Slots that follow one another on their layers, and those of one UE on any layers, do not
clash. -/
theorem noClash_layers {mode : TddMode} {lanes : Nat → List SlotAllocInfo}
    (honLayers : OnLayers c mode lanes)
    (hordered : ∀ i, (lanes i).Pairwise fun a b => a.dci.symEnd ≤ b.dci.symStart)
    (hapart : ∀ i j, i ≠ j → ∀ a ∈ lanes i, ∀ b ∈ lanes j, a.dci.rnti = b.dci.rnti →
      a.dci.symEnd ≤ b.dci.symStart ∨ b.dci.symEnd ≤ a.dci.symStart) :
    ((List.range c.phyMac.numEnbLayers).flatMap lanes).Pairwise NoClash := by
  rw [List.pairwise_flatMap]
  refine ⟨fun i _ => (hordered i).imp noClash_of_le, ?_⟩
  refine List.pairwise_lt_range.imp ?_
  intro i j hij a ha b hb
  refine ⟨fun hlayer => ?_, fun hrnti => ?_⟩
  · rw [(honLayers i a ha).2.2.1, (honLayers j b hb).2.2.1] at hlayer
    exact absurd hlayer (Nat.ne_of_lt hij)
  · rcases hapart i j (Nat.ne_of_lt hij) a ha b hb hrnti with hle | hle
    · exact apart_of_le hle
    · exact (apart_of_le hle).symm

namespace Divided

variable {p : Placement} {border : Nat}

theorem dl_bounds (h : Divided c p border) {i : Nat} {a : SlotAllocInfo}
    (ha : a ∈ p.tempDlslotAllocInfo i) : 1 ≤ a.dci.symStart ∧ a.dci.symEnd ≤ border := by
  obtain ⟨_, _, _, _, hdl⟩ := h.dl
  exact ⟨hdl.filling.fromOrigin i a ha, hdl.before i a ha⟩

theorem ul_bounds (h : Divided c p border) {i : Nat} {a : SlotAllocInfo}
    (ha : a ∈ p.tempUlslotAllocInfo i) :
    border ≤ a.dci.symStart ∧ a.dci.symEnd ≤ c.phyMac.symbolsPerSubframe - 1 := by
  obtain ⟨_, _, _, _, hul⟩ := h.ul
  exact ⟨hul.after i a ha,
    OrderDual.toDual_le_toDual.1 (hul.filling.fromOrigin i a (List.mem_reverse.2 ha))⟩

theorem dl_ordered (h : Divided c p border) (i : Nat) :
    (p.tempDlslotAllocInfo i).Pairwise fun a b => a.dci.symEnd ≤ b.dci.symStart := by
  obtain ⟨_, _, _, _, hdl⟩ := h.dl
  exact hdl.filling.ordered i

theorem ul_ordered (h : Divided c p border) (i : Nat) :
    (p.tempUlslotAllocInfo i).Pairwise fun a b => a.dci.symEnd ≤ b.dci.symStart := by
  obtain ⟨_, _, _, _, hul⟩ := h.ul
  exact List.pairwise_reverse.1 (hul.filling.ordered i)

theorem dl_noClash (h : Divided c p border) :
    ((List.range c.phyMac.numEnbLayers).flatMap p.tempDlslotAllocInfo).Pairwise NoClash := by
  obtain ⟨_, _, _, _, hdl⟩ := h.dl
  exact noClash_layers hdl.onLayers h.dl_ordered hdl.filling.apart

theorem ul_noClash (h : Divided c p border) :
    ((List.range c.phyMac.numEnbLayers).flatMap p.tempUlslotAllocInfo).Pairwise NoClash := by
  obtain ⟨_, _, _, _, hul⟩ := h.ul
  refine noClash_layers hul.onLayers h.ul_ordered ?_
  intro i j hij a ha b hb hrnti
  exact (hul.filling.apart i j hij a (List.mem_reverse.2 ha) b (List.mem_reverse.2 hb) hrnti).symm

end Divided

theorem symStart_le_symEnd (dci : DciInfoElementTdma) : dci.symStart ≤ dci.symEnd :=
  Nat.le_add_right _ _

/-- What is divided is merged into a sound allocation. -/
theorem Divided.sound (hc : SmallSubframe c) {p : Placement} {border : Nat}
    (h : Divided c p border) : SoundAllocation c p (mergeSlots c p) := by
  have htwo := hc.two_le
  have hbyte := hc.le_byte
  have hlast := h.last
  have hfirst := h.first
  have hctrl : (ulCtrlSlot c).dci.symStart = c.phyMac.symbolsPerSubframe - 1 := by
    show sub32 _ 1 % 2 ^ 8 = _
    rw [sub32_of_le (by omega) (by omega), Nat.mod_eq_of_lt (by omega)]
  have hdlBegins : ∀ i, ∀ a ∈ p.tempDlslotAllocInfo i,
      a.dci.symStart < c.phyMac.symbolsPerSubframe := by
    intro i a ha
    have := (h.dl_bounds ha).2
    have := symStart_le_symEnd a.dci
    omega
  have hulBegins : ∀ i, ∀ a ∈ p.tempUlslotAllocInfo i,
      a.dci.symStart < c.phyMac.symbolsPerSubframe := by
    intro i a ha
    have := (h.ul_bounds ha).2
    have := symStart_le_symEnd a.dci
    omega
  set dl := mergeLayers c (slotCount c p.tempDlslotAllocInfo) p.tempDlslotAllocInfo 1 with hdl
  set ul := mergeLayers c (slotCount c p.tempUlslotAllocInfo) p.tempUlslotAllocInfo
    (1 + dl.length) with hul
  have hslots : mergeSlots c p = dlCtrlSlot :: dl ++ ul ++ [ulCtrlSlot c] := rfl
  -- what is known of a merged slot is known of the one on its layer
  have hdlSlot : ∀ a ∈ dl, a.tddMode = .dl ∧ a.slotType = .ctrlData ∧ 1 ≤ a.dci.symStart ∧
      a.dci.symEnd ≤ border := by
    intro a ha
    obtain ⟨i, b, hb, heq⟩ := mem_mergeLayers ha
    obtain ⟨_, _, _, _, hlaid⟩ := h.dl
    have hkind := hlaid.onLayers i b hb
    obtain ⟨hdci, hmode, htype⟩ := fields_of_unnumbered heq
    rw [hdci, hmode, htype]
    exact ⟨hkind.1, hkind.2.1, h.dl_bounds hb⟩
  have hulSlot : ∀ a ∈ ul, a.tddMode = .ul ∧ a.slotType = .ctrlData ∧ border ≤ a.dci.symStart ∧
      a.dci.symEnd ≤ c.phyMac.symbolsPerSubframe - 1 := by
    intro a ha
    obtain ⟨i, b, hb, heq⟩ := mem_mergeLayers ha
    obtain ⟨_, _, _, _, hlaid⟩ := h.ul
    have hkind := hlaid.onLayers i b hb
    obtain ⟨hdci, hmode, htype⟩ := fields_of_unnumbered heq
    rw [hdci, hmode, htype]
    exact ⟨hkind.1, hkind.2.1, h.ul_bounds hb⟩
  -- a slot of one part of the list ends before one of a later part begins
  have hpairwise : ∀ R : SlotAllocInfo → SlotAllocInfo → Prop,
      (∀ a b, a.dci.symEnd ≤ b.dci.symStart → R a b) → dl.Pairwise R → ul.Pairwise R →
      (mergeSlots c p).Pairwise R := by
    intro R hR hdlR hulR
    rw [hslots, List.pairwise_append, List.cons_append, List.pairwise_cons, List.pairwise_append]
    refine ⟨⟨?_, hdlR, hulR, ?_⟩, List.pairwise_singleton _ _, ?_⟩
    · intro a ha
      refine hR _ _ ?_
      rcases List.mem_append.1 ha with ha | ha
      · exact (hdlSlot a ha).2.2.1
      · exact hfirst.trans (hulSlot a ha).2.2.1
    · intro a ha b hb
      exact hR _ _ ((hdlSlot a ha).2.2.2.trans (hulSlot b hb).2.2.1)
    · intro a ha b hb
      obtain rfl := List.mem_singleton.1 hb
      refine hR _ _ ?_
      rw [hctrl]
      rcases List.mem_cons.1 ha with rfl | ha
      · show 1 ≤ _
        omega
      · rcases List.mem_append.1 ha with ha | ha
        · have := (hdlSlot a ha).2.2.2
          omega
        · exact (hulSlot a ha).2.2.2
  have hnoClash : (mergeSlots c p).Pairwise NoClash :=
    hpairwise NoClash (fun _ _ => noClash_of_le)
      (mergeLayers_pairwise (fun _ _ hR => hR.symm) (fun _ _ => Iff.rfl) hdlBegins h.dl_noClash)
      (mergeLayers_pairwise (fun _ _ hR => hR.symm) (fun _ _ => Iff.rfl) hulBegins h.ul_noClash)
  refine ⟨hnoClash.imp fun hab => hab.1, hnoClash.imp fun hab => hab.2, ?_, ?_, ?_, ?_⟩
  · intro a ha hdata
    rw [hc.dlCtrl, hc.ulCtrl]
    rw [hslots] at ha
    simp only [List.cons_append, List.mem_cons, List.mem_append, List.not_mem_nil, or_false] at ha
    rcases ha with rfl | (ha | ha) | rfl
    · cases hdata
    · have := hdlSlot a ha
      omega
    · have := hulSlot a ha
      omega
    · cases hdata
  · intro a ha b hb hdlMode hulMode
    rw [hslots] at ha hb
    simp only [List.cons_append, List.mem_cons, List.mem_append, List.not_mem_nil,
      or_false] at ha hb
    -- the last symbol of the downlink is before the border, and the uplink begins at it
    have hend : a.dci.symEnd ≤ border := by
      rcases ha with rfl | (ha | ha) | rfl
      · exact hfirst
      · exact (hdlSlot a ha).2.2.2
      · rw [(hulSlot a ha).1] at hdlMode
        cases hdlMode
      · cases hdlMode
    refine hend.trans ?_
    rcases hb with rfl | (hb | hb) | rfl
    · cases hulMode
    · rw [(hdlSlot b hb).1] at hulMode
      cases hulMode
    · exact (hulSlot b hb).2.2.1
    · rw [hctrl]
      omega
  · refine hpairwise _ (fun a b hle => (symStart_le_symEnd a.dci).trans hle) ?_ ?_
    · exact mergeLayers_sorted fun i =>
        (h.dl_ordered i).imp fun hle => (symStart_le_symEnd _).trans hle
    · exact mergeLayers_sorted fun i =>
        (h.ul_ordered i).imp fun hle => (symStart_le_symEnd _).trans hle
  · have hdata : (mergeSlots c p).filter (·.slotType = .ctrlData) = dl ++ ul := by
      have hdlAll : dl.filter (·.slotType = .ctrlData) = dl :=
        List.filter_eq_self.2 fun a ha => decide_eq_true (hdlSlot a ha).2.1
      have hulAll : ul.filter (·.slotType = .ctrlData) = ul :=
        List.filter_eq_self.2 fun a ha => decide_eq_true (hulSlot a ha).2.1
      rw [hslots, List.filter_append, List.filter_append, List.filter_cons, hdlAll, hulAll]
      simp [dlCtrlSlot, ulCtrlSlot]
    rw [hdata]
    unfold Placement.slots
    rw [List.map_append, List.map_append]
    exact (mergeLayers_perm hdlBegins).append (mergeLayers_perm hulBegins)

/-! ## Every run -/

namespace SchedulerRun

/-- In subframes of at most 256 symbols with one control symbol at each end, every allocation in
every run is sound, with any number of layers. -/
theorem run_sound_allocation (hdlCtrl : c.phyMac.dlCtrlSymbols = 1)
    (hulCtrl : c.phyMac.ulCtrlSymbols = 1) (htwo : 2 ≤ c.phyMac.symbolsPerSubframe)
    (hbyte : c.phyMac.symbolsPerSubframe ≤ 256) (hlayers : 1 ≤ c.phyMac.numEnbLayers)
    (hharq : c.harqOn = true) (events : List SchedulerEvent) (params : SchedTriggerReqParameters)
    {s : PaddedHbf} {ind : SchedConfigInd}
    (hok : (Run.run (step c) {} events).scheduler.schedTriggerReq c params = .ok (s, ind)) :
    ∃ p, (Run.run (step c) {} events).scheduler.schedule c params = .ok (s, p) ∧
      SoundAllocation c p ind.slotAllocInfo := by
  unfold PaddedHbf.schedTriggerReq at hok
  simp only [bind_eq_ok] at hok
  obtain ⟨⟨s', p⟩, hschedule, heq⟩ := hok
  obtain ⟨rfl, rfl⟩ := Prod.mk.inj (Except.ok.inj heq)
  have hc : SmallSubframe c := ⟨hdlCtrl, hulCtrl, htwo, hbyte, hlayers⟩
  obtain ⟨border, hdivided⟩ := PaddedHbf.schedule_divided hc hharq hschedule
    (run_owned hharq events)
  exact ⟨p, hschedule, hdivided.sound hc⟩

/-- Blocks whose size grows with the MCS and the symbols. -/
def linearAmc : MmWaveAmc where
  getMcsFromCqi := fun cqi => 2 * cqi
  getTbSizeFromMcsSymbols := fun mcs numSym => 800 * (mcs + 1) * numSym
  getNumSymbolsFromTbsMcs := fun tbSize mcs => tbSize / (100 * (mcs + 1)) + 1
  createCqiFeedbackWbTdma := fun _ _ _ => (5, 10)
  scaleSymbols := fun available requested numSym => numSym * available / requested
  ofNan := 0

def twoLayers : PaddedHbfConfig where
  amc := linearAmc
  phyMac := { numEnbLayers := 2, numHarqProcess := 2 }

/-- Two UEs with downlink data, one of which has uplink data as well, and a trigger. -/
def twoUes : List SchedulerEvent :=
  [.cschedUeConfigReq 1 false false, .cschedUeConfigReq 2 false false,
    .schedDlRlcBufferReq ⟨1, 3, 500, 0, 0⟩, .schedDlRlcBufferReq ⟨2, 3, 900, 0, 0⟩,
    .schedUlMacCtrlInfoReq [(1, [30, 0, 0, 0])], .schedTriggerReq { sfnSf := {} }]

/-- The second trigger, with a retransmission. -/
theorem run_sound_allocation_of_two_ues :
    ∃ s ind p, (Run.run (step twoLayers) {} twoUes).scheduler.schedTriggerReq twoLayers
        { sfnSf := { sfNum := 1 }, dlHarqInfoList := [⟨2, 0, .nack⟩] } = .ok (s, ind) ∧
      SoundAllocation twoLayers p ind.slotAllocInfo := by
  obtain ⟨⟨s, ind⟩, hok⟩ : ∃ result,
      (Run.run (step twoLayers) {} twoUes).scheduler.schedTriggerReq twoLayers
        { sfnSf := { sfNum := 1 }, dlHarqInfoList := [⟨2, 0, .nack⟩] } = .ok result := ⟨_, rfl⟩
  obtain ⟨p, -, hsound⟩ := run_sound_allocation rfl rfl (by decide) (by decide) (by decide) rfl
    _ _ hok
  exact ⟨s, ind, p, hok, hsound⟩

def longSubframe : PaddedHbfConfig where
  amc := linearAmc
  phyMac := { symbolsPerSubframe := 257 }

/-- With 257 symbols the last one has the number 0 in 8 bits, and both control slots take up
symbol 0. -/
theorem not_sound_of_257_symbols :
    ∃ s ind p, (Run.run (step longSubframe) {} []).scheduler.schedTriggerReq longSubframe
        { sfnSf := {} } = .ok (s, ind) ∧
      (Run.run (step longSubframe) {} []).scheduler.schedule longSubframe { sfnSf := {} } =
        .ok (s, p) ∧
      ¬SoundAllocation longSubframe p ind.slotAllocInfo := by
  refine ⟨_, _, _, rfl, rfl, ?_⟩
  intro hsound
  have hctrl := (List.pairwise_cons.1 hsound.onLayer).1 (ulCtrlSlot longSubframe)
    List.mem_cons_self rfl
  exact hctrl 0 ⟨⟨Nat.le_refl 0, Nat.zero_lt_one⟩, Nat.le_refl 0, Nat.zero_lt_one⟩

end SchedulerRun

end NtnIab.Mmwave
