import Mathlib.Algebra.Order.BigOperators.Group.List
import Mathlib.Algebra.Order.Group.Nat
import Mathlib.Data.Nat.Basic
import Mathlib.Order.OrderDual
import NtnIab.Library.Lanes
import NtnIab.Mmwave.HarqRecords

/-!
# The layout of the layers

The downlink slots of the layers are a filling from the start of the subframe, and the uplink
slots are one from its end: `DlLaid` and `UlLaid` follow their cursors through the four passes of
a trigger. Between the two is a symbol that no slot crosses: at first the downlink cursor, and in
the passes over new data the first symbol of the uplink region.
-/

namespace NtnIab.Mmwave

open Fallible

variable {c : PaddedHbfConfig}

/-! ## The two fillings -/

/-- Downlink slots in the order of time. -/
def dlExtent : Lanes.Extent SlotAllocInfo Nat Nat where
  begins := fun a => a.dci.symStart
  ends := fun a => a.dci.symEnd
  owner := fun a => a.dci.rnti

/-- Uplink slots against the order of time. -/
def ulExtent : Lanes.Extent SlotAllocInfo Natᵒᵈ Nat where
  begins := fun a => OrderDual.toDual a.dci.symEnd
  ends := fun a => OrderDual.toDual a.dci.symStart
  owner := fun a => a.dci.rnti

/-- The slots of a layer have data of one direction, and no layer is missing. -/
def OnLayers (c : PaddedHbfConfig) (mode : TddMode) (lanes : Nat → List SlotAllocInfo) : Prop :=
  ∀ i, ∀ a ∈ lanes i, a.tddMode = mode ∧ a.slotType = .ctrlData ∧ a.layerInd = i ∧
    i < c.phyMac.numEnbLayers

/-- The downlink slots are laid from symbol 1 on, up to the cursor `next` and in the open block
before `hi`, and none crosses symbol `border`. -/
structure DlLaid (c : PaddedHbfConfig) (lanes : Nat → List SlotAllocInfo) (next hi k : Nat)
    (owners : List Nat) (border : Nat) : Prop where
  filling : Lanes.Filling dlExtent lanes 1 next hi k owners
  onLayers : OnLayers c .dl lanes
  before : ∀ i, ∀ a ∈ lanes i, a.dci.symEnd ≤ border

/-- The uplink slots are laid from the last symbol back to the cursor, and in the open block from
`lo` on, and none crosses symbol `border`. -/
structure UlLaid (c : PaddedHbfConfig) (lanes : Nat → List SlotAllocInfo) (endSym lo k : Nat)
    (owners : List Nat) (border : Nat) : Prop where
  filling : Lanes.Filling ulExtent (fun i => (lanes i).reverse)
    (OrderDual.toDual (c.phyMac.symbolsPerSubframe - 1)) (OrderDual.toDual endSym)
    (OrderDual.toDual lo) k owners
  onLayers : OnLayers c .ul lanes
  after : ∀ i, ∀ a ∈ lanes i, border ≤ a.dci.symStart

theorem OnLayers.empty {mode : TddMode} : OnLayers c mode fun _ => [] := by
  intro i a ha
  cases ha

namespace DlLaid

variable {lanes : Nat → List SlotAllocInfo} {next hi hi' k : Nat} {owners : List Nat}
  {border border' : Nat}

theorem empty : DlLaid c (fun _ => []) next hi 0 [] border :=
  ⟨.empty, .empty, fun _ _ ha => by cases ha⟩

theorem mono (h : DlLaid c lanes next hi k owners border) (hle : border ≤ border') :
    DlLaid c lanes next hi k owners border' :=
  ⟨h.filling, h.onLayers, fun i a ha => (h.before i a ha).trans hle⟩

theorem close (h : DlLaid c lanes next hi k owners border) (hle : next ≤ hi) :
    DlLaid c lanes hi hi' 0 [] border :=
  ⟨h.filling.close hle, h.onLayers, h.before⟩

theorem reopen (h : DlLaid c lanes next hi 0 owners border) :
    DlLaid c lanes next hi' 0 [] border :=
  ⟨h.filling.reopen, h.onLayers, h.before⟩

/-- A slot of another UE goes to the current layer of the open block. -/
theorem push (h : DlLaid c lanes next hi k owners border) (slot : SlotAllocInfo)
    (horigin : 1 ≤ next) (hbegins : slot.dci.symStart = next) (hends : slot.dci.symEnd ≤ hi)
    (hnew : slot.dci.rnti ∉ owners) (hborder : slot.dci.symEnd ≤ border)
    (hmode : slot.tddMode = .dl) (htype : slot.slotType = .ctrlData) (hlayer : slot.layerInd = k)
    (hlayers : k < c.phyMac.numEnbLayers) :
    DlLaid c (fun i => if i = k then lanes i ++ [slot] else lanes i) next hi (k + 1)
      (slot.dci.rnti :: owners) border := by
  refine ⟨h.filling.add horigin (Nat.le_of_eq hbegins.symm) hends hnew, ?_, ?_⟩
  · intro i a ha
    simp only at ha
    split at ha
    · rename_i hi
      rcases List.mem_append.1 ha with ha | ha
      · exact h.onLayers i a ha
      · obtain rfl := List.mem_singleton.1 ha
        exact ⟨hmode, htype, hlayer.trans hi.symm, hi ▸ hlayers⟩
    · exact h.onLayers i a ha
  · intro i a ha
    split at ha
    · rcases List.mem_append.1 ha with ha | ha
      · exact h.before i a ha
      · obtain rfl := List.mem_singleton.1 ha
        exact hborder
    · exact h.before i a ha

end DlLaid

namespace UlLaid

variable {lanes : Nat → List SlotAllocInfo} {endSym lo lo' k : Nat} {owners : List Nat}
  {border border' : Nat}

theorem empty : UlLaid c (fun _ => []) endSym lo 0 [] border :=
  ⟨.empty, .empty, fun _ _ ha => by cases ha⟩

theorem mono (h : UlLaid c lanes endSym lo k owners border) (hle : border' ≤ border) :
    UlLaid c lanes endSym lo k owners border' :=
  ⟨h.filling, h.onLayers, fun i a ha => hle.trans (h.after i a ha)⟩

theorem close (h : UlLaid c lanes endSym lo k owners border) (hle : lo ≤ endSym) :
    UlLaid c lanes lo lo' 0 [] border :=
  ⟨h.filling.close (OrderDual.toDual_le_toDual.2 hle), h.onLayers, h.after⟩

theorem reopen (h : UlLaid c lanes endSym lo 0 owners border) :
    UlLaid c lanes endSym lo' 0 [] border :=
  ⟨h.filling.reopen, h.onLayers, h.after⟩

/-- A slot of another UE goes to the current layer of the open block. -/
theorem push (h : UlLaid c lanes endSym lo k owners border) (slot : SlotAllocInfo)
    (horigin : endSym ≤ c.phyMac.symbolsPerSubframe - 1) (hbegins : lo ≤ slot.dci.symStart)
    (hends : slot.dci.symEnd ≤ endSym) (hnew : slot.dci.rnti ∉ owners)
    (hborder : border ≤ slot.dci.symStart) (hmode : slot.tddMode = .ul)
    (htype : slot.slotType = .ctrlData) (hlayer : slot.layerInd = k)
    (hlayers : k < c.phyMac.numEnbLayers) :
    UlLaid c (fun i => if i = k then slot :: lanes i else lanes i) endSym lo (k + 1)
      (slot.dci.rnti :: owners) border := by
  refine ⟨?_, ?_, ?_⟩
  · have hadd := h.filling.add (OrderDual.toDual_le_toDual.2 horigin)
      (a := slot) (OrderDual.toDual_le_toDual.2 hends) (OrderDual.toDual_le_toDual.2 hbegins) hnew
    have hlanes : (fun i => (if i = k then slot :: lanes i else lanes i).reverse) =
        fun i => if i = k then (lanes i).reverse ++ [slot] else (lanes i).reverse := by
      funext i
      split
      · exact List.reverse_cons
      · rfl
    rw [hlanes]
    exact hadd
  · intro i a ha
    simp only at ha
    split at ha
    · rename_i hi
      rcases List.mem_cons.1 ha with rfl | ha
      · exact ⟨hmode, htype, hlayer.trans hi.symm, hi ▸ hlayers⟩
      · exact h.onLayers i a ha
    · exact h.onLayers i a ha
  · intro i a ha
    split at ha
    · rcases List.mem_cons.1 ha with rfl | ha
      · exact hborder
      · exact h.after i a ha
    · exact h.after i a ha

end UlLaid

/-! ## Retransmissions -/

/-- Subframes with one control symbol at each end whose symbols are numbered with 8 bits. -/
structure SmallSubframe (c : PaddedHbfConfig) : Prop where
  dlCtrl : c.phyMac.dlCtrlSymbols = 1
  ulCtrl : c.phyMac.ulCtrlSymbols = 1
  two_le : 2 ≤ c.phyMac.symbolsPerSubframe
  le_byte : c.phyMac.symbolsPerSubframe ≤ 2 ^ 8
  layers : 0 < c.phyMac.numEnbLayers

/-- The placement in the downlink pass over the retransmissions. -/
structure DlCursor (c : PaddedHbfConfig) (p : Placement) : Prop where
  laid : DlLaid c p.tempDlslotAllocInfo p.nextSymAvail p.futureNextSymAvail p.layerIdx
    p.setUeInCurrentSymbolBlock (p.lastSymAvail + 1)
  first : 1 ≤ p.nextSymAvail
  next_le : p.nextSymAvail ≤ p.futureNextSymAvail
  future_le : p.futureNextSymAvail ≤ p.lastSymAvail + 1
  last_eq : p.lastSymAvail + 2 = c.phyMac.symbolsPerSubframe
  futureLast_eq : p.futureLastSymAvail = p.lastSymAvail
  layer : p.layerIdx < c.phyMac.numEnbLayers
  fresh : p.layerIdx = 0 → p.setUeInCurrentSymbolBlock = []
  noUplink : p.tempUlslotAllocInfo = fun _ => []

section
variable {p p' : Placement} {dci : DciInfoElementTdma}

theorem dlCursor_start (hc : SmallSubframe c) : DlCursor c (.start c) := by
  have hnumSym : sub32 c.phyMac.symbolsPerSubframe
      (c.phyMac.dlCtrlSymbols + c.phyMac.ulCtrlSymbols) = c.phyMac.symbolsPerSubframe - 2 := by
    rw [hc.dlCtrl, hc.ulCtrl]
    exact sub32_of_le hc.two_le (Nat.lt_of_le_of_lt hc.le_byte (by decide))
  have htwo := hc.two_le
  refine ⟨.empty, ?_, Nat.le_refl _, ?_, ?_, rfl, hc.layers, fun _ => rfl, rfl⟩
  · exact Nat.le_of_eq hc.dlCtrl.symm
  · show c.phyMac.dlCtrlSymbols ≤ _ + 1
    rw [hc.dlCtrl]
    exact Nat.le_add_left 1 _
  · show sub32 _ _ + 2 = _
    rw [hnumSym]
    omega

theorem DlCursor.close (hc : SmallSubframe c) (hp : DlCursor c p) :
    DlCursor c (p.closeDlBlock c) where
  laid := hp.laid.close hp.next_le
  first := hp.first.trans hp.next_le
  next_le := Nat.le_refl _
  future_le := hp.future_le
  last_eq := hp.last_eq
  futureLast_eq := hp.futureLast_eq
  layer := hc.layers
  fresh := fun _ => rfl
  noUplink := hp.noUplink

/-- A retransmission that fits is placed in the block. -/
theorem DlCursor.place (hc : SmallSubframe c) (hp : DlCursor c p)
    (hfits : (dlRetx c).fits dci p) (hlength : dci.numSym < 2 ^ 8)
    (hnew : dci.rnti ∉ p.setUeInCurrentSymbolBlock)
    (hopen : p.openDlBlock c dci.numSym = .ok p') (itUeInfo : Option Nat)
    (pdus : List RlcPduInfo) :
    DlCursor c ((p'.takeDl.pushDl p'.layerIdx (Retx.dlSlot itUeInfo dci pdus p')).nextDlLayer c
      dci.rnti) := by
  have hbyte := hc.le_byte
  have hfirst := hp.first
  have hlast := hp.last_eq
  have hnext := hp.next_le.trans hp.future_le
  have hroom : p.nextSymAvail + dci.numSym ≤ p.lastSymAvail + 1 := by
    have hend := (of_decide_eq_true hfits).2
    rw [sub32_of_le (by omega) (by omega)] at hend
    omega
  -- the block is as long as its first retransmission, so this one ends in it
  have hopened : DlCursor c p' ∧ p'.nextSymAvail + dci.numSym ≤ p'.futureNextSymAvail ∧
      p'.setUeInCurrentSymbolBlock = p.setUeInCurrentSymbolBlock := by
    rcases Placement.openDlBlock_ok hopen with ⟨hlayer, rfl⟩ | ⟨-, hwidth, rfl⟩
    · have hfuture : (p.nextSymAvail + dci.numSym) % 2 ^ 32 = p.nextSymAvail + dci.numSym :=
        Nat.mod_eq_of_lt (by omega)
      have hlaid := hp.laid
      rw [hlayer] at hlaid
      refine ⟨⟨?_, hp.first, ?_, ?_, hp.last_eq, hp.futureLast_eq, hp.layer, hp.fresh,
        hp.noUplink⟩, Nat.le_of_eq hfuture.symm, rfl⟩
      · show DlLaid c p.tempDlslotAllocInfo p.nextSymAvail _ p.layerIdx
          p.setUeInCurrentSymbolBlock _
        rw [hlayer, hp.fresh hlayer]
        exact hlaid.reopen
      · show p.nextSymAvail ≤ (p.nextSymAvail + dci.numSym) % 2 ^ 32
        rw [hfuture]
        exact Nat.le_add_right _ _
      · show (p.nextSymAvail + dci.numSym) % 2 ^ 32 ≤ p.lastSymAvail + 1
        rw [hfuture]
        exact hroom
    · have hfuture := hp.future_le
      rw [sub32_of_le hp.next_le (by omega)] at hwidth
      have hwide := hp.next_le
      exact ⟨hp, by omega, rfl⟩
  obtain ⟨hp', hends, hset⟩ := hopened
  rw [← hset] at hnew
  have hfuture := hp'.future_le
  have hlast' := hp'.last_eq
  have hnext' := hp'.next_le
  have hbegins : (Retx.dlSlot itUeInfo dci pdus p').dci.symStart = p'.nextSymAvail :=
    Nat.mod_eq_of_lt (by omega)
  have hlaid := hp'.laid.push (Retx.dlSlot itUeInfo dci pdus p') hp'.first hbegins
    (by unfold DciInfoElementTdma.symEnd; rw [hbegins]; exact hends) hnew
    (by unfold DciInfoElementTdma.symEnd; rw [hbegins]; exact hends.trans hfuture)
    rfl rfl rfl hp'.layer
  unfold Placement.nextDlLayer
  split
  · exact ⟨hlaid.close hp'.next_le, hp'.first.trans hp'.next_le, Nat.le_refl _, hfuture,
      hp'.last_eq, hp'.futureLast_eq, hc.layers, fun _ => rfl, hp'.noUplink⟩
  · rename_i hmore
    refine ⟨hlaid, hp'.first, hp'.next_le, hfuture, hp'.last_eq, hp'.futureLast_eq, ?_, ?_,
      hp'.noUplink⟩
    · exact Nat.lt_of_le_of_ne hp'.layer hmore
    · intro hzero
      cases hzero

/-- A round of the downlink loop keeps to the cursors. -/
theorem dlRound_laid (hc : SmallSubframe c) {infos : List DlHarqInfo} {r r' : Retx DlHarqInfo}
    {goesOn : Bool} (hok : (dlRetx c).round infos r = .ok (goesOn, r'))
    (hr : DlCursor c r.placement)
    (hnoted : NotedOwned DlHarqInfo.rnti DlHarqInfo.harqProcessId infos
      r.harq.dlHarqProcessesDciInfoMap r.sortedHarqRetx) : DlCursor c r'.placement := by
  obtain ⟨k, p, x, info, dci, hp, hskip, hx, hinfo, hdci, hcases⟩ := RetxLoop.round_ok hok
  have hcursor : DlCursor c p := by
    rcases hp with rfl | rfl
    · exact hr
    · exact hr.close hc
  have hfree := RetxLoop.skip_free (dlRetx c) infos r (fun _ => rfl) (by rw [hskip]; exact hx) hinfo
  rw [hskip] at hfree
  have howner := hnoted x (List.mem_of_getElem? hx) info hinfo dci hdci
  rcases hcases with ⟨-, -, rfl⟩ | ⟨-, -, ⟨hfits, placed, hplaced, rfl⟩ | ⟨-, rfl⟩⟩
  · exact hcursor
  · obtain ⟨p', count, pdus, hopen, -, -, -, hplacement, -⟩ := Retx.placeDl_ok hplaced
    show DlCursor c placed.placement
    rw [hplacement]
    have hrnti : (dlRetx c).rnti info = dci.rnti := howner.rnti_eq.symm
    rw [hrnti] at hfree ⊢
    exact hcursor.place hc hfits howner.numSym_lt hfree hopen _ _
  · exact hcursor

/-! ## After the downlink retransmissions -/

/-- The placement before the uplink retransmissions. -/
structure UlReady (c : PaddedHbfConfig) (p : Placement) : Prop where
  dl : DlLaid c p.tempDlslotAllocInfo p.nextSymAvail p.nextSymAvail 0 [] p.nextSymAvail
  first : 1 ≤ p.nextSymAvail
  next_le : p.nextSymAvail ≤ p.lastSymAvail + 1
  last_eq : p.lastSymAvail + 2 = c.phyMac.symbolsPerSubframe
  futureLast_eq : p.futureLastSymAvail = p.lastSymAvail
  layer : p.layerIdx = 0
  noUplink : p.tempUlslotAllocInfo = fun _ => []

/-- Between the blocks of the retransmissions: the downlink slots are before the downlink cursor,
and the uplink slots behind the uplink cursor. -/
structure Laid (c : PaddedHbfConfig) (p : Placement) : Prop where
  dl : DlLaid c p.tempDlslotAllocInfo p.nextSymAvail p.nextSymAvail 0 [] p.nextSymAvail
  ul : UlLaid c p.tempUlslotAllocInfo (p.lastSymAvail + 1) (p.lastSymAvail + 1) 0 []
    (p.lastSymAvail + 1)
  first : 1 ≤ p.nextSymAvail
  next_le : p.nextSymAvail ≤ p.lastSymAvail + 1
  last_le : p.lastSymAvail + 2 ≤ c.phyMac.symbolsPerSubframe

/-- Without an open block every slot is before the cursor. -/
theorem DlLaid.settle {lanes : Nat → List SlotAllocInfo} {next hi border : Nat}
    (h : DlLaid c lanes next hi 0 [] border) : DlLaid c lanes next next 0 [] next :=
  ⟨h.filling.reopen, h.onLayers,
    fun _ _ ha => (show Lanes.Filling _ _ _ _ next _ _ from h.filling.reopen).ends_le
      (Nat.le_refl _) ha⟩

/-- Without an open block every slot is behind the cursor. -/
theorem UlLaid.settle {lanes : Nat → List SlotAllocInfo} {endSym lo border : Nat}
    (h : UlLaid c lanes endSym lo 0 [] border) : UlLaid c lanes endSym endSym 0 [] endSym :=
  ⟨h.filling.reopen, h.onLayers, fun _ _ ha => OrderDual.toDual_le_toDual.1
    ((show Lanes.Filling _ _ _ _ (OrderDual.toDual endSym) _ _ from h.filling.reopen).ends_le
      (le_refl _) (List.mem_reverse.2 ha))⟩

theorem DlCursor.ready (hp : DlCursor c p) : UlReady c (PaddedHbf.closedDl c p) := by
  unfold PaddedHbf.closedDl
  split
  · exact ⟨(hp.laid.close hp.next_le : DlLaid c _ _ 0 0 [] _).settle,
      hp.first.trans hp.next_le, hp.future_le, hp.last_eq, hp.futureLast_eq, rfl, hp.noUplink⟩
  · rename_i hlayer
    have hzero : p.layerIdx = 0 := Nat.eq_zero_of_not_pos hlayer
    have hlaid := hp.laid
    rw [hzero, hp.fresh hzero] at hlaid
    exact ⟨hlaid.settle, hp.first, hp.next_le.trans hp.future_le, hp.last_eq, hp.futureLast_eq,
      hzero, hp.noUplink⟩

theorem UlReady.close (hp : UlReady c p) : UlReady c (p.closeUlBlock c) :=
  ⟨hp.dl, hp.first, hp.next_le.trans (Nat.le_of_eq (congrArg (· + 1) hp.futureLast_eq.symm)),
    (congrArg (· + 2) hp.futureLast_eq).trans hp.last_eq, rfl, rfl, hp.noUplink⟩

theorem UlReady.laid (hp : UlReady c p) : Laid c (PaddedHbf.closedUl c p) := by
  unfold PaddedHbf.closedUl
  rw [hp.layer, if_neg (Nat.lt_irrefl 0)]
  refine ⟨hp.dl, ?_, hp.first, hp.next_le, Nat.le_of_eq hp.last_eq⟩
  rw [hp.noUplink]
  exact .empty

/-- A retransmission that fits is placed at the end of the subframe. -/
theorem UlReady.place (hc : SmallSubframe c) (hp : UlReady c p) (hfits : (ulRetx c).fits dci p)
    (hopen : p.openUlBlock dci.numSym = .ok p') (itUeInfo : Option Nat) :
    Laid c (PaddedHbf.closedUl c
      ((p'.takeUl.pushUl p'.layerIdx (Retx.ulSlot itUeInfo dci p')).nextUlLayer c dci.rnti)) := by
  have hbyte := hc.le_byte
  have hlast := hp.last_eq
  rcases Placement.openUlBlock_ok hopen with ⟨-, hle, rfl⟩ | ⟨hlayer, -⟩
  swap
  · exact absurd hp.layer hlayer
  have hroom : p.nextSymAvail ≤ p.lastSymAvail - dci.numSym + 1 := by
    have hbegin := (of_decide_eq_true hfits).2
    rwa [sub32_of_le hle (by omega), Nat.mod_eq_of_lt (by omega)] at hbegin
  have hbegins : (p.lastSymAvail - dci.numSym + 1) % 2 ^ 8 = p.lastSymAvail - dci.numSym + 1 :=
    Nat.mod_eq_of_lt (by omega)
  -- the only slot of a block from the end of the subframe
  have hul : UlLaid c (fun i => if i = 0 then
      [Retx.ulSlot itUeInfo dci { p with futureLastSymAvail := p.lastSymAvail - dci.numSym }]
      else []) (p.lastSymAvail + 1) (p.lastSymAvail - dci.numSym + 1) 1
      [dci.rnti] (p.lastSymAvail - dci.numSym + 1) := by
    refine UlLaid.empty.push _ ?_ (Nat.le_of_eq hbegins.symm) ?_ List.not_mem_nil
      (Nat.le_of_eq hbegins.symm) rfl rfl hp.layer hc.layers
    · omega
    · show (p.lastSymAvail - dci.numSym + 1) % 2 ^ 8 + dci.numSym ≤ _
      rw [hbegins]
      omega
  have hlanes : (fun i => if i = p.layerIdx then
      Retx.ulSlot itUeInfo dci { p with futureLastSymAvail := p.lastSymAvail - dci.numSym } ::
        p.tempUlslotAllocInfo i else p.tempUlslotAllocInfo i) = fun i => if i = 0 then
      [Retx.ulSlot itUeInfo dci { p with futureLastSymAvail := p.lastSymAvail - dci.numSym }]
      else [] := by
    rw [hp.layer, hp.noUplink]
  have hlaid := (hul.close (by omega) : UlLaid c _ _ 0 0 [] _).settle
  rw [← hlanes] at hlaid
  have hdone : ∀ q : Placement, q.tempDlslotAllocInfo = p.tempDlslotAllocInfo →
      q.tempUlslotAllocInfo = (fun i => if i = p.layerIdx then
        Retx.ulSlot itUeInfo dci { p with futureLastSymAvail := p.lastSymAvail - dci.numSym } ::
          p.tempUlslotAllocInfo i else p.tempUlslotAllocInfo i) →
      q.nextSymAvail = p.nextSymAvail → q.lastSymAvail = p.lastSymAvail - dci.numSym →
      Laid c q := by
    intro q hqdl hqul hqnext hqlast
    refine ⟨?_, ?_, ?_, ?_, ?_⟩
    · rw [hqdl, hqnext]
      exact hp.dl
    · rw [hqul, hqlast]
      exact hlaid
    · exact hqnext ▸ hp.first
    · rw [hqnext, hqlast]
      exact hroom
    · omega
  unfold Placement.nextUlLayer
  split
  · exact hdone _ rfl rfl rfl rfl
  · exact hdone _ rfl rfl rfl rfl

/-- The uplink loop leaves the slots laid. -/
theorem ulLoop_laid (hc : SmallSubframe c) {infos : List UlHarqInfo} {r r' : Retx UlHarqInfo}
    (hok : ulLoop c infos r = .ok r') (hr : UlReady c r.placement)
    (hnoted : NotedOwned UlHarqInfo.rnti UlHarqInfo.harqProcessId infos
      r.harq.ulHarqProcessesDciInfoMap r.sortedHarqRetx) :
    Laid c (PaddedHbf.closedUl c r'.placement) := by
  rcases ulLoop_ok hok with ⟨-, rfl⟩ | ⟨goesOn, hround⟩
  · exact hr.laid
  · obtain ⟨k, p, x, info, dci, hp, -, hx, hinfo, hdci, hcases⟩ := RetxLoop.round_ok hround
    have hready : UlReady c p := by
      rcases hp with rfl | rfl
      · exact hr
      · exact hr.close
    rcases hcases with ⟨-, -, rfl⟩ | ⟨-, -, ⟨hfits, placed, hplaced, rfl⟩ | ⟨-, rfl⟩⟩
    · exact hready.laid
    · obtain ⟨p', count, hopen, -, -, hplacement, -⟩ := Retx.placeUl_ok hplaced
      have howner := hnoted x (List.mem_of_getElem? hx) info hinfo dci hdci
      have hrnti : (ulRetx c).rnti info = dci.rnti := howner.rnti_eq.symm
      show Laid c (PaddedHbf.closedUl c placed.placement)
      rw [hplacement, hrnti]
      exact hready.place hc hfits hopen _
    · exact hready.laid

end

/-! ## New data -/

/-- A share of some symbols, rounded, is at most all of them. -/
theorem roundDiv_bounds {available : Int} {part whole : Nat} (havailable : 0 ≤ available)
    (hpart : part ≤ whole) (hpos : 0 < whole) :
    0 ≤ roundDiv (available * part) whole ∧ roundDiv (available * part) whole ≤ available := by
  have hshare : 0 ≤ available * part := Int.mul_nonneg havailable (Int.natCast_nonneg part)
  have hle : available * part ≤ available * whole :=
    Int.mul_le_mul_of_nonneg_left (Int.ofNat_le.2 hpart) havailable
  have hwhole : (0 : Int) < 2 * whole := by omega
  unfold roundDiv
  rw [if_pos hshare]
  refine ⟨Int.ediv_nonneg (by omega) (Int.le_of_lt hwhole), ?_⟩
  refine Int.lt_add_one_iff.1 ((Int.ediv_lt_iff_lt_mul hwhole).2 ?_)
  calc 2 * (available * part) + whole
      ≤ 2 * (available * whole) + whole := by omega
    _ < 2 * (available * whole) + 2 * whole := by omega
    _ = (available + 1) * (2 * whole) := by
        rw [Int.add_mul, Int.one_mul, Int.mul_left_comm available 2]

/-- The uplink region begins in what is left of the subframe. -/
theorem firstUlSymbol_bounds {p : Placement} {dl ul : Nat}
    (hnext : p.nextSymAvail ≤ p.lastSymAvail + 1) (hlast : p.lastSymAvail + 1 < 2 ^ 32)
    (hpos : 0 < dl + ul) :
    p.nextSymAvail ≤ firstUlSymbol c p dl ul ∧ firstUlSymbol c p dl ul ≤ p.lastSymAvail + 1 := by
  have havailable : (0 : Int) ≤ p.lastSymAvail - p.nextSymAvail + 1 := by omega
  obtain ⟨hnonneg, hle⟩ := roundDiv_bounds havailable (Nat.le_add_right dl ul) hpos
  unfold firstUlSymbol
  rw [if_neg (by omega)]
  simp only
  rw [Int.emod_eq_of_lt (by omega) (by omega)]
  omega

namespace NewData

variable {region : Region} {d d' : NewData} {border : Nat}

/-- The placement in the downlink pass over the UEs of which `rest` have not had their turn. -/
structure DlTurnLaid (c : PaddedHbfConfig) (region : Region) (border : Nat)
    (rest : OrderedMap UeSchedInfo) (d : NewData) : Prop where
  laid : ∃ owners, DlLaid c d.placement.tempDlslotAllocInfo d.placement.nextSymAvail
    (d.placement.nextSymAvail + region.symPerBlock) d.layerIdx owners border ∧
      ∀ rnti ∈ owners, rnti ∉ rest.keys
  nodup : rest.keys.Nodup
  first : 1 ≤ d.placement.nextSymAvail
  layer : d.layerIdx < c.phyMac.numEnbLayers

/-- A turn in the downlink pass keeps to the cursor, and leaves the uplink alone. -/
theorem dlTurn_laid (hc : SmallSubframe c) (hharq : c.harqOn = true)
    (hlength : region.symPerBlock < 2 ^ 8) {entry : Nat × UeSchedInfo}
    {rest : OrderedMap UeSchedInfo} (hok : d.dlTurn c region entry = .ok d')
    (hborder : 0 < entry.2.maxDlSymbols →
      region.firstUlSymbol ≤ border ∧ region.firstUlSymbol < 2 ^ 8)
    (hd : DlTurnLaid c region border (entry :: rest) d) :
    DlTurnLaid c region border rest d' ∧
      d'.placement.tempUlslotAllocInfo = d.placement.tempUlslotAllocInfo ∧
      d'.placement.lastSymAvail = d.placement.lastSymAvail := by
  obtain ⟨⟨owners, hlaid, howners⟩, hnodup, hfirst, hlayer⟩ := hd
  have hrest : ∀ rnti ∈ owners, rnti ∉ rest.keys :=
    fun rnti hrnti hmem => howners rnti hrnti (List.mem_cons_of_mem _ hmem)
  have hkey : entry.1 ∉ rest.keys ∧ rest.keys.Nodup := List.nodup_cons.1 hnodup
  rcases dlTurn_ok hok with rfl | ⟨numSym, hpos, hblock, hmax, hfits, hplace⟩
  · exact ⟨⟨⟨owners, hlaid, hrest⟩, hkey.2, hfirst, hlayer⟩, rfl, rfl⟩
  obtain ⟨hregion, hbyte⟩ := hborder (Nat.lt_of_lt_of_le hpos hmax)
  obtain ⟨harqId, pdus, placed, -, -, -, hplaced, hcases⟩ := placeDl_ok hharq hplace
  have hmod : d.placement.nextSymAvail % 2 ^ 8 = d.placement.nextSymAvail :=
    Nat.mod_eq_of_lt (by omega)
  have hnew : entry.1 ∉ owners :=
    fun hmem => howners entry.1 hmem List.mem_cons_self
  have hpush := hlaid.push
    (d.dlSlot (d.dlDci c entry.1 entry.2 numSym harqId) pdus) hfirst hmod
    (show d.placement.nextSymAvail % 2 ^ 8 + numSym ≤ _ by rw [hmod]; omega) hnew
    (show d.placement.nextSymAvail % 2 ^ 8 + numSym ≤ _ by rw [hmod]; omega) rfl rfl rfl hlayer
  have hpush' : DlLaid c placed.tempDlslotAllocInfo d.placement.nextSymAvail
      (d.placement.nextSymAvail + region.symPerBlock) (d.layerIdx + 1) (entry.1 :: owners)
      border := by
    rw [hplaced]
    exact hpush
  have hdone : ∀ rnti ∈ entry.1 :: owners, rnti ∉ rest.keys := by
    intro rnti hrnti
    rcases List.mem_cons.1 hrnti with rfl | hrnti
    · exact hkey.1
    · exact hrest rnti hrnti
  rcases hcases with ⟨-, hlayer', hplacement⟩ | ⟨hmore, hlayer', hplacement⟩
  · have hnext : d'.placement.nextSymAvail =
        d.placement.nextSymAvail + region.symPerBlock := by
      rw [hplacement, hmod]
      show (max _ _ + _) % 2 ^ 32 = _
      rw [Nat.max_self, Nat.mod_eq_of_lt (by omega)]
    refine ⟨⟨⟨[], ?_, fun _ h => by cases h⟩, hkey.2, ?_, ?_⟩, ?_, ?_⟩
    · rw [hlayer', hnext, hplacement]
      exact hpush'.close (Nat.le_add_right _ _)
    · omega
    · rw [hlayer']
      exact hc.layers
    · rw [hplacement, hplaced]
      rfl
    · rw [hplacement, hplaced]
      rfl
  · refine ⟨⟨⟨_, ?_, hdone⟩, hkey.2, ?_, ?_⟩, ?_, ?_⟩
    · have hnext : placed.nextSymAvail = d.placement.nextSymAvail := by
        rw [hplaced]
        rfl
      rw [hplacement, hlayer', hnext]
      exact hpush'
    · rw [hplacement, hplaced]
      exact hfirst
    · omega
    · rw [hplacement, hplaced]
      rfl
    · rw [hplacement, hplaced]
      rfl

/-- The placement in the uplink pass over the UEs of which `rest` have not had their turn. -/
structure UlTurnLaid (c : PaddedHbfConfig) (region : Region) (border : Nat)
    (rest : OrderedMap UeSchedInfo) (d : NewData) : Prop where
  laid : ∃ owners, UlLaid c d.placement.tempUlslotAllocInfo (d.placement.lastSymAvail + 1)
    (ulStart region d.placement) d.layerIdx owners border ∧ ∀ rnti ∈ owners, rnti ∉ rest.keys
  nodup : rest.keys.Nodup
  last_le : d.placement.lastSymAvail + 2 ≤ c.phyMac.symbolsPerSubframe
  layer : d.layerIdx < c.phyMac.numEnbLayers

/-- A new uplink block keeps to the cursor, and leaves the downlink alone. -/
theorem placeUl_laid (hc : SmallSubframe c) (hharq : c.harqOn = true) {sfnSf : SfnSf}
    {entry : Nat × UeSchedInfo} {rest : OrderedMap UeSchedInfo} {numSym : Nat}
    (hborder : border ≤ region.firstUlSymbol) (hpos : 0 < region.firstUlSymbol)
    (hstart : region.firstUlSymbol ≤ ulStart region d.placement)
    (hfits : ulStart region d.placement + numSym ≤ d.placement.lastSymAvail + 1)
    (hfree : (d.ulHarqId c entry.1).1 < c.phyMac.numHarqProcess)
    (hok : (d.ulHarqId c entry.1).2.placeUl c sfnSf region entry.1 entry.2 numSym
      (ulStart region d.placement) (d.ulHarqId c entry.1).1 = .ok d')
    (hd : UlTurnLaid c region border (entry :: rest) d) :
    UlTurnLaid c region border rest d' ∧
      d'.placement.tempDlslotAllocInfo = d.placement.tempDlslotAllocInfo := by
  obtain ⟨⟨owners, hlaid, howners⟩, hnodup, hlast, hlayer⟩ := hd
  have hbyte := hc.le_byte
  have hrest : ∀ rnti ∈ owners, rnti ∉ rest.keys :=
    fun rnti hrnti hmem => howners rnti hrnti (List.mem_cons_of_mem _ hmem)
  have hkey : entry.1 ∉ rest.keys ∧ rest.keys.Nodup := List.nodup_cons.1 hnodup
  obtain ⟨harqId, placed, -, -, hplaced, hcases⟩ := placeUl_ok hharq hfree hok
  have hmod : ulStart region d.placement % 2 ^ 8 = ulStart region d.placement :=
    Nat.mod_eq_of_lt (by omega)
  have hnew : entry.1 ∉ owners :=
    fun hmem => howners entry.1 hmem List.mem_cons_self
  have hpush := hlaid.push
    (d.ulSlot (d.ulDci c entry.1 entry.2 numSym (ulStart region d.placement) harqId))
    (by omega) (Nat.le_of_eq hmod.symm)
    (show ulStart region d.placement % 2 ^ 8 + numSym ≤ _ by rw [hmod]; omega) hnew
    (show border ≤ ulStart region d.placement % 2 ^ 8 by rw [hmod]; omega) rfl rfl rfl hlayer
  have hpush' : UlLaid c placed.tempUlslotAllocInfo (d.placement.lastSymAvail + 1)
      (ulStart region d.placement) (d.layerIdx + 1) (entry.1 :: owners) border := by
    rw [hplaced]
    exact hpush
  have hdone : ∀ rnti ∈ entry.1 :: owners, rnti ∉ rest.keys := by
    intro rnti hrnti
    rcases List.mem_cons.1 hrnti with rfl | hrnti
    · exact hkey.1
    · exact hrest rnti hrnti
  rcases hcases with ⟨-, hlayer', hplacement⟩ | ⟨hmore, hlayer', hplacement⟩
  · have hend : d'.placement.lastSymAvail + 1 = ulStart region d.placement := by
      rw [hplacement]
      show (if 0 < ulStart region d.placement then _ else _) + 1 = _
      rw [if_pos (by omega)]
      omega
    refine ⟨⟨⟨[], ?_, fun _ h => by cases h⟩, hkey.2, ?_, ?_⟩, ?_⟩
    · rw [hlayer', hend, hplacement]
      exact hpush'.close (by omega)
    · omega
    · rw [hlayer']
      exact hc.layers
    · rw [hplacement, hplaced]
      rfl
  · have hlast' : placed.lastSymAvail = d.placement.lastSymAvail := by
      rw [hplaced]
      rfl
    have hstart' : ulStart region placed = ulStart region d.placement := by
      unfold ulStart
      rw [hlast']
    refine ⟨⟨⟨_, ?_, hdone⟩, hkey.2, ?_, ?_⟩, ?_⟩
    · rw [hplacement, hlayer', hlast', hstart']
      exact hpush'
    · rw [hplacement, hlast']
      exact hlast
    · omega
    · rw [hplacement, hplaced]
      rfl

end NewData

/-! ## Every trigger -/

/-- Downlink slots up to a symbol in the data region, and uplink slots from it on. -/
structure Divided (c : PaddedHbfConfig) (p : Placement) (border : Nat) : Prop where
  dl : ∃ next hi k owners, DlLaid c p.tempDlslotAllocInfo next hi k owners border
  ul : ∃ endSym lo k owners, UlLaid c p.tempUlslotAllocInfo endSym lo k owners border
  first : 1 ≤ border
  last : border + 1 ≤ c.phyMac.symbolsPerSubframe

theorem Laid.divided {p : Placement} (hp : Laid c p) : Divided c p p.nextSymAvail :=
  ⟨⟨_, _, _, _, hp.dl⟩, ⟨_, _, _, _, hp.ul.mono hp.next_le⟩, hp.first, by
    have := hp.next_le
    have := hp.last_le
    omega⟩

/-- The passes over new data divide what the retransmissions leave. -/
theorem scheduleNewData_divided (hc : SmallSubframe c) (hharq : c.harqOn = true) {sfnSf : SfnSf}
    {s s' : PaddedHbf} {pass : HarqPass} {p : Placement}
    (hok : scheduleNewData c sfnSf s pass = .ok (s', p)) (hpass : Laid c pass.placement) :
    ∃ border, Divided c p border := by
  obtain ⟨-, -, -, ⟨-, rfl⟩ | ⟨order, dl, ul, d₀, d₁, d₂, hnodup, -, hd₀, hlayer₀, hdl, hul,
    hdlLength, -, hdlTurns, hulTurns, -, rfl⟩⟩ := scheduleNewData_ok hok
  · exact ⟨_, hpass.divided⟩
  have hbyte := hc.le_byte
  have hnext := hpass.next_le
  have hlast := hpass.last_le
  have hfirst := hpass.first
  -- a UE that asks for symbols makes the totals positive
  have hdlTotal : ∀ entry ∈ order, entry.2.maxDlSymbols ≤ (order.map (·.2.maxDlSymbols)).sum :=
    fun entry hentry => List.le_sum_of_mem (List.mem_map_of_mem hentry)
  have hulTotal : ∀ entry ∈ order, entry.2.maxUlSymbols ≤ (order.map (·.2.maxUlSymbols)).sum :=
    fun entry hentry => List.le_sum_of_mem (List.mem_map_of_mem hentry)
  rw [← hul] at hdl
  -- nothing is placed if the totals are 0, and then the regions may be anywhere
  obtain ⟨border, hnextBorder, hborderLast, hregion⟩ : ∃ border,
      pass.placement.nextSymAvail ≤ border ∧ border ≤ pass.placement.lastSymAvail + 1 ∧
      (0 < (order.map (·.2.maxDlSymbols)).sum + (order.map (·.2.maxUlSymbols)).sum →
        border = ul.firstUlSymbol) := by
    rcases Nat.eq_zero_or_pos ((order.map (·.2.maxDlSymbols)).sum +
      (order.map (·.2.maxUlSymbols)).sum) with hzero | hpos
    · exact ⟨_, Nat.le_refl _, hnext, fun hpos => absurd hzero (Nat.ne_of_gt hpos)⟩
    · have hbounds := firstUlSymbol_bounds (c := c) hnext (by omega) hpos
      rw [← hdl] at hbounds
      exact ⟨_, hbounds.1, hbounds.2, fun _ => rfl⟩
  have hdlLaid : (∃ rest, NewData.DlTurnLaid c dl border rest d₁) ∧
      d₁.placement.tempUlslotAllocInfo = pass.placement.tempUlslotAllocInfo ∧
      d₁.placement.lastSymAvail = pass.placement.lastSymAvail := by
    have hturns := foldlM_invariant (I := fun d rest => (∀ entry ∈ rest, entry ∈ order) ∧
      NewData.DlTurnLaid c dl border rest d ∧
      d.placement.tempUlslotAllocInfo = pass.placement.tempUlslotAllocInfo ∧
      d.placement.lastSymAvail = pass.placement.lastSymAvail) hdlTurns ?_ ?_
    · exact ⟨⟨_, hturns.2.1⟩, hturns.2.2⟩
    · refine ⟨fun _ h => h, ⟨⟨[], ?_, fun _ h => by cases h⟩, hnodup, ?_, ?_⟩, ?_, ?_⟩
      · rw [hlayer₀, hd₀]
        exact (hpass.dl.mono hnextBorder).reopen
      · rw [hd₀]
        exact hfirst
      · rw [hlayer₀]
        exact hc.layers
      · rw [hd₀]
      · rw [hd₀]
    · intro d entry rest d' ⟨hmem, hlaid, hulSame, hlastSame⟩ hturn
      have hentry := hmem entry List.mem_cons_self
      obtain ⟨hlaid', hul', hlast'⟩ := NewData.dlTurn_laid hc hharq hdlLength hturn
        (fun hpos => by
          have htotal := hdlTotal entry hentry
          have := hregion (by omega)
          omega) hlaid
      exact ⟨fun other hother => hmem other (List.mem_cons_of_mem _ hother), hlaid',
        hul'.trans hulSame, hlast'.trans hlastSame⟩
  obtain ⟨⟨_, ⟨owners, hd₁, -⟩, -⟩, hulSame, hlastSame⟩ := hdlLaid
  obtain ⟨_, -, ⟨⟨ulOwners, hulLaid, -⟩, -⟩, hdlSame⟩ := NewData.ulTurns_invariant
    (I := fun d rest => (∀ entry ∈ rest, entry ∈ order) ∧ NewData.UlTurnLaid c ul border rest d ∧
      d.placement.tempDlslotAllocInfo = d₁.placement.tempDlslotAllocInfo) hharq hulTurns
    (by
      refine ⟨fun _ h => h, ⟨⟨[], ?_, fun _ h => by cases h⟩, hnodup, ?_, hc.layers⟩, rfl⟩
      · rw [hulSame, hlastSame]
        exact (hpass.ul.mono hborderLast).reopen
      · rw [hlastSame]
        exact hlast)
    (by
      intro d entry rest ⟨hmem, ⟨⟨owners, hlaid, howners⟩, hkeys, hend, hlayer⟩, hsame⟩
      exact ⟨fun other hother => hmem other (List.mem_cons_of_mem _ hother),
        ⟨⟨owners, hlaid, fun rnti hrnti h => howners rnti hrnti (List.mem_cons_of_mem _ h)⟩,
          (List.nodup_cons.1 hkeys).2, hend, hlayer⟩, hsame⟩)
    (by
      intro d d' entry rest numSym ⟨hmem, hlaid, hsame⟩ hpos _ hmax hstart hfits hfree hplace
      have htotal := hulTotal entry (hmem entry List.mem_cons_self)
      have hborder := hregion (by omega)
      obtain ⟨hlaid', hdl'⟩ := NewData.placeUl_laid hc hharq (Nat.le_of_eq hborder) (by omega)
        hstart hfits hfree hplace hlaid
      exact ⟨fun other hother => hmem other (List.mem_cons_of_mem _ hother), hlaid',
        hdl'.trans hsame⟩)
  refine ⟨border, ⟨_, _, _, _, hdlSame ▸ hd₁⟩, ⟨_, _, _, _, hulLaid⟩, ?_, ?_⟩
  · omega
  · omega

/-- Every trigger divides its subframe. -/
theorem PaddedHbf.schedule_divided (hc : SmallSubframe c) (hharq : c.harqOn = true)
    {s s' : PaddedHbf} {params : SchedTriggerReqParameters} {p : Placement}
    (hok : s.schedule c params = .ok (s', p)) (hs : s.harq.Owned) :
    ∃ border, Divided c p border := by
  obtain ⟨t⟩ := PaddedHbf.schedule_ok hharq hok
  have hdl : DlCursor c t.dl.placement := by
    refine (RetxLoop.rounds_invariant (I := fun r => DlCursor c r.placement ∧ r.harq.Owned ∧
      NotedOwned DlHarqInfo.rnti DlHarqInfo.harqProcessId _ r.harq.dlHarqProcessesDciInfoMap
        r.sortedHarqRetx) t.dlLoop_ok ⟨dlCursor_start hc, t.dlNoted_owned hs⟩ ?_).1
    intro r goesOn r' ⟨hcursor, howned⟩ hround
    exact ⟨dlRound_laid hc hround hcursor howned.2, dlRound_owned hround howned⟩
  have hul := ulLoop_laid hc t.ulLoop_ok hdl.ready (t.ulNoted_owned hs).2
  exact scheduleNewData_divided hc hharq t.newData_ok hul

end NtnIab.Mmwave
