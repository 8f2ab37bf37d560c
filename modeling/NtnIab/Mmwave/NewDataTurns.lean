import Mathlib.Algebra.BigOperators.Group.List.Basic
import NtnIab.Mmwave.PaddedHbfNewData

/-!
# What the turns of the UEs do

The result of each step of the passes over the UEs with new data, if there is one, with HARQ on:
which process a new block gets, what is kept of it, and where it is placed.
-/

namespace NtnIab.Mmwave

open Fallible

variable {c : PaddedHbfConfig}

/-! ## Processes of new blocks -/

namespace HarqProcesses

/-- A process that is taken was free. Without a free one nothing changes. -/
theorem takeProcess_cases (m : MmWavePhyMacCommon) (rnti : Nat) (elements : List Nat)
    (status : OrderedMap (List Nat)) :
    (∃ harqId < m.numHarqProcess, elements[harqId]? = some 0 ∧
      takeProcess m rnti elements status = (harqId, setProcess status rnti harqId 1)) ∨
    takeProcess m rnti elements status = (m.numHarqProcess, status) := by
  unfold takeProcess
  cases hfind : (List.range m.numHarqProcess).find? fun i => elements[i]? = some 0 with
  | none => exact Or.inr rfl
  | some harqId =>
      refine Or.inl ⟨harqId, ?_, ?_, rfl⟩
      · exact List.mem_range.1 (List.mem_of_find?_eq_some hfind)
      · simpa using List.find?_some hfind

/-- The processes after a new downlink block, with its process marked and its RLC PDUs kept. -/
structure StartsDl (dci : DciInfoElementTdma) (pdus : List RlcPduInfo) (h h' : HarqProcesses) :
    Prop where
  free : processOf h.dlHarqProcessesStatus dci.rnti dci.harqProcess = some 0
  kept : (processOf h.dlHarqProcessesDciInfoMap dci.rnti dci.harqProcess).isSome
  status : h'.dlHarqProcessesStatus =
    setProcess h.dlHarqProcessesStatus dci.rnti dci.harqProcess 1
  timer : h'.dlHarqProcessesTimer = setProcess h.dlHarqProcessesTimer dci.rnti dci.harqProcess 0
  dcis : h'.dlHarqProcessesDciInfoMap =
    setProcess h.dlHarqProcessesDciInfoMap dci.rnti dci.harqProcess dci
  pdus : ∀ rnti id, processOf h'.dlHarqProcessesRlcPduMap rnti id =
    if rnti = dci.rnti ∧ id = dci.harqProcess then
      (processOf h.dlHarqProcessesRlcPduMap rnti id).map (· ++ pdus)
    else processOf h.dlHarqProcessesRlcPduMap rnti id
  pduOutline : outline h'.dlHarqProcessesRlcPduMap = outline h.dlHarqProcessesRlcPduMap
  ulStatus : h'.ulHarqProcessesStatus = h.ulHarqProcessesStatus
  ulTimer : h'.ulHarqProcessesTimer = h.ulHarqProcessesTimer
  ulDcis : h'.ulHarqProcessesDciInfoMap = h.ulHarqProcessesDciInfoMap

/-- The processes after a new uplink block, with its process marked. -/
structure StartsUl (dci : DciInfoElementTdma) (h h' : HarqProcesses) : Prop where
  free : processOf h.ulHarqProcessesStatus dci.rnti dci.harqProcess = some 0
  kept : (processOf h.ulHarqProcessesDciInfoMap dci.rnti dci.harqProcess).isSome
  eq : h' = { h with
    ulHarqProcessesStatus := setProcess h.ulHarqProcessesStatus dci.rnti dci.harqProcess 1
    ulHarqProcessesTimer := setProcess h.ulHarqProcessesTimer dci.rnti dci.harqProcess 0
    ulHarqProcessesDciInfoMap :=
      setProcess h.ulHarqProcessesDciInfoMap dci.rnti dci.harqProcess dci }

end HarqProcesses

namespace NewData

variable {d d' : NewData} {region : Region} {rnti harqId : Nat}

/-! ## Downlink blocks -/

/-- What the RLC PDUs of a block change. -/
theorem addPdus_ok (hharq : c.harqOn = true) {pdus : List RlcPduInfo}
    (hok : pdus.foldlM (addPdu c rnti harqId) d = .ok d') :
    d'.placement = d.placement ∧ d'.layerIdx = d.layerIdx ∧ d'.blockIdx = d.blockIdx ∧
      d'.ceBsrRxed = d.ceBsrRxed ∧
      ∃ m, d'.harq = { d.harq with dlHarqProcessesRlcPduMap := m } ∧
        outline m = outline d.harq.dlHarqProcessesRlcPduMap ∧ ∀ k i, processOf m k i =
          if k = rnti ∧ i = harqId then
            (processOf d.harq.dlHarqProcessesRlcPduMap k i).map (· ++ pdus)
          else processOf d.harq.dlHarqProcessesRlcPduMap k i := by
  induction pdus generalizing d with
  | nil =>
      obtain rfl := Except.ok.inj hok
      refine ⟨rfl, rfl, rfl, rfl, d.harq.dlHarqProcessesRlcPduMap, rfl, rfl, fun k i => ?_⟩
      split <;> simp
  | cons pdu rest ih =>
      rw [List.foldlM_cons, bind_eq_ok] at hok
      obtain ⟨added, hadded, hrest⟩ := hok
      unfold addPdu at hadded
      rw [if_pos hharq] at hadded
      simp only [bind_eq_ok, lookUp_eq_ok, elementAt_eq_ok] at hadded
      obtain ⟨-, -, lists, hlists, stored, hstored, hadded⟩ := hadded
      obtain rfl := Except.ok.inj hadded
      have hprocess : processOf d.harq.dlHarqProcessesRlcPduMap rnti harqId = some stored :=
        processOf_eq_some_iff.2 ⟨lists, hlists, hstored⟩
      obtain ⟨hplacement, hlayer, hblock, hbsr, m, hharq', houtline, hm⟩ := ih hrest
      refine ⟨hplacement, hlayer, hblock, hbsr, m, hharq',
        houtline.trans outline_setProcess, fun k i => ?_⟩
      rw [hm, processOf_setProcess]
      by_cases heq : k = rnti ∧ i = harqId
      · obtain ⟨rfl, rfl⟩ := heq
        simp [hprocess]
      · simp [heq]

theorem nextDlBlock_ok {symStart : Nat} (hok : d.nextDlBlock c region symStart = .ok d') :
    d'.harq = d.harq ∧ d'.ceBsrRxed = d.ceBsrRxed ∧
    ((d.layerIdx + 1 = c.phyMac.numEnbLayers ∧ d'.layerIdx = 0 ∧
        d'.placement = { d.placement with
          nextSymAvail :=
            (max d.placement.nextSymAvail symStart + region.symPerBlock) % 2 ^ 32 }) ∨
      (d.layerIdx + 1 ≠ c.phyMac.numEnbLayers ∧ d'.layerIdx = d.layerIdx + 1 ∧
        d'.placement = d.placement)) := by
  unfold nextDlBlock at hok
  split at hok
  · rename_i hlast
    simp only [bind_eq_ok] at hok
    obtain ⟨-, -, hok⟩ := hok
    obtain rfl := Except.ok.inj hok
    exact ⟨rfl, rfl, Or.inl ⟨hlast, rfl, rfl⟩⟩
  · rename_i hlast
    obtain rfl := Except.ok.inj hok
    exact ⟨rfl, rfl, Or.inr ⟨hlast, rfl, rfl⟩⟩

/-- A new downlink block: a DCI at the cursor, in a process that was free. -/
theorem placeDl_ok (hharq : c.harqOn = true) {ue : UeSchedInfo} {numSym : Nat}
    (hok : d.placeDl c region rnti ue numSym = .ok d') :
    ∃ harqId pdus placed, harqId < c.phyMac.numHarqProcess ∧
      d.harq.StartsDl (d.dlDci c rnti ue numSym harqId) pdus d'.harq ∧
      d'.ceBsrRxed = d.ceBsrRxed ∧
      placed = (d.placement.take d.layerIdx region.symPerBlock).pushDl d.layerIdx
        (d.dlSlot (d.dlDci c rnti ue numSym harqId) pdus) ∧
      ((d.layerIdx + 1 = c.phyMac.numEnbLayers ∧ d'.layerIdx = 0 ∧
          d'.placement = { placed with
            nextSymAvail :=
              (max d.placement.nextSymAvail (d.placement.nextSymAvail % 2 ^ 8) +
                region.symPerBlock) % 2 ^ 32 }) ∨
        (d.layerIdx + 1 ≠ c.phyMac.numEnbLayers ∧ d'.layerIdx = d.layerIdx + 1 ∧
          d'.placement = placed)) := by
  unfold placeDl dlHarqId at hok
  simp only [if_pos hharq, bind_eq_ok, Prod.exists, assert_eq_ok] at hok
  obtain ⟨-, -, -, -, harqId, d₁, hprocess, -, hlt, d₂, hstore, d₃, hpdus, hnext⟩ := hok
  obtain ⟨harqId', h₁, hupdate, heq⟩ := hprocess
  obtain ⟨rfl, rfl⟩ := Prod.mk.inj (Except.ok.inj heq)
  unfold HarqProcesses.updateDlHarqProcessId at hupdate
  simp only [bind_eq_ok, lookUp_eq_ok] at hupdate
  obtain ⟨status, hstatus, hupdate⟩ := hupdate
  obtain ⟨hid, rfl⟩ := Prod.mk.inj (Except.ok.inj hupdate)
  obtain ⟨harqId, -, hfree, htake⟩ | hnone :=
    HarqProcesses.takeProcess_cases c.phyMac rnti status d.harq.dlHarqProcessesStatus
  swap
  · rw [hnone] at hid
    exact absurd (hid ▸ hlt) (Nat.lt_irrefl _)
  rw [htake] at hid hstore
  obtain rfl : harqId = harqId' := hid
  unfold storeDl at hstore
  simp only [if_pos hharq, bind_eq_ok, lookUp_eq_ok, elementAt_eq_ok] at hstore
  obtain ⟨dcis, hdcis, dci₀, hdci₀, -, -, -, -, hstore⟩ := hstore
  obtain rfl := Except.ok.inj hstore
  obtain ⟨hplacement, hlayer, -, hbsr, m, hharq', houtline, hm⟩ := addPdus_ok hharq hpdus
  obtain ⟨hharq'', hbsr', hnext⟩ := nextDlBlock_ok hnext
  -- neither the process nor the RLC PDUs change what the slot is made of
  have hslot : ∀ dci pdus, d₃.dlSlot dci pdus = d.dlSlot dci pdus := by
    intro dci pdus
    unfold dlSlot
    rw [hplacement, hlayer]
    rfl
  simp only [hslot, hlayer, hplacement] at hnext
  refine ⟨harqId, _, _, hlt, ⟨processOf_eq_some_iff.2 ⟨status, hstatus, hfree⟩, ?_, ?_, ?_, ?_,
    ?_, ?_, ?_, ?_, ?_⟩, hbsr'.trans hbsr, rfl, hnext⟩
  · exact Option.isSome_iff_exists.2 ⟨dci₀, processOf_eq_some_iff.2 ⟨dcis, hdcis, hdci₀⟩⟩
  · rw [hharq'', hharq']
    rfl
  · rw [hharq'', hharq']
    rfl
  · rw [hharq'', hharq']
    rfl
  · intro k i
    rw [hharq'', hharq']
    exact hm k i
  · rw [hharq'', hharq']
    exact houtline
  · rw [hharq'', hharq']
    rfl
  · rw [hharq'', hharq']
    rfl
  · rw [hharq'', hharq']
    rfl

/-! ## Uplink blocks -/

theorem nextUlBlock_ok {start : Nat} (hok : d.nextUlBlock c region start = .ok d') :
    d'.harq = d.harq ∧ d'.ceBsrRxed = d.ceBsrRxed ∧
    ((d.layerIdx + 1 = c.phyMac.numEnbLayers ∧ d'.layerIdx = 0 ∧
        d'.placement = { d.placement with
          lastSymAvail := if 0 < start then start - 1 else d.placement.lastSymAvail }) ∨
      (d.layerIdx + 1 ≠ c.phyMac.numEnbLayers ∧ d'.layerIdx = d.layerIdx + 1 ∧
        d'.placement = d.placement)) := by
  unfold nextUlBlock at hok
  split at hok
  · rename_i hlast
    simp only [bind_eq_ok] at hok
    obtain ⟨-, -, -, -, hok⟩ := hok
    obtain rfl := Except.ok.inj hok
    exact ⟨rfl, rfl, Or.inl ⟨hlast, rfl, rfl⟩⟩
  · rename_i hlast
    obtain rfl := Except.ok.inj hok
    exact ⟨rfl, rfl, Or.inr ⟨hlast, rfl, rfl⟩⟩

/-- A new uplink block, in a process that was free. -/
theorem placeUl_ok (hharq : c.harqOn = true) {sfnSf : SfnSf} {ue : UeSchedInfo}
    {numSym start : Nat}
    (hfree : (d.ulHarqId c rnti).1 < c.phyMac.numHarqProcess)
    (hok : (d.ulHarqId c rnti).2.placeUl c sfnSf region rnti ue numSym start
      (d.ulHarqId c rnti).1 = .ok d') :
    ∃ harqId placed, harqId < c.phyMac.numHarqProcess ∧
      d.harq.StartsUl (d.ulDci c rnti ue numSym start harqId) d'.harq ∧
      placed = d.placement.pushUl d.layerIdx
        (d.ulSlot (d.ulDci c rnti ue numSym start harqId)) ∧
      ((d.layerIdx + 1 = c.phyMac.numEnbLayers ∧ d'.layerIdx = 0 ∧
          d'.placement = { placed with
            lastSymAvail := if 0 < start then start - 1 else d.placement.lastSymAvail }) ∨
        (d.layerIdx + 1 ≠ c.phyMac.numEnbLayers ∧ d'.layerIdx = d.layerIdx + 1 ∧
          d'.placement = placed)) := by
  unfold ulHarqId at hfree hok
  simp only [if_pos hharq] at hfree hok
  unfold HarqProcesses.updateUlHarqProcessId at hfree hok
  cases hstatus : d.harq.ulHarqProcessesStatus.find rnti with
  | none =>
      rw [hstatus] at hfree
      exact absurd hfree (Nat.lt_irrefl _)
  | some status =>
      simp only [hstatus] at hfree hok
      obtain ⟨harqId, -, hzero, htake⟩ | hnone :=
        HarqProcesses.takeProcess_cases c.phyMac rnti status d.harq.ulHarqProcessesStatus
      swap
      · rw [hnone] at hfree
        exact absurd hfree (Nat.lt_irrefl _)
      rw [htake] at hfree hok
      unfold placeUl storeUl at hok
      simp only [if_pos hharq, bind_eq_ok, lookUp_eq_ok, elementAt_eq_ok] at hok
      obtain ⟨d₂, hstore, hnext⟩ := hok
      obtain ⟨dcis, hdcis, dci₀, hdci₀, -, -, -, -, -, -, -, -, -, -, hstore⟩ := hstore
      obtain rfl := Except.ok.inj hstore
      obtain ⟨hharq', -, hnext⟩ := nextUlBlock_ok hnext
      refine ⟨harqId, _, hfree, ⟨processOf_eq_some_iff.2 ⟨status, hstatus, hzero⟩, ?_, hharq'⟩,
        rfl, hnext⟩
      exact Option.isSome_iff_exists.2 ⟨dci₀, processOf_eq_some_iff.2 ⟨dcis, hdcis, hdci₀⟩⟩

/-! ## Turns -/

/-- Without a free process nothing changes. -/
theorem ulHarqId_none (hharq : c.harqOn = true)
    (hnone : c.phyMac.numHarqProcess ≤ (d.ulHarqId c rnti).1) : (d.ulHarqId c rnti).2 = d := by
  unfold ulHarqId at hnone ⊢
  simp only [if_pos hharq] at hnone ⊢
  unfold HarqProcesses.updateUlHarqProcessId at hnone ⊢
  cases hstatus : d.harq.ulHarqProcessesStatus.find rnti with
  | none => rfl
  | some status =>
      simp only [hstatus] at hnone ⊢
      obtain ⟨harqId, hlt, -, htake⟩ | htake :=
        HarqProcesses.takeProcess_cases c.phyMac rnti status d.harq.ulHarqProcessesStatus
      · rw [htake] at hnone
        exact absurd hlt (Nat.not_lt.2 hnone)
      · rw [htake]

/-- In its turn a UE has a new downlink block before the uplink region, or nothing happens. -/
theorem dlTurn_ok {entry : Nat × UeSchedInfo} (hok : d.dlTurn c region entry = .ok d') :
    d' = d ∨ ∃ numSym, 0 < numSym ∧ numSym ≤ region.symPerBlock ∧
      numSym ≤ entry.2.maxDlSymbols ∧
      d.placement.nextSymAvail + numSym ≤ region.firstUlSymbol ∧
      d.placeDl c region entry.1 entry.2 numSym = .ok d' := by
  unfold dlTurn at hok
  simp only at hok
  split at hok
  · rename_i hfits
    exact Or.inr ⟨_, hfits.2.1, Nat.min_le_left _ _, Nat.min_le_right _ _, hfits.2.2, hok⟩
  · exact Or.inl (Except.ok.inj hok).symm

/-- What a new uplink block in the uplink region preserves, the uplink pass preserves. -/
theorem ulTurns_invariant (hharq : c.harqOn = true) {sfnSf : SfnSf}
    {I : NewData → OrderedMap UeSchedInfo → Prop} {first : Bool}
    {entries : OrderedMap UeSchedInfo}
    (hok : ulTurns c sfnSf region first entries d = .ok d') (hd : I d entries)
    (hskip : ∀ d entry rest, I d (entry :: rest) → I d rest)
    (hplace : ∀ d d' entry rest numSym, I d (entry :: rest) → 0 < numSym →
      numSym ≤ region.symPerBlock → numSym ≤ entry.2.maxUlSymbols →
      region.firstUlSymbol ≤ ulStart region d.placement →
      ulStart region d.placement + numSym ≤ d.placement.lastSymAvail + 1 →
      (d.ulHarqId c entry.1).1 < c.phyMac.numHarqProcess →
      (d.ulHarqId c entry.1).2.placeUl c sfnSf region entry.1 entry.2 numSym
        (ulStart region d.placement) (d.ulHarqId c entry.1).1 = .ok d' → I d' rest) :
    ∃ rest, I d' rest := by
  induction entries generalizing d first with
  | nil =>
      obtain rfl := Except.ok.inj hok
      exact ⟨[], hd⟩
  | cons entry rest ih =>
      unfold ulTurns at hok
      simp only at hok
      split at hok
      · rename_i hfits
        split at hok
        · rename_i hnone
          split at hok
          · obtain rfl := Except.ok.inj hok
            rw [ulHarqId_none hharq hnone]
            exact ⟨_, hd⟩
          · cases hok
        · rename_i hfree
          simp only [bind_eq_ok] at hok
          obtain ⟨placed, hplaced, hrest⟩ := hok
          refine ih hrest (hplace d placed entry rest _ hd hfits.2.1 (Nat.min_le_left _ _)
            (Nat.min_le_right _ _) hfits.2.2.1 hfits.2.2.2 (Nat.lt_of_not_le hfree) hplaced)
      · exact ih hok (hskip d entry rest hd)

end NewData

/-! ## The passes -/

/-- The length of a block has 8 bits. -/
theorem symPerBlock_lt {nSymPerLayer nFlows : Nat} :
    symPerBlock c nSymPerLayer nFlows < 2 ^ 8 := by
  unfold symPerBlock roundToSlots
  split <;> exact Nat.mod_lt _ (by decide)

theorem rotate_perm (rnti : Nat) (ueInfo : OrderedMap UeSchedInfo) :
    (rotate rnti ueInfo).Perm ueInfo := by
  unfold rotate
  split
  · refine List.perm_append_comm.trans (List.Perm.of_eq ?_)
    exact List.takeWhile_append_dropWhile
  · exact List.Perm.refl _

theorem nodup_keys_rotate {rnti : Nat} {ueInfo : OrderedMap UeSchedInfo}
    (hnodup : ueInfo.keys.Nodup) : (rotate rnti ueInfo).keys.Nodup := by
  unfold OrderedMap.keys at hnodup ⊢
  exact ((rotate_perm rnti ueInfo).map _).nodup_iff.2 hnodup

namespace Flows

variable {s : PaddedHbf}

theorem nodup_foldl_insertNew (rntis : List Nat) {m : OrderedMap UeSchedInfo}
    (hnodup : m.keys.Nodup) :
    (rntis.foldl (fun m rnti => m.insertNew rnti {}) m).keys.Nodup := by
  induction rntis generalizing m with
  | nil => exact hnodup
  | cons rnti rest ih => exact ih (OrderedMap.nodup_insertNew hnodup)

theorem nodup_foldl_addDl {reqs : List SchedDlRlcBufferReqParameters} {flows : Flows}
    (hnodup : flows.ueInfo.keys.Nodup) : (reqs.foldl (addDl c s) flows).ueInfo.keys.Nodup := by
  induction reqs generalizing flows with
  | nil => exact hnodup
  | cons req rest ih =>
      refine ih ?_
      unfold addDl
      simp only
      split
      · exact OrderedMap.nodup_adjust (OrderedMap.nodup_insertNew hnodup)
      · exact hnodup

theorem nodup_addUl {entries : OrderedMap Nat} {flows flows' : Flows}
    (hok : addUl c s entries flows = .ok flows') (hnodup : flows.ueInfo.keys.Nodup) :
    flows'.ueInfo.keys.Nodup := by
  induction entries generalizing flows with
  | nil =>
      obtain rfl := Except.ok.inj hok
      exact hnodup
  | cons entry rest ih =>
      unfold addUl at hok
      split at hok
      · exact ih hok hnodup
      · simp only [bind_eq_ok, Prod.exists] at hok
        obtain ⟨cqi, mcs, -, hok⟩ := hok
        split at hok
        · obtain rfl := Except.ok.inj hok
          exact hnodup
        · refine ih hok ?_
          dsimp only
          exact OrderedMap.nodup_adjust (OrderedMap.nodup_insertNew hnodup)

/-- Every UE has one entry. -/
theorem nodup_collect {pass : HarqPass} {flows : Flows} (hok : collect c s pass = .ok flows) :
    flows.ueInfo.keys.Nodup := by
  have hretx := nodup_foldl_insertNew pass.ueInfo (m := []) List.nodup_nil
  have hdl : (collectDl c s pass).ueInfo.keys.Nodup := by
    unfold collectDl
    simp only
    split
    · exact nodup_foldl_addDl hretx
    · exact hretx
  unfold collect at hok
  split at hok
  · exact nodup_addUl hok hdl
  · obtain rfl := Except.ok.inj hok
    exact hdl

end Flows

/-- The passes have nothing to do, or they go over UEs with one entry each, in regions that are
divided in proportion to what they ask for. -/
theorem scheduleNewData_ok {sfnSf : SfnSf} {s s' : PaddedHbf} {pass : HarqPass} {p : Placement}
    (hok : scheduleNewData c sfnSf s pass = .ok (s', p)) :
    s'.dlHarqInfoList = pass.dlHarqInfoList ∧ s'.ulHarqInfoList = pass.ulHarqInfoList ∧
    s'.wbCqiRxed = s.wbCqiRxed ∧
    ((s'.harq = pass.harq ∧ p = pass.placement) ∨
      ∃ (order : OrderedMap UeSchedInfo) (dl ul : Region) (d₀ d₁ d₂ : NewData),
        order.keys.Nodup ∧
        d₀.harq = pass.harq ∧ d₀.placement = pass.placement ∧ d₀.layerIdx = 0 ∧
        dl.firstUlSymbol = firstUlSymbol c pass.placement (order.map (·.2.maxDlSymbols)).sum
          (order.map (·.2.maxUlSymbols)).sum ∧
        ul.firstUlSymbol = dl.firstUlSymbol ∧
        dl.symPerBlock < 2 ^ 8 ∧ ul.symPerBlock < 2 ^ 8 ∧
        order.foldlM (NewData.dlTurn c dl) d₀ = .ok d₁ ∧
        NewData.ulTurns c sfnSf ul true order { d₁ with layerIdx := 0, blockIdx := 0 } = .ok d₂ ∧
        s'.harq = d₂.harq ∧ p = d₂.placement) := by
  unfold scheduleNewData at hok
  simp only [bind_eq_ok] at hok
  obtain ⟨flows, hflows, hok⟩ := hok
  split at hok
  · obtain ⟨rfl, rfl⟩ := Prod.mk.inj (Except.ok.inj hok)
    exact ⟨rfl, rfl, rfl, Or.inl ⟨rfl, rfl⟩⟩
  · simp only [bind_eq_ok] at hok
    obtain ⟨d₁, hdl, d₂, hul, hok⟩ := hok
    obtain ⟨rfl, rfl⟩ := Prod.mk.inj (Except.ok.inj hok)
    refine ⟨rfl, rfl, rfl, Or.inr ⟨_, _, _, _, d₁, d₂, ?_, ?_, ?_, ?_, ?_, ?_, ?_, ?_, hdl, hul,
      rfl, rfl⟩⟩
    · refine nodup_keys_rotate ?_
      have hnodup := Flows.nodup_collect hflows
      unfold OrderedMap.keys at hnodup ⊢
      rwa [List.map_map]
    · rfl
    · rfl
    · rfl
    · have hperm := fun (ueInfo : OrderedMap UeSchedInfo) (f : Nat × UeSchedInfo → Nat) =>
        ((rotate_perm s.nextRnti ueInfo).map f).sum_eq
      rw [hperm, hperm]
    · rfl
    · exact symPerBlock_lt
    · exact symPerBlock_lt

end NtnIab.Mmwave
