import NtnIab.Mmwave.PaddedHbfTrigger
import NtnIab.Mmwave.RetxRounds

/-!
# The UE of a retransmission

The slot of a retransmission takes its UE from an iterator that the loop over the feedback left
behind, and the counters of the retransmission go to the entry of the same iterator. The map of the
UEs is empty when a trigger begins, so after the downlink feedback the iterator is at the end. It
is set only when the first retransmission has been placed, to the UE of that one.

## Strategy

* What is placed stays placed, whatever a round does (`Round.keeps`).
* The first block that is placed has the iterator as it was before the loop
  (`exists_slot_of_fits`): at the end in the downlink, and in the uplink too if the downlink placed
  nothing.
* So the slots have the right UE exactly if nothing is placed at all.
-/

namespace NtnIab.Mmwave

open Fallible

/-- The slots of both directions on a layer. -/
def Placement.slotsOn (p : Placement) (layer : Nat) : List SlotAllocInfo :=
  p.tempDlslotAllocInfo layer ++ p.tempUlslotAllocInfo layer

variable (c : PaddedHbfConfig)

/-! ## What is recorded -/

section
variable {Info : Type} (loop : RetxLoop Info) (infos : List Info)

/-- The retransmission that is placed in a round. -/
def RetxLoop.placed (r : Retx Info) : Option Info := do
  let (k, r) := loop.skip infos r
  let x ← r.sortedHarqRetx[k]?
  let info ← infos[x.2]?
  let dci ← processOf (loop.dciInfoMap r.harq) (loop.rnti info) (loop.harqProcessId info)
  if r.placement.symAvail ≠ 0 ∧ loop.fits dci r.placement then some info else none

/-- The UEs of the retransmissions that are placed, each with the UE whose entry has the counters
of the retransmission. -/
def RetxLoop.counters : Nat → Retx Info → List (Nat × Option Nat)
  | 0, _ => []
  | n + 1, r =>
      let here := (loop.placed infos r).toList.map fun info =>
        (loop.rnti info, (r.visitUe (loop.rnti info)).itUeInfo)
      match loop.round infos r with
      | .ok (true, r') => here ++ RetxLoop.counters n r'
      | .ok (false, _) => here
      | .error _ => here

/-- No block of a loop fits what is left: there are no symbols, or all blocks are too long. -/
def RetxLoop.NothingFits (count : Nat) (r : Retx Info) : Prop :=
  r.placement.symAvail = 0 ∨ ∀ x ∈ r.sortedHarqRetx.take count, ∀ info, infos[x.2]? = some info →
    ∀ dci, processOf (loop.dciInfoMap r.harq) (loop.rnti info) (loop.harqProcessId info) =
      some dci → loop.fits dci r.placement = false

end

/-- The state before the downlink loop. -/
def dlRetxStart (wbCqiRxed : OrderedMap Nat) (infos : List DlHarqInfo) (pass : HarqPass) :
    Except Fault (Retx DlHarqInfo) := do
  let f ← infos.zipIdx.foldlM (dlFeedback c wbCqiRxed) (pass.harq, [])
  pure { harq := f.1, placement := pass.placement, ueInfo := pass.ueInfo, itUeInfo := none,
         sortedHarqRetx := f.2 }

/-- The state before the uplink loop. -/
def ulRetxStart (infos : List UlHarqInfo) (pass : HarqPass) : Except Fault (Retx UlHarqInfo) := do
  let f ← infos.zipIdx.foldlM ulFeedback (pass.harq, [])
  let itUeInfo := infos.getLast?.bind fun info =>
    if info.rnti ∈ pass.ueInfo then some info.rnti else none
  pure { harq := f.1, placement := pass.placement, ueInfo := pass.ueInfo, itUeInfo,
         sortedHarqRetx := f.2 }

namespace PaddedHbf

variable (params : SchedTriggerReqParameters) (s : PaddedHbf)

/-- The pending downlink feedback. -/
def dlInfos : List DlHarqInfo := s.dlHarqInfoList ++ params.dlHarqInfoList

/-- The pending uplink feedback. -/
def ulInfos : List UlHarqInfo := s.ulHarqInfoList ++ params.ulHarqInfoList

/-- What the passes begin with. -/
def passStart : HarqPass :=
  { harq := s.harq, placement := .start c, ulHarqInfoList := s.ulInfos params }

/-- The counters of both loops of a trigger. -/
def retxCounters : Except Fault (List (Nat × Option Nat)) :=
  if c.harqOn then do
    let dl ← dlRetxStart c s.wbCqiRxed (s.dlInfos params) (s.passStart c params)
    let pass ← dlPass c s.wbCqiRxed (s.dlInfos params) (s.passStart c params)
    let ul ← ulRetxStart (s.ulInfos params) pass
    pure ((dlRetx c).counters (s.dlInfos params) dl.sortedHarqRetx.length dl ++
      (ulRetx c).counters (s.ulInfos params) (min 1 ul.sortedHarqRetx.length) ul)
  else pure []

/-- Every slot of a retransmission has the UE and the layer of its DCI, and the counters of every
retransmission are those of its UE. -/
def RetxOfTheirUes : Prop :=
  ∀ pass counters, s.scheduleRetx c params = .ok pass → s.retxCounters c params = .ok counters →
    (∀ layer, ∀ slot ∈ pass.placement.slotsOn layer,
      slot.rnti = some slot.dci.rnti ∧ slot.layerInd = slot.dci.layerInd) ∧
    ∀ counter ∈ counters, counter.2 = some counter.1

/-- Nothing is to be retransmitted, or no block of a retransmission fits the empty subframe. -/
def NoRetxFits : Prop :=
  c.harqOn = true → ∀ dl pass,
    dlRetxStart c s.wbCqiRxed (s.dlInfos params) (s.passStart c params) = .ok dl →
    dlPass c s.wbCqiRxed (s.dlInfos params) (s.passStart c params) = .ok pass →
    (dlRetx c).NothingFits (s.dlInfos params) dl.sortedHarqRetx.length dl ∧
    ∀ ul, ulRetxStart (s.ulInfos params) pass = .ok ul →
      (ulRetx c).NothingFits (s.ulInfos params) 1 ul

end PaddedHbf

/-! ## Rounds -/

/-- What the rounds of both loops have in common: a block that is placed has the iterator of the
state before, and what was placed before stays. -/
structure Round {Info : Type} (loop : RetxLoop Info) : Prop where
  close : ∀ p layer, (loop.closeBlock p).slotsOn layer = p.slotsOn layer
  keeps : ∀ rnti harqId dci r r', loop.place rnti harqId dci r = .ok r' →
    ∀ layer, r.placement.slotsOn layer ⊆ r'.placement.slotsOn layer
  places : ∀ rnti harqId dci r r', loop.place rnti harqId dci r = .ok r' →
    ∃ layer, ∃ slot ∈ r'.placement.slotsOn layer, slot.rnti = r.itUeInfo
  agrees : ∀ rnti harqId dci r r', loop.place rnti harqId dci r = .ok r' →
    ∀ layer, ∀ slot ∈ r'.placement.slotsOn layer,
      slot ∈ r.placement.slotsOn layer ∨ slot.layerInd = slot.dci.layerInd

variable {c}

theorem slots_pushDl {p : Placement} {layer i : Nat} {slot a : SlotAllocInfo} :
    a ∈ (p.pushDl layer slot).slotsOn i ↔ (i = layer ∧ a = slot) ∨ a ∈ p.slotsOn i := by
  unfold Placement.slotsOn Placement.pushDl
  dsimp only
  rw [List.mem_append, List.mem_append]
  split_ifs with hlayer
  · rw [List.mem_append, List.mem_singleton]
    exact ⟨fun h => by tauto, fun h => by tauto⟩
  · exact ⟨Or.inr, fun h => h.resolve_left fun h => hlayer h.1⟩

theorem slots_pushUl {p : Placement} {layer i : Nat} {slot a : SlotAllocInfo} :
    a ∈ (p.pushUl layer slot).slotsOn i ↔ (i = layer ∧ a = slot) ∨ a ∈ p.slotsOn i := by
  unfold Placement.slotsOn Placement.pushUl
  dsimp only
  rw [List.mem_append, List.mem_append]
  split_ifs with hlayer
  · rw [List.mem_cons]
    exact ⟨fun h => by tauto, fun h => by tauto⟩
  · exact ⟨Or.inr, fun h => h.resolve_left fun h => hlayer h.1⟩

theorem slots_nextDlLayer {p : Placement} {rnti i : Nat} :
    (p.nextDlLayer c rnti).slotsOn i = p.slotsOn i := by
  unfold Placement.nextDlLayer
  split <;> rfl

theorem slots_nextUlLayer {p : Placement} {rnti i : Nat} :
    (p.nextUlLayer c rnti).slotsOn i = p.slotsOn i := by
  unfold Placement.nextUlLayer
  split <;> rfl

theorem round_dlRetx : Round (dlRetx c) where
  close := fun _ _ => rfl
  keeps := by
    intro rnti harqId dci r r' hplace layer a ha
    obtain ⟨p, count, pdus, hopen, -, -, -, hp, -, -⟩ := Retx.placeDl_ok hplace
    rw [hp, slots_nextDlLayer, slots_pushDl]
    right
    rcases Placement.openDlBlock_ok hopen with ⟨-, rfl⟩ | ⟨-, -, rfl⟩ <;> exact ha
  places := by
    intro rnti harqId dci r r' hplace
    obtain ⟨p, count, pdus, -, -, -, -, hp, -, -⟩ := Retx.placeDl_ok hplace
    refine ⟨p.layerIdx, Retx.dlSlot r.itUeInfo dci pdus p, ?_, rfl⟩
    rw [hp, slots_nextDlLayer, slots_pushDl]
    exact Or.inl ⟨rfl, rfl⟩
  agrees := by
    intro rnti harqId dci r r' hplace layer slot hslot
    obtain ⟨p, count, pdus, hopen, -, -, -, hp, -, -⟩ := Retx.placeDl_ok hplace
    rw [hp, slots_nextDlLayer, slots_pushDl] at hslot
    rcases hslot with ⟨-, rfl⟩ | hold
    · exact Or.inr rfl
    · left
      rcases Placement.openDlBlock_ok hopen with ⟨-, rfl⟩ | ⟨-, -, rfl⟩ <;> exact hold

theorem round_ulRetx : Round (ulRetx c) where
  close := fun _ _ => rfl
  keeps := by
    intro rnti harqId dci r r' hplace layer a ha
    obtain ⟨p, count, hopen, -, -, hp, -, -⟩ := Retx.placeUl_ok hplace
    rw [hp, slots_nextUlLayer, slots_pushUl]
    right
    rcases Placement.openUlBlock_ok hopen with ⟨-, -, rfl⟩ | ⟨-, rfl⟩ <;> exact ha
  places := by
    intro rnti harqId dci r r' hplace
    obtain ⟨p, count, -, -, -, hp, -, -⟩ := Retx.placeUl_ok hplace
    refine ⟨p.layerIdx, Retx.ulSlot r.itUeInfo dci p, ?_, rfl⟩
    rw [hp, slots_nextUlLayer, slots_pushUl]
    exact Or.inl ⟨rfl, rfl⟩
  agrees := by
    intro rnti harqId dci r r' hplace layer slot hslot
    obtain ⟨p, count, hopen, -, -, hp, -, -⟩ := Retx.placeUl_ok hplace
    rw [hp, slots_nextUlLayer, slots_pushUl] at hslot
    rcases hslot with ⟨-, rfl⟩ | hold
    · exact Or.inr rfl
    · left
      rcases Placement.openUlBlock_ok hopen with ⟨-, -, rfl⟩ | ⟨-, rfl⟩ <;> exact hold

section
variable {Info : Type} {loop : RetxLoop Info} {infos : List Info} {r r' : Retx Info}

/-- What is placed stays placed. -/
theorem Round.keeps_rounds (hround : Round loop) {n : Nat} (hok : loop.rounds infos n r = .ok r')
    {layer : Nat} {a : SlotAllocInfo} (ha : a ∈ r.placement.slotsOn layer) :
    a ∈ r'.placement.slotsOn layer := by
  refine RetxLoop.rounds_invariant (I := fun r => a ∈ r.placement.slotsOn layer) hok ha ?_
  intro r goesOn r' ha hr
  obtain ⟨k, p, x, info, dci, hp, -, -, -, -, hcases⟩ := RetxLoop.round_ok hr
  have hp' : a ∈ p.slotsOn layer := by
    rcases hp with rfl | rfl
    · exact ha
    · rw [hround.close]
      exact ha
  rcases hcases with ⟨-, -, rfl⟩ | ⟨-, -, ⟨-, placed, hplaced, rfl⟩ | ⟨-, rfl⟩⟩
  · exact hp'
  · exact hround.keeps _ _ _ _ _ hplaced layer hp'
  · exact hp'

/-- The layers of the slots agree with those of their DCIs, as they did before. -/
theorem Round.agrees_rounds (hround : Round loop) {n : Nat} (hok : loop.rounds infos n r = .ok r')
    (hr : ∀ layer, ∀ slot ∈ r.placement.slotsOn layer, slot.layerInd = slot.dci.layerInd) :
    ∀ layer, ∀ slot ∈ r'.placement.slotsOn layer, slot.layerInd = slot.dci.layerInd := by
  refine RetxLoop.rounds_invariant (I := fun r => ∀ layer, ∀ slot ∈ r.placement.slotsOn layer,
    slot.layerInd = slot.dci.layerInd) hok hr ?_
  intro r goesOn r' hr hok layer
  obtain ⟨k, p, x, info, dci, hp, -, -, -, -, hcases⟩ := RetxLoop.round_ok hok
  have hp' : ∀ slot ∈ p.slotsOn layer, slot.layerInd = slot.dci.layerInd := by
    rcases hp with rfl | rfl
    · exact hr layer
    · rw [hround.close]
      exact hr layer
  rcases hcases with ⟨-, -, rfl⟩ | ⟨-, -, ⟨-, placed, hplaced, rfl⟩ | ⟨-, rfl⟩⟩
  · exact hp'
  · intro slot hslot
    rcases hround.agrees _ _ _ _ _ hplaced layer slot hslot with hold | hagrees
    · exact hp' slot hold
    · exact hagrees
  · exact hp'

/-- At the start of a block the longest retransmission is taken. -/
theorem skip_of_start (hstart : r.placement.setUeInCurrentSymbolBlock = []) {x : Nat × Nat}
    {rest : List (Nat × Nat)} (hsorted : r.sortedHarqRetx = x :: rest) :
    loop.skip infos r = (0, r) := by
  unfold RetxLoop.skip
  have hfirst : (r.sortedHarqRetx.findIdx? fun x =>
      ¬(infos[x.2]?.any fun info =>
        loop.rnti info ∈ r.placement.setUeInCurrentSymbolBlock)) = some 0 := by
    rw [hstart, hsorted, List.findIdx?_cons]
    simp
  dsimp only
  rw [hfirst]

/-- The rounds of a loop that begins with an empty block, one by one: the first retransmission in
the list is placed, or it is kept and nothing else changes. -/
theorem round_of_start (hstart : r.placement.setUeInCurrentSymbolBlock = []) {x : Nat × Nat}
    {rest : List (Nat × Nat)} (hsorted : r.sortedHarqRetx = x :: rest) {goesOn : Bool}
    (hok : loop.round infos r = .ok (goesOn, r')) :
    ∃ info dci, infos[x.2]? = some info ∧
      processOf (loop.dciInfoMap r.harq) (loop.rnti info) (loop.harqProcessId info) = some dci ∧
      ((goesOn = false ∧ r.placement.symAvail = 0 ∧ r' = r) ∨
        (goesOn = true ∧ r.placement.symAvail ≠ 0 ∧
          ((loop.fits dci r.placement ∧ ∃ placed,
              loop.place (loop.rnti info) (loop.harqProcessId info) dci r = .ok placed ∧
              r' = { placed with sortedHarqRetx := placed.sortedHarqRetx.eraseIdx 0 }) ∨
            (loop.fits dci r.placement = false ∧
              r' = { r with
                infoListUntxed := r.infoListUntxed ++ [info]
                sortedHarqRetx := rest })))) := by
  obtain ⟨k, p, x', info, dci, -, hskip, hx, hinfo, hdci, hcases⟩ := RetxLoop.round_ok hok
  rw [skip_of_start hstart hsorted] at hskip
  obtain ⟨rfl, hr⟩ := Prod.mk.inj hskip
  obtain rfl : p = r.placement := (congrArg Retx.placement hr).symm
  rw [hsorted] at hx
  obtain rfl := Option.some.inj hx
  refine ⟨info, dci, hinfo, hdci, ?_⟩
  rcases hcases with hdone | ⟨hgoes, hleft, hplaced | ⟨hfits, hr'⟩⟩
  · exact Or.inl hdone
  · exact Or.inr ⟨hgoes, hleft, Or.inl hplaced⟩
  · refine Or.inr ⟨hgoes, hleft, Or.inr ⟨hfits, ?_⟩⟩
    rw [hr', hsorted]
    rfl

/-- If nothing fits, nothing is placed and nothing is counted. -/
theorem rounds_of_nothingFits {n : Nat} (hstart : r.placement.setUeInCurrentSymbolBlock = [])
    (hnone : loop.NothingFits infos n r) (hn : n ≤ r.sortedHarqRetx.length)
    (hok : loop.rounds infos n r = .ok r') :
    r'.placement = r.placement ∧ r'.ueInfo = r.ueInfo ∧ loop.counters infos n r = [] := by
  induction n generalizing r with
  | zero =>
      obtain rfl := Except.ok.inj hok
      exact ⟨rfl, rfl, rfl⟩
  | succ n ih =>
      unfold RetxLoop.rounds at hok
      simp only [bind_eq_ok] at hok
      obtain ⟨⟨goesOn, r₁⟩, hround, hrest⟩ := hok
      rcases hsorted : r.sortedHarqRetx with - | ⟨x, rest⟩
      · rw [hsorted] at hn
        exact absurd hn (Nat.not_succ_le_zero n)
      obtain ⟨info, dci, hinfo, hdci, hcases⟩ := round_of_start hstart hsorted hround
      have hfits : r.placement.symAvail ≠ 0 → loop.fits dci r.placement = false := by
        intro hleft
        refine hnone.resolve_left hleft x ?_ info hinfo dci hdci
        rw [hsorted]
        exact List.mem_cons_self
      have hplaced : loop.placed infos r = none := by
        unfold RetxLoop.placed
        rw [skip_of_start hstart hsorted]
        simp only [hsorted, List.getElem?_cons_zero, Option.bind_eq_bind, Option.bind_some, hinfo,
          hdci]
        rw [if_neg]
        rintro ⟨hleft, hfit⟩
        rw [hfits hleft] at hfit
        cases hfit
      unfold RetxLoop.counters
      rw [hplaced, hround]
      rcases hcases with ⟨rfl, -, rfl⟩ | ⟨rfl, hleft, ⟨hfit, -⟩ | ⟨-, rfl⟩⟩
      · obtain rfl := Except.ok.inj hrest
        exact ⟨rfl, rfl, rfl⟩
      · rw [hfits hleft] at hfit
        cases hfit
      · refine ih (r := { r with
          infoListUntxed := r.infoListUntxed ++ [info]
          sortedHarqRetx := rest }) hstart ?_ ?_ hrest
        · refine Or.inr fun y hy => hnone.resolve_left hleft y ?_
          rw [hsorted]
          exact List.mem_cons_of_mem _ hy
        · rw [hsorted] at hn
          exact Nat.le_of_succ_le_succ hn

/-- If something fits, a slot has the iterator with which the loop began. -/
theorem exists_slot_of_fits (hloop : Round loop) {n : Nat}
    (hstart : r.placement.setUeInCurrentSymbolBlock = [])
    (hsome : ¬loop.NothingFits infos n r) (hok : loop.rounds infos n r = .ok r') :
    ∃ layer, ∃ slot ∈ r'.placement.slotsOn layer, slot.rnti = r.itUeInfo := by
  induction n generalizing r with
  | zero => exact absurd (Or.inr (by simp)) hsome
  | succ n ih =>
      unfold RetxLoop.rounds at hok
      simp only [bind_eq_ok] at hok
      obtain ⟨⟨goesOn, r₁⟩, hround, hrest⟩ := hok
      rcases hsorted : r.sortedHarqRetx with - | ⟨x, rest⟩
      · refine absurd (Or.inr ?_) hsome
        rw [hsorted]
        simp
      obtain ⟨info, dci, hinfo, hdci, hcases⟩ := round_of_start hstart hsorted hround
      rcases hcases with ⟨-, hempty, -⟩ | ⟨rfl, hleft, ⟨-, placed, hplaced, rfl⟩ | ⟨hlong, rfl⟩⟩
      · exact absurd (Or.inl hempty) hsome
      · obtain ⟨layer, slot, hslot, hrnti⟩ := hloop.places _ _ _ _ _ hplaced
        exact ⟨layer, slot, hloop.keeps_rounds hrest hslot, hrnti⟩
      · refine ih (r := { r with
          infoListUntxed := r.infoListUntxed ++ [info]
          sortedHarqRetx := rest }) hstart ?_ hrest
        -- the first one does not fit, so one of the others does
        intro hnone
        apply hsome
        refine Or.inr fun y hy info' hinfo' dci' hdci' => ?_
        rw [hsorted, List.take_succ_cons] at hy
        rcases List.mem_cons.1 hy with rfl | hy
        · rw [hinfo] at hinfo'
          obtain rfl := Option.some.inj hinfo'
          rw [hdci] at hdci'
          exact Option.some.inj hdci' ▸ hlong
        · exact hnone.resolve_left hleft y hy info' hinfo' dci' hdci'

end

/-! ## Passes -/

section
variable {pass pass' : HarqPass}

theorem dlPass_ok {wbCqiRxed : OrderedMap Nat} {infos : List DlHarqInfo}
    (hok : dlPass c wbCqiRxed infos pass = .ok pass') :
    ∃ dl r, dlRetxStart c wbCqiRxed infos pass = .ok dl ∧
      (dlRetx c).rounds infos dl.sortedHarqRetx.length dl = .ok r ∧
      dl.placement = pass.placement ∧ dl.ueInfo = pass.ueInfo ∧ dl.itUeInfo = none ∧
      pass'.ueInfo = r.ueInfo ∧
      pass'.placement =
        if 0 < r.placement.layerIdx then r.placement.closeDlBlock c else r.placement := by
  unfold dlPass at hok
  simp only [bind_eq_ok, pure_eq_ok] at hok
  obtain ⟨f, hf, r, hr, rfl⟩ := hok
  refine ⟨_, r, ?_, hr, rfl, rfl, rfl, rfl, rfl⟩
  unfold dlRetxStart
  rw [hf]
  rfl

theorem ulPass_ok {infos : List UlHarqInfo} (hok : ulPass c infos pass = .ok pass') :
    ∃ ul r, ulRetxStart infos pass = .ok ul ∧
      (ulRetx c).rounds infos (min 1 ul.sortedHarqRetx.length) ul = .ok r ∧
      ul.placement = pass.placement ∧ (pass.ueInfo = [] → ul.itUeInfo = none) ∧
      pass'.placement =
        if 0 < r.placement.layerIdx then r.placement.closeUlBlock c else r.placement := by
  unfold ulPass at hok
  simp only [bind_eq_ok, pure_eq_ok] at hok
  obtain ⟨f, hf, r, hr, rfl⟩ := hok
  refine ⟨_, r, ?_, hr, rfl, ?_, rfl⟩
  · unfold ulRetxStart
    rw [hf]
    rfl
  · intro hnone
    dsimp only
    rw [hnone]
    cases infos.getLast? <;> simp

end

theorem nothingFits_min {Info : Type} {loop : RetxLoop Info} {infos : List Info}
    {r : Retx Info} : loop.NothingFits infos (min 1 r.sortedHarqRetx.length) r ↔
      loop.NothingFits infos 1 r := by
  unfold RetxLoop.NothingFits
  rw [← List.take_eq_take_min]

namespace PaddedHbf

variable {params : SchedTriggerReqParameters} {s : PaddedHbf} {pass : HarqPass}

/-- The two passes of a trigger with HARQ on. -/
theorem scheduleRetx_ok (hharq : c.harqOn = true) (hok : s.scheduleRetx c params = .ok pass) :
    ∃ pass', dlPass c s.wbCqiRxed (s.dlInfos params) (s.passStart c params) = .ok pass' ∧
      ulPass c (s.ulInfos params) pass' = .ok pass := by
  unfold scheduleRetx at hok
  dsimp only at hok
  rw [if_pos hharq] at hok
  exact bind_eq_ok.1 hok

/-- Without HARQ nothing is retransmitted. -/
theorem retxOfTheirUes_of_harqOff (hharq : c.harqOn = false) : s.RetxOfTheirUes c params := by
  intro pass counters hpass hcounters
  unfold scheduleRetx at hpass
  unfold retxCounters at hcounters
  rw [if_neg (by simp [hharq])] at hpass hcounters
  obtain rfl := Except.ok.inj hpass
  obtain rfl := Except.ok.inj hcounters
  exact ⟨fun _ _ hslot => (List.not_mem_nil hslot).elim,
    fun _ hcounter => (List.not_mem_nil hcounter).elim⟩

/-- The slots of the retransmissions have the layers of their DCIs. -/
theorem layerInd_of_scheduleRetx (hok : s.scheduleRetx c params = .ok pass) {layer : Nat}
    {slot : SlotAllocInfo} (hslot : slot ∈ pass.placement.slotsOn layer) :
    slot.layerInd = slot.dci.layerInd := by
  cases hharq : c.harqOn with
  | false =>
      unfold scheduleRetx at hok
      rw [if_neg (by simp [hharq])] at hok
      obtain rfl := Except.ok.inj hok
      exact (List.not_mem_nil hslot).elim
  | true =>
      obtain ⟨pass', hdl, hul⟩ := scheduleRetx_ok hharq hok
      obtain ⟨dl, r, -, hdlRounds, hdlPlacement, -, -, -, hplacement⟩ := dlPass_ok hdl
      obtain ⟨ul, r', -, hulRounds, hulPlacement, -, hpass⟩ := ulPass_ok hul
      have hr := round_dlRetx.agrees_rounds hdlRounds fun layer slot hslot => by
        rw [hdlPlacement] at hslot
        exact (List.not_mem_nil hslot).elim
      have hr' := round_ulRetx.agrees_rounds hulRounds fun layer slot hslot => by
        rw [hulPlacement, hplacement] at hslot
        split at hslot
        · exact hr layer slot hslot
        · exact hr layer slot hslot
      rw [hpass] at hslot
      split at hslot
      · exact hr' layer slot hslot
      · exact hr' layer slot hslot

/-- The retransmissions of a trigger have the right UEs exactly if there are none: no block of a
NACK that is to be sent again fits the empty subframe. -/
theorem retxOfTheirUes_iff (c : PaddedHbfConfig) (params : SchedTriggerReqParameters)
    (s : PaddedHbf) (pass : HarqPass) (hok : s.scheduleRetx c params = .ok pass) :
    s.RetxOfTheirUes c params ↔ s.NoRetxFits c params := by
  cases hharq : c.harqOn with
  | false =>
      refine ⟨fun _ hon => ?_, fun _ => retxOfTheirUes_of_harqOff hharq⟩
      rw [hharq] at hon
      cases hon
  | true =>
      obtain ⟨pass', hdl, hul⟩ := scheduleRetx_ok hharq hok
      obtain ⟨dl, r, hdlStart, hdlRounds, hdlPlacement, hdlUes, hdlIt, hues, hplacement⟩ :=
        dlPass_ok hdl
      obtain ⟨ul, r', hulStart, hulRounds, hulPlacement, hulIt, hpass⟩ := ulPass_ok hul
      have hcounters : s.retxCounters c params = .ok
          ((dlRetx c).counters (s.dlInfos params) dl.sortedHarqRetx.length dl ++
            (ulRetx c).counters (s.ulInfos params) (min 1 ul.sortedHarqRetx.length) ul) := by
        unfold retxCounters
        rw [if_pos hharq, hdlStart, ok_bind, hdl, ok_bind, hulStart, ok_bind]
        rfl
      have hdlEmpty : dl.placement.setUeInCurrentSymbolBlock = [] := by
        rw [hdlPlacement]
        rfl
      -- what the downlink leaves if nothing fits
      have hnothing : (dlRetx c).NothingFits (s.dlInfos params) dl.sortedHarqRetx.length dl →
          pass'.placement = .start c ∧ pass'.ueInfo = [] ∧
            (dlRetx c).counters (s.dlInfos params) dl.sortedHarqRetx.length dl = [] := by
        intro hnone
        obtain ⟨hsame, hsameUes, hcount⟩ :=
          rounds_of_nothingFits hdlEmpty hnone (Nat.le_refl _) hdlRounds
        have hstart : r.placement = .start c := hsame.trans hdlPlacement
        refine ⟨?_, (hues.trans hsameUes).trans hdlUes, hcount⟩
        rw [hplacement, hstart]
        exact if_neg (Nat.lt_irrefl 0)
      constructor
      · intro hright _ dl₀ pass₀ hdl₀ hpass₀
        rw [hdlStart] at hdl₀
        obtain rfl := Except.ok.inj hdl₀
        rw [hdl] at hpass₀
        obtain rfl := Except.ok.inj hpass₀
        obtain ⟨hslots, -⟩ := hright pass _ hok hcounters
        have hkeep : ∀ layer, ∀ a ∈ r'.placement.slotsOn layer,
            a ∈ pass.placement.slotsOn layer := by
          intro layer a ha
          rw [hpass]
          split
          · exact ha
          · exact ha
        have hdlNone : (dlRetx c).NothingFits (s.dlInfos params) dl.sortedHarqRetx.length dl := by
          by_contra hsome
          obtain ⟨layer, slot, hslot, hrnti⟩ :=
            exists_slot_of_fits round_dlRetx hdlEmpty hsome hdlRounds
          have hul' : slot ∈ ul.placement.slotsOn layer := by
            rw [hulPlacement, hplacement]
            split
            · exact hslot
            · exact hslot
          have := (hslots layer slot (hkeep layer slot
            (round_ulRetx.keeps_rounds hulRounds hul'))).1
          rw [hrnti, hdlIt] at this
          cases this
        refine ⟨hdlNone, fun ul₀ hul₀ => ?_⟩
        rw [hulStart] at hul₀
        obtain rfl := Except.ok.inj hul₀
        obtain ⟨hstart, hnoUes, -⟩ := hnothing hdlNone
        by_contra hsome
        obtain ⟨layer, slot, hslot, hrnti⟩ := exists_slot_of_fits round_ulRetx
          (by rw [hulPlacement, hstart]; rfl) (mt nothingFits_min.1 hsome) hulRounds
        have := (hslots layer slot (hkeep layer slot hslot)).1
        rw [hrnti, hulIt hnoUes] at this
        cases this
      · intro hnone pass₀ counters hpass₀ hcounters₀
        rw [hok] at hpass₀
        obtain rfl := Except.ok.inj hpass₀
        rw [hcounters] at hcounters₀
        obtain rfl := Except.ok.inj hcounters₀
        obtain ⟨hdlNone, hulNone⟩ := hnone hharq dl pass' hdlStart hdl
        obtain ⟨hstart, -, hdlCount⟩ := hnothing hdlNone
        obtain ⟨hsame, -, hulCount⟩ := rounds_of_nothingFits
          (by rw [hulPlacement, hstart]; rfl) (nothingFits_min.2 (hulNone ul hulStart))
          (Nat.min_le_right _ _) hulRounds
        rw [hdlCount, hulCount]
        refine ⟨fun layer slot hslot => ?_, fun counter hcounter => ?_⟩
        · have hempty : r'.placement = .start c := hsame.trans (hulPlacement.trans hstart)
          rw [hpass, hempty, if_neg (show ¬0 < (Placement.start c).layerIdx from
            Nat.lt_irrefl 0)] at hslot
          exact (List.not_mem_nil hslot).elim
        · exact (List.not_mem_nil hcounter).elim

/-- Blocks of 100 bytes for each symbol, on one layer. -/
def oneLayer : PaddedHbfConfig where
  phyMac := { numHarqProcess := 2 }
  amc :=
    { getMcsFromCqi := fun cqi => cqi
      getTbSizeFromMcsSymbols := fun _ numSym => 800 * numSym
      getNumSymbolsFromTbsMcs := fun tbSize _ => tbSize / 100
      createCqiFeedbackWbTdma := fun _ _ _ => (5, 10)
      scaleSymbols := fun available requested numSym => numSym * available / requested
      ofNan := 0 }

/-- A UE has sent its first downlink block. -/
def oneBlock : List SchedulerEvent :=
  [.cschedUeConfigReq 1 false false, .schedDlRlcBufferReq ⟨1, 3, 500, 0, 0⟩,
    .schedTriggerReq { sfnSf := {} }]

/-- The block is acknowledged, and nothing is sent again. -/
theorem retxOfTheirUes_of_ack :
    (Run.run (SchedulerRun.step oneLayer) {} oneBlock).scheduler.RetxOfTheirUes oneLayer
      { sfnSf := { sfNum := 1 }, dlHarqInfoList := [⟨1, 0, .ack⟩] } := by
  refine (retxOfTheirUes_iff oneLayer _ _ _ rfl).2 fun _ dl pass hdl hpass => ?_
  obtain rfl := Except.ok.inj hdl
  obtain rfl := Except.ok.inj hpass
  refine ⟨Or.inr fun x hx => (List.not_mem_nil hx).elim, fun ul hul => ?_⟩
  obtain rfl := Except.ok.inj hul
  exact Or.inr fun x hx => (List.not_mem_nil hx).elim

/-- The block is sent again, in a slot whose UE is read at the end of the map. -/
theorem not_retxOfTheirUes_of_nack :
    ∃ s, (Run.run (SchedulerRun.step oneLayer) {} oneBlock).scheduler.refresh oneLayer = .ok s ∧
      ¬s.RetxOfTheirUes oneLayer
        { sfnSf := { sfNum := 1 }, dlHarqInfoList := [⟨1, 0, .nack⟩] } := by
  refine ⟨_, rfl, fun h => ?_⟩
  have hslot := (h _ _ rfl rfl).1 0 _ List.mem_cons_self
  cases hslot.1

end PaddedHbf

end NtnIab.Mmwave
