import NtnIab.Library.Ring
import NtnIab.Mmwave.NewDataTurns
import NtnIab.Mmwave.TriggerHalts

/-!
# The loops over the UEs with new data

Both loops go around the map of the UEs with an iterator, from the UE at which the trigger before
left off. The downlink loop moves on in every turn. The uplink loop does not when the UE has room
for a block but no free process: it then goes on with the same UE, or ends if it is the first one.

## Strategy

* The loops are loops around a ring (`Ring.walk`), with a flag for the UEs that are done, as in the
  source. One lap is a pass over the rotated list (`dlLap`, `ulLap`).
* The uplink loop makes a lap exactly if every UE that has room has a process (`moves_ulTurnAt`).
* Everything else of a trigger ends, so the passes are what decides whether the trigger does.
-/

namespace NtnIab.Mmwave

open Fallible

variable (c : PaddedHbfConfig)

/-! ## The loops -/

namespace NewData

/-- A turn of the downlink loop at an entry of the map. The state has the entries that are done. -/
def dlTurnAt (region : Region) (ueInfo : OrderedMap UeSchedInfo) (it : Nat)
    (s : NewData × List Nat) : Except Fault ((NewData × List Nat) × Bool) :=
  match ueInfo[it]? with
  | none => .error .absent
  | some entry =>
      if it ∈ s.2 then .ok ((s.1, it :: s.2), true)
      else (s.1.dlTurn c region entry).map fun d => ((d, it :: s.2), true)

/-- A UE has uplink data, and there is room for its block in the uplink region. -/
def HasUlRoom (region : Region) (ue : UeSchedInfo) (d : NewData) : Prop :=
  let numSym := min region.symPerBlock ue.maxUlSymbols
  let start := ulStart region d.placement
  0 < ue.maxUlBufSize ∧ 0 < numSym ∧ region.firstUlSymbol ≤ start ∧
    start + numSym ≤ d.placement.lastSymAvail + 1

instance (region : Region) (ue : UeSchedInfo) (d : NewData) : Decidable (HasUlRoom region ue d) :=
  inferInstanceAs (Decidable (0 < ue.maxUlBufSize ∧ 0 < min region.symPerBlock ue.maxUlSymbols ∧
    region.firstUlSymbol ≤ ulStart region d.placement ∧
    ulStart region d.placement + min region.symPerBlock ue.maxUlSymbols ≤
      d.placement.lastSymAvail + 1))

/-- The block of a UE that has room and got a process. -/
def ulBlock (sfnSf : SfnSf) (region : Region) (entry : Nat × UeSchedInfo) (d : NewData) :
    Except Fault NewData :=
  let result := d.ulHarqId c entry.1
  result.2.placeUl c sfnSf region entry.1 entry.2 (min region.symPerBlock entry.2.maxUlSymbols)
    (ulStart region d.placement) result.1

/-- A turn of the uplink loop at an entry of the map. Without a process the entry is not marked as
done, and the iterator does not move. -/
def ulTurnAt (sfnSf : SfnSf) (region : Region) (ueInfo : OrderedMap UeSchedInfo) (it : Nat)
    (s : NewData × List Nat) : Except Fault ((NewData × List Nat) × Bool) :=
  match ueInfo[it]? with
  | none => .error .absent
  | some entry =>
      if it ∉ s.2 ∧ HasUlRoom region entry.2 s.1 then
        if c.phyMac.numHarqProcess ≤ (s.1.ulHarqId c entry.1).1 then
          .ok (((s.1.ulHarqId c entry.1).2, s.2), false)
        else (s.1.ulBlock c sfnSf region entry).map fun d => ((d, it :: s.2), true)
      else .ok ((s.1, it :: s.2), true)

/-- Every UE, when its turn in the uplink pass comes and it has room, has a free process. -/
def UlServed (sfnSf : SfnSf) (region : Region) : OrderedMap UeSchedInfo → NewData → Prop
  | [], _ => True
  | entry :: rest, d =>
      if HasUlRoom region entry.2 d then
        (d.ulHarqId c entry.1).1 < c.phyMac.numHarqProcess ∧
          ∀ d', d.ulBlock c sfnSf region entry = .ok d' → UlServed sfnSf region rest d'
      else UlServed sfnSf region rest d

end NewData

/-- What the loops work on: the entries of the UEs in the order of their RNTIs, the one to begin
with, the regions, and the state before the first turn. -/
structure RoundRobin where
  ueInfo : OrderedMap UeSchedInfo
  itUeInfoStart : Nat
  dlRegion : Region
  ulRegion : Region
  newData : NewData

/-- The loops for the flows of a trigger. -/
def roundRobin (s : PaddedHbf) (pass : HarqPass) (flows : Flows) : RoundRobin :=
  let p := pass.placement
  let ueInfo : OrderedMap UeSchedInfo := flows.ueInfo.map fun entry =>
    (entry.1, (entry.2.demand c).limitIab c p.symAvail)
  let totDlSymReq := (ueInfo.map (·.2.maxDlSymbols)).sum
  let totUlSymReq := (ueInfo.map (·.2.maxUlSymbols)).sum
  let firstUl := firstUlSymbol c p totDlSymReq totUlSymReq
  let perLayer := fun nFlows =>
    (nFlows + c.phyMac.numEnbLayers - 1) / c.phyMac.numEnbLayers % 2 ^ 8
  { ueInfo
    itUeInfoStart :=
      if s.nextRnti ≠ 0 ∧ s.nextRnti ∈ ueInfo.keys then ueInfo.findIdx (·.1 = s.nextRnti) else 0
    dlRegion :=
      { firstUlSymbol := firstUl
        symPerBlock := symPerBlock c (sub32 firstUl p.nextSymAvail % 2 ^ 8) flows.nFlowsDl
        nFlowsPerLayer := perLayer flows.nFlowsDl }
    ulRegion :=
      { firstUlSymbol := firstUl
        symPerBlock := symPerBlock c (sub32 (p.lastSymAvail + 1) firstUl % 2 ^ 8) flows.nFlowsUl
        nFlowsPerLayer := perLayer flows.nFlowsUl }
    newData :=
      { harq := pass.harq
        placement := p
        rlcBufferReq := s.rlcBufferReq
        ceBsrRxed := s.ceBsrRxed
        ulAllocationMap := s.ulAllocationMap
        tbUid := s.tbUid } }

namespace RoundRobin

variable (r : RoundRobin)

/-- The entries in the order of their turns. -/
def order : OrderedMap UeSchedInfo := r.ueInfo.rotate r.itUeInfoStart

/-- The state before the first turn of the uplink. -/
def ulStartOf (d : NewData) : NewData := { d with layerIdx := 0, blockIdx := 0 }

/-- The downlink loop ends with this result. -/
def DlEnds (visits : List Nat) (result : Except Fault (NewData × List Nat)) : Prop :=
  Ring.Ends r.ueInfo.length r.itUeInfoStart (NewData.dlTurnAt c r.dlRegion r.ueInfo)
    (r.newData, []) visits result

/-- Both loops end, have no UE twice, and leave none out unless the simulation is stopped. -/
def LoopsEnd (sfnSf : SfnSf) : Prop :=
  Ring.VisitsOnce r.ueInfo.length r.itUeInfoStart (NewData.dlTurnAt c r.dlRegion r.ueInfo)
    (r.newData, []) ∧
  ∀ visits d done, r.DlEnds c visits (.ok (d, done)) →
    Ring.VisitsOnce r.ueInfo.length r.itUeInfoStart
      (NewData.ulTurnAt c sfnSf r.ulRegion r.ueInfo) (ulStartOf d, [])

/-- There is one UE, or every UE that has room in the uplink when its turn comes has a process. -/
def EveryUeServed (sfnSf : SfnSf) : Prop :=
  r.ueInfo.length = 1 ∨ ∀ d, r.order.foldlM (NewData.dlTurn c r.dlRegion) r.newData = .ok d →
    NewData.UlServed c sfnSf r.ulRegion r.order (ulStartOf d)

end RoundRobin

namespace PaddedHbf

/-- The loops that a trigger comes to, if there is a UE with data. -/
def roundRobin (params : SchedTriggerReqParameters) (s : PaddedHbf) :
    Except Fault (Option RoundRobin) :=
  if 2 ^ 8 ≤ c.phyMac.numEnbLayers then .error .endless
  else do
    let s ← s.refresh c
    let pass ← s.scheduleRetx c params
    let flows ← Flows.collect c s pass
    pure (if flows.ueInfo = [] then none else some (Mmwave.roundRobin c s pass flows))

/-- The trigger ends, and its loops over the UEs end after one turn for each. -/
def TriggerEnds (params : SchedTriggerReqParameters) (s : PaddedHbf) : Prop :=
  Halts (s.schedule c params) ∧
    ∀ r, s.roundRobin c params = .ok (some r) → r.LoopsEnd c params.sfnSf

end PaddedHbf

/-! ## One lap -/

variable {c} {sfnSf : SfnSf} {region : Region} {ueInfo : OrderedMap UeSchedInfo}

theorem rotate_eq (rnti : Nat) (ueInfo : OrderedMap UeSchedInfo) :
    rotate rnti ueInfo = ueInfo.rotate
      (if rnti ≠ 0 ∧ rnti ∈ ueInfo.keys then ueInfo.findIdx (·.1 = rnti) else 0) := by
  unfold rotate
  split_ifs with hknown
  · rw [List.rotate_eq_drop_append_take List.findIdx_le_length, List.dropWhile_eq_drop_findIdx_not,
      List.takeWhile_eq_take_findIdx_not]
    simp
  · rw [List.rotate_zero]

namespace NewData

theorem moves_dlTurnAt (positions : List Nat) (s : NewData × List Nat) :
    Ring.Moves (dlTurnAt c region ueInfo) positions s := by
  refine Ring.moves_of_forall (fun it s s' moves hturn => ?_) positions s
  unfold dlTurnAt at hturn
  split at hturn
  · cases hturn
  · split at hturn
    · exact (Prod.mk.inj (Except.ok.inj hturn)).2.symm
    · obtain ⟨d, -, heq⟩ := map_eq_ok.1 hturn
      exact (Prod.mk.inj heq).2.symm

/-- The turns of the downlink loop at positions that are not done are those of the pass. -/
theorem follow_dlTurnAt {positions : List Nat} {entries : OrderedMap UeSchedInfo}
    (hentries : positions.map (ueInfo[·]?) = entries.map some) (hnodup : positions.Nodup)
    {d : NewData} {done : List Nat} (hdone : ∀ it ∈ positions, it ∉ done) :
    (Ring.follow (dlTurnAt c region ueInfo) positions (d, done)).map (·.1) =
      entries.foldlM (dlTurn c region) d := by
  induction positions generalizing entries d done with
  | nil =>
      obtain rfl : entries = [] := by simpa using hentries.symm
      rfl
  | cons it rest ih =>
      obtain - | ⟨entry, entries⟩ := entries
      · cases hentries
      obtain ⟨hit, hrest⟩ := List.cons.inj hentries
      rw [List.nodup_cons] at hnodup
      rw [List.forall_mem_cons] at hdone
      unfold Ring.follow at ih ⊢
      rw [List.foldlM_cons, List.foldlM_cons, map_bind]
      unfold dlTurnAt
      dsimp only at hit
      rw [hit]
      dsimp only
      rw [if_neg hdone.1]
      cases hturn : dlTurn c region d entry with
      | error fault => rfl
      | ok d' =>
          refine ih hrest hnodup.2 fun other hother => ?_
          rintro hmem
          rcases List.mem_cons.1 hmem with rfl | hold
          · exact hnodup.1 hother
          · exact hdone.2 other hother hold

/-- The uplink loop moves on in every turn exactly if every UE that has room has a process. -/
theorem moves_ulTurnAt {positions : List Nat} {entries : OrderedMap UeSchedInfo}
    (hentries : positions.map (ueInfo[·]?) = entries.map some) (hnodup : positions.Nodup)
    {d : NewData} {done : List Nat} (hdone : ∀ it ∈ positions, it ∉ done) :
    Ring.Moves (ulTurnAt c sfnSf region ueInfo) positions (d, done) ↔
      UlServed c sfnSf region entries d := by
  induction positions generalizing entries d done with
  | nil =>
      obtain rfl : entries = [] := by simpa using hentries.symm
      exact Iff.rfl
  | cons it rest ih =>
      obtain - | ⟨entry, entries⟩ := entries
      · cases hentries
      obtain ⟨hit, hrest⟩ := List.cons.inj hentries
      rw [List.nodup_cons] at hnodup
      rw [List.forall_mem_cons] at hdone
      have hdone' : ∀ other ∈ rest, other ∉ it :: done := by
        intro other hother hmem
        rcases List.mem_cons.1 hmem with rfl | hold
        · exact hnodup.1 hother
        · exact hdone.2 other hother hold
      unfold Ring.Moves UlServed
      unfold ulTurnAt
      dsimp only at hit
      rw [hit]
      dsimp only
      by_cases hroom : HasUlRoom region entry.2 d
      · rw [if_pos ⟨hdone.1, hroom⟩, if_pos hroom]
        by_cases hnone : c.phyMac.numHarqProcess ≤ (d.ulHarqId c entry.1).1
        · rw [if_pos hnone]
          constructor
          · intro hmoves
            cases (hmoves _ _ rfl).1
          · intro hserved
            exact absurd hserved.1 (Nat.not_lt.2 hnone)
        · rw [if_neg hnone]
          constructor
          · intro hmoves
            refine ⟨Nat.lt_of_not_le hnone, fun d' hd' => (ih hrest hnodup.2 hdone').1 ?_⟩
            exact (hmoves (d', it :: done) true (by rw [hd']; rfl)).2
          · rintro ⟨-, hserved⟩ s' moves hturn
            obtain ⟨d', hd', heq⟩ := map_eq_ok.1 hturn
            obtain ⟨rfl, rfl⟩ := Prod.mk.inj heq
            exact ⟨rfl, (ih hrest hnodup.2 hdone').2 (hserved d' hd')⟩
      · rw [if_neg (fun h => hroom h.2), if_neg hroom]
        constructor
        · intro hmoves
          exact (ih hrest hnodup.2 hdone').1 (hmoves _ _ rfl).2
        · intro hserved s' moves hturn
          obtain ⟨rfl, rfl⟩ := Prod.mk.inj (Except.ok.inj hturn)
          exact ⟨rfl, (ih hrest hnodup.2 hdone').2 hserved⟩

section
variable {entry : Nat × UeSchedInfo} {rest : OrderedMap UeSchedInfo} {d : NewData} {first : Bool}

theorem ulTurns_room (hroom : HasUlRoom region entry.2 d) :
    ulTurns c sfnSf region first (entry :: rest) d =
      if c.phyMac.numHarqProcess ≤ (d.ulHarqId c entry.1).1 then
        if first then pure (d.ulHarqId c entry.1).2 else .error .endless
      else d.ulBlock c sfnSf region entry >>= ulTurns c sfnSf region false rest := by
  rw [ulTurns]
  exact if_pos hroom

theorem ulTurns_noRoom (hroom : ¬HasUlRoom region entry.2 d) :
    ulTurns c sfnSf region first (entry :: rest) d = ulTurns c sfnSf region false rest d := by
  rw [ulTurns]
  exact if_neg hroom

end

/-- If every UE that has room has a process, the turns of the uplink loop are those of the pass. -/
theorem follow_ulTurnAt {positions : List Nat} {entries : OrderedMap UeSchedInfo}
    (hentries : positions.map (ueInfo[·]?) = entries.map some) (hnodup : positions.Nodup)
    {d : NewData} {done : List Nat} (hdone : ∀ it ∈ positions, it ∉ done) (first : Bool)
    (hserved : UlServed c sfnSf region entries d) :
    (Ring.follow (ulTurnAt c sfnSf region ueInfo) positions (d, done)).map (·.1) =
      ulTurns c sfnSf region first entries d := by
  induction positions generalizing entries d done first with
  | nil =>
      obtain rfl : entries = [] := by simpa using hentries.symm
      rfl
  | cons it rest ih =>
      obtain - | ⟨entry, entries⟩ := entries
      · cases hentries
      obtain ⟨hit, hrest⟩ := List.cons.inj hentries
      rw [List.nodup_cons] at hnodup
      rw [List.forall_mem_cons] at hdone
      have hdone' : ∀ other ∈ rest, other ∉ it :: done := by
        intro other hother hmem
        rcases List.mem_cons.1 hmem with rfl | hold
        · exact hnodup.1 hother
        · exact hdone.2 other hother hold
      unfold Ring.follow at ih ⊢
      unfold UlServed at hserved
      rw [List.foldlM_cons, map_bind]
      dsimp only at hit
      by_cases hroom : HasUlRoom region entry.2 d
      · rw [if_pos hroom] at hserved
        have hturn : ulTurnAt c sfnSf region ueInfo it (d, done) =
            (d.ulBlock c sfnSf region entry).map fun d => ((d, it :: done), true) := by
          unfold ulTurnAt
          rw [hit]
          dsimp only
          rw [if_pos ⟨hdone.1, hroom⟩, if_neg (Nat.not_le.2 hserved.1)]
        rw [hturn, ulTurns_room hroom, if_neg (Nat.not_le.2 hserved.1)]
        cases hblock : ulBlock c sfnSf region entry d with
        | error fault => rfl
        | ok d' => exact ih hrest hnodup.2 hdone' false (hserved.2 d' hblock)
      · rw [if_neg hroom] at hserved
        have hturn : ulTurnAt c sfnSf region ueInfo it (d, done) =
            .ok ((d, it :: done), true) := by
          unfold ulTurnAt
          rw [hit]
          dsimp only
          rw [if_neg fun h => hroom h.2]
        rw [hturn, ulTurns_noRoom hroom]
        exact ih hrest hnodup.2 hdone' false hserved

/-- A UE without a process ends the pass, or the pass does not end. -/
theorem ulTurns_halts_iff {entries : OrderedMap UeSchedInfo} {d : NewData} :
    Halts (ulTurns c sfnSf region false entries d) ↔ UlServed c sfnSf region entries d := by
  induction entries generalizing d with
  | nil => exact ⟨fun _ => trivial, fun _ => halts_pure d⟩
  | cons entry rest ih =>
      unfold UlServed
      by_cases hroom : HasUlRoom region entry.2 d
      · rw [ulTurns_room hroom, if_pos hroom]
        by_cases hnone : c.phyMac.numHarqProcess ≤ (d.ulHarqId c entry.1).1
        · rw [if_pos hnone, if_neg Bool.false_ne_true]
          exact ⟨fun h => absurd rfl h, fun h => absurd h.1 (Nat.not_lt.2 hnone)⟩
        · rw [if_neg hnone]
          constructor
          · refine fun h => ⟨Nat.lt_of_not_le hnone, fun d' hd' => ih.1 ?_⟩
            rwa [hd'] at h
          · rintro ⟨-, hserved⟩
            exact halts_placeUl.bind fun d' hd' => ih.2 (hserved d' hd')
      · rw [ulTurns_noRoom hroom, if_neg hroom]
        exact ih

theorem halts_of_ulServed {entries : OrderedMap UeSchedInfo} {d : NewData} (first : Bool)
    (hserved : UlServed c sfnSf region entries d) :
    Halts (ulTurns c sfnSf region first entries d) := by
  cases first with
  | false => exact ulTurns_halts_iff.2 hserved
  | true =>
      rcases entries with - | ⟨entry, rest⟩
      · exact halts_pure d
      · unfold UlServed at hserved
        by_cases hroom : HasUlRoom region entry.2 d
        · rw [if_pos hroom] at hserved
          rw [ulTurns_room hroom, if_neg (Nat.not_le.2 hserved.1)]
          exact halts_placeUl.bind fun d' hd' => ulTurns_halts_iff.2 (hserved.2 d' hd')
        · rw [if_neg hroom] at hserved
          rw [ulTurns_noRoom hroom]
          exact ulTurns_halts_iff.2 hserved

/-- The pass over one UE ends. -/
theorem halts_ulTurns_one (entry : Nat × UeSchedInfo) (d : NewData) :
    Halts (ulTurns c sfnSf region true [entry] d) := by
  by_cases hroom : HasUlRoom region entry.2 d
  · rw [ulTurns_room hroom, if_pos rfl]
    split
    · exact halts_pure _
    · exact halts_placeUl.bind fun d' _ => halts_pure d'
  · rw [ulTurns_noRoom hroom]
    exact halts_pure d

end NewData

/-! ## The loops of a trigger -/

namespace RoundRobin

variable {r : RoundRobin}

theorem map_lap_order : (Ring.lap r.ueInfo.length r.itUeInfoStart).map (r.ueInfo[·]?) =
    r.order.map some := Ring.map_lap r.ueInfo r.itUeInfoStart

/-- The downlink loop makes a lap, which is the pass over the UEs in turn. -/
theorem dlEnds_iff (hstart : r.itUeInfoStart < r.ueInfo.length) {d : NewData} :
    (∃ visits done, r.DlEnds c visits (.ok (d, done))) ↔
      r.order.foldlM (NewData.dlTurn c r.dlRegion) r.newData = .ok d := by
  have hmoves : Ring.Moves (NewData.dlTurnAt c r.dlRegion r.ueInfo)
      (Ring.lap r.ueInfo.length r.itUeInfoStart) (r.newData, []) := NewData.moves_dlTurnAt _ _
  obtain ⟨visits, hends, -, -⟩ := Ring.ends_of_moves hstart hmoves
  have hfollow : (Ring.follow (NewData.dlTurnAt c r.dlRegion r.ueInfo)
      (Ring.lap r.ueInfo.length r.itUeInfoStart) (r.newData, [])).map (·.1) =
      r.order.foldlM (NewData.dlTurn c r.dlRegion) r.newData :=
    NewData.follow_dlTurnAt map_lap_order Ring.nodup_lap fun _ _ => List.not_mem_nil
  rw [← hfollow, map_eq_ok]
  constructor
  · rintro ⟨visits', done, hends'⟩
    exact ⟨(d, done), (hends.unique hends').2.symm, rfl⟩
  · rintro ⟨⟨d', done⟩, hresult, rfl⟩
    refine ⟨visits, done, ?_⟩
    rw [hresult] at hends
    exact hends

theorem loopsEnd_iff (hstart : r.itUeInfoStart < r.ueInfo.length) :
    r.LoopsEnd c sfnSf ↔ r.EveryUeServed c sfnSf := by
  have hdl : Ring.VisitsOnce r.ueInfo.length r.itUeInfoStart
      (NewData.dlTurnAt c r.dlRegion r.ueInfo) (r.newData, []) :=
    (Ring.visitsOnce_iff hstart).2 (Or.inr (NewData.moves_dlTurnAt _ _))
  have hul : ∀ d, Ring.VisitsOnce r.ueInfo.length r.itUeInfoStart
      (NewData.ulTurnAt c sfnSf r.ulRegion r.ueInfo) (d, []) ↔
        r.ueInfo.length = 1 ∨ NewData.UlServed c sfnSf r.ulRegion r.order d := by
    intro d
    rw [Ring.visitsOnce_iff hstart, NewData.moves_ulTurnAt map_lap_order Ring.nodup_lap
      fun _ _ => List.not_mem_nil]
  unfold LoopsEnd EveryUeServed
  simp only [hul]
  constructor
  · rintro ⟨-, hloops⟩
    by_cases hone : r.ueInfo.length = 1
    · exact Or.inl hone
    · refine Or.inr fun d hd => ?_
      obtain ⟨visits, done, hends⟩ := (dlEnds_iff hstart).2 hd
      exact (hloops visits d done hends).resolve_left hone
  · rintro (hone | hserved)
    · exact ⟨hdl, fun _ _ _ _ => Or.inl hone⟩
    · exact ⟨hdl, fun visits d done hends =>
        Or.inr (hserved d ((dlEnds_iff hstart).1 ⟨visits, done, hends⟩))⟩

/-- The passes of a trigger whose UEs are served end. -/
theorem EveryUeServed.halts (h : r.EveryUeServed c sfnSf) {d : NewData}
    (hd : r.order.foldlM (NewData.dlTurn c r.dlRegion) r.newData = .ok d) :
    Halts (NewData.ulTurns c sfnSf r.ulRegion true r.order (ulStartOf d)) := by
  rcases h with hone | hserved
  · have hlength : r.order.length = 1 := by
      unfold order
      rw [List.length_rotate, hone]
    obtain ⟨entry, hentry⟩ := List.length_eq_one_iff.1 hlength
    rw [hentry]
    exact NewData.halts_ulTurns_one entry _
  · exact NewData.halts_of_ulServed true (hserved d hd)

end RoundRobin

theorem roundRobin_start_lt {s : PaddedHbf} {pass : HarqPass} {flows : Flows}
    (hflows : flows.ueInfo ≠ []) :
    (roundRobin c s pass flows).itUeInfoStart < (roundRobin c s pass flows).ueInfo.length := by
  unfold roundRobin
  dsimp only
  split_ifs with hknown
  · obtain ⟨entry, hentry, hrnti⟩ := List.mem_map.1 hknown.2
    exact List.findIdx_lt_length_of_exists ⟨entry, hentry, by simpa using hrnti⟩
  · rw [List.length_map]
    exact List.length_pos_of_ne_nil hflows

/-- The new data is scheduled by one lap in each direction. -/
theorem scheduleNewData_eq (sfnSf : SfnSf) {s : PaddedHbf} {pass : HarqPass} {flows : Flows}
    (hcollect : Flows.collect c s pass = .ok flows) (hflows : flows.ueInfo ≠ []) :
    ∃ finish : NewData → PaddedHbf × Placement, scheduleNewData c sfnSf s pass =
      (do
        let r := roundRobin c s pass flows
        let d ← r.order.foldlM (NewData.dlTurn c r.dlRegion) r.newData
        let d ← NewData.ulTurns c sfnSf r.ulRegion true r.order (RoundRobin.ulStartOf d)
        pure (finish d)) := by
  unfold scheduleNewData
  rw [hcollect, ok_bind]
  dsimp only
  rw [if_neg hflows, rotate_eq]
  exact ⟨_, rfl⟩

namespace PaddedHbf

theorem roundRobin_start {params : SchedTriggerReqParameters} {s : PaddedHbf} {r : RoundRobin}
    (hr : s.roundRobin c params = .ok (some r)) : r.itUeInfoStart < r.ueInfo.length := by
  unfold roundRobin at hr
  split at hr
  · cases hr
  simp only [bind_eq_ok, pure_eq_ok] at hr
  obtain ⟨s', -, pass, -, flows, -, hr⟩ := hr
  split at hr
  · cases hr
  · rename_i hflows
    obtain rfl := Option.some.inj hr
    exact roundRobin_start_lt hflows

/-- A trigger ends, with one turn for each UE in both loops, exactly if its UEs are served. -/
theorem triggerEnds_iff (c : PaddedHbfConfig) (params : SchedTriggerReqParameters)
    (s : PaddedHbf) :
    s.TriggerEnds c params ↔ c.phyMac.numEnbLayers < 2 ^ 8 ∧
      ∀ r, s.roundRobin c params = .ok (some r) → r.EveryUeServed c params.sfnSf := by
  have hloops : (∀ r, s.roundRobin c params = .ok (some r) → r.LoopsEnd c params.sfnSf) ↔
      ∀ r, s.roundRobin c params = .ok (some r) → r.EveryUeServed c params.sfnSf := by
    constructor
    · exact fun h r hr => (RoundRobin.loopsEnd_iff (roundRobin_start hr)).1 (h r hr)
    · exact fun h r hr => (RoundRobin.loopsEnd_iff (roundRobin_start hr)).2 (h r hr)
  unfold TriggerEnds
  rw [hloops]
  constructor
  · rintro ⟨hhalts, hserved⟩
    refine ⟨Nat.lt_of_not_le fun hmany => hhalts ?_, hserved⟩
    unfold schedule
    exact if_pos hmany
  · rintro ⟨hfew, hserved⟩
    refine ⟨?_, hserved⟩
    unfold roundRobin at hserved
    rw [if_neg (Nat.not_le.2 hfew)] at hserved
    unfold schedule
    rw [if_neg (Nat.not_le.2 hfew)]
    refine (halts_refresh s).bind fun s' hs' => ?_
    refine (halts_scheduleRetx params s').bind fun pass hpass => ?_
    rw [hs', ok_bind, hpass, ok_bind] at hserved
    cases hcollect : Flows.collect c s' pass with
    | error fault =>
        unfold scheduleNewData
        refine (Flows.halts_collect s' pass).bind fun flows hflows => ?_
        rw [hcollect] at hflows
        cases hflows
    | ok flows =>
        rw [hcollect, ok_bind] at hserved
        by_cases hflows : flows.ueInfo = []
        · unfold scheduleNewData
          rw [hcollect, ok_bind]
          dsimp only
          rw [if_pos hflows]
          exact halts_pure _
        · rw [if_neg hflows] at hserved
          obtain ⟨finish, hpasses⟩ := scheduleNewData_eq params.sfnSf hcollect hflows
          rw [hpasses]
          refine (halts_foldlM (fun d entry => NewData.halts_dlTurn entry) _ _).bind fun d hd => ?_
          exact ((hserved _ rfl).halts hd).bind fun _ _ => halts_pure _

/-- Blocks of 100 bytes for each symbol. -/
def twoProcesses : PaddedHbfConfig where
  phyMac := { numHarqProcess := 2 }
  amc :=
    { getMcsFromCqi := fun cqi => cqi
      getTbSizeFromMcsSymbols := fun _ numSym => 800 * numSym
      getNumSymbolsFromTbsMcs := fun tbSize _ => tbSize / 100
      createCqiFeedbackWbTdma := fun _ _ _ => (5, 10)
      scaleSymbols := fun available requested numSym => numSym * available / requested
      ofNan := 0 }

/-- A UE and one that has left report uplink data. The pass over them does not end. -/
theorem not_triggerEnds_of_lost_ue :
    ¬(Run.run (SchedulerRun.step twoProcesses) {}
        [.cschedUeConfigReq 1 false false, .cschedUeConfigReq 2 false false,
          .cschedUeReleaseReq 2,
          .schedUlMacCtrlInfoReq [(1, [30, 0, 0, 0]), (2, [30, 0, 0, 0])]]).scheduler.TriggerEnds
      twoProcesses { sfnSf := {} } :=
  fun h => h.1 rfl

end PaddedHbf

end NtnIab.Mmwave
