import Mathlib.Algebra.Order.Field.Basic
import NtnIab.Mmwave.CleanStart
import NtnIab.Mmwave.EvenTurns
import NtnIab.Mmwave.PfRecords

/-!
# What the proportional fair scheduler knows of the past

Of two UEs with the same rate the one should come first that got less in the past, in the downlink
and the uplink together. The comparison takes the average of the downlink twice, and at the end of a
trigger the averages are reset. So at the first sort of a trigger the past counts for nothing, and
at the later ones what counts is the downlink of this subframe.

## Strategy

`History` adds to a run what a scheduler with a memory would know: the throughput of every flow,
smoothed over the subframes. `Fair` says of one sort that the past decides between `Rivals`, and
`Ordered` that the averages of the scheduler do (`fair_iff_ordered`). Between the triggers all
averages are zero (`rested_historyOf`), so that they decide nothing at a first sort.
-/

namespace NtnIab.Mmwave

namespace FlexTtiPf

open Fallible

variable (c : FlexTtiConfig)

/-! ## The past -/

/-- An average after a subframe with a block of `tbSize` bytes. -/
def smoothed (last : ℚ) (tbSize : Nat) : ℚ :=
  (1 - 1 / c.timeWindow) * last + 1 / c.timeWindow * (tbSize / (c.subframePeriod / 10 ^ 6))

/-- The division of a trigger before its first round, if there is one. -/
def beginDivision (params : SchedTriggerReqParameters) (s : FlexTtiPf) :
    Except Failure (Option Division) := do
  let answered ← s.answer c params
  match answered with
  | .inr _ => pure none
  | .inl a =>
      let symAvail := a.pass.subframe.symAvail
      if symAvail = 0 then pure none
      else
        let collected ← collect c a.scheduler a.pass.ues
        let limited ← collected.ueSchedInfoMap.traverse fun rnti ue =>
          blame (.ue rnti) (ue.limitIab symAvail)
        pure (some {
          symAvail := symAvail.toNat
          ueStatHeap := collected.ueStatHeap
          ueSchedInfoMap := limited })

/-- The block of a flow at the end of a division, if there is one. -/
def blockOf (begun : Option Division) (flow : Flow) : Nat :=
  match begun with
  | none => 0
  | some d =>
      match (d.run c).ueSchedInfoMap.find flow.1 with
      | none => 0
      | some ue => (ue.direction flow.2).tbSize

/-- A run, and the throughput of every flow in it, smoothed over all subframes. -/
structure History where
  run : TdmaRun FlexTtiPf
  past : Flow → ℚ := fun _ => 0

/-- A trigger begins a subframe. -/
def History.step (h : History) (event : FlexTtiPfEvent) : History where
  run := TdmaRun.step (handle c) h.run event
  past :=
    match event with
    | .schedTriggerReq params =>
        match h.run.failure, beginDivision c params h.run.scheduler with
        | none, .ok begun => fun flow => smoothed c (h.past flow) (blockOf c begun flow)
        | _, _ => h.past
    | _ => h.past

def historyOf (events : List FlexTtiPfEvent) : History :=
  Run.run (History.step c) { run := { scheduler := start c } } events

/-! ## What is claimed -/

/-- The average of a UE over the past and this subframe, in both directions. -/
def average (past : Flow → ℚ) (rnti : Nat) (ue : UeSchedInfo) : ℚ :=
  smoothed c (past (rnti, .dl)) ue.dl.tbSize + smoothed c (past (rnti, .ul)) ue.ul.tbSize

/-- What a UE would get now. -/
def UeSchedInfo.rate (ue : UeSchedInfo) : ℚ := max ue.dl.currTput ue.ul.currTput

/-- A UE of the working list that can use a symbol. -/
structure Asks (d : Division) (rnti : Nat) (ue : UeSchedInfo) : Prop where
  mem : rnti ∈ d.ueStatHeap
  find : d.ueSchedInfoMap.find rnti = some ue
  asks : ue.markDone.nextTurn ≠ none

/-- Two UEs that can use a symbol and have the same rate. The first one got less in the past. -/
structure Rivals (past : Flow → ℚ) (d : Division) (poor rich : Nat × UeSchedInfo) : Prop where
  poorAsks : Asks d poor.1 poor.2
  richAsks : Asks d rich.1 rich.2
  rate : poor.2.rate = rich.2.rate
  less : average c past poor.1 poor.2 < average c past rich.1 rich.2

/-- A sort puts the UE that got less before the other one, and the other one does not get the
symbol. This is so in whatever order the sort leaves UEs that compare as equal. -/
def Fair (past : Flow → ℚ) (d : Division) : Prop :=
  ∀ poor rich, Rivals c past d poor rich → ∀ sort : StdSort Nat,
    let sorted := sort.sort (compareUeWeightsPf d.ueSchedInfoMap) d.ueStatHeap
    ¬ [rich.1, poor.1].Sublist sorted ∧
      ∀ mode, (walk c sorted d.ueSchedInfoMap).1 ≠ some (rich.1, mode)

/-- The averages of the downlink, as they are in the records, put the UE that got less first: they
are in the same order, and the larger one is not below the least one that the comparison knows. -/
def Ordered (past : Flow → ℚ) (d : Division) : Prop :=
  ∀ poor rich, Rivals c past d poor rich → 0 < rich.2.rate ∧
    poor.2.dl.avgTput < rich.2.dl.avgTput ∧ 1 / 10 ^ 9 < rich.2.dl.avgTput + rich.2.dl.avgTput

/-- The division of a trigger after `k` rounds, before a sort. -/
def SortsAt (params : SchedTriggerReqParameters) (s : FlexTtiPf) (k : Nat) (d : Division) : Prop :=
  ∃ begun, beginDivision c params s = .ok (some begun) ∧ k < begun.symAvail ∧
    d = begun.rounds c k

/-- Every sort of a run meets a condition on the past and the state before it. -/
def EverySort (P : (Flow → ℚ) → Division → Prop) (events : List FlexTtiPfEvent) : Prop :=
  ∀ earlier, earlier <+: events → (historyOf c earlier).run.failure = none →
    ∀ params k d, SortsAt c params (historyOf c earlier).run.scheduler k d →
      P (historyOf c earlier).past d

/-! ## One sort -/

variable {c}

theorem strictWeak_compareUeWeightsPf (ues : OrderedMap UeSchedInfo) :
    StrictWeak (compareUeWeightsPf ues) where
  asymm := by
    intro a b hlt
    unfold compareUeWeightsPf at hlt ⊢
    rw [decide_eq_true_eq] at hlt
    exact decide_eq_false (not_lt.2 hlt.le)
  trans := by
    intro a b d hab hbd
    unfold compareUeWeightsPf at hab hbd ⊢
    rw [decide_eq_false_iff_not, not_lt] at hab hbd ⊢
    exact hbd.trans hab

section

variable {past : Flow → ℚ} {d : Division} {poor rich : Nat × UeSchedInfo}

theorem Rivals.ne (h : Rivals c past d poor rich) : poor.1 ≠ rich.1 := by
  intro heq
  have hsame : poor.2 = rich.2 := by
    have hpoor := h.poorAsks.find
    rw [heq, h.richAsks.find] at hpoor
    exact (Option.some.inj hpoor).symm
  have hless := h.less
  rw [heq, hsame] at hless
  exact lt_irrefl _ hless

/-- The comparison puts the poorer one first exactly if the averages of the downlink do. -/
theorem Rivals.compare_iff (h : Rivals c past d poor rich) (hrate : 0 ≤ rich.2.rate) :
    compareUeWeightsPf d.ueSchedInfoMap poor.1 rich.1 = true ↔
      0 < rich.2.rate ∧ poor.2.dl.avgTput < rich.2.dl.avgTput ∧
        1 / 10 ^ 9 < rich.2.dl.avgTput + rich.2.dl.avgTput := by
  have hcompare : compareUeWeightsPf d.ueSchedInfoMap poor.1 rich.1 = true ↔
      rich.2.rate / max (1 / 10 ^ 9) (rich.2.dl.avgTput + rich.2.dl.avgTput) <
        rich.2.rate / max (1 / 10 ^ 9) (poor.2.dl.avgTput + poor.2.dl.avgTput) := by
    unfold compareUeWeightsPf
    rw [h.poorAsks.find, h.richAsks.find, decide_eq_true_eq]
    have hrate := h.rate
    unfold UeSchedInfo.rate at hrate
    unfold UeSchedInfo.rate UeSchedInfo.pfMetric
    rw [Option.getD_some, Option.getD_some, hrate]
  have hpos : ∀ x : ℚ, 0 < max (1 / 10 ^ 9) x := fun x => lt_max_of_lt_left (by norm_num)
  rw [hcompare]
  rcases hrate.eq_or_lt with hzero | hrate
  · rw [← hzero]
    simp
  · rw [div_lt_div_iff_of_pos_left hrate (hpos _) (hpos _), max_lt_max_right_iff]
    constructor
    · rintro ⟨hlt, hleast⟩
      exact ⟨hrate, by linarith, hleast⟩
    · rintro ⟨-, hlt, hleast⟩
      exact ⟨by linarith, hleast⟩

/-- A UE that can use a symbol and comes first keeps the symbol from one that comes later. -/
theorem walk_ne_of_first {list : List Nat} {ues : OrderedMap UeSchedInfo} {first later : Nat}
    (hmem : first ∈ list) (hasks : ((ues.find first).getD {}).markDone.nextTurn ≠ none)
    (hne : first ≠ later) (hfirst : ¬ [later, first].Sublist list) (mode : TddMode) :
    (walk c list ues).1 ≠ some (later, mode) := by
  induction list generalizing ues with
  | nil => cases hmem
  | cons head rest ih =>
      unfold walk
      dsimp only
      cases hnext : ((ues.find head).getD {}).markDone.nextTurn with
      | some turn =>
          intro heq
          obtain ⟨rfl, -⟩ := Prod.mk.inj (Option.some.inj heq)
          -- the head is the later one, so the first one comes behind it
          have hrest := (List.mem_cons.1 hmem).resolve_left hne
          exact hfirst (List.Sublist.cons_cons _ (List.singleton_sublist.2 hrest))
      | none =>
          have hhead : first ≠ head := by
            intro heq
            rw [heq] at hasks
            exact hasks hnext
          refine ih ((List.mem_cons.1 hmem).resolve_left hhead) ?_
            fun hsub => hfirst (hsub.cons head)
          rw [getD_find_adjust_markDone]
          exact hasks

/-- The past decides at a sort exactly if the averages of the downlink do. -/
theorem fair_iff_ordered
    (hrates : ∀ rnti ue, d.ueSchedInfoMap.find rnti = some ue → 0 ≤ ue.rate) :
    Fair c past d ↔ Ordered c past d := by
  refine forall_congr' fun poor => forall_congr' fun rich => forall_congr' fun hrivals => ?_
  have hmem := hrivals.poorAsks.mem
  rw [← hrivals.compare_iff (hrates _ _ hrivals.richAsks.find),
    ← StdSort.forall_not_sublist_sort_iff (strictWeak_compareUeWeightsPf _) hmem
      hrivals.richAsks.mem hrivals.ne]
  refine forall_congr' fun sort => and_iff_left_of_imp fun hfirst => ?_
  refine walk_ne_of_first ((sort.perm _ _).mem_iff.2 hmem) ?_ hrivals.ne hfirst
  rw [hrivals.poorAsks.find]
  exact hrivals.poorAsks.asks

end

/-! ## Records between the triggers -/

/-- Nothing waits for a UE, and its rates and averages are zero. -/
def UeSchedInfo.Rested (ue : UeSchedInfo) : Prop :=
  ∀ mode, (ue.direction mode).totBuf = 0 ∧ (ue.direction mode).avgTput = 0 ∧
    (ue.direction mode).currTput = 0

/-- The averages of a UE are zero, and its rates are none below it. -/
def UeSchedInfo.Blank (ue : UeSchedInfo) : Prop :=
  ∀ mode, (ue.direction mode).avgTput = 0 ∧ 0 ≤ (ue.direction mode).currTput

theorem UeSchedInfo.Rested.blank {ue : UeSchedInfo} (hue : ue.Rested) : ue.Blank :=
  fun mode => ⟨(hue mode).2.1, (hue mode).2.2.ge⟩

theorem UeSchedInfo.rested_reset (ue : UeSchedInfo) : ue.reset.Rested := by
  intro mode
  cases mode with
  | dl => exact ⟨rfl, rfl, rfl⟩
  | ul => exact ⟨rfl, rfl, rfl⟩

theorem steady_rested : Steady fun _ ue => ue.Rested where
  new := fun _ mode => by cases mode <;> exact ⟨rfl, rfl, rfl⟩
  flows := fun _ _ _ _ hue mode => by
    cases mode with
    | dl => exact hue .dl
    | ul => exact hue .ul
  retx := fun _ _ _ _ hue mode => by
    cases mode with
    | dl => exact hue .dl
    | ul => exact hue .ul

theorem UeSchedInfo.Rested.markDone {ue : UeSchedInfo} (hue : ue.Rested) :
    ue.markDone.Rested := by
  intro mode
  rw [UeSchedInfo.direction_markDone]
  unfold Direction.markDone
  split
  · exact hue mode
  · exact hue mode

theorem throughput_nonneg (hperiod : 0 ≤ c.subframePeriod) (totBuf mcs symbols : Nat) :
    0 ≤ throughput c totBuf mcs symbols := by
  unfold throughput
  positivity

section

variable {s : PaddedHbf} {rnti : Nat} {ue : UeSchedInfo} {isIab : Bool}

variable (s rnti isIab) in
theorem collectDl_blank (hperiod : 0 ≤ c.subframePeriod) (hue : ue.Rested) :
    (collectDl c s isIab rnti ue).1.Blank := by
  obtain ⟨hzero, havg, hcurr⟩ := hue .dl
  obtain ⟨iab, hflows⟩ := foldl_addFlow_eq isIab
    { ue with dl.mcs := c.amc.getMcsFromCqi ((s.wbCqiRxed.find rnti).getD 1) % 2 ^ 8 }
    ue.dl.flowStats (by rw [show ue.dl.totBuf = 0 from hzero]; decide)
  unfold collectDl
  dsimp only
  split_ifs
  · exact hue.blank
  · rw [hflows]
    intro mode
    cases mode with
    | dl => exact ⟨havg, hcurr.ge⟩
    | ul => exact hue.blank .ul
  · rw [hflows]
    intro mode
    cases mode with
    | dl => exact ⟨havg, throughput_nonneg hperiod _ _ _⟩
    | ul => exact hue.blank .ul

theorem collectUl_blank (hperiod : 0 ≤ c.subframePeriod) {result : UeSchedInfo × Bool}
    (hblank : ue.Blank) (hok : collectUl c s isIab rnti ue = .ok result) : result.1.Blank := by
  unfold collectUl at hok
  obtain ⟨cqi, -, hok⟩ := bind_eq_ok.1 hok
  split_ifs at hok
  · obtain rfl := pure_eq_ok.1 hok
    exact hblank
  · dsimp only at hok
    split_ifs at hok
    · obtain rfl := pure_eq_ok.1 hok
      intro mode
      cases mode with
      | dl => exact hblank .dl
      | ul => exact hblank .ul
    · obtain rfl := pure_eq_ok.1 hok
      intro mode
      cases mode with
      | dl => exact hblank .dl
      | ul => exact ⟨(hblank .ul).1, throughput_nonneg hperiod _ _ _⟩

theorem collectUe_blank (hperiod : 0 ≤ c.subframePeriod) {candidate : Candidate}
    (hue : ue.Rested) (hok : collectUe c s rnti ue = .ok candidate) : candidate.ue.Blank := by
  unfold collectUe at hok
  have hok := blame_eq_ok.1 hok
  dsimp only at hok
  obtain ⟨ul, hul, hok⟩ := bind_eq_ok.1 hok
  obtain rfl := pure_eq_ok.1 hok
  exact collectUl_blank hperiod
    (collectDl_blank s rnti ((s.rntiIabInfoMap.find rnti).getD false) hperiod hue) hul

end

/-! ## Triggers -/

theorem limitIab_rested {symAvail : Int} {ue limited : UeSchedInfo} (hue : ue.Rested)
    (hok : ue.limitIab symAvail = .ok limited) : limited.Rested := by
  unfold UeSchedInfo.limitIab at hok
  split_ifs at hok
  · obtain ⟨caps, -, hok⟩ := bind_eq_ok.1 hok
    obtain rfl := pure_eq_ok.1 hok
    intro mode
    cases mode with
    | dl => exact hue .dl
    | ul => exact hue .ul
  · obtain rfl := pure_eq_ok.1 hok
    exact hue

theorem limitIab_blank {symAvail : Int} {ue limited : UeSchedInfo} (hue : ue.Blank)
    (hok : ue.limitIab symAvail = .ok limited) : limited.Blank := by
  unfold UeSchedInfo.limitIab at hok
  split_ifs at hok
  · obtain ⟨caps, -, hok⟩ := bind_eq_ok.1 hok
    obtain rfl := pure_eq_ok.1 hok
    intro mode
    cases mode with
    | dl => exact hue .dl
    | ul => exact hue .ul
  · obtain rfl := pure_eq_ok.1 hok
    exact hue

theorem resting_rested : Resting c UeSchedInfo.Rested where
  steady := steady_rested
  reset := UeSchedInfo.rested_reset
  idle := by
    intro s rnti ue candidate hue hok hwaits
    obtain ⟨dlMcs, ulMcs, rlcPduInfo, iab, hidle⟩ :=
      (collectUe_idle (hue .dl).1 (hue .ul).1 hok).2 hwaits
    rw [hidle]
    intro mode
    cases mode with
    | dl => exact hue .dl
    | ul => exact hue .ul
  limit := fun _ _ _ hue hok => limitIab_rested hue hok
  mark := fun _ hue => hue.markDone
  noTurn := fun _ hue => UeSchedInfo.nextTurn_markDone_eq_none fun mode => (hue mode).1

/-! ## Runs -/

theorem run_historyOf (events : List FlexTtiPfEvent) :
    (historyOf c events).run =
      Run.run (TdmaRun.step (handle c)) { scheduler := start c } events := by
  unfold historyOf
  refine Run.simulates (R := fun (h : History) r => h.run = r) (fun event _ h r hr => ?_) rfl
  rw [← hr]
  rfl

/-- Between the triggers of a run every record is at rest. -/
theorem rested_historyOf (events : List FlexTtiPfEvent) :
    AllRecords (fun _ ue => ue.Rested) (historyOf c events).run.scheduler.ueSchedInfoMap := by
  rw [run_historyOf]
  exact resting_rested.run events

/-- What the records are when a division begins. -/
theorem beginDivision_blank (hperiod : 0 ≤ c.subframePeriod) {s : FlexTtiPf}
    (hs : AllRecords (fun _ ue => ue.Rested) s.ueSchedInfoMap)
    {params : SchedTriggerReqParameters} {begun : Division}
    (hok : beginDivision c params s = .ok (some begun)) :
    AllRecords (fun _ ue => ue.Blank) begun.ueSchedInfoMap := by
  obtain ⟨answered, hanswered, hok⟩ := bind_eq_ok.1 hok
  rcases answer_steady steady_rested hs hanswered with
    ⟨a, rfl, ha, -, hpass⟩ | ⟨next, rfl, -⟩
  · dsimp only at hok
    split at hok
    · cases pure_eq_ok.1 hok
    · obtain ⟨collected, hcollected, hok⟩ := bind_eq_ok.1 hok
      obtain ⟨limited, hlimited, hok⟩ := bind_eq_ok.1 hok
      obtain rfl := Option.some.inj (pure_eq_ok.1 hok)
      have hbegin : AllRecords (fun _ ue => ue.Blank) collected.ueSchedInfoMap :=
        (hpass ▸ ha : AllRecords _ a.pass.ues.ueSchedInfoMap).collect hcollected
          fun _ _ _ _ hue hok _ => collectUe_blank hperiod hue hok
      exact hbegin.limited (fun _ _ _ hue hok => limitIab_blank hue hok) hlimited
  · cases pure_eq_ok.1 hok

/-- The rates stay none below zero. -/
theorem keptInTurns_rates (hperiod : 0 ≤ c.subframePeriod) :
    KeptInTurns c fun _ ue => ∀ mode, 0 ≤ (ue.direction mode).currTput where
  mark := by
    intro _ ue h mode
    rw [UeSchedInfo.direction_markDone]
    unfold Direction.markDone
    split
    · exact h mode
    · exact h mode
  turn := by
    intro _ ue turn h _ mode
    rw [UeSchedInfo.direction_addSymbol, UeSchedInfo.direction_markDone]
    split_ifs
    · exact throughput_nonneg hperiod _ _ _
    · unfold Direction.markDone
      split
      · exact h mode
      · exact h mode

theorem sortsAt_rate_nonneg (hperiod : 0 ≤ c.subframePeriod) {s : FlexTtiPf}
    (hs : AllRecords (fun _ ue => ue.Rested) s.ueSchedInfoMap)
    {params : SchedTriggerReqParameters} {k : Nat} {d : Division}
    (hsorts : SortsAt c params s k d) :
    ∀ rnti ue, d.ueSchedInfoMap.find rnti = some ue → 0 ≤ ue.rate := by
  obtain ⟨begun, hbegun, -, rfl⟩ := hsorts
  have hrates := ((beginDivision_blank hperiod hs hbegun).imp
    fun _ _ hue mode => (hue mode).2).rounds (keptInTurns_rates hperiod) (n := k)
  intro rnti ue hfind
  exact le_max_of_le_left (hrates.each rnti ue hfind .dl)

/-- At the first sort of a trigger no average is above another. -/
theorem ordered_first_iff (hperiod : 0 ≤ c.subframePeriod) {s : FlexTtiPf}
    (hs : AllRecords (fun _ ue => ue.Rested) s.ueSchedInfoMap)
    {params : SchedTriggerReqParameters} {d : Division} (hsorts : SortsAt c params s 0 d)
    (past : Flow → ℚ) :
    Ordered c past d ↔ ∀ poor rich, ¬ Rivals c past d poor rich := by
  obtain ⟨begun, hbegun, -, rfl⟩ := hsorts
  have hblank := beginDivision_blank hperiod hs hbegun
  constructor
  · intro hordered poor rich hrivals
    have hless := (hordered poor rich hrivals).2.1
    have hpoor : poor.2.dl.avgTput = 0 :=
      (hblank.each poor.1 poor.2 hrivals.poorAsks.find .dl).1
    have hrich : rich.2.dl.avgTput = 0 :=
      (hblank.each rich.1 rich.2 hrivals.richAsks.find .dl).1
    rw [hpoor, hrich] at hless
    exact lt_irrefl _ hless
  · intro hnone poor rich hrivals
    exact absurd hrivals (hnone poor rich)

/-- A hundred bytes for the first of two UEs, a trigger, and a hundred bytes for both. -/
def firstThenBoth : List FlexTtiPfEvent :=
  oneUe ++ [.cschedUeConfigReq 2 false false 0, .schedTriggerReq { sfnSf := {} },
    .schedDlRlcBufferReq { rnti := 1, logicalChannelIdentity := 3, rlcTransmissionQueueSize := 100 },
    .schedDlRlcBufferReq { rnti := 2, logicalChannelIdentity := 3, rlcTransmissionQueueSize := 100 }]

/-- What a UE has when a division begins: whether it can use a symbol, its rate and its blocks. -/
def seen (d : Division) (rnti : Nat) : Option (Bool × ℚ × Nat × Nat) :=
  (d.ueSchedInfoMap.find rnti).map fun ue =>
    (ue.markDone.nextTurn.isSome, ue.rate, ue.dl.tbSize, ue.ul.tbSize)

end FlexTtiPf

end NtnIab.Mmwave
