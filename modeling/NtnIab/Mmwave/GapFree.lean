import NtnIab.Library.Run
import NtnIab.Mmwave.SubframeTarget
import Mathlib.Data.List.Range
import Mathlib.Logic.Function.Iterate

/-!
# Scheduling without gaps

The allocations of an eNB are for consecutive subframes, and every subframe finds its own, as long
as the delay of the scheduler does not grow once there are allocations, and the latency and the
delay together are at most a frame. A delay that grows in between skips subframes, which then find
what was used a frame before.

## Strategy

Subframes are numbered from the start. After `n` of them the PHY is at subframe `n`, and holds an
unused allocation for each of the next ones, as many as the latency and the delay together: this
is `Aligned`, and a subframe uses up the first of them and adds one.
-/

namespace NtnIab.Mmwave

variable (c : MmWavePhyMacCommon)

/-! ## Runs -/

/-- An allocation that was made: in which subframe, with which delay, and for which one. -/
structure Allocated where
  current : SfnSf
  delay : Nat
  dlSfn : SfnSf
  ulSfn : SfnSf
  deriving Repr, DecidableEq

/-- `allocated` are the allocations that were made, and `found` those that the subframes found, in
order. -/
structure SubframeRun where
  scheduler : FlexTtiTarget := {}
  phy : MmWaveEnbPhy
  allocated : List Allocated := []
  found : List (SfnSf × Option SfAllocInfo) := []

/-- A configuration in the middle of a subframe is one before it or one after it. -/
inductive SubframeEvent
  | cschedUeConfigReq (params : CschedUeConfigReqParameters)
  | subframe
  deriving Repr, DecidableEq

namespace SubframeRun

def start : SubframeRun where
  phy := .doInitialize c

/-- The call of `DoSubframeIndication`, with the allocation of the scheduler. -/
def trigger (current : SfnSf) (r : SubframeRun) : SubframeRun :=
  let dlSfn := r.scheduler.dlSfn c (schedSfn c current)
  let ulSfn := r.scheduler.ulSfn c (schedSfn c current)
  { r with
    phy := r.phy.setDlSfAllocInfo { sfnSf := dlSfn }
    allocated := r.allocated ++ [⟨current, r.scheduler.maxSchedulingDelay, dlSfn, ulSfn⟩] }

def subframe (r : SubframeRun) : SubframeRun :=
  let current := r.phy.sfn
  let result := r.phy.startSubFrame
  let r := { r with phy := result.2, found := r.found ++ [(current, result.1)] }
  let r := r.trigger c current
  { r with phy := r.phy.endSubFrame c }

def step (r : SubframeRun) : SubframeEvent → SubframeRun
  | .cschedUeConfigReq params => { r with scheduler := r.scheduler.cschedUeConfigReq params }
  | .subframe => r.subframe c

/-- The targets are consecutive and as far ahead as they should be, and every subframe finds an
unused allocation of its own. -/
structure GapFree (r : SubframeRun) : Prop where
  consecutive : (r.allocated.map (·.dlSfn)).IsChain fun a b => b = a.next c
  carried : ∀ a ∈ r.allocated,
    a.dlSfn = (SfnSf.next c)^[c.l1L2CtrlLatency + a.delay] a.current ∧ a.ulSfn = a.dlSfn
  found : ∀ f ∈ r.found, f.2 = some { sfnSf := f.1, valid := true }

/-- After the first allocation no configuration makes the delay grow. In a subframe the latency
and the delay are at most a frame, and the subframe numbers and the sum of the scheduler fit 8
bits. -/
def StepOk (r : SubframeRun) : SubframeEvent → Prop
  | .cschedUeConfigReq params => params.reconfigureFlag → r.allocated ≠ [] →
      params.numIabDevsPerRnti + 1 ≤ r.scheduler.maxSchedulingDelay
  | .subframe => c.subframesPerFrame ≤ 2 ^ 8 ∧
      c.l1L2CtrlLatency + r.scheduler.maxSchedulingDelay ≤ c.subframesPerFrame ∧
      (schedSfn c r.phy.sfn).sfNum + r.scheduler.maxSchedulingDelay < 2 ^ 8

instance StepOk.decidable (r : SubframeRun) : ∀ event, Decidable (r.StepOk c event)
  | .cschedUeConfigReq params => inferInstanceAs (Decidable (params.reconfigureFlag →
      r.allocated ≠ [] → params.numIabDevsPerRnti + 1 ≤ r.scheduler.maxSchedulingDelay))
  | .subframe => inferInstanceAs (Decidable (c.subframesPerFrame ≤ 2 ^ 8 ∧
      c.l1L2CtrlLatency + r.scheduler.maxSchedulingDelay ≤ c.subframesPerFrame ∧
      (schedSfn c r.phy.sfn).sfNum + r.scheduler.maxSchedulingDelay < 2 ^ 8))

end SubframeRun

/-! ## Subframe numbers -/

namespace SfnSf

/-- Subframe `n` from the start. -/
def nth (n : Nat) : SfnSf := ⟨n / c.subframesPerFrame % 2 ^ 16, n % c.subframesPerFrame, 0⟩

variable {c} {n d : Nat}

/-- Later in the same frame. -/
theorem nth_add_of_lt (h : (nth c n).sfNum + d < c.subframesPerFrame) :
    nth c (n + d) = ⟨(nth c n).frameNum, (nth c n).sfNum + d, 0⟩ := by
  simp only [nth, FrameClock.div_add_of_lt h, FrameClock.mod_add_of_lt h]

/-- In the next frame: the frame number carries once. -/
theorem nth_add_of_carry (hS : 0 < c.subframesPerFrame) (hd : d ≤ c.subframesPerFrame)
    (h : c.subframesPerFrame ≤ (nth c n).sfNum + d) :
    nth c (n + d) = ⟨((nth c n).frameNum + 1) % 2 ^ 16,
      (nth c n).sfNum + d - c.subframesPerFrame, 0⟩ := by
  simp only [nth, FrameClock.div_add_of_carry hS hd h, FrameClock.mod_add_of_carry hS hd h]
  congr 1
  omega

theorem nth_sfNum_lt (hS : 0 < c.subframesPerFrame) : (nth c n).sfNum < c.subframesPerFrame :=
  Nat.mod_lt n hS

theorem next_nth (hS : 0 < c.subframesPerFrame) (hfits : c.subframesPerFrame ≤ 2 ^ 8) :
    (nth c n).next c = nth c (n + 1) := by
  have hlt := nth_sfNum_lt (n := n) hS
  unfold next
  split
  · rename_i hlast
    rw [nth_add_of_carry hS (by omega) (by omega)]
    congr 1
    omega
  · rw [nth_add_of_lt (by omega), Nat.mod_eq_of_lt (by omega)]

theorem iterate_next_nth (hS : 0 < c.subframesPerFrame) (hfits : c.subframesPerFrame ≤ 2 ^ 8) :
    (next c)^[d] (nth c n) = nth c (n + d) := by
  induction d with
  | zero => rfl
  | succ d ih =>
      rw [Function.iterate_succ_apply', ih, next_nth hS hfits]
      rfl

end SfnSf

/-! ## Targets -/

section
variable {c} {n : Nat}

/-- The MAC asks for the subframe that is the latency ahead. -/
theorem schedSfn_nth (hS : 0 < c.subframesPerFrame) (hfits : c.subframesPerFrame ≤ 2 ^ 8)
    (hlatency : c.l1L2CtrlLatency ≤ c.subframesPerFrame) :
    schedSfn c (.nth c n) = .nth c (n + c.l1L2CtrlLatency) := by
  have hlt := SfnSf.nth_sfNum_lt (n := n) hS
  unfold schedSfn
  rw [Nat.mod_eq_of_lt (by omega)]
  dsimp only
  split
  · rename_i hcarry
    have hrest : (SfnSf.nth c n).sfNum + c.l1L2CtrlLatency - c.subframesPerFrame < 2 ^ 8 := by
      omega
    rw [SfnSf.nth_add_of_carry hS hlatency hcarry, Nat.mod_eq_of_lt hrest]
  · rename_i hsame
    rw [SfnSf.nth_add_of_lt (by omega), Nat.mod_eq_of_lt (by omega)]

variable {s : FlexTtiTarget}

/-- The scheduler adds its delay, for the downlink and the uplink alike. -/
theorem dlSfn_nth (hS : 0 < c.subframesPerFrame) (hfits : c.subframesPerFrame ≤ 2 ^ 8)
    (hdelay : s.maxSchedulingDelay ≤ c.subframesPerFrame)
    (hsum : (SfnSf.nth c n).sfNum + s.maxSchedulingDelay < 2 ^ 8) :
    s.dlSfn c (.nth c n) = .nth c (n + s.maxSchedulingDelay) := by
  have hlt := SfnSf.nth_sfNum_lt (n := n) hS
  unfold FlexTtiTarget.dlSfn
  rw [Nat.mod_eq_of_lt (by omega)]
  dsimp only
  rw [toInt32_of_lt (by omega), toInt32_of_lt (by omega), Nat.mod_eq_of_lt hsum]
  rcases Nat.lt_or_ge ((SfnSf.nth c n).sfNum + s.maxSchedulingDelay) c.subframesPerFrame with
    hsame | hcarry
  · rw [SfnSf.nth_add_of_lt hsame, if_neg (by omega), Nat.mod_eq_of_lt hsame,
      Nat.mod_eq_of_lt hsum]
    rfl
  · have hrest : (SfnSf.nth c n).sfNum + s.maxSchedulingDelay - c.subframesPerFrame <
        c.subframesPerFrame := by omega
    rw [SfnSf.nth_add_of_carry hS hdelay hcarry, if_pos (by omega), Nat.mod_eq_sub_mod hcarry,
      Nat.mod_eq_of_lt hrest, Nat.mod_eq_of_lt (Nat.lt_of_lt_of_le hrest hfits)]
    rfl

theorem ulSfn_eq_dlSfn {sfn : SfnSf} (hfits : c.subframesPerFrame ≤ 2 ^ 8)
    (hsum : sfn.sfNum + s.maxSchedulingDelay < 2 ^ 8) :
    s.ulSfn c sfn = s.dlSfn c sfn := by
  unfold FlexTtiTarget.ulSfn FlexTtiTarget.dlSfn
  rw [Nat.mod_eq_of_lt (a := sfn.sfNum + s.maxSchedulingDelay) (b := 2 ^ 32) (by omega)]
  dsimp only
  rw [toInt32_of_lt (by omega), toInt32_of_lt (by omega),
    Nat.mod_eq_of_lt (a := sfn.sfNum + s.maxSchedulingDelay) (b := 2 ^ 8) hsum]
  simp only [ge_iff_le, Int.ofNat_le]

end

/-! ## What a run keeps -/

namespace SubframeRun

/-- The allocation for subframe `k`, as the PHY keeps it until then. -/
def unusedFor (k : Nat) : SfAllocInfo := { sfnSf := .nth c k }

/-- How far ahead the allocations are. -/
def lead (r : SubframeRun) : Nat := c.l1L2CtrlLatency + r.scheduler.maxSchedulingDelay

/-- The state before subframe `n`. -/
structure Aligned (n : Nat) (r : SubframeRun) : Prop where
  delay_pos : 0 < r.scheduler.maxSchedulingDelay
  sfn_eq : r.phy.sfn = .nth c n
  length_eq : r.phy.sfAllocInfo.length = c.subframesPerFrame
  found_eq : r.found = (List.range n).map fun k => (.nth c k, some (unusedFor c k))
  allocated_eq : r.allocated = (List.range n).map fun k =>
    ⟨.nth c k, r.scheduler.maxSchedulingDelay, .nth c (k + r.lead c), .nth c (k + r.lead c)⟩
  lead_le : n ≠ 0 → r.lead c ≤ c.subframesPerFrame ∧ c.subframesPerFrame ≤ 2 ^ 8
  ready : c.subframesPerFrame ≤ 2 ^ 8 → ∀ k, n ≤ k →
    k < n + (if n = 0 then c.subframesPerFrame else r.lead c) →
    r.phy.sfAllocInfo[k % c.subframesPerFrame]? = some (unusedFor c k)

variable {c}

theorem aligned_start : Aligned c 0 (start c) where
  delay_pos := Nat.one_pos
  sfn_eq := by simp [start, MmWaveEnbPhy.doInitialize, SfnSf.nth]
  length_eq := by simp [start, MmWaveEnbPhy.doInitialize]
  found_eq := rfl
  allocated_eq := rfl
  lead_le h := absurd rfl h
  ready hfits k _ hk := by
    rw [if_pos rfl, Nat.zero_add] at hk
    have hk8 : k < 256 := Nat.lt_of_lt_of_le hk hfits
    simp [start, MmWaveEnbPhy.doInitialize, SfnSf.nth, unusedFor, Nat.mod_eq_of_lt hk, hk,
      Nat.div_eq_of_lt hk, hk8]

variable {n : Nat} {r : SubframeRun}

theorem Aligned.allocated_ne_nil (hr : Aligned c n r) (hn : n ≠ 0) : r.allocated ≠ [] := by
  intro hnil
  have := congrArg List.length hr.allocated_eq
  simp only [hnil, List.length_nil, List.length_map, List.length_range] at this
  omega

/-- A configuration that leaves the delay as it is, or comes before the first allocation. -/
theorem Aligned.cschedUeConfigReq (hr : Aligned c n r) {params : CschedUeConfigReqParameters}
    (hok : r.StepOk c (.cschedUeConfigReq params)) :
    Aligned c n { r with scheduler := r.scheduler.cschedUeConfigReq params } := by
  rcases Nat.eq_zero_or_pos n with rfl | hn
  · have hpos : 0 < (r.scheduler.cschedUeConfigReq params).maxSchedulingDelay := by
      unfold FlexTtiTarget.cschedUeConfigReq
      split
      · dsimp only
        split
        · exact Nat.succ_pos _
        · exact hr.delay_pos
      · exact hr.delay_pos
    exact ⟨hpos, hr.sfn_eq, hr.length_eq, hr.found_eq, hr.allocated_eq,
      fun h => absurd rfl h, hr.ready⟩
  · have hsame : (r.scheduler.cschedUeConfigReq params).maxSchedulingDelay =
        r.scheduler.maxSchedulingDelay := by
      unfold FlexTtiTarget.cschedUeConfigReq
      split
      · rename_i hreconfigure
        have hle := hok hreconfigure (hr.allocated_ne_nil (Nat.ne_of_gt hn))
        obtain ⟨hlead, hfits⟩ := hr.lead_le (Nat.ne_of_gt hn)
        unfold lead at hlead
        dsimp only
        rw [toInt32_of_lt (by omega), if_neg (by omega)]
      · rfl
    have hlead : lead c { r with scheduler := r.scheduler.cschedUeConfigReq params } =
        r.lead c := by
      unfold lead
      rw [hsame]
    refine ⟨hsame ▸ hr.delay_pos, hr.sfn_eq, hr.length_eq, hr.found_eq, ?_, ?_, ?_⟩
    · rw [hlead, hsame]
      exact hr.allocated_eq
    · rw [hlead]
      exact hr.lead_le
    · rw [hlead]
      exact hr.ready

/-- A subframe finds its allocation and makes the one that is the lead ahead. -/
theorem Aligned.subframe (hr : Aligned c n r) (hok : r.StepOk c .subframe) :
    Aligned c (n + 1) (r.subframe c) := by
  obtain ⟨hfits, hlead, hsum⟩ := hok
  have hdelay := hr.delay_pos
  have hS : 0 < c.subframesPerFrame := by omega
  have hsfn := hr.sfn_eq
  -- The allocation that the subframe finds.
  have hhere : r.phy.sfAllocInfo[(SfnSf.nth c n).sfNum]? = some (unusedFor c n) := by
    refine hr.ready hfits n (Nat.le_refl n) ?_
    unfold lead
    split <;> omega
  -- The target is the lead ahead.
  have hsched : schedSfn c (.nth c n) = .nth c (n + c.l1L2CtrlLatency) :=
    schedSfn_nth hS hfits (by omega)
  rw [hsfn, hsched] at hsum
  have hdl : r.scheduler.dlSfn c (schedSfn c (.nth c n)) = .nth c (n + r.lead c) := by
    rw [hsched, dlSfn_nth hS hfits (by omega) hsum, Nat.add_assoc, lead]
  have hul : r.scheduler.ulSfn c (schedSfn c (.nth c n)) = .nth c (n + r.lead c) := by
    rw [hsched, ulSfn_eq_dlSfn hfits hsum, ← hsched, hdl]
  have hstate : r.subframe c = { r with
      phy := ⟨.nth c (n + 1), (r.phy.sfAllocInfo.modify (n % c.subframesPerFrame)
        fun info => { info with valid := false }).set ((n + r.lead c) % c.subframesPerFrame)
          (unusedFor c (n + r.lead c))⟩
      found := r.found ++ [(.nth c n, some (unusedFor c n))]
      allocated := r.allocated ++ [⟨.nth c n, r.scheduler.maxSchedulingDelay,
        .nth c (n + r.lead c), .nth c (n + r.lead c)⟩] } := by
    unfold SubframeRun.subframe trigger MmWaveEnbPhy.startSubFrame MmWaveEnbPhy.endSubFrame
      MmWaveEnbPhy.setDlSfAllocInfo
    simp only [hdl, hul, hhere, hsfn, SfnSf.next_nth hS hfits]
    rfl
  rw [hstate]
  refine ⟨hdelay, rfl, ?_, ?_, ?_, fun _ => ⟨hlead, hfits⟩, ?_⟩
  · simp only [List.length_set, List.length_modify]
    exact hr.length_eq
  · rw [List.range_succ, List.map_append, ← hr.found_eq]
    rfl
  · rw [List.range_succ, List.map_append]
    exact congrArg (· ++ _) hr.allocated_eq
  · intro _ k hk hlt
    rw [if_neg (Nat.succ_ne_zero n)] at hlt
    change k < n + 1 + r.lead c at hlt
    change r.lead c ≤ c.subframesPerFrame at hlead
    rcases Nat.lt_or_ge k (n + r.lead c) with hold | hnew
    · -- One of the allocations that were there: neither used now nor overwritten.
      have hother : (n + r.lead c) % c.subframesPerFrame ≠ k % c.subframesPerFrame :=
        FrameClock.mod_ne_mod hold (by omega)
      have hlater : k % c.subframesPerFrame ≠ n % c.subframesPerFrame :=
        FrameClock.mod_ne_mod (by omega) (by omega)
      rw [List.getElem?_set_ne hother, List.getElem?_modify_ne _ _ hlater.symm]
      refine hr.ready hfits k (by omega) ?_
      split <;> omega
    · obtain rfl : k = n + r.lead c := by omega
      rw [List.getElem?_set_self]
      rw [List.length_modify, hr.length_eq]
      exact Nat.mod_lt _ hS

theorem step_aligned (hr : Aligned c n r) {event : SubframeEvent} (hok : r.StepOk c event) :
    ∃ m, Aligned c m (r.step c event) := by
  cases event with
  | cschedUeConfigReq params => exact ⟨n, hr.cschedUeConfigReq hok⟩
  | subframe => exact ⟨n + 1, hr.subframe hok⟩

/-- What is made and found before subframe `n` is gap-free. -/
theorem Aligned.gapFree (hr : Aligned c n r) : r.GapFree c := by
  have hS : ∀ k < n, 0 < c.subframesPerFrame ∧ c.subframesPerFrame ≤ 2 ^ 8 := by
    intro k hk
    have hdelay := hr.delay_pos
    obtain ⟨hlead, hfits⟩ := hr.lead_le (by omega)
    unfold lead at hlead
    exact ⟨by omega, hfits⟩
  refine ⟨?_, ?_, ?_⟩
  · rw [hr.allocated_eq, List.map_map, List.isChain_map]
    refine (List.isChain_range _ n).2 ?_
    intro k hk
    obtain ⟨hpos, hfits⟩ := hS k (by omega)
    dsimp only [Function.comp]
    rw [SfnSf.next_nth hpos hfits, Nat.add_right_comm]
  · intro a ha
    rw [hr.allocated_eq] at ha
    obtain ⟨k, hk, rfl⟩ := List.mem_map.1 ha
    obtain ⟨hpos, hfits⟩ := hS k (List.mem_range.1 hk)
    exact ⟨(SfnSf.iterate_next_nth hpos hfits).symm, rfl⟩
  · intro f hf
    rw [hr.found_eq] at hf
    obtain ⟨k, -, rfl⟩ := List.mem_map.1 hf
    rfl

/-! ## Every run -/

/-- As long as the delay does not grow once there are allocations, and the lead fits a frame, the
targets are consecutive and every subframe finds an unused allocation of its own. -/
theorem run_gapFree {events : List SubframeEvent}
    (hall : Run.AllSteps (step c) (StepOk c) (start c) events) :
    (Run.run (step c) (start c) events).GapFree c := by
  have haligned : ∃ n, Aligned c n (Run.run (step c) (start c) events) := by
    refine hall.invariant (I := fun r => ∃ n, Aligned c n r) ?_ ⟨0, aligned_start⟩
    intro r event ⟨n, hr⟩ hok
    exact step_aligned hr hok
  obtain ⟨n, hr⟩ := haligned
  exact hr.gapFree

/-- A UE with three IAB devices behind it is configured before the first subframe, and one with
fewer after it. -/
theorem run_gapFree_of_early_configuration :
    Run.AllSteps (step {}) (StepOk {}) (start {})
        [.cschedUeConfigReq ⟨1, true, true, 3⟩, .subframe,
          .cschedUeConfigReq ⟨2, true, true, 2⟩, .subframe, .subframe] ∧
      (Run.run (step {}) (start {})
        [.cschedUeConfigReq ⟨1, true, true, 3⟩, .subframe,
          .cschedUeConfigReq ⟨2, true, true, 2⟩, .subframe, .subframe]).GapFree {} :=
  ⟨by decide, run_gapFree (by decide)⟩

/-- After eleven subframes a UE gets an IAB device behind it. The allocation for the fourteenth
subframe is skipped, and the subframe finds a used one of the frame before. -/
theorem not_gapFree_of_late_configuration :
    ¬ (Run.run (step {}) (start {}) (List.replicate 11 .subframe ++
        .cschedUeConfigReq ⟨1, true, true, 1⟩ :: List.replicate 4 .subframe)).GapFree {} := by
  intro hgap
  have hused : ((⟨1, 4, 0⟩, some ⟨⟨0, 4, 0⟩, false⟩) : SfnSf × Option SfAllocInfo) ∈
      (Run.run (step {}) (start {}) (List.replicate 11 .subframe ++
        .cschedUeConfigReq ⟨1, true, true, 1⟩ :: List.replicate 4 .subframe)).found := by
    decide
  have := hgap.found _ hused
  revert this
  decide

end SubframeRun

end NtnIab.Mmwave
