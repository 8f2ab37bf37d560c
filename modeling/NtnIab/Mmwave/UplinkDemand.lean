import NtnIab.Library.Serving
import NtnIab.Mmwave.DemandReports
import NtnIab.Mmwave.PfRecords

/-!
# The uplink demand of the proportional fair scheduler

A buffer status report raises the demand of a logical channel group to what it says. A grant is
taken from the demands of the groups in order, less four bytes of overhead, which are subtracted in
16 bits: a grant that is smaller than these is taken for one of nearly `2 ^ 16` bytes.

## Strategy

The loop over the groups is `serve` on their demands (`updateUl_demands`). `Served` and `Reported`
say what a grant and a report promise. A report keeps its promise in every state of a run
(`grow_spec`), and a grant exactly if it covers its overhead or finds no demand (`served_iff`).
-/

namespace NtnIab.Mmwave

namespace FlexTtiPf

open Serving Fallible

/-- The demands of the three groups that are served. -/
def demands (flows : List FlowStats) : List Nat :=
  [1, 2, 3].map fun lcg => (flows.getD lcg { lcid := 0 }).totalBufSize

/-- The bytes that wait in the uplink. -/
def waitingUl (flows : List FlowStats) : Nat := (demands flows).sum

/-- The uplink flows of a UE. -/
def ulFlows (rnti : Nat) (s : FlexTtiPf) : Option (List FlowStats) :=
  (s.ueSchedInfoMap.find rnti).map (·.ul.flowStats)

inductive UlEvent
  | bsr (rnti : Nat) (bufferStatus : List Nat)
  | grant (rnti size : Nat)
  deriving Repr, DecidableEq

/-- A buffer status report arrives, or a grant is made. -/
def ulStep : UlEvent → FlexTtiPf → Except Fault FlexTtiPf
  | .bsr rnti bufferStatus, s => s.schedUlMacCtrlInfoReq [(rnti, bufferStatus)]
  | .grant rnti size, s => do
      let ues ← updateUlRlcBufferInfo rnti size s.ueSchedInfoMap
      pure { s with ueSchedInfoMap := ues }

/-! ## What is promised -/

/-- The overheads of a grant: that of the RLC, and the minimum one. -/
def ulOverhead : Nat := 4

/-- A grant of `size` bytes lowers the demands by no more than that, and by nothing if it is too
small for its overheads. It serves them in order. -/
structure Served (size : Nat) (before after : List FlowStats) : Prop where
  bounded : waitingUl before ≤ waitingUl after + size
  spared : size < ulOverhead → waitingUl after = waitingUl before
  lowered : List.Forall₂ (· ≤ ·) (demands after) (demands before)
  inOrder : ((demands after).zip (demands before)).Pairwise fun first later =>
    later.1 < later.2 → first.1 = 0

/-- After a report, the demand of each group is at least the reported size less what is scheduled,
and at most this size or the earlier demand. -/
def Reported (bufferStatus : List Nat) (before after : List FlowStats) : Prop :=
  ∀ lcg ∈ [1, 2, 3], ∀ bsrId ∈ bufferStatus[lcg - 1]?,
    let size := BufferSizeLevelBsrTable.getD bsrId 0
    let old := before.getD lcg { lcid := 0 }
    let new := after.getD lcg { lcid := 0 }
    size ≤ new.totalBufSize + old.totalSchedSize ∧ new.totalBufSize ≤ max old.totalBufSize size

/-- What an event promises to a UE. Nothing happens to the other UEs. -/
def UlPromise (rnti : Nat) (before after : List FlowStats) : UlEvent → Prop
  | .bsr other bufferStatus =>
      if other = rnti then Reported bufferStatus before after else after = before
  | .grant other size => if other = rnti then Served size before after else after = before

/-- Every event of a run keeps its promise. -/
def KeepsPromises (rnti : Nat) : List UlEvent → FlexTtiPf → Prop
  | [], _ => True
  | event :: events, s => ∀ s', ulStep event s = .ok s' →
      (∀ before ∈ ulFlows rnti s, ∀ after ∈ ulFlows rnti s', UlPromise rnti before after event) ∧
        KeepsPromises rnti events s'

/-- In a run, every grant for the UE covers its overheads, unless nothing waits. -/
def GrantsCover (rnti : Nat) : List UlEvent → FlexTtiPf → Prop
  | [], _ => True
  | event :: events, s => ∀ s', ulStep event s = .ok s' →
      (∀ size, event = .grant rnti size →
        ulOverhead ≤ size ∨ ∀ flows ∈ ulFlows rnti s, waitingUl flows = 0) ∧
        GrantsCover rnti events s'

/-- There are flows for the three groups. The demands have 32 bits, and nothing is scheduled. -/
def UlFlows (flows : List FlowStats) : Prop :=
  4 ≤ flows.length ∧ ∀ flow ∈ flows, flow.totalBufSize < 2 ^ 32 ∧ flow.totalSchedSize = 0

/-- The UE is configured. -/
def UlConfigured (rnti : Nat) (s : FlexTtiPf) : Prop :=
  ∃ flows, ulFlows rnti s = some flows ∧ UlFlows flows

/-- The first configuration of a UE gives it its flows. -/
theorem ulConfigured_cschedUeConfigReq (c : FlexTtiConfig) {rnti : Nat} {s : FlexTtiPf}
    (reconfigureFlag iab : Bool) (numIabDevsPerRnti : Nat)
    (hnone : s.ueSchedInfoMap.find rnti = none) :
    UlConfigured rnti (s.cschedUeConfigReq c rnti reconfigureFlag iab numIabDevsPerRnti) := by
  refine ⟨newUe.ul.flowStats, ?_, by decide, ?_⟩
  · unfold ulFlows cschedUeConfigReq
    dsimp only
    rw [OrderedMap.find_insertNew, if_pos rfl, hnone]
    rfl
  · intro flow hflow
    have hempty : ∀ flow ∈ newUe.ul.flowStats, flow.totalBufSize = 0 ∧ flow.totalSchedSize = 0 := by
      decide
    obtain ⟨htotal, hsched⟩ := hempty flow hflow
    exact ⟨htotal ▸ Nat.two_pow_pos 32, hsched⟩

/-! ## Grants -/

/-- The grant as it is taken from the demands. -/
def grantSize (size : Nat) : Nat := sub32 (sub32 size 2 % 2 ^ 16) 2 % 2 ^ 16

theorem grantSize_of_le {size : Nat} (hle : ulOverhead ≤ size) : grantSize size ≤ size - 4 := by
  unfold ulOverhead at hle
  unfold grantSize sub32
  omega

theorem grantSize_of_lt {size : Nat} (hlt : size < ulOverhead) : 0 < grantSize size := by
  unfold ulOverhead at hlt
  unfold grantSize sub32
  omega

/-- The flow after `n` bytes were taken from it. -/
def FlowStats.less (n : Nat) (flow : FlowStats) : FlowStats :=
  { flow with totalBufSize := flow.totalBufSize - n }

theorem takeUl_eq {lcid n : Nat} {flows : List FlowStats} {flow : FlowStats}
    (hflow : flows[lcid]? = some flow) :
    takeUl lcid (n, flows) =
      .ok (n - flow.totalBufSize, flows.set lcid (flow.less n)) := by
  unfold takeUl
  dsimp only
  by_cases hzero : n = 0
  · rw [if_pos hzero, hzero, Nat.zero_sub]
    obtain ⟨hlt, rfl⟩ := List.getElem?_eq_some_iff.1 hflow
    have hsame : flows.set lcid (flows[lcid].less 0) = flows := List.set_getElem_self hlt
    rw [hsame]
    rfl
  · rw [if_neg hzero]
    unfold elementAt
    rw [hflow]
    rfl

/-- The flows of which `n` bytes are taken in order. -/
def serveFlows (n : Nat) : List FlowStats → List FlowStats
  | zero :: one :: two :: three :: rest =>
      zero :: one.less n :: two.less (n - one.totalBufSize) ::
        three.less (n - one.totalBufSize - two.totalBufSize) :: rest
  | flows => flows

theorem demands_serveFlows {n : Nat} {flows : List FlowStats} (hlength : 4 ≤ flows.length) :
    demands (serveFlows n flows) = serve n (demands flows) := by
  match flows, hlength with
  | zero :: one :: two :: three :: rest, _ => rfl

theorem length_serveFlows (n : Nat) (flows : List FlowStats) :
    (serveFlows n flows).length = flows.length := by
  unfold serveFlows
  split <;> rfl

/-- A flow that is served has no more than before, and the same is scheduled. -/
theorem exists_of_mem_serveFlows {n : Nat} {flows : List FlowStats} {flow : FlowStats}
    (hflow : flow ∈ serveFlows n flows) :
    ∃ old ∈ flows, flow.totalBufSize ≤ old.totalBufSize ∧
      flow.totalSchedSize = old.totalSchedSize := by
  unfold serveFlows at hflow
  split at hflow
  · rename_i zero one two three rest
    simp only [List.mem_cons] at hflow ⊢
    rcases hflow with rfl | rfl | rfl | rfl | hrest
    · exact ⟨_, .inl rfl, Nat.le_refl _, rfl⟩
    · exact ⟨one, .inr (.inl rfl), Nat.sub_le .., rfl⟩
    · exact ⟨two, .inr (.inr (.inl rfl)), Nat.sub_le .., rfl⟩
    · exact ⟨three, .inr (.inr (.inr (.inl rfl))), Nat.sub_le .., rfl⟩
    · exact ⟨flow, .inr (.inr (.inr (.inr hrest))), Nat.le_refl _, rfl⟩
  · exact ⟨flow, hflow, Nat.le_refl _, rfl⟩

/-- The loop over the groups serves them in order. -/
theorem foldlM_takeUl (n : Nat) {flows : List FlowStats} (hlength : 4 ≤ flows.length) :
    ∃ left, [1, 2, 3].foldlM (fun d lcid => takeUl lcid d) (n, flows) =
      .ok (left, serveFlows n flows) := by
  match flows, hlength with
  | zero :: one :: two :: three :: rest, _ =>
      have hone := takeUl_eq (n := n)
        (show (zero :: one :: two :: three :: rest)[1]? = some one from rfl)
      have htwo := takeUl_eq (n := n - one.totalBufSize)
        (show (zero :: one.less n :: two :: three :: rest)[2]? = some two from rfl)
      have hthree := takeUl_eq (n := n - one.totalBufSize - two.totalBufSize)
        (show (zero :: one.less n :: two.less (n - one.totalBufSize) :: three :: rest)[3]? =
          some three from rfl)
      refine ⟨n - one.totalBufSize - two.totalBufSize - three.totalBufSize, ?_⟩
      rw [List.foldlM_cons, hone]
      show (takeUl 2 (_, zero :: one.less n :: two :: three :: rest) >>= fun d =>
        List.foldlM _ d [3]) = _
      rw [htwo]
      show (takeUl 3
        (_, zero :: one.less n :: two.less (n - one.totalBufSize) :: three :: rest) >>= fun d =>
          List.foldlM _ d []) = _
      rw [hthree]
      rfl

theorem updateUl_eq {rnti size : Nat} {ues : OrderedMap UeSchedInfo} {ue : UeSchedInfo}
    (hfind : ues.find rnti = some ue) (hlength : 4 ≤ ue.ul.flowStats.length) :
    updateUlRlcBufferInfo rnti size ues = .ok (ues.adjust rnti fun other =>
      { other with ul.flowStats := serveFlows (grantSize size) ue.ul.flowStats }) := by
  obtain ⟨left, hloop⟩ := foldlM_takeUl (grantSize size) hlength
  unfold updateUlRlcBufferInfo
  rw [hfind]
  show (List.foldlM (fun d lcid => takeUl lcid d) (grantSize size, ue.ul.flowStats) [1, 2, 3] >>=
    _) = _
  rw [hloop]
  rfl

/-- A grant serves the flows of its UE, and changes no other. -/
theorem ulFlows_grant {rnti other size : Nat} {s s' : FlexTtiPf} {flows : List FlowStats}
    (hstep : ulStep (.grant other size) s = .ok s') (hflows : ulFlows rnti s = some flows)
    (hlength : 4 ≤ flows.length) :
    ulFlows rnti s' =
      some (if other = rnti then serveFlows (grantSize size) flows else flows) := by
  obtain ⟨ue, hfind, rfl⟩ := Option.map_eq_some_iff.1 hflows
  obtain ⟨ues, hues, hs'⟩ := bind_eq_ok.1 hstep
  rw [← pure_eq_ok.1 hs']
  by_cases hother : other = rnti
  · subst hother
    rw [updateUl_eq hfind hlength, Except.ok.injEq] at hues
    unfold ulFlows
    rw [if_pos rfl, ← hues]
    dsimp only
    rw [OrderedMap.find_adjust, if_pos rfl, hfind]
    rfl
  · have hkept : ues.find rnti = some ue := by
      unfold updateUlRlcBufferInfo at hues
      split at hues
      · rw [← pure_eq_ok.1 hues]
        exact hfind
      · obtain ⟨taken, -, hues⟩ := bind_eq_ok.1 hues
        rw [← pure_eq_ok.1 hues, OrderedMap.find_adjust, if_neg (Ne.symm hother)]
        exact hfind
    unfold ulFlows
    rw [if_neg hother]
    dsimp only
    rw [hkept]
    rfl

/-- A grant keeps its promise exactly if it covers its overheads or finds nothing. -/
theorem served_iff {size : Nat} {flows : List FlowStats} (hlength : 4 ≤ flows.length) :
    Served size flows (serveFlows (grantSize size) flows) ↔
      ulOverhead ≤ size ∨ waitingUl flows = 0 := by
  have hwaiting : waitingUl (serveFlows (grantSize size) flows) =
      waitingUl flows - grantSize size := by
    unfold waitingUl
    rw [demands_serveFlows hlength, sum_serve]
  constructor
  · intro hserved
    by_contra hnot
    obtain ⟨hsmall, hwaits⟩ := not_or.1 hnot
    have hspared := hserved.spared (Nat.lt_of_not_le hsmall)
    have htaken := grantSize_of_lt (Nat.lt_of_not_le hsmall)
    omega
  · intro hcovers
    obtain ⟨hle, hpairwise⟩ := pairwise_serve (grantSize size) (demands flows)
    rw [← demands_serveFlows hlength] at hle hpairwise
    refine ⟨?_, ?_, hle, hpairwise⟩
    · rcases hcovers with hcovers | hnone
      · have := grantSize_of_le hcovers
        omega
      · omega
    · intro hsmall
      rw [hwaiting]
      omega

/-! ## Reports -/

theorem bsrTable_le (bsrId : Nat) : BufferSizeLevelBsrTable.getD bsrId 0 ≤ 150000 := by
  have hall : ∀ size ∈ BufferSizeLevelBsrTable, size ≤ 150000 := by decide
  rw [List.getD_eq_getElem?_getD]
  cases hsize : BufferSizeLevelBsrTable[bsrId]? with
  | none => exact Nat.zero_le _
  | some size => exact hall size (List.mem_of_getElem? hsize)

/-- The difference of a report and a demand as a signed number. It wraps where the demand is far
above the report. -/
theorem toInt32_sub32 {size total : Nat} (hsize : size < 2 ^ 31) (hlt : total < 2 ^ 32) :
    toInt32 (sub32 size total) =
      if total ≤ size + 2 ^ 31 then (size : Int) - total else (size : Int) - total + 2 ^ 32 := by
  unfold sub32
  rw [Nat.mod_eq_of_lt hlt]
  rcases Nat.lt_or_ge size total with habove | hbelow
  · rw [Nat.mod_eq_of_lt (by omega)]
    unfold toInt32
    split_ifs <;> omega
  · have hsub : (size + 2 ^ 32 - total) % 2 ^ 32 = size - total := by omega
    rw [hsub, toInt32_of_lt (by omega), if_pos (by omega)]
    omega

theorem grow_of {size : Nat} {flow : FlowStats} {diff : Int}
    (hdiff : toInt32 (sub32 size ((flow.totalBufSize + flow.totalSchedSize) % 2 ^ 32)) = diff) :
    flow.grow size = if 0 < diff then
      { flow with totalBufSize := (flow.totalBufSize + diff.toNat) % 2 ^ 32 } else flow := by
  unfold FlowStats.grow
  rw [hdiff]

theorem sum_diff {size total : Nat} (hsize : size < 2 ^ 31) (hlt : total < 2 ^ 32)
    (hraised : ¬ (size ≤ total ∧ total ≤ size + 2 ^ 31)) {diff : Int}
    (hdiff : toInt32 (sub32 size total) = diff) :
    0 < diff ∧ (total + diff.toNat) % 2 ^ 32 = size := by
  rw [toInt32_sub32 hsize hlt] at hdiff
  have hsum : 0 < diff ∧ (total + diff.toNat = size ∨ total + diff.toNat = size + 2 ^ 32) := by
    split_ifs at hdiff <;> omega
  refine ⟨hsum.1, ?_⟩
  -- the sum wraps where the difference did
  rcases hsum.2 with hsum | hsum
  · rw [hsum, Nat.mod_eq_of_lt (by omega)]
  · rw [hsum, Nat.add_mod_right, Nat.mod_eq_of_lt (by omega)]

theorem diff_nonpos {size total : Nat} (hsize : size < 2 ^ 31) (hlt : total < 2 ^ 32)
    (hkept : size ≤ total ∧ total ≤ size + 2 ^ 31) {diff : Int}
    (hdiff : toInt32 (sub32 size total) = diff) : ¬ 0 < diff := by
  rw [toInt32_sub32 hsize hlt, if_pos hkept.2] at hdiff
  omega
/-- The flow after a report. Its demand is what was reported also where the difference wraps. -/
theorem grow_eq (size : Nat) {flow : FlowStats} (hsize : size < 2 ^ 31)
    (hlt : flow.totalBufSize < 2 ^ 32) (hsched : flow.totalSchedSize = 0) :
    flow.grow size = { flow with totalBufSize :=
      if size ≤ flow.totalBufSize ∧ flow.totalBufSize ≤ size + 2 ^ 31 then flow.totalBufSize
      else size } := by
  obtain ⟨diff, hd⟩ : ∃ diff, toInt32 (sub32 size flow.totalBufSize) = diff := ⟨_, rfl⟩
  have hgrow : flow.grow size = if 0 < diff then
      { flow with totalBufSize := (flow.totalBufSize + diff.toNat) % 2 ^ 32 } else flow := by
    apply grow_of
    rw [hsched, Nat.add_zero, Nat.mod_eq_of_lt hlt, hd]
  rw [hgrow]
  by_cases hkept : size ≤ flow.totalBufSize ∧ flow.totalBufSize ≤ size + 2 ^ 31
  · rw [if_pos hkept, if_neg (diff_nonpos hsize hlt hkept hd)]
  · obtain ⟨hpos, hsum⟩ := sum_diff hsize hlt hkept hd
    rw [if_neg hkept, if_pos hpos, hsum]

/-- The flow after a report of `size` bytes, of which there are some. -/
def FlowStats.growIf (size : Nat) (flow : FlowStats) : FlowStats :=
  if size = 0 then flow else flow.grow size

theorem growIf_spec {size : Nat} {flow : FlowStats} (hsize : size ≤ 150000)
    (hlt : flow.totalBufSize < 2 ^ 32) (hsched : flow.totalSchedSize = 0) :
    size ≤ (flow.growIf size).totalBufSize ∧
      (flow.growIf size).totalBufSize ≤ max flow.totalBufSize size ∧
      (flow.growIf size).totalSchedSize = 0 := by
  unfold FlowStats.growIf
  by_cases hzero : size = 0
  · rw [if_pos hzero]
    exact ⟨by omega, Nat.le_max_left _ _, hsched⟩
  · rw [if_neg hzero, grow_eq size (by omega) hlt hsched]
    refine ⟨?_, ?_, hsched⟩
    · dsimp only
      split_ifs <;> omega
    · dsimp only
      split_ifs <;> omega
/-- The size that a report has for a group. -/
def reportedSize (bufferStatus : List Nat) (lcg : Nat) : Nat :=
  BufferSizeLevelBsrTable.getD (bufferStatus.getD (lcg - 1) 0) 0

/-- The flows after a report on them. -/
def reportFlows (bufferStatus : List Nat) (flows : List FlowStats) : List FlowStats :=
  [1, 2, 3].foldl
    (fun flows lcg => flows.modify lcg (FlowStats.growIf (reportedSize bufferStatus lcg))) flows

theorem ulFlows_bsrOf {rnti other lcg : Nat} {bufferStatus : List Nat} {s s' : FlexTtiPf}
    (hstep : bsrOf other bufferStatus s lcg = .ok s') :
    ulFlows rnti s' = if other = rnti then (ulFlows rnti s).map fun flows =>
      flows.modify lcg (FlowStats.growIf (reportedSize bufferStatus lcg)) else ulFlows rnti s := by
  obtain ⟨bsrId, hbsrId, hstep⟩ := bind_eq_ok.1 hstep
  obtain ⟨bufSize, hbufSize, hstep⟩ := bind_eq_ok.1 hstep
  have hsize : reportedSize bufferStatus lcg = bufSize := by
    unfold bsrId2BufferSize at hbufSize
    split at hbufSize
    · rw [← Except.ok.inj hbufSize]
      unfold reportedSize
      congr 1
      rw [List.getD_eq_getElem?_getD, elementAt_eq_ok.1 hbsrId, Option.getD_some]
    · cases hbufSize
  rw [hsize]
  unfold ulFlows
  cases hfind : s.ueSchedInfoMap.find other with
  | none =>
      rw [hfind] at hstep
      rw [← pure_eq_ok.1 hstep]
      by_cases hother : other = rnti
      · rw [if_pos hother, ← hother, hfind]
        rfl
      · rw [if_neg hother]
  | some ue =>
      rw [hfind] at hstep
      dsimp only at hstep
      split at hstep
      · rename_i hzero
        have hid : FlowStats.growIf bufSize = id := by
          funext flow
          exact if_pos hzero
        have hsame : (ulFlows rnti s).map (·.modify lcg id) = ulFlows rnti s := by
          cases ulFlows rnti s with
          | none => rfl
          | some flows => exact congrArg some (List.modify_id lcg flows)
        rw [← pure_eq_ok.1 hstep, hid]
        by_cases hother : other = rnti
        · rw [if_pos hother]
          exact hsame.symm
        · rw [if_neg hother]
      · rename_i hsome
        obtain ⟨flow, hflow, hstep⟩ := bind_eq_ok.1 hstep
        rw [← pure_eq_ok.1 hstep]
        dsimp only
        rw [OrderedMap.find_adjust]
        by_cases hother : other = rnti
        · subst hother
          rw [if_pos rfl, if_pos rfl, hfind]
          have hset : ue.ul.flowStats.set lcg (flow.grow bufSize) =
              ue.ul.flowStats.modify lcg (FlowStats.growIf bufSize) := by
            rw [set_eq_modify (elementAt_eq_ok.1 hflow)]
            congr 1
            funext other
            exact (if_neg hsome).symm
          simp only [Option.map_some]
          rw [hset]
        · rw [if_neg (Ne.symm hother), if_neg hother]

theorem ulFlows_bsr {rnti other : Nat} {bufferStatus : List Nat} {s s' : FlexTtiPf}
    {flows : List FlowStats} (hstep : ulStep (.bsr other bufferStatus) s = .ok s')
    (hflows : ulFlows rnti s = some flows) :
    ulFlows rnti s' = some (if other = rnti then reportFlows bufferStatus flows else flows) := by
  change [(other, bufferStatus)].foldlM
    (fun s report => [1, 2, 3].foldlM (bsrOf report.1 report.2) s) s = .ok s' at hstep
  rw [List.foldlM_cons] at hstep
  obtain ⟨next, hnext, hdone⟩ := bind_eq_ok.1 hstep
  obtain rfl := pure_eq_ok.1 hdone
  have hview : ulFlows rnti next = [1, 2, 3].foldl (fun view lcg =>
      if other = rnti then view.map fun flows =>
        flows.modify lcg (FlowStats.growIf (reportedSize bufferStatus lcg))
      else view) (ulFlows rnti s) :=
    foldlM_view (fun b lcg b' hok => ulFlows_bsrOf hok) hnext
  rw [hview, hflows]
  by_cases hother : other = rnti
  · simp only [if_pos hother]
    rfl
  · simp only [if_neg hother]
    rfl

theorem getD_reportFlows {bufferStatus : List Nat} {flows : List FlowStats} {lcg : Nat}
    (hlength : 4 ≤ flows.length) (hlcg : lcg ∈ [1, 2, 3]) :
    (reportFlows bufferStatus flows).getD lcg { lcid := 0 } =
      (flows.getD lcg { lcid := 0 }).growIf (reportedSize bufferStatus lcg) := by
  match flows, hlength with
  | zero :: one :: two :: three :: rest, _ =>
      simp only [List.mem_cons, List.not_mem_nil, or_false] at hlcg
      rcases hlcg with rfl | rfl | rfl <;> rfl

theorem length_reportFlows (bufferStatus : List Nat) (flows : List FlowStats) :
    (reportFlows bufferStatus flows).length = flows.length := by
  unfold reportFlows
  simp only [List.foldl_cons, List.foldl_nil, List.length_modify]

/-- A flow after the report is one from before that may have grown. -/
theorem exists_of_mem_reportFlows {bufferStatus : List Nat} {flows : List FlowStats}
    {flow : FlowStats} (hlength : 4 ≤ flows.length)
    (hflow : flow ∈ reportFlows bufferStatus flows) :
    flow ∈ flows ∨ ∃ old ∈ flows, ∃ lcg, flow = old.growIf (reportedSize bufferStatus lcg) := by
  match flows, hlength with
  | zero :: one :: two :: three :: rest, _ =>
      change flow ∈ zero :: one.growIf _ :: two.growIf _ :: three.growIf _ :: rest at hflow
      simp only [List.mem_cons] at hflow ⊢
      rcases hflow with rfl | rfl | rfl | rfl | hrest
      · exact .inl (.inl rfl)
      · exact .inr ⟨one, .inr (.inl rfl), 1, rfl⟩
      · exact .inr ⟨two, .inr (.inr (.inl rfl)), 2, rfl⟩
      · exact .inr ⟨three, .inr (.inr (.inr (.inl rfl))), 3, rfl⟩
      · exact .inl (.inr (.inr (.inr (.inr hrest))))

theorem UlFlows.serveFlows {n : Nat} {flows : List FlowStats} (hul : UlFlows flows) :
    UlFlows (serveFlows n flows) := by
  refine ⟨(length_serveFlows n flows).symm ▸ hul.1, ?_⟩
  intro flow hflow
  obtain ⟨old, hold, hle, hsched⟩ := exists_of_mem_serveFlows hflow
  exact ⟨Nat.lt_of_le_of_lt hle (hul.2 old hold).1, hsched.trans (hul.2 old hold).2⟩

theorem reportedSize_le (bufferStatus : List Nat) (lcg : Nat) :
    reportedSize bufferStatus lcg ≤ 150000 :=
  bsrTable_le _

theorem UlFlows.reportFlows {flows : List FlowStats} (bufferStatus : List Nat)
    (hul : UlFlows flows) : UlFlows (reportFlows bufferStatus flows) := by
  refine ⟨(length_reportFlows bufferStatus flows).symm ▸ hul.1, ?_⟩
  intro flow hflow
  rcases exists_of_mem_reportFlows hul.1 hflow with hkept | ⟨old, hold, lcg, rfl⟩
  · exact hul.2 flow hkept
  · have hsize := reportedSize_le bufferStatus lcg
    obtain ⟨hlt, hsched⟩ := hul.2 old hold
    obtain ⟨-, hmax, hsched'⟩ := growIf_spec hsize hlt hsched
    refine ⟨Nat.lt_of_le_of_lt hmax ?_, hsched'⟩
    exact Nat.max_lt.2 ⟨hlt, Nat.lt_of_le_of_lt hsize (by decide)⟩

/-- A report keeps its promise. -/
theorem reported_reportFlows {flows : List FlowStats} (bufferStatus : List Nat)
    (hul : UlFlows flows) : Reported bufferStatus flows (reportFlows bufferStatus flows) := by
  intro lcg hlcg bsrId hbsrId
  have hsize : BufferSizeLevelBsrTable.getD bsrId 0 = reportedSize bufferStatus lcg := by
    unfold reportedSize
    rw [List.getD_eq_getElem?_getD (i := lcg - 1), hbsrId, Option.getD_some]
  have hmem : flows.getD lcg { lcid := 0 } ∈ flows := by
    have hlt : lcg < flows.length := by
      have := hul.1
      simp only [List.mem_cons, List.not_mem_nil, or_false] at hlcg
      omega
    rw [List.getD_eq_getElem?_getD, List.getElem?_eq_getElem hlt, Option.getD_some]
    exact List.getElem_mem hlt
  obtain ⟨hlt, hsched⟩ := hul.2 _ hmem
  obtain ⟨hge, hmax, -⟩ := growIf_spec (reportedSize_le bufferStatus lcg) hlt hsched
  dsimp only
  rw [hsize, getD_reportFlows hul.1 hlcg]
  exact ⟨Nat.le_trans hge (Nat.le_add_right _ _), hmax⟩

/-! ## Runs -/

/-- What an event does to the flows of a UE. -/
def ulEffect (rnti : Nat) (flows : List FlowStats) : UlEvent → List FlowStats
  | .bsr other bufferStatus => if other = rnti then reportFlows bufferStatus flows else flows
  | .grant other size => if other = rnti then serveFlows (grantSize size) flows else flows

theorem ulFlows_ulStep {rnti : Nat} {event : UlEvent} {s s' : FlexTtiPf}
    {flows : List FlowStats} (hul : UlFlows flows) (hflows : ulFlows rnti s = some flows)
    (hstep : ulStep event s = .ok s') : ulFlows rnti s' = some (ulEffect rnti flows event) := by
  cases event with
  | bsr other bufferStatus => exact ulFlows_bsr hstep hflows
  | grant other size => exact ulFlows_grant hstep hflows hul.1

theorem UlFlows.ulEffect {rnti : Nat} {flows : List FlowStats} (hul : UlFlows flows)
    (event : UlEvent) : UlFlows (ulEffect rnti flows event) := by
  cases event with
  | bsr other bufferStatus =>
      unfold FlexTtiPf.ulEffect
      dsimp only
      split
      · exact hul.reportFlows bufferStatus
      · exact hul
  | grant other size =>
      unfold FlexTtiPf.ulEffect
      dsimp only
      split
      · exact hul.serveFlows
      · exact hul

/-- An event keeps its promise exactly if it is no grant that is too small for its overheads while
something waits. -/
theorem ulPromise_iff (rnti : Nat) (event : UlEvent) {flows : List FlowStats}
    (hul : UlFlows flows) :
    UlPromise rnti flows (ulEffect rnti flows event) event ↔
      ∀ size, event = .grant rnti size → ulOverhead ≤ size ∨ waitingUl flows = 0 := by
  cases event with
  | bsr other bufferStatus =>
      refine ⟨fun _ size h => (UlEvent.noConfusion h), fun _ => ?_⟩
      unfold UlPromise ulEffect
      dsimp only
      split
      · exact reported_reportFlows bufferStatus hul
      · rfl
  | grant other size =>
      unfold UlPromise ulEffect
      dsimp only
      by_cases hother : other = rnti
      · rw [if_pos hother, if_pos hother, served_iff hul.1]
        constructor
        · intro hcovers size' heq
          obtain ⟨-, rfl⟩ := UlEvent.grant.inj heq
          exact hcovers
        · intro hcovers
          exact hcovers size (by rw [hother])
      · rw [if_neg hother, if_neg hother]
        refine ⟨fun _ size' heq => ?_, fun _ => rfl⟩
        exact (hother (UlEvent.grant.inj heq).1).elim

theorem keepsPromises_iff {rnti : Nat} {events : List UlEvent} {s : FlexTtiPf}
    {flows : List FlowStats} (hul : UlFlows flows) (hflows : ulFlows rnti s = some flows) :
    KeepsPromises rnti events s ↔ GrantsCover rnti events s := by
  induction events generalizing s flows with
  | nil => exact Iff.rfl
  | cons event events ih =>
      unfold KeepsPromises GrantsCover
      refine forall_congr' fun s' => imp_congr_right fun hstep => ?_
      have hflows' := ulFlows_ulStep hul hflows hstep
      refine and_congr ?_ (ih (hul.ulEffect event) hflows')
      rw [hflows, hflows']
      have hpromise := ulPromise_iff rnti event hul
      constructor
      · intro hkeeps size heq
        rcases hpromise.1 (hkeeps flows rfl _ rfl) size heq with hle | hnone
        · exact .inl hle
        · exact .inr fun other hother => Option.some.inj hother ▸ hnone
      · intro hcovers before hbefore after hafter
        obtain rfl := Option.some.inj hbefore
        obtain rfl := Option.some.inj hafter
        refine hpromise.2 fun size heq => ?_
        rcases hcovers size heq with hle | hnone
        · exact .inl hle
        · exact .inr (hnone flows rfl)

/-- The uplink demand follows the reports and the grants of a run exactly if each grant of the UE
covers its overheads or finds no demand. A smaller one is taken for a grant of nearly `2 ^ 16`
bytes. -/
theorem uplinkDemand_iff_grantsCover (rnti : Nat) (events : List UlEvent) (s : FlexTtiPf)
    (hconfigured : UlConfigured rnti s) :
    KeepsPromises rnti events s ↔ GrantsCover rnti events s := by
  obtain ⟨flows, hflows, hul⟩ := hconfigured
  exact keepsPromises_iff hul hflows

theorem ulConfigured_configured : UlConfigured 1 configured :=
  ulConfigured_cschedUeConfigReq tenBytes (s := start tenBytes) false false 0 rfl

theorem uplinkDemand_tenBytes :
    UlConfigured 1 configured ∧
      (KeepsPromises 1 [.bsr 1 [1, 0, 0, 0], .grant 1 6] configured ↔
        GrantsCover 1 [.bsr 1 [1, 0, 0, 0], .grant 1 6] configured) :=
  ⟨ulConfigured_configured, uplinkDemand_iff_grantsCover 1 _ configured ulConfigured_configured⟩

/-- A grant of three bytes empties a group for which ten bytes were reported. -/
theorem not_uplinkDemand_threeBytes :
    UlConfigured 1 configured ∧
      ¬ KeepsPromises 1 [.bsr 1 [1, 0, 0, 0], .grant 1 3] configured := by
  refine ⟨ulConfigured_configured, ?_⟩
  obtain ⟨reported, hreported⟩ : ∃ s, ulStep (.bsr 1 [1, 0, 0, 0]) configured = .ok s :=
    ⟨_, rfl⟩
  obtain ⟨flows, hflows, hul⟩ := ulConfigured_configured
  have hflows' := ulFlows_ulStep hul hflows hreported
  have hwaits : waitingUl (ulEffect 1 flows (.bsr 1 [1, 0, 0, 0])) = 10 := by
    obtain rfl : newUe.ul.flowStats = flows := Option.some.inj hflows
    decide
  obtain ⟨ue, hfind, hue⟩ := Option.map_eq_some_iff.1 hflows'
  have hlength : 4 ≤ ue.ul.flowStats.length := hue ▸ (hul.ulEffect _).1
  have hgranted : ∃ s, ulStep (.grant 1 3) reported = .ok s := by
    refine ⟨_, bind_eq_ok.2 ⟨_, updateUl_eq hfind hlength, rfl⟩⟩
  obtain ⟨granted, hgranted⟩ := hgranted
  intro hkeeps
  have hcovers := (keepsPromises_iff hul hflows).1 hkeeps
  rcases ((hcovers reported hreported).2 granted hgranted).1 3 rfl with hle | hnone
  · exact absurd hle (by decide)
  · have hzero := hnone _ hflows'
    omega

end FlexTtiPf

end NtnIab.Mmwave
