import Mathlib.Algebra.BigOperators.Group.List.Basic
import NtnIab.Mmwave.FlowTurns

/-!
# The division of the symbols between the UEs

The rounds end, no flow gets more than it wants, and no symbol is given out twice. But they can end
with symbols left, when every flow that still lacks some has more than the average.

## Strategy

The loop of the source runs over UEs, each with two flows. A round of it is one over the flows
(`turns_eq`), since neither its assertions fail nor its numbers of 8 bits overflow. Each round but
the last gives out a symbol (`divide_ends`), and flows that could take some after the last one had
more than the average in it.
-/

namespace NtnIab.Mmwave

namespace FlexTti

open Fallible

variable {owed unmet : Nat} {d : Division}

/-! ## The loop over the UEs -/

/-- The flows of a UE, in the order of their turns. -/
def UeSchedInfo.flows (ue : UeSchedInfo) : List Flow :=
  [⟨ue.maxDlSymbols, ue.dlSymbols, true⟩, ⟨ue.maxUlSymbols, ue.ulSymbols, false⟩]

def entryOf (ueInfo : OrderedMap UeSchedInfo) (rnti : Nat) : UeSchedInfo :=
  (ueInfo.find rnti).getD {}

def flowsOf (order : List Nat) (ueInfo : OrderedMap UeSchedInfo) : List Flow :=
  order.flatMap fun rnti => (entryOf ueInfo rnti).flows

/-- A UE without retransmissions. Demands have 8 bits. -/
structure UeSchedInfo.Plain (ue : UeSchedInfo) : Prop where
  dlSymbolsRetx : ue.dlSymbolsRetx = 0
  ulSymbolsRetx : ue.ulSymbolsRetx = 0
  maxDlSymbols_lt : ue.maxDlSymbols < 2 ^ 8
  maxUlSymbols_lt : ue.maxUlSymbols < 2 ^ 8

section
variable {c : FlexTtiConfig} {ue : UeSchedInfo} {f' : Flow} {d' : Division}

/-- The turn of a downlink flow in the source. -/
theorem dlShare_eq (hfixed : c.fixedTti = false) (hue : ue.Plain)
    (hwithin : ue.dlSymbols ≤ ue.maxDlSymbols) (hleft : 0 < d.remSym)
    (hturn : Flow.turn ⟨ue.maxDlSymbols, ue.dlSymbols, true⟩ d = some (f', d'))
    (hnonneg : 0 ≤ d'.remSym) (hend : f'.has ≤ ue.maxDlSymbols) :
    dlShare c ue d = .ok (some ({ ue with dlSymbols := f'.has }, d')) := by
  have hslots : ∀ n, wholeSlots c n = n := fun n => by simp [wholeSlots, hfixed]
  have hlt := hue.maxDlSymbols_lt
  have hsum : ue.dlSymbols + ue.dlSymbolsRetx = ue.dlSymbols := by
    rw [hue.dlSymbolsRetx, Nat.add_zero]
  unfold dlShare
  dsimp only
  rw [assert, if_pos (by omega), ok_bind, hslots, hsum]
  unfold Flow.turn at hturn
  dsimp only at hturn
  by_cases hcond : 0 < (ue.maxDlSymbols : Int) - ue.dlSymbols ∧
      (ue.dlSymbols : Int) ≤ d.nSymPerFlow0
  · rw [if_pos ⟨hleft, hcond⟩] at hturn
    rw [if_pos hcond]
    cases hshare : d.share ((ue.maxDlSymbols : Int) - ue.dlSymbols) with
    | none =>
        rw [hshare] at hturn
        cases hturn
    | some result =>
        rw [hshare] at hturn
        cases hturn
        dsimp only at hnonneg hend ⊢
        rw [Division.give, assert, if_pos hnonneg, ok_bind, Nat.mod_eq_of_lt (by omega),
          Bool.true_or]
        rfl
  · rw [if_neg fun h => hcond h.2] at hturn
    rw [if_neg hcond]
    cases hturn
    rfl

/-- The turn of an uplink flow. -/
theorem ulShare_eq (hfixed : c.fixedTti = false) (hue : ue.Plain)
    (hwithin : ue.ulSymbols ≤ ue.maxUlSymbols)
    (hturn : Flow.turn ⟨ue.maxUlSymbols, ue.ulSymbols, false⟩ d = some (f', d'))
    (hnonneg : 0 ≤ d'.remSym) (hend : f'.has ≤ ue.maxUlSymbols) :
    ulShare c ue d = .ok (some ({ ue with ulSymbols := f'.has }, d')) := by
  have hslots : ∀ n, wholeSlots c n = n := fun n => by simp [wholeSlots, hfixed]
  have hlt := hue.maxUlSymbols_lt
  have hsum : ue.ulSymbols + ue.ulSymbolsRetx = ue.ulSymbols := by
    rw [hue.ulSymbolsRetx, Nat.add_zero]
  unfold ulShare
  dsimp only
  rw [assert, if_pos (by omega), ok_bind, hslots, hslots, hsum]
  unfold Flow.turn at hturn
  dsimp only at hturn
  split at hturn
  · rename_i hcond
    rw [if_pos hcond]
    cases hshare : d.share ((ue.maxUlSymbols : Int) - ue.ulSymbols) with
    | none =>
        rw [hshare] at hturn
        cases hturn
    | some result =>
        rw [hshare] at hturn
        cases hturn
        dsimp only at hnonneg hend ⊢
        rw [Division.give, assert, if_pos hnonneg, ok_bind, Nat.mod_eq_of_lt (by omega),
          Bool.false_or]
        rfl
  · rename_i hcond
    rw [if_neg hcond]
    cases hturn
    rfl

end

/-- A round without symbols does nothing. -/
theorem round_of_empty (hempty : d.remSym ≤ 0) (flows : List Flow) :
    round flows d = some (flows, d) := by
  induction flows with
  | nil => rfl
  | cons f rest ih =>
      rw [round, Flow.turn, if_neg fun h => by omega, Option.bind_some, ih, Option.map_some]

/-- A UE without the symbols that it has. -/
def UeSchedInfo.cleared (ue : UeSchedInfo) : UeSchedInfo :=
  { ue with dlSymbols := 0, ulSymbols := 0 }

/-- Two maps have the same UEs, up to the symbols given to them. -/
def SameUes (ueInfo ueInfo' : OrderedMap UeSchedInfo) : Prop :=
  ueInfo'.keys = ueInfo.keys ∧
    ∀ rnti, (ueInfo'.find rnti).map UeSchedInfo.cleared =
      (ueInfo.find rnti).map UeSchedInfo.cleared

section
variable {c : FlexTtiConfig} {order : List Nat} {ueInfo ueInfo' : OrderedMap UeSchedInfo}

theorem SameUes.refl : SameUes ueInfo ueInfo := ⟨rfl, fun _ => rfl⟩

theorem SameUes.trans {ueInfo'' : OrderedMap UeSchedInfo} (h : SameUes ueInfo ueInfo')
    (h' : SameUes ueInfo' ueInfo'') : SameUes ueInfo ueInfo'' :=
  ⟨h'.1.trans h.1, fun rnti => (h'.2 rnti).trans (h.2 rnti)⟩

/-- What is found after two changes of one UE. -/
theorem find_adjust_adjust {rnti : Nat} {ue first second : UeSchedInfo}
    (hfind : ueInfo.find rnti = some ue) (k : Nat) :
    ((ueInfo.adjust rnti fun _ => first).adjust rnti fun _ => second).find k =
      if k = rnti then some second else ueInfo.find k := by
  rw [OrderedMap.find_adjust, OrderedMap.find_adjust]
  split
  · rename_i heq
    rw [heq, hfind]
    rfl
  · rfl

theorem SameUes.adjust_adjust {rnti : Nat} {ue first second : UeSchedInfo}
    (hfind : ueInfo.find rnti = some ue) (hcleared : second.cleared = ue.cleared) :
    SameUes ueInfo ((ueInfo.adjust rnti fun _ => first).adjust rnti fun _ => second) := by
  refine ⟨OrderedMap.keys_adjust.trans OrderedMap.keys_adjust, fun k => ?_⟩
  rw [find_adjust_adjust hfind]
  split
  · rename_i heq
    rw [heq, hfind, Option.map_some, Option.map_some, hcleared]
  · rfl

theorem SameUes.entryOf_cleared (h : SameUes ueInfo ueInfo') (rnti : Nat) :
    (entryOf ueInfo' rnti).cleared = (entryOf ueInfo rnti).cleared := by
  have heq := h.2 rnti
  unfold entryOf
  cases hfind : ueInfo.find rnti with
  | none =>
      rw [hfind, Option.map_none, Option.map_eq_none_iff] at heq
      rw [heq]
  | some ue =>
      rw [hfind, Option.map_some, Option.map_eq_some_iff] at heq
      obtain ⟨ue', hfind', hue⟩ := heq
      rw [hfind']
      exact hue

/-- What the UEs keep. -/
theorem plain_of_cleared {ue ue' : UeSchedInfo} (heq : ue'.cleared = ue.cleared) (hue : ue.Plain) :
    ue'.Plain where
  dlSymbolsRetx := (congrArg UeSchedInfo.dlSymbolsRetx heq).trans hue.dlSymbolsRetx
  ulSymbolsRetx := (congrArg UeSchedInfo.ulSymbolsRetx heq).trans hue.ulSymbolsRetx
  maxDlSymbols_lt := (congrArg UeSchedInfo.maxDlSymbols heq).trans_lt hue.maxDlSymbols_lt
  maxUlSymbols_lt := (congrArg UeSchedInfo.maxUlSymbols heq).trans_lt hue.maxUlSymbols_lt

theorem flowsOf_congr (heq : ∀ rnti ∈ order, ueInfo'.find rnti = ueInfo.find rnti) :
    flowsOf order ueInfo' = flowsOf order ueInfo := by
  unfold flowsOf
  refine List.flatMap_congr fun rnti hrnti => ?_
  rw [entryOf, heq rnti hrnti]
  rfl

/-- A round over the UEs is one over their flows. It is not left early, and stops on the way only
if no symbol is left. -/
theorem turns_eq (hfixed : c.fixedTti = false) (hnodup : order.Nodup)
    (hkeys : ∀ rnti ∈ order, rnti ∈ ueInfo.keys)
    (hplain : ∀ rnti ∈ order, (entryOf ueInfo rnti).Plain)
    (h : Fair owed unmet (flowsOf order ueInfo) d) :
    ∃ result, turns c order ueInfo d = .ok result ∧
      round (flowsOf order ueInfo) d = some (flowsOf order result.ueInfo, result.division) ∧
      result.left = false ∧ (result.stoppedAt.isSome = true → result.division.remSym ≤ 0) ∧
      SameUes ueInfo result.ueInfo ∧
      ∀ k, k ∉ order → result.ueInfo.find k = ueInfo.find k := by
  induction order generalizing owed unmet ueInfo d with
  | nil =>
      exact ⟨⟨ueInfo, d, none, false⟩, rfl, rfl, rfl, nofun, .refl, fun _ _ => rfl⟩
  | cons rnti rest ih =>
      unfold turns
      split
      · rename_i hempty
        exact ⟨_, rfl, round_of_empty hempty _, rfl, fun _ => hempty, .refl, fun _ _ => rfl⟩
      · rename_i hleft
        obtain ⟨hnotin, hrest⟩ := List.nodup_cons.1 hnodup
        have hfind : ueInfo.find rnti = some (entryOf ueInfo rnti) := by
          obtain ⟨ue, hue⟩ := Option.isSome_iff_exists.1
            (OrderedMap.mem_keys_iff.1 (hkeys rnti List.mem_cons_self))
          rw [entryOf, hue]
          rfl
        obtain ⟨ue, hue⟩ : ∃ ue, ue = entryOf ueInfo rnti := ⟨_, rfl⟩
        have hplainUe : ue.Plain := hue ▸ hplain rnti List.mem_cons_self
        have hflows : flowsOf (rnti :: rest) ueInfo =
            ⟨ue.maxDlSymbols, ue.dlSymbols, true⟩ ::
              ⟨ue.maxUlSymbols, ue.ulSymbols, false⟩ :: flowsOf rest ueInfo := by
          rw [hue]
          rfl
        rw [hflows] at h
        rw [← hue] at hfind
        -- the two turns
        obtain ⟨dl, afterDl, hdl, hdlTurned, hbetween⟩ := h.turn
        obtain ⟨ul, afterUl, hul, hulTurned, hnext⟩ := hbetween.turn
        have hdlWants : dl.wants = ue.maxDlSymbols := hdlTurned.wants_eq
        have hulWants : ul.wants = ue.maxUlSymbols := hulTurned.wants_eq
        have hdlShare := dlShare_eq hfixed hplainUe (h.within _ List.mem_cons_self)
          (Int.not_le.1 hleft) hdl hbetween.nonneg (hdlWants ▸ hdlTurned.within)
        have hplainDl : ({ ue with dlSymbols := dl.has } : UeSchedInfo).Plain :=
          plain_of_cleared (show _ = ue.cleared from rfl) hplainUe
        have hulShare := ulShare_eq hfixed hplainDl (hbetween.within _ List.mem_cons_self) hul
          hnext.nonneg (hulWants ▸ hulTurned.within)
        -- the map after them
        obtain ⟨next, hnextEq⟩ : ∃ next, next =
            (ueInfo.adjust rnti fun _ => { ue with dlSymbols := dl.has }).adjust rnti fun _ =>
              { ue with dlSymbols := dl.has, ulSymbols := ul.has } := ⟨_, rfl⟩
        have hsame : SameUes ueInfo next := hnextEq ▸ SameUes.adjust_adjust hfind rfl
        have hfindNext : ∀ k, next.find k = if k = rnti then
            some { ue with dlSymbols := dl.has, ulSymbols := ul.has } else ueInfo.find k :=
          fun k => hnextEq ▸ find_adjust_adjust hfind k
        have hothers : ∀ k, k ≠ rnti → next.find k = ueInfo.find k :=
          fun k hk => (hfindNext k).trans (if_neg hk)
        have hrestFlows : flowsOf rest next = flowsOf rest ueInfo :=
          flowsOf_congr fun k hk => hothers k fun heq => hnotin (heq ▸ hk)
        rw [← hrestFlows] at hnext
        obtain ⟨result, hok, hround, hleftFalse, hstopped, hsameRest, hframe⟩ :=
          ih hrest (fun k hk => hsame.1 ▸ hkeys k (List.mem_cons_of_mem _ hk))
            (fun k hk => plain_of_cleared (hsame.entryOf_cleared k)
              (hplain k (List.mem_cons_of_mem _ hk))) hnext
        refine ⟨result, ?_, ?_, hleftFalse, hstopped, hsame.trans hsameRest, ?_⟩
        · rw [hfind, Option.getD_some]
          dsimp only
          rw [blame_eq_ok.2 hdlShare, ok_bind]
          dsimp only
          rw [blame_eq_ok.2 hulShare, ok_bind]
          dsimp only
          rw [← hnextEq]
          exact hok
        · have hhead : flowsOf (rnti :: rest) result.ueInfo =
              dl :: ul :: flowsOf rest result.ueInfo := by
            have hentry : entryOf result.ueInfo rnti =
                { ue with dlSymbols := dl.has, ulSymbols := ul.has } := by
              rw [entryOf, hframe rnti hnotin, hfindNext, if_pos rfl]
              rfl
            show (entryOf result.ueInfo rnti).flows ++ flowsOf rest result.ueInfo = _
            rw [hentry, ← hdlTurned.flow_eq, ← hulTurned.flow_eq]
            rfl
          rw [hflows, hhead, round, hdl, Option.bind_some, round, hul, Option.bind_some,
            ← hrestFlows, hround]
          rfl
        · intro k hk
          rw [List.mem_cons, not_or] at hk
          rw [hframe k hk.2, hothers k hk.1]

/-! ## All rounds -/

/-- There is another round. -/
def Division.Goes (d : Division) : Prop :=
  0 < d.remSym ∧ d.allocated = true ∧ 0 < d.nFlowsTot

instance (d : Division) : Decidable d.Goes :=
  inferInstanceAs (Decidable (0 < d.remSym ∧ d.allocated = true ∧ 0 < d.nFlowsTot))

/-- A division at the beginning of a round. -/
def Division.nextRound (c : FlexTtiConfig) (d : Division) : Division :=
  { d with
    allocated := false
    nRemSymPerFlow := wholeSlots c
      (if d.remSym.tdiv d.nFlowsTot = 0 then 1 else d.remSym.tdiv d.nFlowsTot) }

/-- The rounds lead from one map to another, and `average` is the overall one at the beginning of
the last round. -/
inductive LastRound (c : FlexTtiConfig) (order : List Nat) :
    OrderedMap UeSchedInfo → Division → OrderedMap UeSchedInfo → Int → Prop
  | last {ueInfo : OrderedMap UeSchedInfo} {d : Division} {result : Turns} (goes : d.Goes)
      (turned : turns c order ueInfo (d.nextRound c) = .ok result)
      (ends : ¬ result.division.Goes) :
      LastRound c order ueInfo d result.ueInfo d.nSymPerFlow0
  | later {ueInfo ueInfo' : OrderedMap UeSchedInfo} {d : Division} {result : Turns}
      {average : Int} (goes : d.Goes)
      (turned : turns c order ueInfo (d.nextRound c) = .ok result)
      (rest : LastRound c order result.ueInfo result.division ueInfo' average) :
      LastRound c order ueInfo d ueInfo' average

/-- What holds between two rounds. -/
structure Level (flows : List Flow) (d : Division) : Prop where
  nonneg : 0 ≤ d.remSym
  wanted : d.remSym ≤ lack flows
  counted : (lacking flows : Int) ≤ d.nFlowsTot
  within : ∀ f ∈ flows, f.has ≤ f.wants

theorem Level.fair {flows : List Flow} (h : Level flows d) (hfixed : c.fixedTti = false)
    (hgoes : d.Goes) : Fair 0 0 flows (d.nextRound c) := by
  obtain ⟨hleft, -, hsome⟩ := hgoes
  have hshare : (d.nextRound c).nRemSymPerFlow =
      if d.remSym.tdiv d.nFlowsTot = 0 then 1 else d.remSym.tdiv d.nFlowsTot := by
    simp [Division.nextRound, wholeSlots, hfixed]
  have hquot : 0 ≤ d.remSym.tdiv d.nFlowsTot := Int.tdiv_nonneg h.nonneg (Int.le_of_lt hsome)
  refine ⟨h.nonneg, ?_, fun _ => rfl, ?_, ?_, ?_, h.within⟩
  · rw [Nat.zero_add]
    exact h.wanted
  · rw [Nat.zero_add]
    exact h.counted
  · rw [hshare]
    split <;> omega
  · rw [hshare]
    split
    · exact .inr (.inl rfl)
    · refine .inr (.inr (.inl ?_))
      rw [Int.tdiv_eq_ediv_of_nonneg h.nonneg]
      exact Int.ediv_mul_le _ (by omega)

theorem within_of_served {flows flows' : List Flow} (hserved : List.Forall₂ Served flows flows') :
    ∀ f' ∈ flows', f'.has ≤ f'.wants := by
  induction hserved with
  | nil => exact fun f' hf' => (List.not_mem_nil hf').elim
  | cons hserved _ ih =>
      intro f' hf'
      rcases List.mem_cons.1 hf' with rfl | hf'
      · exact hserved.within
      · exact ih f' hf'

theorem level_of_round {flows flows' : List Flow} {d' : Division}
    (hserved : List.Forall₂ Served flows flows')
    (hfair : Fair (0 + lack flows') (0 + lacking flows') [] d') : Level flows' d' where
  nonneg := hfair.nonneg
  wanted := by simpa [lack] using hfair.wanted
  counted := by simpa [lacking] using hfair.counted
  within := within_of_served hserved

/-- Where the rounds end. -/
structure Ends (c : FlexTtiConfig) (order : List Nat) (ueInfo : OrderedMap UeSchedInfo)
    (d : Division) (result : Turns) : Prop where
  same : SameUes ueInfo result.ueInfo
  served : List.Forall₂ Served (flowsOf order ueInfo) (flowsOf order result.ueInfo)
  given : result.division.remSym = d.remSym -
    ((had (flowsOf order result.ueInfo) : Int) - had (flowsOf order ueInfo))
  nonneg : 0 ≤ result.division.remSym
  held : (result.ueInfo = ueInfo ∧ result.division = d ∧ ¬ d.Goes) ∨
    ∃ average, LastRound c order ueInfo d result.ueInfo average ∧
      ∀ f' ∈ flowsOf order result.ueInfo, f'.Lacks →
        result.division.remSym = 0 ∨ average < f'.has

theorem forall₂_served_refl {flows : List Flow} (hwithin : ∀ f ∈ flows, f.has ≤ f.wants) :
    List.Forall₂ Served flows flows :=
  List.forall₂_same.2 fun f hf => ⟨rfl, rfl, Nat.le_refl _, hwithin f hf⟩

theorem forall₂_served_trans {flows flows' flows'' : List Flow}
    (h : List.Forall₂ Served flows flows') (h' : List.Forall₂ Served flows' flows'') :
    List.Forall₂ Served flows flows'' := by
  induction h generalizing flows'' with
  | nil => exact h'
  | cons hserved _ ih =>
      cases h' with
      | cons hserved' hrest => exact .cons (hserved.trans hserved') (ih hrest)

theorem divide_succ (rounds : Nat) :
    divide c order (rounds + 1) ueInfo d =
      if d.Goes then do
        let round ← turns c order ueInfo (d.nextRound c)
        if round.left = true ∨ round.stoppedAt.isSome = true then pure round
        else divide c order rounds round.ueInfo round.division
      else pure { ueInfo, division := d } := rfl

/-- The rounds end since each one but the last gives out a symbol. -/
theorem divide_ends (hfixed : c.fixedTti = false) (hnodup : order.Nodup) {rounds : Nat}
    (hkeys : ∀ rnti ∈ order, rnti ∈ ueInfo.keys)
    (hplain : ∀ rnti ∈ order, (entryOf ueInfo rnti).Plain)
    (hlevel : Level (flowsOf order ueInfo) d) (hpos : 0 < rounds)
    (hrounds : d.Goes → d.remSym < rounds) :
    ∃ result, divide c order rounds ueInfo d = .ok result ∧ Ends c order ueInfo d result := by
  induction rounds generalizing ueInfo d with
  | zero => omega
  | succ rounds ih =>
      rw [divide_succ]
      by_cases hgoes : d.Goes
      · have hfair := hlevel.fair hfixed hgoes
        obtain ⟨flows', d', hround, hrounded, hend⟩ := hfair.round
        obtain ⟨round, hturns, hroundEq, hleft, hstopped, hsame, -⟩ :=
          turns_eq hfixed hnodup hkeys hplain hfair
        rw [hroundEq, Option.some.injEq, Prod.mk.injEq] at hround
        obtain ⟨rfl, rfl⟩ := hround
        have hnext := level_of_round hrounded.served hend
        have hleast := hrounds hgoes
        have hbefore : (d.nextRound c).remSym = d.remSym := rfl
        have hgiven := hrounded.given
        rw [hbefore] at hgiven
        -- a flow that lacks symbols after the last round
        have hheld : ¬ round.division.Goes → ∀ f' ∈ flowsOf order round.ueInfo, f'.Lacks →
            round.division.remSym = 0 ∨ d.nSymPerFlow0 < f'.has := by
          intro hends f' hf' hlacks
          rcases hrounded.held f' hf' hlacks with hzero | hallocated | hover
          · exact .inl hzero
          · have hcounted := hnext.counted
            have hmem : 0 < lacking (flowsOf order round.ueInfo) :=
              List.countP_pos_iff.2 ⟨f', hf', decide_eq_true hlacks⟩
            have hnonneg := hnext.nonneg
            by_contra hnone
            exact hends ⟨by omega, hallocated, by omega⟩
          · exact .inr hover
        rw [if_pos hgoes, hturns, ok_bind]
        split
        · rename_i hstop
          have hempty : round.division.remSym ≤ 0 := by
            rcases hstop with hstop | hstop
            · exact absurd (hleft.symm.trans hstop) Bool.false_ne_true
            · exact hstopped hstop
          have hends : ¬ round.division.Goes := fun h => absurd h.1 (by omega)
          exact ⟨round, rfl, hsame, hrounded.served, hgiven, hnext.nonneg,
            .inr ⟨_, .last hgoes hturns hends, hheld hends⟩⟩
        · have hless : round.division.Goes → round.division.remSym < rounds := by
            intro hmore
            rcases hrounded.progress hmore.2.1 with hfalse | hless
            · cases hfalse
            · omega
          obtain ⟨result, hok, hresult⟩ := ih
            (fun rnti hrnti => hsame.1 ▸ hkeys rnti hrnti)
            (fun rnti hrnti => plain_of_cleared (hsame.entryOf_cleared rnti)
              (hplain rnti hrnti)) hnext (by have := hgoes.1; omega) hless
          have hlast := hresult.given
          refine ⟨result, hok, hsame.trans hresult.same,
            forall₂_served_trans hrounded.served hresult.served, by omega, hresult.nonneg, .inr ?_⟩
          rcases hresult.held with ⟨hueInfo, hdivision, hends⟩ | ⟨average, hrest, hcapped⟩
          · rw [hueInfo, hdivision]
            exact ⟨_, .last hgoes hturns hends, hheld hends⟩
          · exact ⟨average, .later hgoes hturns hrest, hcapped⟩
      · rw [if_neg hgoes]
        exact ⟨_, rfl, .refl, forall₂_served_refl hlevel.within, by dsimp only; omega,
          hlevel.nonneg, .inl ⟨rfl, rfl, hgoes⟩⟩

/-! ## The division as a whole -/

/-- A UE before the division. -/
structure UeSchedInfo.Fresh (ue : UeSchedInfo) : Prop extends ue.Plain where
  dlSymbols : ue.dlSymbols = 0
  ulSymbols : ue.ulSymbols = 0

/-- The symbols that the UEs have. -/
def given (ueInfo : OrderedMap UeSchedInfo) : Nat :=
  (ueInfo.map fun entry => entry.2.dlSymbols + entry.2.ulSymbols).sum

/-- The symbols that they want. -/
def demanded (ueInfo : OrderedMap UeSchedInfo) : Nat :=
  (ueInfo.map fun entry => entry.2.maxDlSymbols + entry.2.maxUlSymbols).sum

/-- How many directions want symbols. -/
def wanting (ueInfo : OrderedMap UeSchedInfo) : Nat :=
  (ueInfo.map fun entry =>
    (if 0 < entry.2.maxDlSymbols then 1 else 0) + if 0 < entry.2.maxUlSymbols then 1 else 0).sum

/-- No flow gets more than it wants, and all together no more than there are symbols. -/
structure SharedOut (ueInfo : OrderedMap UeSchedInfo) (symAvail : Nat)
    (ueInfo' : OrderedMap UeSchedInfo) : Prop where
  same : SameUes ueInfo ueInfo'
  within : ∀ entry ∈ ueInfo', entry.2.dlSymbols ≤ entry.2.maxDlSymbols ∧
    entry.2.ulSymbols ≤ entry.2.maxUlSymbols
  available : given ueInfo' ≤ symAvail

/-- Every flow has what it wants, or as many symbols are given out as there are or are wanted. -/
def WorkConserving (symAvail : Nat) (ueInfo : OrderedMap UeSchedInfo) : Prop :=
  (∀ entry ∈ ueInfo, entry.2.dlSymbols = entry.2.maxDlSymbols ∧
    entry.2.ulSymbols = entry.2.maxUlSymbols) ∨
  given ueInfo = min symAvail (demanded ueInfo)

/-- Every flow that lacks symbols has more than the average. -/
def HeldBack (average : Int) (ueInfo : OrderedMap UeSchedInfo) : Prop :=
  ∀ entry ∈ ueInfo,
    (entry.2.dlSymbols < entry.2.maxDlSymbols → average < entry.2.dlSymbols) ∧
    (entry.2.ulSymbols < entry.2.maxUlSymbols → average < entry.2.ulSymbols)

/-- The division before the first round. -/
def Division.first (c : FlexTtiConfig) (flows : Flows) (symAvail : Int) : Division where
  remSym := min (demanded flows.ueInfo : Int) symAvail
  nFlowsTot := flows.nFlowsTot
  nSymPerFlow0 := wholeSlots c
    (if (min (demanded flows.ueInfo : Int) symAvail).tdiv flows.nFlowsTot = 0 then 1
    else (min (demanded flows.ueInfo : Int) symAvail).tdiv flows.nFlowsTot)

theorem rotation_perm (rnti : Nat) (rntis : List Nat) : (rotation rnti rntis).Perm rntis := by
  unfold rotation
  split
  · refine List.perm_append_comm.trans ?_
    rw [List.takeWhile_append_dropWhile]
  · exact .refl _

/-- The flows of all UEs, in any order. -/
theorem flowsOf_perm (hnodup : ueInfo.keys.Nodup) (hperm : order.Perm ueInfo.keys) :
    (flowsOf order ueInfo).Perm (ueInfo.flatMap fun entry => entry.2.flows) := by
  refine (hperm.flatMap_right _).trans (.of_eq ?_)
  rw [OrderedMap.keys, List.flatMap_map]
  refine List.flatMap_congr fun entry hentry => ?_
  rw [entryOf, OrderedMap.find_of_mem hnodup hentry]
  rfl

theorem had_flatMap : had (ueInfo.flatMap fun entry => entry.2.flows) = given ueInfo := by
  induction ueInfo with
  | nil => rfl
  | cons entry rest ih =>
      have hgiven : given (entry :: rest) =
          entry.2.dlSymbols + entry.2.ulSymbols + given rest := by simp [given]
      rw [hgiven, ← ih]
      simp [had, UeSchedInfo.flows, Nat.add_assoc]

theorem lack_flatMap (hfresh : ∀ entry ∈ ueInfo, entry.2.Fresh) :
    lack (ueInfo.flatMap fun entry => entry.2.flows) = demanded ueInfo := by
  induction ueInfo with
  | nil => rfl
  | cons entry rest ih =>
      have hentry := hfresh entry List.mem_cons_self
      have hdemanded : demanded (entry :: rest) =
          entry.2.maxDlSymbols + entry.2.maxUlSymbols + demanded rest := by simp [demanded]
      rw [hdemanded, ← ih fun other hother => hfresh other (List.mem_cons_of_mem _ hother)]
      simp [lack, UeSchedInfo.flows, hentry.dlSymbols, hentry.ulSymbols, Nat.add_assoc]

theorem lacking_flatMap (hfresh : ∀ entry ∈ ueInfo, entry.2.Fresh) :
    lacking (ueInfo.flatMap fun entry => entry.2.flows) = wanting ueInfo := by
  induction ueInfo with
  | nil => rfl
  | cons entry rest ih =>
      have hentry := hfresh entry List.mem_cons_self
      have hwanting : wanting (entry :: rest) =
          (if 0 < entry.2.maxDlSymbols then 1 else 0) +
            (if 0 < entry.2.maxUlSymbols then 1 else 0) + wanting rest := by simp [wanting]
      have hflows : lacking ((entry :: rest).flatMap fun entry => entry.2.flows) =
          lacking (rest.flatMap fun entry => entry.2.flows) +
            (if 0 < entry.2.maxUlSymbols then 1 else 0) +
            if 0 < entry.2.maxDlSymbols then 1 else 0 := by
        rw [List.flatMap_cons, UeSchedInfo.flows, List.cons_append, List.cons_append,
          List.nil_append, lacking_cons, lacking_cons]
        simp only [Flow.Lacks, hentry.dlSymbols, hentry.ulSymbols]
      rw [hwanting, hflows, ih fun other hother => hfresh other (List.mem_cons_of_mem _ hother)]
      omega

theorem mem_flowsOf (hnodup : ueInfo.keys.Nodup) (hperm : order.Perm ueInfo.keys)
    {entry : Nat × UeSchedInfo} (hentry : entry ∈ ueInfo) {f : Flow}
    (hf : f ∈ entry.2.flows) : f ∈ flowsOf order ueInfo :=
  (flowsOf_perm hnodup hperm).mem_iff.2 (List.mem_flatMap.2 ⟨entry, hentry, hf⟩)

theorem wants_flatMap :
    ((ueInfo.flatMap fun entry => entry.2.flows).map Flow.wants).sum = demanded ueInfo := by
  induction ueInfo with
  | nil => rfl
  | cons entry rest ih =>
      have hdemanded : demanded (entry :: rest) =
          entry.2.maxDlSymbols + entry.2.maxUlSymbols + demanded rest := by simp [demanded]
      rw [hdemanded, ← ih]
      simp [UeSchedInfo.flows, Nat.add_assoc]

theorem wants_served {flows flows' : List Flow} (hserved : List.Forall₂ Served flows flows') :
    flows'.map Flow.wants = flows.map Flow.wants := by
  induction hserved with
  | nil => rfl
  | cons hserved _ ih => rw [List.map_cons, List.map_cons, hserved.wants_eq, ih]

/-- The rounds do not change what is wanted. -/
theorem Ends.demanded_eq {result : Turns} (h : Ends c order ueInfo d result)
    (hnodup : ueInfo.keys.Nodup) (hperm : order.Perm ueInfo.keys) :
    demanded result.ueInfo = demanded ueInfo := by
  have hnodup' : result.ueInfo.keys.Nodup := h.same.1 ▸ hnodup
  have hperm' : order.Perm result.ueInfo.keys := h.same.1 ▸ hperm
  calc
    demanded result.ueInfo
        = ((flowsOf order result.ueInfo).map Flow.wants).sum := by
          rw [← wants_flatMap, ((flowsOf_perm hnodup' hperm').map _).sum_eq]
    _ = ((flowsOf order ueInfo).map Flow.wants).sum := by rw [wants_served h.served]
    _ = demanded ueInfo := by
          rw [← wants_flatMap, ((flowsOf_perm hnodup hperm).map _).sum_eq]

/-- What was given out and what is left. -/
theorem Ends.given_eq {result : Turns} (h : Ends c order ueInfo d result)
    (hnodup : ueInfo.keys.Nodup) (hperm : order.Perm ueInfo.keys) :
    (FlexTti.given result.ueInfo : Int) + result.division.remSym =
      FlexTti.given ueInfo + d.remSym := by
  have hnodup' : result.ueInfo.keys.Nodup := h.same.1 ▸ hnodup
  have hperm' : order.Perm result.ueInfo.keys := h.same.1 ▸ hperm
  have hhad : had (flowsOf order ueInfo) = FlexTti.given ueInfo := by
    rw [← had_flatMap, had, had, ((flowsOf_perm hnodup hperm).map _).sum_eq]
  have hhad' : had (flowsOf order result.ueInfo) = FlexTti.given result.ueInfo := by
    rw [← had_flatMap, had, had, ((flowsOf_perm hnodup' hperm').map _).sum_eq]
  have hgiven := h.given
  rw [hhad, hhad'] at hgiven
  omega

theorem given_of_fresh (hfresh : ∀ entry ∈ ueInfo, entry.2.Fresh) : given ueInfo = 0 := by
  refine List.sum_eq_zero fun n hn => ?_
  obtain ⟨entry, hentry, rfl⟩ := List.mem_map.1 hn
  rw [(hfresh entry hentry).dlSymbols, (hfresh entry hentry).ulSymbols, Nat.add_zero]

theorem Ends.sharedOut {result : Turns} (h : Ends c order ueInfo d result)
    (hnodup : ueInfo.keys.Nodup) (hperm : order.Perm ueInfo.keys)
    (hfresh : ∀ entry ∈ ueInfo, entry.2.Fresh) {symAvail : Nat} (hrem : d.remSym ≤ symAvail) :
    SharedOut ueInfo symAvail result.ueInfo where
  same := h.same
  within := by
    intro entry hentry
    have hmem : ∀ f ∈ entry.2.flows, f.has ≤ f.wants := fun f hf =>
      within_of_served h.served f
        (mem_flowsOf (h.same.1 ▸ hnodup) (h.same.1 ▸ hperm) hentry hf)
    exact ⟨hmem _ List.mem_cons_self, hmem _ (List.mem_cons_of_mem _ List.mem_cons_self)⟩
  available := by
    have hgiven := h.given_eq hnodup hperm
    have hnonneg := h.nonneg
    rw [given_of_fresh hfresh] at hgiven
    omega

end

/-! ## Five flows and ten symbols -/

/-- A configuration with slots of any length. -/
def flexibleTti : FlexTtiConfig where
  amc :=
    { getMcsFromCqi := fun cqi => cqi
      getTbSizeFromMcsSymbols := fun _ numSym => 80 * numSym
      getNumSymbolsFromTbsMcs := fun tbs _ => tbs / 80
      createCqiFeedbackWbTdma := fun _ _ _ => (1, 1)
      scaleSymbols := fun available total old => old * available / total
      ofNan := 0 }
  ueSort := .stable
  slotSort := .stable

/-- Three UEs that want one symbol, and two that want nine. -/
def threeSmallTwoLarge : Flows where
  ueInfo := [(1, { maxDlSymbols := 1 }), (2, { maxDlSymbols := 1 }), (3, { maxDlSymbols := 1 }),
    (4, { maxDlSymbols := 9 }), (5, { maxDlSymbols := 9 })]
  nFlowsTot := 5

/-- The map after the division of ten symbols. -/
def afterTen : OrderedMap UeSchedInfo :=
  [(1, { maxDlSymbols := 1, dlSymbols := 1 }), (2, { maxDlSymbols := 1, dlSymbols := 1 }),
    (3, { maxDlSymbols := 1, dlSymbols := 1 }), (4, { maxDlSymbols := 9, dlSymbols := 3 }),
    (5, { maxDlSymbols := 9, dlSymbols := 3 })]

end FlexTti

end NtnIab.Mmwave
