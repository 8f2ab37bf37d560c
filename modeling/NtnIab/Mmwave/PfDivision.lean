import Mathlib.Tactic.Linarith
import Mathlib.Tactic.Positivity
import Mathlib.Tactic.Ring
import NtnIab.Mmwave.FlexTtiPfDivision

/-!
# The division by the proportional fair scheduler is bounded

The division of the symbols ends, gives out no more than there are, and gives a flow a symbol only
while its block is too small. Symbols are left only if no flow can use them. An IAB device gets at
most half of the symbols, if its two caps add up to at most as many.

## Strategy

`Follows` relates the record of a flow to the one from before the division and to the number of the
symbols that the flow got since. The counters have eight bits, so this number is not in the record.
A turn keeps the relation (`Follows.addSymbol`), a walk over the working list either gives a symbol
or finds that every flow is satisfied (`walk_outcome`), and a round is one walk.

The caps are computed in double precision, the one rounded down and the other up. Exactly they
would add up to half of the symbols.
-/

namespace NtnIab.Mmwave

namespace FlexTtiPf

open Fallible

variable (c : FlexTtiConfig)

/-! ## Working lists -/

/-- Nothing is left of the subframe before. -/
def Direction.Cleared (d : Direction) : Prop :=
  d.symbols = 0 ∧ d.tbSize = 0 ∧ d.allocDone = false

instance (d : Direction) : Decidable d.Cleared := inferInstanceAs (Decidable (_ ∧ _ ∧ _))

def UeSchedInfo.Cleared (ue : UeSchedInfo) : Prop := ue.dl.Cleared ∧ ue.ul.Cleared

instance (ue : UeSchedInfo) : Decidable ue.Cleared := inferInstanceAs (Decidable (_ ∧ _))

/-- A working list of UEs with a record and cleared fields. -/
structure WorkingList where
  ueStatHeap : List Nat
  ueSchedInfoMap : OrderedMap UeSchedInfo
  nodup : ueSchedInfoMap.keys.Nodup
  cleared : ∀ rnti ∈ ueStatHeap, ∃ ue, ueSchedInfoMap.find rnti = some ue ∧ ue.Cleared

/-- The block of a flow with so many symbols. -/
def block (mcs symbols : Nat) : Nat :=
  if symbols = 0 then 0 else tbSizeOf c.toPaddedHbfConfig mcs symbols

/-- More symbols do not make a smaller block, as far as the counters go. -/
def Growing : Prop :=
  ∀ mcs m n, m ≤ n → n ≤ 2 ^ 8 →
    tbSizeOf c.toPaddedHbfConfig mcs m ≤ tbSizeOf c.toPaddedHbfConfig mcs n

/-! ## What is claimed -/

/-- Nothing waits for a flow, its block holds it, or the cap of an IAB device is reached. -/
def Satisfied (iab : Bool) (d : Direction) (symbols : Nat) : Prop :=
  d.totBuf = 0 ∨ d.totBuf ≤ block c d.mcs symbols ∨ iab = true ∧ d.maxSymbols ≤ symbols

/-- The symbols are divided as they should be. -/
structure SharedOut (symAvail : Nat) (w : WorkingList) (d : Division) : Prop where
  bounded : d.symAvail + d.given.length = symAvail
  /-- A flow gets a symbol only while its block is smaller than what waits for it. -/
  needed : ∀ earlier flow later, d.given = earlier ++ flow :: later →
    ∃ ue, w.ueSchedInfoMap.find flow.1 = some ue ∧
      block c (ue.direction flow.2).mcs (earlier.count flow) < (ue.direction flow.2).totBuf
  /-- An IAB device gets at most half of the symbols. -/
  halved : ∀ rnti ue, w.ueSchedInfoMap.find rnti = some ue → ue.iab = true →
    d.given.countP (·.1 = rnti) ≤ symAvail / 2
  /-- Symbols are left only if no flow can use them. -/
  conserving : 0 < d.symAvail → ∀ rnti ∈ w.ueStatHeap, ∃ ue limited,
    w.ueSchedInfoMap.find rnti = some ue ∧ ue.limitIab symAvail = .ok limited ∧
      ∀ mode, Satisfied c ue.iab (limited.direction mode) (d.given.count (rnti, mode))

/-- The two caps of a UE add up to at most half of the symbols. -/
def UeSchedInfo.CapsFit (symAvail : Nat) (ue : UeSchedInfo) : Prop :=
  ue.iab = true → (0 < ue.dl.totBuf ∨ 0 < ue.ul.totBuf) →
    ∃ caps, capsForIab ue.dl.totBuf ue.ul.totBuf (symAvail / 2 : Nat) = .ok caps ∧
      caps.1 + caps.2 ≤ symAvail / 2

/-- The counters of a UE cannot wrap: what waits needs no more symbols than they can count, or the
UE has caps. -/
def UeSchedInfo.CountersFit (ue : UeSchedInfo) : Prop :=
  ue.iab = true ∨
    ∀ mode, (ue.direction mode).totBuf ≤ block c (ue.direction mode).mcs (2 ^ 8 - 1)

/-! ## One flow -/

/-- The record `d` of a flow that had the record `d₀` and got `n` symbols since. -/
structure Follows (iab : Bool) (d₀ : Direction) (n : Nat) (d : Direction) : Prop where
  mcs : d.mcs = d₀.mcs
  totBuf : d.totBuf = d₀.totBuf
  maxSymbols : d.maxSymbols = d₀.maxSymbols
  symbols : d.symbols = n % 2 ^ 8
  capped : iab = true → n ≤ d₀.maxSymbols
  idle : d₀.totBuf = 0 → n = 0
  small : d₀.totBuf ≤ block c d₀.mcs (2 ^ 8 - 1) → n < 2 ^ 8
  done : d.allocDone = true → Satisfied c iab d₀ n
  going : d.allocDone = false → n < 2 ^ 8 → block c d₀.mcs n < d₀.totBuf ∨ n = 0

variable {c} {iab : Bool} {d₀ d : Direction} {n : Nat}

theorem Follows.of_cleared (hd : d.Cleared) : Follows c iab d 0 d where
  mcs := rfl
  totBuf := rfl
  maxSymbols := rfl
  symbols := hd.1
  capped := fun _ => Nat.zero_le _
  idle := fun _ => rfl
  small := fun _ => by decide
  done := fun hdone => by rw [hd.2.2] at hdone; cases hdone
  going := fun _ _ => Or.inr rfl

theorem Follows.markDone (h : Follows c iab d₀ n d) (hn : n < 2 ^ 8) :
    Follows c iab d₀ n (d.markDone iab) := by
  unfold Direction.markDone
  split_ifs with hcase
  · refine ⟨h.mcs, h.totBuf, h.maxSymbols, h.symbols, h.capped, h.idle, h.small, ?_, nofun⟩
    intro _
    rcases hcase with hzero | ⟨hiab, hcap⟩
    · exact Or.inl (h.totBuf ▸ hzero)
    · rw [h.maxSymbols, h.symbols, Nat.mod_eq_of_lt hn] at hcap
      exact Or.inr (Or.inr ⟨hiab, hcap⟩)
  · exact h

/-- A flow that is not done after it was looked at can use a symbol. -/
theorem Follows.wants (h : Follows c iab d₀ n d) (hn : n < 2 ^ 8)
    (hgoing : (d.markDone iab).allocDone = false) :
    block c d₀.mcs n < d₀.totBuf ∧ (iab = true → n < d₀.maxSymbols) := by
  unfold Direction.markDone at hgoing
  split_ifs at hgoing with hcase
  rw [not_or, not_and, h.totBuf, h.maxSymbols, h.symbols, Nat.mod_eq_of_lt hn] at hcase
  refine ⟨?_, fun hiab => not_le.1 (hcase.2 hiab)⟩
  rcases h.going hgoing hn with hblock | hzero
  · exact hblock
  · rw [hzero]
    exact Nat.pos_of_ne_zero hcase.1

/-- A flow that can use a symbol gets one. -/
theorem Follows.addSymbol (hmono : Growing c)
    (h : Follows c iab d₀ n d) (hn : n < 2 ^ 8) (hgoing : d.allocDone = false)
    (hblock : block c d₀.mcs n < d₀.totBuf) (hcap : iab = true → n < d₀.maxSymbols) :
    Follows c iab d₀ (n + 1) (d.addSymbol c) := by
  have hsymbols : (d.symbols + 1) % 2 ^ 8 = (n + 1) % 2 ^ 8 := by
    rw [h.symbols, Nat.mod_add_mod]
  have hblock' : block c d₀.mcs (n + 1) = tbSizeOf c.toPaddedHbfConfig d₀.mcs (n + 1) :=
    if_neg (Nat.succ_ne_zero n)
  refine ⟨h.mcs, h.totBuf, h.maxSymbols, hsymbols, hcap, ?_, ?_, ?_, ?_⟩
  · intro hzero
    rw [hzero] at hblock
    cases hblock
  · intro hsmall
    rcases Nat.lt_or_ge (n + 1) (2 ^ 8) with hlt | hge
    · exact hlt
    · -- The last value of the counter would have been enough.
      obtain rfl : n = 2 ^ 8 - 1 := by omega
      exact absurd hsmall (not_le.2 hblock)
  · intro hdone
    refine Or.inr (Or.inl ?_)
    have hfull : d.totBuf ≤ tbSizeOf c.toPaddedHbfConfig d.mcs ((d.symbols + 1) % 2 ^ 8) := by
      simpa [Direction.addSymbol, hgoing] using hdone
    rw [hsymbols, h.mcs, h.totBuf] at hfull
    rw [hblock']
    exact hfull.trans (hmono _ _ _ (Nat.mod_le _ _) hn)
  · intro hdone hlt
    refine Or.inl ?_
    have hfull : tbSizeOf c.toPaddedHbfConfig d.mcs ((d.symbols + 1) % 2 ^ 8) < d.totBuf := by
      simpa [Direction.addSymbol, hgoing] using hdone
    rw [hsymbols, h.mcs, h.totBuf, Nat.mod_eq_of_lt hlt] at hfull
    rwa [hblock']

/-! ## One UE -/

/-- The record `ue` of a UE that had the record `ue₀`, when the flows `given` have got a symbol. -/
structure UeFollows (c : FlexTtiConfig) (given : List Flow) (rnti : Nat) (ue₀ ue : UeSchedInfo) :
    Prop where
  iab : ue.iab = ue₀.iab
  follows : ∀ mode, Follows c ue₀.iab (ue₀.direction mode) (given.count (rnti, mode))
    (ue.direction mode)

section

variable {given : List Flow} {rnti : Nat} {ue₀ ue : UeSchedInfo} {mode : TddMode}

theorem UeSchedInfo.direction_markDone :
    ue.markDone.direction mode = (ue.direction mode).markDone ue.iab := by
  cases mode <;> rfl

theorem UeSchedInfo.direction_addSymbol {turn : TddMode} :
    (ue.addSymbol c turn).direction mode =
      if mode = turn then (ue.direction mode).addSymbol c else ue.direction mode := by
  cases turn <;> cases mode <;> rfl

@[simp] theorem UeSchedInfo.iab_addSymbol : (ue.addSymbol c mode).iab = ue.iab := by
  cases mode <;> rfl

theorem UeSchedInfo.nextTurn_eq_none (hnone : ue.nextTurn = none) :
    (ue.direction mode).allocDone = true := by
  unfold UeSchedInfo.nextTurn at hnone
  split_ifs at hnone with hul hdl
  have hdone : ue.dl.allocDone = true := by simpa using hdl
  cases mode with
  | dl => exact hdone
  | ul => simpa [UeSchedInfo.direction, hdone] using hul

theorem UeSchedInfo.nextTurn_eq_some (hsome : ue.nextTurn = some mode) :
    (ue.direction mode).allocDone = false := by
  unfold UeSchedInfo.nextTurn at hsome
  split_ifs at hsome with hul hdl
  · obtain rfl := Option.some.inj hsome
    exact Bool.eq_false_iff.2 hul.2
  · obtain rfl := Option.some.inj hsome
    exact Bool.eq_false_iff.2 hdl

theorem UeFollows.markDone (h : UeFollows c given rnti ue₀ ue)
    (hsmall : ∀ mode, given.count (rnti, mode) < 2 ^ 8) :
    UeFollows c given rnti ue₀ ue.markDone := by
  refine ⟨h.iab, fun mode => ?_⟩
  rw [UeSchedInfo.direction_markDone, h.iab]
  exact (h.follows mode).markDone (hsmall mode)

/-- A UE that is passed over is satisfied. -/
theorem UeFollows.satisfied (h : UeFollows c given rnti ue₀ ue) (hnone : ue.nextTurn = none)
    (mode : TddMode) :
    Satisfied c ue₀.iab (ue₀.direction mode) (given.count (rnti, mode)) :=
  (h.follows mode).done (UeSchedInfo.nextTurn_eq_none hnone)

/-- The symbol of another UE does not matter. -/
theorem UeFollows.other (h : UeFollows c given rnti ue₀ ue) {flow : Flow} (hne : flow.1 ≠ rnti) :
    UeFollows c (given ++ [flow]) rnti ue₀ ue := by
  refine ⟨h.iab, fun mode => ?_⟩
  have hother : [flow].count (rnti, mode) = 0 := by
    refine List.count_eq_zero.2 fun hmem => hne ?_
    rw [← List.mem_singleton.1 hmem]
  rw [List.count_append, hother, Nat.add_zero]
  exact h.follows mode

/-- The UE whose turn it is gets a symbol. -/
theorem UeFollows.addSymbol (hmono : Growing c)
    (h : UeFollows c given rnti ue₀ ue) (hsmall : ∀ mode, given.count (rnti, mode) < 2 ^ 8)
    (hsome : ue.markDone.nextTurn = some mode) :
    UeFollows c (given ++ [(rnti, mode)]) rnti ue₀ (ue.markDone.addSymbol c mode) ∧
      block c (ue₀.direction mode).mcs (given.count (rnti, mode)) <
        (ue₀.direction mode).totBuf := by
  have hgoing : ((ue.direction mode).markDone ue₀.iab).allocDone = false := by
    rw [← h.iab, ← UeSchedInfo.direction_markDone]
    exact UeSchedInfo.nextTurn_eq_some hsome
  have hwants := (h.follows mode).wants (hsmall mode) hgoing
  refine ⟨⟨by rw [UeSchedInfo.iab_addSymbol]; exact h.iab, fun other => ?_⟩, hwants.1⟩
  have hmarked := (h.markDone hsmall).follows other
  rw [UeSchedInfo.direction_addSymbol, List.count_append]
  split_ifs with hmode
  · subst hmode
    rw [List.count_singleton_self]
    refine hmarked.addSymbol hmono (hsmall _) ?_ hwants.1 hwants.2
    exact UeSchedInfo.nextTurn_eq_some hsome
  · have hother : [(rnti, mode)].count (rnti, other) = 0 := by
      refine List.count_eq_zero.2 fun hmem => hmode ?_
      exact congrArg Prod.snd (List.mem_singleton.1 hmem)
    rw [hother, Nat.add_zero]
    exact hmarked

end

/-! ## The walk -/

/-- Every UE of the working list has a record that follows the one from before. -/
def Kept (c : FlexTtiConfig) (heap : List Nat) (ues₀ : OrderedMap UeSchedInfo)
    (given : List Flow) (ues : OrderedMap UeSchedInfo) : Prop :=
  ∀ rnti ∈ heap, ∃ ue₀ ue, ues₀.find rnti = some ue₀ ∧ ues.find rnti = some ue ∧
    UeFollows c given rnti ue₀ ue

/-- A flow of the working list that can use one more symbol. -/
def Wanting (c : FlexTtiConfig) (heap : List Nat) (ues₀ : OrderedMap UeSchedInfo)
    (given : List Flow) (flow : Flow) : Prop :=
  flow.1 ∈ heap ∧ ∃ ue₀, ues₀.find flow.1 = some ue₀ ∧
    block c (ue₀.direction flow.2).mcs (given.count flow) < (ue₀.direction flow.2).totBuf

/-- Both flows of a UE are satisfied. -/
def UeSatisfied (c : FlexTtiConfig) (ues₀ : OrderedMap UeSchedInfo) (given : List Flow)
    (rnti : Nat) : Prop :=
  ∃ ue₀, ues₀.find rnti = some ue₀ ∧
    ∀ mode, Satisfied c ue₀.iab (ue₀.direction mode) (given.count (rnti, mode))

section

variable {heap list : List Nat} {ues₀ ues : OrderedMap UeSchedInfo} {given : List Flow}

theorem Kept.adjust (h : Kept c heap ues₀ given ues) {given' : List Flow} {rnti : Nat}
    {ue₀ ue : UeSchedInfo} (hfind : ues₀.find rnti = some ue₀)
    (hue : UeFollows c given' rnti ue₀ ue)
    (hother : ∀ other ue₀ ue, other ≠ rnti → UeFollows c given other ue₀ ue →
      UeFollows c given' other ue₀ ue) :
    Kept c heap ues₀ given' (ues.adjust rnti fun _ => ue) := by
  intro other hmem
  obtain ⟨other₀, old, hother₀, hold, hfollows⟩ := h other hmem
  rw [OrderedMap.find_adjust]
  split_ifs with heq
  · subst heq
    rw [hold]
    exact ⟨ue₀, ue, hfind, rfl, hue⟩
  · exact ⟨other₀, old, hother₀, hold, hother other other₀ old heq hfollows⟩

/-- A walk gives a symbol to a flow that can use it, or finds that every UE is satisfied. -/
theorem walk_outcome (hmono : Growing c)
    (hlist : ∀ rnti ∈ list, rnti ∈ heap)
    (hsmall : ∀ rnti ∈ heap, ∀ mode, given.count (rnti, mode) < 2 ^ 8)
    (h : Kept c heap ues₀ given ues) :
    (∃ flow, (walk c list ues).1 = some flow ∧ Wanting c heap ues₀ given flow ∧
        Kept c heap ues₀ (given ++ [flow]) (walk c list ues).2) ∨
      (walk c list ues).1 = none ∧ Kept c heap ues₀ given (walk c list ues).2 ∧
        ∀ rnti ∈ list, UeSatisfied c ues₀ given rnti := by
  induction list generalizing ues with
  | nil => exact Or.inr ⟨rfl, h, fun rnti hmem => (List.not_mem_nil hmem).elim⟩
  | cons rnti rest ih =>
      have hmem := hlist rnti List.mem_cons_self
      obtain ⟨ue₀, ue, hfind₀, hfind, hfollows⟩ := h rnti hmem
      unfold walk
      rw [hfind, Option.getD_some]
      dsimp only
      cases hnext : ue.markDone.nextTurn with
      | some mode =>
          obtain ⟨hgiven, hblock⟩ := hfollows.addSymbol hmono (hsmall rnti hmem) hnext
          refine Or.inl ⟨(rnti, mode), rfl, ⟨hmem, ue₀, hfind₀, hblock⟩, ?_⟩
          exact h.adjust hfind₀ hgiven fun other _ _ hne hother => hother.other (Ne.symm hne)
      | none =>
          have hmarked := hfollows.markDone (hsmall rnti hmem)
          have hkept : Kept c heap ues₀ given (ues.adjust rnti fun _ => ue.markDone) :=
            h.adjust hfind₀ hmarked fun _ _ _ _ hother => hother
          rcases ih (fun other hother => hlist other (List.mem_cons_of_mem _ hother)) hkept with
            hgiven | ⟨hnone, hkept', hrest⟩
          · exact Or.inl hgiven
          · refine Or.inr ⟨hnone, hkept', fun other hother => ?_⟩
            rcases List.mem_cons.1 hother with rfl | hother
            · exact ⟨ue₀, hfind₀, hmarked.satisfied hnext⟩
            · exact hrest other hother

end

/-! ## The rounds -/

/-- An element of a list with one more at the end is that one, or one of those before. -/
theorem split_concat {α : Type*} {items earlier later : List α} {last item : α}
    (heq : items ++ [last] = earlier ++ item :: later) :
    earlier = items ∧ item = last ∨ ∃ init, items = earlier ++ item :: init := by
  rcases List.eq_nil_or_concat' later with rfl | ⟨init, other, rfl⟩
  · obtain ⟨hitems, hlast⟩ := List.append_inj' heq rfl
    exact Or.inl ⟨hitems.symm, (List.singleton_inj.1 hlast).symm⟩
  · rw [← List.cons_append, ← List.append_assoc] at heq
    exact Or.inr ⟨init, (List.append_inj' heq rfl).1⟩

/-- The state of the division after some rounds. -/
structure Divides (c : FlexTtiConfig) (symAvail : Nat) (heap : List Nat)
    (ues₀ : OrderedMap UeSchedInfo) (d : Division) : Prop where
  bounded : d.symAvail + d.given.length = symAvail
  perm : d.ueStatHeap.Perm heap
  kept : Kept c heap ues₀ d.given d.ueSchedInfoMap
  wanting : ∀ earlier flow later, d.given = earlier ++ flow :: later →
    Wanting c heap ues₀ earlier flow

/-- The numbers of symbols stay in the range of the counters, as there are too few symbols, or as
the flows can use too few. -/
def InRange (c : FlexTtiConfig) (symAvail : Nat) (heap : List Nat)
    (ues₀ : OrderedMap UeSchedInfo) : Prop :=
  symAvail ≤ 2 ^ 8 ∨ ∀ rnti ∈ heap, ∀ ue₀, ues₀.find rnti = some ue₀ → ∀ mode,
    ue₀.iab = true ∧ (ue₀.direction mode).maxSymbols < 2 ^ 8 ∨
      (ue₀.direction mode).totBuf ≤ block c (ue₀.direction mode).mcs (2 ^ 8 - 1)

section

variable {symAvail : Nat} {heap : List Nat} {ues₀ : OrderedMap UeSchedInfo} {d : Division}

theorem Divides.count_lt (h : Divides c symAvail heap ues₀ d)
    (hrange : InRange c symAvail heap ues₀) (hleft : 0 < d.symAvail) {rnti : Nat}
    (hmem : rnti ∈ heap) (mode : TddMode) : d.given.count (rnti, mode) < 2 ^ 8 := by
  rcases hrange with hfew | hflows
  · have hlength : d.given.count (rnti, mode) ≤ d.given.length := List.count_le_length
    have hbounded := h.bounded
    omega
  · obtain ⟨ue₀, ue, hfind, -, hfollows⟩ := h.kept rnti hmem
    rcases hflows rnti hmem ue₀ hfind mode with ⟨hiab, hcap⟩ | hsmall
    · exact ((hfollows.follows mode).capped hiab).trans_lt hcap
    · exact (hfollows.follows mode).small hsmall

/-- What one round does. -/
theorem Divides.round (hmono : Growing c)
    (h : Divides c symAvail heap ues₀ d) (hrange : InRange c symAvail heap ues₀)
    (hleft : 0 < d.symAvail) :
    Divides c symAvail heap ues₀ (d.round c).1 ∧
      ((d.round c).2 = true ∧ (d.round c).1.symAvail + 1 = d.symAvail ∨
        (d.round c).2 = false ∧ ∀ rnti ∈ heap, UeSatisfied c ues₀ (d.round c).1.given rnti) := by
  have hperm := (c.ueSort.perm (compareUeWeightsPf d.ueSchedInfoMap) d.ueStatHeap).trans h.perm
  have houtcome := walk_outcome hmono (fun rnti => hperm.mem_iff.1)
    (fun rnti hmem => h.count_lt hrange hleft hmem) h.kept
  unfold Division.round
  dsimp only
  rcases houtcome with ⟨flow, hsome, hwanting, hkept⟩ | ⟨hnone, hkept, hsatisfied⟩
  · rw [hsome]
    refine ⟨⟨?_, hperm, hkept, fun earlier other later heq => ?_⟩,
      Or.inl ⟨rfl, Nat.sub_add_cancel hleft⟩⟩
    · have hbounded := h.bounded
      rw [List.length_append, List.length_singleton]
      dsimp only
      omega
    · rcases split_concat heq with ⟨rfl, rfl⟩ | ⟨init, hgiven⟩
      · exact hwanting
      · exact h.wanting earlier other init hgiven
  · rw [hnone]
    exact ⟨⟨h.bounded, hperm, hkept, h.wanting⟩,
      Or.inr ⟨rfl, fun rnti hmem => hsatisfied rnti (hperm.mem_iff.2 hmem)⟩⟩

/-- What all rounds do: they end when no symbol is left or no flow can use one. -/
theorem Divides.rounds (hmono : Growing c)
    (hrange : InRange c symAvail heap ues₀) {n : Nat} (h : Divides c symAvail heap ues₀ d)
    (hn : d.symAvail = n) :
    Divides c symAvail heap ues₀ (d.rounds c n) ∧
      (0 < (d.rounds c n).symAvail →
        ∀ rnti ∈ heap, UeSatisfied c ues₀ (d.rounds c n).given rnti) := by
  induction n generalizing d with
  | zero =>
      refine ⟨h, fun hpos => ?_⟩
      have hpos : 0 < d.symAvail := hpos
      omega
  | succ n ih =>
      obtain ⟨hround, houtcome⟩ := h.round hmono hrange (by omega)
      unfold Division.rounds
      dsimp only
      rcases houtcome with ⟨hgiven, hleft⟩ | ⟨hnobody, hsatisfied⟩
      · rw [if_pos hgiven]
        exact ih hround (by omega)
      · rw [hnobody]
        exact ⟨hround, fun _ => hsatisfied⟩

end

/-! ## The caps -/

section

variable {symAvail : Nat} {ue limited : UeSchedInfo} {mode : TddMode}

/-- The caps are numbers of eight bits. -/
theorem capsForIab_lt {totBufDl totBufUl : Nat} {half : Int} {caps : Nat × Nat}
    (hok : capsForIab totBufDl totBufUl half = .ok caps) : caps.1 < 2 ^ 8 ∧ caps.2 < 2 ^ 8 := by
  unfold capsForIab at hok
  obtain ⟨total, -, hok⟩ := bind_eq_ok.1 hok
  split_ifs at hok
  obtain ⟨maxDlSym, -, hok⟩ := bind_eq_ok.1 hok
  obtain ⟨maxUlSym, -, hok⟩ := bind_eq_ok.1 hok
  obtain rfl := pure_eq_ok.1 hok
  dsimp only
  omega

theorem asInt_eq_ok {n m : Int} (hok : asInt n = .ok m) : m = n ∧ n < 2 ^ 31 := by
  unfold asInt at hok
  split_ifs at hok with hrange
  exact ⟨(Except.ok.inj hok).symm, hrange.2⟩

/-- A part of a number and the rest of it, each rounded to double precision, are together hardly
more than the number. -/
theorem round_parts_lt {part : ℚ} {n : Int} (hpart : 0 ≤ part ∧ part ≤ 1)
    (hn : 0 ≤ n ∧ n < 2 ^ 31) :
    0 ≤ Binary64.round (Binary64.round part * n) ∧
    -1 < Binary64.round (Binary64.round (1 - Binary64.round part) * n) ∧
    Binary64.round (Binary64.round part * n) +
      Binary64.round (Binary64.round (1 - Binary64.round part) * n) < n + 1 := by
  have hn0 : (0 : ℚ) ≤ n := by exact_mod_cast hn.1
  have hn31 : (n : ℚ) ≤ 2 ^ 31 := by exact_mod_cast hn.2.le
  have hpartError := Binary64.abs_round_sub_le_of_abs_le (abs_le.2 ⟨by linarith, hpart.2⟩)
  have hpart0 := Binary64.round_nonneg hpart.1
  generalize Binary64.round part = r at *
  rw [abs_le] at hpartError
  have hrest : |1 - r| ≤ 1 := abs_le.2 ⟨by linarith, by linarith⟩
  have hrestError := Binary64.abs_round_sub_le_of_abs_le hrest
  generalize Binary64.round (1 - r) = u at *
  rw [abs_le] at hrest hrestError
  -- the two numbers that are rounded last are below 2 ^ 32
  have hrn : |r * n| ≤ 2 * 2 ^ 31 := by
    rw [abs_mul, abs_of_nonneg hn0]
    exact mul_le_mul (abs_le.2 ⟨by linarith, by linarith⟩) hn31 hn0 (by norm_num)
  have hun : |u * n| ≤ 2 * 2 ^ 31 := by
    rw [abs_mul, abs_of_nonneg hn0]
    exact mul_le_mul (abs_le.2 ⟨by linarith, by linarith⟩) hn31 hn0 (by norm_num)
  have hp := abs_le.1 (Binary64.abs_round_sub_le_of_abs_le hrn)
  have hq := abs_le.1 (Binary64.abs_round_sub_le_of_abs_le hun)
  have hbelow : -(2 / 2 ^ 53) * 2 ^ 31 ≤ u * n :=
    calc -(2 / 2 ^ 53) * (2 ^ 31 : ℚ) ≤ -(2 / 2 ^ 53) * n :=
          mul_le_mul_of_nonpos_left hn31 (by norm_num)
      _ ≤ u * n := mul_le_mul_of_nonneg_right (by linarith) hn0
  have htogether : r * n + u * n ≤ n + 1 / 2 ^ 53 * 2 ^ 31 :=
    calc r * n + u * n = (r + u) * n := (add_mul r u _).symm
      _ ≤ (1 + 1 / 2 ^ 53) * n := mul_le_mul_of_nonneg_right (by linarith) hn0
      _ = n + 1 / 2 ^ 53 * n := by ring
      _ ≤ n + 1 / 2 ^ 53 * 2 ^ 31 :=
          add_le_add_right (mul_le_mul_of_nonneg_left hn31 (by norm_num)) _
  refine ⟨Binary64.round_nonneg (mul_nonneg hpart0 hn0), ?_, ?_⟩
  · linarith
  · linarith

/-- The two caps exceed what they share by one symbol at most: one is rounded up. -/
theorem capsForIab_sum_le {totBufDl totBufUl : Nat} {half : Int} {caps : Nat × Nat}
    (hdl : totBufDl < 2 ^ 31) (hul : totBufUl < 2 ^ 31) (hhalf : 0 ≤ half ∧ half < 2 ^ 31)
    (hok : capsForIab totBufDl totBufUl half = .ok caps) :
    (caps.1 + caps.2 : Int) ≤ half + 1 := by
  unfold capsForIab at hok
  rw [toInt32_of_lt hdl, toInt32_of_lt hul] at hok
  obtain ⟨total, htotal, hok⟩ := bind_eq_ok.1 hok
  obtain ⟨rfl, -⟩ := asInt_eq_ok htotal
  split_ifs at hok with hzero
  obtain ⟨maxDlSym, hmaxDl, hok⟩ := bind_eq_ok.1 hok
  obtain ⟨maxUlSym, hmaxUl, hok⟩ := bind_eq_ok.1 hok
  obtain ⟨rfl, -⟩ := asInt_eq_ok hmaxDl
  obtain ⟨rfl, -⟩ := asInt_eq_ok hmaxUl
  obtain rfl := pure_eq_ok.1 hok
  have hpart : 0 ≤ (((totBufDl : Int) : ℚ) / ((totBufDl + totBufUl : Int) : ℚ)) ∧
      (((totBufDl : Int) : ℚ) / ((totBufDl + totBufUl : Int) : ℚ)) ≤ 1 := by
    push_cast
    refine ⟨by positivity, div_le_one_of_le₀ ?_ (by positivity)⟩
    exact le_add_of_nonneg_right (Nat.cast_nonneg _)
  obtain ⟨hdl0, hul0, hsum⟩ := round_parts_lt hpart hhalf
  generalize Binary64.round ((totBufDl : Int) / ((totBufDl + totBufUl : Int) : ℚ)) = r at *
  generalize Binary64.round (r * half) = p at *
  generalize Binary64.round (Binary64.round (1 - r) * half) = q at *
  have hfloor : 0 ≤ ⌊p⌋ := Int.floor_nonneg.2 hdl0
  have hceil : 0 ≤ ⌈q⌉ := by
    have h := Int.le_ceil q
    have : (-1 : ℚ) < ⌈q⌉ := lt_of_lt_of_le hul0 h
    have : (-1 : Int) < ⌈q⌉ := by exact_mod_cast this
    omega
  have htop : ⌊p⌋ + ⌈q⌉ < half + 2 := by
    have hp := Int.floor_le p
    have hq := Int.ceil_lt_add_one q
    have : ((⌊p⌋ + ⌈q⌉ : Int) : ℚ) < ((half + 2 : Int) : ℚ) := by
      push_cast
      linarith
    exact_mod_cast this
  dsimp only
  omega

theorem tdiv_two : (symAvail : Int).tdiv 2 = (symAvail / 2 : Nat) :=
  (Int.ofNat_tdiv symAvail 2).symm

/-- The limits of an IAB device for which something waits are its caps. -/
theorem UeSchedInfo.limitIab_eq_ok_iff (hiab : ue.iab = true)
    (hwaits : 0 < ue.dl.totBuf ∨ 0 < ue.ul.totBuf) :
    ue.limitIab symAvail = .ok limited ↔
      ∃ caps, capsForIab ue.dl.totBuf ue.ul.totBuf (symAvail / 2 : Nat) = .ok caps ∧
        { ue with dl.maxSymbols := caps.1, ul.maxSymbols := caps.2 } = limited := by
  unfold UeSchedInfo.limitIab
  rw [if_pos ⟨hiab, hwaits⟩, tdiv_two, bind_eq_ok]
  simp only [pure_eq_ok]

/-- The limits change nothing but the caps. -/
theorem UeSchedInfo.limitIab_kept (hok : ue.limitIab symAvail = .ok limited) :
    limited.iab = ue.iab ∧ (ue.Cleared → limited.Cleared) ∧
      ∀ mode, (limited.direction mode).mcs = (ue.direction mode).mcs ∧
        (limited.direction mode).totBuf = (ue.direction mode).totBuf := by
  by_cases hcase : ue.iab = true ∧ (0 < ue.dl.totBuf ∨ 0 < ue.ul.totBuf)
  · obtain ⟨caps, -, rfl⟩ := (UeSchedInfo.limitIab_eq_ok_iff hcase.1 hcase.2).1 hok
    exact ⟨rfl, id, fun mode => by cases mode <;> exact ⟨rfl, rfl⟩⟩
  · unfold UeSchedInfo.limitIab at hok
    rw [if_neg hcase] at hok
    obtain rfl := pure_eq_ok.1 hok
    exact ⟨rfl, id, fun mode => ⟨rfl, rfl⟩⟩

theorem UeSchedInfo.CapsFit.exists_limitIab (hfit : ue.CapsFit symAvail) :
    ∃ limited, ue.limitIab symAvail = .ok limited := by
  by_cases hcase : ue.iab = true ∧ (0 < ue.dl.totBuf ∨ 0 < ue.ul.totBuf)
  · obtain ⟨caps, hcaps, -⟩ := hfit hcase.1 hcase.2
    exact ⟨_, (UeSchedInfo.limitIab_eq_ok_iff hcase.1 hcase.2).2 ⟨caps, hcaps, rfl⟩⟩
  · exact ⟨ue, if_neg hcase⟩

/-- The limits of an IAB device for which something waits are numbers of eight bits. -/
theorem UeSchedInfo.maxSymbols_lt (hok : ue.limitIab symAvail = .ok limited) (hiab : ue.iab = true)
    (hwaits : 0 < ue.dl.totBuf ∨ 0 < ue.ul.totBuf) :
    (limited.direction mode).maxSymbols < 2 ^ 8 := by
  obtain ⟨caps, hcaps, rfl⟩ := (UeSchedInfo.limitIab_eq_ok_iff hiab hwaits).1 hok
  have hlt := capsForIab_lt hcaps
  cases mode with
  | dl => exact hlt.1
  | ul => exact hlt.2

end

/-! ## The division -/

section

variable {symAvail : Nat} {w : WorkingList} {limited : OrderedMap UeSchedInfo} {d : Division}

/-- The symbols of a UE are those of its two flows. -/
theorem countP_rnti {given : List Flow} {rnti : Nat} :
    given.countP (·.1 = rnti) = given.count (rnti, .dl) + given.count (rnti, .ul) := by
  induction given with
  | nil => rfl
  | cons flow rest ih =>
      obtain ⟨other, mode⟩ := flow
      rw [List.countP_cons, List.count_cons, List.count_cons, ih]
      cases mode <;> by_cases heq : other = rnti <;> simp [heq] <;> omega

/-- Before the first round. -/
theorem Divides.start
    (hlimited : w.ueSchedInfoMap.traverse
      (fun rnti ue => blame (.ue rnti) (ue.limitIab symAvail)) = .ok limited) :
    Divides c symAvail w.ueStatHeap limited
      { symAvail := symAvail, ueStatHeap := w.ueStatHeap, ueSchedInfoMap := limited } where
  bounded := Nat.add_zero _
  perm := List.Perm.refl _
  wanting := fun earlier flow later heq => by cases earlier <;> cases heq
  kept := by
    intro rnti hmem
    obtain ⟨ue, hfind, hcleared⟩ := w.cleared rnti hmem
    obtain ⟨ue₀, hok, hfind₀⟩ := OrderedMap.find_traverse hlimited hfind
    have hkept := (UeSchedInfo.limitIab_kept (blame_eq_ok.1 hok)).2.1 hcleared
    refine ⟨ue₀, ue₀, hfind₀, hfind₀, rfl, fun mode => ?_⟩
    cases mode with
    | dl => exact Follows.of_cleared hkept.1
    | ul => exact Follows.of_cleared hkept.2

/-- The counters keep their range, where they fit. -/
theorem inRange
    (hlimited : w.ueSchedInfoMap.traverse
      (fun rnti ue => blame (.ue rnti) (ue.limitIab symAvail)) = .ok limited)
    (hcounters : symAvail ≤ 2 ^ 8 ∨ ∀ rnti ∈ w.ueStatHeap, ∀ ue,
      w.ueSchedInfoMap.find rnti = some ue → ue.CountersFit c) :
    InRange c symAvail w.ueStatHeap limited := by
  refine hcounters.imp_right fun hflows rnti hmem ue₀ hfind₀ mode => ?_
  obtain ⟨ue, hfind, -⟩ := w.cleared rnti hmem
  obtain ⟨ue₁, hok, hfind₁⟩ := OrderedMap.find_traverse hlimited hfind
  obtain rfl := Option.some.inj (hfind₀.symm.trans hfind₁)
  have hok := blame_eq_ok.1 hok
  obtain ⟨hiab, -, hkept⟩ := UeSchedInfo.limitIab_kept hok
  rw [hiab, (hkept mode).1, (hkept mode).2]
  by_cases hwaits : 0 < ue.dl.totBuf ∨ 0 < ue.ul.totBuf
  · rcases hflows rnti hmem ue hfind with hcapped | hsmall
    · exact Or.inl ⟨hcapped, UeSchedInfo.maxSymbols_lt hok hcapped hwaits⟩
    · exact Or.inr (hsmall mode)
  · -- Nothing waits for the UE.
    have hzero : (ue.direction mode).totBuf = 0 := by
      cases mode with
      | dl => exact Nat.eq_zero_of_not_pos fun h => hwaits (Or.inl h)
      | ul => exact Nat.eq_zero_of_not_pos fun h => hwaits (Or.inr h)
    exact Or.inr (hzero ▸ Nat.zero_le _)

/-- An IAB device gets as many symbols as its caps allow. -/
theorem Divides.countP_le (h : Divides c symAvail w.ueStatHeap limited d)
    (hlimited : w.ueSchedInfoMap.traverse
      (fun rnti ue => blame (.ue rnti) (ue.limitIab symAvail)) = .ok limited)
    {rnti bound : Nat} {ue : UeSchedInfo} (hfind : w.ueSchedInfoMap.find rnti = some ue)
    (hiab : ue.iab = true)
    (hcaps : 0 < ue.dl.totBuf ∨ 0 < ue.ul.totBuf → ∀ caps,
      capsForIab ue.dl.totBuf ue.ul.totBuf (symAvail / 2 : Nat) = .ok caps →
        caps.1 + caps.2 ≤ bound) :
    d.given.countP (·.1 = rnti) ≤ bound := by
  by_cases hmem : rnti ∈ w.ueStatHeap
  · obtain ⟨ue₀, ue', hfind₀, -, hfollows⟩ := h.kept rnti hmem
    obtain ⟨ue₁, hok, hfind₁⟩ := OrderedMap.find_traverse hlimited hfind
    obtain rfl := Option.some.inj (hfind₀.symm.trans hfind₁)
    have hok := blame_eq_ok.1 hok
    obtain ⟨hiab₀, -, hkept⟩ := UeSchedInfo.limitIab_kept hok
    have hdl := hfollows.follows .dl
    have hul := hfollows.follows .ul
    rw [countP_rnti]
    by_cases hwaits : 0 < ue.dl.totBuf ∨ 0 < ue.ul.totBuf
    · have hdl := hdl.capped (hiab₀.trans hiab)
      have hul := hul.capped (hiab₀.trans hiab)
      obtain ⟨caps, hexact, rfl⟩ := (UeSchedInfo.limitIab_eq_ok_iff hiab hwaits).1 hok
      exact (Nat.add_le_add hdl hul).trans (hcaps hwaits caps hexact)
    · rw [not_or] at hwaits
      have hdl := hdl.idle ((hkept .dl).2.trans (Nat.eq_zero_of_not_pos hwaits.1))
      have hul := hul.idle ((hkept .ul).2.trans (Nat.eq_zero_of_not_pos hwaits.2))
      omega
  · -- Symbols are given to UEs of the working list only.
    have hnone : d.given.countP (·.1 = rnti) = 0 := by
      refine List.countP_eq_zero.2 fun flow hflow heq => hmem ?_
      obtain ⟨earlier, later, hgiven⟩ := List.append_of_mem hflow
      exact of_decide_eq_true heq ▸ (h.wanting earlier flow later hgiven).1
    omega

theorem block_mono {mcs m n : Nat} (hmono : Growing c) (hle : m ≤ n) (hn : n ≤ 2 ^ 8) :
    block c mcs m ≤ block c mcs n := by
  unfold block
  split_ifs with hm hzero
  · exact le_rfl
  · exact Nat.zero_le _
  · omega
  · exact hmono mcs m n hle hn

/-- An IAB device that is alone and wants all symbols gets as many as its caps allow. -/
theorem SharedOut.capsFit_of_alone (hmono : Growing c)
    (h : SharedOut c symAvail w d) {rnti : Nat} {ue : UeSchedInfo} (hheap : w.ueStatHeap = [rnti])
    (hmap : w.ueSchedInfoMap = [(rnti, ue)]) (hpos : 0 < symAvail)
    (hfew : symAvail ≤ 2 ^ 8)
    (hwants : ∀ mode, block c (ue.direction mode).mcs symAvail < (ue.direction mode).totBuf) :
    ue.CapsFit symAvail := by
  intro hiab hwaits
  have hfind : w.ueSchedInfoMap.find rnti = some ue := by
    rw [hmap, OrderedMap.find_cons, if_pos rfl]
  have hhalf := h.halved rnti ue hfind hiab
  have hbounded := h.bounded
  rcases Nat.eq_zero_or_pos d.symAvail with hnone | hleft
  · -- It got every symbol.
    have hall : d.given.countP (·.1 = rnti) = d.given.length := by
      refine List.countP_eq_length.2 fun flow hflow => ?_
      obtain ⟨earlier, later, hgiven⟩ := List.append_of_mem hflow
      obtain ⟨ue', hfind', -⟩ := h.needed earlier flow later hgiven
      rw [hmap, OrderedMap.find_cons] at hfind'
      split_ifs at hfind' with heq
      · exact decide_eq_true heq.symm
      · cases hfind'
    omega
  · obtain ⟨ue', limited, hfind', hok, hflows⟩ :=
      h.conserving hleft rnti (hheap ▸ List.mem_singleton_self rnti)
    obtain rfl := Option.some.inj (hfind.symm.trans hfind')
    have hkept := (UeSchedInfo.limitIab_kept hok).2.2
    have hcapped : ∀ mode, (limited.direction mode).maxSymbols ≤ d.given.count (rnti, mode) := by
      intro mode
      have hcount : d.given.count (rnti, mode) ≤ symAvail := by
        have hlength : d.given.count (rnti, mode) ≤ d.given.length := List.count_le_length
        omega
      have hblock := (block_mono hmono hcount hfew).trans_lt (hwants mode)
      rw [← (hkept mode).1, ← (hkept mode).2] at hblock
      rcases hflows mode with hzero | hfull | hcap
      · rw [hzero] at hblock
        cases hblock
      · exact absurd hfull (not_le.2 hblock)
      · exact hcap.2
    obtain ⟨caps, hcaps, rfl⟩ := (UeSchedInfo.limitIab_eq_ok_iff hiab hwaits).1 hok
    refine ⟨caps, hcaps, ?_⟩
    rw [countP_rnti] at hhalf
    exact (Nat.add_le_add (hcapped .dl) (hcapped .ul)).trans hhalf

/-- The symbols of a working list are divided as they should be, if the caps fit and no counter
can wrap. -/
theorem WorkingList.sharedOut (hmono : Growing c) (w : WorkingList) (symAvail : Nat)
    (hcaps : ∀ rnti ue, w.ueSchedInfoMap.find rnti = some ue → ue.CapsFit symAvail)
    (hcounters : symAvail ≤ 2 ^ 8 ∨ ∀ rnti ∈ w.ueStatHeap, ∀ ue,
      w.ueSchedInfoMap.find rnti = some ue → ue.CountersFit c) :
    ∃ d, divideSymbols c symAvail w.ueStatHeap w.ueSchedInfoMap = .ok d ∧
      SharedOut c symAvail w d := by
  obtain ⟨limited, hlimited⟩ : ∃ limited, w.ueSchedInfoMap.traverse
      (fun rnti ue => blame (.ue rnti) (ue.limitIab symAvail)) = .ok limited := by
    refine OrderedMap.exists_traverse fun entry hentry => ?_
    have hfind := OrderedMap.find_of_mem w.nodup hentry
    obtain ⟨ue₀, hok⟩ := (hcaps entry.1 entry.2 hfind).exists_limitIab
    exact ⟨ue₀, blame_eq_ok.2 hok⟩
  -- the record of a UE is limited before the first round
  have hlimit : ∀ rnti ue₀, limited.find rnti = some ue₀ →
      ∃ ue, w.ueSchedInfoMap.find rnti = some ue ∧ ue.limitIab symAvail = .ok ue₀ := by
    intro rnti ue₀ hfind₀
    obtain ⟨ue, hfind, hok⟩ := OrderedMap.find_of_traverse hlimited hfind₀
    exact ⟨ue, hfind, blame_eq_ok.1 hok⟩
  have hrange := inRange hlimited hcounters
  obtain ⟨hdivides, hsatisfied⟩ := (Divides.start (c := c) hlimited).rounds hmono hrange rfl
  refine ⟨_, bind_eq_ok.2 ⟨limited, hlimited, rfl⟩, ⟨hdivides.bounded, ?_, ?_, ?_⟩⟩
  · intro earlier flow later heq
    obtain ⟨hmem, ue₀, hfind₀, hblock⟩ := hdivides.wanting earlier flow later heq
    obtain ⟨ue, hfind, hok⟩ := hlimit flow.1 ue₀ hfind₀
    have hkept := (UeSchedInfo.limitIab_kept hok).2.2 flow.2
    rw [hkept.1, hkept.2] at hblock
    exact ⟨ue, hfind, hblock⟩
  · intro rnti ue hfind hiab
    refine hdivides.countP_le hlimited hfind hiab fun hwaits caps hok => ?_
    obtain ⟨_, hok', hsum⟩ := hcaps rnti ue hfind hiab hwaits
    obtain rfl := Except.ok.inj (hok'.symm.trans hok)
    exact hsum
  · intro hleft rnti hmem
    obtain ⟨ue₀, hfind₀, hflows⟩ := hsatisfied hleft rnti hmem
    obtain ⟨ue, hfind, hok⟩ := hlimit rnti ue₀ hfind₀
    rw [(UeSchedInfo.limitIab_kept hok).1] at hflows
    exact ⟨ue, ue₀, hfind, hok, hflows⟩

/-- Whatever the caps are, an IAB device gets at most one symbol more than half of them. -/
theorem divideSymbols_le_half_add_one (hmono : Growing c) (hfew : symAvail ≤ 2 ^ 8)
    (hok : divideSymbols c symAvail w.ueStatHeap w.ueSchedInfoMap = .ok d) {rnti : Nat}
    {ue : UeSchedInfo} (hfind : w.ueSchedInfoMap.find rnti = some ue) (hiab : ue.iab = true)
    (hdl : ue.dl.totBuf < 2 ^ 31) (hul : ue.ul.totBuf < 2 ^ 31) :
    d.given.countP (·.1 = rnti) ≤ symAvail / 2 + 1 := by
  obtain ⟨limited, hlimited, hok⟩ := bind_eq_ok.1 hok
  obtain rfl := pure_eq_ok.1 hok
  have hdivides := (Divides.start (c := c) hlimited).rounds hmono (Or.inl hfew) rfl
  refine hdivides.1.countP_le hlimited hfind hiab fun _ caps hcaps => ?_
  have hsum := capsForIab_sum_le hdl hul ⟨by omega, by omega⟩ hcaps
  omega

end

/-! ## An IAB device and twenty-two symbols -/

/-- Ten bytes fit in a symbol. -/
def tenBytes : FlexTtiConfig where
  amc :=
    { getMcsFromCqi := fun cqi => cqi
      getTbSizeFromMcsSymbols := fun _ numSym => 80 * numSym
      getNumSymbolsFromTbsMcs := fun tbs _ => tbs / 80
      createCqiFeedbackWbTdma := fun _ _ _ => (1, 1)
      scaleSymbols := fun available total old => old * available / total
      ofNan := 0 }
  ueSort := .stable
  slotSort := .stable

theorem growing_tenBytes : Growing tenBytes := by
  have hsize : ∀ mcs k : Nat, k ≤ 2 ^ 8 → tbSizeOf tenBytes.toPaddedHbfConfig mcs k = 10 * k := by
    intro mcs k hk
    have hdiv : (80 * (k : Int)).tdiv 8 = 10 * k := by
      rw [Int.tdiv_eq_ediv_of_nonneg (by omega)]
      omega
    show (((80 * (k : Int)).tdiv 8) % 2 ^ 32).toNat = 10 * k
    rw [hdiv, Int.emod_eq_of_lt (by omega) (by omega)]
    omega
  intro mcs m n hle hn
  rw [hsize mcs m (hle.trans hn), hsize mcs n hn]
  omega

/-- An IAB device that is alone, with so many bytes in the downlink and the uplink. -/
def device (totBufDl totBufUl : Nat) : WorkingList where
  ueStatHeap := [1]
  ueSchedInfoMap := [(1, {
    dl := { totBuf := totBufDl }
    ul := { totBuf := totBufUl }
    iab := true })]
  nodup := List.nodup_singleton 1
  cleared := by
    intro rnti hmem
    obtain rfl := List.mem_singleton.1 hmem
    exact ⟨_, rfl, ⟨rfl, rfl, rfl⟩, rfl, rfl, rfl⟩

end FlexTtiPf

end NtnIab.Mmwave
