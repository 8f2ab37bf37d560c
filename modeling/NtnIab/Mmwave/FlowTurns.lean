import Mathlib.Tactic.Ring
import NtnIab.Mmwave.FlexTtiScheduler

/-!
# The division of the symbols, flow by flow

The round robin scheduler divides the free symbols of a subframe in rounds. In each a flow gets
the average of what is left, or what it lacks if that is less; what it leaves then adds to the
average of the others. Only a flow with no more symbols than the overall average gets any.

Here the turns are those of a list of flows. `Fair` holds before each of them. It says that the
flows to come can take the symbols that are left, and that the average is covered by these: that
is why the loop is never left early, with a flow that goes away empty-handed.
-/

namespace NtnIab.Mmwave

namespace FlexTti

/-! ## Flows -/

/-- A direction of a UE: the symbols that it wants and those that it has. A share of the uplink
that is not a whole one does not count as an allocation. -/
structure Flow where
  wants : Nat
  has : Nat
  counts : Bool
  deriving Repr, DecidableEq

namespace Flow

/-- The turn of a flow. There is none if the loop is left. -/
def turn (f : Flow) (d : Division) : Option (Flow × Division) :=
  if 0 < d.remSym ∧ 0 < (f.wants : Int) - f.has ∧ (f.has : Int) ≤ d.nSymPerFlow0 then
    match d.share ((f.wants : Int) - f.has) with
    | none => none
    | some result =>
        some ({ f with has := f.has + result.1.1.toNat },
          { result.2 with
            remSym := result.2.remSym - result.1.1
            allocated := result.2.allocated || (f.counts || result.1.2) })
  else some (f, d)

def Lacks (f : Flow) : Prop := f.has < f.wants

instance (f : Flow) : Decidable f.Lacks := inferInstanceAs (Decidable (_ < _))

end Flow

/-- How many of the flows lack symbols. -/
def lacking (flows : List Flow) : Nat := flows.countP fun f => f.Lacks

/-- How many symbols the flows lack. -/
def lack (flows : List Flow) : Nat := (flows.map fun f => f.wants - f.has).sum

theorem lacking_cons {f : Flow} {rest : List Flow} :
    lacking (f :: rest) = lacking rest + if f.Lacks then 1 else 0 := by
  simp [lacking, List.countP_cons]

theorem lack_cons {f : Flow} {rest : List Flow} :
    lack (f :: rest) = (f.wants - f.has) + lack rest := by
  simp [lack]

theorem lack_eq_zero {flows : List Flow} (hnone : lacking flows = 0) : lack flows = 0 := by
  induction flows with
  | nil => rfl
  | cons f rest ih =>
      rw [lacking_cons] at hnone
      have hmet : ¬ f.Lacks := fun hlacks => by simp [hlacks] at hnone
      rw [lack_cons, ih (by omega)]
      unfold Flow.Lacks at hmet
      omega

/-! ## One turn -/

/-- What holds before the turns of the flows in `rest`. The others lack `owed` symbols, and
`unmet` of them lack some. -/
structure Fair (owed unmet : Nat) (rest : List Flow) (d : Division) : Prop where
  nonneg : 0 ≤ d.remSym
  wanted : d.remSym ≤ (owed + lack rest : Nat)
  owed_eq_zero : unmet = 0 → owed = 0
  counted : ((unmet + lacking rest : Nat) : Int) ≤ d.nFlowsTot
  share_pos : 0 < d.nRemSymPerFlow
  /-- A share is one symbol, or there are shares for all flows, or a flow was passed over that is
  still counted. -/
  covered : d.remSym = 0 ∨ d.nRemSymPerFlow = 1 ∨
    d.nRemSymPerFlow * d.nFlowsTot ≤ d.remSym ∨ ((lacking rest + 1 : Nat) : Int) ≤ d.nFlowsTot
  within : ∀ f ∈ rest, f.has ≤ f.wants

/-- What the turn of a flow does. A flow that lacks symbols afterwards was passed over as it had
more than the average, unless no symbol is left or it got a whole share. -/
structure Turned (f : Flow) (d : Division) (f' : Flow) (d' : Division) : Prop where
  wants_eq : f'.wants = f.wants
  counts_eq : f'.counts = f.counts
  grows : f.has ≤ f'.has
  within : f'.has ≤ f'.wants
  given : d'.remSym = d.remSym - ((f'.has : Int) - f.has)
  average_le : d.nSymPerFlow0 ≤ d'.nSymPerFlow0
  held : f'.Lacks → d'.remSym = 0 ∨ d'.allocated = true ∨
    f'.has = f.has ∧ d.nSymPerFlow0 < f.has
  allocated_mono : d.allocated = true → d'.allocated = true
  progress : d'.allocated = true → d.allocated = true ∨ d'.remSym < d.remSym

theorem Turned.flow_eq {f f' : Flow} {d d' : Division} (h : Turned f d f' d') :
    { f with has := f'.has } = f' := by
  obtain ⟨wants, has, counts⟩ := f'
  obtain rfl := h.wants_eq
  obtain rfl := h.counts_eq
  rfl

theorem Turned.refl {f : Flow} {d : Division} (hwithin : f.has ≤ f.wants)
    (hheld : f.Lacks → d.remSym = 0 ∨ d.allocated = true ∨ d.nSymPerFlow0 < f.has) :
    Turned f d f d where
  wants_eq := rfl
  counts_eq := rfl
  grows := Nat.le_refl _
  within := hwithin
  given := by rw [Int.sub_self, Int.sub_zero]
  average_le := Int.le_refl _
  held := by
    intro hlacks
    rcases hheld hlacks with hzero | hallocated | hover
    · exact .inl hzero
    · exact .inr (.inl hallocated)
    · exact .inr (.inr ⟨rfl, hover⟩)
  allocated_mono := id
  progress := .inl

variable {owed unmet : Nat} {f : Flow} {rest : List Flow} {d : Division}

namespace Fair

/-- What holds after the turn of a flow, if enough of them are still counted. -/
theorem next {d' : Division} {f' : Flow} (h : Fair owed unmet (f :: rest) d)
    (hturned : Turned f d f' d') (hnonneg : 0 ≤ d'.remSym) (hshare : 0 < d'.nRemSymPerFlow)
    (hcounted : ((unmet + (if f'.Lacks then 1 else 0) + lacking rest : Nat) : Int) ≤
      d'.nFlowsTot)
    (hcovered : d'.remSym = 0 ∨ d'.nRemSymPerFlow = 1 ∨
      d'.nRemSymPerFlow * d'.nFlowsTot ≤ d'.remSym ∨
      ((lacking rest + 1 : Nat) : Int) ≤ d'.nFlowsTot) :
    Fair (owed + (f'.wants - f'.has)) (unmet + if f'.Lacks then 1 else 0) rest d' where
  nonneg := hnonneg
  wanted := by
    have hwanted := h.wanted
    have hwithin := hturned.within
    have hgrows := hturned.grows
    have hgiven := hturned.given
    rw [lack_cons, ← hturned.wants_eq] at hwanted
    omega
  owed_eq_zero := by
    intro hnone
    have howed := h.owed_eq_zero (by omega)
    have hmet : ¬ f'.Lacks := fun hlacks => by simp [hlacks] at hnone
    unfold Flow.Lacks at hmet
    omega
  counted := hcounted
  share_pos := hshare
  covered := hcovered
  within := fun g hg => h.within g (List.mem_cons_of_mem _ hg)

/-- A flow that lacks symbols is counted. -/
theorem counted_cons (h : Fair owed unmet (f :: rest) d) (hlacks : f.Lacks) :
    ((unmet + lacking rest + 1 : Nat) : Int) ≤ d.nFlowsTot := by
  have hcounted := h.counted
  rw [lacking_cons, if_pos hlacks] at hcounted
  omega

/-- A flow that is passed over. -/
theorem skip (h : Fair owed unmet (f :: rest) d) (hturned : Turned f d f d) :
    Fair (owed + (f.wants - f.has)) (unmet + if f.Lacks then 1 else 0) rest d := by
  have hcounted := h.counted
  have hcovered := h.covered
  rw [lacking_cons] at hcounted hcovered
  refine h.next hturned h.nonneg h.share_pos (by omega) ?_
  split at hcovered <;> omega

/-- The loop is not left early. The flow would be the last one that lacks symbols, and would get
all that is left. -/
theorem one_lt_nFlowsTot (h : Fair owed unmet (f :: rest) d) (hlacks : f.Lacks)
    (hpos : 0 < d.remSym) (hless : (f.wants : Int) - f.has < d.nRemSymPerFlow)
    (hfits : (f.wants : Int) - f.has ≤ d.remSym) : 1 < d.nFlowsTot := by
  by_contra hlast
  have hcounted := h.counted_cons hlacks
  have hone : d.nFlowsTot = 1 := by omega
  have howed := h.owed_eq_zero (by omega)
  have hlack : lack rest = 0 := lack_eq_zero (by omega)
  have hwanted := h.wanted
  have hcovered := h.covered
  rw [lack_cons] at hwanted
  rw [lacking_cons, if_pos hlacks, hone, Int.mul_one] at hcovered
  unfold Flow.Lacks at hlacks
  omega

end Fair

/-- What the others get more when a flow leaves some of its share. -/
theorem extra_covered {share deficit nFlows remSym : Int} (hfew : 1 < nFlows)
    (hless : deficit < share) (hcovered : share * nFlows ≤ remSym) :
    (share + (share - deficit).tdiv (nFlows - 1)) * (nFlows - 1) ≤ remSym - deficit := by
  have hextra : (share - deficit).tdiv (nFlows - 1) * (nFlows - 1) ≤ share - deficit := by
    rw [Int.tdiv_eq_ediv_of_nonneg (by omega)]
    exact Int.ediv_mul_le _ (by omega)
  calc
    (share + (share - deficit).tdiv (nFlows - 1)) * (nFlows - 1)
        = share * nFlows - share + (share - deficit).tdiv (nFlows - 1) * (nFlows - 1) := by ring
    _ ≤ remSym - share + (share - deficit) := by omega
    _ = remSym - deficit := by ring

/-- A flow may have symbols, and lacks some. -/
structure Due (f : Flow) (d : Division) : Prop where
  left : 0 < d.remSym
  lacks : f.Lacks
  average : (f.has : Int) ≤ d.nSymPerFlow0

namespace Due

theorem turn_eq (h : Due f d) :
    f.turn d = (d.share ((f.wants : Int) - f.has)).map fun result =>
      ({ f with has := f.has + result.1.1.toNat },
        { result.2 with
          remSym := result.2.remSym - result.1.1
          allocated := result.2.allocated || (f.counts || result.1.2) }) := by
  have hlacks : f.has < f.wants := h.lacks
  rw [Flow.turn, if_pos ⟨h.left, by omega, h.average⟩]
  cases d.share ((f.wants : Int) - f.has) with
  | none => rfl
  | some result => rfl

/-- The flow gets the last symbols, which are not enough. -/
theorem takesLast (h : Due f d) (hfair : Fair owed unmet (f :: rest) d)
    (hless : (f.wants : Int) - f.has < d.nRemSymPerFlow)
    (hshort : d.remSym < (f.wants : Int) - f.has) :
    ∃ f' d', f.turn d = some (f', d') ∧ Turned f d f' d' ∧
      Fair (owed + (f'.wants - f'.has)) (unmet + if f'.Lacks then 1 else 0) rest d' := by
  have hleft := h.left
  have hlacks : f.has < f.wants := h.lacks
  have hcounted := hfair.counted_cons h.lacks
  have hturned : Turned f d { f with has := f.has + d.remSym.toNat }
      { d with
        remSym := d.remSym - d.remSym
        allocated := d.allocated || (f.counts || false) } := {
    wants_eq := rfl
    counts_eq := rfl
    grows := Nat.le_add_right _ _
    within := by dsimp only; omega
    given := by dsimp only; omega
    average_le := Int.le_refl _
    held := fun _ => .inl (Int.sub_self _)
    allocated_mono := fun hallocated => by simp [hallocated]
    progress := fun _ => .inr (by dsimp only; omega) }
  refine ⟨_, _, ?_, hturned, hfair.next hturned (by dsimp only; omega) hfair.share_pos ?_
    (.inl (Int.sub_self _))⟩
  · rw [h.turn_eq, Division.share, if_pos hless, if_pos hshort]
    rfl
  · dsimp only
    split <;> omega

/-- The flow gets all it lacks, and the others get more. -/
theorem takesAll (h : Due f d) (hfair : Fair owed unmet (f :: rest) d)
    (hless : (f.wants : Int) - f.has < d.nRemSymPerFlow)
    (hfits : (f.wants : Int) - f.has ≤ d.remSym) :
    ∃ f' d', f.turn d = some (f', d') ∧ Turned f d f' d' ∧
      Fair (owed + (f'.wants - f'.has)) (unmet + if f'.Lacks then 1 else 0) rest d' := by
  have hlacks : f.has < f.wants := h.lacks
  have hcounted := hfair.counted_cons h.lacks
  have hfew := hfair.one_lt_nFlowsTot h.lacks h.left hless hfits
  have hextra : 0 ≤ (d.nRemSymPerFlow - ((f.wants : Int) - f.has)).tdiv (d.nFlowsTot - 1) :=
    Int.tdiv_nonneg (by omega) (by omega)
  obtain ⟨extra, hextra_eq⟩ : ∃ extra,
      extra = (d.nRemSymPerFlow - ((f.wants : Int) - f.has)).tdiv (d.nFlowsTot - 1) := ⟨_, rfl⟩
  have hhas : f.has + ((f.wants : Int) - f.has).toNat = f.wants := by omega
  have hmet : ¬ ({ f with has := f.wants } : Flow).Lacks := Nat.lt_irrefl _
  have hturned : Turned f d { f with has := f.wants }
      { d with
        remSym := d.remSym - ((f.wants : Int) - f.has)
        nFlowsTot := d.nFlowsTot - 1
        nSymPerFlow0 := d.nSymPerFlow0 + extra
        nRemSymPerFlow := d.nRemSymPerFlow + extra
        allocated := d.allocated || (f.counts || false) } := {
    wants_eq := rfl
    counts_eq := rfl
    grows := Nat.le_of_lt hlacks
    within := Nat.le_refl _
    given := rfl
    average_le := by dsimp only; omega
    held := fun h => (hmet h).elim
    allocated_mono := fun hallocated => by simp [hallocated]
    progress := fun _ => .inr (by dsimp only; omega) }
  refine ⟨_, _, ?_, hturned, hfair.next hturned (by dsimp only; omega)
    (by have := hfair.share_pos; dsimp only; omega) ?_ ?_⟩
  · rw [h.turn_eq, Division.share, if_pos hless, if_neg (by omega)]
    dsimp only
    rw [if_neg (by omega), Option.map_some, hhas, ← hextra_eq]
  · rw [if_neg hmet]
    dsimp only
    omega
  · have hcovered := hfair.covered
    rw [lacking_cons, if_pos h.lacks] at hcovered
    rcases hcovered with hzero | hone | hcovered | hmore
    · have := h.left
      omega
    · omega
    · refine .inr (.inr (.inl ?_))
      rw [hextra_eq]
      exact extra_covered hfew hless hcovered
    · exact .inr (.inr (.inr (by dsimp only; omega)))

/-- The flow gets a share. -/
theorem takesShare (h : Due f d) (hfair : Fair owed unmet (f :: rest) d)
    (hmore : d.nRemSymPerFlow ≤ (f.wants : Int) - f.has) :
    ∃ f' d', f.turn d = some (f', d') ∧ Turned f d f' d' ∧
      Fair (owed + (f'.wants - f'.has)) (unmet + if f'.Lacks then 1 else 0) rest d' := by
  have hleft := h.left
  have hshare := hfair.share_pos
  have hlacks : f.has < f.wants := h.lacks
  have hcounted := hfair.counted_cons h.lacks
  have hturned : Turned f d
      { f with has := f.has + (min d.nRemSymPerFlow d.remSym).toNat }
      { d with
        remSym := d.remSym - min d.nRemSymPerFlow d.remSym
        allocated := d.allocated || (f.counts || true) } := {
    wants_eq := rfl
    counts_eq := rfl
    grows := Nat.le_add_right _ _
    within := by dsimp only; omega
    given := by dsimp only; omega
    average_le := Int.le_refl _
    held := fun _ => .inr (.inl (by simp))
    allocated_mono := fun hallocated => by simp [hallocated]
    progress := fun _ => .inr (by dsimp only; omega) }
  refine ⟨_, _, ?_, hturned, hfair.next hturned (by dsimp only; omega) hshare ?_
    (.inr (.inr (.inr ?_)))⟩
  · rw [h.turn_eq, Division.share, if_neg (by omega)]
    rfl
  · dsimp only
    split <;> omega
  · dsimp only
    omega

end Due

/-- What the turn of a flow does, and what holds before the next one. -/
theorem Fair.turn (h : Fair owed unmet (f :: rest) d) :
    ∃ f' d', f.turn d = some (f', d') ∧ Turned f d f' d' ∧
      Fair (owed + (f'.wants - f'.has)) (unmet + if f'.Lacks then 1 else 0) rest d' := by
  by_cases hdue : Due f d
  · by_cases hless : (f.wants : Int) - f.has < d.nRemSymPerFlow
    · by_cases hshort : d.remSym < (f.wants : Int) - f.has
      · exact hdue.takesLast h hless hshort
      · exact hdue.takesAll h hless (Int.not_lt.1 hshort)
    · exact hdue.takesShare h (Int.not_lt.1 hless)
  · have hwithin := h.within f List.mem_cons_self
    have hnonneg := h.nonneg
    have hturned : Turned f d f d := Turned.refl hwithin fun hlacks => by
      by_contra hnone
      push Not at hnone
      exact hdue ⟨by omega, hlacks, hnone.2.2⟩
    refine ⟨f, d, if_neg fun hcond => hdue ⟨hcond.1, ?_, hcond.2.2⟩, hturned, h.skip hturned⟩
    have hdeficit := hcond.2.1
    show f.has < f.wants
    omega

/-! ## One round -/

/-- The turns of the flows. -/
def round : List Flow → Division → Option (List Flow × Division)
  | [], d => some ([], d)
  | f :: rest, d =>
      (f.turn d).bind fun turned =>
        (round rest turned.2).map fun result => (turned.1 :: result.1, result.2)

/-- How many symbols the flows have. -/
def had (flows : List Flow) : Nat := (flows.map Flow.has).sum

theorem had_cons : had (f :: rest) = f.has + had rest := by
  simp [had]

/-- What rounds do to a flow. -/
structure Served (f f' : Flow) : Prop where
  wants_eq : f'.wants = f.wants
  counts_eq : f'.counts = f.counts
  grows : f.has ≤ f'.has
  within : f'.has ≤ f'.wants

theorem Served.trans {f f' f'' : Flow} (h : Served f f') (h' : Served f' f'') : Served f f'' where
  wants_eq := h'.wants_eq.trans h.wants_eq
  counts_eq := h'.counts_eq.trans h.counts_eq
  grows := Nat.le_trans h.grows h'.grows
  within := h'.within

/-- What a round does. A flow that lacks symbols afterwards had more than the average before, unless
no symbol is left or a flow got a whole share. -/
structure Rounded (flows : List Flow) (d : Division) (flows' : List Flow) (d' : Division) :
    Prop where
  served : List.Forall₂ Served flows flows'
  given : d'.remSym = d.remSym - ((had flows' : Int) - had flows)
  average_le : d.nSymPerFlow0 ≤ d'.nSymPerFlow0
  held : ∀ f' ∈ flows', f'.Lacks →
    d'.remSym = 0 ∨ d'.allocated = true ∨ d.nSymPerFlow0 < f'.has
  allocated_mono : d.allocated = true → d'.allocated = true
  progress : d'.allocated = true → d.allocated = true ∨ d'.remSym < d.remSym

theorem had_le {flows flows' : List Flow} (hserved : List.Forall₂ Served flows flows') :
    had flows ≤ had flows' := by
  induction hserved with
  | nil => exact Nat.le_refl _
  | cons hserved _ ih =>
      rw [had_cons, had_cons]
      exact Nat.add_le_add hserved.grows ih

theorem Fair.round {flows : List Flow} (h : Fair owed unmet flows d) :
    ∃ flows' d', round flows d = some (flows', d') ∧ Rounded flows d flows' d' ∧
      Fair (owed + lack flows') (unmet + lacking flows') [] d' := by
  induction flows generalizing owed unmet d with
  | nil => exact ⟨[], d, rfl, {
      served := .nil
      given := by rw [Int.sub_self, Int.sub_zero]
      average_le := Int.le_refl _
      held := fun f' hf' => (List.not_mem_nil hf').elim
      allocated_mono := id
      progress := .inl }, h⟩
  | cons f rest ih =>
      obtain ⟨f', d', hturn, hturned, hnext⟩ := h.turn
      obtain ⟨rest', d'', hround, hrounded, hend⟩ := ih hnext
      have hgiven := hturned.given
      have hrest := hrounded.given
      have hmore := had_le hrounded.served
      refine ⟨f' :: rest', d'', ?_, ?_, ?_⟩
      · rw [FlexTti.round, hturn, Option.bind_some, hround, Option.map_some]
      · refine {
          served := .cons ⟨hturned.wants_eq, hturned.counts_eq, hturned.grows, hturned.within⟩
            hrounded.served
          given := by
            rw [had_cons, had_cons]
            omega
          average_le := Int.le_trans hturned.average_le hrounded.average_le
          held := ?_
          allocated_mono := fun hallocated =>
            hrounded.allocated_mono (hturned.allocated_mono hallocated)
          progress := ?_ }
        · intro g hg hlacks
          rcases List.mem_cons.1 hg with rfl | hg
          · rcases hturned.held hlacks with hzero | hallocated | ⟨hsame, hover⟩
            · -- nothing is left for the flows behind it
              have hnonneg := hend.nonneg
              exact .inl (by omega)
            · exact .inr (.inl (hrounded.allocated_mono hallocated))
            · exact .inr (.inr (by omega))
          · rcases hrounded.held g hg hlacks with hzero | hallocated | hover
            · exact .inl hzero
            · exact .inr (.inl hallocated)
            · exact .inr (.inr (Int.lt_of_le_of_lt hturned.average_le hover))
        · intro hallocated
          rcases hrounded.progress hallocated with hbefore | hless
          · rcases hturned.progress hbefore with hfirst | hless
            · exact .inl hfirst
            · exact .inr (by omega)
          · have hgrows := hturned.grows
            exact .inr (by omega)
      · rw [lack_cons, lacking_cons]
        have howed : owed + (f'.wants - f'.has + lack rest') =
            owed + (f'.wants - f'.has) + lack rest' := by omega
        have hunmet : unmet + (lacking rest' + if f'.Lacks then 1 else 0) =
            unmet + (if f'.Lacks then 1 else 0) + lacking rest' := by omega
        rw [howed, hunmet]
        exact hend

end FlexTti

end NtnIab.Mmwave
