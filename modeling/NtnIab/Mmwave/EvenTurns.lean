import Mathlib.Order.Basic
import NtnIab.Mmwave.PfDivision

/-!
# The turns of the two directions of a UE

The division by the proportional fair scheduler should give the symbols of a UE evenly to its
downlink and its uplink. The bit that remembers the last direction is read the wrong way round: a UE
whose last symbol was one of the uplink gets the next one in the uplink too, and stays with a
direction until that is done.

## Strategy

While neither direction of a UE is done, all its symbols are in the direction that it leans to
(`Leaning`). So the two counters stay close as long as there is no second symbol that leaves the
direction open (`balanced_addSymbol_iff`). A round gives a symbol to one UE and at most marks
directions of others as done (`find_walk`), and the rounds follow by induction.
-/

namespace NtnIab.Mmwave

namespace FlexTtiPf

open Fallible

variable (c : FlexTtiConfig)

/-! ## What is claimed -/

/-- The demand of a direction is covered, or the cap of an IAB device is reached. -/
def Direction.Done (iab : Bool) (d : Direction) : Prop :=
  d.totBuf ≤ d.tbSize ∨ iab = true ∧ d.maxSymbols ≤ d.symbols

/-- Neither direction is done. -/
def UeSchedInfo.Open (ue : UeSchedInfo) : Prop := ∀ mode, ¬ (ue.direction mode).Done ue.iab

/-- The two counters differ by at most one, as long as neither direction is done. -/
def UeSchedInfo.Balanced (ue : UeSchedInfo) : Prop :=
  ue.Open → ue.dl.symbols ≤ ue.ul.symbols + 1 ∧ ue.ul.symbols ≤ ue.dl.symbols + 1

def Division.Balanced (d : Division) : Prop :=
  ∀ rnti ∈ d.ueStatHeap, ∀ ue ∈ d.ueSchedInfoMap.find rnti, ue.Balanced

/-- A turn that keeps the balance: a direction is done, or the one whose turn it is has no symbol
yet, or it is done with two. -/
def UeSchedInfo.EvenTurn (mode : TddMode) (ue : UeSchedInfo) : Prop :=
  ue.Open → (ue.direction mode).symbols = 0 ∨
    (ue.direction mode).totBuf ≤ tbSizeOf c.toPaddedHbfConfig (ue.direction mode).mcs 2 ∨
    ue.iab = true ∧ (ue.direction mode).maxSymbols ≤ 2

/-- The flow whose turn it is. -/
def Division.turn (d : Division) : Option Flow :=
  (walk c (c.ueSort.sort (compareUeWeightsPf d.ueSchedInfoMap) d.ueStatHeap) d.ueSchedInfoMap).1

def Division.EvenTurn (d : Division) : Prop :=
  ∀ rnti mode, d.turn c = some (rnti, mode) → ∀ ue ∈ d.ueSchedInfoMap.find rnti,
    ue.EvenTurn c mode

/-- The division before the first round. -/
def WorkingList.begin (symAvail : Nat) (w : WorkingList) : Division where
  symAvail
  ueStatHeap := w.ueStatHeap
  ueSchedInfoMap := w.ueSchedInfoMap

/-! ## Flags -/

/-- What the flag of a direction says. -/
structure Direction.Flagged (iab : Bool) (d : Direction) : Prop where
  sound : d.allocDone = true → d.Done iab
  covered : d.totBuf ≤ d.tbSize → d.totBuf = 0 ∨ d.allocDone = true

variable {c} {iab : Bool} {d : Direction}

theorem Direction.Flagged.of_cleared (hd : d.Cleared) : d.Flagged iab where
  sound := fun hdone => by rw [hd.2.2] at hdone; cases hdone
  covered := fun hle => Or.inl (by rw [hd.2.1] at hle; exact Nat.le_zero.1 hle)

theorem Direction.done_markDone : (d.markDone iab).Done iab ↔ d.Done iab := by
  unfold Direction.markDone
  split
  · exact Iff.rfl
  · exact Iff.rfl

/-- A direction that was looked at has the flag exactly if it is done. -/
theorem Direction.Flagged.allocDone_markDone (h : d.Flagged iab) :
    (d.markDone iab).allocDone = true ↔ d.Done iab := by
  unfold Direction.markDone
  split_ifs with hcase
  · refine ⟨fun _ => ?_, fun _ => rfl⟩
    rcases hcase with hzero | hcap
    · exact Or.inl (hzero ▸ Nat.zero_le _)
    · exact Or.inr hcap
  · refine ⟨h.sound, fun hdone => ?_⟩
    rw [not_or] at hcase
    rcases hdone with hcovered | hcap
    · exact (h.covered hcovered).resolve_left hcase.1
    · exact absurd hcap hcase.2

theorem Direction.Flagged.markDone (h : d.Flagged iab) : (d.markDone iab).Flagged iab := by
  refine ⟨fun hdone => Direction.done_markDone.2 (h.allocDone_markDone.1 hdone), fun hle => ?_⟩
  refine Or.inr (h.allocDone_markDone.2 (Or.inl ?_))
  unfold Direction.markDone at hle
  split at hle
  · exact hle
  · exact hle

theorem Direction.flagged_addSymbol (hgoing : d.allocDone = false) :
    (d.addSymbol c).Flagged iab := by
  unfold Direction.addSymbol
  refine ⟨fun hdone => Or.inl ?_, fun hle => Or.inr ?_⟩
  · simpa [hgoing] using hdone
  · simpa [hgoing] using hle

/-! ## One UE -/

/-- The direction of the last symbol. -/
def UeSchedInfo.lead (ue : UeSchedInfo) : TddMode := if ue.allocUlLast then .ul else .dl

/-- While neither direction is done, all symbols are in the direction of the last one, and there is
at most one. -/
structure UeSchedInfo.Leaning (ue : UeSchedInfo) : Prop where
  flagged : ∀ mode, (ue.direction mode).Flagged ue.iab
  ahead : ue.Open → (ue.direction ue.lead).symbols ≤ 1
  behind : ue.Open → ∀ mode, mode ≠ ue.lead → (ue.direction mode).symbols = 0

section

variable {ue : UeSchedInfo} {mode : TddMode}

theorem UeSchedInfo.Leaning.of_cleared (hue : ue.Cleared) : ue.Leaning := by
  have hcleared : ∀ mode, (ue.direction mode).Cleared := by
    intro mode
    cases mode with
    | dl => exact hue.1
    | ul => exact hue.2
  refine ⟨fun mode => .of_cleared (hcleared mode), fun _ => ?_, fun _ mode _ => (hcleared mode).1⟩
  rw [(hcleared _).1]
  exact Nat.zero_le 1

theorem UeSchedInfo.Leaning.balanced (h : ue.Leaning) : ue.Balanced := by
  intro hopen
  have hahead := h.ahead hopen
  have hbehind := h.behind hopen
  unfold UeSchedInfo.lead at hahead hbehind
  cases hlast : ue.allocUlLast with
  | true =>
      simp only [hlast, if_true] at hahead hbehind
      have hdl : ue.dl.symbols = 0 := hbehind .dl (by decide)
      have hul : ue.ul.symbols ≤ 1 := hahead
      omega
  | false =>
      simp only [hlast, Bool.false_eq_true, if_false] at hahead hbehind
      have hul : ue.ul.symbols = 0 := hbehind .ul (by decide)
      have hdl : ue.dl.symbols ≤ 1 := hahead
      omega

theorem UeSchedInfo.open_markDone : ue.markDone.Open ↔ ue.Open := by
  refine forall_congr' fun mode => not_congr ?_
  rw [UeSchedInfo.direction_markDone]
  exact Direction.done_markDone

theorem Direction.symbols_markDone : (d.markDone iab).symbols = d.symbols := by
  unfold Direction.markDone
  split <;> rfl

theorem UeSchedInfo.Leaning.markDone (h : ue.Leaning) : ue.markDone.Leaning := by
  refine ⟨fun mode => ?_, fun hopen => ?_, fun hopen mode hmode => ?_⟩
  · rw [UeSchedInfo.direction_markDone]
    exact (h.flagged mode).markDone
  · rw [UeSchedInfo.direction_markDone, Direction.symbols_markDone]
    exact h.ahead (UeSchedInfo.open_markDone.1 hopen)
  · rw [UeSchedInfo.direction_markDone, Direction.symbols_markDone]
    exact h.behind (UeSchedInfo.open_markDone.1 hopen) mode hmode

/-! ## A turn -/

/-- The flags of a UE that was looked at. -/
def UeSchedInfo.Marked (ue : UeSchedInfo) : Prop :=
  ∀ mode, (ue.direction mode).allocDone = true ↔ (ue.direction mode).Done ue.iab

theorem UeSchedInfo.Leaning.marked (h : ue.Leaning) : ue.markDone.Marked := by
  intro mode
  rw [UeSchedInfo.direction_markDone]
  exact (h.flagged mode).allocDone_markDone.trans Direction.done_markDone.symm

/-- A UE for which both directions can be used goes on with the direction of its last symbol. -/
theorem UeSchedInfo.Marked.turn_eq_lead (h : ue.Marked) (hopen : ue.Open)
    (hturn : ue.nextTurn = some mode) : mode = ue.lead := by
  have hgoing : ∀ other, (ue.direction other).allocDone = false := by
    intro other
    exact Bool.eq_false_iff.2 fun hdone => hopen other ((h other).1 hdone)
  have hdl : ue.dl.allocDone = false := hgoing .dl
  have hul : ue.ul.allocDone = false := hgoing .ul
  unfold UeSchedInfo.nextTurn at hturn
  unfold UeSchedInfo.lead
  cases hlast : ue.allocUlLast with
  | true => simpa [hdl, hul, hlast] using hturn.symm
  | false => simpa [hdl, hul, hlast] using hturn.symm

theorem UeSchedInfo.Marked.not_done (h : ue.Marked) (hturn : ue.nextTurn = some mode) :
    ¬ (ue.direction mode).Done ue.iab := by
  intro hdone
  have hgoing := UeSchedInfo.nextTurn_eq_some hturn
  rw [(h mode).2 hdone] at hgoing
  cases hgoing

theorem UeSchedInfo.lead_addSymbol : (ue.addSymbol c mode).lead = mode := by
  cases mode <;> rfl

/-- Both directions can be used after a symbol exactly if they could before, and the symbol does
not complete its direction. -/
theorem UeSchedInfo.Marked.open_addSymbol (h : ue.Marked) (hturn : ue.nextTurn = some mode) :
    (ue.addSymbol c mode).Open ↔
      ue.Open ∧ ¬ ((ue.direction mode).addSymbol c).Done ue.iab := by
  have hsame : (ue.addSymbol c mode).iab = ue.iab := UeSchedInfo.iab_addSymbol
  constructor
  · intro hopen
    refine ⟨fun other => ?_, ?_⟩
    · have hother := hopen other
      rw [UeSchedInfo.direction_addSymbol, hsame] at hother
      split_ifs at hother with heq
      · exact heq ▸ h.not_done hturn
      · exact hother
    · have hmode := hopen mode
      rwa [UeSchedInfo.direction_addSymbol, if_pos rfl, hsame] at hmode
  · rintro ⟨hopen, hleft⟩ other
    rw [UeSchedInfo.direction_addSymbol, hsame]
    split_ifs with heq
    · exact heq ▸ hleft
    · exact hopen other

/-- A second symbol completes a direction exactly if two are enough for what waits, or for the
cap. -/
theorem Direction.done_addSymbol_iff (hone : d.symbols = 1) :
    (d.addSymbol c).Done iab ↔
      d.totBuf ≤ tbSizeOf c.toPaddedHbfConfig d.mcs 2 ∨ iab = true ∧ d.maxSymbols ≤ 2 := by
  unfold Direction.Done Direction.addSymbol
  dsimp only
  rw [hone, show (1 + 1) % 2 ^ 8 = 2 from rfl]

theorem UeSchedInfo.symbols_addSymbol {n : Nat} (hn : (ue.direction mode).symbols = n)
    (hsmall : n ≤ 1) : ((ue.addSymbol c mode).direction mode).symbols = n + 1 := by
  rw [UeSchedInfo.direction_addSymbol, if_pos rfl]
  show ((ue.direction mode).symbols + 1) % 2 ^ 8 = n + 1
  omega

/-- An even turn keeps the UE leaning to one direction. -/
theorem UeSchedInfo.Leaning.addSymbol (h : ue.Leaning) (hmarked : ue.Marked)
    (hturn : ue.nextTurn = some mode) (heven : ue.EvenTurn c mode) :
    (ue.addSymbol c mode).Leaning := by
  have hsame : (ue.addSymbol c mode).iab = ue.iab := UeSchedInfo.iab_addSymbol
  refine ⟨fun other => ?_, fun hopen => ?_, fun hopen other hother => ?_⟩
  · rw [UeSchedInfo.direction_addSymbol, hsame]
    split_ifs with heq
    · exact Direction.flagged_addSymbol (heq ▸ UeSchedInfo.nextTurn_eq_some hturn)
    · exact h.flagged other
  · obtain ⟨hbefore, hleft⟩ := (hmarked.open_addSymbol hturn).1 hopen
    have hahead := h.ahead hbefore
    rw [← hmarked.turn_eq_lead hbefore hturn] at hahead
    rcases heven hbefore with hnone | henough
    · rw [UeSchedInfo.lead_addSymbol, UeSchedInfo.symbols_addSymbol hnone (by decide)]
    · -- a second symbol would have completed the direction
      have hnone : (ue.direction mode).symbols = 0 := by
        by_contra hsome
        exact hleft ((Direction.done_addSymbol_iff (by omega)).2 henough)
      rw [UeSchedInfo.lead_addSymbol, UeSchedInfo.symbols_addSymbol hnone (by decide)]
  · obtain ⟨hbefore, -⟩ := (hmarked.open_addSymbol hturn).1 hopen
    rw [UeSchedInfo.lead_addSymbol] at hother
    rw [UeSchedInfo.direction_addSymbol, if_neg hother]
    exact h.behind hbefore other (hmarked.turn_eq_lead hbefore hturn ▸ hother)

/-- A turn keeps the balance exactly if it is even. -/
theorem UeSchedInfo.Leaning.balanced_addSymbol_iff (h : ue.Leaning) (hmarked : ue.Marked)
    (hturn : ue.nextTurn = some mode) :
    (ue.addSymbol c mode).Balanced ↔ ue.EvenTurn c mode := by
  refine ⟨fun hbalanced hopen => ?_, fun heven => (h.addSymbol hmarked hturn heven).balanced⟩
  have hlead := hmarked.turn_eq_lead hopen hturn
  have hahead := h.ahead hopen
  rw [← hlead] at hahead
  by_contra hnot
  rw [not_or] at hnot
  have hone : (ue.direction mode).symbols = 1 := by omega
  have hleft : ¬ ((ue.direction mode).addSymbol c).Done ue.iab := fun hdone =>
    hnot.2 ((Direction.done_addSymbol_iff hone).1 hdone)
  -- two symbols in this direction, and none in the other
  have htwo := UeSchedInfo.symbols_addSymbol (c := c) hone (Nat.le_refl 1)
  have hclose := hbalanced ((hmarked.open_addSymbol hturn).2 ⟨hopen, hleft⟩)
  cases mode with
  | dl =>
      have hul : ue.ul.symbols = 0 := h.behind hopen .ul (by rw [← hlead]; decide)
      have hdl : (ue.addSymbol c .dl).dl.symbols = 2 := htwo
      have hkept : (ue.addSymbol c .dl).ul.symbols = ue.ul.symbols := rfl
      omega
  | ul =>
      have hdl : ue.dl.symbols = 0 := h.behind hopen .dl (by rw [← hlead]; decide)
      have hul : (ue.addSymbol c .ul).ul.symbols = 2 := htwo
      have hkept : (ue.addSymbol c .ul).dl.symbols = ue.dl.symbols := rfl
      omega

/-- The condition does not depend on the flags. -/
theorem UeSchedInfo.evenTurn_markDone : ue.markDone.EvenTurn c mode ↔ ue.EvenTurn c mode := by
  refine imp_congr UeSchedInfo.open_markDone ?_
  rw [UeSchedInfo.direction_markDone]
  unfold Direction.markDone
  split
  · exact Iff.rfl
  · exact Iff.rfl

end

/-! ## A round -/

section

variable {list : List Nat} {ues : OrderedMap UeSchedInfo} {rnti : Nat} {ue : UeSchedInfo}

theorem UeSchedInfo.markDone_markDone : ue.markDone.markDone = ue.markDone := by
  have htwice : ∀ d : Direction, (d.markDone ue.iab).markDone ue.iab = d.markDone ue.iab := by
    intro d
    unfold Direction.markDone
    split_ifs <;> simp_all
  unfold UeSchedInfo.markDone
  dsimp only
  rw [htwice, htwice]

/-- Looking at a UE does not change what is seen when it is looked at again. -/
theorem getD_find_adjust_markDone {other : Nat} :
    (((ues.adjust rnti fun _ => ((ues.find rnti).getD {}).markDone).find other).getD {}).markDone =
      ((ues.find other).getD {}).markDone := by
  rw [OrderedMap.find_adjust]
  split_ifs with heq
  · subst heq
    cases ues.find other with
    | none => rfl
    | some ue => exact UeSchedInfo.markDone_markDone
  · rfl

/-- A walk finds nobody exactly if no UE of the list can use a symbol. -/
theorem walk_eq_none_iff :
    (walk c list ues).1 = none ↔
      ∀ rnti ∈ list, ((ues.find rnti).getD {}).markDone.nextTurn = none := by
  induction list generalizing ues with
  | nil => exact iff_of_true rfl fun rnti hmem => (List.not_mem_nil hmem).elim
  | cons first rest ih =>
      rw [List.forall_mem_cons]
      unfold walk
      dsimp only
      cases hnext : ((ues.find first).getD {}).markDone.nextTurn with
      | some mode =>
          exact iff_of_false (Option.some_ne_none _) fun h => Option.some_ne_none _ h.1
      | none =>
          rw [ih]
          simp only [getD_find_adjust_markDone, true_and]

variable (c list) in
/-- What a walk does to the record of a UE: the UE gets the symbol, or its directions are marked at
most. -/
theorem find_walk (hfind : ues.find rnti = some ue) :
    ∃ ue', (walk c list ues).2.find rnti = some ue' ∧
      ((∀ mode, (walk c list ues).1 ≠ some (rnti, mode)) ∧ (ue' = ue ∨ ue' = ue.markDone) ∨
        ∃ mode, (walk c list ues).1 = some (rnti, mode) ∧ ue.markDone.nextTurn = some mode ∧
          ue' = ue.markDone.addSymbol c mode) := by
  induction list generalizing ues ue with
  | nil => exact ⟨ue, hfind, Or.inl ⟨nofun, Or.inl rfl⟩⟩
  | cons first rest ih =>
      unfold walk
      dsimp only
      by_cases hfirst : rnti = first
      · subst hfirst
        rw [hfind, Option.getD_some]
        cases hnext : ue.markDone.nextTurn with
        | some mode =>
            refine ⟨ue.markDone.addSymbol c mode, ?_, Or.inr ⟨mode, rfl, rfl, rfl⟩⟩
            rw [OrderedMap.find_adjust, if_pos rfl, hfind]
            rfl
        | none =>
            have hmarked : (ues.adjust rnti fun _ => ue.markDone).find rnti = some ue.markDone := by
              rw [OrderedMap.find_adjust, if_pos rfl, hfind]
              rfl
            obtain ⟨ue', hfind', hcase⟩ := ih hmarked
            rw [UeSchedInfo.markDone_markDone, or_self] at hcase
            refine ⟨ue', hfind', ?_⟩
            rcases hcase with ⟨hother, hsame⟩ | ⟨mode, hmode, hturn, -⟩
            · exact Or.inl ⟨hother, Or.inr hsame⟩
            · rw [hnext] at hturn
              cases hturn
      · cases hnext : ((ues.find first).getD {}).markDone.nextTurn with
        | some mode =>
            refine ⟨ue, ?_, Or.inl ⟨fun mode heq => ?_, Or.inl rfl⟩⟩
            · rw [OrderedMap.find_adjust, if_neg hfirst]
              exact hfind
            · exact hfirst (congrArg Prod.fst (Option.some.inj heq)).symm
        | none =>
            refine ih ?_
            rw [OrderedMap.find_adjust, if_neg hfirst]
            exact hfind

theorem mem_of_walk {mode : TddMode} (hturn : (walk c list ues).1 = some (rnti, mode)) :
    rnti ∈ list := by
  induction list generalizing ues with
  | nil => cases hturn
  | cons first rest ih =>
      unfold walk at hturn
      dsimp only at hturn
      cases hnext : ((ues.find first).getD {}).markDone.nextTurn with
      | some other =>
          rw [hnext] at hturn
          obtain ⟨rfl, -⟩ := Prod.mk.inj (Option.some.inj hturn)
          exact List.mem_cons_self
      | none =>
          rw [hnext] at hturn
          exact List.mem_cons_of_mem _ (ih hturn)

end

section

variable {d : Division}

/-- Every UE of the working list has a record, and leans to one direction. -/
def Division.Leaning (d : Division) : Prop :=
  ∀ rnti ∈ d.ueStatHeap, ∃ ue, d.ueSchedInfoMap.find rnti = some ue ∧ ue.Leaning

theorem Division.Leaning.balanced (h : d.Leaning) : d.Balanced := by
  intro rnti hmem ue hfind
  obtain ⟨ue', hfind', hleaning⟩ := h rnti hmem
  obtain rfl : ue' = ue := Option.some.inj (hfind'.symm.trans hfind)
  exact hleaning.balanced

theorem Division.ueSchedInfoMap_round :
    (d.round c).1.ueSchedInfoMap = (walk c (c.ueSort.sort (compareUeWeightsPf d.ueSchedInfoMap)
      d.ueStatHeap) d.ueSchedInfoMap).2 := by
  unfold Division.round
  dsimp only
  split <;> rfl

theorem Division.mem_round {rnti : Nat} :
    rnti ∈ (d.round c).1.ueStatHeap ↔ rnti ∈ d.ueStatHeap := by
  have hheap : (d.round c).1.ueStatHeap =
      c.ueSort.sort (compareUeWeightsPf d.ueSchedInfoMap) d.ueStatHeap := by
    unfold Division.round
    dsimp only
    split <;> rfl
  rw [hheap]
  exact (c.ueSort.perm _ _).mem_iff

theorem Division.round_snd : (d.round c).2 = (d.turn c).isSome := by
  unfold Division.round Division.turn
  dsimp only
  split
  · rename_i flow hsome
    rw [hsome]
    rfl
  · rename_i hnone
    rw [hnone]
    rfl

/-- What a round does to a UE that leans to one direction. -/
theorem Division.Leaning.find_round (h : d.Leaning) {rnti : Nat} (hmem : rnti ∈ d.ueStatHeap) :
    ∃ ue ue', d.ueSchedInfoMap.find rnti = some ue ∧
      (d.round c).1.ueSchedInfoMap.find rnti = some ue' ∧
      ((∀ mode, d.turn c ≠ some (rnti, mode)) ∧ ue'.Leaning ∨
        ∃ mode, d.turn c = some (rnti, mode) ∧ (ue'.Balanced ↔ ue.EvenTurn c mode) ∧
          (ue.EvenTurn c mode → ue'.Leaning)) := by
  obtain ⟨ue, hfind, hleaning⟩ := h rnti hmem
  obtain ⟨ue', hfind', hcase⟩ := find_walk c
    (c.ueSort.sort (compareUeWeightsPf d.ueSchedInfoMap) d.ueStatHeap) hfind
  rw [← Division.ueSchedInfoMap_round] at hfind'
  refine ⟨ue, ue', hfind, hfind', ?_⟩
  rcases hcase with ⟨hother, hsame⟩ | ⟨mode, hmode, hturn, rfl⟩
  · refine Or.inl ⟨hother, ?_⟩
    rcases hsame with rfl | rfl
    · exact hleaning
    · exact hleaning.markDone
  · refine Or.inr ⟨mode, hmode, ?_, fun heven => ?_⟩
    · rw [hleaning.markDone.balanced_addSymbol_iff hleaning.marked hturn]
      exact UeSchedInfo.evenTurn_markDone
    · exact hleaning.markDone.addSymbol hleaning.marked hturn
        (UeSchedInfo.evenTurn_markDone.2 heven)

/-- A round keeps the balance exactly if its turn is even. -/
theorem Division.Leaning.round (h : d.Leaning) :
    ((d.round c).1.Balanced ↔ d.EvenTurn c) ∧ (d.EvenTurn c → (d.round c).1.Leaning) := by
  have hleaning : d.EvenTurn c → (d.round c).1.Leaning := by
    intro heven rnti hmem
    obtain ⟨ue, ue', hfind, hfind', hcase⟩ := h.find_round (c := c) (Division.mem_round.1 hmem)
    refine ⟨ue', hfind', ?_⟩
    rcases hcase with ⟨-, hkept⟩ | ⟨mode, hturn, -, hkept⟩
    · exact hkept
    · exact hkept (heven rnti mode hturn ue hfind)
  refine ⟨⟨fun hbalanced rnti mode hturn ue hfind => ?_, fun heven => (hleaning heven).balanced⟩,
    hleaning⟩
  have hmem : rnti ∈ d.ueStatHeap := (c.ueSort.perm _ _).mem_iff.1 (mem_of_walk hturn)
  obtain ⟨ue₁, ue', hfind₁, hfind', hcase⟩ := h.find_round (c := c) hmem
  obtain rfl : ue₁ = ue := Option.some.inj (hfind₁.symm.trans hfind)
  rcases hcase with ⟨hother, -⟩ | ⟨mode', hturn', hiff, -⟩
  · exact absurd hturn (hother mode)
  · obtain ⟨-, rfl⟩ := Prod.mk.inj (Option.some.inj (hturn'.symm.trans hturn))
    exact hiff.1 (hbalanced rnti (Division.mem_round.2 hmem) ue' hfind')

/-- After a round in which nobody gets a symbol nobody can get one. -/
theorem Division.Leaning.turn_round (h : d.Leaning) (hnone : d.turn c = none) :
    (d.round c).1.turn c = none := by
  have hdone := walk_eq_none_iff.1 hnone
  refine walk_eq_none_iff.2 fun rnti hmem => ?_
  have hheap : rnti ∈ d.ueStatHeap :=
    Division.mem_round.1 ((c.ueSort.perm _ _).mem_iff.1 hmem)
  obtain ⟨ue, hfind, -⟩ := h rnti hheap
  have hue := hdone rnti ((c.ueSort.perm _ _).mem_iff.2 hheap)
  rw [hfind, Option.getD_some] at hue
  obtain ⟨ue', hfind', hcase⟩ := find_walk c
    (c.ueSort.sort (compareUeWeightsPf d.ueSchedInfoMap) d.ueStatHeap) hfind
  rw [Division.ueSchedInfoMap_round, hfind', Option.getD_some]
  rcases hcase with ⟨-, rfl | rfl⟩ | ⟨mode, hturn, -⟩
  · exact hue
  · rw [UeSchedInfo.markDone_markDone]
    exact hue
  · rw [Division.turn, hturn] at hnone
    cases hnone

/-- Once nobody gets a symbol, the state stays. -/
theorem Division.rounds_succ_of_none (hnone : d.turn c = none) (k : Nat) :
    d.rounds c (k + 1) = (d.round c).1 := by
  have hstop : (d.round c).2 = false := by rw [Division.round_snd, hnone]; rfl
  unfold Division.rounds
  dsimp only
  rw [hstop]
  rfl

theorem Division.rounds_succ_of_some {flow : Flow} (hsome : d.turn c = some flow) (k : Nat) :
    d.rounds c (k + 1) = (d.round c).1.rounds c k := by
  have hgoes : (d.round c).2 = true := by rw [Division.round_snd, hsome]; rfl
  rw [Division.rounds, if_pos hgoes]

/-- The balance is kept in all rounds exactly if every turn is even. -/
theorem Division.Leaning.rounds (h : d.Leaning) (n : Nat) :
    (∀ k < n + 1, (d.rounds c k).Balanced) ↔ ∀ k < n, (d.rounds c k).EvenTurn c := by
  induction n generalizing d with
  | zero =>
      refine iff_of_true (fun k hk => ?_) fun k hk => absurd hk (Nat.not_lt_zero k)
      obtain rfl : k = 0 := by omega
      exact h.balanced
  | succ n ih =>
      have hstates : (∀ k < n + 1 + 1, (d.rounds c k).Balanced) ↔
          (d.rounds c 0).Balanced ∧ ∀ k < n + 1, (d.rounds c (k + 1)).Balanced :=
        Nat.forall_lt_succ_left
      have hturns : (∀ k < n + 1, (d.rounds c k).EvenTurn c) ↔
          (d.rounds c 0).EvenTurn c ∧ ∀ k < n, (d.rounds c (k + 1)).EvenTurn c :=
        Nat.forall_lt_succ_left
      rw [hstates, hturns]
      have hfirst : (d.rounds c 0).Balanced := h.balanced
      obtain ⟨hiff, hleaning⟩ := h.round (c := c)
      cases hturn : d.turn c with
      | none =>
          have heven : d.EvenTurn c := fun rnti mode hsome => by
            rw [hturn] at hsome
            cases hsome
          have heven' : (d.round c).1.EvenTurn c := fun rnti mode hsome => by
            rw [h.turn_round hturn] at hsome
            cases hsome
          refine iff_of_true ⟨hfirst, fun k _ => ?_⟩ ⟨heven, fun k _ => ?_⟩
          · rw [Division.rounds_succ_of_none hturn]
            exact hiff.2 heven
          · rw [Division.rounds_succ_of_none hturn]
            exact heven'
      | some flow =>
          simp only [Division.rounds_succ_of_some hturn]
          constructor
          · rintro ⟨-, hbalanced⟩
            have heven := hiff.1 (hbalanced 0 (Nat.succ_pos n))
            exact ⟨heven, (ih (hleaning heven)).1 hbalanced⟩
          · rintro ⟨heven, hrest⟩
            exact ⟨hfirst, (ih (hleaning heven)).2 hrest⟩

end

/-! ## Working lists -/

theorem WorkingList.leaning_begin (symAvail : Nat) (w : WorkingList) :
    (w.begin symAvail).Leaning := by
  intro rnti hmem
  obtain ⟨ue, hfind, hcleared⟩ := w.cleared rnti hmem
  exact ⟨ue, hfind, .of_cleared hcleared⟩

/-- The division of a working list begins with the same list, in which the caps are set. -/
theorem WorkingList.exists_begin (w : WorkingList) {symAvail : Nat} {d : Division}
    (hok : divideSymbols c symAvail w.ueStatHeap w.ueSchedInfoMap = .ok d) :
    ∃ limited : WorkingList, limited.ueStatHeap = w.ueStatHeap ∧
      w.ueSchedInfoMap.traverse (fun rnti ue => blame (.ue rnti) (ue.limitIab symAvail)) =
        .ok limited.ueSchedInfoMap ∧
      d = (limited.begin symAvail).rounds c symAvail := by
  obtain ⟨limited, hlimited, hok⟩ := bind_eq_ok.1 hok
  obtain rfl := pure_eq_ok.1 hok
  have hcleared : ∀ rnti ∈ w.ueStatHeap, ∃ ue, limited.find rnti = some ue ∧ ue.Cleared := by
    intro rnti hmem
    obtain ⟨ue, hfind, hue⟩ := w.cleared rnti hmem
    obtain ⟨ue₀, hlimit, hfind₀⟩ := OrderedMap.find_traverse hlimited hfind
    exact ⟨ue₀, hfind₀, (UeSchedInfo.limitIab_kept (blame_eq_ok.1 hlimit)).2.1 hue⟩
  have hnodup : limited.keys.Nodup := by
    rw [OrderedMap.keys_traverse hlimited]
    exact w.nodup
  exact ⟨⟨w.ueStatHeap, limited, hnodup, hcleared⟩, rfl, hlimited, rfl⟩

/-- The symbols of a UE are split evenly between its two directions, while neither is done, exactly
if no turn gives a second symbol to a direction that this does not complete. The UE stays with a
direction until that is done. -/
theorem rounds_balanced_iff_evenTurn (c : FlexTtiConfig) (w : WorkingList) (symAvail n : Nat) :
    (∀ k ≤ n, ((w.begin symAvail).rounds c k).Balanced) ↔
      ∀ k < n, ((w.begin symAvail).rounds c k).EvenTurn c := by
  simp only [← Nat.lt_succ_iff]
  exact (w.leaning_begin symAvail).rounds n

theorem nodup_bothWays : [1].Nodup := List.nodup_singleton 1

/-- A UE that has a hundred bytes in both directions. -/
def bothWays : WorkingList where
  ueStatHeap := [1]
  ueSchedInfoMap := [(1, { dl := { totBuf := 100 }, ul := { totBuf := 100 } })]
  nodup := nodup_bothWays
  cleared := by
    intro rnti hmem
    obtain rfl := List.mem_singleton.1 hmem
    exact ⟨_, rfl, ⟨rfl, rfl, rfl⟩, rfl, rfl, rfl⟩

/-- After two rounds it has two symbols in the downlink and none in the uplink. -/
theorem not_rounds_balanced_bothWays :
    ¬ ∀ k ≤ 2, ((bothWays.begin 10).rounds tenBytes k).Balanced := by
  intro hbalanced
  have hue : (((bothWays.begin 10).rounds tenBytes 2).ueSchedInfoMap.find 1).map (fun ue =>
      ((ue.dl.symbols, ue.dl.tbSize, ue.dl.totBuf), (ue.ul.symbols, ue.ul.tbSize, ue.ul.totBuf),
        ue.iab)) = some ((2, 20, 100), (0, 0, 100), false) := by
    decide +kernel
  obtain ⟨ue, hfind, hfields⟩ := Option.map_eq_some_iff.1 hue
  have hheap : 1 ∈ ((bothWays.begin 10).rounds tenBytes 2).ueStatHeap := by decide +kernel
  simp only [Prod.mk.injEq] at hfields
  obtain ⟨⟨hdl, hdlSize, hdlBuf⟩, ⟨hul, hulSize, hulBuf⟩, hiab⟩ := hfields
  have hopen : ue.Open := by
    intro mode hdone
    cases mode with
    | dl =>
        rcases hdone with hle | ⟨hcapped, -⟩
        · change ue.dl.totBuf ≤ ue.dl.tbSize at hle
          omega
        · rw [hiab] at hcapped
          cases hcapped
    | ul =>
        rcases hdone with hle | ⟨hcapped, -⟩
        · change ue.ul.totBuf ≤ ue.ul.tbSize at hle
          omega
        · rw [hiab] at hcapped
          cases hcapped
  have hclose := hbalanced 2 (Nat.le_refl 2) 1 hheap ue hfind hopen
  omega

end FlexTtiPf

end NtnIab.Mmwave
