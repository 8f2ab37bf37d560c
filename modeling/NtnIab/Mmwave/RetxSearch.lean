import NtnIab.Library.Leaps
import NtnIab.Mmwave.FlexTtiScheduler

/-!
# Symbols for a retransmission behind busy ones

A retransmission needs a number of symbols next to each other. If one of the next symbols is busy,
a search looks for others behind it. When it finds a busy symbol among those that it looks at, it
goes on at the first free one behind all of them. Free symbols that begin in between are passed
over, and so are those that reach up to the uplink control symbols, which only the symbols right
at the start may do. So the retransmission can be kept for the next subframe although it fits into
this one. What the search finds is free, and it always ends.

## Strategy

A search by leaps over any row of cells is in the library. Its places are those of the loop, as
long as the symbols that are looked at lie in the subframe (`searchRetx_spec`). They do at the
start since no more symbols are available than lie before the uplink control symbols
(`Room.Within`), which every trigger sees to and every retransmission keeps.
-/

namespace NtnIab.Mmwave

open Leaps Fallible

variable {c : FlexTtiConfig}

/-! ## Busy symbols -/

namespace SfIabAllocInfo

variable {busy : SfIabAllocInfo} {start numSym : Nat}

/-- The symbol cannot be had. -/
def Busy (c : FlexTtiConfig) (busy : SfIabAllocInfo) (i : Nat) : Prop :=
  busy.applies c = true ∧ busy.symAllocationMask[i]? = some true

theorem busy_of_applies (happlies : busy.applies c = true) :
    busy.Busy c = fun i => busy.symAllocationMask[i]? = some true := by
  funext i
  exact propext ⟨fun h => h.2, fun h => ⟨happlies, h⟩⟩

theorem checkOverlap_iff :
    busy.checkOverlapWithBusyResources c start numSym = true ↔
      ¬ Free (busy.Busy c) numSym start := by
  unfold checkOverlapWithBusyResources
  cases happlies : busy.applies c with
  | false =>
      refine ⟨nofun, fun hnot => (hnot fun i _ _ hbusy => ?_).elim⟩
      exact absurd (happlies.symm.trans hbusy.1) (by decide)
  | true => rw [busy_of_applies happlies, Bool.true_and, any_eq_true_iff]

/-- The symbols of the subframe that the mask has. -/
def Masked (c : FlexTtiConfig) (busy : SfIabAllocInfo) : Prop :=
  busy.applies c = true → busy.symAllocationMask.length = c.phyMac.symbolsPerSubframe

theorem le_getNumFreeSymbols_iff (hmask : busy.Masked c) (happlies : busy.applies c = true)
    (hin : start + numSym ≤ c.phyMac.symbolsPerSubframe) :
    numSym ≤ busy.getNumFreeSymbols c start numSym ↔ Free (busy.Busy c) numSym start := by
  rw [getNumFreeSymbols, if_pos happlies, busy_of_applies happlies,
    le_length_takeWhile_iff (hmask happlies ▸ hin)]

theorem firstFree_getFirstFreeSymbol (hmask : busy.Masked c) (happlies : busy.applies c = true)
    (hbyte : c.phyMac.symbolsPerSubframe < 2 ^ 8)
    (hin : start + numSym ≤ c.phyMac.symbolsPerSubframe) :
    FirstFree (busy.Busy c) (start + numSym) (busy.getFirstFreeSymbol c start numSym) ∧
      busy.getFirstFreeSymbol c start numSym ≤ c.phyMac.symbolsPerSubframe := by
  have hle : start + numSym + ((busy.symAllocationMask.drop (start + numSym)).takeWhile
      fun bit => bit).length ≤ c.phyMac.symbolsPerSubframe := by
    have htaken := (List.takeWhile_prefix (l := busy.symAllocationMask.drop (start + numSym))
      fun bit => bit).length_le
    rw [List.length_drop, hmask happlies] at htaken
    omega
  rw [getFirstFreeSymbol, if_pos happlies, Nat.mod_eq_of_lt (Nat.lt_of_le_of_lt hle hbyte),
    busy_of_applies happlies]
  exact ⟨firstFree_takeWhile, hle⟩

/-- Symbols of the mask can be marked. -/
theorem exists_updateResourceMask (hiab : c.iabScheduler = true)
    (hin : start + numSym ≤ busy.symAllocationMask.length) :
    ∃ mask, busy.updateResourceMask c start numSym =
        .ok { busy with symAllocationMask := mask } ∧
      mask.length = busy.symAllocationMask.length := by
  have hmark : ∀ (numSym start : Nat) (mask : List Bool), start + numSym ≤ mask.length →
      ∃ mask', (List.range' start numSym).foldlM markBusy mask = .ok mask' ∧
        mask'.length = mask.length := by
    intro numSym
    induction numSym with
    | zero => exact fun start mask _ => ⟨mask, rfl, rfl⟩
    | succ n ih =>
        intro start mask hin
        have hget := elementAt_eq_ok.2 (List.getElem?_eq_getElem (show start < mask.length by omega))
        obtain ⟨mask', hrest, hlength⟩ := ih (start + 1) (mask.set start true)
          (by rw [List.length_set]; omega)
        refine ⟨mask', ?_, hlength.trans List.length_set⟩
        rw [List.range'_succ, List.foldlM_cons, markBusy, hget]
        exact hrest
  obtain ⟨mask, hok, hlength⟩ := hmark numSym start _ hin
  exact ⟨mask, by rw [updateResourceMask, if_pos hiab, hok]; rfl, hlength⟩

end SfIabAllocInfo

namespace Room

variable {room : Room} {busy : SfIabAllocInfo} {numSym start : Nat}

/-! ## The loop of the search -/

/-- Where the loop ends that began at `tmpSymIdx`: at the first of its places where all the
symbols are free, or with too few of them if there is no such place in the subframe. -/
structure Searched (c : FlexTtiConfig) (busy : SfIabAllocInfo) (numSym tmpSymIdx : Nat)
    (result : Nat × Nat) : Prop where
  found : numSym ≤ result.1 → Leads (busy.Busy c) numSym tmpSymIdx result.2 ∧
    Free (busy.Busy c) numSym result.2
  first : numSym ≤ result.1 → ∀ place, Leads (busy.Busy c) numSym tmpSymIdx place →
    Free (busy.Busy c) numSym place → result.2 ≤ place
  missing : result.1 < numSym → ∀ place, Leads (busy.Busy c) numSym tmpSymIdx place →
    Free (busy.Busy c) numSym place → c.phyMac.symbolsPerSubframe ≤ place + numSym

/-- The loop goes through the places of a search by leaps. Each of them lies behind the one
before, so the rounds are enough for a subframe. -/
theorem searchRetx_spec (hmask : busy.Masked c) (happlies : busy.applies c = true)
    (hbyte : c.phyMac.symbolsPerSubframe < 2 ^ 8) (hpos : 0 < numSym) {rounds tmpSymIdx : Nat}
    (hin : tmpSymIdx + numSym ≤ c.phyMac.symbolsPerSubframe)
    (hrounds : c.phyMac.symbolsPerSubframe ≤ tmpSymIdx + rounds) :
    ∃ result, searchRetx c busy numSym rounds tmpSymIdx = .ok result ∧
      Searched c busy numSym tmpSymIdx result := by
  have hlast : sub32 c.phyMac.symbolsPerSubframe 1 = c.phyMac.symbolsPerSubframe - 1 :=
    sub32_of_le (by omega) (by omega)
  induction rounds generalizing tmpSymIdx with
  | zero => omega
  | succ rounds ih =>
      unfold searchRetx
      dsimp only
      rw [hlast]
      split
      · -- behind the last symbol but one
        refine ⟨_, rfl, fun hle => absurd hle (by omega), fun hle => absurd hle (by omega),
          fun _ place hleads _ => ?_⟩
        have := hleads.le
        omega
      · have hcount := SfIabAllocInfo.le_getNumFreeSymbols_iff hmask happlies hin
        split
        · -- a symbol is busy, and the search leaps
          obtain ⟨hnext, hnextle⟩ :=
            SfIabAllocInfo.firstFree_getFirstFreeSymbol hmask happlies hbyte hin
          have hnot : ¬ Free (busy.Busy c) numSym tmpSymIdx := by
            rw [← hcount]
            omega
          have hlater : ∀ place, Leads (busy.Busy c) numSym tmpSymIdx place →
              Free (busy.Busy c) numSym place → Leads (busy.Busy c) numSym
                (busy.getFirstFreeSymbol c tmpSymIdx numSym) place :=
            fun place hleads hfree => hleads.next (fun heq => hnot (heq ▸ hfree)) hnext
          have hnextge := hnext.le
          rw [toInt32_of_lt (by omega)]
          split
          · -- no room is left behind it
            refine ⟨_, rfl, fun hle => absurd hle (by omega), fun hle => absurd hle (by omega),
              fun _ place hleads hfree => ?_⟩
            have := (hlater place hleads hfree).le
            omega
          · have hroom : busy.getFirstFreeSymbol c tmpSymIdx numSym + numSym ≤
                c.phyMac.symbolsPerSubframe := by omega
            obtain ⟨result, hok, hsearched⟩ := ih hroom (by omega)
            exact ⟨result, hok,
              fun hle => ⟨.leap hnext (hsearched.found hle).1, (hsearched.found hle).2⟩,
              fun hle place hleads hfree =>
                hsearched.first hle place (hlater place hleads hfree) hfree,
              fun hlt place hleads hfree =>
                hsearched.missing hlt place (hlater place hleads hfree) hfree⟩
        · rw [if_neg (by omega)]
          exact ⟨_, rfl, fun hle => ⟨.here, hcount.1 hle⟩, fun _ place hleads _ => hleads.le,
            fun hlt => absurd hlt (by omega)⟩

/-! ## Completeness -/

/-- The room that a trigger has: the mask is that of the subframe, and no more symbols are
available than lie before the uplink control symbols. -/
structure Within (c : FlexTtiConfig) (room : Room) : Prop where
  masked : room.busy.Masked c
  left : room.symAvail + room.symIdx + c.phyMac.ulCtrlSymbols ≤ c.phyMac.symbolsPerSubframe

/-- Free symbols for a retransmission between the next one and the uplink control symbols. -/
def Window (c : FlexTtiConfig) (room : Room) (numSym start : Nat) : Prop :=
  room.symIdx ≤ start ∧ start + numSym + c.phyMac.ulCtrlSymbols ≤ c.phyMac.symbolsPerSubframe ∧
    Free (room.busy.Busy c) numSym start

/-- The search ends. It finds nothing only if nothing is there, and what it finds is free. -/
def SearchComplete (c : FlexTtiConfig) (numSym : Nat) (room : Room) : Prop :=
  (room.findRetx c numSym = .ok none ∧ ¬ ∃ start, room.Window c numSym start) ∨
    ∃ found, room.findRetx c numSym = .ok (some found) ∧ room.Window c numSym found.symStart

/-- Enough symbols are available, and leaps over as many symbols as are needed, each to the first
free one behind them, lead from the next symbol to free ones. If they are not the next ones, they
end before the last symbol of the data. -/
def Reached (c : FlexTtiConfig) (numSym : Nat) (room : Room) : Prop :=
  (numSym : Int) ≤ room.symAvail ∧ ∃ start,
    Leads (room.busy.Busy c) numSym room.symIdx start ∧ room.Window c numSym start ∧
    (start = room.symIdx ∨
      start + numSym + c.phyMac.ulCtrlSymbols < c.phyMac.symbolsPerSubframe)

theorem findRetx_of_short (hshort : ¬ (numSym : Int) ≤ room.symAvail) :
    room.findRetx c numSym = .ok none := by
  rw [findRetx, if_neg hshort]
  rfl

/-- If none of the next symbols is busy, they are taken. -/
theorem findRetx_of_free (hbyte : c.phyMac.symbolsPerSubframe < 2 ^ 8) (hroom : room.Within c)
    (havail : (numSym : Int) ≤ room.symAvail)
    (hfree : Free (room.busy.Busy c) numSym room.symIdx) :
    room.findRetx c numSym = .ok (some ⟨room.symIdx, false,
      { room with symAvail := room.symAvail - numSym, symIdx := room.symIdx + numSym }⟩) := by
  have hleft := hroom.left
  have hno : ¬ room.busy.checkOverlapWithBusyResources c room.symIdx numSym = true := by
    rw [SfIabAllocInfo.checkOverlap_iff, not_not]
    exact hfree
  have hmod : (room.symIdx + numSym) % 2 ^ 8 = room.symIdx + numSym :=
    Nat.mod_eq_of_lt (by omega)
  rw [findRetx, if_pos havail, if_neg hno]
  dsimp only
  rw [hmod, sub32_of_le (by omega) (by omega), assert, if_pos (by omega)]
  rfl

/-- If one of the next symbols is busy, those are taken that the search comes to, if they end
before the last symbol of the data. -/
theorem findRetx_of_busy (hbyte : c.phyMac.symbolsPerSubframe < 2 ^ 8) (hroom : room.Within c)
    (havail : (numSym : Int) ≤ room.symAvail)
    (hbusy : ¬ Free (room.busy.Busy c) numSym room.symIdx) :
    ∃ result, Searched c room.busy numSym room.symIdx result ∧
      if numSym ≤ result.1 ∧
          result.2 + numSym + c.phyMac.ulCtrlSymbols < c.phyMac.symbolsPerSubframe then
        ∃ mask, mask.length = room.busy.symAllocationMask.length ∧
          room.findRetx c numSym = .ok (some ⟨result.2, true, { room with
            symAvail := room.symAvail - numSym
            busy := { room.busy with symAllocationMask := mask } }⟩)
      else room.findRetx c numSym = .ok none := by
  have hleft := hroom.left
  have happlies : room.busy.applies c = true := by
    by_contra hnot
    exact hbusy fun i _ _ h => hnot h.1
  have hiab : c.iabScheduler = true := (Bool.and_eq_true_iff.1 happlies).1
  have hpos : 0 < numSym := by
    by_contra hzero
    exact hbusy fun i _ _ _ => by omega
  have hoverlap := SfIabAllocInfo.checkOverlap_iff.2 hbusy
  have hin : room.symIdx + numSym ≤ c.phyMac.symbolsPerSubframe := by omega
  have hrounds : c.phyMac.symbolsPerSubframe ≤ room.symIdx + 2 ^ 8 := by omega
  obtain ⟨result, hok, hsearched⟩ :=
    searchRetx_spec hroom.masked happlies hbyte hpos hin hrounds
  refine ⟨result, hsearched, ?_⟩
  have hfind : room.findRetx c numSym = room.findLater c numSym := by
    rw [findRetx, if_pos havail, if_pos hoverlap]
  rw [hfind, findLater, hok, sub32_of_le (by omega) (by omega), toInt32_of_lt (by omega),
    ok_bind]
  by_cases hfits : numSym ≤ result.1 ∧
      result.2 + numSym + c.phyMac.ulCtrlSymbols < c.phyMac.symbolsPerSubframe
  · have hmarked : result.2 + numSym ≤ room.busy.symAllocationMask.length := by
      rw [hroom.masked happlies]
      omega
    obtain ⟨mask, hmark, hlength⟩ := SfIabAllocInfo.exists_updateResourceMask hiab hmarked
    rw [if_pos hfits]
    refine ⟨mask, hlength, ?_⟩
    rw [if_pos ⟨hfits.1, by omega⟩, hmark]
    rfl
  · rw [if_neg hfits, if_neg fun h => hfits ⟨h.1, by omega⟩]
    rfl

/-- The search finds symbols for a retransmission in a subframe if and only if, as long as there
are free ones, enough are available and its leaps lead to them. -/
theorem searchComplete_iff (hbyte : c.phyMac.symbolsPerSubframe < 2 ^ 8) (hroom : room.Within c)
    (numSym : Nat) :
    room.SearchComplete c numSym ↔
      ((∃ start, room.Window c numSym start) → room.Reached c numSym) := by
  have hleft := hroom.left
  by_cases havail : (numSym : Int) ≤ room.symAvail
  · by_cases hfree : Free (room.busy.Busy c) numSym room.symIdx
    · -- the next symbols are free
      have hwindow : room.Window c numSym room.symIdx := ⟨Nat.le_refl _, by omega, hfree⟩
      have hok := findRetx_of_free hbyte hroom havail hfree
      exact ⟨fun _ _ => ⟨havail, _, .here, hwindow, .inl rfl⟩, fun _ => .inr ⟨_, hok, hwindow⟩⟩
    · obtain ⟨result, hsearched, hresult⟩ := findRetx_of_busy hbyte hroom havail hfree
      split at hresult
      · rename_i hfits
        obtain ⟨mask, -, hok⟩ := hresult
        obtain ⟨hleads, hrest⟩ := hsearched.found hfits.1
        have hwindow : room.Window c numSym result.2 := ⟨hleads.le, Nat.le_of_lt hfits.2, hrest⟩
        exact ⟨fun _ _ => ⟨havail, _, hleads, hwindow, .inr hfits.2⟩,
          fun _ => .inr ⟨_, hok, hwindow⟩⟩
      · rename_i hfits
        rw [SearchComplete, hresult]
        constructor
        · rintro (⟨-, hnone⟩ | ⟨found, hok, -⟩) hsome
          · exact (hnone hsome).elim
          · cases hok
        · refine fun hreached => .inl ⟨rfl, fun hsome => ?_⟩
          -- a place of the search with room would have been the result
          obtain ⟨-, place, hleads, hwindow, rfl | hlt⟩ := hreached hsome
          · exact hfree hwindow.2.2
          · rcases Nat.lt_or_ge result.1 numSym with hshort | hle
            · have := hsearched.missing hshort place hleads hwindow.2.2
              omega
            · have := hsearched.first hle place hleads hwindow.2.2
              exact hfits ⟨hle, by omega⟩
  · rw [SearchComplete, findRetx_of_short havail]
    constructor
    · rintro (⟨-, hnone⟩ | ⟨found, hok, -⟩) hsome
      · exact (hnone hsome).elim
      · cases hok
    · exact fun hreached => .inl ⟨rfl, fun hsome => havail (hreached hsome).1⟩

end Room

/-! ## A subframe with a gap -/

def iabNode : FlexTtiConfig where
  amc :=
    { getMcsFromCqi := fun cqi => cqi
      getTbSizeFromMcsSymbols := fun _ numSym => 80 * numSym
      getNumSymbolsFromTbsMcs := fun tbs _ => tbs / 80
      createCqiFeedbackWbTdma := fun _ _ _ => (1, 1)
      scaleSymbols := fun available total old => old * available / total
      ofNan := 0 }
  iabScheduler := true
  ueSort := .stable
  slotSort := .stable

/-- The first data symbol is busy, and those from the fourth on. -/
def secondAndThirdFree : Room where
  symAvail := 2
  symIdx := 1
  busy := {
    symAllocationMask := [false, true, false, false] ++ List.replicate 19 true ++ [false] }

theorem within_secondAndThirdFree : secondAndThirdFree.Within iabNode :=
  ⟨fun _ => rfl, by decide⟩

/-- One symbol is found behind the first one. -/
theorem searchComplete_secondAndThirdFree : secondAndThirdFree.SearchComplete iabNode 1 := by
  refine (Room.searchComplete_iff (by decide) within_secondAndThirdFree 1).2 fun _ => ?_
  have hfree : ¬ secondAndThirdFree.busy.Busy iabNode 2 := fun h => absurd h.2 (by decide)
  have hleap : FirstFree (secondAndThirdFree.busy.Busy iabNode) 2 2 :=
    ⟨Nat.le_refl _, hfree, fun i hle hlt => absurd hlt (by omega)⟩
  refine ⟨by decide, 2, .leap hleap .here, ⟨by decide, by decide, fun i hle hlt => ?_⟩,
    .inr (by decide)⟩
  rwa [show i = 2 by omega]

/-- Two symbols are free in a row, but the search leaps from the busy one before them to the
second of them. -/
theorem not_searchComplete_secondAndThirdFree :
    secondAndThirdFree.Within iabNode ∧ ¬ secondAndThirdFree.SearchComplete iabNode 2 := by
  refine ⟨within_secondAndThirdFree, ?_⟩
  rintro (⟨-, hnone⟩ | ⟨found, hok, -⟩)
  · refine hnone ⟨2, by decide, by decide, fun i hle hlt hbusy => ?_⟩
    have hcases : i = 2 ∨ i = 3 := by omega
    rcases hcases with rfl | rfl
    · exact absurd hbusy.2 (by decide)
    · exact absurd hbusy.2 (by decide)
  · have hbuffered : secondAndThirdFree.findRetx iabNode 2 = .ok none := by decide
    rw [hbuffered] at hok
    cases hok

/-! ## The room of a trigger -/

namespace Room

variable {room : Room} {numSym : Nat}

/-- What is left after a retransmission. -/
theorem Within.findRetx (hbyte : c.phyMac.symbolsPerSubframe < 2 ^ 8) (hroom : room.Within c)
    {found : FoundRoom} (hok : room.findRetx c numSym = .ok (some found)) :
    found.room.Within c := by
  have hleft := hroom.left
  by_cases havail : (numSym : Int) ≤ room.symAvail
  · by_cases hfree : Free (room.busy.Busy c) numSym room.symIdx
    · rw [findRetx_of_free hbyte hroom havail hfree, Except.ok.injEq, Option.some.injEq] at hok
      subst hok
      exact ⟨hroom.masked, by dsimp only; omega⟩
    · obtain ⟨result, -, hresult⟩ := findRetx_of_busy hbyte hroom havail hfree
      split at hresult
      · obtain ⟨mask, hlength, hresult⟩ := hresult
        rw [hresult, Except.ok.injEq, Option.some.injEq] at hok
        subst hok
        exact ⟨fun happlies => hlength.trans (hroom.masked happlies), by dsimp only; omega⟩
      · rw [hresult] at hok
        cases hok
  · rw [findRetx_of_short havail] at hok
    cases hok

end Room

section
variable {U : Type} {book : UeBook U}

/-- An answer keeps to the room of the subframe. -/
theorem answerDl_within (hbyte : c.phyMac.symbolsPerSubframe < 2 ^ 8) {info : DlHarqInfo}
    {r r' : Retransmissions U DlHarqInfo} (hr : r.subframe.Within c)
    (hok : answerDl c book r info = .ok r') : r'.subframe.Within c := by
  rcases answerDl_cases hok with ⟨harq, rfl⟩ | ⟨count, dci, hsend⟩
  · exact hr
  · rcases sendDl_cases hsend with rfl | ⟨found, hfound, hroom, -⟩
    · exact hr
    · rw [hroom]
      exact hr.findRetx hbyte hfound

theorem answerUl_within (hbyte : c.phyMac.symbolsPerSubframe < 2 ^ 8) {info : UlHarqInfo}
    {r r' : Retransmissions U UlHarqInfo} (hr : r.subframe.Within c)
    (hok : answerUl c book r info = .ok r') : r'.subframe.Within c := by
  rcases answerUl_cases hok with ⟨harq, rfl⟩ | ⟨count, dci, hsend⟩
  · exact hr
  · rcases sendUl_cases hsend with rfl | ⟨found, hfound, hroom, -⟩
    · exact hr
    · rw [hroom]
      exact hr.findRetx hbyte hfound

/-- Every retransmission of a trigger is searched for in the room that the ones before left. -/
theorem answerFeedback_within (hbyte : c.phyMac.symbolsPerSubframe < 2 ^ 8)
    {pass pass' : RetxPass U} (hpass : pass.subframe.Within c)
    (hok : answerFeedback c book pass = .ok pass') : pass'.subframe.Within c := by
  unfold answerFeedback at hok
  split at hok
  · obtain ⟨dl, hdl, hok⟩ := bind_eq_ok.1 hok
    obtain ⟨ul, hul, hok⟩ := bind_eq_ok.1 hok
    cases hok
    have hbetween : dl.subframe.Within c :=
      answerInTurn_keeps (P := fun r => r.subframe.Within c)
        (fun _ _ _ hr => answerDl_within hbyte hr) hpass hdl
    exact answerInTurn_keeps (P := fun r => r.subframe.Within c)
      (fun _ _ _ hr => answerUl_within hbyte hr) hbetween hul
  · cases hok
    exact hpass

end

namespace FlexTti

/-- The masks of the subframes to come. -/
def Masked (c : FlexTtiConfig) (s : FlexTti) : Prop :=
  ∀ busy ∈ s.iabBusySubframeAllocation,
    busy.symAllocationMask.length = c.phyMac.symbolsPerSubframe

theorem masked_start : (start c).Masked c := by
  intro busy hbusy
  obtain ⟨i, -, rfl⟩ := List.mem_map.1 hbusy
  exact List.length_replicate

theorem Masked.of_eq {s s' : FlexTti} (hs : s.Masked c)
    (heq : s'.iabBusySubframeAllocation = s.iabBusySubframeAllocation) : s'.Masked c := by
  unfold Masked
  rw [heq]
  exact hs

/-- A subframe whose mask is changed keeps its length. -/
theorem Masked.set {s s' : FlexTti} (hs : s.Masked c) {i : Nat} {busy : SfIabAllocInfo}
    (hbusy : busy.symAllocationMask.length = c.phyMac.symbolsPerSubframe)
    (heq : s'.iabBusySubframeAllocation = s.iabBusySubframeAllocation.set i busy) :
    s'.Masked c := by
  intro other hother
  rw [heq] at hother
  rcases List.mem_or_eq_of_mem_set hother with hold | rfl
  · exact hs other hold
  · exact hbusy

theorem length_claimed {indices : List Nat} {mask mask' : List Bool}
    (hok : indices.foldlM claimSymbol mask = .ok mask') : mask'.length = mask.length := by
  induction indices generalizing mask with
  | nil =>
      cases hok
      rfl
  | cons i rest ih =>
      rw [List.foldlM_cons] at hok
      obtain ⟨next, hnext, hrest⟩ := bind_eq_ok.1 hok
      obtain ⟨bit, -, hnext⟩ := bind_eq_ok.1 hnext
      obtain ⟨⟨⟩, -, hnext⟩ := bind_eq_ok.1 hnext
      cases hnext
      exact (ih hrest).trans List.length_set

theorem iabBackhaulSchedNotify_masked {s s' : FlexTti} {sfnSf : SfnSf}
    {dci : DciInfoElementTdma} (hs : s.Masked c)
    (hok : s.iabBackhaulSchedNotify c sfnSf dci = .ok s') : s'.Masked c := by
  obtain ⟨⟨⟩, -, hok⟩ := bind_eq_ok.1 hok
  obtain ⟨currentInfo, hcurrent, hok⟩ := bind_eq_ok.1 hok
  obtain ⟨mask, hclaimed, hok⟩ := bind_eq_ok.1 hok
  have hmem := List.mem_of_getElem? (elementAt_eq_ok.1 hcurrent)
  cases hok
  refine hs.set ((length_claimed hclaimed).trans ?_) rfl
  split
  · exact hs _ hmem
  · exact List.length_replicate

theorem updateBusySymbols_masked {s s' : FlexTti} {sfNum : Nat} {symAvail symAvail' : Int}
    (hs : s.Masked c) (hok : s.updateBusySymbolsForIab c sfNum symAvail = .ok (symAvail', s')) :
    s'.Masked c := by
  unfold updateBusySymbolsForIab at hok
  split at hok
  · obtain ⟨busyResources, hbusy, hok⟩ := bind_eq_ok.1 hok
    have hlength := hs _ (List.mem_of_getElem? (elementAt_eq_ok.1 hbusy))
    dsimp only at hok
    split at hok
    · cases hok
      refine hs.set ?_ rfl
      exact hlength
    · cases hok
      refine hs.set ?_ rfl
      exact hlength
  · cases hok
    exact hs

/-- The busy symbols are not available. -/
theorem updateBusySymbols_room {s s' : FlexTti} {sfNum : Nat} {symAvail symAvail' : Int}
    (hs : s.Masked c) (hok : s.updateBusySymbolsForIab c sfNum symAvail = .ok (symAvail', s')) :
    s'.busyResourcesSchedSubframe.Masked c ∧ symAvail' ≤ symAvail := by
  unfold updateBusySymbolsForIab at hok
  split at hok
  · obtain ⟨busyResources, hbusy, hok⟩ := bind_eq_ok.1 hok
    have hlength := hs _ (List.mem_of_getElem? (elementAt_eq_ok.1 hbusy))
    dsimp only at hok
    split at hok
    · cases hok
      exact ⟨fun _ => hlength, Int.sub_le_self _ (Int.natCast_nonneg _)⟩
    · cases hok
      refine ⟨fun happlies => ?_, Int.le_refl _⟩
      exact absurd (Bool.and_eq_true_iff.1 happlies).2 Bool.false_ne_true
  · rename_i hiab
    cases hok
    refine ⟨fun happlies => ?_, Int.le_refl _⟩
    exact absurd (Bool.and_eq_true_iff.1 happlies).1 hiab

theorem prepare_masked {s : FlexTti} {params : SchedTriggerReqParameters} {prepared : Prepared}
    (hs : s.Masked c) (hok : s.prepare c params = .ok prepared) : prepared.scheduler.Masked c := by
  obtain ⟨sfnSf, -, hok⟩ := bind_eq_ok.1 hok
  obtain ⟨symAvail, havail, hok⟩ := bind_eq_ok.1 hok
  obtain ⟨refreshed, -, hok⟩ := bind_eq_ok.1 hok
  cases hok
  exact (updateBusySymbols_masked hs (blame_eq_ok.1 havail)).of_eq rfl

/-- The room that a trigger begins with. -/
theorem prepare_within {s : FlexTti} {params : SchedTriggerReqParameters} {prepared : Prepared}
    (hbyte : c.phyMac.symbolsPerSubframe < 2 ^ 8)
    (hctrl : c.phyMac.dlCtrlSymbols + c.phyMac.ulCtrlSymbols ≤ c.phyMac.symbolsPerSubframe)
    (hs : s.Masked c) (hok : s.prepare c params = .ok prepared) : prepared.room.Within c := by
  obtain ⟨sfnSf, -, hok⟩ := bind_eq_ok.1 hok
  obtain ⟨symAvail, havail, hok⟩ := bind_eq_ok.1 hok
  obtain ⟨refreshed, -, hok⟩ := bind_eq_ok.1 hok
  rw [blame_eq_ok, sub32_of_le hctrl (by omega), toInt32_of_lt (by omega)] at havail
  cases hok
  obtain ⟨hmasked, hle⟩ := updateBusySymbols_room hs havail
  have hstart : c.phyMac.dlCtrlSymbols % 2 ^ 8 = c.phyMac.dlCtrlSymbols :=
    Nat.mod_eq_of_lt (by omega)
  exact ⟨hmasked, by dsimp only; omega⟩

theorem scheduleNewData_masked {sfnSf : SfnSf} {s : FlexTti}
    {pass : RetxPass (OrderedMap UeSchedInfo)} {result : FlexTti × SchedConfigInd}
    (hs : s.Masked c) (hok : scheduleNewData c sfnSf s pass = .ok result) :
    result.1.Masked c := by
  obtain ⟨flows, -, hok⟩ := bind_eq_ok.1 hok
  dsimp only at hok
  split at hok
  · cases hok
    exact hs.of_eq rfl
  · obtain ⟨divided, -, hok⟩ := bind_eq_ok.1 hok
    obtain ⟨⟨⟩, -, hok⟩ := bind_eq_ok.1 hok
    obtain ⟨d, -, hok⟩ := bind_eq_ok.1 hok
    cases hok
    exact hs.of_eq rfl

theorem schedTriggerReq_masked {s : FlexTti} {params : SchedTriggerReqParameters}
    {result : FlexTti × SchedConfigInd} (hs : s.Masked c)
    (hok : s.schedTriggerReq c params = .ok result) : result.1.Masked c := by
  obtain ⟨prepared, hprepared, hok⟩ := bind_eq_ok.1 hok
  have hnext := prepare_masked hs hprepared
  split at hok
  · obtain ⟨pass, -, hok⟩ := bind_eq_ok.1 hok
    exact scheduleNewData_masked hnext hok
  · cases hok
    exact hnext

theorem handle_masked {s : FlexTti} {event : FlexTtiEvent} {result : FlexTti × List SchedConfigInd}
    (hs : s.Masked c) (hok : handle c event s = .ok result) : result.1.Masked c := by
  cases event with
  | cschedUeConfigReq rnti reconfigureFlag iab numIabDevsPerRnti =>
      cases hok
      unfold cschedUeConfigReq
      dsimp only
      split
      · exact hs.of_eq rfl
      · exact hs.of_eq rfl
  | iabBackhaulSchedNotify sfnSf dci =>
      obtain ⟨next, hnext, rfl⟩ := map_eq_ok.1 hok
      exact iabBackhaulSchedNotify_masked hs (blame_eq_ok.1 hnext)
  | schedTriggerReq params =>
      obtain ⟨next, hnext, rfl⟩ := map_eq_ok.1 hok
      exact schedTriggerReq_masked hs hnext
  | _ =>
      cases hok
      exact hs.of_eq rfl

/-- In every run the masks have a bit for each symbol. -/
theorem run_masked (events : List FlexTtiEvent) :
    (Run.run (TdmaRun.step (handle c)) { scheduler := start c } events).scheduler.Masked c := by
  refine Run.invariant (I := fun r : TdmaRun FlexTti => r.scheduler.Masked c)
    (fun r event hr => ?_) masked_start
  unfold TdmaRun.step
  split
  · exact hr
  · split
    · rename_i result hresult
      exact handle_masked hr hresult
    · exact hr

end FlexTti

end NtnIab.Mmwave
