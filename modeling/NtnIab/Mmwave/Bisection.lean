import Mathlib.Order.Bounds.Basic
import NtnIab.Mmwave.PaddedHbfNewData

/-!
# The symbols that are enough for a buffer

The bisection keeps an upper end whose block is longer than the buffer and a lower end whose block
is shorter, and moves one of them at a time: the upper end while the blocks tried are too long, the
lower end while they are too short. A block of just the length of the buffer is neither, and ends
both loops with the ends where they are.

## Strategy

* The probe of the lower end is never above the probe of the upper end. So if one of them does not
  move its end, the other one does, and two steps bring the ends closer together
  (`bisecting_spec`, by induction on the distance).
* A search without an equal block ends with the ends next to each other. An equal block was below
  the upper end, which is then not the least.
-/

namespace NtnIab.Mmwave

variable (c : PaddedHbfConfig)

/-- The loops of `CalcMinTbSizeNumSym`, if they end in the given number of steps. -/
def bisecting (mcs bufSize : Nat) : Nat → Bool → Nat → Nat → Option Nat
  | 0, _, _, _ => none
  | steps + 1, above, numSymLow, numSymHigh =>
      let diff := (numSymHigh - numSymLow) / 2
      if diff = 0 then some numSymHigh
      else if above then
        let tbSize := tbSizeOf c mcs (numSymHigh - diff)
        if bufSize < tbSize then bisecting mcs bufSize steps true numSymLow (numSymHigh - diff)
        else if tbSize < bufSize then bisecting mcs bufSize steps false numSymLow numSymHigh
        else some numSymHigh
      else
        let tbSize := tbSizeOf c mcs (numSymLow + diff)
        if tbSize < bufSize then bisecting mcs bufSize steps false (numSymLow + diff) numSymHigh
        else if bufSize < tbSize then bisecting mcs bufSize steps true numSymLow numSymHigh
        else some numSymHigh

/-- More symbols have a longer block. -/
def SizesIncrease (mcs : Nat) : Prop :=
  ∀ a b, 1 ≤ a → a < b → b ≤ c.phyMac.symbolsPerSubframe → tbSizeOf c mcs a < tbSizeOf c mcs b

/-- The numbers of symbols whose block holds a buffer. -/
def enoughSymbols (mcs bufSize : Nat) : Set Nat :=
  { n | 1 ≤ n ∧ n ≤ c.phyMac.symbolsPerSubframe ∧ bufSize ≤ tbSizeOf c mcs n }

/-- The search ends: its loops are not entered, or left after some steps. -/
def SearchEnds (mcs bufSize : Nat) : Prop :=
  let numSymHigh := c.phyMac.symbolsPerSubframe
  bufSize < tbSizeOf c mcs numSymHigh →
    ∃ steps, bisecting c mcs bufSize steps true 0 numSymHigh =
      some (calcMinTbSizeNumSym c mcs bufSize).1

/-- The search ends with the least number of symbols whose block holds the buffer, or with the
whole subframe if none does. -/
def FindsMinimum (mcs bufSize : Nat) : Prop :=
  let result := calcMinTbSizeNumSym c mcs bufSize
  SearchEnds c mcs bufSize ∧ result.2 = tbSizeOf c mcs result.1 ∧
  (bufSize ≤ tbSizeOf c mcs c.phyMac.symbolsPerSubframe →
    IsLeast (enoughSymbols c mcs bufSize) result.1) ∧
  (tbSizeOf c mcs c.phyMac.symbolsPerSubframe < bufSize →
    result.1 = c.phyMac.symbolsPerSubframe)

/-! ## The search -/

variable {c} {mcs bufSize : Nat}

theorem bisect_of_bisecting {steps : Nat} {above : Bool} {numSymLow numSymHigh numSym : Nat}
    (h : bisecting c mcs bufSize steps above numSymLow numSymHigh = some numSym) :
    bisect c mcs bufSize steps above numSymLow numSymHigh = numSym := by
  induction steps generalizing above numSymLow numSymHigh with
  | zero => cases h
  | succ steps ih =>
      rw [bisecting] at h
      rw [bisect]
      dsimp only at h ⊢
      split_ifs at h ⊢
      all_goals first | exact ih h | exact Option.some.inj h

/-- The ends of the search: the block of the upper one is too long, that of the lower one too
short. -/
structure Between (c : PaddedHbfConfig) (mcs bufSize numSymLow numSymHigh : Nat) : Prop where
  apart : numSymLow < numSymHigh
  inside : numSymHigh ≤ c.phyMac.symbolsPerSubframe
  long : bufSize < tbSizeOf c mcs numSymHigh
  short : numSymLow = 0 ∨ tbSizeOf c mcs numSymLow < bufSize

/-- What the search finds: a block that is too long, with the next shorter one too short, or with
an equal one below. -/
structure Found (c : PaddedHbfConfig) (mcs bufSize numSym : Nat) : Prop where
  pos : 1 ≤ numSym
  inside : numSym ≤ c.phyMac.symbolsPerSubframe
  long : bufSize < tbSizeOf c mcs numSym
  least : (∀ n, 1 ≤ n → n < numSym → tbSizeOf c mcs n < bufSize) ∨
    ∃ n, 1 ≤ n ∧ n < numSym ∧ tbSizeOf c mcs n = bufSize

section
variable {numSymLow numSymHigh : Nat}

/-- The ends are next to each other. -/
theorem Between.found_of_close (h : Between c mcs bufSize numSymLow numSymHigh)
    (hinc : SizesIncrease c mcs) (hclose : (numSymHigh - numSymLow) / 2 = 0) :
    Found c mcs bufSize numSymHigh where
  pos := Nat.lt_of_le_of_lt (Nat.zero_le _) h.apart
  inside := h.inside
  long := h.long
  least := by
    have hnext : numSymHigh = numSymLow + 1 := by have := h.apart; omega
    refine Or.inl fun n hpos hn => ?_
    rcases h.short with hzero | hshort
    · omega
    · rcases Nat.lt_or_eq_of_le (show n ≤ numSymLow by omega) with hlt | rfl
      · have hlow : numSymLow ≤ c.phyMac.symbolsPerSubframe := (Nat.le_of_lt h.apart).trans h.inside
        exact (hinc n numSymLow hpos hlt hlow).trans hshort
      · exact hshort

/-- A block between the ends has the length of the buffer. -/
theorem Between.found_of_equal (h : Between c mcs bufSize numSymLow numSymHigh) {n : Nat}
    (hpos : 1 ≤ n) (hn : n < numSymHigh) (heq : tbSizeOf c mcs n = bufSize) :
    Found c mcs bufSize numSymHigh where
  pos := hpos.trans (Nat.le_of_lt hn)
  inside := h.inside
  long := h.long
  least := Or.inr ⟨n, hpos, hn, heq⟩

/-- The probe of the lower end is not above that of the upper end. -/
theorem Between.probes (h : Between c mcs bufSize numSymLow numSymHigh)
    (hinc : SizesIncrease c mcs) (hdiff : (numSymHigh - numSymLow) / 2 ≠ 0) :
    tbSizeOf c mcs (numSymLow + (numSymHigh - numSymLow) / 2) ≤
      tbSizeOf c mcs (numSymHigh - (numSymHigh - numSymLow) / 2) := by
  have hapart := h.apart
  have hinside := h.inside
  rcases Nat.lt_or_eq_of_le (show numSymLow + (numSymHigh - numSymLow) / 2 ≤
    numSymHigh - (numSymHigh - numSymLow) / 2 by omega) with hlt | heq
  · exact Nat.le_of_lt (hinc _ _ (by omega) hlt (by omega))
  · rw [heq]

/-- The search ends after at most two steps for each symbol between the ends. -/
theorem bisecting_spec (hinc : SizesIncrease c mcs) :
    ∀ {distance steps numSymLow numSymHigh : Nat} (above : Bool),
      Between c mcs bufSize numSymLow numSymHigh → numSymHigh - numSymLow ≤ distance →
      2 * distance ≤ steps →
      ∃ numSym, bisecting c mcs bufSize steps above numSymLow numSymHigh = some numSym ∧
        Found c mcs bufSize numSym := by
  intro distance
  induction distance with
  | zero =>
      intro steps numSymLow numSymHigh above h hdistance _
      have := h.apart
      omega
  | succ distance ih =>
      intro steps numSymLow numSymHigh above h hdistance hsteps
      obtain ⟨steps, rfl⟩ : ∃ rest, steps = rest + 2 := ⟨steps - 2, by omega⟩
      have hapart := h.apart
      have hinside := h.inside
      by_cases hdiff : (numSymHigh - numSymLow) / 2 = 0
      · refine ⟨numSymHigh, ?_, h.found_of_close hinc hdiff⟩
        rw [bisecting]
        exact if_pos hdiff
      have hprobes := h.probes hinc hdiff
      -- one of the ends moves, now or in the next step
      have hhigh : ∀ rest, 2 * distance ≤ rest →
          bufSize < tbSizeOf c mcs (numSymHigh - (numSymHigh - numSymLow) / 2) →
          ∃ numSym, bisecting c mcs bufSize rest true numSymLow
            (numSymHigh - (numSymHigh - numSymLow) / 2) = some numSym ∧
            Found c mcs bufSize numSym := by
        intro rest hrest hlong
        exact ih true ⟨by omega, by omega, hlong, h.short⟩ (by omega) hrest
      have hlow : ∀ rest, 2 * distance ≤ rest →
          tbSizeOf c mcs (numSymLow + (numSymHigh - numSymLow) / 2) < bufSize →
          ∃ numSym, bisecting c mcs bufSize rest false
            (numSymLow + (numSymHigh - numSymLow) / 2) numSymHigh = some numSym ∧
            Found c mcs bufSize numSym := by
        intro rest hrest hshort
        exact ih false ⟨by omega, hinside, h.long, Or.inr hshort⟩ (by omega) hrest
      cases above with
      | true =>
          rw [bisecting]
          dsimp only
          rw [if_neg hdiff, if_pos rfl]
          rcases Nat.lt_trichotomy bufSize
            (tbSizeOf c mcs (numSymHigh - (numSymHigh - numSymLow) / 2)) with hlong | heq | hshort
          · rw [if_pos hlong]
            exact hhigh _ (by omega) hlong
          · rw [if_neg (by omega), if_neg (by omega)]
            exact ⟨_, rfl, h.found_of_equal (by omega) (by omega) heq.symm⟩
          · rw [if_neg (by omega), if_pos hshort, bisecting]
            dsimp only
            rw [if_neg hdiff, if_neg Bool.false_ne_true, if_pos (by omega)]
            exact hlow _ (by omega) (by omega)
      | false =>
          rw [bisecting]
          dsimp only
          rw [if_neg hdiff, if_neg Bool.false_ne_true]
          rcases Nat.lt_trichotomy bufSize
            (tbSizeOf c mcs (numSymLow + (numSymHigh - numSymLow) / 2)) with hlong | heq | hshort
          · rw [if_neg (by omega), if_pos hlong, bisecting]
            dsimp only
            rw [if_neg hdiff, if_pos rfl, if_pos (by omega)]
            exact hhigh _ (by omega) (by omega)
          · rw [if_neg (by omega), if_neg (by omega)]
            exact ⟨_, rfl, h.found_of_equal (by omega) (by omega) heq.symm⟩
          · rw [if_pos hshort]
            exact hlow _ (by omega) hshort

end

/-! ## What is found -/

/-- The whole subframe is too long: the search finds something. -/
theorem calcMinTbSizeNumSym_found (hinc : SizesIncrease c mcs)
    (hpos : 1 ≤ c.phyMac.symbolsPerSubframe)
    (hlong : bufSize < tbSizeOf c mcs c.phyMac.symbolsPerSubframe) :
    SearchEnds c mcs bufSize ∧ Found c mcs bufSize (calcMinTbSizeNumSym c mcs bufSize).1 := by
  obtain ⟨numSym, hrun, hfound⟩ := bisecting_spec hinc true
    (⟨hpos, Nat.le_refl _, hlong, Or.inl rfl⟩ : Between c mcs bufSize 0 _) (Nat.le_refl _)
    (Nat.le_refl _)
  have hresult : (calcMinTbSizeNumSym c mcs bufSize).1 = numSym := by
    unfold calcMinTbSizeNumSym
    dsimp only
    rw [if_pos hlong]
    exact bisect_of_bisecting hrun
  rw [hresult]
  exact ⟨fun _ => ⟨_, hresult.symm ▸ hrun⟩, hfound⟩

/-- The whole subframe is not too long: the loops are not entered. -/
theorem calcMinTbSizeNumSym_whole
    (hshort : tbSizeOf c mcs c.phyMac.symbolsPerSubframe ≤ bufSize) :
    (calcMinTbSizeNumSym c mcs bufSize).1 = c.phyMac.symbolsPerSubframe :=
  if_neg (Nat.not_lt.2 hshort)

/-- The least number is found exactly if no block that is shorter than the subframe has just the
length of the buffer. -/
theorem findsMinimum_iff (hpos : 1 ≤ c.phyMac.symbolsPerSubframe) (hinc : SizesIncrease c mcs) :
    FindsMinimum c mcs bufSize ↔
      ∀ n, 1 ≤ n → n < c.phyMac.symbolsPerSubframe → tbSizeOf c mcs n ≠ bufSize := by
  constructor
  · rintro ⟨-, -, hleast, -⟩ n hn hlt heq
    have hlong : bufSize < tbSizeOf c mcs c.phyMac.symbolsPerSubframe :=
      heq ▸ hinc n _ hn hlt (Nat.le_refl _)
    obtain ⟨-, hfound⟩ := calcMinTbSizeNumSym_found hinc hpos hlong
    have hle := (hleast (Nat.le_of_lt hlong)).2 (show n ∈ enoughSymbols c mcs bufSize from
      ⟨hn, Nat.le_of_lt hlt, Nat.le_of_eq heq.symm⟩)
    -- the block that is found is longer than the buffer, so it is not the equal one
    rcases Nat.lt_or_eq_of_le hle with hbefore | hsame
    · have := hinc _ n hfound.pos hbefore (Nat.le_of_lt hlt)
      have := hfound.long
      omega
    · have := hfound.long
      rw [hsame] at this
      omega
  · intro hnone
    rcases Nat.lt_or_ge bufSize (tbSizeOf c mcs c.phyMac.symbolsPerSubframe) with hlong | hshort
    · obtain ⟨hends, hfound⟩ := calcMinTbSizeNumSym_found hinc hpos hlong
      refine ⟨hends, rfl, fun _ => ⟨⟨hfound.pos, hfound.inside, Nat.le_of_lt hfound.long⟩, ?_⟩,
        fun h => absurd hlong (Nat.lt_asymm h)⟩
      rintro n ⟨hn, -, henough⟩
      by_contra hlt
      rcases hfound.least with hbelow | ⟨m, hm, hmlt, heq⟩
      · exact absurd (hbelow n hn (by omega)) (Nat.not_lt.2 henough)
      · exact hnone m hm (Nat.lt_of_lt_of_le hmlt hfound.inside) heq
    · refine ⟨fun h => absurd h (Nat.not_lt.2 hshort), rfl, ?_, ?_⟩
      · intro henough
        rw [calcMinTbSizeNumSym_whole hshort]
        refine ⟨⟨hpos, Nat.le_refl _, henough⟩, ?_⟩
        rintro n ⟨hn, -, hbuf⟩
        by_contra hlt
        have := hinc n _ hn (Nat.not_le.1 hlt) (Nat.le_refl _)
        omega
      · exact fun _ => calcMinTbSizeNumSym_whole hshort

/-! ## A buffer of just the length of half a subframe -/

/-- Ten bytes for each symbol. -/
def tenBytesPerSymbol : PaddedHbfConfig where
  amc :=
    { getMcsFromCqi := fun cqi => cqi
      getTbSizeFromMcsSymbols := fun _ numSym => 80 * numSym
      getNumSymbolsFromTbsMcs := fun tbs _ => tbs / 80
      createCqiFeedbackWbTdma := fun _ _ _ => (1, 1)
      scaleSymbols := fun available total old => old * available / total
      ofNan := 0 }

theorem sizesIncrease_tenBytesPerSymbol : SizesIncrease tenBytesPerSymbol 5 := by
  have hsize : ∀ n, n < 25 → tbSizeOf tenBytesPerSymbol 5 n = 10 * n := by decide
  intro a b _ hlt hle
  have hb : b < 25 := Nat.lt_succ_of_le hle
  rw [hsize a (by omega), hsize b hb]
  omega

/-- For a buffer of 125 bytes no block has just this length. -/
theorem findsMinimum_tenBytesPerSymbol : FindsMinimum tenBytesPerSymbol 5 125 :=
  (findsMinimum_iff (by decide) sizesIncrease_tenBytesPerSymbol).2 (by
    have hnone : ∀ n, n < 24 → tbSizeOf tenBytesPerSymbol 5 n ≠ 125 := by decide
    exact fun n _ hn => hnone n hn)

/-- A buffer of 120 bytes fits into 12 symbols, and gets all 24. -/
theorem not_findsMinimum_tenBytesPerSymbol :
    SizesIncrease tenBytesPerSymbol 5 ∧ calcMinTbSizeNumSym tenBytesPerSymbol 5 120 = (24, 240) ∧
      ¬FindsMinimum tenBytesPerSymbol 5 120 := by
  refine ⟨sizesIncrease_tenBytesPerSymbol, by decide, ?_⟩
  rintro ⟨-, -, hleast, -⟩
  have hresult : (calcMinTbSizeNumSym tenBytesPerSymbol 5 120).1 = 24 := by decide
  have hmem : 12 ∈ enoughSymbols tenBytesPerSymbol 5 120 := ⟨by decide, by decide, by decide⟩
  have := (hleast (by decide)).2 hmem
  omega

end NtnIab.Mmwave
