import Mathlib.Algebra.Order.Field.Basic
import Mathlib.Tactic.Linarith
import Mathlib.Tactic.NormNum
import NtnIab.Dash.Controllers

/-!
# The direction of rate switches

RAAHS, SFTM and OSMP compare a measurement with one and search the ladder for the rate to switch
to. Each of them is described by its outcomes: which test held, and where on the ladder the next
rate is then.

## Strategy

The loops are walked first. The down loop of RAAHS starts at the bottom and counts down from
there, so it looks at one rate. The down loop of SFTM goes up from the bottom and keeps the last
rate below its limit, or nothing if there is none. The up loop of OSMP starts at the bottom too,
and stops before the first rate that is out of reach, so it stops above the current rate only if
the rate after that one is within reach.

From the outcomes it can be read off when a switch goes in the direction of its test, which is not
always.
-/

namespace NtnIab.Dash

open Fallible

variable {K : Type} [LinearOrder K]

/-- A fold with `max` stays above its start. -/
theorem le_foldl_max {α : Type*} (f : α → K) (l : List α) (e : K) :
    e ≤ l.foldl (fun e a => max e (f a)) e := by
  induction l generalizing e with
  | nil => exact le_refl e
  | cons a rest ih => exact (le_max_left e (f a)).trans (ih _)

variable [Field K] {m : MathFunctions K} {c : DashClient K} {ladder : Ladder}
  {k currRate nextRate : Nat}

/-! ## RAAHS -/

namespace Raahs

theorem epsilon_nonneg : (0 : K) ≤ epsilon ladder := le_foldl_max _ _ 0

/-- The loop looks at the lowest rate only: its index wraps after the first turn. -/
theorem down_eq {limit : K} {fuel : Nat} (hk : k < ladder.size) :
    down ladder ((k : Int) - 1) limit (fuel + 2) 0 nextRate =
      .ok (if 2 ≤ k ∧ (ladder.front : K) < limit then ladder.front else nextRate) := by
  have hsize := ladder.size_lt
  unfold down
  by_cases hfirst : 2 ≤ k
  · rw [if_pos (by omega), ladder.rate_zero, ok_bind]
    by_cases hlimit : (ladder.front : K) < limit
    · rw [if_pos hlimit, if_pos ⟨hfirst, hlimit⟩]
      unfold down
      rw [if_neg (by omega)]
      rfl
    · rw [if_neg hlimit, if_neg fun h => hlimit h.2]
      rfl
  · rw [if_neg (by omega), if_neg fun h => hfirst h.1]
    rfl

/-- What RAAHS does: one step up, down to the lowest rate, or nothing. -/
theorem switch_outcome (m : MathFunctions K) (currRate nextRate : Nat) (hk : k < c.rates.size) :
    ∃ next, switch m c k currRate nextRate = .ok next ∧
      ((1 + epsilon c.rates < mi m c ∧ c.rates.rate (k + 1) = .ok next) ∨
        (mi m c < 67 / 100 ∧ (2 ≤ k ∧ (c.rates.front : K) < mi m c * currRate) ∧
          next = c.rates.front) ∨
        ((1 + epsilon c.rates < mi m c → k + 1 = c.rates.size) ∧
          (¬ 1 + epsilon c.rates < mi m c → mi m c < 67 / 100 →
            ¬ (2 ≤ k ∧ (c.rates.front : K) < mi m c * currRate)) ∧ next = nextRate)) := by
  unfold switch
  split_ifs with hup hroom hdown
  · obtain ⟨above, habove⟩ := Ladder.exists_rate_of_lt (show k + 1 < c.rates.size by omega)
    exact ⟨above, habove, .inl ⟨hup, habove⟩⟩
  · exact ⟨nextRate, rfl, .inr (.inr ⟨fun _ => by omega, fun h => absurd hup h, rfl⟩)⟩
  · rw [show c.rates.size + 1 = c.rates.size - 1 + 2 by omega, down_eq hk]
    refine ⟨_, rfl, ?_⟩
    split_ifs with hlowest
    · exact .inr (.inl ⟨hdown, hlowest, rfl⟩)
    · exact .inr (.inr ⟨fun h => absurd h hup, fun _ _ => hlowest, rfl⟩)
  · exact ⟨nextRate, rfl, .inr (.inr ⟨fun h => absurd h hup, fun _ h => absurd h hdown, rfl⟩)⟩

theorem calcNextSegment_eq {next : Nat} (hk : c.rates.rate k = .ok currRate)
    (hnext : switch m c k currRate nextRate = .ok next) :
    calcNextSegment m c currRate nextRate = .ok
      { nextRate := next
        delay := positivePart (c.getBufferEstimate m - 9 -
          (currRate : K) * segmentDuration / (c.rates.front : K)) } := by
  unfold calcNextSegment
  rw [Ladder.rateInd_eq_ok.2 hk, ok_bind, hnext, ok_bind, c.rates.rate_zero]
  rfl

end Raahs

/-! ## SFTM -/

namespace Sftm

theorem down_eq_or_mem (limit : K) (l : List Nat) (nextRate : Nat) :
    down limit l nextRate = nextRate ∨ down limit l nextRate ∈ l := by
  induction l generalizing nextRate with
  | nil => exact .inl rfl
  | cons r rest ih =>
      unfold down
      split_ifs
      · exact .inl rfl
      · rcases ih r with heq | hmem
        · rw [heq]
          exact .inr List.mem_cons_self
        · exact .inr (List.mem_cons_of_mem r hmem)

/-- The loop finds a rate below the current one, unless already the lowest rate is at its limit. -/
theorem down_take (limit : K) (nextRate : Nat) (hk : c.rates.rate k = .ok currRate)
    (hpos : k ≠ 0) :
    (limit ≤ (c.rates.front : K) ∧ down limit (c.rates.rates.take k) nextRate = nextRate) ∨
      ((c.rates.front : K) < limit ∧ down limit (c.rates.rates.take k) nextRate < currRate ∧
        down limit (c.rates.rates.take k) nextRate ∈ c.rates.rates) := by
  obtain ⟨i, rfl⟩ := Nat.exists_eq_succ_of_ne_zero hpos
  have hhead : c.rates.rates.take (i + 1) = c.rates.front :: c.rates.rates.tail.take i := by
    conv_lhs => rw [← List.cons_head_tail c.rates.nonempty]
    rw [List.take_succ_cons]
    rfl
  rcases le_or_gt limit (c.rates.front : K) with hle | hgt
  · refine .inl ⟨hle, ?_⟩
    rw [hhead]
    unfold down
    rw [if_pos hle]
  · have hmem : down limit (c.rates.rates.take (i + 1)) nextRate ∈ c.rates.rates.take (i + 1) := by
      rw [hhead]
      unfold down
      rw [if_neg (not_le.2 hgt)]
      rcases down_eq_or_mem limit (c.rates.rates.tail.take i) c.rates.front with heq | hmem
      · rw [heq]
        exact List.mem_cons_self
      · exact List.mem_cons_of_mem _ hmem
    obtain ⟨j, hj, hrate⟩ := List.mem_take_iff_getElem.1 hmem
    have hjrate : c.rates.rate j = .ok (down limit (c.rates.rates.take (i + 1)) nextRate) := by
      rw [← hrate]
      exact Ladder.rate_of_lt (hj.trans_le (min_le_right _ _))
    refine .inr ⟨hgt, (Ladder.rate_lt_rate hjrate hk).1 ?_, List.mem_of_mem_take hmem⟩
    exact hj.trans_le (min_le_left _ _)

/-- What SFTM does: one step up, down to a rate below, or nothing. -/
theorem switch_outcome (x eu ed : K) (nextRate : Nat) (hk : c.rates.rate k = .ok currRate) :
    ∃ next, switch c.rates x eu ed k nextRate = .ok next ∧
      ((1 + eu < x ∧ c.rates.rate (k + 1) = .ok next) ∨
        (x < 1 - ed ∧ k ≠ 0 ∧ (c.rates.front : K) < x * currRate ∧ next < currRate ∧
          next ∈ c.rates.rates) ∨
        ((1 + eu < x → k + 1 = c.rates.size) ∧
          (¬ 1 + eu < x → x < 1 - ed → k ≠ 0 → x * currRate ≤ (c.rates.front : K)) ∧
          next = nextRate)) := by
  have hlt := Ladder.lt_size_of_rate hk
  unfold switch
  split_ifs with hup hdown
  · obtain ⟨above, habove⟩ := Ladder.exists_rate_of_lt (show k + 1 < c.rates.size by omega)
    exact ⟨above, habove, .inl ⟨hup.1, habove⟩⟩
  · rw [hk, ok_bind]
    refine ⟨_, rfl, ?_⟩
    rcases down_take (x * currRate) nextRate hk hdown.2 with
      ⟨hle, heq⟩ | ⟨hgt, hbelow, hmem⟩
    · refine .inr (.inr ⟨fun h => ?_, fun _ _ _ => hle, heq⟩)
      by_contra hroom
      exact hup ⟨h, by omega⟩
    · exact .inr (.inl ⟨hdown.1, hdown.2, hgt, hbelow, hmem⟩)
  · refine ⟨nextRate, rfl, .inr (.inr ⟨fun h => ?_, fun _ h hpos => ?_, rfl⟩)⟩
    · by_contra hroom
      exact hup ⟨h, by omega⟩
    · exact absurd ⟨h, hpos⟩ hdown

theorem calcNextSegment_eq {rsftExceeded : Bool} {eu ed : K} {next : Nat}
    (hk : c.rates.rate k = .ok currRate) (heu : upStep c.rates k = .ok eu)
    (hed : downStep c.rates k = .ok ed)
    (hnext : switch c.rates (sftm m c rsftExceeded) eu ed k nextRate = .ok next) :
    calcNextSegment m c rsftExceeded currRate nextRate = .ok
      ({ nextRate := next
         delay := positivePart (c.getBufferEstimate m - 0 -
           segmentDuration * (c.rates.back : K) / (c.rates.front : K)) },
        (rsft c rsftExceeded).2) := by
  unfold calcNextSegment
  rw [Ladder.rateInd_eq_ok.2 hk, ok_bind, heu, ok_bind, hed, ok_bind, hnext, ok_bind,
    c.rates.rate_zero]
  rfl

end Sftm

/-! ## OSMP -/

namespace Osmp

/-- The search finds the current rate at its position. -/
theorem seek_eq (hk : ladder.rate k = .ok currRate) :
    seek currRate ladder.rates 0 = .ok k := by
  have hgeneral : ∀ (l : List Nat) (i j : Nat), l.Pairwise (· < ·) → l[j]? = some currRate →
      seek currRate l i = .ok (i + j) := by
    intro l
    induction l with
    | nil => exact fun i j _ h => nomatch h
    | cons r rest ih =>
        intro i j hascending hj
        unfold seek
        cases j with
        | zero =>
            rw [if_neg (not_not.2 (Option.some.inj hj))]
            rfl
        | succ j =>
            rw [List.getElem?_cons_succ] at hj
            have hlt := List.rel_of_pairwise_cons hascending (List.mem_of_getElem? hj)
            rw [if_pos (Nat.ne_of_lt hlt), ih (i + 1) j hascending.of_cons hj]
            congr 1
            omega
  rw [hgeneral ladder.rates 0 k ladder.ascending (Ladder.rate_eq_ok.1 hk), Nat.zero_add]

/-- The loop stops at the top, or before the first rate above its start that is out of reach. -/
theorem climb_outcome (rDownload current : K) {fuel lNxt : Nat} (hroom : lNxt + 1 < ladder.size)
    (hfuel : ladder.size ≤ fuel + lNxt + 1) :
    ∃ n, climb ladder rDownload current fuel lNxt = .ok n ∧ lNxt < n ∧ n < ladder.size ∧
      (∀ j r, lNxt + 1 < j → j ≤ n → ladder.rate j = .ok r → (r : K) / current ≤ rDownload) ∧
      (n + 1 = ladder.size ∨
        ∃ above, ladder.rate (n + 1) = .ok above ∧ rDownload < (above : K) / current) := by
  induction fuel generalizing lNxt with
  | zero => omega
  | succ fuel ih =>
      unfold climb
      split_ifs with htop
      · exact ⟨lNxt + 1, rfl, by omega, by omega, fun j r hj hle => by omega, .inl (by omega)⟩
      · obtain ⟨above, habove⟩ :=
          Ladder.exists_rate_of_lt (show lNxt + 1 + 1 < ladder.size by omega)
        rw [habove, ok_bind]
        split_ifs with hreach
        · exact ⟨lNxt + 1, rfl, by omega, by omega, fun j r hj hle => by omega,
            .inr ⟨above, habove, hreach⟩⟩
        · obtain ⟨n, hn, hlt, hsize, hwithin, hstop⟩ :=
            ih (show lNxt + 1 + 1 < ladder.size by omega) (by omega)
          refine ⟨n, hn, by omega, hsize, fun j r hj hle hr => ?_, hstop⟩
          rcases Nat.lt_or_eq_of_le hj with hlater | rfl
          · exact hwithin j r hlater hle hr
          · rw [habove] at hr
            obtain rfl := Except.ok.inj hr
            exact not_lt.1 hreach

/-- The next rate of OSMP is the rate of the next level. -/
theorem calcNextSegment_eq {t : Int} {n next : Nat} (ht : lastFragment c = .ok t)
    (hk : c.rates.rate k = .ok currRate) (hn : nextLevel c.rates (rDownload t : K) k = .ok n)
    (hnext : c.rates.rate n = .ok next) :
    calcNextSegment c currRate = .ok { nextRate := next, delay := (0 : K) } := by
  unfold calcNextSegment
  rw [ht, ok_bind, seek_eq hk, ok_bind, hn, ok_bind, hnext]
  rfl

section
variable [IsStrictOrderedRing K]

/-- At a measurement of at least one the test of the switch up always holds. -/
theorem mayClimb_eq {x : K} (hk : ladder.rate k = .ok currRate) (hx : 1 ≤ x) :
    mayClimb ladder x (currRate : K) k = .ok true := by
  unfold mayClimb
  split_ifs with hzero
  · rfl
  · have hlt := Ladder.lt_size_of_rate hk
    obtain ⟨below, hbelow⟩ := Ladder.exists_rate_of_lt (show k - 1 < ladder.size by omega)
    have hrates : below < currRate := (Ladder.rate_lt_rate hbelow hk).1 (by omega)
    have hcurr : (0 : K) < (currRate : K) := Nat.cast_pos.2 (Ladder.rate_pos hk)
    have hratio : (below : K) / (currRate : K) < 1 :=
      (div_lt_one hcurr).2 (Nat.cast_lt.2 hrates)
    rw [hbelow, ok_bind, decide_eq_true (hratio.trans_le hx)]
    rfl

/-- What OSMP does: down, up from the bottom, or to the bottom from the top. -/
theorem nextLevel_outcome (x : K) (hk : ladder.rate k = .ok currRate) :
    ∃ n, nextLevel ladder x k = .ok n ∧ n < ladder.size ∧
      ((x < 1 ∧ (n = 0 ∨ n + 1 = k)) ∨
        (1 ≤ x ∧ k + 1 < ladder.size ∧ 0 < n ∧
          (∀ j r, 1 < j → j ≤ n → ladder.rate j = .ok r → (r : K) / (currRate : K) ≤ x) ∧
          (n + 1 = ladder.size ∨
            ∃ above, ladder.rate (n + 1) = .ok above ∧ x < (above : K) / (currRate : K))) ∨
        (1 ≤ x ∧ k + 1 = ladder.size ∧ n = 0)) := by
  have hlt := Ladder.lt_size_of_rate hk
  unfold nextLevel
  rw [hk, ok_bind]
  split_ifs with hslow hpos hroom
  · obtain ⟨below, hbelow⟩ := Ladder.exists_rate_of_lt (show k - 1 < ladder.size by omega)
    rw [hbelow, ok_bind]
    split_ifs
    · exact ⟨0, rfl, by omega, .inl ⟨hslow, .inl rfl⟩⟩
    · exact ⟨k - 1, rfl, by omega, .inl ⟨hslow, .inr (by omega)⟩⟩
  · exact ⟨0, rfl, by omega, .inl ⟨hslow, .inl rfl⟩⟩
  · have hx := not_lt.1 hslow
    rw [mayClimb_eq hk hx, ok_bind, if_pos rfl]
    obtain ⟨n, hn, hrises, hsize, hwithin, hstop⟩ := climb_outcome x (currRate : K)
      (show 0 + 1 < ladder.size by omega) (show ladder.size ≤ ladder.size + 0 + 1 by omega)
    exact ⟨n, hn, hsize, .inr (.inl ⟨hx, by omega, hrises, hwithin, hstop⟩)⟩
  · exact ⟨0, rfl, by omega, .inr (.inr ⟨not_lt.1 hslow, by omega, rfl⟩)⟩

end

end Osmp

/-! ## The direction of the switches -/

/-- A switch goes in the direction of the test that holds, as far as the ladder goes. -/
def TowardTest (ladder : Ladder) (k : Nat) (down up : Prop) (currRate nextRate : Nat) : Prop :=
  (down → k ≠ 0 → nextRate < currRate) ∧ (up → k + 1 ≠ ladder.size → currRate < nextRate)

variable [IsStrictOrderedRing K]

theorem Raahs.towardTest_iff (hk : c.rates.rate k = .ok currRate) :
    ∃ d, calcNextSegment m c currRate currRate = .ok d ∧
      (TowardTest c.rates k (mi m c < 67 / 100) (1 + epsilon c.rates < mi m c) currRate
          d.nextRate ↔
        (mi m c < 67 / 100 → k ≠ 0 → 2 ≤ k ∧ (c.rates.front : K) < mi m c * currRate)) := by
  obtain ⟨next, hnext, hcases⟩ :=
    switch_outcome m currRate currRate (Ladder.lt_size_of_rate hk)
  refine ⟨_, calcNextSegment_eq hk hnext, ?_⟩
  have hexclusive : 1 + epsilon c.rates < mi m c → ¬ mi m c < 67 / 100 := by
    intro hup hdown
    have hnonneg : (0 : K) ≤ epsilon c.rates := epsilon_nonneg
    norm_num at hdown
    linarith
  unfold TowardTest
  dsimp only
  rcases hcases with ⟨hup, habove⟩ | ⟨hdown, hlowest, rfl⟩ | ⟨hup, hdown, rfl⟩
  · have hlt : currRate < next := (Ladder.rate_lt_rate hk habove).1 (Nat.lt_succ_self k)
    exact ⟨fun _ h => absurd h (hexclusive hup),
      fun _ => ⟨fun h => absurd h (hexclusive hup), fun _ _ => hlt⟩⟩
  · have hlt : c.rates.front < currRate :=
      (Ladder.rate_lt_rate c.rates.rate_zero hk).1 (by omega)
    exact ⟨fun _ _ _ => hlowest, fun _ => ⟨fun _ _ => hlt, fun h => absurd hdown (hexclusive h)⟩⟩
  · constructor
    · exact fun h hslow hpos => absurd (h.1 hslow hpos) (Nat.lt_irrefl _)
    · intro h
      refine ⟨fun hslow hpos => ?_, fun hfast hroom => absurd (hup hfast) hroom⟩
      exact absurd (h hslow hpos) (hdown (fun hfast => hexclusive hfast hslow) hslow)

/-- The steps that SFTM compares with are not negative. -/
theorem Sftm.exists_upStep (hk : ladder.rate k = .ok currRate) :
    ∃ eu : K, upStep ladder k = .ok eu ∧ 0 ≤ eu := by
  have hmax := le_foldl_max (fun step : Nat × Nat => ((step.2 : K) - (step.1 : K)) / (step.1 : K))
    ladder.steps 0
  unfold upStep
  split_ifs with hroom
  · obtain ⟨above, habove⟩ := Ladder.exists_rate_of_lt (show k + 1 < ladder.size by omega)
    rw [habove, ok_bind, hk, ok_bind]
    have hlt : currRate < above := (Ladder.rate_lt_rate hk habove).1 (Nat.lt_succ_self k)
    have hstep : (0 : K) ≤ ((above : K) - (currRate : K)) / (currRate : K) :=
      div_nonneg (sub_nonneg.2 (Nat.cast_le.2 hlt.le)) (Nat.cast_nonneg _)
    exact ⟨_, rfl, le_min hmax (by linarith)⟩
  · have hdouble : (0 : K) ≤ doubleMax :=
      mul_nonneg (by norm_num) (pow_nonneg (by norm_num) _)
    exact ⟨_, rfl, le_min hmax (by linarith)⟩

theorem Sftm.exists_downStep (hk : ladder.rate k = .ok currRate) :
    ∃ ed : K, downStep ladder k = .ok ed ∧ 0 ≤ ed := by
  have hlt := Ladder.lt_size_of_rate hk
  unfold downStep
  split_ifs with hpos
  · obtain ⟨below, hbelow⟩ := Ladder.exists_rate_of_lt (show k - 1 < ladder.size by omega)
    rw [hk, ok_bind, hbelow, ok_bind]
    have hrates : below < currRate := (Ladder.rate_lt_rate hbelow hk).1 (by omega)
    have hstep : (0 : K) ≤ ((currRate : K) - (below : K)) / (currRate : K) :=
      div_nonneg (sub_nonneg.2 (Nat.cast_le.2 hrates.le)) (Nat.cast_nonneg _)
    exact ⟨_, rfl, hstep.trans (le_max_right _ _)⟩
  · exact ⟨_, rfl, zero_le_one.trans (le_max_right _ _)⟩

theorem Sftm.towardTest_iff (rsftExceeded : Bool) (hk : c.rates.rate k = .ok currRate) :
    ∃ eu ed d flag, upStep c.rates k = .ok eu ∧ downStep c.rates k = .ok ed ∧
      calcNextSegment m c rsftExceeded currRate currRate = .ok (d, flag) ∧
      (TowardTest c.rates k (sftm m c rsftExceeded < 1 - ed) (1 + eu < sftm m c rsftExceeded)
          currRate d.nextRate ↔
        (sftm m c rsftExceeded < 1 - ed → k ≠ 0 →
          (c.rates.front : K) < sftm m c rsftExceeded * currRate)) := by
  obtain ⟨eu, heu, hupNonneg⟩ := exists_upStep (K := K) hk
  obtain ⟨ed, hed, hdownNonneg⟩ := exists_downStep (K := K) hk
  obtain ⟨next, hnext, hcases⟩ :=
    switch_outcome (sftm m c rsftExceeded) eu ed currRate hk
  refine ⟨eu, ed, _, _, heu, hed, calcNextSegment_eq hk heu hed hnext, ?_⟩
  have hexclusive : 1 + eu < sftm m c rsftExceeded → ¬ sftm m c rsftExceeded < 1 - ed := by
    intro hup hdown
    linarith
  unfold TowardTest
  dsimp only
  rcases hcases with ⟨hup, habove⟩ | ⟨hdown, hpos, hlowest, hbelow, -⟩ | ⟨hup, hdown, rfl⟩
  · have hlt : currRate < next := (Ladder.rate_lt_rate hk habove).1 (Nat.lt_succ_self k)
    exact ⟨fun _ h => absurd h (hexclusive hup),
      fun _ => ⟨fun h => absurd h (hexclusive hup), fun _ _ => hlt⟩⟩
  · exact ⟨fun _ _ _ => hlowest,
      fun _ => ⟨fun _ _ => hbelow, fun h => absurd hdown (hexclusive h)⟩⟩
  · constructor
    · exact fun h hslow hpos => absurd (h.1 hslow hpos) (Nat.lt_irrefl _)
    · intro h
      refine ⟨fun hslow hpos => ?_, fun hfast hroom => absurd (hup hfast) hroom⟩
      have hkept := hdown (fun hfast => hexclusive hfast hslow) hslow hpos
      exact absurd (h hslow hpos) (not_lt.2 hkept)

/-- Where a climb from the bottom ends, compared with the current level. -/
theorem Osmp.climb_compare {x : K} {n : Nat} (hk : ladder.rate k = .ok currRate) (hx : 1 ≤ x)
    (hroom : k + 1 < ladder.size) (hrises : 0 < n)
    (hwithin : ∀ j r, 1 < j → j ≤ n → ladder.rate j = .ok r → (r : K) / (currRate : K) ≤ x)
    (hstop : n + 1 = ladder.size ∨
      ∃ above, ladder.rate (n + 1) = .ok above ∧ x < (above : K) / (currRate : K)) :
    k ≤ n ∧ (k < n ↔ (k ≠ 0 → ∀ above, ladder.rate (k + 1) = .ok above →
      (above : K) ≤ x * currRate)) := by
  have hcurr : (0 : K) < (currRate : K) := Nat.cast_pos.2 (Ladder.rate_pos hk)
  -- The loop does not stop below a level that is within reach.
  have hreaches : ∀ j r, ladder.rate j = .ok r → (r : K) ≤ x * currRate → j ≤ n := by
    intro j r hj hr
    by_contra hlt
    have hjlt := Ladder.lt_size_of_rate hj
    rcases hstop with htop | ⟨above, habove, hout⟩
    · omega
    · have hle : above ≤ r := (Ladder.rate_le_rate habove hj).1 (by omega)
      have hgt : x * currRate < (above : K) := (lt_div_iff₀ hcurr).1 hout
      exact absurd (hgt.trans_le (Nat.cast_le.2 hle)) (not_lt.2 hr)
  refine ⟨hreaches k currRate hk (le_mul_of_one_le_left hcurr.le hx),
    fun hlt hpos above habove => ?_, fun hwithinReach => ?_⟩
  · exact (div_le_iff₀ hcurr).1 (hwithin (k + 1) above (by omega) hlt habove)
  · rcases Nat.eq_zero_or_pos k with rfl | hpos
    · exact hrises
    · obtain ⟨above, habove⟩ := Ladder.exists_rate_of_lt hroom
      exact hreaches (k + 1) above habove (hwithinReach hpos.ne' above habove)

theorem Osmp.towardTest_iff {t : Int} (ht : lastFragment c = .ok t)
    (hk : c.rates.rate k = .ok currRate) :
    ∃ d, calcNextSegment c currRate = .ok d ∧
      ((TowardTest c.rates k ((rDownload t : K) < 1) (¬ (rDownload t : K) < 1 ∧
            mayClimb c.rates (rDownload t : K) (currRate : K) k = .ok true) currRate d.nextRate ∧
          (1 ≤ (rDownload t : K) → currRate ≤ d.nextRate)) ↔
        (1 ≤ (rDownload t : K) → (k + 1 = c.rates.size → k = 0) ∧
          (k ≠ 0 → ∀ above, c.rates.rate (k + 1) = .ok above →
            (above : K) ≤ rDownload t * currRate))) := by
  obtain ⟨n, hn, hsize, hcases⟩ := nextLevel_outcome (rDownload t : K) hk
  obtain ⟨next, hnext⟩ := Ladder.exists_rate_of_lt hsize
  refine ⟨_, calcNextSegment_eq ht hk hn hnext, ?_⟩
  have hlt := Ladder.lt_size_of_rate hk
  unfold TowardTest
  dsimp only
  rw [← Ladder.rate_lt_rate hnext hk, ← Ladder.rate_lt_rate hk hnext,
    ← Ladder.rate_le_rate hk hnext]
  rcases hcases with ⟨hslow, hn⟩ | ⟨hx, hroom, hrises, hwithin, hstop⟩ | ⟨hx, htop, rfl⟩
  · constructor
    · exact fun _ h => absurd hslow (not_lt.2 h)
    · refine fun _ => ⟨⟨fun _ hpos => ?_, fun h => absurd hslow h.1⟩,
        fun h => absurd hslow (not_lt.2 h)⟩
      omega
  · obtain ⟨hkeeps, hclimbs⟩ := climb_compare hk hx hroom hrises hwithin hstop
    constructor
    · exact fun h _ => ⟨fun htop => absurd htop hroom.ne,
        hclimbs.1 (h.1.2 ⟨not_lt.2 hx, mayClimb_eq hk hx⟩ hroom.ne)⟩
    · exact fun h => ⟨⟨fun hslow => absurd hslow (not_lt.2 hx), fun _ _ => hclimbs.2 (h hx).2⟩,
        fun _ => hkeeps⟩
  · constructor
    · refine fun h _ => ⟨fun _ => Nat.le_zero.1 (h.2 hx), fun _ above habove => ?_⟩
      have := Ladder.lt_size_of_rate habove
      omega
    · exact fun h => ⟨⟨fun hslow => absurd hslow (not_lt.2 hx), fun _ hroom => absurd htop hroom⟩,
        fun _ => ((h hx).1 htop).le⟩

/-- **When a rate switch goes in the direction of its test.** Up, RAAHS and SFTM always do. Down,
RAAHS does from the third-lowest rate on and SFTM from any rate but the lowest, if the lowest rate
is below what the measurement allows. OSMP always switches down; it leaves the highest rate for
the lowest one, and switches up only if the next rate is within reach. -/
theorem switch_towardTest_iff (hk : c.rates.rate k = .ok currRate) :
    (∃ d, Raahs.calcNextSegment m c currRate currRate = .ok d ∧
      (TowardTest c.rates k (Raahs.mi m c < 67 / 100)
          (1 + Raahs.epsilon c.rates < Raahs.mi m c) currRate d.nextRate ↔
        (Raahs.mi m c < 67 / 100 → k ≠ 0 →
          2 ≤ k ∧ (c.rates.front : K) < Raahs.mi m c * currRate))) ∧
    (∀ exceeded, ∃ eu ed d flag,
      Sftm.upStep c.rates k = .ok eu ∧ Sftm.downStep c.rates k = .ok ed ∧
      Sftm.calcNextSegment m c exceeded currRate currRate = .ok (d, flag) ∧
      (TowardTest c.rates k (Sftm.sftm m c exceeded < 1 - ed) (1 + eu < Sftm.sftm m c exceeded)
          currRate d.nextRate ↔
        (Sftm.sftm m c exceeded < 1 - ed → k ≠ 0 →
          (c.rates.front : K) < Sftm.sftm m c exceeded * currRate))) ∧
    (∀ t r, Osmp.lastFragment c = .ok t → r = (Osmp.rDownload t : K) →
      ∃ d, Osmp.calcNextSegment c currRate = .ok d ∧
      ((TowardTest c.rates k (r < 1)
            (¬ r < 1 ∧ Osmp.mayClimb c.rates r (currRate : K) k = .ok true) currRate d.nextRate ∧
          (1 ≤ r → currRate ≤ d.nextRate)) ↔
        (1 ≤ r → (k + 1 = c.rates.size → k = 0) ∧
          (k ≠ 0 → ∀ above, c.rates.rate (k + 1) = .ok above → (above : K) ≤ r * currRate)))) := by
  refine ⟨Raahs.towardTest_iff hk, fun exceeded => Sftm.towardTest_iff exceeded hk, ?_⟩
  rintro t r ht rfl
  exact Osmp.towardTest_iff ht hk

/-- Exact arithmetic on rational numbers. None of the three controllers calls a function of the
mathematical library or converts to an integer. -/
def MathFunctions.rational : MathFunctions ℚ where
  log := id
  exp := id
  sqrt := id
  toUint32 x := x.floor.toNat
  byZero := 0

/-- The last segment took 33 seconds to fetch; the buffer was logged three seconds apart. -/
def DashClient.slowFetch : DashClient ℚ :=
  { DashClient.new Ladder.standard (seconds 35) with
    bufferState := [(0, 0), (3000000000, 0)]
    segmentFetchTime := seconds 33 }

theorem switch_towardTest_iff_standard :
    (∃ d, Raahs.calcNextSegment .rational .slowFetch 131000 131000 = .ok d ∧
      (TowardTest Ladder.standard 2 (Raahs.mi .rational .slowFetch < 67 / 100)
          (1 + Raahs.epsilon Ladder.standard < Raahs.mi .rational .slowFetch) 131000
          d.nextRate ↔
        (Raahs.mi .rational .slowFetch < 67 / 100 → 2 ≠ 0 → 2 ≤ 2 ∧
          (Ladder.standard.front : ℚ) < Raahs.mi .rational .slowFetch * (131000 : Nat)))) ∧
    (∀ exceeded, ∃ eu ed d flag,
      Sftm.upStep Ladder.standard 2 = .ok eu ∧ Sftm.downStep Ladder.standard 2 = .ok ed ∧
      Sftm.calcNextSegment .rational .slowFetch exceeded 131000 131000 = .ok (d, flag) ∧
      (TowardTest Ladder.standard 2 (Sftm.sftm .rational .slowFetch exceeded < 1 - ed)
          (1 + eu < Sftm.sftm .rational .slowFetch exceeded) 131000 d.nextRate ↔
        (Sftm.sftm .rational .slowFetch exceeded < 1 - ed → 2 ≠ 0 →
          (Ladder.standard.front : ℚ) <
            Sftm.sftm .rational .slowFetch exceeded * (131000 : Nat)))) ∧
    (∀ t r, Osmp.lastFragment (K := ℚ) .slowFetch = .ok t → r = (Osmp.rDownload t : ℚ) →
      ∃ d, Osmp.calcNextSegment (K := ℚ) .slowFetch 131000 = .ok d ∧
      ((TowardTest Ladder.standard 2 (r < 1)
            (¬ r < 1 ∧ Osmp.mayClimb Ladder.standard r ((131000 : Nat) : ℚ) 2 = .ok true) 131000
            d.nextRate ∧
          (1 ≤ r → 131000 ≤ d.nextRate)) ↔
        (1 ≤ r → (2 + 1 = Ladder.standard.size → 2 = 0) ∧
          (2 ≠ 0 → ∀ above, Ladder.standard.rate (2 + 1) = .ok above →
            (above : ℚ) ≤ r * (131000 : Nat))))) :=
  switch_towardTest_iff (c := .slowFetch) (by decide)

/-- On the ladder of the source, RAAHS and SFTM keep the second-lowest rate when their test to
switch down holds, and OSMP leaves the highest rate for the lowest one although the last segment
arrived faster than it plays. -/
theorem not_towardTest_standard :
    (Raahs.mi .rational .slowFetch < 67 / 100 ∧
      (Raahs.calcNextSegment .rational .slowFetch 89000 89000).map (·.nextRate) = .ok 89000) ∧
    (Sftm.downStep Ladder.standard 1 = .ok (44 / 89 : ℚ) ∧
      Sftm.sftm .rational .slowFetch false < 1 - 44 / 89 ∧
      (Sftm.calcNextSegment .rational .slowFetch false 89000 89000).map (·.1.nextRate) =
        .ok 89000) ∧
    (Osmp.lastFragment (K := ℚ) .slowFetch = .ok (seconds 3) ∧
      1 ≤ (Osmp.rDownload (seconds 3) : ℚ) ∧
      (Osmp.calcNextSegment (K := ℚ) .slowFetch 4220000).map (·.nextRate) = .ok 45000) := by
  decide +kernel

end NtnIab.Dash
