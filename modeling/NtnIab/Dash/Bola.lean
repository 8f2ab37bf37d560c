import Mathlib.Algebra.Order.Field.Basic
import Mathlib.Tactic.Linarith
import Mathlib.Tactic.FieldSimp
import NtnIab.Dash.Controllers

/-!
# BOLA

The score of a rate `r` at a buffer level `L` is `(value r - L) / r`. At the lowest rate the value
is the minimum buffer and at the highest it is `bufferTime`, whatever the ladder and the target
are.

## Strategy

For two rates the score of the higher one falls more slowly as the level grows. So a higher rate
that does not lose to a lower one at some level does not lose to it at a higher level, and the
last maximum of the scores moves up with the level. At `bufferTime` every value but the highest is
below the level, and the highest rate has the best score from there on.

The lowest rate has the best score exactly if it beats every other rate, and comparing its score
with that of one rate gives a condition on the level. At the minimum buffer its score is zero and
every other score is positive, so it is not preferred there.
-/

namespace NtnIab.Dash

/-- A client with the rates and the target of the source that has logged one buffer level. -/
noncomputable def DashClient.standardAt (level : Int) : DashClient ℝ :=
  { DashClient.new Ladder.standard (seconds 35) with bufferState := [(0, level)] }

namespace Bola

open Fallible

variable {K : Type} [Field K] {m : MathFunctions K} {ladder : Ladder}
  {target level level' : K} {r s : Nat}

theorem utility_front : utility m ladder ladder.front = 1 := by
  unfold utility
  rw [sub_self, zero_add]

variable [LinearOrder K]

/-- What a rate scores beside the buffer level. -/
def value (m : MathFunctions K) (ladder : Ladder) (target : K) (rate : Nat) : K :=
  vp m ladder target * (utility m ladder rate - 1 + gp m ladder target)

theorem score_eq :
    score m ladder target level r = (value m ladder target r - level) / (r : K) := rfl

/-! ## The choice -/

/-- The score of the rate at a position of the ladder. -/
def scoreAt (m : MathFunctions K) (ladder : Ladder) (target level : K) (i : Nat) : K :=
  score m ladder target level (ladder.rates.getD i 0)

/-- The position of the rate that is taken at a level. -/
def quality (m : MathFunctions K) (ladder : Ladder) (target level : K) : Nat :=
  LastMaximum.position (scoreAt m ladder target level) (ladder.size - 1)

theorem scoreAt_eq {i : Nat} (hr : ladder.rate i = .ok r) :
    scoreAt m ladder target level i = score m ladder target level r := by
  unfold scoreAt
  rw [List.getD_eq_getElem?_getD, Ladder.rate_eq_ok.1 hr, Option.getD_some]

theorem quality_lt_size : quality m ladder target level < ladder.size := by
  have hsize := ladder.size_pos
  have hle : quality m ladder target level ≤ ladder.size - 1 := LastMaximum.position_le
  omega

/-- The loop takes the position of the last best score. -/
theorem foldlM_select :
    (List.range ladder.size).foldlM (select m ladder target level) none =
      .ok (some (quality m ladder target level,
        scoreAt m ladder target level (quality m ladder target level))) := by
  have hturn : ∀ i ∈ List.range ladder.size, ∀ best, select m ladder target level best i =
      .ok (LastMaximum.keepBetter (scoreAt m ladder target level) best i) := by
    intro i hi best
    have hr := Ladder.rate_of_lt (List.mem_range.1 hi)
    unfold select LastMaximum.keepBetter
    rw [hr, ok_bind, scoreAt_eq hr]
    rfl
  rw [foldlM_eq_ok hturn, ← Nat.sub_add_cancel ladder.size_pos]
  exact congrArg Except.ok LastMaximum.foldl_keepBetter

/-- The rate that is taken at a level, if the ladder has a choice. -/
def chosen (m : MathFunctions K) (ladder : Ladder) (target level : K) : Nat :=
  ladder.rates.get ⟨quality m ladder target level, quality_lt_size⟩

theorem rate_quality :
    ladder.rate (quality m ladder target level) = .ok (chosen m ladder target level) :=
  Ladder.rate_of_lt quality_lt_size

theorem calcNextSegment_eq {c : DashClient K} (hsize : 2 ≤ c.rates.size) :
    calcNextSegment m c = .ok
      { nextRate := chosen m c.rates (getSeconds c.targetDt) (c.getBufferEstimate m)
        delay := positivePart (c.getBufferEstimate m + segmentDuration -
          bufferTime c.rates (getSeconds c.targetDt)) } := by
  unfold calcNextSegment
  rw [if_neg (Nat.not_lt.2 hsize)]
  dsimp only
  rw [foldlM_select, ok_bind]
  dsimp only
  rw [rate_quality, ok_bind]
  rfl

/-- The rate taken is the highest one with the best score. -/
theorem chosen_eq_iff :
    chosen m ladder target level = r ↔ r ∈ ladder.rates ∧
      ∀ s ∈ ladder.rates, score m ladder target level s ≤ score m ladder target level r ∧
        (r < s → score m ladder target level s < score m ladder target level r) := by
  constructor
  · rintro rfl
    refine ⟨Ladder.rate_mem rate_quality, fun s hs => ?_⟩
    obtain ⟨j, hj⟩ := Ladder.exists_rate hs
    have hlast : j ≤ ladder.size - 1 := Nat.le_sub_one_of_lt (Ladder.lt_size_of_rate hj)
    rw [← scoreAt_eq hj, ← scoreAt_eq rate_quality]
    refine ⟨LastMaximum.le_score_position hlast, fun hlt => ?_⟩
    exact LastMaximum.score_lt_of_position_lt ((Ladder.rate_lt_rate rate_quality hj).2 hlt) hlast
  · rintro ⟨hr, hbest⟩
    obtain ⟨i, hi⟩ := Ladder.exists_rate hr
    have hposition : quality m ladder target level = i := by
      refine LastMaximum.position_eq_iff.2
        ⟨Nat.le_sub_one_of_lt (Ladder.lt_size_of_rate hi), fun j hj => ?_, fun j hj hlt => ?_⟩
      · have hs := Ladder.rate_of_lt (show j < ladder.size by have := ladder.size_pos; omega)
        rw [scoreAt_eq hs, scoreAt_eq hi]
        exact (hbest _ (Ladder.rate_mem hs)).1
      · have hs := Ladder.rate_of_lt (show j < ladder.size by have := ladder.size_pos; omega)
        rw [scoreAt_eq hs, scoreAt_eq hi]
        exact (hbest _ (Ladder.rate_mem hs)).2 ((Ladder.rate_lt_rate hi hs).1 hlt)
    have hrate : ladder.rate (quality m ladder target level) =
        .ok (chosen m ladder target level) := rate_quality
    rw [hposition, hi] at hrate
    exact (Except.ok.inj hrate).symm

/-! ## The parameters -/

variable [IsStrictOrderedRing K]

theorem minimumBuffer_lt_bufferTime :
    (minimumBuffer : K) < bufferTime ladder target := by
  have hsize : (0 : K) < (ladder.size : K) := Nat.cast_pos.2 ladder.size_pos
  calc (minimumBuffer : K) < minimumBuffer + 2 * (ladder.size : K) := by linarith
    _ ≤ bufferTime ladder target := le_max_right _ _

theorem gp_mul :
    gp m ladder target * (bufferTime ladder target - minimumBuffer) =
      minimumBuffer * (utility m ladder ladder.back - 1) := by
  have hlt : minimumBuffer < bufferTime ladder target := minimumBuffer_lt_bufferTime
  have hten : (minimumBuffer : K) ≠ 0 := by norm_num [minimumBuffer]
  have hrange : bufferTime ladder target / minimumBuffer - 1 =
      (bufferTime ladder target - minimumBuffer) / minimumBuffer := by
    rw [sub_div, div_self hten]
  have hne : bufferTime ladder target - minimumBuffer ≠ 0 := (sub_pos.2 hlt).ne'
  unfold gp
  rw [hrange, m.quot_of_ne _ (div_ne_zero hne hten)]
  field_simp

section
variable (hlog : StrictMonoOn m.log (Set.Ioi 0))
include hlog

theorem utility_lt_utility (hr : 0 < r) (hlt : r < s) :
    utility m ladder r < utility m ladder s := by
  have hr' : (0 : K) < (r : K) := Nat.cast_pos.2 hr
  have hrs : (r : K) < (s : K) := Nat.cast_lt.2 hlt
  have := hlog hr' (hr'.trans hrs) hrs
  unfold utility
  linarith

variable (hsize : 2 ≤ ladder.size)
include hsize

/-- The utility range of the ladder, as the code normalizes it. -/
theorem one_lt_utility_back : 1 < utility m ladder ladder.back := by
  calc 1 = utility m ladder ladder.front := utility_front.symm
    _ < utility m ladder ladder.back :=
        utility_lt_utility hlog ladder.front_pos (ladder.front_lt_back hsize)

theorem gp_pos : 0 < gp m ladder target := by
  have hlt : minimumBuffer < bufferTime ladder target := minimumBuffer_lt_bufferTime
  have hutility := one_lt_utility_back hlog hsize
  have hten : (0 : K) < minimumBuffer := by norm_num [minimumBuffer]
  have hprod : 0 < gp m ladder target * (bufferTime ladder target - minimumBuffer) := by
    rw [gp_mul]
    exact mul_pos hten (sub_pos.2 hutility)
  exact pos_of_mul_pos_left hprod (sub_pos.2 hlt).le

theorem vp_mul_gp : vp m ladder target * gp m ladder target = minimumBuffer := by
  have hne : gp m ladder target ≠ 0 := (gp_pos hlog hsize).ne'
  unfold vp
  rw [m.quot_of_ne _ hne, div_mul_cancel₀ _ hne]

theorem vp_pos : 0 < vp m ladder target := by
  have hgp : 0 < gp m ladder target := gp_pos hlog hsize
  have hprod : 0 < vp m ladder target * gp m ladder target := by
    rw [vp_mul_gp hlog hsize]
    norm_num [minimumBuffer]
  exact pos_of_mul_pos_left hprod hgp.le

/-- A step of the utilities against the whole range, in seconds of buffer. -/
theorem vp_mul_range :
    vp m ladder target * (utility m ladder ladder.back - 1) =
      bufferTime ladder target - minimumBuffer := by
  have hten : (minimumBuffer : K) ≠ 0 := by norm_num [minimumBuffer]
  apply mul_left_cancel₀ hten
  calc minimumBuffer * (vp m ladder target * (utility m ladder ladder.back - 1))
      = vp m ladder target * (minimumBuffer * (utility m ladder ladder.back - 1)) :=
        mul_left_comm _ _ _
    _ = vp m ladder target * gp m ladder target *
          (bufferTime ladder target - minimumBuffer) := by
        rw [← gp_mul, mul_assoc]
    _ = minimumBuffer * (bufferTime ladder target - minimumBuffer) := by
        rw [vp_mul_gp hlog hsize]

/-! ## The two ends -/

theorem value_front : value m ladder target ladder.front = minimumBuffer := by
  unfold value
  rw [utility_front, sub_self, zero_add, vp_mul_gp hlog hsize]

theorem value_back : value m ladder target ladder.back = bufferTime ladder target := by
  unfold value
  rw [mul_add, vp_mul_range hlog hsize, vp_mul_gp hlog hsize, sub_add_cancel]

theorem value_lt_value (hr : 0 < r) (hlt : r < s) :
    value m ladder target r < value m ladder target s := by
  have hutility : utility m ladder r < utility m ladder s := utility_lt_utility hlog hr hlt
  exact mul_lt_mul_of_pos_left (by linarith) (vp_pos hlog hsize)

/-! ## The scores -/

omit hlog hsize in
/-- The score of a higher rate falls more slowly as the level grows. -/
theorem score_le_score_of_level (hr : 0 < r) (hlt : r < s) (hlevel : level ≤ level')
    (hscore : score m ladder target level r ≤ score m ladder target level s) :
    score m ladder target level' r ≤ score m ladder target level' s := by
  have hr' : (0 : K) < (r : K) := Nat.cast_pos.2 hr
  have hrs : (r : K) ≤ (s : K) := Nat.cast_le.2 hlt.le
  have hfall : ∀ t : Nat, score m ladder target level' t =
      score m ladder target level t - (level' - level) / (t : K) := by
    intro t
    rw [score_eq, score_eq, ← sub_div, sub_sub, add_sub_cancel]
  have hslower : (level' - level) / (s : K) ≤ (level' - level) / (r : K) :=
    div_le_div_of_nonneg_left (sub_nonneg.2 hlevel) hr' hrs
  rw [hfall r, hfall s]
  exact sub_le_sub hscore hslower

/-- From `bufferTime` on, every value but the highest is below the level. -/
theorem score_lt_score_back (hlevel : bufferTime ladder target ≤ level) (hr : 0 < r)
    (hlt : r < ladder.back) :
    score m ladder target level r < score m ladder target level ladder.back := by
  have hr' : (0 : K) < (r : K) := Nat.cast_pos.2 hr
  have hrs : (r : K) ≤ (ladder.back : K) := Nat.cast_le.2 hlt.le
  have hvalue : value m ladder target r < value m ladder target ladder.back :=
    value_lt_value hlog hsize hr hlt
  have hback : value m ladder target ladder.back = bufferTime ladder target :=
    value_back hlog hsize
  have hover : 0 ≤ level - value m ladder target ladder.back := by rw [hback]; linarith
  rw [score_eq, score_eq]
  calc (value m ladder target r - level) / (r : K)
      < (value m ladder target ladder.back - level) / (r : K) :=
        div_lt_div_of_pos_right (by linarith) hr'
    _ = -((level - value m ladder target ladder.back) / (r : K)) := by rw [← neg_div, neg_sub]
    _ ≤ -((level - value m ladder target ladder.back) / (ladder.back : K)) :=
        neg_le_neg (div_le_div_of_nonneg_left hover hr' hrs)
    _ = (value m ladder target ladder.back - level) / (ladder.back : K) := by
        rw [← neg_div, neg_sub]

/-- When a rate loses to the lowest one. -/
def LosesToLowest (m : MathFunctions K) (ladder : Ladder) (target level : K) (r : Nat) : Prop :=
  (ladder.front : K) * (bufferTime ladder target - minimumBuffer) *
      (m.log (r : K) - m.log (ladder.front : K)) <
    (minimumBuffer - level) * ((r : K) - (ladder.front : K)) *
      (m.log (ladder.back : K) - m.log (ladder.front : K))

theorem score_lt_score_front_iff (hr : 0 < r) :
    score m ladder target level r < score m ladder target level ladder.front ↔
      LosesToLowest m ladder target level r := by
  have hr' : (0 : K) < (r : K) := Nat.cast_pos.2 hr
  have hfront : (0 : K) < (ladder.front : K) := Nat.cast_pos.2 ladder.front_pos
  have hrange : vp m ladder target * (utility m ladder ladder.back - 1) =
      bufferTime ladder target - minimumBuffer := vp_mul_range hlog hsize
  have hutility := one_lt_utility_back hlog hsize
  have hvalue : value m ladder target r =
      vp m ladder target * (utility m ladder r - 1) + minimumBuffer := by
    unfold value
    rw [mul_add, vp_mul_gp hlog hsize]
  have hstep : ∀ rate : Nat,
      utility m ladder rate - 1 = m.log (rate : K) - m.log (ladder.front : K) := by
    intro rate
    unfold utility
    ring
  rw [score_eq, score_eq, value_front hlog hsize, hvalue, div_lt_div_iff₀ hr' hfront]
  unfold LosesToLowest
  rw [← hstep r, ← hstep ladder.back, ← hrange]
  set D := utility m ladder ladder.back - 1 with hD
  have hDpos : 0 < D := sub_pos.2 hutility
  rw [← mul_lt_mul_iff_left₀ hDpos, ← sub_pos, ← sub_pos (b := _ * _ * _)]
  constructor <;> intro h <;> linarith

end

/-! ## What is chosen -/

/-- The choice does not go down when the level goes up. -/
theorem chosen_le_chosen (hlevel : level ≤ level') :
    chosen m ladder target level ≤ chosen m ladder target level' := by
  refine (Ladder.rate_le_rate rate_quality rate_quality).1 ?_
  apply LastMaximum.position_le_position
  intro i j hij hj hscore
  have hsize := ladder.size_pos
  have hr := Ladder.rate_of_lt (show i < ladder.size by omega)
  have hs := Ladder.rate_of_lt (show j < ladder.size by omega)
  rw [scoreAt_eq hr, scoreAt_eq hs] at hscore ⊢
  exact score_le_score_of_level (Ladder.rate_pos hr) ((Ladder.rate_lt_rate hr hs).1 hij) hlevel
    hscore

theorem chosen_eq_back (hlog : StrictMonoOn m.log (Set.Ioi 0)) (hsize : 2 ≤ ladder.size)
    (hlevel : bufferTime ladder target ≤ level) :
    chosen m ladder target level = ladder.back := by
  refine chosen_eq_iff.2 ⟨ladder.back_mem, fun s hs => ?_⟩
  have hback := Ladder.le_back hs
  refine ⟨?_, fun hlt => absurd hlt (Nat.not_lt.2 hback)⟩
  rcases hback.lt_or_eq with hlt | rfl
  · exact (score_lt_score_back hlog hsize hlevel (ladder.positive s hs) hlt).le
  · exact le_refl _

/-- The lowest rate is taken if every other rate loses to it. -/
theorem chosen_eq_front_iff (hlog : StrictMonoOn m.log (Set.Ioi 0)) (hsize : 2 ≤ ladder.size) :
    chosen m ladder target level = ladder.front ↔
      ∀ r ∈ ladder.rates, ladder.front < r → LosesToLowest m ladder target level r := by
  rw [chosen_eq_iff]
  constructor
  · rintro ⟨-, hbest⟩ r hr hlt
    exact (score_lt_score_front_iff hlog hsize (ladder.positive r hr)).1 ((hbest r hr).2 hlt)
  · intro hloses
    refine ⟨ladder.front_mem, fun s hs => ?_⟩
    have hscore : ladder.front < s → score m ladder target level s <
        score m ladder target level ladder.front := fun hlt =>
      (score_lt_score_front_iff hlog hsize (ladder.positive s hs)).2 (hloses s hs hlt)
    refine ⟨?_, hscore⟩
    rcases (Ladder.front_le hs).lt_or_eq with hlt | heq
    · exact (hscore hlt).le
    · rw [heq]

/-! ## The results -/

/-- **BOLA is monotone in the buffer.** The rate does not go down when the level goes up, it is
the highest one from `bufferTime` on, and the delay is what the level exceeds `bufferTime` by once
a segment has been added. -/
theorem calcNextSegment_monotone (hlog : StrictMonoOn m.log (Set.Ioi 0)) {c : DashClient K}
    (hsize : 2 ≤ c.rates.size) :
    ∃ d, calcNextSegment m c = .ok d ∧
      (∀ c' : DashClient K, c'.rates = c.rates → c'.targetDt = c.targetDt →
        c.getBufferEstimate m ≤ c'.getBufferEstimate m →
        ∃ d', calcNextSegment m c' = .ok d' ∧ d.nextRate ≤ d'.nextRate) ∧
      (bufferTime c.rates (getSeconds c.targetDt) ≤ c.getBufferEstimate m →
        d.nextRate = c.rates.back) ∧
      d.delay = max 0 (c.getBufferEstimate m + segmentDuration -
        bufferTime c.rates (getSeconds c.targetDt)) := by
  refine ⟨_, calcNextSegment_eq hsize, ?_, chosen_eq_back hlog hsize, positivePart_eq_max _⟩
  intro c' hrates htarget hlevel
  refine ⟨_, calcNextSegment_eq (by rw [hrates]; exact hsize), ?_⟩
  rw [hrates, htarget]
  exact chosen_le_chosen hlevel

theorem calcNextSegment_monotone_standard :
    ∃ d, calcNextSegment (.real Nat.floor 0) (.standardAt (seconds 60)) = .ok d ∧
      (∀ c' : DashClient ℝ, c'.rates = Ladder.standard → c'.targetDt = seconds 35 →
        (DashClient.standardAt (seconds 60)).getBufferEstimate (.real Nat.floor 0) ≤
          c'.getBufferEstimate (.real Nat.floor 0) →
        ∃ d', calcNextSegment (.real Nat.floor 0) c' = .ok d' ∧ d.nextRate ≤ d'.nextRate) ∧
      (bufferTime Ladder.standard (getSeconds (seconds 35)) ≤
        (DashClient.standardAt (seconds 60)).getBufferEstimate (.real Nat.floor 0) →
        d.nextRate = Ladder.standard.back) ∧
      d.delay = max 0 ((DashClient.standardAt (seconds 60)).getBufferEstimate
        (.real Nat.floor 0) + segmentDuration -
          bufferTime Ladder.standard (getSeconds (seconds 35))) :=
  calcNextSegment_monotone (c := .standardAt (seconds 60)) Real.strictMonoOn_log (by decide)

/-- **When BOLA prefers the lowest rate.** -/
theorem nextRate_eq_front_iff (hlog : StrictMonoOn m.log (Set.Ioi 0)) {c : DashClient K}
    (hsize : 2 ≤ c.rates.size) :
    ∃ d, calcNextSegment m c = .ok d ∧
      (d.nextRate = c.rates.front ↔ ∀ r ∈ c.rates.rates, c.rates.front < r →
        LosesToLowest m c.rates (getSeconds c.targetDt) (c.getBufferEstimate m) r) :=
  ⟨_, calcNextSegment_eq hsize, chosen_eq_front_iff hlog hsize⟩

theorem nextRate_eq_front_iff_standard :
    ∃ d, calcNextSegment (.real Nat.floor 0) (.standardAt (seconds 2)) = .ok d ∧
      (d.nextRate = Ladder.standard.front ↔
        ∀ r ∈ Ladder.standard.rates, Ladder.standard.front < r →
          LosesToLowest (.real Nat.floor 0) Ladder.standard (getSeconds (seconds 35))
            ((DashClient.standardAt (seconds 2)).getBufferEstimate (.real Nat.floor 0)) r) :=
  nextRate_eq_front_iff (c := .standardAt (seconds 2)) Real.strictMonoOn_log (by decide)

theorem getBufferEstimate_standardAt (level : Int) :
    (DashClient.standardAt level).getBufferEstimate (.real Nat.floor 0) = getSeconds level := by
  unfold DashClient.getBufferEstimate DashClient.standardAt
  rw [MathFunctions.quot_of_ne _ _ (by norm_num)]
  simp

/-- With the rates and the target of the source, the second rate beats the lowest one at half of
the minimum buffer. -/
theorem not_losesToLowest_standard :
    ¬ LosesToLowest (.real Nat.floor 0) Ladder.standard (getSeconds (seconds 35)) 5 89000 := by
  have hfront : Ladder.standard.front = 45000 := rfl
  have hback : Ladder.standard.back = 4220000 := rfl
  have htime : bufferTime Ladder.standard (getSeconds (seconds 35) : ℝ) = 50 := by
    have hsize : Ladder.standard.size = 20 := rfl
    unfold bufferTime minimumBuffer getSeconds seconds
    rw [hsize]
    norm_num
  have hpow : Real.log 4220000 - Real.log 45000 ≤ 8 * (Real.log 89000 - Real.log 45000) := by
    rw [← Real.log_div (by norm_num) (by norm_num), ← Real.log_div (by norm_num) (by norm_num)]
    calc Real.log (4220000 / 45000) ≤ Real.log ((89000 / 45000) ^ 8) :=
          Real.log_le_log (by norm_num) (by norm_num)
      _ = 8 * Real.log (89000 / 45000) := by rw [Real.log_pow]; norm_num
  have hlow : Real.log 45000 < Real.log 89000 := Real.log_lt_log (by norm_num) (by norm_num)
  unfold LosesToLowest
  rw [hfront, hback, htime, not_lt]
  unfold minimumBuffer MathFunctions.real
  push_cast
  linarith

theorem nextRate_ne_front_standard :
    (0 : ℝ) ≤ (DashClient.standardAt (seconds 5)).getBufferEstimate (.real Nat.floor 0) ∧
      (DashClient.standardAt (seconds 5)).getBufferEstimate (.real Nat.floor 0) ≤
        minimumBuffer ∧
      ∃ d, calcNextSegment (.real Nat.floor 0) (.standardAt (seconds 5)) = .ok d ∧
        d.nextRate ≠ Ladder.standard.front := by
  have hlevel : (DashClient.standardAt (seconds 5)).getBufferEstimate (.real Nat.floor 0) = 5 := by
    rw [getBufferEstimate_standardAt]
    unfold getSeconds seconds
    norm_num
  rw [hlevel]
  refine ⟨by norm_num, by norm_num [minimumBuffer], _, calcNextSegment_eq (by decide), ?_⟩
  intro hfront
  rw [hlevel] at hfront
  have hall := (chosen_eq_front_iff Real.strictMonoOn_log (by decide)).1 hfront
  exact not_losesToLowest_standard (hall 89000 (by decide) (by decide))

end Bola

end NtnIab.Dash
