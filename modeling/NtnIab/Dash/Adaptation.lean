import NtnIab.Dash.Bola
import NtnIab.Dash.RateSwitches
import NtnIab.Dash.Session

/-!
# Adaptation decisions are usable

A decision is usable if its rate is on the ladder and its delay is not negative. Every controller
decides, and its decision is usable, if the current rate is on the ladder and a buffer level has
been logged. Both hold whenever a session calls its controller: the level is logged just before,
and the current rate is the rate of the last decision. So a whole session goes on without a fault
and requests rates of the ladder only.

FDASH divides by the sum of its output memberships. Of the memberships of the buffer level one is
positive, since they add up to one, and so is one of those of the differential; the rule that
combines the two fires.
-/

namespace NtnIab.Dash

open Fallible

variable {K : Type} {m : MathFunctions K} {c : DashClient K} {ladder : Ladder}
  {currRate nextRate : Nat}

/-! ## What the controllers find in the log of the buffer -/

theorem Aaash.exists_lastLevel (hlogged : c.bufferState ≠ []) :
    ∃ level, lastLevel c = .ok level := by
  unfold lastLevel
  rw [List.getLast?_eq_some_getLast hlogged]
  exact ⟨_, rfl⟩

theorem Osmp.exists_lastFragment (hlogged : c.bufferState ≠ []) :
    ∃ t, lastFragment c = .ok t := by
  unfold lastFragment
  rcases hreverse : c.bufferState.reverse with _ | ⟨entry, _ | ⟨before, rest⟩⟩
  · exact absurd (List.reverse_eq_nil_iff.1 hreverse) hlogged
  · exact ⟨0, rfl⟩
  · exact ⟨_, rfl⟩

variable [Field K] [LinearOrder K]

def Decision.Usable (ladder : Ladder) (d : Decision K) : Prop :=
  d.nextRate ∈ ladder.rates ∧ 0 ≤ d.delay

theorem positivePart_nonneg (x : K) : 0 ≤ positivePart x := by
  rw [positivePart_eq_max]
  exact le_max_left 0 x

/-! ## FDASH -/

namespace Fdash

/-- The walk up the ladder stays on the ladder. -/
theorem rateBelow_mem (ladder : Ladder) (result : Nat) :
    rateBelow ladder result ∈ ladder.rates := by
  have hwalk : ∀ (l : List Nat) (start : Nat), start ∈ ladder.rates → (∀ r ∈ l, r ∈ ladder.rates) →
      l.foldl (fun nextRate rate => if rate < result then rate else nextRate) start ∈
        ladder.rates := by
    intro l
    induction l with
    | nil => exact fun start hstart _ => hstart
    | cons r rest ih =>
        intro start hstart hall
        have hrest : ∀ s ∈ rest, s ∈ ladder.rates := fun s hs => hall s (List.mem_cons_of_mem r hs)
        rw [List.foldl_cons]
        split_ifs
        · exact ih r (hall r List.mem_cons_self) hrest
        · exact ih start hstart hrest
  exact hwalk ladder.rates ladder.front ladder.front_mem fun r hr => hr

theorem usable (limit : K) (hcurr : currRate ∈ c.rates.rates) :
    (calcNextSegment m c limit currRate).Usable c.rates := by
  have hbelow := rateBelow_mem c.rates
  unfold calcNextSegment Decision.Usable
  dsimp only
  constructor
  · split_ifs <;> first | exact hcurr | exact hbelow _
  · split_ifs <;> first | exact positivePart_nonneg _ | exact le_refl 0

end Fdash

/-! ## SVAA -/

namespace Svaa

theorem exists_descend (ladder : Ladder) (tk : K) {i : Nat} (hi : i < ladder.size) :
    ∃ r, descend ladder tk i = .ok r ∧ r ∈ ladder.rates := by
  induction i with
  | zero => exact ⟨_, ladder.rate_zero, ladder.front_mem⟩
  | succ i ih =>
      obtain ⟨r, hr⟩ := Ladder.exists_rate_of_lt hi
      unfold descend
      rw [hr, ok_bind]
      split_ifs
      · exact ih (by omega)
      · exact ⟨r, rfl, Ladder.rate_mem hr⟩

theorem usable (members : SvaaMembers) (hcurr : currRate ∈ c.rates.rates) :
    ∃ d after, calcNextSegment m c members currRate = .ok (d, after) ∧ d.Usable c.rates := by
  obtain ⟨r, hr, hmem⟩ := exists_descend c.rates c.bitrateEstimate
    (Nat.sub_lt c.rates.size_pos Nat.one_pos)
  unfold calcNextSegment
  dsimp only
  split_ifs
  · rw [hr]
    exact ⟨_, _, rfl, hmem, le_refl 0⟩
  · rw [hr]
    exact ⟨_, _, rfl, hmem, le_refl 0⟩
  · exact ⟨_, _, rfl, hcurr, le_refl 0⟩
  · exact ⟨_, _, rfl, hcurr, le_refl 0⟩
  · exact ⟨_, _, rfl, hcurr, le_refl 0⟩

end Svaa

/-! ## RAAHS and SFTM -/

theorem Raahs.usable (hcurr : currRate ∈ c.rates.rates) (hnext : nextRate ∈ c.rates.rates) :
    ∃ d, calcNextSegment m c currRate nextRate = .ok d ∧ d.Usable c.rates := by
  obtain ⟨k, hk⟩ := Ladder.exists_rate hcurr
  obtain ⟨next, hswitch, hcases⟩ :=
    switch_outcome m currRate nextRate (Ladder.lt_size_of_rate hk)
  refine ⟨_, calcNextSegment_eq hk hswitch, ?_, positivePart_nonneg _⟩
  rcases hcases with ⟨-, habove⟩ | ⟨-, -, rfl⟩ | ⟨-, -, rfl⟩
  · exact Ladder.rate_mem habove
  · exact c.rates.front_mem
  · exact hnext

/-! ## AAASH -/

namespace Aaash

/-- A neighbour on the ladder, where there is one. -/
theorem exists_neighbour {inside : Prop} [Decidable inside] {i r : Nat}
    (hi : inside → i < ladder.size) (hr : r ∈ ladder.rates) :
    ∃ s, (if inside then ladder.rate i else pure r) = .ok s ∧ s ∈ ladder.rates := by
  split_ifs with hinside
  · obtain ⟨s, hs⟩ := Ladder.exists_rate_of_lt (hi hinside)
    exact ⟨s, hs, Ladder.rate_mem hs⟩
  · exact ⟨r, rfl, hr⟩

end Aaash

/-! ## BOLA -/

theorem Bola.usable : ∃ d, calcNextSegment m c = .ok d ∧ d.Usable c.rates := by
  rcases Nat.lt_or_ge c.rates.size 2 with hsmall | hsize
  · unfold calcNextSegment
    rw [if_pos hsmall]
    exact ⟨_, rfl, c.rates.front_mem, le_refl 0⟩
  · exact ⟨_, calcNextSegment_eq hsize, Ladder.rate_mem rate_quality, positivePart_nonneg _⟩

variable [IsStrictOrderedRing K]

/-! ## Decisions that compare steps and levels -/

theorem getSeconds_nonneg {t : Int} (ht : 0 ≤ t) : (0 : K) ≤ getSeconds t :=
  div_nonneg (Int.cast_nonneg ht) (by norm_num)

theorem Aaash.usable (running : Bool) (hcurr : currRate ∈ c.rates.rates)
    (hlogged : c.bufferState ≠ []) :
    ∃ d after, calcNextSegment c running currRate = .ok (d, after) ∧ d.Usable c.rates := by
  obtain ⟨k, hk⟩ := Ladder.exists_rate hcurr
  have hlt := Ladder.lt_size_of_rate hk
  obtain ⟨bt, hbt⟩ := exists_lastLevel hlogged
  obtain ⟨rUp, hup, hupMem⟩ := exists_neighbour
    (fun h : k + 1 < c.rates.size => h) hcurr
  obtain ⟨rDown, hdown, hdownMem⟩ := exists_neighbour
    (fun _ : 1 ≤ k => show k - 1 < c.rates.size by omega) hcurr
  have hfull : (0 : K) ≤ getSeconds (seconds 50 - milliSeconds segmentMilliSeconds) :=
    getSeconds_nonneg (by decide)
  have hwait : (0 : K) ≤
      getSeconds (max (bt - milliSeconds segmentMilliSeconds) (seconds 35)) :=
    getSeconds_nonneg ((by decide : (0 : Int) ≤ seconds 35).trans (le_max_right _ _))
  unfold calcNextSegment
  dsimp only
  rw [hbt, ok_bind, Ladder.rateInd_eq_ok.2 hk, ok_bind, hk, ok_bind, hup, ok_bind, hdown, ok_bind]
  -- Every branch takes the current rate, a neighbour of it or the lowest rate.
  split
  · refine ⟨_, _, rfl, ?_⟩
    unfold Decision.Usable
    constructor
    · split_ifs <;> assumption
    · split_ifs <;> first | exact hfull | exact le_refl 0
  · rw [c.rates.rate_zero, ok_bind]
    refine ⟨_, _, rfl, ?_⟩
    have hfront := c.rates.front_mem
    unfold Decision.Usable
    constructor
    · split_ifs <;> assumption
    · split_ifs <;> first | exact hwait | exact le_refl 0

theorem Sftm.usable (exceeded : Bool) (hcurr : currRate ∈ c.rates.rates)
    (hnext : nextRate ∈ c.rates.rates) :
    ∃ d after, calcNextSegment m c exceeded currRate nextRate = .ok (d, after) ∧
      d.Usable c.rates := by
  obtain ⟨k, hk⟩ := Ladder.exists_rate hcurr
  obtain ⟨eu, heu, -⟩ := exists_upStep (K := K) hk
  obtain ⟨ed, hed, -⟩ := exists_downStep (K := K) hk
  obtain ⟨next, hswitch, hcases⟩ :=
    switch_outcome (sftm m c exceeded) eu ed nextRate hk
  refine ⟨_, _, calcNextSegment_eq hk heu hed hswitch, ?_, positivePart_nonneg _⟩
  rcases hcases with ⟨-, habove⟩ | ⟨-, -, -, -, hmem⟩ | ⟨-, -, rfl⟩
  · exact Ladder.rate_mem habove
  · exact hmem
  · exact hnext

/-! ## OSMP -/

theorem Osmp.usable (hcurr : currRate ∈ c.rates.rates) (hlogged : c.bufferState ≠ []) :
    ∃ d, calcNextSegment c currRate = .ok d ∧ d.Usable c.rates := by
  obtain ⟨k, hk⟩ := Ladder.exists_rate hcurr
  obtain ⟨t, ht⟩ := exists_lastFragment hlogged
  obtain ⟨n, hn, hsize, -⟩ := nextLevel_outcome (rDownload t : K) hk
  obtain ⟨next, hnext⟩ := Ladder.exists_rate_of_lt hsize
  exact ⟨_, calcNextSegment_eq ht hk hn hnext, Ladder.rate_mem hnext, le_refl 0⟩

/-! ## Every controller -/

/-- **Every decision is usable.** -/
theorem Controller.usable (controller : Controller K) (hcurr : currRate ∈ c.rates.rates)
    (hlogged : c.bufferState ≠ []) :
    ∃ d after, controller.calcNextSegment m c currRate currRate = .ok (d, after) ∧
      d.Usable c.rates := by
  cases controller with
  | fdash limit => exact ⟨_, _, rfl, Fdash.usable limit hcurr⟩
  | svaa members =>
      obtain ⟨d, after, heq, husable⟩ := Svaa.usable (m := m) members hcurr
      exact ⟨d, .svaa after, map_eq_ok.2 ⟨_, heq, rfl⟩, husable⟩
  | raahs =>
      obtain ⟨d, heq, husable⟩ := Raahs.usable (m := m) hcurr hcurr
      exact ⟨d, .raahs, map_eq_ok.2 ⟨d, heq, rfl⟩, husable⟩
  | aaash running =>
      obtain ⟨d, after, heq, husable⟩ := Aaash.usable (K := K) running hcurr hlogged
      exact ⟨d, .aaash after, map_eq_ok.2 ⟨_, heq, rfl⟩, husable⟩
  | sftm exceeded =>
      obtain ⟨d, after, heq, husable⟩ := Sftm.usable (m := m) exceeded hcurr hcurr
      exact ⟨d, .sftm after, map_eq_ok.2 ⟨_, heq, rfl⟩, husable⟩
  | osmp =>
      obtain ⟨d, heq, husable⟩ := Osmp.usable (K := K) hcurr hlogged
      exact ⟨d, .osmp, map_eq_ok.2 ⟨d, heq, rfl⟩, husable⟩
  | bola =>
      obtain ⟨d, heq, husable⟩ := Bola.usable (m := m) (c := c)
      exact ⟨d, .bola, map_eq_ok.2 ⟨d, heq, rfl⟩, husable⟩

/-! ## The divisor of FDASH -/

namespace Fdash

/-- Three memberships of which none is negative and that add up to one. -/
def IsShare (x : K × K × K) : Prop :=
  0 ≤ x.1 ∧ 0 ≤ x.2.1 ∧ 0 ≤ x.2.2 ∧ x.1 + x.2.1 + x.2.2 = 1

theorem IsShare.exists_pos {x : K × K × K} (hx : IsShare x) :
    0 < x.1 ∨ 0 < x.2.1 ∨ 0 < x.2.2 := by
  obtain ⟨-, -, -, hsum⟩ := hx
  by_contra hnone
  simp only [not_or, not_lt] at hnone
  linarith [hnone.1, hnone.2.1, hnone.2.2]

/-- A ramp over a width goes from zero to one. -/
theorem ramp_mem {w x : K} (hw : 0 < w) (hx : 0 ≤ x) (hxw : x ≤ w) :
    0 ≤ 1 / w * x ∧ 1 / w * x ≤ 1 := by
  rw [one_div_mul_eq_div]
  exact ⟨div_nonneg hx hw.le, (div_le_one hw).2 hxw⟩

theorem isShare_bufferMemberships {t : K} (ht : 0 < t) (currDt : K) :
    IsShare (bufferMemberships t currDt) := by
  unfold bufferMemberships IsShare
  split_ifs with hslow hok hfast
  · simp
  · obtain ⟨hlow, hhigh⟩ := ramp_mem (w := t / 3) (x := currDt - 2 * t / 3) (by linarith)
      (by linarith) (by linarith)
    exact ⟨by linarith, hlow, le_refl 0, by linarith⟩
  · obtain ⟨hlow, hhigh⟩ := ramp_mem (w := 3 * t) (x := currDt - t) (by linarith)
      (by linarith) (by linarith)
    exact ⟨le_refl 0, by linarith, hlow, by linarith⟩
  · simp

theorem isShare_differentialMemberships {t : K} (ht : 0 < t) (diff : K) :
    IsShare (differentialMemberships t diff) := by
  unfold differentialMemberships IsShare
  split_ifs with hfalling hsteady hrising
  · simp
  · obtain ⟨hlow, hhigh⟩ := ramp_mem (w := 2 * t / 3) (x := diff + 2 * t / 3) (by linarith)
      (by linarith) (by linarith)
    exact ⟨by linarith, hlow, le_refl 0, by linarith⟩
  · obtain ⟨hlow, hhigh⟩ := ramp_mem (w := 4 * t) (x := diff) (by linarith)
      (by linarith) (by linarith)
    exact ⟨le_refl 0, by linarith, hlow, by linarith⟩
  · simp

/-- The output memberships are not all zero if one of the rules fires. -/
theorem roots_pos (hnonneg : ∀ x, 0 ≤ m.sqrt x) (hpos : ∀ x, 0 < x → 0 < m.sqrt x)
    {r1 r2 r3 r4 r5 r6 r7 r8 r9 : K}
    (hfires : 0 < r1 ^ 2 + r2 ^ 2 + r3 ^ 2 + r4 ^ 2 + r5 ^ 2 + r6 ^ 2 + r7 ^ 2 + r8 ^ 2 + r9 ^ 2) :
    0 < m.sqrt (r1 ^ 2) + m.sqrt (r2 ^ 2 + r4 ^ 2) + m.sqrt (r3 ^ 2 + r5 ^ 2 + r7 ^ 2) +
      m.sqrt (r6 ^ 2 + r8 ^ 2) + m.sqrt (r9 ^ 2) := by
  have hzero : ∀ x, m.sqrt x ≤ 0 → x ≤ 0 := fun x hroot =>
    not_lt.1 fun hx => absurd (hpos x hx) (not_lt.2 hroot)
  have h1 := hnonneg (r1 ^ 2)
  have h2 := hnonneg (r2 ^ 2 + r4 ^ 2)
  have h3 := hnonneg (r3 ^ 2 + r5 ^ 2 + r7 ^ 2)
  have h4 := hnonneg (r6 ^ 2 + r8 ^ 2)
  have h5 := hnonneg (r9 ^ 2)
  by_contra hsum
  rw [not_lt] at hsum
  have hn2 := hzero _ (show m.sqrt (r1 ^ 2) ≤ 0 by linarith)
  have hn1 := hzero _ (show m.sqrt (r2 ^ 2 + r4 ^ 2) ≤ 0 by linarith)
  have hz := hzero _ (show m.sqrt (r3 ^ 2 + r5 ^ 2 + r7 ^ 2) ≤ 0 by linarith)
  have hp1 := hzero _ (show m.sqrt (r6 ^ 2 + r8 ^ 2) ≤ 0 by linarith)
  have hp2 := hzero _ (show m.sqrt (r9 ^ 2) ≤ 0 by linarith)
  linarith

/-- The rule for a positive membership of the level and one of the differential fires. -/
theorem membershipSum_outputs_pos (hnonneg : ∀ x, 0 ≤ m.sqrt x)
    (hpos : ∀ x, 0 < x → 0 < m.sqrt x) {buffer differential : K × K × K} (hbuffer : IsShare buffer)
    (hdifferential : IsShare differential) :
    0 < membershipSum (outputs m buffer differential) := by
  have hslow := hbuffer.exists_pos
  have hfalling := hdifferential.exists_pos
  obtain ⟨slow, ok, fast⟩ := buffer
  obtain ⟨falling, steady, rising⟩ := differential
  apply roots_pos hnonneg hpos
  have hsquares := fun x y : K => sq_nonneg (min x y)
  have hsquare : ∀ x y : K, 0 < x → 0 < y → 0 < min x y ^ 2 := fun x y hx hy =>
    pow_pos (lt_min hx hy) 2
  rcases hslow with hb | hb | hb <;> rcases hfalling with hd | hd | hd <;>
    linarith [hsquare _ _ hb hd, hsquares slow falling, hsquares ok falling,
      hsquares fast falling, hsquares slow steady, hsquares ok steady, hsquares fast steady,
      hsquares slow rising, hsquares ok rising, hsquares fast rising]

theorem membershipSum_pos (hnonneg : ∀ x, 0 ≤ m.sqrt x) (hpos : ∀ x, 0 < x → 0 < m.sqrt x)
    (ht : 0 < c.targetDt) : 0 < membershipSum (outputsOf m c) := by
  have htarget : (0 : K) < getSeconds c.targetDt :=
    div_pos (Int.cast_pos.2 ht) (by norm_num)
  exact membershipSum_outputs_pos hnonneg hpos (isShare_bufferMemberships htarget _)
    (isShare_differentialMemberships htarget _)

end Fdash

/-! ## The session -/

namespace Session

theorem segmentReceived_onLadder {s : Session K} (h : OnLadder ladder s.client) (now : Nat)
    (realPlayTime : Int) :
    ∃ s', s.segmentReceived m now realPlayTime = .ok s' ∧ OnLadder ladder s'.client := by
  have hidle : OnLadder ladder
      { s.client with requestPending := false, pendingRetryUsed := false } :=
    ⟨h.rates, h.current, fun hfalse => (Bool.false_ne_true hfalse).elim, h.requested⟩
  have hmeasured := onLadder_measure (m := m) hidle now (s.client.sanitize realPlayTime)
  obtain ⟨d, after, hdecides, hrate, -⟩ := s.controller.usable (m := m)
    (hmeasured.rates ▸ hmeasured.current)
    (logged_measure m _ now (s.client.sanitize realPlayTime))
  have hdecided := OnLadder.mk (c := { DashClient.measure m
      { s.client with requestPending := false, pendingRetryUsed := false } now
      (s.client.sanitize realPlayTime) with bitRate := d.nextRate })
    hmeasured.rates (hmeasured.rates ▸ hrate) hmeasured.pending hmeasured.requested
  unfold segmentReceived
  dsimp only
  rw [hdecides, ok_bind]
  refine ⟨_, rfl, ?_⟩
  split_ifs
  · have hrequested := hdecided.requestSegment now
    exact ⟨hrequested.rates, hrequested.current, hrequested.pending, hrequested.requested⟩
  · exact ⟨hdecided.rates, hdecided.current, hdecided.pending, hdecided.requested⟩

/-- Every event goes on without a fault and keeps the rates on the ladder. -/
theorem step_onLadder {s : Session K} (h : OnLadder ladder s.client) (event : SessionEvent) :
    ∃ s', s.step m event = .ok s' ∧ OnLadder ladder s'.client := by
  cases event with
  | connectionSucceeded now =>
      have hconnected : OnLadder ladder { s.client with connected := true } :=
        ⟨h.rates, h.current, h.pending, h.requested⟩
      exact ⟨_, rfl, hconnected.requestSegment now⟩
  | connectionReset =>
      exact ⟨_, rfl, h.rates, h.current, fun hfalse => (Bool.false_ne_true hfalse).elim,
        h.requested⟩
  | stopApplication => exact ⟨_, rfl, h.rates, h.current, h.pending, h.requested⟩
  | requestSegment now => exact ⟨_, rfl, h.requestSegment now⟩
  | segmentRequestWatchdog => exact ⟨_, rfl, h.segmentRequestWatchdog⟩
  | messageReceived now size last realPlayTime framesPlayed =>
      have hframe : OnLadder ladder { s.client with
          segmentBytes := (s.client.segmentBytes + size) % 2 ^ 32
          framesPlayed } := ⟨h.rates, h.current, h.pending, h.requested⟩
      unfold step
      dsimp only
      split_ifs
      · exact segmentReceived_onLadder hframe now realPlayTime
      · exact ⟨_, rfl, hframe⟩
  | forecastDisruption estimatedTime estimatedDuration frames =>
      unfold step
      dsimp only
      split <;> exact ⟨_, rfl, h⟩
  | calcedDisruption =>
      unfold step
      dsimp only
      split <;> exact ⟨_, rfl, h⟩

theorem run_onLadder {s : Session K} (h : OnLadder ladder s.client) (events : List SessionEvent) :
    ∃ s', s.run m events = .ok s' ∧ OnLadder ladder s'.client := by
  induction events generalizing s with
  | nil => exact ⟨s, rfl, h⟩
  | cons event rest ih =>
      obtain ⟨next, hnext, honLadder⟩ := step_onLadder (m := m) h event
      obtain ⟨s', hs', hend⟩ := ih honLadder
      refine ⟨s', ?_, hend⟩
      unfold run
      rw [List.foldlM_cons, hnext, ok_bind]
      exact hs'

end Session

/-- **Every adaptation decision is usable, and a session requests rates of the ladder only.** -/
theorem adaptation_usable (toUint32 : ℝ → Nat) (byZero : ℝ → ℝ) :
    (∀ (c : DashClient ℝ) (controller : Controller ℝ) (currRate : Nat), 0 < c.targetDt →
      c.bufferState ≠ [] → currRate ∈ c.rates.rates →
      (∃ d after, controller.calcNextSegment (.real toUint32 byZero) c currRate currRate =
          .ok (d, after) ∧ d.nextRate ∈ c.rates.rates ∧ 0 ≤ d.delay) ∧
        0 < Fdash.membershipSum (Fdash.outputsOf (.real toUint32 byZero) c)) ∧
    (∀ (s : Session ℝ) (events : List SessionEvent),
      s.client.bitRate ∈ s.client.rates.rates → s.client.requestPending = false →
      s.client.requests = [] →
      ∃ s', s.run (.real toUint32 byZero) events = .ok s' ∧ s'.client.rates = s.client.rates ∧
        ∀ request ∈ s'.client.requests, request.2 ∈ s.client.rates.rates) := by
  constructor
  · intro c controller currRate ht hlogged hcurr
    exact ⟨controller.usable hcurr hlogged,
      Fdash.membershipSum_pos Real.sqrt_nonneg (fun _ hx => Real.sqrt_pos.2 hx) ht⟩
  · intro s events hcurr hidle hnone
    have hstart : OnLadder s.client.rates s.client := by
      refine ⟨rfl, hcurr, fun hpending => ?_, fun request hmem => ?_⟩
      · rw [hidle] at hpending
        exact (Bool.false_ne_true hpending).elim
      · rw [hnone] at hmem
        exact absurd hmem List.not_mem_nil
    obtain ⟨s', hs', hend⟩ := Session.run_onLadder hstart events
    exact ⟨s', hs', hend.rates, hend.requested⟩

theorem adaptation_usable_standard :
    ((∃ d after, Controller.calcNextSegment (.real Nat.floor 0) (.standardAt (seconds 10))
          45000 45000 (.svaa {}) = .ok (d, after) ∧
        d.nextRate ∈ Ladder.standard.rates ∧ 0 ≤ d.delay) ∧
      0 < Fdash.membershipSum (Fdash.outputsOf (.real Nat.floor 0) (.standardAt (seconds 10)))) ∧
    ∃ s', Session.run (.real Nat.floor 0)
        { client := .new Ladder.standard (seconds 35), controller := .bola }
        [.connectionSucceeded 0, .messageReceived 2000000000 40000 true (seconds 3) 0] =
          .ok s' ∧
      s'.client.rates = Ladder.standard ∧
      ∀ request ∈ s'.client.requests, request.2 ∈ Ladder.standard.rates :=
  ⟨(adaptation_usable Nat.floor 0).1 (.standardAt (seconds 10)) (.svaa {}) 45000 (by decide)
      (List.cons_ne_nil _ _) (by decide),
    (adaptation_usable Nat.floor 0).2
      { client := .new Ladder.standard (seconds 35), controller := .bola } _ (by decide) rfl rfl⟩

end NtnIab.Dash
