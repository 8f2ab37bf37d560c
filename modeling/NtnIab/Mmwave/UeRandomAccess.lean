import NtnIab.Library.Run
import NtnIab.Mmwave.RandomAccess

/-!
# The random access of a UE

What a UE tells its RRC and what it sends, in a run of starts, responses, timers and resets. A UE
that changes between radio technologies sends the first preamble of a procedure without contention
after a delay, and nothing cancels this preamble: it may find its procedure over, or the MAC reset.

## Strategy

* The run keeps what was noticed outside, the latest first. The notices since the last start or
  reset are `current`, and `begun` says which of the two it was.
* `TimerTracks` ties the flag and the counter of the MAC to the current notices. While a procedure is
  going on the counter is the number of its preambles; when it is over the MAC waits for nothing,
  so that responses and timers are ignored.
* A delayed preamble is the only thing that may come at the wrong time.
-/

namespace NtnIab.Mmwave

/-! ## Runs -/

/-- What is noticed of a UE: what it is told by the RRC, what it sends, and what it notifies. -/
inductive RachNotice
  | started
  | reset
  | preamble
  | successful
  | failed
  deriving Repr, DecidableEq

/-- `DoReset`, as far as it is about random access. The delayed preambles stay. -/
def UeMac.doReset (u : UeMac) : UeMac :=
  { u with
    rnti := 0
    noRaResponseEvent := none
    waitingForRaResponse := false
    raPreambleTransmissions := 0 }

/-- A UE, with the counter that all UEs share, and the notices with the latest first. -/
structure RachRun where
  mac : UeMac := {}
  now : Nat := 0
  g_raPreambleId : Nat := 0
  notices : List RachNotice := []
  deriving Repr, DecidableEq

inductive RachEvent
  | advance (dt : Nat)
  /-- Another UE takes a preamble of the shared counter. -/
  | otherPreamble
  | startContention
  | startNonContention (rnti preambleId : Nat)
  /-- The delay of a preamble is over. -/
  | sendScheduled
  | timeout
  | receiveRar (rars : List Rar)
  | reset

namespace RachRun

def sendRaPreamble (r : RachRun) (contention : Bool) : RachRun :=
  let result := r.mac.sendRaPreamble contention r.now r.g_raPreambleId
  { r with
    mac := result.2
    g_raPreambleId := result.1
    notices := .preamble :: r.notices }

/-- `DoStartContentionBasedRandomAccessProcedure` -/
def startContention (r : RachRun) : RachRun :=
  sendRaPreamble
    { r with
      mac := { r.mac with raPreambleTransmissions := 0 }
      notices := .started :: r.notices } true

/-- `DoStartNonContentionBasedRandomAccessProcedure` -/
def startNonContention (r : RachRun) (rnti preambleId : Nat) : RachRun :=
  let mac := r.mac.startNonContention rnti preambleId
  let r := { r with notices := .started :: r.notices }
  if mac.interRatHoCapable then { r with mac := { mac with scheduled := mac.scheduled + 1 } }
  else sendRaPreamble { r with mac } false

def sendScheduled (r : RachRun) : RachRun :=
  if r.mac.scheduled = 0 then r
  else sendRaPreamble { r with mac := { r.mac with scheduled := r.mac.scheduled - 1 } } false

/-- `RaResponseTimeout`, when the time of the timer has come. -/
def timeout (r : RachRun) : RachRun :=
  if r.mac.noRaResponseEvent.all (r.now < ·) then r
  else
    let mac := { r.mac with noRaResponseEvent := none }
    if ¬mac.waitingForRaResponse then { r with mac }
    else if mac.raPreambleTransmissions < MAX_RA_PREAMBLE_TX then
      sendRaPreamble { r with mac } mac.raContention
    else
      { r with
        mac := { mac with waitingForRaResponse := false }
        notices := .failed :: r.notices }

/-- The entries of a message for the preamble of the UE. -/
def matching (r : RachRun) (rars : List Rar) : List Rar :=
  rars.filter fun rar => rar.rapId = r.mac.raPreambleId

/-- `DoReceiveControlMessage` on a response message: each entry for the preamble is a success. -/
def receiveRar (r : RachRun) (rars : List Rar) : RachRun :=
  if r.mac.waitingForRaResponse then
    { r with
      mac := r.mac.recvRaResponses rars
      notices := List.replicate (r.matching rars).length .successful ++ r.notices }
  else r

def reset (r : RachRun) : RachRun :=
  { r with mac := r.mac.doReset, notices := .reset :: r.notices }

def step (r : RachRun) : RachEvent → RachRun
  | .advance dt => { r with now := r.now + dt }
  | .otherPreamble => { r with g_raPreambleId := (r.g_raPreambleId + 1) % 2 ^ 8 }
  | .startContention => r.startContention
  | .startNonContention rnti preambleId => r.startNonContention rnti preambleId
  | .sendScheduled => r.sendScheduled
  | .timeout => r.timeout
  | .receiveRar rars => r.receiveRar rars
  | .reset => r.reset

end RachRun

/-! ## Orderly notices -/

namespace RachNotice

/-- Part of a procedure: no start and no reset. -/
def within (n : RachNotice) : Bool := n ≠ .started && n ≠ .reset

def notifies (n : RachNotice) : Bool := n = .successful || n = .failed

end RachNotice

open RachNotice

/-- Between a start and the next start or reset, the RRC is notified at most once, and not too many
preambles are sent. After a reset there is nothing before the next start. -/
structure Orderly (notices : List RachNotice) : Prop where
  once : ∀ after during before, notices = after ++ during ++ .started :: before →
    (∀ n ∈ during, n.within) → during.countP notifies ≤ 1
  bounded : ∀ after during before, notices = after ++ during ++ .started :: before →
    (∀ n ∈ during, n.within) → during.count .preamble ≤ MAX_RA_PREAMBLE_TX
  quiet : ∀ after during before, notices = after ++ during ++ .reset :: before →
    .started ∉ during → ∀ n ∈ during, n = .reset

/-- The notices since the last start or reset. -/
def current (notices : List RachNotice) : List RachNotice := notices.takeWhile (·.within)

/-- The last start or reset. -/
def begun (notices : List RachNotice) : Option RachNotice :=
  (notices.dropWhile (·.within)).head?

/-- A procedure was started, and is not over. -/
def Going (notices : List RachNotice) : Prop :=
  begun notices = some .started ∧ (current notices).countP notifies = 0

instance (notices : List RachNotice) : Decidable (Going notices) :=
  inferInstanceAs (Decidable (_ ∧ _))

section
variable {n : RachNotice} {notices : List RachNotice}

theorem current_cons_within (h : n.within) : current (n :: notices) = n :: current notices := by
  unfold current
  rw [List.takeWhile_cons_of_pos h]

theorem begun_cons_within (h : n.within) : begun (n :: notices) = begun notices := by
  unfold begun
  rw [List.dropWhile_cons_of_pos h]

@[simp] theorem current_started : current (.started :: notices) = [] := rfl

@[simp] theorem begun_started : begun (.started :: notices) = some .started := rfl

@[simp] theorem current_reset : current (.reset :: notices) = [] := rfl

@[simp] theorem begun_reset : begun (.reset :: notices) = some .reset := rfl

@[simp] theorem current_preamble :
    current (.preamble :: notices) = .preamble :: current notices := current_cons_within rfl

@[simp] theorem begun_preamble : begun (.preamble :: notices) = begun notices :=
  begun_cons_within rfl

theorem current_append {during before : List RachNotice} (hduring : ∀ m ∈ during, m.within)
    (hn : n.within = false) : current (during ++ n :: before) = during := by
  induction during with
  | nil =>
      unfold current
      exact List.takeWhile_cons_of_neg (by simp [hn])
  | cons m during ih =>
      rw [List.forall_mem_cons] at hduring
      rw [List.cons_append, current_cons_within hduring.1, ih hduring.2]

theorem begun_append {during before : List RachNotice} (hduring : ∀ m ∈ during, m.within)
    (hn : n.within = false) : begun (during ++ n :: before) = some n := by
  induction during with
  | nil =>
      unfold begun
      rw [List.nil_append, List.dropWhile_cons_of_neg (by simp [hn])]
      rfl
  | cons m during ih =>
      rw [List.forall_mem_cons] at hduring
      rw [List.cons_append, begun_cons_within hduring.1, ih hduring.2]

/-- What may be noticed next. -/
def Allowed (n : RachNotice) (notices : List RachNotice) : Prop :=
  n.within → begun notices ≠ some .reset ∧
    (begun notices = some .started →
      (n :: current notices).countP notifies ≤ 1 ∧
      (n :: current notices).count .preamble ≤ MAX_RA_PREAMBLE_TX)

theorem orderly_nil : Orderly [] where
  once := by simp
  bounded := by simp
  quiet := by simp

/-- The last procedure is a start with what followed it. -/
theorem Allowed.procedure {after during before : List RachNotice}
    (hlast : n :: notices = after ++ during ++ .started :: before)
    (hduring : ∀ m ∈ during, m.within) (hallowed : Allowed n notices) :
    (∃ earlier, notices = earlier ++ during ++ .started :: before) ∨ during = [] ∨
      (during.countP notifies ≤ 1 ∧ during.count .preamble ≤ MAX_RA_PREAMBLE_TX) := by
  cases after with
  | cons m earlier => exact Or.inl ⟨earlier, (List.cons.inj hlast).2⟩
  | nil =>
      cases during with
      | nil => exact Or.inr (Or.inl rfl)
      | cons m during =>
          obtain ⟨rfl, rfl⟩ := List.cons.inj hlast
          rw [List.forall_mem_cons] at hduring
          have hbounds := (hallowed hduring.1).2 (begun_append hduring.2 rfl)
          rw [show current (List.append during (.started :: before)) = during from
            current_append hduring.2 rfl] at hbounds
          exact Or.inr (Or.inr hbounds)

theorem Orderly.cons (h : Orderly notices) (hallowed : Allowed n notices) :
    Orderly (n :: notices) where
  once := by
    intro after during before hlast hduring
    rcases hallowed.procedure hlast hduring with ⟨earlier, hbefore⟩ | rfl | hbounds
    · exact h.once _ _ _ hbefore hduring
    · exact Nat.zero_le _
    · exact hbounds.1
  bounded := by
    intro after during before hlast hduring
    rcases hallowed.procedure hlast hduring with ⟨earlier, hbefore⟩ | rfl | hbounds
    · exact h.bounded _ _ _ hbefore hduring
    · exact Nat.zero_le _
    · exact hbounds.2
  quiet := by
    intro after during before hlast hnone
    cases after with
    | cons m after => exact h.quiet after during before (List.cons.inj hlast).2 hnone
    | nil =>
        cases during with
        | nil => exact fun m hm => (List.not_mem_nil hm).elim
        | cons m during =>
            obtain ⟨rfl, rfl⟩ := List.cons.inj hlast
            have hresets := h.quiet [] during before rfl fun hmem =>
              hnone (List.mem_cons_of_mem _ hmem)
            -- so the last start or reset is a reset
            have hbegun : begun (List.append during (.reset :: before)) = some .reset := by
              cases during with
              | nil => rfl
              | cons first rest =>
                  rw [hresets first List.mem_cons_self]
                  rfl
            refine List.forall_mem_cons.2 ⟨?_, hresets⟩
            cases n with
            | started => exact absurd List.mem_cons_self hnone
            | reset => rfl
            | preamble => exact absurd hbegun (hallowed rfl).1
            | successful => exact absurd hbegun (hallowed rfl).1
            | failed => exact absurd hbegun (hallowed rfl).1

end

/-! ## The invariant -/

/-- The MAC knows what the current notices say. -/
structure TimerTracks (u : UeMac) (notices : List RachNotice) : Prop where
  orderly : Orderly notices
  afterReset : begun notices = some .reset → u.waitingForRaResponse = false
  going : Going notices →
    (current notices).count .preamble = u.raPreambleTransmissions ∧
      u.raPreambleTransmissions ≤ MAX_RA_PREAMBLE_TX
  finished : begun notices = some .started → (current notices).countP notifies ≠ 0 →
    u.waitingForRaResponse = false

namespace TimerTracks

variable {u u' : UeMac} {notices : List RachNotice}

/-- A MAC that waits is in a procedure that is going on, or nothing was ever started. -/
theorem waiting (h : TimerTracks u notices) (hwaiting : u.waitingForRaResponse = true) :
    begun notices ≠ some .reset ∧
      (begun notices = some .started → (current notices).countP notifies = 0) := by
  refine ⟨fun hreset => ?_, fun hstarted => ?_⟩
  · rw [h.afterReset hreset] at hwaiting
    cases hwaiting
  · by_contra hover
    rw [h.finished hstarted hover] at hwaiting
    cases hwaiting

theorem congr (h : TimerTracks u notices)
    (hwaiting : u.waitingForRaResponse = false → u'.waitingForRaResponse = false)
    (hcounter : u'.raPreambleTransmissions = u.raPreambleTransmissions) : TimerTracks u' notices where
  orderly := h.orderly
  afterReset := fun hreset => hwaiting (h.afterReset hreset)
  going := by
    rw [hcounter]
    exact h.going
  finished := fun hstarted hover => hwaiting (h.finished hstarted hover)

theorem start (h : TimerTracks u notices) (hcounter : u'.raPreambleTransmissions = 0) :
    TimerTracks u' (.started :: notices) where
  orderly := h.orderly.cons fun hwithin => absurd hwithin (by decide)
  afterReset := by simp
  going := by simp [hcounter]
  finished := by simp

theorem reset (h : TimerTracks u notices) : TimerTracks u.doReset (.reset :: notices) where
  orderly := h.orderly.cons fun hwithin => absurd hwithin (by decide)
  afterReset := fun _ => rfl
  going := fun hgoing => absurd hgoing.1 (by simp)
  finished := by simp

/-- The RRC is notified by a MAC that waited, and waits no more. -/
theorem notify (h : TimerTracks u notices) {n : RachNotice} (hn : n = .successful ∨ n = .failed)
    (hwaiting : u.waitingForRaResponse = true) (hdone : u'.waitingForRaResponse = false) :
    TimerTracks u' (n :: notices) := by
  obtain ⟨hreset, hgoing⟩ := h.waiting hwaiting
  have hwithin : n.within := by rcases hn with rfl | rfl <;> rfl
  have hnotifies : n.notifies := by rcases hn with rfl | rfl <;> rfl
  have hpreamble : n ≠ .preamble := by rcases hn with rfl | rfl <;> decide
  refine ⟨h.orderly.cons fun _ => ⟨hreset, fun hstarted => ⟨?_, ?_⟩⟩, fun _ => hdone, ?_,
    fun _ _ => hdone⟩
  · have hone : (n :: current notices).countP notifies = 0 + 1 := by
      rw [List.countP_cons_of_pos hnotifies, hgoing hstarted]
    exact Nat.le_of_eq hone
  · rw [List.count_cons_of_ne hpreamble]
    have hcounter := h.going ⟨hstarted, hgoing hstarted⟩
    exact hcounter.1 ▸ hcounter.2
  · rintro ⟨-, hnone⟩
    rw [current_cons_within hwithin, List.countP_cons_of_pos hnotifies] at hnone
    exact absurd hnone (Nat.succ_ne_zero _)

/-- A preamble is sent in a procedure that is going on and has preambles left. -/
theorem preamble (h : TimerTracks u notices) (hreset : begun notices ≠ some .reset)
    (hgoing : begun notices = some .started → (current notices).countP notifies = 0 ∧
      u.raPreambleTransmissions < MAX_RA_PREAMBLE_TX)
    (hcounter : u'.raPreambleTransmissions = u.raPreambleTransmissions + 1) :
    TimerTracks u' (.preamble :: notices) := by
  have hcount : begun notices = some .started →
      (current (.preamble :: notices)).count .preamble = u'.raPreambleTransmissions ∧
        u'.raPreambleTransmissions ≤ MAX_RA_PREAMBLE_TX := by
    intro hstarted
    obtain ⟨hnone, hleft⟩ := hgoing hstarted
    rw [current_preamble, List.count_cons_self, (h.going ⟨hstarted, hnone⟩).1, hcounter]
    exact ⟨rfl, hleft⟩
  have hnone : begun notices = some .started →
      (current (.preamble :: notices)).countP notifies = 0 := by
    intro hstarted
    rw [current_preamble, List.countP_cons_of_neg (by decide)]
    exact (hgoing hstarted).1
  refine ⟨h.orderly.cons fun _ => ⟨hreset, fun hstarted => ?_⟩, ?_, ?_, ?_⟩
  · rw [← current_preamble]
    rw [hnone hstarted, (hcount hstarted).1]
    exact ⟨Nat.zero_le _, (hcount hstarted).2⟩
  · rw [begun_preamble]
    exact fun h => absurd h hreset
  · exact fun hgoing => hcount hgoing.1
  · rw [begun_preamble]
    exact fun hstarted hover => absurd (hnone hstarted) hover

end TimerTracks

/-! ## Every step -/

namespace RachRun

/-- A delayed preamble finds a procedure going on that has preambles left, and a message has at
most one entry for the preamble of a UE that waits. -/
def InTime (r : RachRun) : RachEvent → Prop
  | .sendScheduled => r.mac.scheduled = 0 ∨
      (Going r.notices ∧ r.mac.raPreambleTransmissions < MAX_RA_PREAMBLE_TX)
  | .receiveRar rars => r.mac.waitingForRaResponse = false ∨ (r.matching rars).length ≤ 1
  | _ => True

instance InTime.decidable (r : RachRun) : ∀ event, Decidable (r.InTime event)
  | .sendScheduled => inferInstanceAs (Decidable (r.mac.scheduled = 0 ∨
      (Going r.notices ∧ r.mac.raPreambleTransmissions < MAX_RA_PREAMBLE_TX)))
  | .receiveRar rars => inferInstanceAs
      (Decidable (r.mac.waitingForRaResponse = false ∨ (r.matching rars).length ≤ 1))
  | .advance _ => inferInstanceAs (Decidable True)
  | .otherPreamble => inferInstanceAs (Decidable True)
  | .startContention => inferInstanceAs (Decidable True)
  | .startNonContention _ _ => inferInstanceAs (Decidable True)
  | .timeout => inferInstanceAs (Decidable True)
  | .reset => inferInstanceAs (Decidable True)

variable {r : RachRun}

theorem tracks_startContention (h : TimerTracks r.mac r.notices) :
    TimerTracks r.startContention.mac r.startContention.notices := by
  have hstart : TimerTracks { r.mac with raPreambleTransmissions := 0 } (.started :: r.notices) :=
    h.start rfl
  exact hstart.preamble (by simp) (fun _ => ⟨rfl, Nat.succ_pos 9⟩) rfl

theorem tracks_startNonContention (h : TimerTracks r.mac r.notices) (rnti preambleId : Nat) :
    TimerTracks (r.startNonContention rnti preambleId).mac
      (r.startNonContention rnti preambleId).notices := by
  have hstart : TimerTracks (r.mac.startNonContention rnti preambleId) (.started :: r.notices) :=
    h.start rfl
  unfold startNonContention
  dsimp only
  split_ifs
  · exact hstart.congr id rfl
  · exact hstart.preamble (by simp) (fun _ => ⟨rfl, Nat.succ_pos 9⟩) rfl

theorem tracks_sendScheduled (h : TimerTracks r.mac r.notices) (hok : r.InTime .sendScheduled) :
    TimerTracks r.sendScheduled.mac r.sendScheduled.notices := by
  unfold sendScheduled
  split_ifs with hnone
  · exact h
  · rcases hok with hscheduled | ⟨hgoing, hleft⟩
    · exact absurd hscheduled hnone
    · refine h.preamble ?_ (fun _ => ⟨hgoing.2, hleft⟩) rfl
      rw [hgoing.1]
      decide

theorem tracks_timeout (h : TimerTracks r.mac r.notices) :
    TimerTracks r.timeout.mac r.timeout.notices := by
  unfold timeout
  dsimp only
  split_ifs with hearly hwaiting hleft
  · exact h
  · -- the procedure repeats its preamble
    obtain ⟨hreset, hgoing⟩ := h.waiting hwaiting
    exact h.preamble hreset (fun hstarted => ⟨hgoing hstarted, hleft⟩) rfl
  · exact h.notify (Or.inr rfl) hwaiting rfl
  · exact h.congr id rfl

theorem tracks_receiveRar (h : TimerTracks r.mac r.notices) {rars : List Rar}
    (hok : r.InTime (.receiveRar rars)) :
    TimerTracks (r.receiveRar rars).mac (r.receiveRar rars).notices := by
  unfold receiveRar
  split_ifs with hwaiting
  · have hone : (r.matching rars).length ≤ 1 := by
      rcases hok with hidle | hone
      · rw [hidle] at hwaiting
        cases hwaiting
      · exact hone
    unfold UeMac.recvRaResponses
    dsimp only
    change (TimerTracks ((r.matching rars).foldl _ r.mac) _)
    rcases hmatching : r.matching rars with - | ⟨rar, rest⟩
    · exact h
    · obtain rfl : rest = [] := by
        rw [hmatching] at hone
        exact List.eq_nil_of_length_eq_zero (Nat.le_zero.1 (Nat.le_of_succ_le_succ hone))
      exact h.notify (Or.inl rfl) hwaiting rfl
  · exact h

theorem tracks_step {event : RachEvent} (h : TimerTracks r.mac r.notices) (hok : r.InTime event) :
    TimerTracks (r.step event).mac (r.step event).notices := by
  cases event with
  | advance dt => exact h
  | otherPreamble => exact h
  | startContention => exact tracks_startContention h
  | startNonContention rnti preambleId => exact tracks_startNonContention h rnti preambleId
  | sendScheduled => exact tracks_sendScheduled h hok
  | timeout => exact tracks_timeout h
  | receiveRar rars => exact tracks_receiveRar h hok
  | reset => exact h.reset

/-- In a run whose delayed preambles come in time, every procedure notifies the RRC at most once
and sends at most ten preambles, and nothing follows a reset before the next start. -/
theorem orderly_of_inTime (mac : UeMac) (now g_raPreambleId : Nat) (events : List RachEvent)
    (hall : Run.AllSteps step InTime { mac, now, g_raPreambleId } events) :
    Orderly (Run.run step { mac, now, g_raPreambleId } events).notices := by
  have hfirst : TimerTracks mac [] :=
    ⟨orderly_nil, fun h => (by cases h), fun h => (by cases h.1), fun h => (by cases h)⟩
  have htracks := hall.invariant (I := fun r => TimerTracks r.mac r.notices)
    (fun _ _ h hok => tracks_step h hok) hfirst
  exact htracks.orderly

/-- A procedure with a delayed preamble that is answered, and a second one that fails. -/
def delayedInTime : List RachEvent :=
  [.startNonContention 5 60, .advance (milliSeconds 3), .sendScheduled,
    .receiveRar [⟨60, 5⟩], .receiveRar [⟨60, 5⟩], .reset, .receiveRar [⟨60, 5⟩],
    .startContention] ++ List.flatten (List.replicate 10 [.advance (milliSeconds 10), .timeout])

theorem orderly_delayedInTime :
    Orderly (Run.run step { mac := { interRatHoCapable := true } } delayedInTime).notices :=
  orderly_of_inTime { interRatHoCapable := true } 0 0 delayedInTime (by decide)

/-- The MAC is reset while a preamble is delayed, and sends it afterwards. -/
theorem not_orderly_delayed :
    ¬Orderly (Run.run step { mac := { interRatHoCapable := true } }
      [.startNonContention 5 60, .reset, .advance (milliSeconds 3), .sendScheduled]).notices := by
  intro h
  have hpreamble := h.quiet [] [.preamble] [.started] rfl (by decide) .preamble (by decide)
  cases hpreamble

end RachRun

end NtnIab.Mmwave
