import Mathlib.Data.List.Basic

/-!
# Runs of a deterministic machine

A machine is a step function on states and events, and a run is a fold of it over a list of
events. `AllSteps` says that every step of a run meets a condition on its event and the state
before it. All the results here have one shape: what one step preserves, a whole run preserves.
-/

namespace Run

variable {σ ε : Type*} {step : σ → ε → σ}

/-- The state reached from `s` after `events`. -/
def run (step : σ → ε → σ) (s : σ) (events : List ε) : σ :=
  events.foldl step s

/-- Every step of the run from `s` meets `P`, a condition on the state before the step and its
event. -/
def AllSteps (step : σ → ε → σ) (P : σ → ε → Prop) : σ → List ε → Prop
  | _, [] => True
  | s, event :: rest => P s event ∧ AllSteps step P (step s event) rest

instance AllSteps.decidable {P : σ → ε → Prop} [∀ s event, Decidable (P s event)] :
    ∀ s events, Decidable (AllSteps step P s events)
  | _, [] => inferInstanceAs (Decidable True)
  | s, event :: rest =>
      have := AllSteps.decidable (P := P) (step s event) rest
      inferInstanceAs (Decidable (P s event ∧ AllSteps step P (step s event) rest))

@[simp] theorem run_nil (s : σ) : run step s [] = s := rfl

@[simp] theorem run_cons (s : σ) (event : ε) (rest : List ε) :
    run step s (event :: rest) = run step (step s event) rest := rfl

theorem run_append (s : σ) (first second : List ε) :
    run step s (first ++ second) = run step (run step s first) second :=
  List.foldl_append

section
variable {P Q Inv : σ → ε → Prop} {I : σ → Prop} {s : σ} {events : List ε}

theorem allSteps_and :
    AllSteps step (fun s event => P s event ∧ Q s event) s events ↔
      AllSteps step P s events ∧ AllSteps step Q s events := by
  induction events generalizing s with
  | nil => exact ⟨fun _ => ⟨trivial, trivial⟩, fun _ => trivial⟩
  | cons event rest ih =>
      unfold AllSteps
      rw [ih, and_and_and_comm]

/-- A condition on the events alone holds at every step if it holds of every event. -/
theorem AllSteps.of_forall (hall : ∀ event ∈ events, ∀ s, P s event) :
    AllSteps step P s events := by
  induction events generalizing s with
  | nil => trivial
  | cons event rest ih =>
      exact ⟨hall event List.mem_cons_self s,
        ih fun other hother => hall other (List.mem_cons_of_mem _ hother)⟩

/-- A state property that every step meeting `P` preserves holds at the end of a run all of whose
steps meet `P`. -/
theorem AllSteps.invariant (hall : AllSteps step P s events)
    (hstep : ∀ s event, I s → P s event → I (step s event)) (hs : I s) :
    I (run step s events) := by
  induction events generalizing s with
  | nil => exact hs
  | cons event rest ih => exact ih hall.2 (hstep s event hs hall.1)

/-- Along a run that keeps `I`, a step condition may be replaced by one it implies under `I`. -/
theorem AllSteps.imp (hall : AllSteps step P s events)
    (hstep : ∀ s event, I s → P s event → I (step s event))
    (himp : ∀ s event, I s → P s event → Q s event) (hs : I s) :
    AllSteps step Q s events := by
  induction events generalizing s with
  | nil => trivial
  | cons event rest ih =>
      exact ⟨himp s event hs hall.1, ih hall.2 (hstep s event hs hall.1)⟩

/-- Two step conditions that agree under an invariant kept by the first hold of the same runs. -/
theorem allSteps_congr (hstep : ∀ s event, I s → P s event → I (step s event))
    (hiff : ∀ s event, I s → (P s event ↔ Q s event)) (hs : I s) :
    AllSteps step P s events ↔ AllSteps step Q s events :=
  ⟨fun hall => hall.imp hstep (fun s event hi => (hiff s event hi).1) hs,
    fun hall => hall.imp (fun s event hi hq => hstep s event hi ((hiff s event hi).2 hq))
      (fun s event hi => (hiff s event hi).2) hs⟩

/-- A relation that every step is in holds from the first state of a run to the last, if it is
reflexive and transitive. -/
theorem relates {R : σ → σ → Prop} (hrefl : ∀ s, R s s)
    (htrans : ∀ {s s' s''}, R s s' → R s' s'' → R s s'')
    (hstep : ∀ s event, R s (step s event)) : R s (run step s events) := by
  induction events generalizing s with
  | nil => exact hrefl s
  | cons event rest ih => exact htrans (hstep s event) ih

/-- An invariant that every step preserves holds at the end of every run. -/
theorem invariant (hstep : ∀ s event, I s → I (step s event)) (hs : I s) :
    I (run step s events) := by
  induction events generalizing s with
  | nil => exact hs
  | cons event rest ih => exact ih (hstep s event hs)

/-- Two machines that stay related when both take a step on one event are related at the end of
their runs on the same events. -/
theorem simulates {τ : Type*} {step' : τ → ε → τ} {R : σ → τ → Prop} {t : τ}
    (hstep : ∀ event ∈ events, ∀ {s t}, R s t → R (step s event) (step' t event)) (hst : R s t) :
    R (run step s events) (run step' t events) := by
  induction events generalizing s t with
  | nil => exact hst
  | cons event rest ih =>
      exact ih (fun other hother => hstep other (List.mem_cons_of_mem _ hother))
        (hstep event List.mem_cons_self hst)

end

end Run
