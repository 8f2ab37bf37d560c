import Mathlib.Data.List.Basic
import Mathlib.Order.Lattice

/-!
# Agendas

The agenda of a discrete-event simulation has the events to come, with their times. A new event
comes after all the events that are not later than it, so events of one time are handled in the
order in which they were scheduled.
-/

namespace Agenda

variable {τ ε : Type*} [LinearOrder τ] {time : τ} {event : ε} {agenda : List (τ × ε)}

def schedule (time : τ) (event : ε) : List (τ × ε) → List (τ × ε)
  | [] => [(time, event)]
  | entry :: rest =>
      if entry.1 ≤ time then entry :: schedule time event rest
      else (time, event) :: entry :: rest

/-- A new event splits the agenda. -/
theorem exists_schedule_eq (time : τ) (event : ε) (agenda : List (τ × ε)) :
    ∃ earlier later, earlier ++ later = agenda ∧
      schedule time event agenda = earlier ++ (time, event) :: later := by
  induction agenda with
  | nil => exact ⟨[], [], rfl, rfl⟩
  | cons entry rest ih =>
      unfold schedule
      by_cases hle : entry.1 ≤ time
      · obtain ⟨earlier, later, hsplit, hschedule⟩ := ih
        refine ⟨entry :: earlier, later, by rw [List.cons_append, hsplit], ?_⟩
        rw [if_pos hle, hschedule, List.cons_append]
      · exact ⟨[], entry :: rest, rfl, if_neg hle⟩

theorem mem_schedule {entry : τ × ε} :
    entry ∈ schedule time event agenda ↔ entry = (time, event) ∨ entry ∈ agenda := by
  obtain ⟨earlier, later, rfl, hschedule⟩ := exists_schedule_eq time event agenda
  rw [hschedule]
  simp only [List.mem_append, List.mem_cons]
  exact or_left_comm

/-- An event that is not earlier than any other comes last. -/
theorem schedule_of_le (hle : ∀ entry ∈ agenda, entry.1 ≤ time) :
    schedule time event agenda = agenda ++ [(time, event)] := by
  induction agenda with
  | nil => rfl
  | cons entry rest ih =>
      rw [List.forall_mem_cons] at hle
      unfold schedule
      rw [if_pos hle.1, ih hle.2, List.cons_append]

end Agenda
