import Mathlib.Algebra.GroupWithZero.Nat
import Mathlib.Data.List.Basic

/-!
# Queues that are served in order

An amount is taken from a list of queues, from the first on: a queue is served only when those
before it are empty.
-/

namespace Serving

/-- What is left in the queues of which `n` is taken. -/
def serve : Nat → List Nat → List Nat
  | _, [] => []
  | n, queue :: queues => (queue - n) :: serve (n - queue) queues

variable {n : Nat} {queues : List Nat}

@[simp] theorem serve_nil : serve n [] = [] := rfl

@[simp] theorem serve_cons {queue : Nat} :
    serve n (queue :: queues) = (queue - n) :: serve (n - queue) queues := rfl

@[simp] theorem serve_zero : serve 0 queues = queues := by
  induction queues with
  | nil => rfl
  | cons queue queues ih => simp [ih]

/-- As much is taken as there is, up to `n`. -/
theorem sum_serve : (serve n queues).sum = queues.sum - n := by
  induction queues generalizing n with
  | nil => simp
  | cons queue queues ih =>
      simp only [serve_cons, List.sum_cons, ih]
      omega

variable (n queues) in
/-- No queue grows, and one from which something is taken has only empty ones before it. -/
theorem pairwise_serve :
    List.Forall₂ (· ≤ ·) (serve n queues) queues ∧
      ((serve n queues).zip queues).Pairwise
        fun first later => later.1 < later.2 → first.1 = 0 := by
  induction queues generalizing n with
  | nil => exact ⟨.nil, .nil⟩
  | cons queue queues ih =>
      obtain ⟨hle, hpairwise⟩ := ih (n := n - queue)
      refine ⟨.cons (Nat.sub_le _ _) hle, List.pairwise_cons.2 ⟨?_, hpairwise⟩⟩
      intro later hlater htaken
      -- nothing reaches the later queues unless this one is empty
      by_contra hleft
      have hnone : n - queue = 0 := by
        have hfirst : queue - n ≠ 0 := hleft
        omega
      rw [hnone, serve_zero] at hlater
      have hsame : later.1 = later.2 := by
        obtain ⟨i, hi, rfl⟩ := List.getElem_of_mem hlater
        simp
      omega

end Serving
