import Mathlib.Data.Nat.Basic
import Mathlib.Algebra.Group.Nat.Defs

/-!
# A clock with frames

Time is counted in slots, and shown as the number of a frame and that of a slot in it, with `S`
slots a frame. Adding at most one frame carries at most once. In a ring of `S` cells the slots of
one round have cells of their own.
-/

namespace FrameClock

variable {S n d k : Nat}

theorem div_add_of_lt (h : n % S + d < S) : (n + d) / S = n / S := by
  have hS : 0 < S := by omega
  have hsplit : n + d = n % S + d + S * (n / S) := by
    have := Nat.mod_add_div n S
    omega
  rw [hsplit, Nat.add_mul_div_left _ _ hS, Nat.div_eq_of_lt h, Nat.zero_add]

theorem mod_add_of_lt (h : n % S + d < S) : (n + d) % S = n % S + d := by
  have hsplit : n + d = n % S + d + S * (n / S) := by
    have := Nat.mod_add_div n S
    omega
  calc (n + d) % S = (n % S + d + S * (n / S)) % S := by rw [← hsplit]
    _ = (n % S + d) % S := Nat.add_mul_mod_self_left _ _ _
    _ = n % S + d := Nat.mod_eq_of_lt h

theorem add_eq_of_carry (h : S ≤ n % S + d) :
    n + d = n % S + d - S + S * (n / S + 1) := by
  have := Nat.mod_add_div n S
  rw [Nat.mul_succ]
  omega

theorem div_add_of_carry (hS : 0 < S) (hd : d ≤ S) (h : S ≤ n % S + d) :
    (n + d) / S = n / S + 1 := by
  have hrest : n % S + d - S < S := by
    have := Nat.mod_lt n hS
    omega
  rw [add_eq_of_carry h, Nat.add_mul_div_left _ _ hS, Nat.div_eq_of_lt hrest, Nat.zero_add]

theorem mod_add_of_carry (hS : 0 < S) (hd : d ≤ S) (h : S ≤ n % S + d) :
    (n + d) % S = n % S + d - S := by
  have hrest : n % S + d - S < S := by
    have := Nat.mod_lt n hS
    omega
  calc (n + d) % S = (n % S + d - S + S * (n / S + 1)) % S := by rw [← add_eq_of_carry h]
    _ = (n % S + d - S) % S := Nat.add_mul_mod_self_left _ _ _
    _ = n % S + d - S := Nat.mod_eq_of_lt hrest

/-- The slots of one round have different cells. -/
theorem mod_ne_mod (hlt : n < k) (hround : k < n + S) : k % S ≠ n % S := by
  intro heq
  have hzero : (k - n) % S = 0 := Nat.sub_mod_eq_zero_of_mod_eq heq
  rw [Nat.mod_eq_of_lt (by omega)] at hzero
  omega

end FrameClock
