import Mathlib.Data.List.Range

/-!
# Windows of an indexed sequence

`window f offset length` is the list of the values of `f` at the `length` indices from `offset`
on. Cutting a window gives windows, and adjoining windows join.
-/

namespace Window

variable {α : Type*}

/-- The values of `f` at `offset`, ..., `offset + length - 1`. -/
def window (f : Nat → α) (offset length : Nat) : List α :=
  (List.range' offset length).map f

variable (f : Nat → α) (offset : Nat)

@[simp] theorem length_window (length : Nat) : (window f offset length).length = length := by
  simp [window]

@[simp] theorem window_zero : window f offset 0 = [] := rfl

theorem window_append (m n : Nat) :
    window f offset m ++ window f (offset + m) n = window f offset (m + n) := by
  simp [window, ← List.map_append]

theorem drop_window (n k : Nat) :
    (window f offset n).drop k = window f (offset + k) (n - k) := by
  simp [window, ← List.map_drop, List.drop_range']

theorem take_window {n k : Nat} (hk : k ≤ n) :
    (window f offset n).take k = window f offset k := by
  simp [window, ← List.map_take, List.take_range'_of_length_ge hk]

theorem drop_eq_window {l : List α} (hl : l = window f offset l.length) (k : Nat) :
    l.drop k = window f (offset + k) (l.length - k) := by
  conv_lhs => rw [hl]
  rw [drop_window]

theorem take_eq_window {l : List α} (hl : l = window f offset l.length) {k : Nat}
    (hk : k ≤ l.length) : l.take k = window f offset k := by
  conv_lhs => rw [hl]
  exact take_window f offset hk

/-- A segment of a list is a window of its indexing function. -/
theorem window_getD {l : List α} (d : α) {offset n : Nat} (hn : offset + n ≤ l.length) :
    window (fun i => l.getD i d) offset n = (l.drop offset).take n := by
  apply List.ext_getElem
  · simp only [length_window, List.length_take, List.length_drop]
    omega
  · intro i hleft hright
    rw [length_window] at hleft
    simp [window, List.getElem_take, List.getD_eq_getElem?_getD,
      List.getElem?_eq_getElem (show offset + i < l.length by omega)]

end Window
