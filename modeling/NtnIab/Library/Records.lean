import Mathlib.Data.List.Basic

/-!
# Records of a fixed size in a stream

A stream that arrives piece by piece is read record by record, and what is left of the last piece is
kept in front of the next one. The records do not depend on the pieces: reading two pieces one after
the other reads what they are together.
-/

namespace Records

variable {α β : Type*} (n : Nat) (read : List β → α)

/-- The records at the front of the stream, and what is left when there is no whole one. -/
def readAll (l : List β) : List α × List β :=
  if 0 < n ∧ n ≤ l.length then
    let (records, rest) := readAll (l.drop n)
    (read l :: records, rest)
  else ([], l)
termination_by l.length
decreasing_by
  simp only [List.length_drop]
  omega

/-- A record is made of the first elements. -/
def ReadsFront : Prop := ∀ x y : List β, n ≤ x.length → read (x ++ y) = read x

section
variable {n} {read}

theorem readAll_of_lt {l : List β} (hlt : l.length < n) : readAll n read l = ([], l) := by
  unfold readAll
  exact if_neg (by omega)

theorem readAll_of_le {l : List β} (hpos : 0 < n) (hle : n ≤ l.length) :
    readAll n read l =
      (read l :: (readAll n read (l.drop n)).1, (readAll n read (l.drop n)).2) := by
  rw [readAll, if_pos ⟨hpos, hle⟩]

/-- Less than a record is left, and the stream has as many records as fit. -/
theorem readAll_length (hpos : 0 < n) (l : List β) :
    (readAll n read l).2.length < n ∧ (readAll n read l).1.length = l.length / n := by
  induction hlength : l.length using Nat.strongRecOn generalizing l with
  | ind m ih =>
      by_cases hle : n ≤ l.length
      · obtain ⟨hrest, hcount⟩ := ih (l.drop n).length
          (by rw [List.length_drop]; omega) (l.drop n) rfl
        rw [readAll_of_le hpos hle]
        refine ⟨hrest, ?_⟩
        rw [List.length_cons, hcount, List.length_drop, ← hlength,
          Nat.div_eq_sub_div (a := l.length) hpos hle]
      · rw [readAll_of_lt (Nat.not_le.1 hle)]
        refine ⟨Nat.not_le.1 hle, ?_⟩
        rw [← hlength]
        exact (Nat.div_eq_of_lt (Nat.not_le.1 hle)).symm

/-- The pieces of a stream may be read one after the other. -/
theorem readAll_append (hpos : 0 < n) (hread : ReadsFront n read) (x y : List β) :
    readAll n read (x ++ y) =
      ((readAll n read x).1 ++ (readAll n read ((readAll n read x).2 ++ y)).1,
        (readAll n read ((readAll n read x).2 ++ y)).2) := by
  induction hlength : x.length using Nat.strongRecOn generalizing x with
  | ind m ih =>
      by_cases hle : n ≤ x.length
      · have hlong : n ≤ (x ++ y).length := by
          rw [List.length_append]
          omega
        have hrest := ih (x.drop n).length (by rw [List.length_drop]; omega) (x.drop n) rfl
        rw [readAll_of_le hpos hlong, readAll_of_le hpos hle, hread x y hle,
          List.drop_append_of_le_length hle, hrest]
        rfl
      · rw [readAll_of_lt (Nat.not_le.1 hle)]
        rfl

/-- Records that were written are read back. -/
theorem readAll_flatMap (hpos : 0 < n) {write : α → List β}
    (hlength : ∀ a, (write a).length = n) (hread : ∀ a rest, read (write a ++ rest) = a)
    (records : List α) : readAll n read (records.flatMap write) = (records, []) := by
  induction records with
  | nil => exact readAll_of_lt hpos
  | cons a rest ih =>
      have hle : n ≤ (write a ++ rest.flatMap write).length := by
        rw [List.length_append, hlength a]
        exact Nat.le_add_right _ _
      have hdrop : (write a ++ rest.flatMap write).drop n = rest.flatMap write := by
        rw [← hlength a, List.drop_left]
      rw [List.flatMap_cons, readAll_of_le hpos hle, hdrop, hread, ih]

/-- The records in the front of a stream that was written are the first ones. -/
theorem readAll_written (hpos : 0 < n) {write : α → List β}
    (hlength : ∀ a, (write a).length = n) (hread : ∀ a rest, read (write a ++ rest) = a)
    (hfront : ReadsFront n read) {records : List α} {l : List β}
    (hpre : l <+: records.flatMap write) :
    (readAll n read l).1 = records.take (l.length / n) := by
  obtain ⟨more, hmore⟩ := hpre
  have hall := readAll_flatMap hpos hlength hread records
  rw [← hmore, readAll_append hpos hfront] at hall
  have hrecords := congrArg Prod.fst hall
  dsimp only at hrecords
  rw [← (readAll_length hpos l).2, ← hrecords, List.take_left]

end

end Records
