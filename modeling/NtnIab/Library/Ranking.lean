import Mathlib.Logic.Function.Iterate
import Mathlib.Order.RelClasses

/-!
# Steps that come to an end

A step that keeps an invariant and lowers a rank until something is done comes to where it is done.
-/

namespace Ranking

universe u v

variable {α : Type u} {β : Type v} (step : α → α) (Inv Done : α → Prop) (rank : α → β)
  {r : β → β → Prop}

/-- The step may be repeated until it is done, and keeps the invariant all the way. -/
theorem exists_done (hwf : WellFounded r) {a : α} (ha : Inv a)
    (hstep : ∀ a, Inv a → ¬ Done a → Inv (step a) ∧ (Done (step a) ∨ r (rank (step a)) (rank a))) :
    ∃ n, Done (step^[n] a) ∧ Inv (step^[n] a) := by
  obtain ⟨b, hb⟩ : ∃ b, rank a = b := ⟨_, rfl⟩
  induction b using hwf.induction generalizing a with
  | _ b ih =>
      by_cases hdone : Done a
      · exact ⟨0, hdone, ha⟩
      · obtain ⟨hinv, hlower⟩ := hstep a ha hdone
        rcases hlower with hnext | hlower
        · exact ⟨1, hnext, hinv⟩
        · obtain ⟨n, hn⟩ := ih _ (hb ▸ hlower) hinv rfl
          exact ⟨n + 1, hn⟩

end Ranking
