import Mathlib.Data.List.Basic

/-!
# Computations that may fail

What a computation yields: its result has a property, or its error is an allowed one. With every
error allowed this is partial correctness, and with none it says that the computation succeeds.
There is one rule for each way to build a computation; a loop over a list keeps an invariant.
-/

namespace Fallible

universe u v

variable {ε : Type u} {α β : Type v} {E F : ε → Prop} {P Q : α → Prop}

/-- The result has the property `P`, or the error is allowed by `E`. -/
def Yields (E : ε → Prop) (P : α → Prop) : Except ε α → Prop
  | .ok a => P a
  | .error e => E e

@[simp] theorem yields_ok {a : α} : Yields E P (.ok a : Except ε α) ↔ P a := Iff.rfl

@[simp] theorem yields_error {e : ε} : Yields E P (.error e : Except ε α) ↔ E e := Iff.rfl

@[simp] theorem yields_pure {a : α} : Yields E P (pure a : Except ε α) ↔ P a := Iff.rfl

theorem Yields.imp {x : Except ε α} (hx : Yields E P x) (himp : ∀ a, P a → Q a) :
    Yields E Q x := by
  cases x with
  | ok a => exact himp a hx
  | error e => exact hx

theorem Yields.of_ok {x : Except ε α} (hx : Yields E P x) {a : α} (ha : x = .ok a) : P a := by
  rw [ha] at hx
  exact hx

theorem Yields.of_error {x : Except ε α} (hx : Yields E P x) {e : ε} (he : x = .error e) :
    E e := by
  rw [he] at hx
  exact hx

/-- To say something about a result one may assume that there is one. -/
theorem yields_of_ok {x : Except ε α} (hx : ∀ a, x = .ok a → P a) :
    Yields (fun _ => True) P x := by
  cases x with
  | ok a => exact hx a rfl
  | error e => trivial

/-- A result has a further property, if every result has it. -/
theorem Yields.and {x : Except ε α} (hx : Yields E P x) (hok : ∀ a, x = .ok a → Q a) :
    Yields E (fun a => P a ∧ Q a) x := by
  cases x with
  | ok a => exact ⟨hx, hok a rfl⟩
  | error e => exact hx

/-- The errors and the results may be looked at one after the other. -/
theorem Yields.and_ok {x : Except ε α} (hx : Yields E P x) (hok : ∀ a, x = .ok a → Q a) :
    Yields E Q x :=
  (hx.and hok).imp fun _ h => h.2

instance decidableForallOk [DecidablePred P] :
    ∀ x : Except ε α, Decidable (∀ a, x = .ok a → P a)
  | .ok a => decidable_of_iff (P a) ⟨fun h _ heq => Except.ok.inj heq ▸ h, fun h => h a rfl⟩
  | .error _ => isTrue nofun

theorem Yields.bind {x : Except ε α} {f : α → Except ε β} {R : β → Prop} (hx : Yields E P x)
    (hf : ∀ a, P a → Yields E R (f a)) : Yields E R (x >>= f) := by
  cases x with
  | ok a => exact hf a hx
  | error e => exact hx

theorem yields_map {x : Except ε α} {f : α → β} {R : β → Prop} :
    Yields E R (x.map f) ↔ Yields E (fun a => R (f a)) x := by
  cases x <;> exact Iff.rfl

theorem map_bind {γ : Type v} {x : Except ε α} {f : α → Except ε β} {g : β → γ} :
    (x >>= f).map g = x >>= fun a => (f a).map g := by
  cases x <;> rfl

theorem bind_map {γ : Type v} {x : Except ε α} {g : α → γ} {f : γ → Except ε β} :
    x.map g >>= f = x >>= fun a => f (g a) := by
  cases x <;> rfl

theorem ok_bind {a : α} {f : α → Except ε β} : (Except.ok a : Except ε α) >>= f = f a := rfl

/-- A sequence has a result if both parts have one. -/
theorem bind_eq_ok {x : Except ε α} {f : α → Except ε β} {b : β} :
    x >>= f = .ok b ↔ ∃ a, x = .ok a ∧ f a = .ok b := by
  cases x with
  | ok a =>
      constructor
      · intro h
        exact ⟨a, rfl, h⟩
      · rintro ⟨_, ha, h⟩
        obtain rfl := Except.ok.inj ha
        exact h
  | error e =>
      constructor
      · intro h
        cases h
      · rintro ⟨_, ha, -⟩
        cases ha

theorem map_eq_ok {x : Except ε α} {f : α → β} {b : β} :
    x.map f = .ok b ↔ ∃ a, x = .ok a ∧ f a = b := by
  cases x with
  | ok a =>
      constructor
      · intro h
        exact ⟨a, rfl, Except.ok.inj h⟩
      · rintro ⟨_, ha, rfl⟩
        rw [Except.ok.inj ha]
        rfl
  | error e =>
      constructor
      · intro h
        cases h
      · rintro ⟨_, ha, -⟩
        cases ha

theorem map_eq_error {x : Except ε α} {f : α → β} {e : ε} : x.map f = .error e ↔ x = .error e := by
  cases x with
  | ok a => exact ⟨nofun, nofun⟩
  | error e' => exact ⟨fun h => congrArg Except.error (Except.error.inj h), fun h => h ▸ rfl⟩

theorem exists_eq_ok {x : Except ε α} (hok : x.toBool = true) : ∃ a, x = .ok a := by
  cases x with
  | ok a => exact ⟨a, rfl⟩
  | error e => cases hok

theorem pure_eq_ok {a b : α} : (pure a : Except ε α) = .ok b ↔ a = b :=
  ⟨fun h => Except.ok.inj h, fun h => congrArg Except.ok h⟩

/-! ## Checked computations -/

/-- The computation has a result, which has the property `P`, exactly if the check `C` is passed;
otherwise it ends with the error `e`. -/
def Checks (e : ε) (C : Prop) (P : α → Prop) (x : Except ε α) : Prop :=
  (C → ∃ a, x = .ok a ∧ P a) ∧ (¬ C → x = .error e)

section
variable {e : ε} {C D : Prop} {x : Except ε α}

theorem Checks.of_ok {a : α} (hP : P a) : Checks e True P (.ok a) :=
  ⟨fun _ => ⟨a, rfl, hP⟩, fun hnot => (hnot trivial).elim⟩

theorem Checks.imp (hx : Checks e C P x) (himp : ∀ a, P a → Q a) : Checks e C Q x := by
  refine ⟨fun hC => ?_, hx.2⟩
  obtain ⟨a, hok, hP⟩ := hx.1 hC
  exact ⟨a, hok, himp a hP⟩

theorem Checks.congr (hx : Checks e C P x) (hiff : C ↔ D) : Checks e D P x :=
  ⟨fun hD => hx.1 (hiff.2 hD), fun hD => hx.2 (mt hiff.1 hD)⟩

/-- Two computations in sequence pass both checks. -/
theorem Checks.bind {f : α → Except ε β} {R : β → Prop} (hx : Checks e C P x)
    (hf : ∀ a, P a → Checks e D R (f a)) : Checks e (C ∧ D) R (x >>= f) := by
  by_cases hC : C
  · obtain ⟨a, rfl, hP⟩ := hx.1 hC
    exact (hf a hP).congr ⟨fun hD => ⟨hC, hD⟩, And.right⟩
  · refine ⟨fun h => (hC h.1).elim, fun _ => ?_⟩
    rw [hx.2 hC]
    rfl

end

/-! ## Loops -/

/-- A loop over a list keeps an invariant that may mention what is done and what is left. -/
theorem yields_foldlM {f : β → α → Except ε β} {I : β → List α → Prop} {b : β} {items : List α}
    (hb : I b items) (hstep : ∀ b a rest, I b (a :: rest) → Yields E (I · rest) (f b a)) :
    Yields E (I · []) (items.foldlM f b) := by
  induction items generalizing b with
  | nil => exact hb
  | cons a rest ih =>
      rw [List.foldlM_cons]
      exact (hstep b a rest hb).bind fun b' hb' => ih hb'

/-- The invariant of a loop that has a result. -/
theorem foldlM_invariant {f : β → α → Except ε β} {I : β → List α → Prop} {b b' : β}
    {items : List α} (hloop : items.foldlM f b = .ok b') (hb : I b items)
    (hstep : ∀ b a rest b', I b (a :: rest) → f b a = .ok b' → I b' rest) : I b' [] := by
  have hyields : Yields (fun _ => True) (I · []) (items.foldlM f b) :=
    yields_foldlM hb fun b a rest hI => yields_of_ok fun b' hok => hstep b a rest b' hI hok
  exact hyields.of_ok hloop

/-- A loop whose steps all succeed is a fold. -/
theorem foldlM_eq_ok {f : β → α → Except ε β} {g : β → α → β} {items : List α} {b : β}
    (hstep : ∀ a ∈ items, ∀ b, f b a = .ok (g b a)) :
    items.foldlM f b = .ok (items.foldl g b) := by
  induction items generalizing b with
  | nil => rfl
  | cons a rest ih =>
      rw [List.foldlM_cons, hstep a List.mem_cons_self, ok_bind, List.foldl_cons]
      exact ih fun other hother => hstep other (List.mem_cons_of_mem a hother)

/-- If every step of a loop acts on a view of the state in a known way, so does the loop. -/
theorem foldlM_view {γ : Type*} {f : β → α → Except ε β} {view : β → γ} {g : γ → α → γ}
    (hstep : ∀ b a b', f b a = .ok b' → view b' = g (view b) a) {items : List α} {b b' : β}
    (hloop : items.foldlM f b = .ok b') : view b' = items.foldl g (view b) := by
  induction items generalizing b with
  | nil =>
      obtain rfl := pure_eq_ok.1 hloop
      rfl
  | cons a rest ih =>
      rw [List.foldlM_cons] at hloop
      obtain ⟨next, hnext, hrest⟩ := bind_eq_ok.1 hloop
      rw [ih hrest, hstep b a next hnext, List.foldl_cons]

end Fallible
