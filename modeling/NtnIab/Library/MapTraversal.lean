import NtnIab.Library.Fallible
import NtnIab.Library.OrderedMap

/-!
# Computations on the entries of a map

Each entry of a map is replaced by the result of a computation that may fail. The keys stay, and
what is found under a key is the result for what was found there before.
-/

namespace OrderedMap

open Fallible

universe u

variable {ε : Type*} {α β : Type u} {f : Nat → α → Except ε β}

/-- The entries of a map are replaced, in the order of their keys, up to the first failure. -/
def traverse (f : Nat → α → Except ε β) : OrderedMap α → Except ε (OrderedMap β)
  | [] => .ok []
  | entry :: rest => do
      let b ← f entry.1 entry.2
      let rest ← traverse f rest
      pure ((entry.1, b) :: rest)

/-- What is found under a key comes from what was found there before. -/
theorem find_traverse {m : OrderedMap α} {m' : OrderedMap β} (hm : m.traverse f = .ok m')
    {key : Nat} {a : α} (hfind : m.find key = some a) :
    ∃ b, f key a = .ok b ∧ m'.find key = some b := by
  induction m generalizing m' with
  | nil => cases hfind
  | cons entry rest ih =>
      obtain ⟨b, hb, hm⟩ := bind_eq_ok.1 hm
      obtain ⟨rest', hrest, hm⟩ := bind_eq_ok.1 hm
      obtain rfl := pure_eq_ok.1 hm
      rw [find_cons] at hfind ⊢
      split_ifs at hfind ⊢ with hkey
      · rw [← hkey, ← Option.some.inj hfind]
        exact ⟨b, hb, rfl⟩
      · exact ih hrest hfind

theorem keys_traverse {m : OrderedMap α} {m' : OrderedMap β} (hm : m.traverse f = .ok m') :
    m'.keys = m.keys := by
  induction m generalizing m' with
  | nil =>
      obtain rfl := Except.ok.inj hm
      rfl
  | cons entry rest ih =>
      obtain ⟨b, hb, hm⟩ := bind_eq_ok.1 hm
      obtain ⟨rest', hrest, hm⟩ := bind_eq_ok.1 hm
      obtain rfl := pure_eq_ok.1 hm
      have hkeys : rest'.keys = OrderedMap.keys rest := ih hrest
      show entry.1 :: rest'.keys = entry.1 :: OrderedMap.keys rest
      rw [hkeys]

/-- What is found after a traversal comes from what was found before. -/
theorem find_of_traverse {m : OrderedMap α} {m' : OrderedMap β} (hm : m.traverse f = .ok m')
    {key : Nat} {b : β} (hfind : m'.find key = some b) :
    ∃ a, m.find key = some a ∧ f key a = .ok b := by
  have hmem : key ∈ m.keys := by
    rw [← keys_traverse hm, mem_keys_iff, hfind]
    rfl
  obtain ⟨a, ha⟩ := Option.isSome_iff_exists.1 (mem_keys_iff.1 hmem)
  obtain ⟨b', hb', hfind'⟩ := find_traverse hm ha
  obtain rfl := Option.some.inj (hfind.symm.trans hfind')
  exact ⟨a, ha, hb'⟩

theorem keys_map_snd {g : α → β} {m : OrderedMap α} :
    keys (m.map fun entry => (entry.1, g entry.2)) = m.keys := by
  simp [keys, Function.comp_def]

theorem find_map_snd {g : α → β} (m : OrderedMap α) {key : Nat} :
    find key (m.map fun entry => (entry.1, g entry.2)) = (m.find key).map g := by
  induction m with
  | nil => rfl
  | cons entry rest ih =>
      rw [List.map_cons, find_cons, find_cons, ih]
      split_ifs <;> rfl

/-- If no entry fails, the traversal has a result. -/
theorem exists_traverse {m : OrderedMap α} (hok : ∀ entry ∈ m, ∃ b, f entry.1 entry.2 = .ok b) :
    ∃ m', m.traverse f = .ok m' := by
  induction m with
  | nil => exact ⟨[], rfl⟩
  | cons entry rest ih =>
      obtain ⟨b, hb⟩ := hok entry List.mem_cons_self
      obtain ⟨rest', hrest⟩ := ih fun other hother => hok other (List.mem_cons_of_mem _ hother)
      refine ⟨(entry.1, b) :: rest', ?_⟩
      rw [traverse, hb, ok_bind, hrest]
      rfl

/-- A traversal fails only where one of its entries does. -/
theorem yields_traverse {E : ε → Prop} {m : OrderedMap α}
    (hm : ∀ entry ∈ m, Yields E (fun _ => True) (f entry.1 entry.2)) :
    Yields E (fun m' => m.traverse f = .ok m') (m.traverse f) := by
  have htrue : Yields E (fun _ => True) (m.traverse f) := by
    induction m with
    | nil => trivial
    | cons entry rest ih =>
        refine (hm entry List.mem_cons_self).bind fun b _ => ?_
        refine (ih fun other hother => ?_).bind fun _ _ => trivial
        exact hm other (List.mem_cons_of_mem _ hother)
  exact htrue.and_ok fun _ hok => hok

end OrderedMap
