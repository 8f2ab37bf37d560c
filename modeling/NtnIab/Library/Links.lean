import Mathlib.Data.List.Perm.Subperm

/-!
# Chains of links

A link leads from a key to the next one, or nowhere. A chain of links from a key ends if it comes to
a key from which no link leads on. Chains that end are no longer than the number of the keys with a
link, and redirecting some of the links leaves the chains as they are that pass none of them.
-/

namespace Links

variable {κ : Type*}

/-- From `c`, following `n` links leads to `w`, where no link leads on. -/
inductive EndsIn (next : κ → Option κ) : Nat → κ → κ → Prop
  | stop {c : κ} (hnone : next c = none) : EndsIn next 0 c c
  | follow {n : Nat} {c d w : κ} (hsome : next c = some d) (hrest : EndsIn next n d w) :
      EndsIn next (n + 1) c w

/-- The chain from a key passes a key with the property `P`. -/
inductive Through (next : κ → Option κ) (P : κ → Prop) : κ → Prop
  | here {c : κ} (hc : P c) : Through next P c
  | follow {c d : κ} (hsome : next c = some d) (hrest : Through next P d) : Through next P c

variable {next next' : κ → Option κ} {P : κ → Prop} {n m : Nat} {c d w v : κ}

theorem EndsIn.unique (hends : EndsIn next n c w) (hother : EndsIn next m c v) :
    n = m ∧ w = v := by
  induction hends generalizing m with
  | stop hnone =>
      cases hother with
      | stop _ => exact ⟨rfl, rfl⟩
      | follow hsome _ => exact nomatch hnone.symm.trans hsome
  | follow hsome _ ih =>
      cases hother with
      | stop hnone => exact nomatch hnone.symm.trans hsome
      | follow hsome' hrest =>
          obtain rfl := Option.some.inj (hsome.symm.trans hsome')
          obtain ⟨rfl, rfl⟩ := ih hrest
          exact ⟨rfl, rfl⟩

/-- The keys that a chain passes before its end are different ones. -/
theorem EndsIn.exists_keys (hends : EndsIn next n c w) :
    ∃ passed : List κ, passed.length = n ∧ passed.Nodup ∧
      ∀ d ∈ passed, next d ≠ none ∧ ∃ k ≤ n, EndsIn next k d w := by
  induction hends with
  | stop _ => exact ⟨[], rfl, List.nodup_nil, nofun⟩
  | @follow n c d w hsome hrest ih =>
      obtain ⟨passed, hlength, hnodup, hpassed⟩ := ih
      refine ⟨c :: passed, by rw [List.length_cons, hlength], List.nodup_cons.2 ⟨?_, hnodup⟩, ?_⟩
      · -- the key would be passed again, nearer to the end
        intro hmem
        obtain ⟨-, k, hk, hagain⟩ := hpassed c hmem
        have heq := (hagain.unique (.follow hsome hrest)).1
        omega
      · intro other hother
        rcases List.mem_cons.1 hother with rfl | hother
        · refine ⟨?_, n + 1, Nat.le_refl _, .follow hsome hrest⟩
          rw [hsome]
          exact Option.some_ne_none d
        · obtain ⟨hlink, k, hk, hrest'⟩ := hpassed other hother
          exact ⟨hlink, k, Nat.le_succ_of_le hk, hrest'⟩

/-- A chain that ends is no longer than the number of keys. -/
theorem EndsIn.le_length (hends : EndsIn next n c w) {keys : List κ}
    (hkeys : ∀ d, next d ≠ none → d ∈ keys) : n ≤ keys.length := by
  obtain ⟨passed, rfl, hnodup, hpassed⟩ := hends.exists_keys
  have hsubset : passed ⊆ keys := fun d hd => hkeys d (hpassed d hd).1
  exact (List.subperm_of_subset hnodup hsubset).length_le

/-- A chain that passes a key whose link leads to `d` ends where the chain from `d` does. -/
theorem EndsIn.of_through (hends : EndsIn next n c w) (hlink : ∀ e, P e → next e = some d)
    (hthere : EndsIn next m d v) (hthrough : Through next P c) : w = v := by
  induction hends with
  | stop hnone =>
      cases hthrough with
      | here hc => exact nomatch hnone.symm.trans (hlink _ hc)
      | follow hsome _ => exact nomatch hnone.symm.trans hsome
  | follow hsome hrest ih =>
      cases hthrough with
      | here hc =>
          obtain rfl := Option.some.inj (hsome.symm.trans (hlink _ hc))
          exact (hrest.unique hthere).2
      | follow hsome' hrest' =>
          obtain rfl := Option.some.inj (hsome.symm.trans hsome')
          exact ih hrest'

/-! ## Redirecting links -/

/-- Links that the chain does not pass may be redirected. -/
theorem EndsIn.of_avoids (hends : EndsIn next n c w) (hagree : ∀ d, ¬ P d → next' d = next d)
    (havoid : ¬ Through next P c) : EndsIn next' n c w := by
  induction hends with
  | stop hnone => exact .stop ((hagree _ fun hc => havoid (.here hc)).trans hnone)
  | follow hsome _ ih =>
      exact .follow ((hagree _ fun hc => havoid (.here hc)).trans hsome)
        (ih fun hthrough => havoid (.follow hsome hthrough))

/-- A chain that passes a redirected link goes on as the chain to which the link now leads. -/
theorem EndsIn.redirect (hends : EndsIn next n c w) (hagree : ∀ d, ¬ P d → next' d = next d)
    (hredirect : ∀ d, P d → next' d = some v) (hthere : EndsIn next' m v d)
    (hthrough : Through next P c) : ∃ k, EndsIn next' k c d := by
  induction hends with
  | stop hnone =>
      cases hthrough with
      | here hc => exact ⟨m + 1, .follow (hredirect _ hc) hthere⟩
      | follow hsome _ => exact nomatch hnone.symm.trans hsome
  | @follow n c e w hsome _ ih =>
      by_cases hc : P c
      · exact ⟨m + 1, .follow (hredirect _ hc) hthere⟩
      · cases hthrough with
        | here hhere => exact absurd hhere hc
        | follow hsome' hrest =>
            obtain rfl := Option.some.inj (hsome.symm.trans hsome')
            obtain ⟨k, hk⟩ := ih hrest
            exact ⟨k + 1, .follow ((hagree _ hc).trans hsome) hk⟩

end Links
