/-!
# Chains of records

Records stored under keys may name one other key each: a delta names its base, a
node its parent.  `get` looks a record up, `next` gives the key it names, and `root`
says where a chain may end.

`Grounded get root next k n` says that the chain from `k` reaches a root after `n`
links.  Grounded keys are present, have grounded successors, and lie on no cycle,
because the number of links is determined by the key (`Grounded.unique`).  Chains
survive any change of the store that keeps a set of keys closed under `next`
(`Grounded.transfer`).
-/

namespace Skyscale
namespace Lib

variable {κ ρ : Type}

/-- The chain from a key reaches a root after the given number of links. -/
inductive Grounded (get : κ → Option ρ) (root : ρ → Prop) (next : ρ → Option κ) :
    κ → Nat → Prop
  | root {k : κ} {r : ρ} : get k = some r → root r → Grounded get root next k 0
  | link {k k' : κ} {r : ρ} {n : Nat} :
      get k = some r → next r = some k' → Grounded get root next k' n →
      Grounded get root next k (n + 1)

namespace Grounded

variable {get get' : κ → Option ρ} {root : ρ → Prop} {next : ρ → Option κ} {k k' : κ}
variable {r : ρ} {n m : Nat}

theorem present (h : Grounded get root next k n) : ∃ r, get k = some r := by
  cases h with
  | root hget _ | link hget _ _ => exact ⟨_, hget⟩

theorem of_next (hroot : ∀ r, root r → next r = none) (h : Grounded get root next k n)
    (hget : get k = some r) (hnext : next r = some k') :
    ∃ m, n = m + 1 ∧ Grounded get root next k' m := by
  cases h with
  | root hget' hr =>
    obtain rfl := Option.some.inj (hget.symm.trans hget')
    rw [hroot _ hr] at hnext
    cases hnext
  | link hget' hnext' hrest =>
    obtain rfl := Option.some.inj (hget.symm.trans hget')
    obtain rfl := Option.some.inj (hnext.symm.trans hnext')
    exact ⟨_, rfl, hrest⟩

theorem unique (hroot : ∀ r, root r → next r = none) (h : Grounded get root next k n)
    (h' : Grounded get root next k m) : n = m := by
  induction h generalizing m with
  | root hget hr =>
    cases h' with
    | root _ _ => rfl
    | link hget' hnext' _ =>
      obtain rfl := Option.some.inj (hget.symm.trans hget')
      rw [hroot _ hr] at hnext'
      cases hnext'
  | link hget hnext _ ih =>
    obtain ⟨m', rfl, hrest'⟩ := h'.of_next hroot hget hnext
    rw [ih hrest']

theorem exists_keys (hroot : ∀ r, root r → next r = none) (h : Grounded get root next k n) :
    ∃ ks : List κ, ks.length = n + 1 ∧ ks.Nodup ∧
      ∀ x ∈ ks, ∃ m, m ≤ n ∧ Grounded get root next x m := by
  induction h with
  | @root k r hget hr =>
    refine ⟨[k], rfl, List.pairwise_singleton _ _, ?_⟩
    intro x hx
    obtain rfl := List.mem_singleton.mp hx
    exact ⟨0, Nat.le_refl 0, .root hget hr⟩
  | @link k k' r n hget hnext hrest ih =>
    obtain ⟨ks, hlength, hnodup, hks⟩ := ih
    refine ⟨k :: ks, by rw [List.length_cons, hlength], List.nodup_cons.mpr ⟨?_, hnodup⟩, ?_⟩
    · -- The keys of the rest are at most `n` links from the root, `k` is `n + 1`.
      intro hmem
      obtain ⟨m, hle, hm⟩ := hks k hmem
      have hlinks := unique hroot (.link hget hnext hrest) hm
      omega
    · intro x hx
      rcases List.mem_cons.mp hx with rfl | hx
      · exact ⟨n + 1, Nat.le_refl _, .link hget hnext hrest⟩
      · obtain ⟨m, hle, hm⟩ := hks x hx
        exact ⟨m, Nat.le_succ_of_le hle, hm⟩

/-- Chains inside a set of keys that is closed under `next` survive a change of the
store that keeps the records of these keys. -/
theorem transfer (kept : κ → Prop)
    (hkept : ∀ k r, kept k → get k = some r →
      get' k = some r ∧ ∀ k', next r = some k' → kept k')
    (h : Grounded get root next k n) (hk : kept k) : Grounded get' root next k n := by
  induction h with
  | root hget hr => exact .root (hkept _ _ hk hget).1 hr
  | link hget hnext _ ih =>
    obtain ⟨hget', hclosed⟩ := hkept _ _ hk hget
    exact .link hget' hnext (ih (hclosed _ hnext))

theorem extend (hsub : ∀ k r, get k = some r → get' k = some r)
    (h : Grounded get root next k n) : Grounded get' root next k n :=
  h.transfer (fun _ => True) (fun k r _ hget => ⟨hsub k r hget, fun _ _ => trivial⟩)
    trivial

end Grounded

end Lib
end Skyscale
