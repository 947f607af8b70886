import Skyscale.Lib.FinMap

/-!
# Maps that hold the same values

Two stores keep the same records under keys of their own: one under a string made of some
fields, the other under a tuple of them.  `Mirrors key key' m m'` says that the two maps hold
the same values, each under the key it makes of the value.  Operations that treat every value
alike, whatever its key, keep the maps that way:

* `Mirrors.map`: both rewrite their values by one function that leaves the keys;
* `Mirrors.filter`: both delete the values that fail one test;
* `Mirrors.set`: both store one value that neither has a value in the place of.

What is listed from one map is listed from the other, up to the order (`Mirrors.perm`).
-/

namespace Skyscale
namespace Lib

variable {κ κ' ν : Type} [DecidableEq κ] [DecidableEq κ']

/-- The maps hold the same values, each under the key it makes of the value. -/
structure Mirrors (key : ν → κ) (key' : ν → κ') (m : FinMap κ ν) (m' : FinMap κ' ν) : Prop where
  keyed : ∀ k v, m.get k = some v → key v = k
  keyed' : ∀ k v, m'.get k = some v → key' v = k
  same : ∀ v, m.get (key v) = some v ↔ m'.get (key' v) = some v

namespace Mirrors

variable {key : ν → κ} {key' : ν → κ'} {m n : FinMap κ ν} {m' n' : FinMap κ' ν}

theorem empty (key : ν → κ) (key' : ν → κ') : Mirrors key key' ∅ ∅ where
  keyed k v h := by cases h
  keyed' k v h := by cases h
  same v := by
    constructor
    · intro h
      cases h
    · intro h
      cases h

theorem mem_values (h : Mirrors key key' m m') {v : ν} : v ∈ m.values ↔ v ∈ m'.values := by
  rw [FinMap.mem_values_iff, FinMap.mem_values_iff]
  constructor
  · rintro ⟨k, hk⟩
    obtain rfl := h.keyed k v hk
    exact ⟨_, (h.same v).mp hk⟩
  · rintro ⟨k, hk⟩
    obtain rfl := h.keyed' k v hk
    exact ⟨_, (h.same v).mpr hk⟩

theorem nodup (h : Mirrors key key' m m') : m.values.Nodup := by
  refine List.Nodup.of_map key ?_
  rw [FinMap.map_values h.keyed]
  exact m.keys_nodup

theorem nodup' (h : Mirrors key key' m m') : m'.values.Nodup := by
  refine List.Nodup.of_map key' ?_
  rw [FinMap.map_values h.keyed']
  exact m'.keys_nodup

theorem perm (h : Mirrors key key' m m') : m.values.Perm m'.values :=
  (List.perm_ext_iff_of_nodup h.nodup h.nodup').mpr fun _ => h.mem_values

theorem map (h : Mirrors key key' m m') {g : ν → ν} (hkey : ∀ v, key (g v) = key v)
    (hkey' : ∀ v, key' (g v) = key' v) (hn : ∀ k, n.get k = (m.get k).map g)
    (hn' : ∀ k, n'.get k = (m'.get k).map g) : Mirrors key key' n n' := by
  refine ⟨fun k v hv => ?_, fun k v hv => ?_, fun v => ?_⟩
  · rw [hn] at hv
    obtain ⟨v0, hv0, rfl⟩ := Option.map_eq_some_iff.mp hv
    rw [hkey]
    exact h.keyed k v0 hv0
  · rw [hn'] at hv
    obtain ⟨v0, hv0, rfl⟩ := Option.map_eq_some_iff.mp hv
    rw [hkey']
    exact h.keyed' k v0 hv0
  · rw [hn, hn', Option.map_eq_some_iff, Option.map_eq_some_iff]
    constructor
    · rintro ⟨v0, hv0, rfl⟩
      rw [hkey] at hv0
      rw [hkey']
      exact ⟨v0, (h.same v0).mp hv0, rfl⟩
    · rintro ⟨v0, hv0, rfl⟩
      rw [hkey'] at hv0
      rw [hkey]
      exact ⟨v0, (h.same v0).mpr hv0, rfl⟩

theorem filter (h : Mirrors key key' m m') (p : ν → Bool) :
    Mirrors key key' (m.keep p) (m'.keep p) := by
  refine ⟨fun k v hv => ?_, fun k v hv => ?_, fun v => ?_⟩
  · rw [FinMap.get_keep, Option.filter_eq_some_iff] at hv
    exact h.keyed k v hv.1
  · rw [FinMap.get_keep, Option.filter_eq_some_iff] at hv
    exact h.keyed' k v hv.1
  · rw [FinMap.get_keep, FinMap.get_keep, Option.filter_eq_some_iff, Option.filter_eq_some_iff,
      h.same v]

/-- Both maps store one value, neither replacing another. -/
theorem set (h : Mirrors key key' m m') {v : ν} (hm : m.get (key v) = none)
    (hm' : m'.get (key' v) = none) : Mirrors key key' (m.set (key v) v) (m'.set (key' v) v) := by
  refine ⟨fun k u hu => ?_, fun k u hu => ?_, fun u => ?_⟩
  · obtain ⟨hk, rfl⟩ | ⟨_, hu⟩ := FinMap.get_set_cases hu
    · exact hk.symm
    · exact h.keyed k u hu
  · obtain ⟨hk, rfl⟩ | ⟨_, hu⟩ := FinMap.get_set_cases hu
    · exact hk.symm
    · exact h.keyed' k u hu
  · by_cases huv : u = v
    · subst huv
      rw [FinMap.get_set_self, FinMap.get_set_self]
    · -- a value under the new key would have been there before
      have hold : (m.set (key v) v).get (key u) = some u ↔ m.get (key u) = some u := by
        rw [FinMap.get_set]
        split
        · rename_i hk
          rw [hk, hm]
          exact ⟨fun hs => absurd (Option.some.inj hs).symm huv, fun hs => (by cases hs)⟩
        · exact Iff.rfl
      have hold' : (m'.set (key' v) v).get (key' u) = some u ↔ m'.get (key' u) = some u := by
        rw [FinMap.get_set]
        split
        · rename_i hk
          rw [hk, hm']
          exact ⟨fun hs => absurd (Option.some.inj hs).symm huv, fun hs => (by cases hs)⟩
        · exact Iff.rfl
      rw [hold, hold', h.same u]

end Mirrors

end Lib
end Skyscale
