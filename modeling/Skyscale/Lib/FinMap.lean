import Mathlib.Data.List.AList
import Mathlib.Data.List.Perm.Subperm

/-!
# Finite maps

Built-in map types are modelled by association lists without duplicate keys.
The carrier is `AList` from Mathlib; this module fixes a non-dependent value
type and gives the operations a language map offers:

* `get` returns `none` where the language returns the zero value or `nil`;
* `set` and `del` are assignment and deletion;
* `keys` is one enumeration of the domain, and an iteration order of the map is
  any permutation of it;
* `mapVal` is a loop that rewrites every value in place, `keep` one that deletes the
  entries whose value fails a test;
* `collect` is a loop that appends each element to the list under its key;
* `modifyWhere` writes through the pointer stored under a key, which panics where
  there is none; folding it over a list of keys is a loop of such writes.

Lookups characterize every operation, so later proofs never unfold the carrier.
-/

namespace Skyscale
namespace Lib

/-- A finite map from `κ` to `ν`. -/
def FinMap (κ ν : Type) : Type := AList (fun _ : κ => ν)

namespace FinMap

variable {κ ν μ : Type}

/-- The map without entries. -/
def empty : FinMap κ ν := (∅ : AList (fun _ : κ => ν))

instance : EmptyCollection (FinMap κ ν) := ⟨empty⟩

instance : Inhabited (FinMap κ ν) := ⟨empty⟩

instance [DecidableEq κ] [DecidableEq ν] : DecidableEq (FinMap κ ν) := fun m m' =>
  decidable_of_iff (AList.entries m = AList.entries m') AList.ext_iff.symm

/-- The domain, listed in the order the entries are stored. -/
def keys (m : FinMap κ ν) : List κ := AList.keys m

/-- The number of entries. -/
def size (m : FinMap κ ν) : Nat := m.keys.length

/-- Rewrite every value in place. -/
def mapVal (f : κ → ν → μ) (m : FinMap κ ν) : FinMap κ μ :=
  (⟨(AList.entries m).map (Sigma.map id f),
    List.NodupKeys.map₂ f _ (AList.nodupKeys m)⟩ : AList (fun _ : κ => μ))

/-- Delete the entries whose value fails a test. -/
def keep (p : ν → Bool) (m : FinMap κ ν) : FinMap κ ν :=
  (⟨(AList.entries m).filter fun e => p e.2,
    (AList.nodupKeys m).sublist List.filter_sublist⟩ : AList (fun _ : κ => ν))

/-- The stored values, in the order of the entries. -/
def values (m : FinMap κ ν) : List ν := (AList.entries m).map Sigma.snd

@[simp]
theorem keys_empty : (∅ : FinMap κ ν).keys = [] := rfl

theorem keys_nodup (m : FinMap κ ν) : m.keys.Nodup := AList.keys_nodup m

section Lookup

variable [DecidableEq κ]

/-- The value stored under a key. -/
def get (m : FinMap κ ν) (k : κ) : Option ν := AList.lookup k m

/-- Store a value under a key, replacing any previous one. -/
def set (m : FinMap κ ν) (k : κ) (v : ν) : FinMap κ ν := AList.insert k v m

/-- Remove a key. -/
def del (m : FinMap κ ν) (k : κ) : FinMap κ ν := AList.erase k m

/-- A map literal: later entries replace earlier ones. -/
def ofList (entries : List (κ × ν)) : FinMap κ ν :=
  entries.foldl (fun m e => m.set e.1 e.2) ∅

/-- The value under a key, or the zero value of the value type. -/
def getD (m : FinMap κ ν) (k : κ) (zero : ν) : ν := (m.get k).getD zero

/-- Write through the pointer stored under a key, if `touch` selects the key.  The
result is `none` when there is no pointer to write through. -/
def modifyWhere (touch : κ → Bool) (f : ν → ν) (m : FinMap κ ν) (k : κ) :
    Option (FinMap κ ν) :=
  if touch k then (m.get k).map fun v => m.set k (f v) else some m

variable {m : FinMap κ ν} {k : κ}

theorem mem_keys_iff : k ∈ m.keys ↔ ∃ v, m.get k = some v := by
  rw [← Option.isSome_iff_exists]
  exact (AList.lookup_isSome (s := m) (a := k)).symm

theorem mem_keys_of_get {v : ν} (h : m.get k = some v) :
    k ∈ m.keys :=
  mem_keys_iff.mpr ⟨v, h⟩

theorem get_eq_none_iff : m.get k = none ↔ k ∉ m.keys :=
  AList.lookup_eq_none (s := m) (a := k)

@[grind =]
theorem get_set (m : FinMap κ ν) (k k' : κ) (v : ν) :
    (m.set k v).get k' = if k' = k then some v else m.get k' := by
  by_cases h : k' = k
  · subst h
    rw [if_pos rfl]
    exact AList.lookup_insert m
  · rw [if_neg h]
    exact AList.lookup_insert_ne h

@[simp]
theorem get_set_self (m : FinMap κ ν) (k : κ) (v : ν) : (m.set k v).get k = some v := by
  rw [get_set, if_pos rfl]

theorem get_set_ne (m : FinMap κ ν) {k' : κ} (v : ν) (h : k' ≠ k) :
    (m.set k v).get k' = m.get k' := by
  rw [get_set, if_neg h]

/-- An entry of an updated map is the one just written, or an older one of another key. -/
theorem get_set_cases {k' : κ} {u v : ν} (h : (m.set k v).get k' = some u) :
    (k' = k ∧ u = v) ∨ (k' ≠ k ∧ m.get k' = some u) := by
  rw [get_set] at h
  split at h
  · rename_i hk
    exact .inl ⟨hk, (Option.some.inj h).symm⟩
  · rename_i hk
    exact .inr ⟨hk, h⟩

@[grind =]
theorem get_del (m : FinMap κ ν) (k k' : κ) :
    (m.del k).get k' = if k' = k then none else m.get k' := by
  by_cases h : k' = k
  · subst h
    rw [if_pos rfl]
    exact AList.lookup_erase k' m
  · rw [if_neg h]
    exact AList.lookup_erase_ne h

theorem get_del_self (m : FinMap κ ν) (k : κ) : (m.del k).get k = none := by
  rw [get_del, if_pos rfl]

theorem get_del_ne (m : FinMap κ ν) {k' : κ} (h : k' ≠ k) : (m.del k).get k' = m.get k' := by
  rw [get_del, if_neg h]

@[simp, grind =]
theorem get_mapVal (f : κ → ν → μ) (m : FinMap κ ν) (k : κ) :
    (m.mapVal f).get k = (m.get k).map (f k) :=
  List.dlookup_map₂ (l := AList.entries m) (f := f) k

@[simp, grind =]
theorem mem_keys_set (m : FinMap κ ν) (k k' : κ) (v : ν) :
    k' ∈ (m.set k v).keys ↔ k' = k ∨ k' ∈ m.keys := by
  rw [mem_keys_iff, mem_keys_iff, get_set]
  by_cases h : k' = k <;> simp [h]

theorem mem_entries_iff {v : ν} :
    (⟨k, v⟩ : Sigma fun _ : κ => ν) ∈ AList.entries m ↔ m.get k = some v :=
  AList.mem_lookup_iff.symm

theorem mem_values_iff {v : ν} : v ∈ m.values ↔ ∃ k, m.get k = some v := by
  constructor
  · intro h
    obtain ⟨⟨k, v'⟩, hmem, rfl⟩ := List.mem_map.mp h
    exact ⟨k, mem_entries_iff.mp hmem⟩
  · rintro ⟨k, hk⟩
    exact List.mem_map.mpr ⟨⟨k, v⟩, mem_entries_iff.mpr hk, rfl⟩

theorem map_values {f : ν → κ} (h : ∀ k v, m.get k = some v → f v = k) :
    m.values.map f = m.keys := by
  rw [values, List.map_map]
  refine List.map_congr_left fun entry hentry => ?_
  exact h entry.1 entry.2 (mem_entries_iff.mp hentry)

theorem values_set (m : FinMap κ ν) (k : κ) (v : ν) :
    (m.set k v).values = v :: (m.del k).values := rfl

theorem values_perm_del {v : ν} (h : m.get k = some v) :
    m.values.Perm (v :: (m.del k).values) := by
  obtain ⟨v', l1, l2, -, hentries, hdel⟩ := List.exists_of_kerase (mem_keys_of_get h)
  have hv' : m.get k = some v' := mem_entries_iff.mp (by rw [hentries]; simp)
  obtain rfl : v = v' := Option.some.inj (h.symm.trans hv')
  show ((AList.entries m).map Sigma.snd).Perm (v :: (List.kerase k (AList.entries m)).map Sigma.snd)
  rw [hdel, hentries, List.map_append, List.map_cons, List.map_append]
  exact List.perm_middle

theorem values_del_of_none (h : m.get k = none) :
    (m.del k).values = m.values := by
  show (List.kerase k (AList.entries m)).map Sigma.snd = _
  rw [List.kerase_of_notMem_keys (get_eq_none_iff.mp h)]
  rfl

@[simp, grind =]
theorem get_keep (p : ν → Bool) (m : FinMap κ ν) (k : κ) :
    (m.keep p).get k = (m.get k).filter p := by
  ext v
  rw [Option.filter_eq_some_iff, ← mem_entries_iff, ← mem_entries_iff]
  exact List.mem_filter

theorem get_of_modifyWhere {touch : κ → Bool} {f : ν → ν} {m' : FinMap κ ν}
    (h : m.modifyWhere touch f k = some m') (k' : κ) :
    m'.get k' = (m.get k').map fun v => if k' = k ∧ touch k then f v else v := by
  unfold modifyWhere at h
  by_cases htouch : touch k = true
  · rw [if_pos htouch] at h
    obtain ⟨v, hv, rfl⟩ := Option.map_eq_some_iff.mp h
    by_cases hk : k' = k
    · subst hk
      simp [hv, htouch]
    · simp [get_set, hk]
  · rw [if_neg htouch] at h
    obtain rfl := Option.some.inj h
    simp [htouch]

theorem get_of_foldlM_modifyWhere {touch : κ → Bool} {f : ν → ν} {ks : List κ} (hnodup : ks.Nodup)
    {m' : FinMap κ ν} (h : ks.foldlM (modifyWhere touch f) m = some m') (k' : κ) :
    m'.get k' = (m.get k').map fun v => if k' ∈ ks ∧ touch k' then f v else v := by
  induction ks generalizing m with
  | nil =>
    obtain rfl : m = m' := by simpa using h
    simp
  | cons k ks ih =>
    obtain ⟨hnotmem, hnodup⟩ := List.nodup_cons.mp hnodup
    rw [List.foldlM_cons] at h
    obtain ⟨m1, h1, hrest⟩ := Option.bind_eq_some_iff.mp h
    rw [ih hnodup hrest, get_of_modifyWhere h1, Option.map_map]
    congr 1
    funext v
    by_cases hk : k' = k
    · subst hk
      simp [hnotmem]
    · simp [hk]

theorem foldlM_modifyWhere_isSome (touch : κ → Bool) (f : ν → ν) {ks : List κ}
    (hmem : ∀ k ∈ ks, k ∈ m.keys) :
    ∃ m', ks.foldlM (modifyWhere touch f) m = some m' := by
  induction ks generalizing m with
  | nil => exact ⟨m, rfl⟩
  | cons k ks ih =>
    obtain ⟨v, hv⟩ := mem_keys_iff.mp (hmem k List.mem_cons_self)
    have hstep : ∃ m1, m.modifyWhere touch f k = some m1 := by
      unfold modifyWhere
      by_cases htouch : touch k = true
      · exact ⟨m.set k (f v), by simp [htouch, hv]⟩
      · exact ⟨m, by simp [htouch]⟩
    obtain ⟨m1, h1⟩ := hstep
    have hmem1 : ∀ k' ∈ ks, k' ∈ m1.keys := by
      intro k' hk'
      obtain ⟨v', hv'⟩ := mem_keys_iff.mp (hmem k' (List.mem_cons_of_mem k hk'))
      rw [mem_keys_iff, get_of_modifyWhere h1, hv']
      exact ⟨_, rfl⟩
    obtain ⟨m', hm'⟩ := ih hmem1
    refine ⟨m', ?_⟩
    rw [List.foldlM_cons, h1]
    exact hm'

end Lookup

/-- A map whose domain lies inside another domain of the same size has the same
domain: the comparison of two map sizes is sound only together with such an
inclusion. -/
theorem mem_keys_iff_of_size_eq {m : FinMap κ ν} {m' : FinMap κ μ}
    (hsub : ∀ k, k ∈ m.keys → k ∈ m'.keys) (hsize : m.size = m'.size) (k : κ) :
    k ∈ m.keys ↔ k ∈ m'.keys := by
  have hperm : m.keys.Perm m'.keys :=
    (List.subperm_of_subset m.keys_nodup hsub).perm_of_length_le (le_of_eq hsize.symm)
  exact hperm.mem_iff

theorem size_eq_of_mem_keys_iff {m : FinMap κ ν} {m' : FinMap κ μ}
    (h : ∀ k, k ∈ m.keys ↔ k ∈ m'.keys) : m.size = m'.size :=
  ((List.perm_ext_iff_of_nodup m.keys_nodup m'.keys_nodup).mpr h).length_eq

/-! ## Grouping -/

section Collect

variable [DecidableEq κ] (key : ν → κ)

/-- A loop that appends each element to the list of its key. -/
def collect (xs : List ν) : FinMap κ (List ν) :=
  xs.foldl (fun m x => m.set (key x) (m.getD (key x) [] ++ [x])) ∅

theorem getD_foldl_collect (xs : List ν) (m : FinMap κ (List ν)) (k : κ) :
    (xs.foldl (fun m x => m.set (key x) (m.getD (key x) [] ++ [x])) m).getD k [] =
      m.getD k [] ++ xs.filter fun x => decide (key x = k) := by
  induction xs generalizing m with
  | nil => simp
  | cons x xs ih =>
    rw [List.foldl_cons, ih]
    unfold getD
    rw [get_set]
    by_cases hk : key x = k
    · rw [List.filter_cons_of_pos (by simpa using hk), if_pos hk.symm, hk]
      simp
    · rw [List.filter_cons_of_neg (by simpa using hk), if_neg (Ne.symm hk)]

theorem getD_collect (xs : List ν) (k : κ) :
    (collect key xs).getD k [] = xs.filter fun x => decide (key x = k) := by
  unfold collect
  rw [getD_foldl_collect]
  rfl

theorem mem_keys_foldl_collect (xs : List ν) (m : FinMap κ (List ν)) (k : κ) :
    k ∈ (xs.foldl (fun m x => m.set (key x) (m.getD (key x) [] ++ [x])) m).keys ↔
      k ∈ m.keys ∨ ∃ x ∈ xs, key x = k := by
  induction xs generalizing m with
  | nil => simp
  | cons x xs ih =>
    rw [List.foldl_cons, ih, mem_keys_set]
    simp only [List.mem_cons, exists_eq_or_imp, eq_comm (a := k)]
    tauto

theorem mem_keys_collect (xs : List ν) (k : κ) :
    k ∈ (collect key xs).keys ↔ ∃ x ∈ xs, key x = k := by
  unfold collect
  rw [mem_keys_foldl_collect]
  simp

end Collect

/-! ## Restrictions -/

section Keep

variable {p q : ν → Bool} {m : FinMap κ ν} {k : κ} {v : ν}

theorem entries_keep : AList.entries (m.keep p) = (AList.entries m).filter fun e => p e.2 := rfl

theorem keep_mapVal {f : ν → ν} (hf : ∀ v, p (f v) = p v) :
    (m.mapVal fun _ v => f v).keep p = (m.keep p).mapVal fun _ v => f v := by
  refine AList.ext ?_
  show List.filter _ (List.map _ (AList.entries m)) = List.map _ (List.filter _ (AList.entries m))
  rw [List.filter_map]
  congr 1
  exact List.filter_congr fun e _ => hf e.2

theorem keep_congr (h : ∀ v ∈ m.values, p v = q v) : m.keep p = m.keep q := by
  refine AList.ext ?_
  rw [entries_keep, entries_keep]
  exact List.filter_congr fun e he => h e.2 (List.mem_map_of_mem he)

theorem keep_comm : (m.keep p).keep q = (m.keep q).keep p := by
  refine AList.ext ?_
  rw [entries_keep, entries_keep, entries_keep, entries_keep, List.filter_comm]

theorem values_keep : (m.keep p).values = m.values.filter p := by
  show List.map _ (List.filter _ (AList.entries m)) = List.filter _ (List.map _ (AList.entries m))
  rw [List.filter_map]
  rfl

theorem size_keep : (m.keep p).size = (m.values.filter p).length := by
  have hsize : (m.keep p).size = (m.keep p).values.length := by
    show (List.map _ _).length = (List.map _ _).length
    rw [List.length_map, List.length_map]
  rw [hsize, values_keep]

variable [DecidableEq κ]

theorem entries_set : AList.entries (m.set k v) = ⟨k, v⟩ :: AList.entries (m.del k) := rfl

theorem entries_del (m : FinMap κ ν) (k : κ) :
    AList.entries (m.del k) = (AList.entries m).filter fun e => decide (e.1 ≠ k) := by
  show List.kerase k (AList.entries m) = _
  by_cases hk : k ∈ m.keys
  · obtain ⟨v, l1, l2, hfirst, hentries, hdel⟩ := List.exists_of_kerase hk
    have hnodup := AList.nodupKeys m
    rw [hentries, List.NodupKeys, List.keys, List.map_append, List.map_cons] at hnodup
    have hlast : k ∉ l2.keys := by
      intro hmem
      exact (List.nodup_cons.mp (List.nodup_append.mp hnodup).2.1).1 hmem
    have hkept : ∀ l : List (Sigma fun _ : κ => ν), k ∉ l.keys →
        l.filter (fun e => decide (e.1 ≠ k)) = l := by
      intro l hl
      refine List.filter_eq_self.mpr fun e he => decide_eq_true ?_
      rintro rfl
      exact hl (List.mem_map_of_mem he)
    rw [hdel, hentries, List.filter_append, List.filter_cons_of_neg (by simp), hkept l1 hfirst,
      hkept l2 hlast]
  · rw [List.kerase_of_notMem_keys hk]
    refine (List.filter_eq_self.mpr fun e he => decide_eq_true ?_).symm
    rintro rfl
    exact hk (List.mem_map_of_mem he)

theorem keep_set (hv : p v = true) : (m.set k v).keep p = (m.keep p).set k v := by
  refine AList.ext ?_
  have hfirst : ∀ l : List (Sigma fun _ : κ => ν),
      (⟨k, v⟩ :: l).filter (fun e => p e.2) = ⟨k, v⟩ :: l.filter fun e => p e.2 :=
    fun l => List.filter_cons_of_pos hv
  rw [entries_keep, entries_set, entries_set, hfirst, entries_del, entries_del, entries_keep,
    List.filter_comm]

theorem keep_set_of_not (hv : p v = false) (hold : ∀ u, m.get k = some u → p u = false) :
    (m.set k v).keep p = m.keep p := by
  refine AList.ext ?_
  have hfirst : ∀ l : List (Sigma fun _ : κ => ν),
      (⟨k, v⟩ :: l).filter (fun e => p e.2) = l.filter fun e => p e.2 :=
    fun l => List.filter_cons_of_neg (by rw [hv]; nofun)
  rw [entries_keep, entries_keep, entries_set, hfirst, entries_del, List.filter_filter]
  refine List.filter_congr fun e he => ?_
  by_cases hk : e.1 = k
  · have hrow : m.get k = some e.2 := mem_entries_iff.mp (hk ▸ he)
    rw [hold e.2 hrow, Bool.false_and]
  · rw [decide_eq_true hk, Bool.and_true]

theorem keys_keep : (m.keep p).keys = m.keys.filter fun k => (m.get k).any p := by
  show List.map _ (List.filter _ (AList.entries m)) = List.filter _ (List.map _ (AList.entries m))
  rw [List.filter_map]
  congr 1
  refine List.filter_congr fun e he => ?_
  have hrow : m.get e.1 = some e.2 := mem_entries_iff.mp he
  show p e.2 = (m.get e.1).any p
  rw [hrow]
  rfl

end Keep

end FinMap

end Lib
end Skyscale
