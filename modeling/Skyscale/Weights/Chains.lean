import Skyscale.Lib.Chain
import Skyscale.Weights.Soundness

/-!
# Delta chains

A delta publication can only be materialized while its parent, the parent's parent,
and so on down to a full publication are still there.  `Publish` checks the parent
once; afterwards only `GarbageCollect` can remove it.

`GarbageCollect` protects in two ways: it follows the parents of the active, last
good, engine and newest versions (`retained`), and it skips publications in flight.
The second rule does not follow parents.  A delta in flight whose parent is neither
in flight nor retained loses it (`collected_parent`).  `ParentsProtected` is the
condition on collections that excludes this case; in every history that meets it
all chains stay complete (`delta_chains_complete`).
-/

namespace Skyscale
namespace Weights

open Lib

/-! ## Following parents -/

section RetainChain

variable {publications : FinMap String DurablePublication}

/-- The parents of the kept publications are kept, except possibly `pending`. -/
def ParentClosed (publications : FinMap String DurablePublication) (pending : String)
    (keep : List String) : Prop :=
  ∀ v ∈ keep, ∀ p, publications.get v = some p → p.manifest.parentVersion ≠ "" →
    p.manifest.parentVersion ∈ keep ∨ p.manifest.parentVersion = pending

/-- The published versions that are not kept yet: what bounds the recursion of
`retainChain`. -/
def unkept (publications : FinMap String DurablePublication) (keep : List String) :
    List String :=
  publications.keys.filter fun v => v ∉ keep

theorem unkept_cons_lt {version : String} {keep : List String}
    (hmem : version ∈ publications.keys) (hnew : version ∉ keep) :
    (unkept publications (version :: keep)).length < (unkept publications keep).length := by
  have hfilter : unkept publications (version :: keep) =
      (unkept publications keep).filter fun v => v ≠ version := by
    unfold unkept
    rw [List.filter_filter]
    apply List.filter_congr
    intro v _
    simp [not_or]
  rw [hfilter, List.length_filter_lt_length_iff_exists]
  exact ⟨version, by simp [unkept, hmem, hnew], by simp⟩

/-- With enough fuel `retainChain` leaves nothing pending. -/
theorem parentClosed_retainChain {fuel : Nat} {version : String} {keep : List String}
    (hclosed : ParentClosed publications version keep)
    (hfuel : (unkept publications keep).length < fuel) :
    ParentClosed publications "" (retainChain publications fuel version keep) := by
  induction fuel generalizing version keep with
  | zero => exact absurd hfuel (Nat.not_lt_zero _)
  | succ fuel ih =>
    unfold retainChain
    split
    · rename_i hdone
      intro v hv p hp hparent
      rcases hclosed v hv p hp hparent with hmem | hpending
      · exact .inl hmem
      · rcases hdone with hblank | hmem
        · exact .inr (hpending.trans hblank)
        · exact .inl (hpending ▸ hmem)
    · rename_i hdone
      split
      · rename_i hnone
        intro v hv p hp hparent
        rcases List.mem_cons.mp hv with rfl | hv
        · rw [hnone] at hp
          cases hp
        · rcases hclosed v hv p hp hparent with hmem | hpending
          · exact .inl (List.mem_cons_of_mem version hmem)
          · exact .inl (hpending ▸ List.mem_cons_self)
      · rename_i q hq
        apply ih
        · intro v hv p hp hparent
          rcases List.mem_cons.mp hv with rfl | hv
          · obtain rfl := Option.some.inj (hq.symm.trans hp)
            exact .inr rfl
          · rcases hclosed v hv p hp hparent with hmem | hpending
            · exact .inl (List.mem_cons_of_mem version hmem)
            · exact .inl (hpending ▸ List.mem_cons_self)
        · have hlt := unkept_cons_lt (FinMap.mem_keys_of_get hq) (not_or.mp hdone).2
          omega

end RetainChain

variable {s : RunState} {v : String} {s' : RunState}

theorem parent_mem_retained {n : Int} {orders : CollectOrders} {p : DurablePublication}
    (hv : v ∈ retained s n orders) (hp : s.publications.get v = some p)
    (hparent : p.manifest.parentVersion ≠ "") :
    p.manifest.parentVersion ∈ retained s n orders := by
  have hfold : ∀ (roots keep : List String), ParentClosed s.publications "" keep →
      ParentClosed s.publications "" (roots.foldl (fun keep version =>
        retainChain s.publications (s.publications.size + 1) version keep) keep) := by
    intro roots
    induction roots with
    | nil => exact fun keep hkeep => hkeep
    | cons root roots ih =>
      intro keep hkeep
      apply ih
      apply parentClosed_retainChain
      · intro v hv p hp hparent
        rcases hkeep v hv p hp hparent with hmem | hblank
        · exact .inl hmem
        · exact absurd hblank hparent
      · have hle := List.length_filter_le (fun v => decide (v ∉ keep)) s.publications.keys
        exact Nat.lt_succ_of_le hle
  have hclosed : ParentClosed s.publications "" (retained s n orders) :=
    hfold _ [] fun v hv => by cases hv
  rcases hclosed v hv p hp hparent with hmem | hblank
  · exact hmem
  · exact absurd hblank hparent

/-! ## The invariant -/

/-- The version a delta is based on. -/
def Manifest.base (m : Manifest) : Option String :=
  if m.format = "delta" then some m.parentVersion else none

/-- Following parents through delta publications from `v` reaches a full publication
after `n` steps. -/
def ReachesFull (s : RunState) : String → Nat → Prop :=
  Grounded s.manifestOf (fun m => m.format = "full") Manifest.base

theorem base_of_full (m : Manifest) (h : m.format = "full") : m.base = none := by
  unfold Manifest.base
  rw [h, if_neg (by decide)]

theorem base_of_delta {m : Manifest} (h : m.format = "delta") :
    m.base = some m.parentVersion := if_pos h

theorem delta_of_base {m : Manifest} (h : m.base = some v) :
    m.format = "delta" ∧ m.parentVersion = v := by
  unfold Manifest.base at h
  split at h
  · rename_i hdelta
    exact ⟨hdelta, Option.some.inj h⟩
  · cases h

/-- Every publication has a complete chain. -/
def Chained (s : RunState) : Prop :=
  ∀ v p, s.publications.get v = some p → ∃ n, ReachesFull s v n

theorem chained_empty (runID : String) : Chained (RunState.empty runID) := by
  intro v p h
  cases h

theorem manifestOf_of_get {p : DurablePublication} (h : s.publications.get v = some p) :
    s.manifestOf v = some p.manifest := by
  unfold RunState.manifestOf
  rw [h]
  rfl

theorem get_of_manifestOf {m : Manifest} (h : s.manifestOf v = some m) :
    ∃ p, s.publications.get v = some p ∧ p.manifest = m :=
  Option.map_eq_some_iff.mp h

/-! ## Effects and acknowledgements keep chains -/

theorem ReachesFull.extend
    (hkept : ∀ v p, s.publications.get v = some p → ∃ p', s'.publications.get v = some p' ∧
      p'.manifest = p.manifest) {n : Nat} (h : ReachesFull s v n) : ReachesFull s' v n := by
  refine Grounded.extend ?_ h
  intro u m hm
  obtain ⟨p, hp, rfl⟩ := get_of_manifestOf hm
  obtain ⟨p', hp', hmanifest⟩ := hkept u p hp
  rw [← hmanifest]
  exact manifestOf_of_get hp'

theorem Effect.chained (h : Effect s s') (hs : Chained s) : Chained s' := by
  have hkept : ∀ v p, s.publications.get v = some p →
      ∃ p', s'.publications.get v = some p' ∧ p'.manifest = p.manifest := by
    intro v p hp
    obtain ⟨p', hp', hrewrite⟩ := h.present hp
    exact ⟨p', hp', hrewrite.manifest⟩
  intro v p' hp'
  rcases h.publication hp' with ⟨p, hp, -⟩ | hfresh
  · obtain ⟨n, hn⟩ := hs v p hp
    exact ⟨n, hn.extend hkept⟩
  · rcases hfresh.format with hfull | hdelta
    · exact ⟨0, .root (manifestOf_of_get hp') hfull⟩
    · obtain ⟨parent, hparent⟩ := hfresh.parent hdelta
      obtain ⟨q, hq, -⟩ := get_of_manifestOf hparent
      obtain ⟨n, hn⟩ := hs _ q hq
      exact ⟨n + 1, .link (manifestOf_of_get hp') (base_of_delta hdelta) (hn.extend hkept)⟩

theorem Recorded.chained {e c : String} {now : Time} (h : Recorded s e v c now s')
    (hs : Chained s) : Chained s' := by
  intro u q' hq'
  obtain ⟨q, hq, -⟩ := h.publication hq'
  obtain ⟨n, hn⟩ := hs u q hq
  refine ⟨n, hn.extend ?_⟩
  intro x p hp
  obtain ⟨p', hp'⟩ := h.present hp
  obtain ⟨p0, hp0, hmanifest, -⟩ := h.publication hp'
  obtain rfl := Option.some.inj (hp.symm.trans hp0)
  exact ⟨p', hp', hmanifest⟩

/-! ## Collections -/

/-- The condition on collections: the parent of every delta in flight is itself in
flight, or on a retained chain. -/
def ParentsProtected {σ : Type} (runID : String) (s : RunState) : Call σ → Prop
  | .garbageCollect r n orders =>
    r = runID → ∀ v p parent, s.publications.get v = some p → p.state.inFlight →
      p.manifest.format = "delta" →
      s.publications.get p.manifest.parentVersion = some parent →
      parent.state.inFlight ∨ p.manifest.parentVersion ∈ retained s n orders
  | _ => True

theorem Collected.chained {σ : Type} {runID : String} {n : Int} {orders : CollectOrders}
    (h : Collected s n orders s') (hnamed : s.publications.get "" = none) (hs : Chained s)
    (hprotected : ParentsProtected (σ := σ) runID s (.garbageCollect runID n orders)) :
    Chained s' := by
  obtain ⟨publications, rfl, hget⟩ := h
  -- What survives is closed under the parents of deltas.
  let survives : String → Prop := fun v =>
    ∃ p, s.publications.get v = some p ∧ (v ∈ retained s n orders ∨ p.state.inFlight)
  have hsurvives : ∀ v m, survives v → s.manifestOf v = some m →
      RunState.manifestOf { s with publications := publications } v = some m ∧
        ∀ v', m.base = some v' → survives v' := by
    rintro v m ⟨p, hp, hkept⟩ hm
    obtain rfl : p.manifest = m := Option.some.inj ((manifestOf_of_get hp).symm.trans hm)
    refine ⟨manifestOf_of_get (s := { s with publications := publications })
      ((hget v p).mpr ⟨hp, hkept⟩), ?_⟩
    intro v' hbase
    obtain ⟨hdelta, rfl⟩ := delta_of_base hbase
    obtain ⟨k, hk⟩ := hs v p hp
    obtain ⟨k', -, hk'⟩ := hk.of_next base_of_full (manifestOf_of_get hp) hbase
    obtain ⟨m', hm'⟩ := hk'.present
    obtain ⟨parent, hparent, -⟩ := get_of_manifestOf hm'
    refine ⟨parent, hparent, ?_⟩
    rcases hkept with hretained | hflight
    · have hne : p.manifest.parentVersion ≠ "" := by
        intro hblank
        rw [hblank, hnamed] at hparent
        cases hparent
      exact .inl (parent_mem_retained hretained hp hne)
    · exact (hprotected rfl v p parent hp hflight hdelta hparent).symm
  intro v p hp
  obtain ⟨hold, hkept⟩ := (hget v p).mp hp
  obtain ⟨k, hk⟩ := hs v p hold
  exact ⟨k, Grounded.transfer survives hsurvives hk ⟨p, hold, hkept⟩⟩

/-! ## Materializing along a chain -/

section Materialization

variable {σ : Type} (A : ArtifactStore σ) (checksum : Bytes → String)

/-- The errors that a broken chain, or the bound on the recursion, would cause. -/
def MaterializeError.ofChain : MaterializeError → Bool
  | parentCycle | notFound _ | outOfFuel => true
  | fetch _ | artifactChecksum | deltaSize | resultChecksum | put _ => false

/-- A result that is not one of these errors. -/
def ChainIntact (out : Except MaterializeError Bytes) : Prop :=
  ∀ e, out = .error e → e.ofChain = false

theorem chainIntact_storeMaterialized (version : String) (p : DurablePublication)
    (result : Bytes) (s : RunState) (a : σ) :
    ChainIntact (storeMaterialized A checksum version p result s a).1 := by
  unfold storeMaterialized
  split
  · rintro e ⟨⟩
    rfl
  · split
    · rintro e ⟨⟩
      rfl
    · rintro e ⟨⟩

/-- Materializing a version with a complete chain never meets a missing version or
a cycle, given fuel beyond the length of the chain. -/
theorem chainIntact_materializeLocked {fuel : Nat} {version : String} {visiting : List String}
    {s : RunState} {n : Nat} (a : σ) (hreaches : ReachesFull s version n)
    (hvisiting : ∀ u ∈ visiting, ∃ k, n < k ∧ ReachesFull s u k) (hfuel : n < fuel) :
    ChainIntact (materializeLocked A checksum fuel version visiting s a).1 := by
  induction fuel generalizing version visiting n a with
  | zero => exact absurd hfuel (Nat.not_lt_zero _)
  | succ fuel ih =>
    unfold materializeLocked
    split
    · -- A version being visited is strictly farther from its root.
      rename_i hmem
      obtain ⟨k, hlt, hk⟩ := hvisiting version hmem
      exact absurd (hreaches.unique base_of_full hk) (Nat.ne_of_lt hlt)
    split
    · rename_i hnone
      obtain ⟨m, hm⟩ := hreaches.present
      obtain ⟨p, hp, -⟩ := get_of_manifestOf hm
      rw [hnone] at hp
      cases hp
    rename_i p hp
    split
    · rintro e ⟨⟩
    split
    · rintro e ⟨⟩
      rfl
    split
    · rintro e ⟨⟩
      rfl
    split
    · rename_i a' _ _ hdelta
      obtain ⟨k, rfl, hk⟩ := hreaches.of_next base_of_full (manifestOf_of_get hp)
        (base_of_delta hdelta)
      have hdeeper : ∀ u ∈ version :: visiting, ∃ j, k < j ∧ ReachesFull s u j := by
        intro u hu
        rcases List.mem_cons.mp hu with rfl | hu
        · exact ⟨k + 1, Nat.lt_succ_self k, hreaches⟩
        · obtain ⟨j, hlt, hj⟩ := hvisiting u hu
          exact ⟨j, Nat.lt_of_succ_lt hlt, hj⟩
      have hchain := ih a' hk hdeeper (Nat.lt_of_succ_lt_succ hfuel)
      split
      · rename_i hrec
        rw [hrec] at hchain
        exact hchain
      · split
        · rintro e ⟨⟩
          rfl
        · exact chainIntact_storeMaterialized A checksum _ _ _ _ _
    · exact chainIntact_storeMaterialized A checksum _ _ _ _ _

theorem ReachesFull.lt_size {s : RunState} {v : String} {n : Nat} (h : ReachesFull s v n) :
    n < s.publications.size := by
  obtain ⟨ks, hlength, hnodup, hks⟩ := Grounded.exists_keys base_of_full h
  have hsub : ks ⊆ s.publications.keys := by
    intro x hx
    obtain ⟨m, -, hm⟩ := hks x hx
    obtain ⟨manifest, hmanifest⟩ := hm.present
    obtain ⟨p, hp, -⟩ := get_of_manifestOf hmanifest
    exact FinMap.mem_keys_of_get hp
  have hle := (List.subperm_of_subset hnodup hsub).length_le
  rw [hlength] at hle
  exact hle

end Materialization

section Histories

variable {σ : Type}

theorem Saves.chained {A : ArtifactStore σ} {checksum : Bytes → String} {runID : String}
    {s s' : RunState} {call : Call σ} (h : Saves A checksum runID s call s') (hsound : Sound s)
    (hs : Chained s) (hprotected : ParentsProtected runID s call) : Chained s' := by
  rcases h.cases with h | ⟨n, orders, hcall, h⟩ | ⟨e, v, c, now, -, h⟩
  · exact h.invariant hs fun _ _ ha hab => hab.chained ha
  · rw [hcall] at hprotected
    exact h.chained hsound.named hs hprotected
  · exact h.chained hs

theorem chained_of_run {A : ArtifactStore σ} {checksum : Bytes → String} {artifacts : σ}
    {requests : List (Request σ)} {w : World σ}
    (hrun : Run (Guarded (Step A checksum) (OnRuns ParentsProtected)) (World.initial artifacts)
      requests w) (runID : String) : Chained (w.run runID) := by
  have hboth := run_invariant ParentsProtected (I := fun s => Sound s ∧ Chained s)
    (fun runID => ⟨sound_empty runID, chained_empty runID⟩)
    (fun _ _ _ _ hs _ hguard hsaves => ⟨hsaves.sound hs.1, hsaves.chained hs.1 hs.2 hguard⟩)
    hrun runID
  exact hboth.2

/-- In every history of the service in which each collection finds the parents of
deltas in flight protected: every delta publication has its parent, its chain
reaches a full publication, and materializing it fails neither with a missing
version nor with a parent cycle, nor for lack of fuel, whatever the artifact store
does. -/
theorem delta_chains_complete (A : ArtifactStore σ) (checksum : Bytes → String) (artifacts : σ)
    (requests : List (Request σ)) (w : World σ)
    (hrun : Run (Guarded (Step A checksum) (OnRuns ParentsProtected)) (World.initial artifacts)
      requests w) (runID v : String) (p : DurablePublication)
    (hp : (w.run runID).publications.get v = some p) (hdelta : p.manifest.format = "delta") :
    (∃ parent, (w.run runID).publications.get p.manifest.parentVersion = some parent) ∧
    (∃ n, ReachesFull (w.run runID) v n) ∧
    ∀ a, ChainIntact (materializeLocked A checksum ((w.run runID).publications.size + 1) v []
      (w.run runID) a).1 := by
  obtain ⟨n, hn⟩ := chained_of_run hrun runID v p hp
  refine ⟨?_, ⟨n, hn⟩, ?_⟩
  · obtain ⟨m, -, hm⟩ := hn.of_next base_of_full (manifestOf_of_get hp) (base_of_delta hdelta)
    obtain ⟨manifest, hmanifest⟩ := hm.present
    obtain ⟨parent, hparent, -⟩ := get_of_manifestOf hmanifest
    exact ⟨parent, hparent⟩
  · intro a
    exact chainIntact_materializeLocked A checksum a hn (fun u hu => by cases hu)
      (Nat.lt_succ_of_lt hn.lt_size)

end Histories

namespace Trial

def deltaPair : Calls :=
  [.publish (manifest "v0" "full" "") [] 1 0, .publish (manifest "v1" "delta" "v0") [] 100 0]

def collection : Calls :=
  [.expire "run" 10 ["v1", "v0"], .garbageCollect "run" 0 ⟨[], ["v1", "v0"], ["v1", "v0"]⟩]

/-- `v0` is in flight still when the collection removes the version before it. -/
def collectedBefore : Calls :=
  [.publish (manifest "old" "full" "") [] 1 0, .publish (manifest "v0" "full" "") [] 100 0,
    .publish (manifest "v1" "delta" "v0") [] 100 0, .expire "run" 10 ["v1", "v0", "old"],
    .garbageCollect "run" 0 ⟨[], ["v1", "v0", "old"], ["v1", "v0", "old"]⟩]

/-- The parents of all deltas are in flight. -/
def parentsInFlight (w : World (FinMap String Bytes)) : Call (FinMap String Bytes) → Bool
  | .garbageCollect r _ _ =>
    (w.run r).publications.values.all fun p => p.manifest.format ≠ "delta" ||
      ((w.run r).publications.get p.manifest.parentVersion).all fun parent => parent.state.inFlight
  | _ => true

theorem parentsProtected_of_inFlight (w : World (FinMap String Bytes))
    (call : Call (FinMap String Bytes)) (h : parentsInFlight w call) (runID : String) :
    ParentsProtected runID (w.run runID) call := by
  cases call with
  | garbageCollect r n orders =>
    rintro rfl v p parent hp _ hdelta hparent
    have hall := List.all_eq_true.mp h p (FinMap.mem_values_iff.mpr ⟨v, hp⟩)
    simp only [hdelta, hparent, Option.all_some] at hall
    exact .inl (by simpa using hall)
  | _ => trivial

theorem publication_collectedBefore :
    (((after collectedBefore).run "run").publications.get "v1").map
      (fun p => p.manifest.format) = some "delta" := by decide +kernel

theorem publication_collection :
    (((after (deltaPair ++ collection)).run "run").publications.get "v1").map
      (fun p => (p.manifest.format, p.manifest.parentVersion)) = some ("delta", "v0") := by decide

end Trial

theorem delta_chains_complete_collectedBefore :
    ((Trial.after Trial.collectedBefore).run "run").publications.get "old" = none ∧
      ∃ n, ReachesFull ((Trial.after Trial.collectedBefore).run "run") "v1" n := by
  obtain ⟨p, hp, hdelta⟩ := Option.map_eq_some_iff.mp Trial.publication_collectedBefore
  have hrun := Trial.guarded_after Trial.parentsProtected_of_inFlight
    (show Trial.Passes Trial.parentsInFlight Trial.collectedBefore by decide +kernel)
  exact ⟨by decide +kernel, (delta_chains_complete _ _ _ _ _ hrun "run" "v1" p hp hdelta).2.1⟩

/-- Collecting a failed parent leaves the delta in flight without it, and
materializing the delta fails because the parent is missing. -/
theorem collected_parent :
    ∃ w p, Run (Step Trial.store fun _ => Trial.digest)
        (World.initial Trial.artifacts)
        ((Trial.deltaPair ++ Trial.collection).map Trial.request) w ∧
      (w.run "run").publications.get "v1" = some p ∧ p.manifest.format = "delta" ∧
      (w.run "run").publications.get p.manifest.parentVersion = none ∧
      (materializeLocked Trial.store (fun _ => Trial.digest)
        ((w.run "run").publications.size + 1) "v1" [] (w.run "run") Trial.artifacts).1 =
          .error (.notFound "v0") := by
  obtain ⟨p, hp, hmanifest⟩ := Option.map_eq_some_iff.mp Trial.publication_collection
  rw [Prod.mk.injEq] at hmanifest
  refine ⟨Trial.after (Trial.deltaPair ++ Trial.collection), p,
    Trial.run_after (by decide), hp, hmanifest.1, ?_, ?_⟩
  · rw [hmanifest.2]
    rfl
  · rfl

end Weights
end Skyscale
