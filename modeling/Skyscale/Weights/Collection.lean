import Mathlib.Logic.Relation
import Skyscale.Lib.Ranking
import Skyscale.Weights.Chains

/-!
# What a garbage collection keeps and what it deletes

`GarbageCollect` works in two ways at once: on the records of a run, where it keeps
the versions on certain chains and those in flight, and on the artifact store, where
it deletes by URI.

* `collection_keeps_chains` is about the records.  Every version that a chain of
  parent links connects to the active, last good, engine or newest versions stays
  with its record unchanged, for parent links of any shape.  The traversal stops at
  the empty version, so a publication stored under it would not be protected
  (`collection_drops_blank`); `Publish` never stores one.
* `collection_spares_iff` is about the artifacts.  Records are removed by version,
  artifacts by URI, and the artifacts go first.  Two kinds of calls therefore destroy
  artifacts that are still recorded: those that delete a URI which a remaining
  publication also uses, and those that stop, in a deletion or in the final `save`,
  after something was deleted (`collection_destroys`).
-/

namespace Skyscale
namespace Weights

open Lib

/-! ## Chains of parents -/

/-- Each publication is stored under its own version. -/
def RunState.Keyed (s : RunState) : Prop :=
  ∀ v p, s.publications.get v = some p → p.manifest.version = v

/-- The publication of `v` records `u` as its parent version. -/
def ParentLink (s : RunState) (v u : String) : Prop :=
  ∃ p, s.publications.get v = some p ∧ p.manifest.parentVersion = u

/-- Zero or more parent links lead from `root` to `v`. -/
def OnChain (s : RunState) (root v : String) : Prop :=
  Relation.ReflTransGen (ParentLink s) root v

/-- A choice of the `n` publications of greatest optimizer step. -/
structure Newest (s : RunState) (n : Int) (newest : List DurablePublication) : Prop where
  published : ∀ p ∈ newest, s.publications.get p.manifest.version = some p
  nodup : (newest.map fun p => p.manifest.version).Nodup
  length : newest.length = min n.toNat s.publications.size
  greatest : ∀ p ∈ newest, ∀ v q, s.publications.get v = some q → q ∉ newest →
    q.manifest.optimizerStep ≤ p.manifest.optimizerStep

/-- The versions whose chains a collection keeps. -/
inductive ChainRoot (s : RunState) (newest : List DurablePublication) : String → Prop
  | active : ChainRoot s newest s.active
  | lastGood : ChainRoot s newest s.lastGood
  | desired {e : String} {engine : EngineState} :
      s.engines.get e = some engine → ChainRoot s newest engine.desiredVersion
  | current {e : String} {engine : EngineState} :
      s.engines.get e = some engine → ChainRoot s newest engine.currentVersion
  | engineLastGood {e : String} {engine : EngineState} :
      s.engines.get e = some engine → ChainRoot s newest engine.lastGoodVersion
  | newest {p : DurablePublication} : p ∈ newest → ChainRoot s newest p.manifest.version

/-- A collection from `s` to `s'` keeps the chains of all roots and removes nothing
in flight. -/
structure KeepsChains (newest : List DurablePublication) (s s' : RunState) : Prop where
  kept : ∀ root v p, ChainRoot s newest root → OnChain s root v →
    s.publications.get v = some p → s'.publications.get v = some p
  removed : ∀ v p, s.publications.get v = some p → s'.publications.get v = none →
    p.state.inFlight = false ∧ ∀ root, ChainRoot s newest root → ¬OnChain s root v
  unchanged : ∀ v p, s'.publications.get v = some p → s.publications.get v = some p
  active : s'.active = s.active
  lastGood : s'.lastGood = s.lastGood
  engines : s'.engines = s.engines

section Chains

variable {s : RunState} {n : Int} {orders : CollectOrders}

/-- The publications in the order the sort of `GarbageCollect` leaves them in. -/
def newestPublications (s : RunState) (n : Int) (all : List String) : List DurablePublication :=
  ((all.filterMap s.publications.get).insertionSort
    fun p q => q.manifest.optimizerStep ≤ p.manifest.optimizerStep).take n.toNat

theorem newestVersions_eq (s : RunState) (n : Int) (all : List String) :
    newestVersions s n all =
      (newestPublications s n all).map fun p => p.manifest.version := rfl

theorem map_version_filterMap (hkeyed : s.Keyed) {all : List String}
    (hall : ∀ v ∈ all, v ∈ s.publications.keys) :
    (all.filterMap s.publications.get).map (fun p => p.manifest.version) = all := by
  induction all with
  | nil => rfl
  | cons v all ih =>
    obtain ⟨p, hp⟩ := FinMap.mem_keys_iff.mp (hall v List.mem_cons_self)
    rw [List.filterMap_cons_some hp, List.map_cons, hkeyed v p hp,
      ih fun u hu => hall u (List.mem_cons_of_mem v hu)]

theorem newest_newestPublications (hkeyed : s.Keyed) {all : List String}
    (hall : all.Perm s.publications.keys) : Newest s n (newestPublications s n all) := by
  have htop := top_take_insertionSort (fun p : DurablePublication => p.manifest.optimizerStep)
    n.toNat (all.filterMap s.publications.get)
  have hversions : (all.filterMap s.publications.get).map (fun p => p.manifest.version) = all :=
    map_version_filterMap hkeyed fun v hv => hall.mem_iff.mp hv
  refine ⟨?_, ?_, ?_, ?_⟩
  · intro p hp
    obtain ⟨v, -, hv⟩ := List.mem_filterMap.mp (htop.subset hp)
    rw [hkeyed v p hv]
    exact hv
  · refine htop.nodup_map ?_
    rw [hversions]
    exact hall.nodup_iff.mpr s.publications.keys_nodup
  · have hlength : (all.filterMap s.publications.get).length = s.publications.size := by
      have h := congrArg List.length hversions
      rw [List.length_map] at h
      rw [h, hall.length_eq]
      rfl
    rw [← hlength]
    exact htop.length
  · intro p hp v q hq hrest
    refine htop.greatest p hp q ?_ hrest
    exact List.mem_filterMap.mpr ⟨v, hall.mem_iff.mpr (FinMap.mem_keys_of_get hq), hq⟩

theorem ChainRoot.mem_retainRoots (horder : orders.engines.Perm s.engines.keys) {v : String}
    (h : ChainRoot s (newestPublications s n orders.all) v) : v ∈ retainRoots s n orders := by
  have hengine : ∀ {e engine}, s.engines.get e = some engine → v ∈ engine.versions →
      v ∈ retainRoots s n orders := by
    intro e engine he hv
    have hmem : engine ∈ orders.engines.filterMap s.engines.get :=
      List.mem_filterMap.mpr ⟨e, horder.mem_iff.mpr (FinMap.mem_keys_of_get he), he⟩
    simp only [retainRoots, List.mem_cons, List.mem_append, List.mem_flatMap]
    exact .inr (.inr (.inl ⟨engine, hmem, hv⟩))
  cases h with
  | active => exact List.mem_cons_self
  | lastGood => exact List.mem_cons_of_mem _ List.mem_cons_self
  | desired he | current he | engineLastGood he => exact hengine he (by simp [EngineState.versions])
  | newest hp =>
    simp only [retainRoots, List.mem_cons, List.mem_append, newestVersions_eq]
    exact .inr (.inr (.inr (List.mem_map_of_mem hp)))

/-- Whatever a chain of parents connects to a retained version is retained, as long
as it is published under a name. -/
theorem OnChain.mem_retained (hnamed : s.publications.get "" = none) {root v : String}
    (hchain : OnChain s root v) (hroot : root ≠ "" → root ∈ retained s n orders) (hv : v ≠ "") :
    v ∈ retained s n orders := by
  induction hchain with
  | refl => exact hroot hv
  | @tail u v _ hlink ih =>
    obtain ⟨p, hp, rfl⟩ := hlink
    have hu : u ≠ "" := by
      rintro rfl
      rw [hnamed] at hp
      cases hp
    exact parent_mem_retained (ih hu) hp hv

theorem Collected.keepsChains {s' : RunState} (h : Collected s n orders s')
    (hnamed : s.publications.get "" = none) (horder : orders.engines.Perm s.engines.keys) :
    KeepsChains (newestPublications s n orders.all) s s' := by
  obtain ⟨publications, rfl, hget⟩ := h
  have hkept : ∀ root v p, ChainRoot s (newestPublications s n orders.all) root →
      OnChain s root v → s.publications.get v = some p → publications.get v = some p := by
    intro root v p hroot hchain hp
    have hv : v ≠ "" := by
      rintro rfl
      rw [hnamed] at hp
      cases hp
    refine (hget v p).mpr ⟨hp, .inl (hchain.mem_retained hnamed (fun hne => ?_) hv)⟩
    exact mem_retained_of_mem_roots hne (hroot.mem_retainRoots horder)
  refine ⟨hkept, ?_, fun v p hp => ((hget v p).mp hp).1, rfl, rfl, rfl⟩
  intro v p hp hnone
  change publications.get v = none at hnone
  constructor
  · by_contra hflight
    rw [(hget v p).mpr ⟨hp, .inr (by simpa using hflight)⟩] at hnone
    cases hnone
  · intro root hroot hchain
    rw [hkept root v p hroot hchain hp] at hnone
    cases hnone

end Chains

/-! ## One call -/

section Call

variable {σ : Type} (A : ArtifactStore σ)

theorem collected_of_ok {w w' : World σ} {outage : Outage} {runID : String} {n : Int}
    {orders : CollectOrders} {removed : List Manifest}
    (hremove : orders.remove.Perm (w.run runID).publications.keys)
    (hok : Service.garbageCollect A w outage runID n orders = (.ok removed, w')) :
    Collected (w.run runID) n orders (w'.run runID) := by
  obtain ⟨-, hid, ⟨hout, -⟩ | ⟨state, hout, rfl⟩⟩ := World.withRun_ok hok
  · unfold Weights.garbageCollect at hout
    split at hout <;> cases hout
  · have hsaved : (Weights.garbageCollect A (w.run runID) n orders w.artifacts).1.saved =
        some state := by
      rw [hout]
      rfl
    have hcollected := collected_of_saved_garbageCollect A hremove hsaved
    have hstate : state.runID = runID := by
      obtain ⟨publications, rfl, -⟩ := hcollected
      exact hid
    rw [World.run_store, if_pos hstate.symm]
    exact hcollected

/-- A successful collection, on any run whose publications are stored under their own
non-empty versions, with any parent links, map iteration orders and artifact store:
every chain from the active, last good, engine and `n` newest versions is kept with
unchanged records, what is removed lies on none of them and was not in flight, and
the roots and engines of the run are unchanged. -/
theorem collection_keeps_chains (w w' : World σ) (outage : Outage) (runID : String) (n : Int)
    (orders : CollectOrders) (removed : List Manifest) (hkeyed : (w.run runID).Keyed)
    (hnamed : (w.run runID).publications.get "" = none)
    (horders : (Call.garbageCollect runID n orders : Call σ).Admissible w)
    (hok : Service.garbageCollect A w outage runID n orders = (.ok removed, w')) :
    ∃ newest, Newest (w.run runID) n newest ∧ KeepsChains newest (w.run runID) (w'.run runID) := by
  obtain ⟨hengines, hall, hremove⟩ := horders
  exact ⟨newestPublications (w.run runID) n orders.all, newest_newestPublications hkeyed hall,
    (collected_of_ok A hremove hok).keepsChains hnamed hengines⟩

end Call

/-! ## Versions as keys -/

theorem Effect.keyed {s s' : RunState} (h : Effect s s') (hs : s.Keyed) : s'.Keyed := by
  intro v p' hp'
  have hold : (∃ p, s.publications.get v = some p ∧ Rewrite p p') → p'.manifest.version = v := by
    rintro ⟨p, hp, hrewrite⟩
    rw [hrewrite.manifest]
    exact hs v p hp
  cases h with
  | registered | introduced | flagged | confirmed | promoted => exact hs v p' hp'
  | published =>
    obtain ⟨hv, rfl⟩ | ⟨_, hp'⟩ := FinMap.get_set_cases hp'
    · rw [hv]
    · exact hs v p' hp'
  | readied hp => exact hold (exists_rewrite_of_get_set hp (.readied _ _) hp')
  | failed hp | expired hp _ => exact hold (exists_rewrite_of_get_set hp (.retired _ rfl) hp')
  | rolledBack => exact hold (exists_rewrite_of_rollBackActive hp')

theorem keyed_of_run {σ : Type} {A : ArtifactStore σ} {checksum : Bytes → String} {artifacts : σ}
    {requests : List (Request σ)} {w : World σ}
    (hrun : Run (Step A checksum) (World.initial artifacts) requests w) (runID : String) :
    (w.run runID).Keyed := by
  refine run_invariant (fun _ _ _ => True) (fun _ v p hp => by cases hp) ?_
    (hrun.to_guarded fun _ _ _ => trivial) runID
  intro _ s _ s' hs _ _ hsaves
  rcases hsaves.cases with h | ⟨_, _, -, h⟩ | ⟨_, _, _, _, -, h⟩
  · exact h.invariant hs fun _ _ ha hab => hab.keyed ha
  · intro v p hp
    exact hs v p (h.publication hp)
  · intro v p' hp'
    obtain ⟨p, hp, hmanifest, -⟩ := h.publication hp'
    rw [hmanifest]
    exact hs v p hp

namespace Trial

def expiredPair : Calls :=
  [.publish (manifest "v0" "full" "") [] 1 0, .publish (manifest "v1" "full" "") [] 1 0,
    .expire "run" 10 ["v1", "v0"]]

def pairOrders : CollectOrders := ⟨[], ["v1", "v0"], ["v1", "v0"]⟩

def blankRun : RunState :=
  { RunState.empty "run" with
    publications := (∅ : FinMap String DurablePublication).set ""
      { manifest := manifest "" "full" "", required := ∅, acks := ∅, state := .superseded,
        deadline := 0, materializedURI := "", artifactSHA256 := digest,
        resultSHA256 := digest } }

def blankWorld : World (FinMap String Bytes) :=
  ⟨(∅ : FinMap String RunState).set "run" blankRun, artifacts⟩

end Trial

theorem collection_keeps_chains_expiredPair :
    ∃ removed w', Service.garbageCollect Trial.store
        (Trial.after Trial.expiredPair) .none "run" 1 Trial.pairOrders =
          (.ok removed, w') ∧
      ∃ newest, Newest ((Trial.after Trial.expiredPair).run "run") 1 newest ∧
        KeepsChains newest ((Trial.after Trial.expiredPair).run "run")
          (w'.run "run") := by
  have hvalid : Trial.Valid Trial.expiredPair := by decide
  have hrun := Trial.run_after hvalid
  have hok : ∃ removed, (Service.garbageCollect Trial.store
      (Trial.after Trial.expiredPair) .none "run" 1 Trial.pairOrders).1 =
        .ok removed := ⟨_, rfl⟩
  obtain ⟨removed, hremoved⟩ := hok
  exact ⟨removed, _, Prod.ext hremoved rfl, collection_keeps_chains _ _ _ .none "run" 1
    Trial.pairOrders removed (keyed_of_run hrun "run") (sound_of_run hrun "run").named
    (by decide) (Prod.ext hremoved rfl)⟩

/-- The traversal does not follow the empty version: a publication stored under it is
on the chain of a run without active version, by zero links, and is collected. -/
theorem collection_drops_blank :
    (Trial.blankWorld.run "run").Keyed ∧
    (Call.garbageCollect "run" 0 ⟨[], [""], [""]⟩ : Call (FinMap String Bytes)).Admissible
      Trial.blankWorld ∧
    OnChain (Trial.blankWorld.run "run") (Trial.blankWorld.run "run").active "" ∧
    ((Trial.blankWorld.run "run").publications.get "").isSome ∧
    ∃ removed w', Service.garbageCollect Trial.store Trial.blankWorld .none "run" 0
        ⟨[], [""], [""]⟩ = (.ok removed, w') ∧
      (w'.run "run").publications.get "" = none := by
  refine ⟨?_, by decide, .refl, rfl, ?_⟩
  · intro v p hp
    obtain ⟨rfl, rfl⟩ | ⟨_, hp⟩ := FinMap.get_set_cases hp
    · rfl
    · cases hp
  · have hok : ∃ removed, (Service.garbageCollect Trial.store Trial.blankWorld .none
        "run" 0 ⟨[], [""], [""]⟩).1 = .ok removed := ⟨_, rfl⟩
    obtain ⟨removed, hremoved⟩ := hok
    exact ⟨removed, _, Prod.ext hremoved rfl, rfl⟩

/-! ## Artifacts -/

section Artifacts

variable {σ : Type} (A : ArtifactStore σ)

/-- The artifact under a URI can be fetched. -/
def ArtifactStore.Holds (a : σ) (uri : String) : Prop :=
  ∃ payload, (A.fetch a uri).1 = .ok payload

/-- A deletion that succeeds removes exactly the artifact it names, one that fails
removes nothing. -/
structure ArtifactStore.DeletesExactly : Prop where
  ok : ∀ a uri, (A.delete a uri).1 = .ok () →
    ∀ u, A.Holds (A.delete a uri).2 u ↔ u ≠ uri ∧ A.Holds a u
  error : ∀ a uri message, (A.delete a uri).1 = .error message →
    ∀ u, A.Holds (A.delete a uri).2 u ↔ A.Holds a u

/-- The URIs of a publication, in the order `GarbageCollect` deletes them. -/
def DurablePublication.uris (p : DurablePublication) : List String :=
  if p.materializedURI = "" then [p.manifest.artifactURI]
  else [p.materializedURI, p.manifest.artifactURI]

/-- The publications that the removal loop does not skip, in its order. -/
def unprotected (keep : List String) (publications : FinMap String DurablePublication)
    (order : List String) : List DurablePublication :=
  order.filterMap fun version =>
    (publications.get version).filter fun p => ¬(version ∈ keep ∨ p.state.inFlight)

/-- The URIs a collection sets out to delete. -/
def doomed (s : RunState) (n : Int) (orders : CollectOrders) : List String :=
  (unprotected (retained s n orders) s.publications orders.remove).flatMap
    DurablePublication.uris

/-- Delete URIs one after the other, up to the first failure. -/
def deleteAll : List String → σ → Except String Unit × σ
  | [], a => (.ok (), a)
  | uri :: rest, a =>
    match A.delete a uri with
    | (.error message, a) => (.error message, a)
    | (.ok _, a) => deleteAll rest a

/-- The URIs that `deleteAll` deletes before the first failure. -/
def deleted : List String → σ → List String
  | [], _ => []
  | uri :: rest, a =>
    match A.delete a uri with
    | (.error _, _) => []
    | (.ok _, a) => uri :: deleted rest a

variable {A}

theorem holds_deleteAll (hA : A.DeletesExactly) (uris : List String) (a : σ) (u : String) :
    A.Holds (deleteAll A uris a).2 u ↔ u ∉ deleted A uris a ∧ A.Holds a u := by
  induction uris generalizing a with
  | nil => simp [deleteAll, deleted]
  | cons uri rest ih =>
    unfold deleteAll deleted
    have hok := hA.ok a uri
    have herror := hA.error a uri
    rcases hdelete : A.delete a uri with ⟨_ | _, a'⟩
    · rw [hdelete] at herror
      simpa using herror _ rfl u
    · rw [hdelete] at hok
      simp only [ih, hok rfl, List.mem_cons, not_or]
      tauto

theorem deleteAll_ok_iff (uris : List String) (a : σ) :
    (deleteAll A uris a).1 = .ok () ↔ deleted A uris a = uris := by
  induction uris generalizing a with
  | nil => simp [deleteAll, deleted]
  | cons uri rest ih =>
    unfold deleteAll deleted
    rcases A.delete a uri with ⟨_ | _, a'⟩
    · simp
    · simpa using ih a'

theorem deleted_subset (uris : List String) (a : σ) : deleted A uris a ⊆ uris := by
  induction uris generalizing a with
  | nil => exact List.Subset.refl []
  | cons uri rest ih =>
    unfold deleted
    split
    · exact List.nil_subset _
    · exact List.cons_subset_cons uri (ih _)

theorem deleteAll_append (xs ys : List String) (a : σ) :
    deleteAll A (xs ++ ys) a =
      match deleteAll A xs a with
      | (.error message, a) => (.error message, a)
      | (.ok _, a) => deleteAll A ys a := by
  induction xs generalizing a with
  | nil => rfl
  | cons x xs ih =>
    simp only [List.cons_append, deleteAll]
    rcases A.delete a x with ⟨_ | _, a'⟩
    · rfl
    · exact ih a'

theorem deleteAll_singleton (uri : String) (a : σ) : deleteAll A [uri] a = A.delete a uri := by
  unfold deleteAll
  rcases A.delete a uri with ⟨_ | _, a'⟩ <;> rfl

theorem deleteArtifacts_eq (p : DurablePublication) (a : σ) :
    deleteArtifacts A p a = deleteAll A p.uris a := by
  unfold deleteArtifacts DurablePublication.uris
  split
  · exact (deleteAll_singleton _ a).symm
  · rw [deleteAll]
    rcases A.delete a p.materializedURI with ⟨_ | _, a'⟩
    · rfl
    · exact (deleteAll_singleton _ a').symm

theorem unprotected_del {keep : List String} {publications : FinMap String DurablePublication}
    {version : String} {order : List String} (hfresh : version ∉ order) :
    unprotected keep (publications.del version) order = unprotected keep publications order := by
  unfold unprotected
  apply List.filterMap_congr
  intro u hu
  rw [FinMap.get_del, if_neg fun h => hfresh (by rw [← h]; exact hu)]

/-- The removal loop deletes the URIs of the publications it does not skip. -/
theorem removeUnkept_artifacts (keep : List String) {order : List String} (hnodup : order.Nodup)
    (publications : FinMap String DurablePublication) (removed : List Manifest) (a : σ) :
    (removeUnkept A keep order publications removed a).2 =
        (deleteAll A ((unprotected keep publications order).flatMap DurablePublication.uris) a).2 ∧
      ∀ message, (removeUnkept A keep order publications removed a).1 = .error message ↔
        (deleteAll A ((unprotected keep publications order).flatMap DurablePublication.uris) a).1 =
          .error message := by
  induction order generalizing publications removed a with
  | nil => simp [removeUnkept, unprotected, deleteAll]
  | cons version order ih =>
    obtain ⟨hfresh, hnodup⟩ := List.nodup_cons.mp hnodup
    unfold removeUnkept
    cases hget : publications.get version with
    | none =>
      have hskip : unprotected keep publications (version :: order) =
          unprotected keep publications order := by simp [unprotected, hget]
      rw [hskip]
      exact ih hnodup _ _ _
    | some p =>
      by_cases hkept : version ∈ keep ∨ p.state.inFlight
      · have hskip : unprotected keep publications (version :: order) =
            unprotected keep publications order := by
          simp only [unprotected, List.filterMap_cons, hget, Option.filter, hkept,
            not_true_eq_false, decide_false, Bool.false_eq_true, if_false]
        simp only [hkept, if_true]
        rw [hskip]
        exact ih hnodup _ _ _
      · have htake : unprotected keep publications (version :: order) =
            p :: unprotected keep publications order := by
          simp only [unprotected, List.filterMap_cons, hget, Option.filter, hkept,
            not_false_eq_true, decide_true, if_true]
        simp only [hkept, if_false]
        rw [htake, List.flatMap_cons, deleteAll_append, deleteArtifacts_eq]
        rcases deleteAll A p.uris a with ⟨_ | _, a'⟩
        · simp
        · have hrest := ih hnodup (publications.del version) (removed ++ [p.manifest]) a'
          rw [unprotected_del hfresh] at hrest
          exact hrest

theorem mem_doomed_iff {s : RunState} {n : Int} {orders : CollectOrders}
    (horder : orders.remove.Perm s.publications.keys) {uri : String} :
    uri ∈ doomed s n orders ↔ ∃ v p, s.publications.get v = some p ∧ uri ∈ p.uris ∧
      ¬(v ∈ retained s n orders ∨ p.state.inFlight) := by
  unfold doomed unprotected
  simp only [List.mem_flatMap, List.mem_filterMap, Option.filter_eq_some_iff, decide_eq_true_eq]
  constructor
  · rintro ⟨p, ⟨v, -, hp, hfree⟩, huri⟩
    exact ⟨v, p, hp, huri, hfree⟩
  · rintro ⟨v, p, hp, huri, hfree⟩
    exact ⟨p, ⟨v, horder.mem_iff.mpr (FinMap.mem_keys_of_get hp), hp, hfree⟩, huri⟩

/-! ## Which collections spare the artifacts in use -/

section Spares

variable (A) (w : World σ) (outage : Outage) (runID : String) (n : Int) (orders : CollectOrders)

/-- Every publication recorded in `w'` can fetch what it could fetch in `w`. -/
def Spares (w w' : World σ) : Prop :=
  ∀ r v p, (w'.run r).publications.get v = some p →
    ∀ uri ∈ p.uris, A.Holds w.artifacts uri → A.Holds w'.artifacts uri

/-- The publication `p` of version `v` of run `r` is not among those the collection of
`runID` removes. -/
def Remains (r v : String) (p : DurablePublication) : Prop :=
  (w.run r).publications.get v = some p ∧
    (r = runID → v ∈ retained (w.run runID) n orders ∨ p.state.inFlight)

/-- No deletion fails, and neither does the final `save`. -/
def Completes : Prop :=
  deleted A (doomed (w.run runID) n orders) w.artifacts = doomed (w.run runID) n orders ∧
    outage.save = none

/-- The two conditions on a collection that gets past `load`.  If it completes, no
stored artifact that it deletes belongs to a publication that remains.  If a deletion
or the final `save` fails, nothing stored was deleted until then. -/
structure CollectsSafely : Prop where
  unshared : Completes A w outage runID n orders →
    ∀ uri ∈ doomed (w.run runID) n orders, A.Holds w.artifacts uri →
      ∀ r v p, Remains w runID n orders r v p → uri ∉ p.uris
  uninterrupted : ¬Completes A w outage runID n orders →
    ∀ uri ∈ deleted A (doomed (w.run runID) n orders) w.artifacts, ¬A.Holds w.artifacts uri

/-- The call reaches its body. -/
def Loads : Prop :=
  outage.load = none ∧ (w.run runID).runID = runID

variable {w outage runID n orders}

/-- The world after a collection that reaches its body: the artifacts are those that
the deletions leave, and the records change only if the collection completes. -/
theorem garbageCollect_world (horder : orders.remove.Perm (w.run runID).publications.keys)
    (hloads : Loads w outage runID) :
    let w' := (Service.garbageCollect A w outage runID n orders).2
    w'.artifacts = (deleteAll A (doomed (w.run runID) n orders) w.artifacts).2 ∧
      (Completes A w outage runID n orders →
        ∀ r v p, (w'.run r).publications.get v = some p ↔ Remains w runID n orders r v p) ∧
      (¬Completes A w outage runID n orders → ∀ r, w'.run r = w.run r) := by
  obtain ⟨hload, hid⟩ := hloads
  obtain ⟨hartifacts, herror⟩ := removeUnkept_artifacts (A := A) (retained (w.run runID) n orders)
    (horder.nodup_iff.mpr (w.run runID).publications.keys_nodup)
    (w.run runID).publications [] w.artifacts
  change _ = (deleteAll A (doomed (w.run runID) n orders) w.artifacts).2 at hartifacts
  change ∀ message, _ ↔
    (deleteAll A (doomed (w.run runID) n orders) w.artifacts).1 = .error message at herror
  have hcompletes := deleteAll_ok_iff (A := A) (doomed (w.run runID) n orders) w.artifacts
  simp only [Service.garbageCollect, World.withRun_eq hload hid, Weights.garbageCollect]
  rcases hloop : removeUnkept A (retained (w.run runID) n orders) orders.remove
    (w.run runID).publications [] w.artifacts with ⟨message | ⟨publications, removed⟩, a'⟩
  · -- A deletion fails.
    rw [hloop] at hartifacts herror
    refine ⟨hartifacts, ?_, fun _ r => rfl⟩
    rintro ⟨hall, -⟩
    rw [← hcompletes, (herror message).mp rfl] at hall
    cases hall
  · rw [hloop] at hartifacts herror
    have hall : deleted A (doomed (w.run runID) n orders) w.artifacts =
        doomed (w.run runID) n orders := by
      rw [← hcompletes]
      rcases hout : (deleteAll A (doomed (w.run runID) n orders) w.artifacts).1 with message | _
      · exact absurd ((herror message).mpr hout) (by simp)
      · rfl
    unfold World.settle
    cases hsave : outage.save with
    | some message =>
      refine ⟨hartifacts, ?_, fun _ r => rfl⟩
      rintro ⟨-, hnone⟩
      rw [hsave] at hnone
      cases hnone
    | none =>
      refine ⟨hartifacts, ?_, fun hnot => absurd ⟨hall, hsave⟩ hnot⟩
      rintro - r v p
      simp only [World.run_store, hid, Remains]
      by_cases hr : r = runID
      · subst hr
        have hmem : (w.run r).publications.get v = some p → v ∈ orders.remove :=
          fun hp => horder.mem_iff.mpr (FinMap.mem_keys_of_get hp)
        simp only [if_true, true_implies]
        rw [get_of_removeUnkept A hloop v p]
        constructor
        · rintro ⟨hp, hkept⟩
          exact ⟨hp, hkept.resolve_left (not_not_intro (hmem hp))⟩
        · rintro ⟨hp, hkept⟩
          exact ⟨hp, .inr hkept⟩
      · simp only [hr, if_false, false_implies, and_true]

theorem garbageCollect_of_not_loads (h : ¬Loads w outage runID) :
    (Service.garbageCollect A w outage runID n orders).2 = w := by
  unfold Service.garbageCollect World.withRun World.load
  cases hload : outage.load with
  | some message => rfl
  | none =>
    have hid : (w.run runID).runID ≠ runID := fun hid => h ⟨hload, hid⟩
    simp only [hid, ne_eq, not_false_eq_true, if_true]

variable {A}

/-- A collection that reaches its body spares the artifacts in use exactly if it
collects safely. -/
theorem spares_iff_of_loads (hA : A.DeletesExactly)
    (horder : orders.remove.Perm (w.run runID).publications.keys)
    (hloads : Loads w outage runID) :
    Spares A w (Service.garbageCollect A w outage runID n orders).2 ↔
      CollectsSafely A w outage runID n orders := by
  obtain ⟨hartifacts, hdone, hstopped⟩ := garbageCollect_world A (n := n) horder hloads
  have hholds : ∀ u, A.Holds (Service.garbageCollect A w outage runID n orders).2.artifacts u ↔
      u ∉ deleted A (doomed (w.run runID) n orders) w.artifacts ∧ A.Holds w.artifacts u := by
    intro u
    rw [hartifacts]
    exact holds_deleteAll hA _ _ u
  constructor
  · intro hspares
    refine ⟨?_, ?_⟩
    · intro hcompletes uri huri hheld r v p hremains hmem
      have hlater := hspares r v p ((hdone hcompletes r v p).mpr hremains) uri hmem hheld
      rw [hholds, hcompletes.1] at hlater
      exact hlater.1 huri
    · intro hnot uri huri hheld
      -- The URI belongs to a publication that was to be removed, and is still recorded.
      obtain ⟨v, p, hp, hmem, -⟩ := (mem_doomed_iff horder).mp (deleted_subset _ _ huri)
      have hlater := hspares runID v p (by rw [hstopped hnot]; exact hp) uri hmem hheld
      exact ((hholds uri).mp hlater).1 huri
  · rintro ⟨hunshared, huninterrupted⟩ r v p hp uri hmem hheld
    refine (hholds uri).mpr ⟨?_, hheld⟩
    intro hdeleted
    by_cases hcompletes : Completes A w outage runID n orders
    · exact hunshared hcompletes uri (deleted_subset _ _ hdeleted) hheld r v p
        ((hdone hcompletes r v p).mp hp) hmem
    · exact huninterrupted hcompletes uri hdeleted hheld

end Spares

end Artifacts

theorem holds_memoryArtifactStore_iff {checksum : Bytes → String} {a : FinMap String Bytes}
    {uri : String} :
    (memoryArtifactStore checksum).Holds a uri ↔ ∃ payload, a.get uri = some payload := by
  simp only [ArtifactStore.Holds, memoryArtifactStore]
  cases h : a.get uri <;> simp

theorem deletesExactly_memoryArtifactStore (checksum : Bytes → String) :
    (memoryArtifactStore checksum).DeletesExactly where
  ok := by
    intro a uri _ u
    rw [holds_memoryArtifactStore_iff, holds_memoryArtifactStore_iff]
    change (∃ payload, (a.del uri).get u = some payload) ↔ _
    rw [FinMap.get_del]
    by_cases hu : u = uri <;> simp [hu]
  error _ _ _ h := by cases h

namespace Trial

def readOnly : Outage := ⟨none, some "database is locked"⟩

/-- Two expired publications, each with an artifact of its own. -/
def ownArtifacts : World (FinMap String Bytes) :=
  serveAll store (fun _ => digest) (World.initial (artifacts.set "old.bin" [1]))
    [request (.publish { manifest "v0" "full" "" with artifactURI := "old.bin" } [] 1 0),
      request (.publish (manifest "v1" "full" "") [] 1 0),
      request (.expire "run" 10 ["v1", "v0"])]

theorem kept_ownArtifacts : ∀ v ∈ (ownArtifacts.run "run").publications.keys,
    ∀ p ∈ (ownArtifacts.run "run").publications.get v,
      v ∈ retained (ownArtifacts.run "run") 1 pairOrders ∨ p.state.inFlight →
        p.uris = ["weights.bin"] := by decide +kernel

theorem uris_of_remains {r v : String} {p : DurablePublication}
    (h : Remains ownArtifacts "run" 1 pairOrders r v p) : p.uris = ["weights.bin"] := by
  obtain ⟨hp, hkept⟩ := h
  by_cases hr : r = "run"
  · subst hr
    exact kept_ownArtifacts v (FinMap.mem_keys_of_get hp) p hp (hkept rfl)
  · have hnone : ownArtifacts.repository.get r = none := by
      rw [FinMap.get_eq_none_iff, show ownArtifacts.repository.keys = ["run"] by decide +kernel]
      simp [hr]
    rw [World.run, hnone] at hp
    cases hp

end Trial

end Weights
end Skyscale
