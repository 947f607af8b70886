import Skyscale.Weights.Chains

/-!
# Delta chains materialize to the encoded weights

A `DeltaChain` is a list of weights `w0 … wₙ` of equal length, encoded as a full
publication of `w0` and deltas `wᵢ ^^^ wᵢ₊₁`.  `Encoded` is what the run and the
in-memory artifact store look like once the chain is published, with any of its
versions already cached under their materialized URIs:

* `encoded_of_publishes` establishes it,
* `materializeLocked_encoded` is the induction over the chain: whatever is cached, a
  version materializes to its weights, and the invariant is kept,
* `serve_materialize_encoded` lifts this to calls of the service, with any repository
  failures.

`chain_materializes` puts them together.
-/

namespace Skyscale
namespace Weights

open Lib

section

variable {σ : Type} (A : ArtifactStore σ) (checksum : Bytes → String)

/-- `Service.MaterializedArtifact` after `load`. -/
def materializedArtifact (state : RunState) (version : String) (a : σ) :
    Outcome (Bytes × String) × σ :=
  match state.publications.get version with
  | none => (.refuse "materialized weight version is unavailable", a)
  | some p =>
    if p.materializedURI = "" ∨ p.state = .failed then
      (.refuse "materialized weight version is unavailable", a)
    else
      match A.fetch a p.materializedURI with
      | (.error message, a) => (.refuse message, a)
      | (.ok payload, a) =>
        if checksum payload ≠ p.resultSHA256 then
          (.refuse "materialized artifact checksum mismatch", a)
        else
          (.answer (payload, p.resultSHA256), a)

/-- `Service.MaterializedArtifact`. -/
def Service.materializedArtifact (w : World σ) (outage : Outage) (runID version : String) :
    Reply (Bytes × String) × World σ :=
  w.withRun outage runID fun state a => Weights.materializedArtifact A checksum state version a

end

theorem materializedPath_ne_blank (runID version : String) :
    materializedPath runID version ≠ "" := by
  intro h
  have hlist := congrArg String.toList h
  simp [materializedPath, String.toList_append] at hlist

theorem applyXORDelta_zipWith {parent result : Bytes} (h : parent.length = result.length) :
    applyXORDelta parent (List.zipWith (· ^^^ ·) parent result) = some result := by
  have hlength : parent.length = (List.zipWith (· ^^^ ·) parent result).length := by
    rw [List.length_zipWith, ← h, Nat.min_self]
  unfold applyXORDelta
  rw [if_pos hlength, zipWith_xor_cancel h]

/-! ## Chains of weights -/

/-- Weights `0 … last` of equal length, with the distinct versions and the artifact
URIs they are published under.  No artifact lies where materialized weights of the
run are written. -/
structure DeltaChain where
  runID : String
  last : Nat
  version : Nat → String
  uri : Nat → String
  weights : Nat → Bytes
  lengths : ∀ i ≤ last, (weights i).length = (weights 0).length
  distinct : ∀ i ≤ last, ∀ j ≤ last, version i = version j → i = j
  outside : ∀ i ≤ last, ∀ v, uri i ≠ materializedPath runID v

namespace DeltaChain

variable (c : DeltaChain) (checksum : Bytes → String)

/-- The artifact of a version: the first weights, or a delta to the weights before. -/
def artifact : Nat → Bytes
  | 0 => c.weights 0
  | i + 1 => List.zipWith (· ^^^ ·) (c.weights i) (c.weights (i + 1))

/-- Where the weights of a version are materialized. -/
def path (i : Nat) : String := materializedPath c.runID (c.version i)

/-- A manifest publishes the weights `i` of the chain.  The full publication may
leave its result checksum out. -/
structure Describes (i : Nat) (m : Manifest) : Prop where
  runID : m.runID = c.runID
  version : m.version = c.version i
  uri : m.artifactURI = c.uri i
  full : i = 0 → m.format = "full" ∧
    (m.checksums.getD "result" "" = "" ∨ m.checksums.getD "result" "" = checksum (c.weights 0))
  delta : ∀ j, i = j + 1 → m.format = "delta" ∧ m.parentVersion = c.version j ∧
    m.checksums.getD "result" "" = checksum (c.weights i)

/-- The versions `0 … i` are published one after the other, each with success. -/
inductive Publishes (w : World (FinMap String Bytes)) : Nat → World (FinMap String Bytes) → Prop
  | first {w' : World (FinMap String Bytes)} {outage : Outage} {m : Manifest}
      {engines : List String} {timeout : Int} {now : Time} :
      c.Describes checksum 0 m →
      Service.publish (memoryArtifactStore checksum) checksum w outage m engines timeout now =
        (.ok (), w') →
      Publishes w 0 w'
  | next {i : Nat} {w1 w' : World (FinMap String Bytes)} {outage : Outage} {m : Manifest}
      {engines : List String} {timeout : Int} {now : Time} :
      Publishes w i w1 → c.Describes checksum (i + 1) m →
      Service.publish (memoryArtifactStore checksum) checksum w1 outage m engines timeout now =
        (.ok (), w') →
      Publishes w (i + 1) w'

/-- The store holds the artifacts of the chain and, where weights of the chain are
materialized, nothing yet. -/
structure Uploaded (a : FinMap String Bytes) : Prop where
  artifact : ∀ i ≤ c.last, a.get (c.uri i) = some (c.artifact i)
  unmaterialized : ∀ i ≤ c.last, a.get (c.path i) = none

/-- The record of version `i`, either as published or with the weights cached. -/
structure Record (a : FinMap String Bytes) (i : Nat) (p : DurablePublication) : Prop where
  uri : p.manifest.artifactURI = c.uri i
  full : i = 0 → p.manifest.format = "full"
  delta : ∀ j, i = j + 1 → p.manifest.format = "delta" ∧ p.manifest.parentVersion = c.version j
  artifactSHA256 : p.artifactSHA256 = checksum (c.artifact i)
  expected : p.expected = checksum (c.weights i)
  alive : p.state ≠ .failed
  cached : p.materializedURI = "" ∨ p.materializedURI = c.path i ∧
    p.resultSHA256 = checksum (c.weights i) ∧ a.get (c.path i) = some (c.weights i)

/-- The chain is published, with any of its versions cached. -/
structure Encoded (s : RunState) (a : FinMap String Bytes) : Prop where
  runID : s.runID = c.runID
  artifact : ∀ i ≤ c.last, a.get (c.uri i) = some (c.artifact i)
  cache : ∀ i ≤ c.last, ∀ payload, a.get (c.path i) = some payload → payload = c.weights i
  record : ∀ i ≤ c.last, ∃ p, s.publications.get (c.version i) = some p ∧ c.Record checksum a i p

variable {c checksum}

theorem materializedPath_inj {runID v v' : String}
    (h : materializedPath runID v = materializedPath runID v') : v = v' := by
  unfold materializedPath at h
  have hlist := congrArg String.toList h
  simp only [String.toList_append] at hlist
  exact String.toList_inj.mp (List.append_cancel_left (List.append_cancel_right hlist))

variable {i : Nat} {a a' : FinMap String Bytes} {p : DurablePublication} {s : RunState}
  {w w' : World (FinMap String Bytes)}

theorem path_inj {j : Nat} (hi : i ≤ c.last) (hj : j ≤ c.last) (h : c.path i = c.path j) :
    i = j :=
  c.distinct i hi j hj (materializedPath_inj h)

theorem path_ne_blank (i : Nat) : c.path i ≠ "" := materializedPath_ne_blank _ _

theorem Record.mono (h : c.Record checksum a i p)
    (ha : a.get (c.path i) = some (c.weights i) → a'.get (c.path i) = some (c.weights i)) :
    c.Record checksum a' i p where
  uri := h.uri
  full := h.full
  delta := h.delta
  artifactSHA256 := h.artifactSHA256
  expected := h.expected
  alive := h.alive
  cached := h.cached.imp_right fun ⟨hpath, hsum, hget⟩ => ⟨hpath, hsum, ha hget⟩

/-- Materialized weights of the chain are never lost. -/
def Grows (c : DeltaChain) (a a' : FinMap String Bytes) : Prop :=
  ∀ j ≤ c.last, a.get (c.path j) = some (c.weights j) → a'.get (c.path j) = some (c.weights j)

theorem Grows.trans {a'' : FinMap String Bytes} (h : c.Grows a a') (h' : c.Grows a' a'') :
    c.Grows a a'' :=
  fun j hj hget => h' j hj (h j hj hget)

theorem Encoded.withArtifacts {s' : RunState} (h : c.Encoded checksum s a)
    (h' : c.Encoded checksum s' a') (hgrows : c.Grows a a') :
    c.Encoded checksum s a' where
  runID := h.runID
  artifact := h'.artifact
  cache := h'.cache
  record i hi := by
    obtain ⟨p, hp, hrecord⟩ := h.record i hi
    exact ⟨p, hp, hrecord.mono (hgrows i hi)⟩

/-! ## One materialization -/

theorem fetchMaterialized_record (h : c.Record checksum a i p) :
    p.materializedURI = "" ∧
        fetchMaterialized (memoryArtifactStore checksum) checksum p a = (none, a) ∨
      (p.materializedURI = c.path i ∧ p.resultSHA256 = checksum (c.weights i)) ∧
        fetchMaterialized (memoryArtifactStore checksum) checksum p a =
          (some (c.weights i), a) := by
  unfold fetchMaterialized
  rcases h.cached with hblank | ⟨hpath, hsum, hget⟩
  · exact .inl ⟨hblank, if_pos hblank⟩
  · refine .inr ⟨⟨hpath, hsum⟩, ?_⟩
    rw [if_neg (by rw [hpath]; exact path_ne_blank i), hpath]
    simp only [memoryArtifactStore, hget, hsum, if_true]

theorem Encoded.fetch_artifact (h : c.Encoded checksum s a) (hi : i ≤ c.last)
    (hp : c.Record checksum a i p) :
    (memoryArtifactStore checksum).fetch a p.manifest.artifactURI = (.ok (c.artifact i), a) := by
  simp only [memoryArtifactStore, hp.uri, h.artifact i hi]

/-- Writing the weights of version `i` keeps the invariant and caches them. -/
theorem storeMaterialized_encoded (hi : i ≤ c.last) (h : c.Encoded checksum s a)
    (hp : c.Record checksum a i p) :
    ∃ s' a', storeMaterialized (memoryArtifactStore checksum) checksum (c.version i) p
        (c.weights i) s a = (.ok (c.weights i), s', a') ∧
      c.Encoded checksum s' a' ∧ c.Grows a a' ∧
      ∃ p', s'.publications.get (c.version i) = some p' ∧ p'.materializedURI = c.path i ∧
        p'.resultSHA256 = checksum (c.weights i) := by
  have hput : (memoryArtifactStore checksum).putImmutable a (c.path i) (c.weights i) p.expected =
      (.ok (), a.set (c.path i) (c.weights i)) := by
    have hfree : (a.get (c.path i)).any (fun existing => existing ≠ c.weights i) = false := by
      cases hget : a.get (c.path i) with
      | none => rfl
      | some payload => simp [h.cache i hi payload hget]
    simp only [memoryArtifactStore, hp.expected, ne_eq, not_true_eq_false, if_false]
    rw [if_neg (by simpa using hfree)]
  have hgrows : c.Grows a (a.set (c.path i) (c.weights i)) := by
    intro j hj hget
    rw [FinMap.get_set]
    split
    · rename_i hpath
      rw [path_inj hj hi hpath]
    · exact hget
  unfold storeMaterialized
  rw [if_neg (not_not_intro hp.expected.symm), h.runID]
  rw [show materializedPath c.runID (c.version i) = c.path i from rfl, hput]
  refine ⟨_, _, rfl, ⟨rfl, ?_, ?_, ?_⟩, hgrows, ?_⟩
  · intro j hj
    have hne : c.uri j ≠ c.path i := c.outside j hj (c.version i)
    rw [FinMap.get_set_ne _ _ hne]
    exact h.artifact j hj
  · intro j hj payload hget
    obtain ⟨hpath, rfl⟩ | ⟨_, hget⟩ := FinMap.get_set_cases hget
    · rw [path_inj hj hi hpath]
    · exact h.cache j hj payload hget
  · intro j hj
    by_cases hij : j = i
    · subst hij
      refine ⟨_, FinMap.get_set_self _ _ _, ?_⟩
      exact ⟨hp.uri, hp.full, hp.delta, hp.artifactSHA256, hp.expected, nofun,
        .inr ⟨rfl, hp.expected, FinMap.get_set_self _ _ _⟩⟩
    · obtain ⟨q, hq, hrecord⟩ := h.record j hj
      refine ⟨q, ?_, hrecord.mono (hgrows j hj)⟩
      have hne : c.version j ≠ c.version i := fun heq => hij (c.distinct j hj i hi heq)
      exact (FinMap.get_set_ne _ _ hne).trans hq
  · exact ⟨_, FinMap.get_set_self _ _ _, rfl, hp.expected⟩

/-- Whatever is cached, a version of the chain materializes to its weights.  The
induction is on the position in the chain; the versions being visited are later
ones. -/
theorem materializeLocked_encoded (fuel : Nat) {visiting : List String} (hi : i ≤ c.last)
    (hfuel : i < fuel) (hvisiting : ∀ j ≤ i, c.version j ∉ visiting) (h : c.Encoded checksum s a) :
    ∃ s' a', materializeLocked (memoryArtifactStore checksum) checksum fuel (c.version i) visiting
        s a = (.ok (c.weights i), s', a') ∧
      c.Encoded checksum s' a' ∧ c.Grows a a' ∧
      ∃ p', s'.publications.get (c.version i) = some p' ∧ p'.materializedURI = c.path i ∧
        p'.resultSHA256 = checksum (c.weights i) := by
  induction i generalizing fuel visiting with
  | zero =>
    obtain ⟨fuel, rfl⟩ := Nat.exists_eq_add_of_lt hfuel
    obtain ⟨p, hp, hrecord⟩ := h.record 0 hi
    simp only [Nat.zero_add, materializeLocked, hvisiting 0 le_rfl, if_false, hp]
    rcases fetchMaterialized_record hrecord with ⟨-, hfetch⟩ | ⟨hcached, hfetch⟩
    · have hfull : p.manifest.format ≠ "delta" := by
        rw [hrecord.full rfl]
        decide
      simp only [hfetch, h.fetch_artifact hi hrecord, hrecord.artifactSHA256, hfull, ne_eq,
        not_true_eq_false, if_false]
      exact storeMaterialized_encoded hi h hrecord
    · simp only [hfetch]
      exact ⟨s, a, rfl, h, fun _ _ hget => hget, p, hp, hcached⟩
  | succ i ih =>
    obtain ⟨fuel, rfl⟩ := Nat.exists_eq_add_of_lt hfuel
    obtain ⟨p, hp, hrecord⟩ := h.record (i + 1) hi
    simp only [materializeLocked, hvisiting (i + 1) le_rfl, if_false, hp]
    rcases fetchMaterialized_record hrecord with ⟨-, hfetch⟩ | ⟨hcached, hfetch⟩
    · obtain ⟨hdelta, hparent⟩ := hrecord.delta i rfl
      have hearlier : ∀ j ≤ i, c.version j ∉ c.version (i + 1) :: visiting := by
        intro j hj hmem
        rcases List.mem_cons.mp hmem with heq | hmem
        · have := c.distinct j (by omega) (i + 1) hi heq
          omega
        · exact hvisiting j (by omega) hmem
      obtain ⟨s1, a1, hrec, h1, hgrows1, -⟩ := ih (i + 1 + fuel) (by omega) (by omega) hearlier
      have hresult : applyXORDelta (c.weights i) (c.artifact (i + 1)) =
          some (c.weights (i + 1)) :=
        applyXORDelta_zipWith (by rw [c.lengths i (by omega), c.lengths (i + 1) hi])
      obtain ⟨s', a', hstore, h', hgrows, hrecord'⟩ := storeMaterialized_encoded hi h1
        (hrecord.mono (hgrows1 (i + 1) hi))
      refine ⟨s', a', ?_, h', hgrows1.trans hgrows, hrecord'⟩
      simp only [hfetch, h.fetch_artifact hi hrecord, hrecord.artifactSHA256, hdelta, ne_eq,
        not_true_eq_false, if_false, if_true, hparent, hrec, hresult, hstore]
    · simp only [hfetch]
      exact ⟨s, a, rfl, h, fun _ _ hget => hget, p, hp, hcached⟩

theorem Encoded.last_lt_size (h : c.Encoded checksum s a) : c.last < s.publications.size := by
  have hnodup : ((List.range (c.last + 1)).map c.version).Nodup := by
    refine List.Nodup.map_on ?_ List.nodup_range
    intro i hi j hj heq
    rw [List.mem_range] at hi hj
    exact c.distinct i (by omega) j (by omega) heq
  have hsub : (List.range (c.last + 1)).map c.version ⊆ s.publications.keys := by
    intro v hv
    obtain ⟨i, hi, rfl⟩ := List.mem_map.mp hv
    rw [List.mem_range] at hi
    obtain ⟨p, hp, -⟩ := h.record i (by omega)
    exact FinMap.mem_keys_of_get hp
  have hle := (List.subperm_of_subset hnodup hsub).length_le
  rw [List.length_map, List.length_range] at hle
  exact hle

theorem materialize_encoded (hi : i ≤ c.last) (h : c.Encoded checksum s a) :
    ∃ s' a', materialize (memoryArtifactStore checksum) checksum s (c.version i) a =
        (.commit s' (c.path i, checksum (c.weights i)), a') ∧
      c.Encoded checksum s' a' ∧ c.Grows a a' ∧
      ∃ p', s'.publications.get (c.version i) = some p' ∧ p'.materializedURI = c.path i ∧
        p'.resultSHA256 = checksum (c.weights i) := by
  have hlast := h.last_lt_size
  obtain ⟨s', a', hrun, h', hgrows, p', hp', huri, hsum⟩ := materializeLocked_encoded
    (s.publications.size + 1) hi (by omega) (fun _ _ => List.not_mem_nil) h
  refine ⟨s', a', ?_, h', hgrows, p', hp', huri, hsum⟩
  simp only [materialize, hrun, hp', huri, hsum]

/-- A call of `Materialize` on a version of the chain keeps the invariant of the
world, also when the repository fails. -/
theorem serve_materialize_encoded {outage : Outage} (hi : i ≤ c.last)
    (h : c.Encoded checksum (w.run c.runID) w.artifacts) :
    let w' := (Service.materialize (memoryArtifactStore checksum) checksum w outage c.runID
      (c.version i)).2
    c.Encoded checksum (w'.run c.runID) w'.artifacts := by
  obtain ⟨s', a', hcall, h', hgrows, -⟩ := materialize_encoded hi h
  have hbehind := h.withArtifacts h' hgrows
  cases hload : outage.load with
  | some message =>
    simp only [Service.materialize, World.withRun, World.load, hload]
    exact h
  | none =>
    simp only [Service.materialize, World.withRun_eq hload h.runID, hcall, World.settle]
    cases outage.save with
    | some message => exact hbehind
    | none =>
      simp only [World.run_store, h'.runID, if_true]
      exact h'

/-- With a working repository, `Materialize` returns the checksum of the weights and
`MaterializedArtifact` then returns the weights. -/
theorem materialize_reply (hi : i ≤ c.last) (h : c.Encoded checksum (w.run c.runID) w.artifacts) :
    ∃ w', Service.materialize (memoryArtifactStore checksum) checksum w .none c.runID
        (c.version i) = (.ok (c.path i, checksum (c.weights i)), w') ∧
      (Service.materializedArtifact (memoryArtifactStore checksum) checksum w' .none c.runID
        (c.version i)).1 = .ok (c.weights i, checksum (c.weights i)) := by
  obtain ⟨s', a', hcall, h', -, p, hp, huri, hsum⟩ := materialize_encoded hi h
  refine ⟨w.store s' a', ?_, ?_⟩
  · simp only [Service.materialize, World.withRun_eq Outage.load_none h.runID, hcall,
      World.settle, Outage.save_none]
  · -- The record of the version is cached now, so its weights are stored.
    obtain ⟨q, hq, hrecord⟩ := h'.record i hi
    obtain rfl := Option.some.inj (hp.symm.trans hq)
    have hstored : a'.get (c.path i) = some (c.weights i) := by
      rcases hrecord.cached with hblank | ⟨-, -, hget⟩
      · rw [huri] at hblank
        exact absurd hblank (path_ne_blank i)
      · exact hget
    have hfetch : (memoryArtifactStore checksum).fetch a' (c.path i) =
        (.ok (c.weights i), a') := by simp only [memoryArtifactStore, hstored]
    have hread : materializedArtifact (memoryArtifactStore checksum) checksum s' (c.version i) a' =
        (.answer (c.weights i, checksum (c.weights i)), a') := by
      simp only [materializedArtifact, hp, huri, path_ne_blank, hrecord.alive, or_self, if_false,
        hfetch, hsum, ne_eq, not_true_eq_false]
    have hrun : (w.store s' a').run c.runID = s' := by
      rw [World.run_store, if_pos h'.runID.symm]
    have hid : ((w.store s' a').run c.runID).runID = c.runID := by rw [hrun, h'.runID]
    have hartifacts : (w.store s' a').artifacts = a' := rfl
    simp only [Service.materializedArtifact, World.withRun_eq Outage.load_none hid, hrun,
      hartifacts, hread, World.settle]

/-! ## Publishing the chain -/

/-- A successful publication of a new version adds its record and changes no
artifact. -/
theorem publish_ok {outage : Outage} {m : Manifest} {ids : List String} {timeout : Int} {now : Time}
    (hnew : (w.run m.runID).publications.get m.version = none)
    (h : Service.publish (memoryArtifactStore checksum) checksum w outage m ids timeout now = (.ok
      (), w')) :
    ∃ artifact p, w.artifacts.get m.artifactURI = some artifact ∧ w'.artifacts = w.artifacts ∧
      (w'.run m.runID).runID = m.runID ∧
      (w'.run m.runID).publications = (w.run m.runID).publications.set m.version p ∧
      p.manifest = Service.derive m ∧ p.artifactSHA256 = checksum artifact ∧
      p.materializedURI = "" ∧ p.state = .published ∧
      (m.format = "delta" → m.checksums.getD "result" "" ≠ "") := by
  obtain ⟨hid, artifact, hfetch, -, haccepted⟩ := publish_accepted h
  cases hget : w.artifacts.get m.artifactURI with
  | none => simp [memoryArtifactStore, hget] at hfetch
  | some payload =>
    simp only [memoryArtifactStore, hget, Except.ok.injEq] at hfetch haccepted
    subst hfetch
    cases haccepted with
    | again hexisting => cases hnew.symm.trans hexisting
    | @recorded required engines state _ hresult _ hsame hstate =>
      have hrun := World.run_store_of_eq w w.artifacts (hsame.trans hid)
      refine ⟨payload, newPublication m required timeout (checksum payload) now, rfl, rfl, ?_,
        ?_, rfl, rfl, rfl, rfl, hresult⟩
      · rw [hrun, hsame, hid]
      · rw [hrun, hstate]

/-- The chain is published up to version `i`, and nothing is materialized. -/
structure PublishedUpTo (c : DeltaChain) (checksum : Bytes → String) (i : Nat) (s : RunState)
    (a : FinMap String Bytes) : Prop where
  uploaded : c.Uploaded a
  runID : s.runID = c.runID
  record : ∀ j ≤ c.last, j ≤ i → ∃ p, s.publications.get (c.version j) = some p ∧
    c.Record checksum a j p
  later : ∀ j ≤ c.last, i < j → s.publications.get (c.version j) = none

theorem record_of_publish {m : Manifest} (hm : c.Describes checksum i m)
    (hmanifest : p.manifest = Service.derive m) (hsha : p.artifactSHA256 = checksum (c.artifact i))
    (huri : p.materializedURI = "") (hstate : p.state = .published)
    (hresult : m.format = "delta" → m.checksums.getD "result" "" ≠ "") :
    c.Record checksum a i p where
  uri := by
    rw [hmanifest]
    exact hm.uri
  full hi := by
    rw [hmanifest]
    exact (hm.full hi).1
  delta j hj := by
    rw [hmanifest]
    exact ⟨(hm.delta j hj).1, (hm.delta j hj).2.1⟩
  artifactSHA256 := hsha
  expected := by
    have hdeclared : p.manifest.checksums.getD "result" "" = m.checksums.getD "result" "" := by
      rw [hmanifest]
      rfl
    unfold DurablePublication.expected
    rw [hdeclared, hsha]
    cases i with
    | zero =>
      split
      · rfl
      · rename_i hne
        exact (hm.full rfl).2.resolve_left hne
    | succ j =>
      obtain ⟨hdelta, -, hsum⟩ := hm.delta j rfl
      rw [if_neg (hresult hdelta), hsum]
  alive := by
    rw [hstate]
    exact fun h => by cases h
  cached := .inl huri

/-- Publishing the next version. -/
theorem PublishedUpTo.publish {outage : Outage} {m : Manifest} {ids : List String} {timeout : Int}
    {now : Time} (hi : i ≤ c.last) (huploaded : c.Uploaded w.artifacts)
    (hearlier : ∀ j ≤ c.last, j < i → ∃ p, (w.run c.runID).publications.get (c.version j) = some p
      ∧ c.Record checksum w.artifacts j p)
    (hlater : ∀ j ≤ c.last, i ≤ j → (w.run c.runID).publications.get (c.version j) = none)
    (hm : c.Describes checksum i m)
    (h : Service.publish (memoryArtifactStore checksum) checksum w outage m ids timeout now = (.ok
      (), w')) :
    PublishedUpTo c checksum i (w'.run c.runID) w'.artifacts := by
  have hnew : (w.run m.runID).publications.get m.version = none := by
    rw [hm.runID, hm.version]
    exact hlater i hi le_rfl
  obtain ⟨artifact, p, hget, hartifacts, hid, hset, hmanifest, hsha, huri, hstate, hresult⟩ :=
    publish_ok hnew h
  rw [hm.uri, huploaded.artifact i hi] at hget
  obtain rfl := Option.some.inj hget
  rw [hm.runID] at hid hset
  rw [hm.version] at hset
  have hother : ∀ j ≤ c.last, j ≠ i → (w'.run c.runID).publications.get (c.version j) =
      (w.run c.runID).publications.get (c.version j) := by
    intro j hj hne
    rw [hset]
    exact FinMap.get_set_ne _ _ fun heq => hne (c.distinct j hj i hi heq)
  rw [hartifacts]
  refine ⟨huploaded, hid, ?_, ?_⟩
  · intro j hj hle
    rcases Nat.lt_or_eq_of_le hle with hlt | rfl
    · rw [hother j hj (Nat.ne_of_lt hlt)]
      exact hearlier j hj hlt
    · rw [hset]
      exact ⟨p, FinMap.get_set_self _ _ _, record_of_publish hm hmanifest hsha huri hstate hresult⟩
  · intro j hj hlt
    rw [hother j hj (Nat.ne_of_gt hlt)]
    exact hlater j hj (Nat.le_of_lt hlt)

theorem publishedUpTo_of_publishes (hi : i ≤ c.last) (huploaded : c.Uploaded w.artifacts)
    (hnew : ∀ j ≤ c.last, (w.run c.runID).publications.get (c.version j) = none)
    (h : c.Publishes checksum w i w') :
    PublishedUpTo c checksum i (w'.run c.runID) w'.artifacts := by
  induction h with
  | first hm hpublish =>
    exact .publish hi huploaded (fun j _ hlt => absurd hlt (Nat.not_lt_zero j))
      (fun j hj _ => hnew j hj) hm hpublish
  | next _ hm hpublish ih =>
    have hbefore := ih (by omega)
    exact .publish hi hbefore.uploaded
      (fun j hj hlt => hbefore.record j hj (Nat.le_of_lt_succ hlt))
      (fun j hj hle => hbefore.later j hj hle) hm hpublish

theorem encoded_of_publishes (huploaded : c.Uploaded w.artifacts)
    (hnew : ∀ j ≤ c.last, (w.run c.runID).publications.get (c.version j) = none)
    (h : c.Publishes checksum w c.last w') :
    c.Encoded checksum (w'.run c.runID) w'.artifacts := by
  have hpublished := publishedUpTo_of_publishes le_rfl huploaded hnew h
  refine ⟨hpublished.runID, hpublished.uploaded.artifact, ?_, fun i hi => hpublished.record i hi hi⟩
  intro i hi payload hget
  rw [hpublished.uploaded.unmaterialized i hi] at hget
  cases hget

/-- A request to materialize some version of the chain. -/
def Materializes (c : DeltaChain) (request : Request (FinMap String Bytes)) : Prop :=
  ∃ i ≤ c.last, request.call = .materialize c.runID (c.version i)

/-- For every chain of weights: once its versions are published, with their artifacts
in the in-memory store, and after any sequence of `Materialize` calls on any of its
versions, also ones that met repository failures, materializing the last version
succeeds with the checksum of its weights, and its materialized artifact is exactly
these weights. -/
theorem chain_materializes (c : DeltaChain) (checksum : Bytes → String)
    (w w1 w2 : World (FinMap String Bytes)) (requests : List (Request (FinMap String Bytes)))
    (huploaded : c.Uploaded w.artifacts)
    (hnew : ∀ i ≤ c.last, (w.run c.runID).publications.get (c.version i) = none)
    (hpublished : c.Publishes checksum w c.last w1)
    (hrun : Run (Guarded (Step (memoryArtifactStore checksum) checksum) fun _ request =>
      c.Materializes request) w1 requests w2) :
    ∃ uri w3, Service.materialize (memoryArtifactStore checksum) checksum w2 .none c.runID
        (c.version c.last) = (.ok (uri, checksum (c.weights c.last)), w3) ∧
      (Service.materializedArtifact (memoryArtifactStore checksum) checksum w3 .none c.runID
        (c.version c.last)).1 = .ok (c.weights c.last, checksum (c.weights c.last)) := by
  have hencoded : c.Encoded checksum (w2.run c.runID) w2.artifacts := by
    refine hrun.invariant (I := fun w => c.Encoded checksum (w.run c.runID) w.artifacts)
      (encoded_of_publishes huploaded hnew hpublished) ?_
    rintro a ⟨call, outage⟩ b ha ⟨⟨-, rfl⟩, i, hi, hcall⟩
    obtain rfl : call = _ := hcall
    exact serve_materialize_encoded hi ha
  obtain ⟨w3, hcall, hread⟩ := materialize_reply le_rfl hencoded
  exact ⟨c.path c.last, w3, hcall, hread⟩

end DeltaChain

namespace Trial

def weightPair : DeltaChain where
  runID := "run"
  last := 1
  version i := if i = 0 then "v0" else "v1"
  uri i := if i = 0 then "full.bin" else "delta.bin"
  weights i := if i = 0 then [1] else [6]
  lengths := by decide
  distinct := by decide
  outside := by
    intro i _ v h
    have hlist := congrArg String.toList h
    split at hlist <;> simp [materializedPath, String.toList_append] at hlist

def pairArtifacts : FinMap String Bytes :=
  ((∅ : FinMap String Bytes).set "full.bin" [1]).set "delta.bin" [7]

def fullManifest : Manifest := { manifest "v0" "full" "" with artifactURI := "full.bin" }

def deltaManifest : Manifest := { manifest "v1" "delta" "v0" with artifactURI := "delta.bin" }

def pairPublished : World (FinMap String Bytes) :=
  serveAll store (fun _ => digest) (World.initial pairArtifacts)
    [request (.publish fullManifest [] 1 0), request (.publish deltaManifest [] 1 0)]

theorem publishes_pairPublished :
    weightPair.Publishes (fun _ => digest) (World.initial pairArtifacts) 1 pairPublished := by
  have hfull : weightPair.Describes (fun _ => digest) 0 fullManifest :=
    ⟨rfl, rfl, rfl, fun _ => ⟨rfl, .inr rfl⟩, nofun⟩
  have hdelta : weightPair.Describes (fun _ => digest) 1 deltaManifest := by
    refine ⟨rfl, rfl, rfl, nofun, ?_⟩
    intro j h
    obtain rfl : 0 = j := Nat.succ.inj h
    exact ⟨rfl, rfl, rfl⟩
  have hfirst : Service.publish store (fun _ => digest) (World.initial pairArtifacts) .none
      fullManifest [] 1 0 = (.ok (), serve store (fun _ => digest) (World.initial pairArtifacts)
        (request (.publish fullManifest [] 1 0))) := Prod.ext rfl rfl
  have hsecond : Service.publish store (fun _ => digest) (serve store (fun _ => digest)
      (World.initial pairArtifacts) (request (.publish fullManifest [] 1 0))) .none
      deltaManifest [] 1 0 = (.ok (), pairPublished) := Prod.ext rfl rfl
  exact .next (.first hfull hfirst) hdelta hsecond

def pairCalls : List (Request (FinMap String Bytes)) :=
  [⟨.materialize "run" "v0", .none⟩, ⟨.materialize "run" "v1", ⟨none, some "locked"⟩⟩]

end Trial

theorem chain_materializes_weightPair :
    ∃ uri w3, Service.materialize Trial.store (fun _ => Trial.digest)
        (serveAll Trial.store (fun _ => Trial.digest) Trial.pairPublished
          Trial.pairCalls) .none "run" "v1" = (.ok (uri, Trial.digest), w3) ∧
      (Service.materializedArtifact Trial.store (fun _ => Trial.digest) w3 .none "run"
        "v1").1 = .ok ([6], Trial.digest) := by
  have huploaded : Trial.weightPair.Uploaded Trial.pairArtifacts := ⟨by decide, by decide⟩
  exact DeltaChain.chain_materializes Trial.weightPair _ (World.initial Trial.pairArtifacts)
    Trial.pairPublished _ Trial.pairCalls huploaded (fun _ _ => rfl)
    Trial.publishes_pairPublished
    (.snoc (.snoc .nil ⟨⟨trivial, rfl⟩, 0, by decide, rfl⟩) ⟨⟨trivial, rfl⟩, 1, by decide, rfl⟩)

end Weights
end Skyscale
