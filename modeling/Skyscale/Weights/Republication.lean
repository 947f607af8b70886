import Skyscale.Weights.Materialization

/-!
# Publishing a version again

`Publish` of a version that is already recorded compares one hash, the artifact's, and
returns `nil` without touching the record.  Two consequences:

* `publication_recorded_iff`: what is recorded is what was submitted exactly when the
  record that was there agrees with the submission.  A new version is always recorded
  as submitted.
* `published_served_iff`: the version can be served after the `Materialize` that follows
  exactly when it was not recorded as failed with its materialized weights still in
  place.  The cached path of `materializeLocked` returns these weights and leaves the
  record failed, and `MaterializedArtifact` refuses a failed record.

Both hold in every world, whatever the history that led there.
-/

namespace Skyscale
namespace Weights

open Lib

/-! ## What is recorded -/

/-- A record says what a manifest and a list of engines say. -/
structure DurablePublication.RecordsSubmission (p : DurablePublication) (m : Manifest)
    (ids : List String) : Prop where
  format : p.manifest.format = m.format
  parent : p.manifest.parentVersion = m.parentVersion
  optimizerStep : p.manifest.optimizerStep = m.optimizerStep
  artifactURI : p.manifest.artifactURI = m.artifactURI
  expected : p.expected =
    if m.checksums.getD "result" "" = "" then m.checksums.getD "artifact" ""
    else m.checksums.getD "result" ""
  required : ∀ e, e ∈ p.required.keys ↔ e ∈ ids

theorem newPublication_recordsSubmission {m : Manifest} {ids : List String}
    {required : FinMap String Bool} {engines engines' : FinMap String EngineState} (timeout : Int)
    {hash : String} (now : Time) (hsum : m.checksums.getD "artifact" "" = hash)
    (hrequire : requireEngines m.version ids ∅ engines = .ok (required, engines')) :
    (newPublication m required timeout hash now).RecordsSubmission m ids where
  format := rfl
  parent := rfl
  optimizerStep := rfl
  artifactURI := rfl
  expected := by
    rw [hsum]
    rfl
  required e := by
    show e ∈ required.keys ↔ e ∈ ids
    rw [(requireEngines_spec hrequire).1 e, FinMap.keys_empty]
    simp

section

variable {σ : Type} (A : ArtifactStore σ) (checksum : Bytes → String)

/-- After a successful `Publish` the version is recorded as submitted exactly when no
record was there that says something else. -/
theorem publication_recorded_iff (w w' : World σ) (outage : Outage) (m : Manifest)
    (ids : List String) (timeout : Int) (now : Time)
    (h : Service.publish A checksum w outage m ids timeout now = (.ok (), w')) :
    (∃ p, (w'.run m.runID).publications.get m.version = some p ∧ p.RecordsSubmission m ids) ↔
      ∀ existing, (w.run m.runID).publications.get m.version = some existing →
        existing.RecordsSubmission m ids := by
  obtain ⟨hid, artifact, -, hsum, haccepted⟩ := publish_accepted h
  cases haccepted with
  | again hexisting _ =>
    constructor
    · rintro ⟨p, hp, hrecords⟩ existing hsome
      obtain rfl := Option.some.inj (hsome.symm.trans hp)
      exact hrecords
    · intro hrecords
      exact ⟨_, hexisting, hrecords _ hexisting⟩
  | recorded hnew _ hrequire hsame hstate =>
    have hrun := World.run_store_of_eq w (A.fetch w.artifacts m.artifactURI).2 (hsame.trans hid)
    constructor
    · intro _ existing hsome
      cases hnew.symm.trans hsome
    · intro _
      refine ⟨newPublication m _ timeout (checksum artifact) now, ?_,
        newPublication_recordsSubmission timeout now hsum hrequire⟩
      rw [hrun, hstate, FinMap.get_set_self]

end

namespace Trial

def recordedOnce : Calls :=
  [.registerEngine "run" "a" "", .publish (manifest "v1" "full" "") [] 60 0]

def laterManifest : Manifest :=
  { manifest "v1" "full" "" with
    optimizerStep := 7, checksums := FinMap.ofList [("artifact", digest)] }

end Trial

open Trial in
theorem publication_recorded_iff_new :
    ∃ w' p, Service.publish store (fun _ => digest) (after recordedOnce) .none
        (manifest "v2" "full" "") ["a"] 60 1 = (.ok (), w') ∧
      (w'.run "run").publications.get "v2" = some p ∧
      p.RecordsSubmission (manifest "v2" "full" "") ["a"] := by
  have hok : (Service.publish store (fun _ => digest) (after recordedOnce) .none
      (manifest "v2" "full" "") ["a"] 60 1).1 = .ok () := by with_unfolding_all rfl
  have hnew : ((after recordedOnce).run "run").publications.get "v2" = none := by
    with_unfolding_all rfl
  have hpublish : Service.publish store (fun _ => digest) (after recordedOnce) .none
      (manifest "v2" "full" "") ["a"] 60 1 = (.ok (), (Service.publish store (fun _ => digest)
        (after recordedOnce) .none (manifest "v2" "full" "") ["a"] 60 1).2) :=
    Prod.ext hok rfl
  obtain ⟨p, hp, hrecords⟩ := (publication_recorded_iff store (fun _ => digest) _ _ _ _ _ _ _
    hpublish).mpr fun existing hsome => by cases hnew.symm.trans hsome
  exact ⟨_, p, hpublish, hp, hrecords⟩

open Trial in
/-- The second submission asks for engine `a` and optimizer step 7 and is accepted; the
record keeps step 0 and requires no engine. -/
theorem publication_not_recorded :
    ∃ w' p, Run (Step store fun _ => digest) (World.initial artifacts)
        (recordedOnce.map request) (after recordedOnce) ∧
      Service.publish store (fun _ => digest) (after recordedOnce) .none laterManifest ["a"] 60 1 =
        (.ok (), w') ∧
      (w'.run "run").publications.get "v1" = some p ∧ p.manifest.optimizerStep = 0 ∧
      p.required.keys = [] ∧ ¬p.RecordsSubmission laterManifest ["a"] := by
  refine ⟨_, _, run_after (by decide), Prod.ext (by with_unfolding_all rfl) rfl,
    by with_unfolding_all rfl, rfl, rfl, ?_⟩
  intro hrecords
  exact absurd ((hrecords.required "a").mpr List.mem_cons_self) List.not_mem_nil

/-! ## What can be served -/

section

variable {σ : Type} (A : ArtifactStore σ) (checksum : Bytes → String)

/-- A store whose calls do what they are for: `Fetch` changes nothing, and what
`PutImmutable` accepted is found with the checksum it was given. -/
structure ArtifactStore.Durable : Prop where
  reads : ∀ a uri, (A.fetch a uri).2 = a
  keeps : ∀ a uri payload sum, (A.putImmutable a uri payload sum).1 = .ok () →
    ∃ stored, (A.fetch (A.putImmutable a uri payload sum).2 uri).1 = .ok stored ∧
      checksum stored = sum

/-- The version is recorded as failed, and its materialized weights are in place. -/
def FailedInPlace (s : RunState) (a : σ) (v : String) : Prop :=
  ∃ p payload, s.publications.get v = some p ∧ p.state = .failed ∧ p.materializedURI ≠ "" ∧
    (A.fetch a p.materializedURI).1 = .ok payload ∧ checksum payload = p.resultSHA256

/-- The weights of a record are in place under its URI. -/
def DurablePublication.InPlace (p : DurablePublication) (a : σ) : Prop :=
  p.materializedURI ≠ "" ∧
    ∃ payload, (A.fetch a p.materializedURI).1 = .ok payload ∧ checksum payload = p.resultSHA256

variable {A checksum}

variable {s : RunState} {p : DurablePublication}

theorem failedInPlace_iff {a : σ} {v : String} (hp : s.publications.get v = some p) :
    FailedInPlace A checksum s a v ↔ p.state = .failed ∧ p.InPlace A checksum a := by
  constructor
  · rintro ⟨q, payload, hq, hfailed, huri, hfetch, hsum⟩
    obtain rfl := Option.some.inj (hp.symm.trans hq)
    exact ⟨hfailed, huri, payload, hfetch, hsum⟩
  · rintro ⟨hfailed, huri, payload, hfetch, hsum⟩
    exact ⟨p, payload, hp, hfailed, huri, hfetch, hsum⟩

theorem inPlace_of_fetchMaterialized {a : σ} {payload : Bytes}
    (h : (fetchMaterialized A checksum p a).1 = some payload) : p.InPlace A checksum a := by
  unfold fetchMaterialized at h
  split at h
  · cases h
  rename_i huri
  refine ⟨huri, ?_⟩
  cases hfetch : A.fetch a p.materializedURI with
  | mk fetched a' =>
    rw [hfetch] at h
    cases fetched with
    | error message => cases h
    | ok stored =>
      simp only at h
      split at h
      · rename_i hsum
        exact ⟨stored, rfl, hsum⟩
      · cases h

theorem not_inPlace_of_fetchMaterialized {a : σ} (h : (fetchMaterialized A checksum p a).1 = none) :
    ¬p.InPlace A checksum a := by
  rintro ⟨huri, payload, hfetch, hsum⟩
  unfold fetchMaterialized at h
  rw [if_neg huri] at h
  cases hresult : A.fetch a p.materializedURI with
  | mk fetched a' =>
    rw [hresult] at h hfetch
    simp only at hfetch
    subst hfetch
    simp [hsum] at h

theorem snd_fetchMaterialized (hA : A.Durable checksum) (p : DurablePublication) (a : σ) :
    (fetchMaterialized A checksum p a).2 = a := by
  unfold fetchMaterialized
  split
  · rfl
  · have hreads := hA.reads a p.materializedURI
    split
    · rename_i hfetch
      rw [hfetch] at hreads
      exact hreads
    · rename_i hfetch
      rw [hfetch] at hreads
      exact hreads

theorem inPlace_of_storeMaterialized (hA : A.Durable checksum) {version : String}
    {result payload : Bytes} {s' : RunState} {a a' : σ}
    (h : storeMaterialized A checksum version p result s a = (.ok payload, s', a')) :
    s'.runID = s.runID ∧ s'.publications.get version = some (p.readied s.runID version) ∧
      (p.readied s.runID version).InPlace A checksum a' := by
  unfold storeMaterialized at h
  split at h
  · cases h
  have hkeeps := hA.keeps a (materializedPath s.runID version) result p.expected
  cases hput : A.putImmutable a (materializedPath s.runID version) result p.expected with
  | mk written a1 =>
    rw [hput] at h hkeeps
    cases written with
    | error message => cases h
    | ok _ =>
      simp only [Prod.mk.injEq, Except.ok.injEq] at h
      obtain ⟨-, rfl, rfl⟩ := h
      exact ⟨rfl, FinMap.get_set_self _ _ _, materializedPath_ne_blank _ _, hkeeps rfl⟩

/-- A materialization that succeeds found the weights in place and changed nothing, or
the record is ready now with its weights in place. -/
theorem materializeLocked_ok (hA : A.Durable checksum) {fuel : Nat} {version : String}
    {visiting : List String} {s' : RunState} {a a' : σ} {payload : Bytes}
    (h : materializeLocked A checksum fuel version visiting s a = (.ok payload, s', a')) :
    ∃ p, s.publications.get version = some p ∧ s'.runID = s.runID ∧
      (p.InPlace A checksum a ∧ s' = s ∧ a' = a ∨
        ¬p.InPlace A checksum a ∧
          s'.publications.get version = some (p.readied s.runID version) ∧
          (p.readied s.runID version).InPlace A checksum a') := by
  cases fuel with
  | zero => cases h
  | succ fuel =>
    unfold materializeLocked at h
    split at h
    · cases h
    split at h
    · cases h
    rename_i p hp
    refine ⟨p, hp, ?_⟩
    have hreads := snd_fetchMaterialized hA p a
    split at h
    · rename_i cached a1 hcached
      rw [hcached] at hreads
      simp only [Prod.mk.injEq, Except.ok.injEq] at h
      obtain ⟨-, rfl, rfl⟩ := h
      exact ⟨rfl, .inl ⟨inPlace_of_fetchMaterialized (by rw [hcached]), rfl, hreads⟩⟩
    rename_i a1 hcached
    have hmissing : ¬p.InPlace A checksum a :=
      not_inPlace_of_fetchMaterialized (by rw [hcached])
    split at h
    · cases h
    split at h
    · cases h
    split at h
    · -- The parents are readied first, which leaves the record of `version` alone.
      rename_i a2 _ _ _
      have hchain := readyMany_materializeLocked A checksum fuel p.manifest.parentVersion
        (version :: visiting) s a2
      split at h
      · cases h
      rename_i parent s1 a3 hparent
      rw [hparent] at hchain
      split at h
      · cases h
      obtain ⟨hid, hget, hplace⟩ := inPlace_of_storeMaterialized hA h
      have hrunID : s1.runID = s.runID := hchain.effects.invariant
        (I := fun t => t.runID = s.runID) rfl fun t u ht htu => htu.runID.trans ht
      rw [hrunID] at hget hplace hid
      exact ⟨hid, .inr ⟨hmissing, hget, hplace⟩⟩
    · obtain ⟨hid, hget, hplace⟩ := inPlace_of_storeMaterialized hA h
      exact ⟨hid, .inr ⟨hmissing, hget, hplace⟩⟩

/-- `MaterializedArtifact` serves a record whose weights are in place, unless it is
failed. -/
theorem materializedArtifact_of_inPlace {a : σ} {v : String} (hp : s.publications.get v = some p)
    (hplace : p.InPlace A checksum a) :
    (p.state = .failed → ∃ message,
      (materializedArtifact A checksum s v a).1 = .refuse message) ∧
    (p.state ≠ .failed → ∃ payload,
      (materializedArtifact A checksum s v a).1 = .answer (payload, p.resultSHA256) ∧
        checksum payload = p.resultSHA256) := by
  obtain ⟨huri, payload, hfetch, hsum⟩ := hplace
  unfold materializedArtifact
  constructor
  · intro hfailed
    exact ⟨"materialized weight version is unavailable", by simp [hp, hfailed]⟩
  · intro halive
    refine ⟨payload, ?_, hsum⟩
    cases hresult : A.fetch a p.materializedURI with
    | mk fetched a' =>
      rw [hresult] at hfetch
      simp only at hfetch
      subst hfetch
      simp [hp, huri, halive, hresult, hsum]

/-- `MaterializedArtifact` returns weights of the given checksum. -/
def Serves (A : ArtifactStore σ) (checksum : Bytes → String) (w : World σ) (runID v c : String) :
    Prop :=
  ∃ payload sum w', Service.materializedArtifact A checksum w .none runID v =
    (.ok (payload, sum), w') ∧ checksum payload = c

theorem serves_iff_of_inPlace {w : World σ} {runID v : String} (hid : (w.run runID).runID = runID)
    (hp : (w.run runID).publications.get v = some p) (hplace : p.InPlace A checksum w.artifacts) :
    Serves A checksum w runID v p.resultSHA256 ↔ p.state ≠ .failed := by
  unfold Serves Service.materializedArtifact
  rw [World.withRun_eq Outage.load_none hid]
  obtain ⟨hfailed, halive⟩ := materializedArtifact_of_inPlace hp hplace
  constructor
  · rintro ⟨payload, sum, w', hserved, -⟩ hstate
    obtain ⟨message, hrefuse⟩ := hfailed hstate
    rw [hrefuse] at hserved
    simp [World.settle] at hserved
  · intro hstate
    obtain ⟨payload, hanswer, hsum⟩ := halive hstate
    exact ⟨payload, p.resultSHA256, _, by rw [hanswer]; rfl, hsum⟩

/-- After a `Materialize` that succeeds the version is served, unless it was failed with
its weights in place. -/
theorem materialized_served_iff (hA : A.Durable checksum) {w w' : World σ} {outage : Outage}
    {runID v uri c : String}
    (h : Service.materialize A checksum w outage runID v = (.ok (uri, c), w')) :
    Serves A checksum w' runID v c ↔ ¬FailedInPlace A checksum (w.run runID) w.artifacts v := by
  obtain ⟨-, hid, hout⟩ := World.withRun_ok h
  cases hlocked : materializeLocked A checksum ((w.run runID).publications.size + 1) v []
      (w.run runID) w.artifacts with
  | mk result rest =>
    obtain ⟨s', a'⟩ := rest
    simp only [materialize, hlocked] at hout
    cases result with
    | error e => rcases hout with ⟨hout, -⟩ | ⟨state, hout, -⟩ <;> cases hout
    | ok payload =>
      obtain ⟨p, hp, hsame, hcases⟩ := materializeLocked_ok hA hlocked
      rw [failedInPlace_iff hp]
      have hrun : ∀ q, s'.publications.get v = some q →
          c = q.resultSHA256 ∧ w' = w.store s' a' := by
        intro q hq
        simp only [hq] at hout
        rcases hout with ⟨hout, -⟩ | ⟨state, hout, hw'⟩
        · cases hout
        · obtain ⟨rfl, hvalue⟩ := Outcome.commit.inj hout
          exact ⟨(congrArg Prod.snd hvalue).symm, hw'⟩
      have hid' : s'.runID = runID := hsame.trans hid
      rcases hcases with ⟨hplace, rfl, rfl⟩ | ⟨hmissing, hget, hplace⟩
      · -- The cached weights: the record is as it was.
        obtain ⟨rfl, rfl⟩ := hrun p hp
        have hstored := World.run_store_of_eq w w.artifacts hid'
        have hserves := serves_iff_of_inPlace (w := w.store (w.run runID) w.artifacts)
          (by rw [hstored, hid']) (by rw [hstored, hp]) hplace
        rw [hserves]
        exact ⟨fun halive hfailed => halive hfailed.1, fun hnot hfailed => hnot ⟨hfailed, hplace⟩⟩
      · obtain ⟨rfl, rfl⟩ := hrun _ hget
        have hstored := World.run_store_of_eq w a' hid'
        have hserves := serves_iff_of_inPlace (w := w.store s' a') (by rw [hstored, hid'])
          (by rw [hstored, hget]) hplace
        rw [hserves]
        exact ⟨fun _ hfailed => hmissing hfailed.2, fun _ hfailed => by cases hfailed⟩

variable (A checksum)

/-- After a `Publish` and a `Materialize` that succeed the version is served, unless it
was recorded before as failed with its materialized weights in place. -/
theorem published_served_iff (hA : A.Durable checksum) (w w1 w2 : World σ)
    (outage1 outage2 : Outage) (m : Manifest) (ids : List String) (timeout : Int) (now : Time)
    (uri c : String)
    (hpublish : Service.publish A checksum w outage1 m ids timeout now = (.ok (), w1))
    (hmaterialize : Service.materialize A checksum w1 outage2 m.runID m.version =
      (.ok (uri, c), w2)) :
    Serves A checksum w2 m.runID m.version c ↔
      ¬FailedInPlace A checksum (w.run m.runID) w.artifacts m.version := by
  rw [materialized_served_iff hA hmaterialize]
  obtain ⟨hid, artifact, -, -, haccepted⟩ := publish_accepted hpublish
  rw [hA.reads] at haccepted
  cases haccepted with
  | again _ _ => exact Iff.rfl
  | recorded hnew _ _ hsame hstate =>
    -- A new record has no weights, and before it there was no record at all.
    rw [World.run_store_of_eq w w.artifacts (hsame.trans hid)]
    rw [failedInPlace_iff (by rw [hstate, FinMap.get_set_self])]
    constructor
    · rintro - ⟨p, payload, hp, -⟩
      cases hnew.symm.trans hp
    · rintro - ⟨hfailed, -⟩
      cases hfailed

end

theorem durable_memoryArtifactStore (checksum : Bytes → String) :
    (memoryArtifactStore checksum).Durable checksum where
  reads a uri := by
    simp only [memoryArtifactStore]
    split <;> rfl
  keeps a uri payload sum h := by
    by_cases hsum : checksum payload = sum
    · by_cases hconflict : ((a.get uri).any fun existing => existing ≠ payload) = true
      · simp only [memoryArtifactStore, hsum, ne_eq, not_true_eq_false, if_false, hconflict,
          if_true, reduceCtorEq] at h
      · have hput : (memoryArtifactStore checksum).putImmutable a uri payload sum =
            (.ok (), a.set uri payload) := by
          simp only [memoryArtifactStore, hsum, ne_eq, not_true_eq_false, if_false]
          rw [if_neg hconflict]
        rw [hput]
        exact ⟨payload, by simp [memoryArtifactStore], hsum⟩
    · simp [memoryArtifactStore, hsum] at h

namespace Trial

def expiredOnce : Calls :=
  [.registerEngine "run" "a" "", .publish (manifest "v1" "full" "") ["a"] 60 0,
    .materialize "run" "v1", .expire "run" 61 ["v1"]]

def published (v : String) : Reply Unit × World (FinMap String Bytes) :=
  Service.publish store (fun _ => digest) (after expiredOnce) .none (manifest v "full" "") ["a"] 60
    62

def materialized (v : String) : Reply (String × String) × World (FinMap String Bytes) :=
  Service.materialize store (fun _ => digest) (published v).2 .none "run" v

end Trial

open Trial in
theorem published_served_iff_new :
    Serves store (fun _ => digest) (materialized "v2").2 "run" "v2" digest := by
  have hpublish : published "v2" = (.ok (), (published "v2").2) :=
    Prod.ext (by with_unfolding_all rfl) rfl
  have hmaterialize : materialized "v2" =
      (.ok ("weights/run/materialized/v2.bin", digest), (materialized "v2").2) :=
    Prod.ext (by with_unfolding_all rfl) rfl
  have hnew : ((after expiredOnce).run "run").publications.get "v2" = none := by
    with_unfolding_all rfl
  refine (published_served_iff store (fun _ => digest) (durable_memoryArtifactStore _) _ _ _ _ _
    (manifest "v2" "full" "") _ _ _ _ _ hpublish hmaterialize).mpr ?_
  rintro ⟨p, payload, hp, -⟩
  cases hnew.symm.trans hp

open Trial in
/-- Published again after it expired, `v1` is accepted and materialized with its
checksum, and then cannot be served. -/
theorem published_not_served :
    Run (Step store fun _ => digest) (World.initial artifacts) (expiredOnce.map request)
        (after expiredOnce) ∧
      (published "v1").1 = .ok () ∧
      (materialized "v1").1 = .ok ("weights/run/materialized/v1.bin", digest) ∧
      (Service.materializedArtifact store (fun _ => digest) (materialized "v1").2 .none "run"
        "v1").1 = .err "materialized weight version is unavailable" := by
  refine ⟨run_after (by decide), ?_, ?_, ?_⟩
  · with_unfolding_all rfl
  · with_unfolding_all rfl
  · with_unfolding_all rfl

end Weights
end Skyscale
