import Mathlib.Data.List.Sort
import Skyscale.Lib.Bytes
import Skyscale.Lib.FinMap

/-!
# The weight service

This module embeds `control-plane/weights/service.go`: manifests, publications,
engines and the calls of `Service` on the durable state of a run.

A call loads the state of its run, works on that private copy under the service
mutex and hands it to `save`.  The JSON round trip through the repository is the
identity on such states, so the repository is a map from run identifiers to run
states.  What happens at the end of a call is an `Outcome`:

* `refuse` returns an error and leaves the durable state alone, even where the
  private copy was already modified;
* `answer` returns a value without saving;
* `commit` saves the copy and returns a value, or the error of `save`;
* `reject` saves the copy, ignores the error of `save`, and returns an error;
* `crash` is the panic of a `nil` dereference.

Three things come from outside: the artifact store, which is an arbitrary state
machine `ArtifactStore σ`; the hash `checksum`; and what the run-time leaves
open, namely clock readings, map iteration orders and repository failures, which
are arguments of the calls.

Fields that no function of the service reads are left out: `DType`, `Tensors`,
`Compatibility` and `CreatedAt` of a manifest, and `UpdatedAt` of a run state.
-/

namespace Skyscale
namespace Weights

open Lib

/-- Instants of the wall clock, in nanoseconds. -/
abbrev Time := Nat

/-! ## Data model -/

structure Manifest where
  apiVersion : String
  version : String
  runID : String
  baseCheckpoint : String
  parentVersion : String
  format : String
  checksums : FinMap String String
  byteSize : Int
  optimizerStep : Int
  artifactURI : String
  uploadComplete : Bool
  manifestCommitted : Bool
  verified : Bool

/-- `Manifest.Validate`. -/
def Manifest.validate (m : Manifest) : Except String Unit :=
  if m.apiVersion ≠ "rl.skyscale.dev/v1alpha1" ∨ m.version = "" ∨ m.runID = "" ∨
      m.baseCheckpoint = "" then
    .error "version, run, base checkpoint, and API version are required"
  else if m.format ≠ "full" ∧ m.format ≠ "delta" then
    .error "format must be full or delta"
  else if m.format = "delta" ∧ m.parentVersion = "" then
    .error "delta manifest requires parent version"
  else if m.byteSize ≤ 0 ∨ m.artifactURI = "" ∨ m.checksums.size = 0 then
    .error "artifact URI, size, and checksums are required"
  else
    .ok ()

structure EngineState where
  engineID : String
  desiredVersion : String
  currentVersion : String
  lastGoodVersion : String
  acknowledgedAt : Time
  error : String
  draining : Bool
deriving DecidableEq

/-- The life cycle of a publication, `DurablePublication.State`. -/
inductive PublicationState
  | published
  | ready
  | activating
  | active
  | superseded
  | rolledBack
  | failed
  | garbageCollected
deriving DecidableEq

/-- The states that `Expire` may fail and `GarbageCollect` must not collect. -/
def PublicationState.inFlight : PublicationState → Bool
  | published | ready | activating => true
  | active | superseded | rolledBack | failed | garbageCollected => false

structure DurablePublication where
  manifest : Manifest
  required : FinMap String Bool
  acks : FinMap String Time
  state : PublicationState
  deadline : Time
  materializedURI : String
  artifactSHA256 : String
  resultSHA256 : String

/-- The durable state of one run. -/
structure RunState where
  runID : String
  publications : FinMap String DurablePublication
  engines : FinMap String EngineState
  active : String
  lastGood : String

/-- The state `load` returns for a run the repository does not know. -/
def RunState.empty (runID : String) : RunState where
  runID := runID
  publications := ∅
  engines := ∅
  active := ""
  lastGood := ""

/-- The `ArtifactStore` interface, as an arbitrary state machine: every call may
fail and may change what later calls return. -/
structure ArtifactStore (σ : Type) where
  fetch : σ → String → Except String Bytes × σ
  putImmutable : σ → String → Bytes → String → Except String Unit × σ
  delete : σ → String → Except String Unit × σ

/-- What a call of the service does with its private copy of the run state. -/
inductive Outcome (α : Type)
  | refuse (message : String)
  | answer (value : α)
  | commit (state : RunState) (value : α)
  | reject (state : RunState) (message : String)
  | crash

/-- The run state handed to `save`, if the call gets that far. -/
def Outcome.saved {α : Type} : Outcome α → Option RunState
  | refuse _ => none
  | answer _ => none
  | commit state _ => some state
  | reject state _ => some state
  | crash => none

/-! ## Engines -/

/-- `Service.RegisterEngine` after its argument check. -/
def registerEngine (state : RunState) (engineID currentVersion : String) : Outcome Unit :=
  match state.engines.get engineID with
  | some engine =>
    if engine.currentVersion = "" ∧ currentVersion ≠ "" then
      .commit { state with
        engines := state.engines.set engineID
          { engine with currentVersion := currentVersion, lastGoodVersion := currentVersion } } ()
    else
      .commit state ()
  | none =>
    .commit { state with
      engines := state.engines.set engineID
        { engineID := engineID, desiredVersion := "", currentVersion := currentVersion,
          lastGoodVersion := currentVersion, acknowledgedAt := 0, error := "",
          draining := false } } ()

/-! ## Publishing -/

/-- The loop of `Publish` over the required engines.  It stops at the first
engine the run does not know. -/
def requireEngines (version : String) :
    List String → FinMap String Bool → FinMap String EngineState →
      Except String (FinMap String Bool × FinMap String EngineState)
  | [], required, engines => .ok (required, engines)
  | engineID :: rest, required, engines =>
    match engines.get engineID with
    | none => .error engineID
    | some engine =>
      requireEngines version rest (required.set engineID true)
        (engines.set engineID { engine with desiredVersion := version, draining := true })

/-- The check of `Publish` that a delta can be based on its parent. -/
def parentAvailable (state : RunState) (manifest : Manifest) : Bool :=
  match state.publications.get manifest.parentVersion with
  | none => false
  | some parent => parent.state ≠ .failed ∧ parent.state ≠ .garbageCollected

/-- `Service.Publish` once the artifact has been fetched and its hash agrees with
the manifest; `manifest` already carries the service-derived facts. -/
def publishLocked (state : RunState) (manifest : Manifest) (requiredEngines : List String)
    (timeout : Int) (artifactHash : String) (now : Time) : Outcome Unit :=
  match state.publications.get manifest.version with
  | some existing =>
    if existing.artifactSHA256 = artifactHash then
      .answer ()
    else
      .refuse "weight version already exists with different content"
  | none =>
    if manifest.format = "delta" ∧ parentAvailable state manifest = false then
      .refuse ("delta parent " ++ manifest.parentVersion ++ " is unavailable")
    else if manifest.format = "delta" ∧ manifest.checksums.getD "result" "" = "" then
      .refuse "delta manifest requires result checksum"
    else
      match requireEngines manifest.version requiredEngines ∅ state.engines with
      | .error engineID =>
        .refuse ("required engine " ++ engineID ++ " is not registered for run " ++
          manifest.runID)
      | .ok (required, engines) =>
        .commit { state with
          engines := engines
          publications := state.publications.set manifest.version
            { manifest := manifest, required := required, acks := ∅, state := .published,
              deadline := now + timeout.toNat, materializedURI := "",
              artifactSHA256 := artifactHash,
              resultSHA256 := manifest.checksums.getD "result" "" } } ()

/-! ## Materialization -/

/-- `applyXORDelta`. -/
def applyXORDelta (parent delta : Bytes) : Option Bytes :=
  if parent.length = delta.length then some (List.zipWith (· ^^^ ·) parent delta) else none

/-- The ways `materializeLocked` fails.  `outOfFuel` belongs to the embedding:
the fuel of `materialize` is shown to suffice. -/
inductive MaterializeError
  | parentCycle
  | notFound (version : String)
  | fetch (message : String)
  | artifactChecksum
  | deltaSize
  | resultChecksum
  | put (message : String)
  | outOfFuel
deriving DecidableEq

/-- The error text the caller sees. -/
def MaterializeError.message : MaterializeError → String
  | parentCycle => "weight parent cycle detected"
  | notFound version => "weight version " ++ version ++ " not found"
  | fetch message => message
  | artifactChecksum => "stored weight artifact checksum mismatch"
  | deltaSize => "delta and parent artifact sizes differ"
  | resultChecksum => "materialized weight checksum mismatch"
  | put message => message
  | outOfFuel => ""

/-- The checksum a materialized publication must have: the declared result, or
the artifact itself when the manifest declares none. -/
def DurablePublication.expected (p : DurablePublication) : String :=
  if p.manifest.checksums.getD "result" "" = "" then p.artifactSHA256
  else p.manifest.checksums.getD "result" ""

/-- Where the materialized weights of a version are written. -/
def materializedPath (runID version : String) : String :=
  "weights/" ++ runID ++ "/materialized/" ++ version ++ ".bin"

/-- The record of a publication whose weights have just been materialized. -/
def DurablePublication.readied (runID version : String) (p : DurablePublication) :
    DurablePublication :=
  { p with
    materializedURI := materializedPath runID version
    resultSHA256 := p.expected
    state := .ready }

section Artifacts

variable {σ : Type} (A : ArtifactStore σ) (checksum : Bytes → String)

/-- The cached fast path of `materializeLocked`: the payload under the recorded
URI, provided it can be fetched and still has the recorded checksum. -/
def fetchMaterialized (p : DurablePublication) (a : σ) : Option Bytes × σ :=
  if p.materializedURI = "" then
    (none, a)
  else
    match A.fetch a p.materializedURI with
    | (.ok payload, a) => (if checksum payload = p.resultSHA256 then some payload else none, a)
    | (.error _, a) => (none, a)

/-- The end of `materializeLocked`: check the result, write it and update the
record. -/
def storeMaterialized (version : String) (p : DurablePublication) (result : Bytes)
    (state : RunState) (a : σ) : Except MaterializeError Bytes × RunState × σ :=
  if checksum result ≠ p.expected then
    (.error .resultChecksum, state, a)
  else
    match A.putImmutable a (materializedPath state.runID version) result p.expected with
    | (.error message, a) => (.error (.put message), state, a)
    | (.ok _, a) =>
      (.ok result,
        { state with
          publications := state.publications.set version (p.readied state.runID version) }, a)

/-- `Service.materializeLocked`.  The set `visiting` is passed down the recursion,
which has the same effect as inserting before and deleting after the call. -/
def materializeLocked : Nat → String → List String → RunState → σ →
    Except MaterializeError Bytes × RunState × σ
  | 0, _, _, state, a => (.error .outOfFuel, state, a)
  | fuel + 1, version, visiting, state, a =>
    if version ∈ visiting then
      (.error .parentCycle, state, a)
    else
      match state.publications.get version with
      | none => (.error (.notFound version), state, a)
      | some p =>
        match fetchMaterialized A checksum p a with
        | (some payload, a) => (.ok payload, state, a)
        | (none, a) =>
          match A.fetch a p.manifest.artifactURI with
          | (.error message, a) => (.error (.fetch message), state, a)
          | (.ok artifact, a) =>
            if checksum artifact ≠ p.artifactSHA256 then
              (.error .artifactChecksum, state, a)
            else if p.manifest.format = "delta" then
              match materializeLocked fuel p.manifest.parentVersion
                  (version :: visiting) state a with
              | (.error e, state, a) => (.error e, state, a)
              | (.ok parent, state, a) =>
                match applyXORDelta parent artifact with
                | none => (.error .deltaSize, state, a)
                | some result => storeMaterialized A checksum version p result state a
            else
              storeMaterialized A checksum version p artifact state a

/-- Mark a version failed, if it exists. -/
def failPublication (state : RunState) (version : String) : RunState :=
  match state.publications.get version with
  | none => state
  | some p =>
    { state with publications := state.publications.set version { p with state := .failed } }

/-- `Service.Materialize`.  The reply is the URI and the checksum; the failing
version is marked failed, and parents readied on the way stay readied. -/
def materialize (state : RunState) (version : String) (a : σ) :
    Outcome (String × String) × σ :=
  match materializeLocked A checksum (state.publications.size + 1) version [] state a with
  | (.error e, state, a) => (.reject (failPublication state version) e.message, a)
  | (.ok _, state, a) =>
    match state.publications.get version with
    | none => (.crash, a)
    | some p => (.commit state (p.materializedURI, p.resultSHA256), a)

end Artifacts

/-! ## Acknowledgement and activation -/

/-- The loop of `Acknowledge` over the required engines of an activated version. -/
def undrain (version : String) :
    FinMap String EngineState → String → Option (FinMap String EngineState) :=
  FinMap.modifyWhere (fun _ => true) fun engine =>
    { engine with desiredVersion := version, draining := false }

/-- The version that loses its place to `version` becomes superseded. -/
def supersedePrevious (state : RunState) (version : String) :
    FinMap String DurablePublication :=
  match state.publications.get state.active with
  | none => state.publications
  | some previous =>
    if state.active ≠ version then
      state.publications.set state.active { previous with state := .superseded }
    else
      state.publications

/-- The end of `Acknowledge`, after the last missing acknowledgement. -/
def activate (state : RunState) (version : String) (publication : DurablePublication) :
    Outcome Bool :=
  match publication.required.keys.foldlM (undrain version) state.engines with
  | none => .crash
  | some engines =>
    .commit { state with
      publications := (supersedePrevious state version).set version
        { publication with state := .active }
      engines := engines
      active := version
      lastGood := if state.lastGood = "" then version else state.lastGood } true

/-- `Service.Acknowledge`.  The call reads the clock for the deadline and again
for the two time stamps; one reading stands for all, since the stamps are only
stored. -/
def acknowledge (state : RunState) (engineID version appliedChecksum : String) (now : Time) :
    Outcome Bool :=
  match state.publications.get version, state.engines.get engineID with
  | some publication, some engine =>
    if state.active = version ∧ engine.desiredVersion = version then
      if appliedChecksum ≠ publication.resultSHA256 then
        .reject { state with
          engines := state.engines.set engineID
            { engine with draining := true, error := "rollback checksum mismatch" } }
          "rollback checksum mismatch"
      else
        .commit { state with
          engines := state.engines.set engineID
            { engine with currentVersion := version, draining := false, error := "",
                          acknowledgedAt := now } } true
    else if publication.required.getD engineID false = false then
      .refuse "engine is not required for publication"
    else if publication.state ≠ .ready ∧ publication.state ≠ .activating then
      .refuse "weight version is not materialized and ready"
    else if publication.deadline < now then
      .reject { state with
        publications := state.publications.set version { publication with state := .failed }
        engines := state.engines.set engineID
          { engine with draining := true, error := "acknowledgement deadline exceeded" } }
        "acknowledgement deadline exceeded"
    else if appliedChecksum ≠ publication.resultSHA256 then
      .reject { state with
        engines := state.engines.set engineID
          { engine with draining := true, error := "applied checksum mismatch" } }
        "applied checksum mismatch"
    else
      let publication :=
        { publication with state := .activating, acks := publication.acks.set engineID now }
      let state :=
        { state with
          publications := state.publications.set version publication
          engines := state.engines.set engineID
            { engine with currentVersion := version, acknowledgedAt := now, error := "" } }
      if publication.acks.size ≠ publication.required.size then
        .commit state false
      else
        activate state version publication
  | _, _ => .refuse "publication or required engine not found in run"

/-! ## Promotion and rollback -/

/-- `Service.MarkGood`. -/
def markGood (state : RunState) (version : String) : Outcome Unit :=
  if state.active ≠ version then
    .refuse "only the active version can be promoted"
  else
    .commit { state with
      lastGood := version
      engines := state.engines.mapVal fun _ engine =>
        if engine.currentVersion = version then { engine with lastGoodVersion := version }
        else engine } ()

/-- The active version, if it exists, becomes rolled back. -/
def rollBackActive (state : RunState) : FinMap String DurablePublication :=
  match state.publications.get state.active with
  | none => state.publications
  | some active => state.publications.set state.active { active with state := .rolledBack }

/-- `Service.Rollback`. -/
def rollback (state : RunState) (reason : String) : Outcome String :=
  if state.lastGood = "" then
    .refuse "no last-good version"
  else
    .commit { state with
      publications := rollBackActive state
      active := state.lastGood
      engines := state.engines.mapVal fun _ engine =>
        { engine with desiredVersion := state.lastGood, error := reason, draining := true } }
      state.lastGood

/-! ## Expiry -/

/-- The version engines fall back to when a publication expires. -/
def RunState.fallback (state : RunState) : String :=
  if state.active ≠ "" then state.active else state.lastGood

/-- The inner loop of `Expire`: engines that did not acknowledge fall back. -/
def recoverEngine (fallback : String) (p : DurablePublication) :
    FinMap String EngineState → String → Option (FinMap String EngineState) :=
  FinMap.modifyWhere (fun engineID => (p.acks.get engineID).isNone) fun engine =>
    { engine with draining := true, error := "weight acknowledgement timeout",
                  desiredVersion := fallback }

/-- One iteration of the loop of `Expire` over the publications. -/
def expireOne (now : Time) (acc : RunState × List String) (version : String) :
    Option (RunState × List String) :=
  match acc.1.publications.get version with
  | none => some acc
  | some p =>
    if p.state.inFlight ∧ p.deadline ≤ now then
      match p.required.keys.foldlM (recoverEngine acc.1.fallback p) acc.1.engines with
      | none => none
      | some engines =>
        some ({ acc.1 with
          publications := acc.1.publications.set version { p with state := .failed }
          engines := engines }, acc.2 ++ [version])
    else
      some acc

/-- `Service.Expire`; `order` is the iteration order of the publications. -/
def expire (state : RunState) (now : Time) (order : List String) : Outcome (List String) :=
  match order.foldlM (expireOne now) (state, []) with
  | none => .crash
  | some (state, expired) => .commit state (expired.insertionSort (· ≤ ·))

/-! ## Garbage collection -/

/-- The closure `retainChain` of `GarbageCollect`. -/
def retainChain (publications : FinMap String DurablePublication) :
    Nat → String → List String → List String
  | 0, _, keep => keep
  | fuel + 1, version, keep =>
    if version = "" ∨ version ∈ keep then
      keep
    else
      match publications.get version with
      | none => version :: keep
      | some p => retainChain publications fuel p.manifest.parentVersion (version :: keep)

/-- The iteration orders of the three map loops of `GarbageCollect`.  Sorting any
order of the publications by a stable sort gives every order an unstable sort can
produce. -/
structure CollectOrders where
  engines : List String
  all : List String
  remove : List String

/-- The versions an engine protects. -/
def EngineState.versions (engine : EngineState) : List String :=
  [engine.desiredVersion, engine.currentVersion, engine.lastGoodVersion]

/-- The versions of the `retainNewest` publications of greatest optimizer step. -/
def newestVersions (state : RunState) (retainNewest : Int) (all : List String) : List String :=
  let sorted := (all.filterMap state.publications.get).insertionSort
    fun p q => q.manifest.optimizerStep ≤ p.manifest.optimizerStep
  (sorted.take retainNewest.toNat).map fun p => p.manifest.version

/-- The roots of the retained chains, in the order `GarbageCollect` visits them. -/
def retainRoots (state : RunState) (retainNewest : Int) (orders : CollectOrders) :
    List String :=
  state.active :: state.lastGood ::
    ((orders.engines.filterMap state.engines.get).flatMap EngineState.versions ++
      newestVersions state retainNewest orders.all)

/-- The set `keep` of `GarbageCollect`. -/
def retained (state : RunState) (retainNewest : Int) (orders : CollectOrders) : List String :=
  (retainRoots state retainNewest orders).foldl
    (fun keep version =>
      retainChain state.publications (state.publications.size + 1) version keep) []

section Artifacts

variable {σ : Type} (A : ArtifactStore σ)

/-- Delete the artifacts of a collected publication. -/
def deleteArtifacts (p : DurablePublication) (a : σ) : Except String Unit × σ :=
  if p.materializedURI = "" then
    A.delete a p.manifest.artifactURI
  else
    match A.delete a p.materializedURI with
    | (.error message, a) => (.error message, a)
    | (.ok _, a) => A.delete a p.manifest.artifactURI

/-- The loop of `GarbageCollect` that removes publications.  It stops at the first
artifact that cannot be deleted. -/
def removeUnkept (keep : List String) : List String →
    FinMap String DurablePublication → List Manifest → σ →
      Except String (FinMap String DurablePublication × List Manifest) × σ
  | [], publications, removed, a => (.ok (publications, removed), a)
  | version :: rest, publications, removed, a =>
    match publications.get version with
    | none => removeUnkept keep rest publications removed a
    | some p =>
      if version ∈ keep ∨ p.state.inFlight then
        removeUnkept keep rest publications removed a
      else
        match deleteArtifacts A p a with
        | (.error message, a) => (.error message, a)
        | (.ok _, a) =>
          removeUnkept keep rest (publications.del version) (removed ++ [p.manifest]) a

/-- `Service.GarbageCollect`. -/
def garbageCollect (state : RunState) (retainNewest : Int) (orders : CollectOrders) (a : σ) :
    Outcome (List Manifest) × σ :=
  match removeUnkept A (retained state retainNewest orders) orders.remove
      state.publications [] a with
  | (.error message, a) => (.refuse message, a)
  | (.ok (publications, removed), a) =>
    (.commit { state with publications := publications } removed, a)

end Artifacts

end Weights
end Skyscale
