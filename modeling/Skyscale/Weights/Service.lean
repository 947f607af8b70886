import Skyscale.Lib.Run
import Skyscale.Weights.Effects

/-!
# Calls of the weight service

The public methods of `Service` run on a world: the repository of run states and
the artifact store.  Every method holds the service mutex from `load` to `save`, so
a concurrent history is a sequence of calls, and `Step` is the transition of one
call.  Requests carry what the run-time leaves open:

* an `Outage` says whether the repository fails in `load` or in `save`;
* clock readings and map iteration orders are arguments of the call, and `Step`
  only admits orders that enumerate the map;
* `Call.artifacts` lets other clients of the artifact store change it between two
  calls in any way.  `Publish` fetches before it takes the mutex; a fetch that saw
  an older store is a `Call.artifacts` before and one after the publication.

`Step.touches` reduces a step of the world to what the addressed run hands to
`save`.  It is the only place where repository plumbing is unfolded: the invariants
of a run are proved over `Saves` and lifted by `run_invariant`.
-/

namespace Skyscale
namespace Weights

open Lib

/-- The reply of a method.  `nilDereference` is a panic. -/
inductive Reply (α : Type)
  | ok (value : α)
  | err (message : String)
  | nilDereference

/-- The repository and the artifact store behind a service. -/
structure World (σ : Type) where
  repository : FinMap String RunState
  artifacts : σ

/-- The errors the repository returns during one call, if any. -/
structure Outage where
  load : Option String
  save : Option String

/-- The repository works. -/
def Outage.none : Outage := ⟨Option.none, Option.none⟩

theorem Outage.load_none : Outage.none.load = Option.none := rfl

theorem Outage.save_none : Outage.none.save = Option.none := rfl

section

variable {σ α : Type}

/-- The durable state of a run, empty when the repository does not know it. -/
def World.run (w : World σ) (runID : String) : RunState :=
  (w.repository.get runID).getD (RunState.empty runID)

/-- `Service.load`. -/
def World.load (w : World σ) (outage : Outage) (runID : String) : Except String RunState :=
  match outage.load with
  | some message => .error message
  | none =>
    if (w.run runID).runID ≠ runID then .error "durable weight state run mismatch"
    else .ok (w.run runID)

/-- Save a run state under its own identifier. -/
def World.store (w : World σ) (state : RunState) (artifacts : σ) : World σ where
  repository := w.repository.set state.runID state
  artifacts := artifacts

/-- The end of a method: `Service.save` and the reply. -/
def World.settle (w : World σ) (outage : Outage) (artifacts : σ) : Outcome α → Reply α × World σ
  | .refuse message => (.err message, { w with artifacts := artifacts })
  | .answer value => (.ok value, { w with artifacts := artifacts })
  | .commit state value =>
    match outage.save with
    | none => (.ok value, w.store state artifacts)
    | some message => (.err message, { w with artifacts := artifacts })
  | .reject state message =>
    match outage.save with
    | none => (.err message, w.store state artifacts)
    | some _ => (.err message, { w with artifacts := artifacts })
  | .crash => (.nilDereference, { w with artifacts := artifacts })

/-- A method body between `load` and `save`. -/
def World.withRun (w : World σ) (outage : Outage) (runID : String)
    (body : RunState → σ → Outcome α × σ) : Reply α × World σ :=
  match w.load outage runID with
  | .error message => (.err message, w)
  | .ok state =>
    let out := body state w.artifacts
    w.settle outage out.2 out.1

namespace Service

variable (A : ArtifactStore σ) (checksum : Bytes → String) (w : World σ) (outage : Outage)

/-- `Service.RegisterEngine`. -/
def registerEngine (runID engineID currentVersion : String) : Reply Unit × World σ :=
  if runID = "" ∨ engineID = "" then
    (.err "run and engine identifiers are required", w)
  else
    w.withRun outage runID fun state a => (Weights.registerEngine state engineID currentVersion, a)

/-- The facts about a manifest that the service derives itself. -/
def derive (manifest : Manifest) : Manifest :=
  { manifest with uploadComplete := true, manifestCommitted := true, verified := true }

/-- `Service.Publish`. -/
def publish (manifest : Manifest) (requiredEngines : List String) (timeout : Int) (now : Time) :
    Reply Unit × World σ :=
  match manifest.validate with
  | .error message => (.err message, w)
  | .ok _ =>
    if timeout ≤ 0 then
      (.err "positive acknowledgement timeout required", w)
    else
      match A.fetch w.artifacts manifest.artifactURI with
      | (.error message, a) =>
        (.err ("fetch weight artifact: " ++ message), { w with artifacts := a })
      | (.ok artifact, a) =>
        if manifest.checksums.getD "artifact" "" ≠ checksum artifact then
          (.err "weight artifact checksum mismatch", { w with artifacts := a })
        else
          World.withRun { w with artifacts := a } outage manifest.runID fun state a =>
            (publishLocked state (derive manifest) requiredEngines timeout
              (checksum artifact) now, a)

/-- `Service.Materialize`. -/
def materialize (runID version : String) : Reply (String × String) × World σ :=
  w.withRun outage runID fun state a => Weights.materialize A checksum state version a

/-- `Service.Acknowledge`. -/
def acknowledge (runID engineID version appliedChecksum : String) (now : Time) :
    Reply Bool × World σ :=
  w.withRun outage runID fun state a =>
    (Weights.acknowledge state engineID version appliedChecksum now, a)

/-- `Service.MarkGood`. -/
def markGood (runID version : String) : Reply Unit × World σ :=
  w.withRun outage runID fun state a => (Weights.markGood state version, a)

/-- `Service.Rollback`. -/
def rollback (runID reason : String) : Reply String × World σ :=
  w.withRun outage runID fun state a => (Weights.rollback state reason, a)

/-- `Service.Expire`. -/
def expire (runID : String) (now : Time) (order : List String) :
    Reply (List String) × World σ :=
  w.withRun outage runID fun state a => (Weights.expire state now order, a)

/-- `Service.GarbageCollect`. -/
def garbageCollect (runID : String) (retainNewest : Int) (orders : CollectOrders) :
    Reply (List Manifest) × World σ :=
  w.withRun outage runID fun state a => Weights.garbageCollect A state retainNewest orders a

end Service

end

/-- The calls a service receives, and changes of the artifact store by others. -/
inductive Call (σ : Type)
  | registerEngine (runID engineID currentVersion : String)
  | publish (manifest : Manifest) (requiredEngines : List String) (timeout : Int) (now : Time)
  | materialize (runID version : String)
  | acknowledge (runID engineID version appliedChecksum : String) (now : Time)
  | markGood (runID version : String)
  | rollback (runID reason : String)
  | expire (runID : String) (now : Time) (order : List String)
  | garbageCollect (runID : String) (retainNewest : Int) (orders : CollectOrders)
  | artifacts (next : σ)

/-- A call together with the repository failures it meets. -/
structure Request (σ : Type) where
  call : Call σ
  outage : Outage

section

variable {σ : Type} (A : ArtifactStore σ) (checksum : Bytes → String)

/-- The world after a request. -/
def serve (w : World σ) (request : Request σ) : World σ :=
  match request.call with
  | .registerEngine runID engineID currentVersion =>
    (Service.registerEngine w request.outage runID engineID currentVersion).2
  | .publish manifest requiredEngines timeout now =>
    (Service.publish A checksum w request.outage manifest requiredEngines timeout now).2
  | .materialize runID version =>
    (Service.materialize A checksum w request.outage runID version).2
  | .acknowledge runID engineID version appliedChecksum now =>
    (Service.acknowledge w request.outage runID engineID version appliedChecksum now).2
  | .markGood runID version => (Service.markGood w request.outage runID version).2
  | .rollback runID reason => (Service.rollback w request.outage runID reason).2
  | .expire runID now order => (Service.expire w request.outage runID now order).2
  | .garbageCollect runID retainNewest orders =>
    (Service.garbageCollect A w request.outage runID retainNewest orders).2
  | .artifacts next => { w with artifacts := next }

/-- The iteration orders of a call enumerate the maps it iterates over. -/
def Call.Admissible (w : World σ) : Call σ → Prop
  | .expire runID _ order => order.Perm (w.run runID).publications.keys
  | .garbageCollect runID _ orders =>
    orders.engines.Perm (w.run runID).engines.keys ∧
      orders.all.Perm (w.run runID).publications.keys ∧
      orders.remove.Perm (w.run runID).publications.keys
  | _ => True

instance (w : World σ) : (call : Call σ) → Decidable (call.Admissible w)
  | .expire .. => inferInstanceAs (Decidable (List.Perm _ _))
  | .garbageCollect .. =>
    inferInstanceAs (Decidable (List.Perm _ _ ∧ List.Perm _ _ ∧ List.Perm _ _))
  | .registerEngine .. | .publish .. | .materialize .. | .acknowledge .. | .markGood ..
  | .rollback .. | .artifacts .. => isTrue trivial

/-- The transition of one request. -/
def Step (w : World σ) (request : Request σ) (w' : World σ) : Prop :=
  request.call.Admissible w ∧ w' = serve A checksum w request

/-- What a call addressed to a run in state `s` can hand to `save`. -/
inductive Saves (runID : String) (s : RunState) : Call σ → RunState → Prop
  | registerEngine {engineID currentVersion s'} :
      (Weights.registerEngine s engineID currentVersion).saved = some s' →
      Saves runID s (.registerEngine runID engineID currentVersion) s'
  | publish {manifest requiredEngines timeout now s'} (artifact : Bytes) :
      manifest.runID = runID → manifest.validate = .ok () → 0 < timeout →
      manifest.checksums.getD "artifact" "" = checksum artifact →
      (publishLocked s (Service.derive manifest) requiredEngines timeout
        (checksum artifact) now).saved = some s' →
      Saves runID s (.publish manifest requiredEngines timeout now) s'
  | materialize {version s'} (a : σ) :
      (Weights.materialize A checksum s version a).1.saved = some s' →
      Saves runID s (.materialize runID version) s'
  | acknowledge {engineID version appliedChecksum now s'} :
      (Weights.acknowledge s engineID version appliedChecksum now).saved = some s' →
      Saves runID s (.acknowledge runID engineID version appliedChecksum now) s'
  | markGood {version s'} :
      (Weights.markGood s version).saved = some s' →
      Saves runID s (.markGood runID version) s'
  | rollback {reason s'} :
      (Weights.rollback s reason).saved = some s' →
      Saves runID s (.rollback runID reason) s'
  | expire {now order s'} :
      order.Perm s.publications.keys →
      (Weights.expire s now order).saved = some s' →
      Saves runID s (.expire runID now order) s'
  | garbageCollect {retainNewest orders s'} (a : σ) :
      orders.engines.Perm s.engines.keys → orders.all.Perm s.publications.keys →
      orders.remove.Perm s.publications.keys →
      (Weights.garbageCollect A s retainNewest orders a).1.saved = some s' →
      Saves runID s (.garbageCollect runID retainNewest orders) s'

end

/-! ## From worlds to runs -/

section

variable {σ α : Type}

theorem World.run_store (w : World σ) (state : RunState) (artifacts : σ) (runID : String) :
    (w.store state artifacts).run runID =
      if runID = state.runID then state else w.run runID := by
  unfold World.run World.store
  rw [FinMap.get_set]
  by_cases h : runID = state.runID <;> simp [h]

theorem World.run_store_of_eq (w : World σ) {state : RunState} (artifacts : σ) {runID : String}
    (h : state.runID = runID) : (w.store state artifacts).run runID = state := by
  rw [World.run_store, if_pos h.symm]

/-- At the end of a method a run is as before, or it is the state handed to
`save`. -/
theorem World.run_settle (w : World σ) (outage : Outage) (artifacts : σ) (out : Outcome α)
    (runID : String) :
    (w.settle outage artifacts out).2.run runID = w.run runID ∨
      ∃ state, out.saved = some state ∧ state.runID = runID ∧
        (w.settle outage artifacts out).2.run runID = state := by
  have hstore : ∀ state, out.saved = some state →
      (w.store state artifacts).run runID = w.run runID ∨
        ∃ state', out.saved = some state' ∧ state'.runID = runID ∧
          (w.store state artifacts).run runID = state' := by
    intro state hsaved
    rw [World.run_store]
    by_cases h : runID = state.runID
    · exact .inr ⟨state, hsaved, h.symm, if_pos h⟩
    · exact .inl (if_neg h)
  cases out with
  | refuse message => exact .inl rfl
  | answer value => exact .inl rfl
  | crash => exact .inl rfl
  | commit state value =>
    unfold World.settle
    cases outage.save with
    | none => exact hstore state rfl
    | some message => exact .inl rfl
  | reject state message =>
    unfold World.settle
    cases outage.save with
    | none => exact hstore state rfl
    | some message => exact .inl rfl

variable {body : RunState → σ → Outcome α × σ}

theorem World.withRun_eq {w : World σ} {outage : Outage} {runID : String}
    (hload : outage.load = none) (hid : (w.run runID).runID = runID) :
    w.withRun outage runID body =
      w.settle outage (body (w.run runID) w.artifacts).2 (body (w.run runID) w.artifacts).1 := by
  unfold World.withRun World.load
  rw [hload]
  simp only [hid, ne_eq, not_true_eq_false, if_false]

/-- A method that succeeds got past `load`, and either answered or saved. -/
theorem World.withRun_ok {w w' : World σ} {outage : Outage} {runID : String} {value : α}
    (h : w.withRun outage runID body = (.ok value, w')) :
    outage.load = none ∧ (w.run runID).runID = runID ∧
      ((body (w.run runID) w.artifacts).1 = .answer value ∧
          w' = { w with artifacts := (body (w.run runID) w.artifacts).2 } ∨
        ∃ state, (body (w.run runID) w.artifacts).1 = .commit state value ∧
          w' = w.store state (body (w.run runID) w.artifacts).2) := by
  have hloads : outage.load = none ∧ (w.run runID).runID = runID := by
    unfold World.withRun World.load at h
    cases hload : outage.load with
    | some message => simp [hload] at h
    | none =>
      refine ⟨rfl, ?_⟩
      by_contra hid
      simp [hload, hid] at h
  refine ⟨hloads.1, hloads.2, ?_⟩
  rw [World.withRun_eq hloads.1 hloads.2] at h
  cases hout : (body (w.run runID) w.artifacts).1 with
  | refuse message | reject state message | crash =>
    rw [hout] at h
    unfold World.settle at h
    cases hsave : outage.save <;> simp [hsave] at h
  | answer answered =>
    rw [hout] at h
    simp only [World.settle, Prod.mk.injEq, Reply.ok.injEq] at h
    exact .inl ⟨by rw [h.1], h.2.symm⟩
  | commit state answered =>
    rw [hout] at h
    unfold World.settle at h
    cases hsave : outage.save with
    | some message => simp [hsave] at h
    | none =>
      simp only [hsave, Prod.mk.injEq, Reply.ok.injEq] at h
      exact .inr ⟨state, by rw [h.1], h.2.symm⟩

/-- The record `Publish` saves for a new version. -/
def newPublication (m : Manifest) (required : FinMap String Bool) (timeout : Int) (hash : String)
    (now : Time) : DurablePublication where
  manifest := Service.derive m
  required := required
  acks := ∅
  state := .published
  deadline := now + timeout.toNat
  materializedURI := ""
  artifactSHA256 := hash
  resultSHA256 := m.checksums.getD "result" ""

/-- What a successful `Publish` did: the version was recorded before with the same
artifact and nothing is changed, or a new record is saved. -/
inductive Accepted (w : World σ) (m : Manifest) (ids : List String) (timeout : Int) (now : Time)
    (hash : String) (artifacts : σ) : World σ → Prop
  | again {existing : DurablePublication} :
      (w.run m.runID).publications.get m.version = some existing →
      existing.artifactSHA256 = hash →
      Accepted w m ids timeout now hash artifacts { w with artifacts := artifacts }
  | recorded {required : FinMap String Bool} {engines : FinMap String EngineState}
      {state : RunState} :
      (w.run m.runID).publications.get m.version = none →
      (m.format = "delta" → m.checksums.getD "result" "" ≠ "") →
      requireEngines m.version ids ∅ (w.run m.runID).engines = .ok (required, engines) →
      state.runID = (w.run m.runID).runID →
      state.publications = (w.run m.runID).publications.set m.version
        (newPublication m required timeout hash now) →
      Accepted w m ids timeout now hash artifacts (w.store state artifacts)

/-- A successful `Publish` fetched the artifact the manifest describes. -/
theorem publish_accepted {A : ArtifactStore σ} {checksum : Bytes → String} {w w' : World σ}
    {outage : Outage} {m : Manifest} {ids : List String} {timeout : Int} {now : Time}
    (h : Service.publish A checksum w outage m ids timeout now = (.ok (), w')) :
    (w.run m.runID).runID = m.runID ∧
      ∃ artifact, (A.fetch w.artifacts m.artifactURI).1 = .ok artifact ∧
        m.checksums.getD "artifact" "" = checksum artifact ∧
        Accepted w m ids timeout now (checksum artifact)
          (A.fetch w.artifacts m.artifactURI).2 w' := by
  unfold Service.publish at h
  split at h
  · simp at h
  split at h
  · simp at h
  cases hfetch : A.fetch w.artifacts m.artifactURI with
  | mk fetched a =>
    rw [hfetch] at h
    cases fetched with
    | error message => simp at h
    | ok artifact =>
      simp only at h
      split at h
      · simp at h
      rename_i hsum
      obtain ⟨-, hid, hout⟩ := World.withRun_ok h
      refine ⟨hid, artifact, rfl, not_not.mp hsum, ?_⟩
      -- Only the two branches of `publishLocked` that return `nil` are left.
      change publishLocked (w.run m.runID) (Service.derive m) ids timeout (checksum artifact)
          now = _ ∧ _ ∨ ∃ state, publishLocked (w.run m.runID) (Service.derive m) ids timeout
          (checksum artifact) now = _ ∧ _ at hout
      unfold publishLocked at hout
      split at hout
      · rename_i existing hexisting
        split at hout
        · rename_i hhash
          rcases hout with ⟨-, rfl⟩ | ⟨state, hout, -⟩
          · exact .again hexisting hhash
          · cases hout
        · rcases hout with ⟨hout, -⟩ | ⟨state, hout, -⟩ <;> cases hout
      rename_i hnew
      split at hout
      · rcases hout with ⟨hout, -⟩ | ⟨state, hout, -⟩ <;> cases hout
      split at hout
      · rcases hout with ⟨hout, -⟩ | ⟨state, hout, -⟩ <;> cases hout
      rename_i hresult
      split at hout
      · rcases hout with ⟨hout, -⟩ | ⟨state, hout, -⟩ <;> cases hout
      · rename_i required engines hrequire
        rcases hout with ⟨hout, -⟩ | ⟨state, hout, rfl⟩
        · cases hout
        · obtain ⟨rfl, -⟩ := Outcome.commit.inj hout
          exact .recorded hnew (fun hdelta hblank => hresult ⟨hdelta, hblank⟩) hrequire rfl rfl

end

section Lifting

variable {σ α : Type} {A : ArtifactStore σ} {checksum : Bytes → String}

theorem Saves.cases {runID : String} {s s' : RunState} {call : Call σ}
    (h : Saves A checksum runID s call s') :
    Effects s s' ∨
      (∃ n orders, call = .garbageCollect runID n orders ∧ Collected s n orders s') ∨
      ∃ e v c now, call = .acknowledge runID e v c now ∧ Recorded s e v c now s' := by
  cases h with
  | registerEngine h => exact .inl (effects_of_saved_registerEngine h)
  | publish artifact _ hvalid _ _ h =>
    obtain ⟨hversion, hformat⟩ := Manifest.format_of_validate hvalid
    exact .inl (effects_of_saved_publishLocked (m := Service.derive _) hversion hformat h)
  | materialize a h => exact .inl (effects_of_saved_materialize A checksum h)
  | acknowledge h =>
    rcases acknowledge_cases h with h | h
    · exact .inl h
    · exact .inr (.inr ⟨_, _, _, _, rfl, h⟩)
  | markGood h => exact .inl (effects_of_saved_markGood h)
  | rollback h => exact .inl (effects_of_saved_rollback h)
  | expire _ h => exact .inl (effects_of_saved_expire h)
  | garbageCollect a _ _ horder h =>
    exact .inr (.inl ⟨_, _, rfl, collected_of_saved_garbageCollect A horder h⟩)

theorem Saves.runID_eq {runID : String} {s s' : RunState} {call : Call σ}
    (h : Saves A checksum runID s call s') : s'.runID = s.runID := by
  rcases h.cases with h | ⟨n, orders, -, publications, rfl, -⟩ | ⟨e, v, c, now, -, h⟩
  · refine h.invariant (I := fun t => t.runID = s.runID) rfl ?_
    intro a b ha hab
    rw [hab.runID, ha]
  · rfl
  · cases h <;> rfl

/-- A call either leaves a run alone, or it is addressed to the run and saves it. -/
def Touches (A : ArtifactStore σ) (checksum : Bytes → String) (w : World σ) (call : Call σ)
    (w' : World σ) (runID : String) : Prop :=
  w'.run runID = w.run runID ∨
    (w.run runID).runID = runID ∧
      Saves A checksum runID (w.run runID) call (w'.run runID)

theorem World.touches_withRun (w : World σ) (outage : Outage) (addressed : String)
    (body : RunState → σ → Outcome α × σ) (call : Call σ)
    (hbody : ∀ state, (body (w.run addressed) w.artifacts).1.saved = some state →
      Saves A checksum addressed (w.run addressed) call state) (runID : String) :
    Touches A checksum w call (w.withRun outage addressed body).2 runID := by
  unfold Touches World.withRun World.load
  cases outage.load with
  | some message => exact .inl rfl
  | none =>
    by_cases hid : (w.run addressed).runID = addressed
    · simp only [hid, ne_eq, not_true_eq_false, if_false]
      rcases World.run_settle w outage (body (w.run addressed) w.artifacts).2
          (body (w.run addressed) w.artifacts).1 runID with h | ⟨state, hsaved, hrun, heq⟩
      · exact .inl h
      · have hsaves := hbody state hsaved
        -- The saved state still carries the identifier of the addressed run.
        obtain rfl : addressed = runID := by
          rw [← hid, ← hsaves.runID_eq, hrun]
        exact .inr ⟨hid, by rw [heq]; exact hsaves⟩
    · simp only [hid, ne_eq, not_false_eq_true, if_true]
      exact .inl trivial

theorem touches_publish (w : World σ) (outage : Outage) (manifest : Manifest)
    (ids : List String) (timeout : Int) (now : Time) (runID : String) :
    Touches A checksum w (.publish manifest ids timeout now)
      (Service.publish A checksum w outage manifest ids timeout now).2 runID := by
  unfold Service.publish
  split
  · exact .inl rfl
  rename_i hvalid
  split
  · exact .inl rfl
  rename_i htimeout
  split
  · exact .inl rfl
  rename_i artifact a _
  split
  · exact .inl rfl
  rename_i hsum
  exact World.touches_withRun { w with artifacts := a } outage manifest.runID _ _
    (fun state hsaved => .publish artifact rfl hvalid (not_le.mp htimeout) (not_not.mp hsum)
      hsaved) runID

variable {w : World σ} {requests : List (Request σ)}

/-- One request touches a run as `Touches` allows. -/
theorem Step.touches {w' : World σ} {request : Request σ} (h : Step A checksum w request w')
    (runID : String) :
    Touches A checksum w request.call w' runID := by
  obtain ⟨hadmissible, rfl⟩ := h
  unfold serve
  cases hcall : request.call with
  | registerEngine r e c =>
    simp only
    unfold Service.registerEngine
    split
    · exact .inl rfl
    · exact World.touches_withRun w _ r _ _ (fun state hsaved => .registerEngine hsaved) runID
  | publish manifest ids timeout now => exact touches_publish w _ manifest ids timeout now runID
  | materialize r v =>
    exact World.touches_withRun w _ r _ _ (fun state hsaved => .materialize _ hsaved) runID
  | acknowledge r e v c now =>
    exact World.touches_withRun w _ r _ _ (fun state hsaved => .acknowledge hsaved) runID
  | markGood r v =>
    exact World.touches_withRun w _ r _ _ (fun state hsaved => .markGood hsaved) runID
  | rollback r reason =>
    exact World.touches_withRun w _ r _ _ (fun state hsaved => .rollback hsaved) runID
  | expire r now order =>
    rw [hcall] at hadmissible
    exact World.touches_withRun w _ r _ _ (fun state hsaved => .expire hadmissible hsaved) runID
  | garbageCollect r n orders =>
    rw [hcall] at hadmissible
    obtain ⟨hengines, hall, hremove⟩ := hadmissible
    exact World.touches_withRun w _ r _ _
      (fun state hsaved => .garbageCollect _ hengines hall hremove hsaved) runID
  | artifacts next => exact .inl rfl

/-- A service whose repository is empty. -/
def World.initial (artifacts : σ) : World σ := ⟨∅, artifacts⟩

def serveAll (A : ArtifactStore σ) (checksum : Bytes → String) :
    World σ → List (Request σ) → World σ :=
  List.foldl (serve A checksum)

/-- Every request is admissible and passes the check where it is served. -/
def AdmissibleAll (A : ArtifactStore σ) (checksum : Bytes → String)
    (check : World σ → Call σ → Bool) : World σ → List (Request σ) → Prop
  | _, [] => True
  | w, request :: requests =>
    (request.call.Admissible w ∧ check w request.call) ∧
      AdmissibleAll A checksum check (serve A checksum w request) requests

instance decidableAdmissibleAll (A : ArtifactStore σ) (checksum : Bytes → String)
    (check : World σ → Call σ → Bool) : (w : World σ) → (requests : List (Request σ)) →
    Decidable (AdmissibleAll A checksum check w requests)
  | _, [] => isTrue trivial
  | w, request :: requests =>
    have := decidableAdmissibleAll A checksum check (serve A checksum w request) requests
    inferInstanceAs (Decidable (_ ∧ _))

theorem run_serveAll {check : World σ → Call σ → Bool}
    (h : AdmissibleAll A checksum check w requests) :
    Run (Guarded (Step A checksum) fun w request => check w request.call) w requests
      (serveAll A checksum w requests) := by
  induction requests generalizing w with
  | nil => exact .nil
  | cons request requests ih =>
    have hfirst : Run (Guarded (Step A checksum) fun w request => check w request.call) w
        [request] (serve A checksum w request) := .snoc .nil ⟨⟨h.1.1, rfl⟩, h.1.2⟩
    exact hfirst.append (ih h.2)

/-- A condition on the calls that address a run, as a condition on requests to the
service. -/
def OnRuns (guard : String → RunState → Call σ → Prop) (w : World σ) (request : Request σ) :
    Prop :=
  ∀ runID, guard runID (w.run runID) request.call

/-- The induction over service histories: an invariant of single runs that holds of
the empty run and is kept by every admissible save holds of every run the service
ever stores. -/
theorem run_invariant (guard : String → RunState → Call σ → Prop) {I : RunState → Prop}
    (hempty : ∀ runID, I (RunState.empty runID))
    (hsaves : ∀ runID s call s', I s → s.runID = runID → guard runID s call → Saves A checksum
      runID s call s' → I s') {artifacts : σ}
    (hrun : Run (Guarded (Step A checksum) (OnRuns guard)) (World.initial artifacts) requests w)
    (runID : String) : I (w.run runID) := by
  refine hrun.invariant (I := fun w => ∀ runID, I (w.run runID)) hempty ?_ runID
  intro a request b ha hstep runID
  rcases hstep.1.touches runID with h | ⟨hid, h⟩
  · rw [h]
    exact ha runID
  · exact hsaves runID _ _ _ (ha runID) hid (hstep.2 runID) h

theorem runID_of_run {artifacts : σ}
    (hrun : Run (Step A checksum) (World.initial artifacts) requests w) (runID : String) :
    (w.run runID).runID = runID := by
  refine hrun.invariant (I := fun w => ∀ runID, (w.run runID).runID = runID) (fun _ => rfl) ?_ runID
  intro a request b ha hstep runID
  rcases hstep.touches runID with h | ⟨hid, h⟩
  · rw [h]
    exact ha runID
  · rw [h.runID_eq, hid]

end Lifting

/-! ## The in-memory artifact store -/

/-- `MemoryArtifactStore`. -/
def memoryArtifactStore (checksum : Bytes → String) : ArtifactStore (FinMap String Bytes) where
  fetch data uri :=
    match data.get uri with
    | none => (.error "artifact not found", data)
    | some payload => (.ok payload, data)
  putImmutable data uri payload expectedChecksum :=
    if checksum payload ≠ expectedChecksum then
      (.error "artifact checksum mismatch", data)
    else if (data.get uri).any fun existing => existing ≠ payload then
      (.error "immutable artifact conflict", data)
    else
      (.ok (), data.set uri payload)
  delete data uri := (.ok (), data.del uri)

/-! ## A small deployment

The witnesses and counterexamples of this development run a service over the
in-memory artifact store.  Every artifact holds the one byte `01`, and `digest` is
its SHA-256 sum. -/

namespace Trial

def digest : String := "4bf5122f344554c53bde2ebb8cd2b7e3d1600ad631c385a5d7cce23c7785459a"

def store : ArtifactStore (FinMap String Bytes) := memoryArtifactStore fun _ => digest

def artifacts : FinMap String Bytes := (∅ : FinMap String Bytes).set "weights.bin" [1]

def manifest (version format parentVersion : String) : Manifest where
  apiVersion := "rl.skyscale.dev/v1alpha1"
  version := version
  runID := "run"
  baseCheckpoint := "base"
  parentVersion := parentVersion
  format := format
  checksums := ((∅ : FinMap String String).set "artifact" digest).set "result" digest
  byteSize := 1
  optimizerStep := 0
  artifactURI := "weights.bin"
  uploadComplete := false
  manifestCommitted := false
  verified := false

def request (call : Call (FinMap String Bytes)) : Request (FinMap String Bytes) :=
  ⟨call, .none⟩

abbrev Calls : Type := List (Call (FinMap String Bytes))

abbrev Passes (check : World (FinMap String Bytes) → Call (FinMap String Bytes) → Bool)
    (calls : Calls) : Prop :=
  AdmissibleAll store (fun _ => digest) check (World.initial artifacts) (calls.map request)

abbrev Valid : Calls → Prop := Passes fun _ _ => true

def after (calls : Calls) : World (FinMap String Bytes) :=
  serveAll store (fun _ => digest) (World.initial artifacts) (calls.map request)

theorem guarded_after {guard : String → RunState → Call (FinMap String Bytes) → Prop}
    {calls : Calls}
    {check : World (FinMap String Bytes) → Call (FinMap String Bytes) → Bool}
    (hcheck : ∀ w call, check w call → ∀ runID, guard runID (w.run runID) call)
    (h : Passes check calls) :
    Run (Guarded (Step store fun _ => digest) (OnRuns guard)) (World.initial artifacts)
      (calls.map request) (after calls) :=
  (run_serveAll h).mono fun w request _ hstep => ⟨hstep.1, hcheck w request.call hstep.2⟩

theorem run_after {calls : Calls} (h : Valid calls) :
    Run (Step store fun _ => digest) (World.initial artifacts) (calls.map request)
      (after calls) :=
  (run_serveAll h).of_guarded

end Trial

end Weights
end Skyscale
