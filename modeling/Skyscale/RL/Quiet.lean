import Skyscale.Control.System

/-!
# Programs that leave the runs alone

Most of what handlers, passes and queue workers do concerns Kubernetes objects, tracked
resources, executions and jobs.  A program is `Quiet` if it only performs such
operations (`Plain`): it writes none of the tables of runs, attempts, checkpoints and
evaluations, and promotes no version.  A part of a pass is `Calm` if it is quiet and
leaves its copy of the run as it is; `Leaves` is the same for other operations, such as
the plain ones that apply no training job (`Idle`).

The lemmas cover the quiet programs of the control plane once; the modules about runs
only look at what is left.
-/

namespace Skyscale
namespace RL

open Lib State Control K8s Contracts

/-- The tables the results about runs speak about. -/
def followed : Table → Bool
  | .runs | .attempts | .checkpoints | .evaluations => true
  | _ => false

/-- The operation writes none of these tables and promotes nothing. -/
def Plain : Op → Prop
  | .sql q =>
    match q.target with
    | some t => followed t = false
    | none => True
  | .markGood _ _ => False
  | _ => True

/-- The program only performs plain operations. -/
abbrev Quiet {α : Type} (p : Program α) : Prop := Only Plain p

/-- The part of a pass only performs operations with the property and leaves the copy of
the run as it is. -/
def Leaves {α : Type} (P : Op → Prop) (m : Pass α) : Prop :=
  ∀ run, Keeps (rely (fun _ _ => True) P) (fun copy _ => copy = run) m

/-- The part of a pass only performs plain operations and leaves the copy of the run as
it is. -/
abbrev Calm {α : Type} (m : Pass α) : Prop := Leaves Plain m

/-- A plain operation that applies no training job. -/
def Idle : Op → Prop
  | .apply object => ∀ spec attemptID, object ≠ renderRayJob spec attemptID
  | op => Plain op

/-- The program only performs such operations. -/
abbrev Still {α : Type} (p : Program α) : Prop := Only Idle p

theorem Idle.plain {op : Op} (h : Idle op) : Plain op := by
  cases op with
  | apply object => trivial
  | _ => exact h

variable {α β : Type}

theorem Still.quiet {p : Program α} (h : Still p) : Quiet p :=
  wp_rely_mono (fun _ _ hans => hans) (fun _ => Idle.plain) h

/-! ## Rules for passes -/

section Leaves

variable {P Q : Op → Prop}

theorem Leaves.pure (a : α) : Leaves P (pure a : Pass α) := fun _ => Keeps.pure a

theorem Leaves.fail (text : String) : Leaves P (Act.fail text : Pass α) := fun _ => Keeps.fail text

variable {m : Pass α}

theorem Leaves.bind {f : α → Pass β} (hm : Leaves P m) (hf : ∀ a, Leaves P (f a)) :
    Leaves P (m >>= f) :=
  fun run => Keeps.bind (hm run) fun a => hf a run

theorem Leaves.get {f : RLRun → Pass β} (hf : ∀ run, Leaves P (f run)) : Leaves P (Act.get >>= f) :=
  Leaves.bind (fun _ => Keeps.get) hf

theorem Leaves.attempt {δ : Type} {text : δ → String} {p : Program (Except δ α)}
    (hp : Only P p) : Leaves P (Act.attempt text p : Pass α) :=
  fun _ => Keeps.attempt (fun _ _ hrun => wp_mono (fun _ _ _ => hrun) hp)

theorem Leaves.lift {p : Program α} (hp : Only P p) :
    Leaves P (Act.lift p : Pass α) :=
  fun _ => Keeps.lift (fun _ _ hrun => wp_mono (fun _ _ _ => hrun) hp)

theorem Leaves.stored {p : Program (Except Failure α)} (hp : Only P p) :
    Leaves P (RL.stored p) :=
  Leaves.attempt hp

theorem Leaves.when {c : Prop} [Decidable c] {m : Pass Unit} (hm : Leaves P m) :
    Leaves P (Act.when c m) := by
  unfold Act.when
  split
  · exact hm
  · exact Leaves.pure ()

theorem Leaves.forEach {ι : Type} {f : ι → Pass Unit} {xs : List ι}
    (hf : ∀ x ∈ xs, Leaves P (f x)) : Leaves P (Act.forEach f xs) := by
  induction xs with
  | nil => exact Leaves.pure ()
  | cons x xs ih =>
    refine Leaves.bind (hf x List.mem_cons_self) fun _ => ?_
    exact ih fun y hy => hf y (List.mem_cons_of_mem x hy)

theorem Leaves.mono (hm : Leaves P m) (h : ∀ op, P op → Q op) : Leaves Q m :=
  fun run copy g hcopy => wp_rely_mono (fun _ _ hans => hans) h (hm run copy g hcopy)

/-- Operations that move a world along `R`: so does a part that performs only such
operations, however it ends. -/
theorem Leaves.acts {W : Type} {exec : W → (op : Op) → Ans op → W → Prop} {R : W → W → Prop}
    (hrefl : ∀ w, R w w) (htrans : ∀ {a b c}, R a b → R b c → R a c)
    (hR : ∀ w op ans w', P op → exec w op ans w' → R w w') (hm : Leaves P m) (run : RLRun) (w : W) :
    Act.At (acting exec) (fun _ copy w' => copy = run ∧ R w w')
      (fun copy w' => copy = run ∧ R w w') m run w := by
  have hchecked := wp_checking_of_rely (P := fun _ _ => True) hrefl htrans (fun _ _ _ => trivial) hR
    (hm run run () rfl) w
  refine wp_mono ?_ (wp_acting_of_checking (fun _ _ _ _ h => h) hchecked)
  rintro ⟨result, copy⟩ w' hpost
  cases result with
  | ok a | error text => exact hpost

theorem Leaves.then {W : Type} {exec : W → (op : Op) → Ans op → W → Prop} {R : W → W → Prop}
    {Ok : β → RLRun → W → Prop} {Err : RLRun → W → Prop} (hrefl : ∀ w, R w w)
    (htrans : ∀ {a b c}, R a b → R b c → R a c)
    (hR : ∀ w op ans w', P op → exec w op ans w' → R w w') {f : α → Pass β} (hm : Leaves P m)
    {run : RLRun} {w : W} (herror : ∀ w', R w w' → Err run w')
    (hf : ∀ a w', R w w' → Act.At (acting exec) Ok Err (f a) run w') :
    Act.At (acting exec) Ok Err (m >>= f) run w := by
  refine Act.At.bind ((hm.acts hrefl htrans hR run w).mono ?_ ?_)
  · rintro a _ w' ⟨rfl, hmoved⟩
    exact hf a w' hmoved
  · rintro _ w' ⟨rfl, hmoved⟩
    exact herror w' hmoved

/-- A part keeps what each of its operations keeps. -/
theorem Leaves.keeps {W : Type} {exec : W → (op : Op) → Ans op → W → Prop} {I : RLRun → W → Prop}
    (hI : ∀ run w op ans w', P op → exec w op ans w' → I run w → I run w') (hm : Leaves P m) :
    Keeps (acting exec) I m := by
  intro run w h
  have hacts := hm.acts (R := fun w w' => ∀ run, I run w → I run w') (fun _ _ h => h)
    (fun h1 h2 run h => h2 run (h1 run h))
    (fun w op ans w' hop hexec run => hI run w op ans w' hop hexec) run w
  refine wp_mono ?_ hacts
  rintro ⟨result, copy⟩ w' hpost
  cases result with
  | ok a | error text =>
    obtain ⟨rfl, hmoved⟩ := hpost
    exact hmoved copy h

end Leaves

/-! ## Parts that report their errors -/

/-- The record says whether the last operation has failed; then there are no more. -/
def watching (P : Op → Prop) : OpSpec Op Ans Bool :=
  tracking (fun _ _ => True) (fun op broken => broken = false ∧ P op) fun _ op ans => failed op ans

instance (P : Op → Prop) : (watching P).IsMonotone := inferInstanceAs (tracking _ _ _).IsMonotone

/-- The part of a pass leaves the copy of the run as it is, and ends with an error if and
only if one of its operations fails, at once. -/
def Reports (P : Op → Prop) (m : Pass α) : Prop :=
  ∀ run, Act.At (watching P) (fun _ copy broken => copy = run ∧ broken = false)
    (fun copy broken => copy = run ∧ broken = true) m run false

/-- The state after an operation, or a part of a pass, that has failed or not. -/
def Outcome {γ : Type} (Good Bad : γ → Prop) : Bool → γ → Prop
  | false => Good
  | true => Bad

/-- An operation with the property leads from good states to good ones, or fails and leads
to bad ones. -/
def Covers {γ : Type} (rule : OpSpec Op Ans γ) (P : Op → Prop) (Good Bad : γ → Prop) : Prop :=
  ∀ op g, P op → Good g → rule op g fun ans => Outcome Good Bad (failed op ans)

section Reports

variable {γ : Type} {rule : OpSpec Op Ans γ} {P Q : Op → Prop} {Good Bad : γ → Prop} {m : Pass α}

theorem Covers.wp [rule.IsMonotone] {p : Program α} {Post : α → Bool → Prop} {broken : Bool}
    {g : γ} (h : Covers rule P Good Bad) (hp : wp (watching P) p Post broken)
    (hg : Outcome Good Bad broken g) :
    wp rule p (fun a g' => ∃ broken, Post a broken ∧ Outcome Good Bad broken g') g := by
  induction p generalizing broken g with
  | ret a => exact ⟨broken, hp, hg⟩
  | call op next ih =>
    obtain ⟨⟨rfl, hop⟩, hnext⟩ := hp
    exact OpSpec.IsMonotone.monotone op g _ _ (fun ans g' hg' => ih ans (hnext ans trivial) hg')
      (h op g hop hg)

/-- A part that reports its errors ends in a good state, or with an error in a bad one. -/
theorem Reports.acts [rule.IsMonotone] (hm : Reports P m) (h : Covers rule P Good Bad)
    (run : RLRun) {g : γ} (hg : Good g) :
    Act.At rule (fun _ copy g' => copy = run ∧ Good g') (fun copy g' => copy = run ∧ Bad g') m run
      g := by
  refine wp_mono ?_ (h.wp (hm run) hg)
  rintro ⟨result, copy⟩ g' ⟨broken, hpost, hg'⟩
  cases result with
  | ok a | error text =>
    obtain ⟨rfl, rfl⟩ := hpost
    exact ⟨rfl, hg'⟩

theorem Reports.mono (hm : Reports P m) (h : ∀ op, P op → Q op) : Reports Q m := by
  have hcovers : Covers (watching Q) P (fun broken => broken = false) fun broken =>
      broken = true := by
    rintro op _ hop rfl
    refine ⟨⟨rfl, h op hop⟩, fun ans _ => ?_⟩
    show Outcome _ _ (failed op ans) (failed op ans)
    cases failed op ans <;> rfl
  exact fun run => hm.acts hcovers run rfl

theorem Reports.leaves (hm : Reports P m) : Leaves P m := by
  rintro run _ g rfl
  have hany : ∀ broken, Outcome (fun _ : Unit => True) (fun _ => True) broken () := by
    intro broken
    cases broken <;> trivial
  have hcovers : Covers (rely (fun _ _ => True) P) P (fun _ => True) fun _ => True :=
    fun _ _ hop _ => ⟨hop, fun _ _ => hany _⟩
  refine wp_mono ?_ (hm.acts hcovers _ trivial)
  rintro ⟨result, copy⟩ _ hpost
  cases result with
  | ok a | error text => exact hpost.1

theorem Reports.pure (a : α) : Reports P (pure a : Pass α) := fun _ => Act.At.pure ⟨rfl, rfl⟩

theorem Reports.bind {f : α → Pass β} (hm : Reports P m) (hf : ∀ a, Reports P (f a)) :
    Reports P (m >>= f) := by
  intro run
  refine Act.At.seq (hm run) ?_
  rintro a _ _ ⟨rfl, rfl⟩
  exact hf a _

theorem Reports.get {f : RLRun → Pass β} (hf : ∀ run, Reports P (f run)) :
    Reports P (Act.get >>= f) :=
  fun run => Act.At.get (hf run run)

theorem Reports.when {c : Prop} [Decidable c] {m : Pass Unit} (hm : Reports P m) :
    Reports P (Act.when c m) := by
  unfold Act.when
  split
  · exact hm
  · exact Reports.pure ()

theorem Reports.forEach {ι : Type} {f : ι → Pass Unit} {xs : List ι}
    (hf : ∀ x ∈ xs, Reports P (f x)) : Reports P (Act.forEach f xs) := by
  induction xs with
  | nil => exact Reports.pure ()
  | cons x xs ih =>
    refine Reports.bind (hf x List.mem_cons_self) fun _ => ?_
    exact ih fun y hy => hf y (List.mem_cons_of_mem x hy)

theorem Reports.attempt {δ : Type} {text : δ → String} {p : Program (Except δ α)}
    (hp : wp (watching P) p (fun result broken => broken = !result.isOk) false) :
    Reports P (Act.attempt text p : Pass α) := by
  intro run
  refine Act.At.attempt (wp_mono ?_ hp)
  rintro result _ rfl
  refine ⟨?_, ?_⟩
  · rintro a rfl
    exact ⟨rfl, rfl⟩
  · rintro e rfl
    exact ⟨rfl, rfl⟩

theorem reports_apply {text : ClientError → String} {object : Object} (h : P (.apply object)) :
    Reports P (Act.attempt text (call (.apply object)) : Pass Object) :=
  Reports.attempt ⟨⟨rfl, h⟩, fun ans _ => by cases ans <;> rfl⟩

theorem reports_getRLAttempt {id : String}
    (h : P (.sql (.first .attempts (fun attempt : RLAttempt => attempt.id = id) unordered))) :
    Reports P (RL.stored (getRLAttempt id)) :=
  Reports.attempt ⟨⟨rfl, h⟩, fun ans _ => by cases ans <;> rfl⟩

end Reports

/-- Objects of a kind are applied, objects are listed, and resources are tracked. -/
inductive Handles (N : Object → Prop) : Op → Prop
  | apply {object : Object} (h : N object) : Handles N (.apply object)
  | list (kind : Kind) (namespace_ selector : String) :
    Handles N (.listObjects kind namespace_ selector)
  | track (resource : BackendResource) (overwrite) :
    Handles N (.sql (.insert .resources
      (fun n => { resource with id := if resource.id = 0 then n else resource.id }) overwrite))

section Handles

variable {N : Object → Prop}

theorem reports_saveBackendResource (resource : BackendResource) :
    Reports (Handles N) (stored (saveBackendResource resource)) :=
  Reports.attempt ⟨⟨rfl, .track _ _⟩, fun ans _ => by cases ans <;> rfl⟩

theorem reports_discoverOwned (spec : RLRunSpec) : Reports (Handles N) (discoverOwned spec) := by
  refine Reports.get fun run => Reports.forEach fun kind _ => ?_
  refine Reports.bind
    (Reports.attempt ⟨⟨rfl, .list _ _ _⟩, fun ans _ => by cases ans <;> rfl⟩) fun objects => ?_
  refine Reports.forEach fun object _ => ?_
  split
  · exact reports_saveBackendResource _
  · exact Reports.pure ()

theorem reports_applyAndTrack (attempt : RLAttempt) {object : Object} (h : N object) :
    Reports (Handles N) (applyAndTrack attempt object) :=
  Reports.get fun _ => Reports.bind (reports_apply (.apply h)) fun _ =>
    reports_saveBackendResource _

theorem reports_ensureTenantInfrastructure (cfg : Config) (spec : RLRunSpec)
    (hN : ∀ object : Object, object.kind ≠ .rayJob → N object) :
    Reports (Handles N) (ensureTenantInfrastructure cfg spec) := by
  refine Reports.forEach fun object hobject => ?_
  have hkind : object.kind ≠ .rayJob := by
    simp only [List.mem_cons, List.not_mem_nil, or_false] at hobject
    rcases hobject with rfl | rfl | rfl | rfl | rfl
    all_goals exact nofun
  exact Reports.bind (reports_apply (.apply (hN object hkind))) fun _ => Reports.pure ()

theorem Handles.plain {op : Op} (h : Handles N op) : Plain op := by
  cases h with
  | apply | list => trivial
  | track => rfl

end Handles

theorem Handles.idle {op : Op}
    (h : Handles (fun object => ∀ spec attemptID, object ≠ renderRayJob spec attemptID) op) :
    Idle op := by
  cases h with
  | apply h => exact h
  | list => trivial
  | track => rfl

/-! ## Store functions -/

theorem still_getRLRun (id : String) : Still (getRLRun id) := Obeys.perform trivial

theorem quiet_saveBackendResource (resource : BackendResource) :
    Quiet (saveBackendResource resource) := Obeys.perform rfl

theorem still_saveExecution (execution : Execution) : Still (saveExecution execution) :=
  Obeys.perform rfl

theorem still_enqueueJob (item : JobQueueItem) : Still (enqueueJob item) := Obeys.perform rfl

theorem still_updateJobStatus (id : String) (status : JobStatus) (error : String) :
    Still (updateJobStatus id status error) := Obeys.perform rfl

theorem still_claimNextJob : Still claimNextJob := by
  refine Obeys.call trivial fun selected => ?_
  cases selected with
  | ok item => exact Obeys.call rfl fun _ => Obeys.pure _
  | error e => exact Obeys.pure _

theorem still_claimStandbyVM (gpuModel : String) : Still (claimStandbyVM gpuModel) := by
  refine Obeys.call trivial fun now => ?_
  refine Obeys.call trivial fun selected => ?_
  cases selected with
  | ok vm => exact Obeys.call rfl fun _ => Obeys.pure _
  | error e => exact Obeys.pure _

/-! ## Objects that are no training jobs -/

theorem ne_renderRayJob_of_kind {object : Object} (h : object.kind ≠ .rayJob) (spec : RLRunSpec)
    (attemptID : String) : object ≠ renderRayJob spec attemptID :=
  fun heq => h (congrArg Object.kind heq)

theorem suspended_ne_renderRayJob {object changed : Object} {kind : Kind}
    (h : suspended object kind = some changed) (spec : RLRunSpec) (attemptID : String) :
    changed ≠ renderRayJob spec attemptID := by
  intro heq
  unfold suspended at h
  split at h
  · cases h
    cases congrArg Object.suspend heq
  · cases h
    cases congrArg Object.replicas heq
  · cases h

theorem released_ne_renderRayJob (object : Object) (spec : RLRunSpec) (attemptID : String) :
    { object with finalizers := object.finalizers.filter (· ≠ finalizer) } ≠
      renderRayJob spec attemptID := by
  intro heq
  have hkept : object.finalizers.filter (· ≠ finalizer) = [finalizer] :=
    congrArg Object.finalizers heq
  have hmem : finalizer ∈ object.finalizers.filter (· ≠ finalizer) := by
    rw [hkept]
    exact List.mem_singleton_self _
  exact absurd rfl (of_decide_eq_true (List.mem_filter.mp hmem).2)

/-! ## Parts of a pass -/

theorem idle_discoverOwned (spec : RLRunSpec) : Leaves Idle (discoverOwned spec) :=
  (reports_discoverOwned spec).leaves.mono fun _ => Handles.idle

theorem calm_discoverOwned (spec : RLRunSpec) : Calm (discoverOwned spec) :=
  (idle_discoverOwned spec).mono fun _ => Idle.plain

theorem idle_suspendResource (resource : BackendResource) :
    Leaves Idle (suspendResource resource) := by
  unfold suspendResource
  split
  · refine Leaves.bind (Leaves.lift (Obeys.perform trivial)) fun found => ?_
    split
    · exact Leaves.pure ()
    · exact Leaves.fail _
    split
    · exact Leaves.pure ()
    rename_i changed hchanged
    exact Leaves.bind
      (Leaves.attempt (Obeys.perform (suspended_ne_renderRayJob hchanged))) fun _ =>
      Leaves.stored (Obeys.perform rfl)
  · exact Leaves.pure ()

theorem idle_suspendOwned : Leaves Idle suspendOwned :=
  Leaves.get fun _ => Leaves.bind (Leaves.stored (Obeys.perform trivial)) fun _ =>
    Leaves.forEach fun resource _ => idle_suspendResource resource

theorem calm_suspendOwned : Calm suspendOwned := idle_suspendOwned.mono fun _ => Idle.plain

theorem idle_releaseResource (runID : String) (resource : BackendResource) :
    Leaves Idle (releaseResource runID resource) := by
  refine Leaves.bind (Leaves.lift (Obeys.perform trivial)) fun found => ?_
  split
  · unfold releaseObject
    dsimp only
    split
    · exact Leaves.fail _
    split
    · exact Leaves.fail _
    · exact Leaves.when (Leaves.bind
        (Leaves.attempt (Obeys.perform (released_ne_renderRayJob _))) fun _ => Leaves.pure ())
  · exact Leaves.pure ()
  · exact Leaves.fail _

theorem idle_requestDeletion (resource : BackendResource) :
    Leaves Idle (requestDeletion resource) := by
  refine Leaves.bind (Leaves.lift (Obeys.perform trivial)) fun deleted => ?_
  split
  · exact Leaves.pure ()
  · exact Leaves.pure ()
  · exact Leaves.fail _

theorem idle_confirmDeletion (resource : BackendResource) :
    Leaves Idle (confirmDeletion resource) := by
  refine Leaves.bind (Leaves.lift (Obeys.perform trivial)) fun left => ?_
  split
  · exact Leaves.bind (Leaves.stored (Obeys.perform rfl)) fun _ => Leaves.pure _
  · exact Leaves.fail _
  · exact Leaves.bind (Leaves.stored (Obeys.perform rfl)) fun _ => Leaves.pure _

theorem idle_deleteResource (runID : String) (resource : BackendResource) :
    Leaves Idle (deleteResource runID resource) :=
  Leaves.bind (idle_releaseResource runID resource) fun _ =>
    Leaves.bind (idle_requestDeletion resource) fun _ => idle_confirmDeletion resource

theorem idle_deleteResources (runID : String) (resources : List BackendResource)
    (allDeleted : Bool) : Leaves Idle (deleteResources runID resources allDeleted) := by
  induction resources generalizing allDeleted with
  | nil => exact Leaves.pure _
  | cons resource resources ih =>
    unfold deleteResources
    split
    · exact Leaves.bind (idle_deleteResource runID resource) fun gone => ih _
    · exact ih _

theorem idle_deleteOwned : Leaves Idle deleteOwned :=
  Leaves.get fun run => Leaves.bind (Leaves.stored (Obeys.perform trivial)) fun resources =>
    idle_deleteResources run.id resources true

theorem calm_deleteOwned : Calm deleteOwned := idle_deleteOwned.mono fun _ => Idle.plain

theorem calm_applyAndTrack (attempt : RLAttempt) (object : Object) :
    Calm (applyAndTrack attempt object) :=
  (reports_applyAndTrack attempt (N := fun _ => True) trivial).leaves.mono fun _ => Handles.plain

theorem idle_applyAndTrack (attempt : RLAttempt) {object : Object}
    (h : ∀ spec attemptID, object ≠ renderRayJob spec attemptID) :
    Leaves Idle (applyAndTrack attempt object) :=
  (reports_applyAndTrack attempt h).leaves.mono fun _ => Handles.idle

theorem idle_ensureTenantInfrastructure (cfg : Config) (spec : RLRunSpec) :
    Leaves Idle (ensureTenantInfrastructure cfg spec) :=
  (reports_ensureTenantInfrastructure cfg spec fun _ => ne_renderRayJob_of_kind).leaves.mono
    fun _ => Handles.idle

theorem calm_ensureTenantInfrastructure (cfg : Config) (spec : RLRunSpec) :
    Calm (ensureTenantInfrastructure cfg spec) :=
  (idle_ensureTenantInfrastructure cfg spec).mono fun _ => Idle.plain

theorem idle_executionSpec (spec : RLRunSpec) : Leaves Idle (executionSpec spec) := by
  refine Leaves.get fun run => ?_
  split
  · exact Leaves.bind (Leaves.attempt (Obeys.perform trivial)) fun _ => Leaves.pure _
  · exact Leaves.pure _

theorem calm_getObject (text : ClientError → String) (kind : Kind) (namespace_ name : String) :
    Calm (Act.attempt text (call (.getObject kind namespace_ name)) : Pass Object) :=
  Leaves.attempt (Obeys.perform trivial)

theorem calm_executionSpec (spec : RLRunSpec) : Calm (executionSpec spec) :=
  (idle_executionSpec spec).mono fun _ => Idle.plain

/-! ## Parts of handlers -/

theorem still_spawnJob (execution : Execution) (job : JobQueueItem) :
    Still (spawnJob execution job) :=
  Obeys.bind (still_saveExecution _) fun _ => Obeys.bind (still_enqueueJob _) fun _ => Obeys.pure ()

theorem still_stopExecution (id : String) : Still (stopExecution id) := by
  refine Obeys.call trivial fun found => ?_
  split
  · exact Obeys.pure ()
  · split
    · exact Obeys.bind (still_saveExecution _) fun _ => Obeys.pure ()
    · exact Obeys.pure ()

theorem still_enqueueWorkers (run : RLRun) (round trajectories : Int) (url : String) (now : Int)
    (workers : List Nat) : Still (enqueueWorkers run round trajectories url now workers) := by
  induction workers with
  | nil => exact Obeys.pure _
  | cons i rest ih =>
    refine Obeys.bind (still_saveExecution _) fun saved => ?_
    split
    · exact Obeys.pure _
    refine Obeys.bind (still_enqueueJob _) fun enqueued => ?_
    split
    · exact Obeys.pure _
    · exact ih

theorem still_enqueueWorkerRound (run : RLRun) (round trajectories : Int) (url : String) :
    Still (enqueueWorkerRound run round trajectories url) :=
  Obeys.call trivial fun _ =>
    Obeys.bind (still_enqueueWorkers _ _ _ _ _ _) fun _ => Obeys.pure _

theorem still_terminatePolicy (policyExecID : String) : Still (terminatePolicy policyExecID) := by
  refine Obeys.call trivial fun found => ?_
  split
  · exact Obeys.pure ()
  · split
    · exact Obeys.call trivial fun _ => Obeys.pure ()
    · exact Obeys.pure ()

theorem still_admitSamples (algorithm : AlgorithmSpec) (run : RLRun) (ratios : FinMap String Rat)
    (samples : List SampleEnvelope) : Still (admitSamples algorithm run ratios samples) := by
  induction samples with
  | nil => exact Obeys.pure _
  | cons sample samples ih =>
    refine Obeys.call trivial fun version => ?_
    refine Obeys.call trivial fun now => ?_
    exact Obeys.bind ih fun _ => Obeys.pure _

/-! ## Parts of queue rounds -/

theorem still_dispatchWithRetry (spec : DeploySpec) (lastErr : String) (attempts : Nat) :
    Still (Scheduler.dispatchWithRetry spec lastErr attempts) := by
  induction attempts generalizing lastErr with
  | zero => exact Obeys.pure _
  | succ attempts ih =>
    refine Obeys.call trivial fun result => ?_
    split
    · exact Obeys.pure _
    · exact ih _

theorem still_deploy (item : JobQueueItem) : Still (Scheduler.deploy item) := by
  unfold Scheduler.deploy
  dsimp only
  split
  · refine Obeys.bind (still_claimStandbyVM _) fun slot => ?_
    split
    · split
      · exact still_dispatchWithRetry _ _ _
      · exact Obeys.pure _
    · exact still_dispatchWithRetry _ _ _
  · exact still_dispatchWithRetry _ _ _

theorem still_recordDeployment (item : JobQueueItem) (result : DeployResult) :
    Still (Scheduler.recordDeployment item result) := by
  refine Obeys.bind ?_ fun _ => Obeys.call rfl fun _ => Obeys.pure ()
  refine Obeys.call trivial fun found => ?_
  split
  · exact Obeys.pure ()
  · exact Obeys.bind (still_saveExecution _) fun _ => Obeys.pure ()

theorem still_jobRole (item : JobQueueItem) : Still (Scheduler.jobRole item) := by
  unfold Scheduler.jobRole
  dsimp only
  split
  · exact Obeys.pure _
  refine Obeys.call trivial fun found => ?_
  split
  · exact Obeys.pure _
  · exact Obeys.pure _

theorem still_markExecFailed (executionID errMsg : String) :
    Still (Scheduler.markExecFailed executionID errMsg) := by
  refine Obeys.call trivial fun found => ?_
  split
  · exact Obeys.pure ()
  · exact Obeys.bind (still_saveExecution _) fun _ => Obeys.pure ()

theorem still_mustWait (runID role : String) : Still (Scheduler.mustWait runID role) := by
  unfold Scheduler.mustWait
  split
  · refine Obeys.bind (still_getRLRun _) fun found => ?_
    split
    · exact Obeys.pure _
    · exact Obeys.pure _
  · exact Obeys.pure _

end RL
end Skyscale
