import Skyscale.RL.Quiet

/-!
# The parts of a pass, for any invariant

The parts of a reconcile pass perform operations, assign to the copy of the run and save the
copy.  Which operations and which assignments a part makes is said here once, for an arbitrary
invariant of the copy and the state of the control plane.

* `Beside`, `Aloof` and `Decides` are classes of operations, `Minor`, `Judging`, `Leaving` and
  `Ending` classes of assignments.
* An invariant is `Tame` for such classes if the operations, the assignments and the saves keep
  it.
* A part keeps every invariant that is tame for its classes.
-/

namespace Skyscale
namespace RL

open Lib State Control K8s Contracts

/-! ## Operations -/

/-- The operation does not write the table of runs. -/
def Aloof : Op → Prop
  | .sql q => q.target ≠ some .runs
  | _ => True

/-- The operation writes no run, attempt or checkpoint, and applies no training job. -/
def Beside : Op → Prop
  | .sql q =>
    match q.target with
    | some .runs | some .attempts | some .checkpoints => False
    | _ => True
  | .apply object => ∀ spec attemptID, object ≠ renderRayJob spec attemptID
  | _ => True

/-- The operations of `decisionStage`. -/
def Decides : Op → Prop
  | .rollback _ _ | .markGood _ _ => True
  | .apply object => ∃ spec version, object = renderCanaryRolloutDeployment spec version 0 true
  | _ => False

theorem Plain.aloof {op : Op} (h : Plain op) : Aloof op := by
  cases op with
  | sql q =>
    intro htarget
    simp only [Plain, htarget] at h
    cases h
  | _ => trivial

theorem Beside.aloof {op : Op} (h : Beside op) : Aloof op := by
  cases op with
  | sql q =>
    intro htarget
    simp only [Beside, htarget] at h
  | _ => trivial

theorem Idle.beside {op : Op} (h : Idle op) : Beside op := by
  cases op with
  | sql q =>
    have hplain : Plain (.sql q) := h
    cases htarget : q.target with
    | none => simp only [Beside, htarget]
    | some t =>
      simp only [Plain, htarget] at hplain
      cases t with
      | runs | attempts | checkpoints => cases hplain
      | _ => simp only [Beside, htarget]
  | apply object => exact h
  | _ => trivial

theorem Decides.beside {op : Op} (h : Decides op) : Beside op := by
  cases op with
  | sql q => cases h
  | apply object =>
    obtain ⟨_, _, rfl⟩ := h
    exact ne_renderRayJob_of_kind nofun
  | _ => trivial

theorem Leaves.beside {α : Type} {m : Pass α} (hm : Leaves Idle m) : Leaves Beside m :=
  hm.mono fun _ => Idle.beside

theorem Leaves.aloof {α : Type} {m : Pass α} (hm : Leaves Beside m) : Leaves Aloof m :=
  hm.mono fun _ => Beside.aloof

theorem renderEvaluatorRayJobPhase_ne {spec : RLRunSpec}
    (evaluationID policyVersion phase : String) (execution : RLRunSpec) (attemptID : String) :
    renderEvaluatorRayJobPhase spec evaluationID policyVersion phase ≠
      renderRayJob execution attemptID :=
  fun heq => nomatch congrArg Object.content heq

/-! ## Assignments -/

/-- The columns that no pass assigns to. -/
def kernel (run : RLRun) : String × Backend × DesiredState × String :=
  (run.id, run.backend, run.desiredState, run.snapshotJSON)

def Minor (f : RLRun → RLRun) : Prop := ∀ run, kernel (f run) = kernel run

/-- The assignments of an evaluation: the run keeps its attempt and does not fail. -/
def Judging (f : RLRun → RLRun) : Prop :=
  ∀ run, kernel (f run) = kernel run ∧ (f run).currentAttemptID = run.currentAttemptID ∧
    ((f run).status = .failed → run.status = .failed)

/-- The assignments of a pass that starts no canary. -/
def Leaving (f : RLRun → RLRun) : Prop :=
  ∀ run, kernel (f run) = kernel run ∧ ((f run).status = .canary → run.status = .canary)

/-- The assignments of a pass that cancels or suspends the run. -/
def Ending (f : RLRun → RLRun) : Prop :=
  ∀ run, kernel (f run) = kernel run ∧ (f run).status ≠ .canary

/-- Operations with `N`, assignments with `F` and saves of the copy keep the invariant. -/
structure Tame {γ : Type} (N : Op → Prop) (F : (RLRun → RLRun) → Prop) (rule : OpSpec Op Ans γ)
    (I : RLRun → γ → Prop) : Prop where
  leaves : ∀ {α : Type} {m : Pass α}, Leaves N m → Keeps rule I m
  assign : ∀ {f : RLRun → RLRun}, F f → Keeps rule I (assign f)
  save : ∀ run g, I run g → wp rule (saveRLRun run) (fun _ g' => I run g') g

namespace Tame

variable {γ : Type} {N N' : Op → Prop} {F F' : (RLRun → RLRun) → Prop} {rule : OpSpec Op Ans γ}
variable {I : RLRun → γ → Prop} {cfg : Config} {spec : RLRunSpec}

theorem mono (h : Tame N F rule I) (hN : ∀ op, N' op → N op) (hF : ∀ f, F' f → F f) :
    Tame N' F' rule I :=
  ⟨fun hm => h.leaves (hm.mono hN), fun hf => h.assign (hF _ hf), h.save⟩

theorem applyAndTrack (h : Tame Beside F rule I) (attempt : RLAttempt) {object : Object}
    (hobject : ∀ spec attemptID, object ≠ renderRayJob spec attemptID) :
    Keeps rule I (applyAndTrack attempt object) :=
  h.leaves (idle_applyAndTrack attempt hobject).beside

theorem getObject (h : Tame Beside F rule I) (text : ClientError → String) (kind : Kind)
    (namespace_ name : String) :
    Keeps rule I (Act.attempt text (call (.getObject kind namespace_ name)) : Pass Object) :=
  h.leaves (Leaves.attempt (Obeys.perform trivial))

variable [rule.IsMonotone]

theorem saveRun (h : Tame N F rule I) : Keeps rule I saveRun := by
  intro run g hI
  refine Keeps.attempt (I := fun copy g => copy = run ∧ I run g) ?_ run g ⟨rfl, hI⟩ |> wp_mono ?_
  · rintro ⟨result, copy⟩ g' ⟨rfl, hpost⟩
    exact hpost
  · rintro _ g1 ⟨rfl, h1⟩
    exact wp_mono (fun _ _ hpost => ⟨rfl, hpost⟩) (h.save _ g1 h1)

/-! ## Evaluations -/

section Evaluations

variable (h : Tame Beside Judging rule I)

include h

theorem evaluate (attempt : RLAttempt) (e : RLEvaluationRecord) :
    Keeps rule I (evaluate spec attempt e) := by
  have hstart : ∀ e, Keeps rule I (startCanary spec attempt e) := by
    intro e
    refine Keeps.bind Keeps.get fun run => ?_
    refine Keeps.bind (h.applyAndTrack attempt (ne_renderRayJob_of_kind nofun)) fun _ => ?_
    refine Keeps.bind (h.applyAndTrack attempt (ne_renderRayJob_of_kind nofun)) fun _ => ?_
    exact Keeps.bind (h.assign fun _ => ⟨rfl, rfl, nofun⟩) fun _ => Keeps.pure _
  refine Keeps.bind (h.applyAndTrack attempt (renderEvaluatorRayJobPhase_ne _ _ _)) fun _ => ?_
  refine Keeps.bind (h.getObject _ _ _ _) fun observed => ?_
  split
  · exact Keeps.pure _
  split
  · split
    · exact hstart _
    · split
      · exact Keeps.bind (h.assign fun _ => ⟨rfl, rfl, id⟩) fun _ => Keeps.pure _
      · exact Keeps.pure _
  · exact Keeps.bind (h.assign fun _ => ⟨rfl, rfl, id⟩) fun _ => Keeps.pure _

theorem evaluatorStage (attempt : RLAttempt) (e : RLEvaluationRecord) :
    Keeps rule I (evaluatorStage spec attempt e) := by
  refine Keeps.bind Keeps.get fun run => ?_
  split
  · exact h.evaluate attempt e
  · exact Keeps.pure _

theorem canaryStage (attempt : RLAttempt) (e : RLEvaluationRecord) :
    Keeps rule I (canaryStage spec attempt e) := by
  refine Keeps.bind Keeps.get fun run => ?_
  split
  · refine Keeps.bind (h.applyAndTrack attempt (renderEvaluatorRayJobPhase_ne _ _ _)) fun _ => ?_
    refine Keeps.bind (h.getObject _ _ _ _) fun observed => ?_
    split
    · exact Keeps.pure _
    · split
      · exact Keeps.bind (h.assign fun _ => ⟨rfl, rfl, id⟩) fun _ => Keeps.pure _
      · exact Keeps.pure _
  · exact Keeps.pure _

end Evaluations

/-- The decision keeps the attempt, and leaves the canary stage if it changes the status. -/
theorem decisionStage (h : Tame Decides (fun f => Judging f ∧ Ending f) rule I)
    (e : RLEvaluationRecord) : Keeps rule I (decisionStage cfg spec e) := by
  have hended : ∀ status : RunStatus, status = .failed ∨ status = .canary →
      (if e.final then RunStatus.completed else .running) ≠ status := by
    rintro _ (rfl | rfl)
    all_goals cases e.final with
      | _ => decide
  have hassign : ∀ f : RLRun → RLRun, (∀ run, kernel (f run) = kernel run ∧
      (f run).currentAttemptID = run.currentAttemptID ∧
      (f run).status = if e.final then .completed else .running) → Keeps rule I (RL.assign f) := by
    refine fun f hf => h.assign ⟨fun run => ⟨(hf run).1, (hf run).2.1, fun hfailed => ?_⟩,
      fun run => ⟨(hf run).1, fun hcanary => ?_⟩⟩
    · exact absurd ((hf run).2.2.symm.trans hfailed) (hended _ (.inl rfl))
    · exact absurd ((hf run).2.2.symm.trans hcanary) (hended _ (.inr rfl))
  refine Keeps.bind Keeps.get fun run => ?_
  split
  · split
    · refine Keeps.bind (h.leaves (Leaves.attempt (Obeys.perform trivial))) fun version => ?_
      exact hassign _ fun _ => ⟨rfl, rfl, rfl⟩
    · exact Keeps.fail _
  · split
    · split
      · refine Keeps.bind (h.leaves (Leaves.attempt (Obeys.perform trivial))) fun _ => ?_
        refine Keeps.bind (hassign _ fun _ => ⟨rfl, rfl, rfl⟩) fun _ => ?_
        exact Keeps.bind (h.leaves (Leaves.lift (Obeys.perform ⟨_, _, rfl⟩))) fun _ => Keeps.pure _
      · exact Keeps.fail _
    · exact Keeps.pure _

theorem reconcileEvaluation (h : Tame Beside Judging rule I) :
    Keeps rule I (reconcileEvaluation cfg spec) := by
  have hdecision : Tame Decides (fun f => Judging f ∧ Ending f) rule I :=
    h.mono (fun _ => Decides.beside) fun _ => And.left
  refine Keeps.bind Keeps.get fun run => ?_
  refine Keeps.bind (h.leaves (Leaves.attempt (Obeys.perform trivial))) fun e => ?_
  refine Keeps.bind (h.leaves (Leaves.stored (Obeys.perform trivial))) fun attempt => ?_
  have hrollout : Leaves Idle (RL.applyAndTrack attempt (renderRolloutDeploymentState spec
      (stableVersion run) spec.topology.rollout.minReplicas false)) :=
    idle_applyAndTrack attempt (ne_renderRayJob_of_kind nofun)
  refine Keeps.bind (h.leaves (Leaves.when hrollout).beside) fun _ => ?_
  refine Keeps.bind (h.evaluatorStage attempt e) fun e1 => ?_
  refine Keeps.bind (h.canaryStage attempt e1) fun e2 => ?_
  refine Keeps.bind (hdecision.decisionStage e2) fun _ => ?_
  exact Keeps.bind (h.leaves (Leaves.stored (Obeys.perform trivial))) fun _ => h.saveRun

/-! ## Cancellation and suspension -/

theorem suspendBranch (h : Tame Idle Ending rule I) : Keeps rule I suspendBranch := by
  refine Keeps.bind (h.leaves idle_suspendOwned) fun _ => ?_
  exact Keeps.bind (h.assign fun _ => ⟨rfl, nofun⟩) fun _ => h.saveRun

theorem cancelBranch (h : Tame Idle Ending rule I) : Keeps rule I cancelBranch := by
  refine Keeps.bind Keeps.get fun run => ?_
  split
  · refine Keeps.bind (h.leaves idle_suspendOwned) fun _ => ?_
    exact Keeps.bind (h.assign fun _ => ⟨rfl, nofun⟩) fun _ => h.saveRun
  · refine Keeps.bind (h.assign fun _ => ⟨rfl, nofun⟩) fun _ => ?_
    have hrest : Keeps rule I (do
        let done ← deleteOwned
        if done then
          RL.assign fun run =>
            { run with status := .cancelled, observedState := "cancelled", failureReason := "" }
          RL.saveRun
        else
          RL.saveRun) := by
      refine Keeps.bind (h.leaves idle_deleteOwned) fun done => ?_
      split
      · exact Keeps.bind (h.assign fun _ => ⟨rfl, nofun⟩) fun _ => h.saveRun
      · exact h.saveRun
    -- the error of the first save is dropped
    intro copy g hI
    show wp rule (saveRLRun copy >>= _) _ g
    exact wp_seq (h.save copy g hI) fun _ g' hpost => hrest copy g' hpost

/-! ## Training -/

section Training

variable (h : Tame Aloof Leaving rule I)

include h

theorem ensureAttempt : Keeps rule I (ensureAttempt spec) := by
  refine Keeps.bind Keeps.get fun run => ?_
  split
  · exact h.leaves (Leaves.stored (Obeys.perform nofun))
  · refine Keeps.bind (h.leaves (Leaves.stored (Obeys.perform nofun))) fun attempts => ?_
    refine Keeps.bind (h.assign fun _ => ⟨rfl, nofun⟩) fun _ => ?_
    refine Keeps.bind (h.leaves (Leaves.stored (Obeys.perform nofun))) fun _ => ?_
    exact Keeps.bind h.saveRun fun _ => Keeps.pure _

theorem rolloutBranch (attempt : RLAttempt) : Keeps rule I (rolloutBranch spec attempt) := by
  have happly : ∀ object, Leaves Aloof (RL.applyAndTrack attempt object) := fun object =>
    Leaves.mono (calm_applyAndTrack attempt object) fun _ => Plain.aloof
  refine Keeps.bind (h.leaves (happly _)) fun _ => Keeps.bind Keeps.get fun run => ?_
  refine Keeps.bind (h.assign fun _ => ⟨rfl, id⟩) fun _ => ?_
  exact Keeps.bind (h.leaves (happly _)) fun _ => h.saveRun

theorem adoptCheckpoint : Keeps rule I adoptCheckpoint := by
  refine Keeps.bind Keeps.get fun run => ?_
  split
  · have hlatest : Only Aloof (latestRLCheckpoint run.id) := Obeys.perform nofun
    refine Keeps.bind (h.leaves (Leaves.lift hlatest)) fun latest => ?_
    split
    · exact Keeps.pure _
    · exact Keeps.bind (h.assign fun _ => ⟨rfl, id⟩) fun _ => h.saveRun
  · exact Keeps.pure _

theorem observeTraining (attempt : RLAttempt) (job : Object) :
    Keeps rule I (observeTraining attempt spec job) := by
  unfold RL.observeTraining
  dsimp only
  split
  · refine Keeps.bind ?_ fun _ => Keeps.pure _
    refine Keeps.bind Keeps.get fun run => ?_
    split
    · exact Keeps.bind (h.leaves (Leaves.stored (Obeys.perform nofun))) fun _ =>
        h.assign fun _ => ⟨rfl, nofun⟩
    · exact h.assign fun _ => ⟨rfl, nofun⟩
  · split
    · refine Keeps.bind ?_ fun _ => Keeps.pure _
      unfold retryTraining
      split
      · exact h.assign fun _ => ⟨rfl, nofun⟩
      · exact h.assign fun _ => ⟨rfl, nofun⟩
    · exact Keeps.bind (h.assign fun _ => ⟨rfl, nofun⟩) fun _ => Keeps.pure _

theorem trainBranch : Keeps rule I (trainBranch cfg spec) := by
  refine Keeps.bind (h.leaves (idle_ensureTenantInfrastructure cfg spec).beside.aloof) fun _ => ?_
  refine Keeps.bind h.ensureAttempt fun attempt => ?_
  refine Keeps.bind ?_ fun _ => ?_
  · unfold Act.when
    split
    · exact h.rolloutBranch attempt
    · exact Keeps.pure ()
  refine Keeps.bind h.adoptCheckpoint fun _ => ?_
  refine Keeps.bind (h.leaves (idle_executionSpec spec).beside.aloof) fun execution => ?_
  have hjob : Leaves Aloof (RL.applyAndTrack attempt (renderRayJob execution attempt.id)) :=
    Leaves.mono (calm_applyAndTrack attempt _) fun _ => Plain.aloof
  refine Keeps.bind (h.leaves hjob) fun _ => ?_
  refine Keeps.bind (h.leaves (Leaves.attempt (Obeys.perform trivial))) fun observed => ?_
  refine Keeps.bind (h.observeTraining attempt observed) fun _ => ?_
  exact Keeps.bind (h.leaves (Leaves.stored (Obeys.perform nofun))) fun _ => h.saveRun

end Training

/-! ## A whole pass -/

theorem reconcile (h : Tame Aloof Minor rule I) : Keeps rule I (reconcile cfg) := by
  have hends : Tame Idle Ending rule I :=
    h.mono (fun _ hop => hop.beside.aloof) fun _ hf run => (hf run).1
  refine Keeps.bind Keeps.get fun run => ?_
  refine Keeps.bind (h.leaves (Leaves.lift (Obeys.perform trivial))) fun now => ?_
  split
  · exact Keeps.fail _
  refine Keeps.bind (h.leaves (idle_discoverOwned _).beside.aloof) fun _ => ?_
  split
  · exact hends.cancelBranch
  · split
    · exact hends.suspendBranch
    · split
      · exact (h.mono (fun _ => Beside.aloof) fun _ hf run => (hf run).1).reconcileEvaluation
      · exact (h.mono (fun _ hop => hop) fun _ hf run => (hf run).1).trainBranch

end Tame

end RL
end Skyscale
