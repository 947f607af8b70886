import Skyscale.RL.Policy
import Skyscale.State.Manager

/-!
# The reconciler

This module embeds `control-plane/rlservice/reconciler.go`.  A pass works on a copy
of a run row through a pointer: `Pass` is a program whose private state is that copy,
and which may end with an error, the copy keeping the fields assigned before.
`reconcileAll` saves such a copy with the error as its failure reason.
-/

namespace Skyscale
namespace RL

open Lib State Control K8s Contracts

/-- What the control plane is configured with: the environment variables, the codec
of run contracts and which optional components exist. -/
structure Config where
  codec : Codec
  decodeSnapshot : String → Except String RunSnapshot
  encodeSnapshot : RunSnapshot → String
  getenv : String → String
  promotions : Bool
  reconciler : Bool
  groupedSamples : Bool
  weightService : Bool

/-- A manager with all its services, whose runs all have one specification. -/
def configOf (spec : RLRunSpec) : Config where
  codec := ⟨fun _ => "sha", fun _ => true⟩
  decodeSnapshot := fun _ => .ok ⟨spec, "sha", true⟩
  encodeSnapshot := fun _ => ""
  getenv := fun _ => ""
  promotions := true
  reconciler := true
  groupedSamples := true
  weightService := true

/-- A part of a reconcile pass, on a copy of the run. -/
abbrev Pass (α : Type) : Type := Act Op Ans RLRun String α

/-- Run a store operation and return its error. -/
def stored {α : Type} (p : Program (Except Failure α)) : Pass α := Act.attempt Failure.text p

/-- Assign to fields of the copy. -/
def assign (f : RLRun → RLRun) : Pass Unit := Act.modify f

/-- `r.state.SaveRLRun(run)` on the copy. -/
def saveRun : Pass Unit := do
  let run ← Act.get
  stored (saveRLRun run)

/-! ## Owned resources -/

/-- `runResourceTypes`. -/
def runResourceTypes : List Kind :=
  [.rayJob, .deployment, .service, .configMap, .job, .persistentVolumeClaim]

/-- `gvrForKind` knows the kind. -/
def gvrForKind : Kind → Bool
  | .rayJob | .deployment | .service | .configMap | .secret | .job
  | .persistentVolumeClaim => true
  | .namespace_ | .resourceQuota | .limitRange | .networkPolicy | .serviceAccount => false

/-- The object carries the manager's label and the run's. -/
def ownedBy (runID : String) (object : Object) : Bool :=
  object.label "rl.skyscale.dev/run" = runID &&
    object.label "app.kubernetes.io/managed-by" = "skyscale"

/-- The row `discoverOwned` records for an object. -/
def discovered (runID namespace_ : String) (kind : Kind) (object : Object) : BackendResource where
  id := 0
  runID
  attemptID := object.label "rl.skyscale.dev/attempt"
  apiVersion := object.apiVersion
  kind
  namespace_
  name := object.name
  uid := object.uid
  generation := object.generation
  resourceVersion := object.resourceVersion
  desiredState := .present
  observedState := .discovered
  failureReason := ""
  deletionPending := false

/-- `discoverOwned`. -/
def discoverOwned (spec : RLRunSpec) : Pass Unit := do
  let run ← Act.get
  let namespace_ := specNamespace spec
  let selector := "app.kubernetes.io/managed-by=skyscale,rl.skyscale.dev/run=" ++ run.id
  Act.forEach (fun kind => do
    let objects : List Object ← Act.attempt
      (fun e : ClientError =>
        "discover owned " ++ kindName kind ++ " resources: " ++ e.text)
      (call (.listObjects kind namespace_ selector))
    Act.forEach (fun object =>
      if ownedBy run.id object then
        stored (saveBackendResource (discovered run.id namespace_ kind object))
      else
        pure ()) objects) runResourceTypes

/-- The change `suspendOwned` makes to an object, for the kinds it suspends. -/
def suspended (object : Object) : Kind → Option Object
  | .rayJob => some { object with suspend := some true }
  | .deployment => some
      { object with
        replicas := some 0
        annotations := (object.annotations.set "rl.skyscale.dev/draining" "true").set
          "rl.skyscale.dev/drain-reason" "run-suspended" }
  | _ => none

/-- The text `kind/name` of error messages. -/
def resourceName (kind : Kind) (name : String) : String := kindName kind ++ "/" ++ name

/-- One resource of `suspendOwned`. -/
def suspendResource (resource : BackendResource) : Pass Unit := do
  if gvrForKind resource.kind then
    let found : Except ClientError Object ←
      Act.lift (call (.getObject resource.kind resource.namespace_ resource.name))
    match found with
    | .error (.notFound _) => pure ()
    | .error (.other text) => Act.fail text
    | .ok object =>
      match suspended object resource.kind with
      | none => pure ()
      | some object =>
        let _ : Object ← Act.attempt
          (fun e : ClientError =>
            "suspend " ++ resourceName resource.kind resource.name ++ ": " ++ e.text)
          (call (.apply object))
        stored (saveBackendResource
          { resource with desiredState := .suspended, observedState := .suspended })
  else
    pure ()

/-- `suspendOwned`. -/
def suspendOwned : Pass Unit := do
  let run ← Act.get
  let resources ← stored (listBackendResources run.id)
  Act.forEach suspendResource resources

/-- The checks of `deleteOwned` on an object that exists, and the removal of the
finalizer. -/
def releaseObject (runID : String) (resource : BackendResource) (object : Object) : Pass Unit :=
  let name := resourceName resource.kind resource.name
  if resource.uid ≠ "" ∧ object.uid ≠ resource.uid then
    Act.fail ("refuse to delete replaced " ++ name ++ ": UID no longer matches")
  else if ownedBy runID object = false then
    Act.fail ("refuse to delete unowned " ++ name)
  else
    let kept := object.finalizers.filter (· ≠ finalizer)
    Act.when (kept.length ≠ object.finalizers.length) do
      let _ : Object ← Act.attempt
        (fun e : ClientError => "remove finalizer from " ++ name ++ ": " ++ e.text)
        (call (.apply { object with finalizers := kept }))
      pure ()

/-- Look at the object of a resource before its deletion. -/
def releaseResource (runID : String) (resource : BackendResource) : Pass Unit := do
  let found : Except ClientError Object ←
    Act.lift (call (.getObject resource.kind resource.namespace_ resource.name))
  match found with
  | .ok object => releaseObject runID resource object
  | .error (.notFound _) => pure ()
  | .error (.other text) => Act.fail text

/-- Ask the cluster to delete an object. -/
def requestDeletion (resource : BackendResource) : Pass Unit := do
  let deleted : Except ClientError Unit ←
    Act.lift (call (.deleteObject resource.kind resource.namespace_ resource.name))
  match deleted with
  | .ok () => pure ()
  | .error (.notFound _) => pure ()
  | .error (.other text) =>
    Act.fail ("delete " ++ resourceName resource.kind resource.name ++ ": " ++ text)

/-- Look at the object again: whether it is gone. -/
def confirmDeletion (resource : BackendResource) : Pass Bool := do
  let left : Except ClientError Object ←
    Act.lift (call (.getObject resource.kind resource.namespace_ resource.name))
  match left with
  | .ok _ =>
    stored (saveBackendResource { resource with deletionPending := true, desiredState := .absent })
    pure false
  | .error (.other text) => Act.fail text
  | .error (.notFound _) =>
    stored (deleteBackendResource resource.id)
    pure true

/-- One resource of `deleteOwned`: whether it is gone. -/
def deleteResource (runID : String) (resource : BackendResource) : Pass Bool := do
  releaseResource runID resource
  requestDeletion resource
  confirmDeletion resource

/-- The loop of `deleteOwned`. -/
def deleteResources (runID : String) : List BackendResource → Bool → Pass Bool
  | [], allDeleted => pure allDeleted
  | resource :: resources, allDeleted => do
    if gvrForKind resource.kind then
      let gone ← deleteResource runID resource
      deleteResources runID resources (allDeleted && gone)
    else
      deleteResources runID resources allDeleted

/-- `deleteOwned`. -/
def deleteOwned : Pass Bool := do
  let run ← Act.get
  let resources ← stored (listBackendResources run.id)
  deleteResources run.id resources true

/-! ## Applying objects -/

/-- The quota `ensureTenantInfrastructure` reads. -/
def tenantMaxGPUs (cfg : Config) : Int :=
  match atoi (cfg.getenv "SKYSCALE_RL_TENANT_MAX_GPUS") with
  | some n => if n > 0 then n else 8
  | none => 8

/-- `ensureTenantInfrastructure`. -/
def ensureTenantInfrastructure (cfg : Config) (spec : RLRunSpec) : Pass Unit :=
  Act.forEach (fun object => do
    let _ : Object ← Act.attempt
      (fun e : ClientError => "apply tenant " ++ kindName object.kind ++ ": " ++ e.text)
      (call (.apply object))
    pure ())
    [renderTenantNamespace spec, renderTenantServiceAccount spec,
      renderTenantQuota spec (tenantMaxGPUs cfg), renderTenantLimitRange spec,
      renderTenantNetworkPolicy spec]

/-- The row `applyAndTrack` records. -/
def tracked (runID attemptID : String) (object applied : Object) : BackendResource where
  id := 0
  runID
  attemptID
  apiVersion := object.apiVersion
  kind := object.kind
  namespace_ := object.namespace_
  name := object.name
  uid := applied.uid
  generation := applied.generation
  resourceVersion := applied.resourceVersion
  desiredState := .present
  observedState := .present
  failureReason := ""
  deletionPending := false

/-- `applyAndTrack`; its callers drop the applied object. -/
def applyAndTrack (attempt : RLAttempt) (object : Object) : Pass Unit := do
  let run ← Act.get
  let applied : Object ← Act.attempt
    (fun e : ClientError =>
      "apply " ++ resourceName object.kind object.name ++ ": " ++ e.text)
    (call (.apply object))
  stored (saveBackendResource (tracked run.id attempt.id object applied))

/-! ## Attempts and the training job -/

/-- The attempt `ensureAttempt` creates. -/
def newAttempt (run : RLRun) (spec : RLRunSpec) (number : Int) : RLAttempt :=
  let id := "attempt-" ++ pad3 number
  { id := id ++ "-" ++ run.id
    runID := run.id
    number
    status := .starting
    rayJobName := spec.metadata.runID ++ "-" ++ id ++ "-" ++ run.id
    namespace_ := specNamespace spec
    resumeCheckpointID := run.checkpointID
    failureReason := "" }

/-- `ensureAttempt`. -/
def ensureAttempt (spec : RLRunSpec) : Pass RLAttempt := do
  let run ← Act.get
  if run.currentAttemptID ≠ "" then
    stored (getRLAttempt run.currentAttemptID)
  else
    let attempts ← stored (listRLAttempts run.id)
    let attempt := newAttempt run spec (attempts.length + 1)
    assign fun run =>
      { run with
        currentAttemptID := attempt.id, status := .starting, observedState := "reconciling" }
    stored (saveRLAttempt attempt)
    saveRun
    pure attempt

/-- The statuses of a finished Ray job. -/
def jobSucceeded (status : String) : Bool :=
  status = "SUCCEEDED" || status = "Complete" || status = "Succeeded"

def jobFailed (status : String) : Bool := status = "FAILED" || status = "Failed"

/-- The status `observeRayJob` goes by. -/
def trainingStatus (job : Object) : String :=
  let deploymentStatus :=
    if job.jobDeploymentStatus = "" then job.deploymentStatus else job.jobDeploymentStatus
  if job.jobStatus = "" then deploymentStatus else job.jobStatus

/-- `rayJobStatus`. -/
def rayJobStatus (job : Object) : String :=
  if job.jobStatus = "" then job.jobDeploymentStatus else job.jobStatus

/-- The retry bound of `observeRayJob`. -/
def maxRetries (spec : RLRunSpec) : Int :=
  match atoi (spec.algorithm.arguments.getD "max_retries" "") with
  | some n => if 0 ≤ n ∧ n ≤ 10 then n else 2
  | none => 2

/-- The evaluation `observeRayJob` creates for a finished run. -/
def finalEvaluation (run : RLRun) : RLEvaluationRecord where
  id := "eval-" ++ run.id ++ "-" ++ run.policyVersion
  runID := run.id
  policyVersion := run.policyVersion
  checkpointID := run.checkpointID
  rayJobName := ""
  status := .pending
  metrics := ∅
  gatesPassed := false
  final := true
  canaryState := .pending
  failureReason := ""

/-- The branch of `observeRayJob` for a finished job. -/
def finishTraining (spec : RLRunSpec) : Pass Unit := do
  let run ← Act.get
  if spec.evaluation.required then
    stored (saveRLEvaluation (finalEvaluation run))
    assign fun run =>
      { run with
        status := .evaluating, observedState := "evaluation-pending", failureReason := "" }
  else
    assign fun run =>
      { run with status := .completed, observedState := "succeeded", failureReason := "" }

/-- The branch of `observeRayJob` for a failed job: retry or give up. -/
def retryTraining (attempt : RLAttempt) (spec : RLRunSpec) (reason : String) : Pass Unit :=
  if attempt.number ≤ maxRetries spec then
    assign fun run =>
      { run with currentAttemptID := "", status := .starting, observedState := "retrying" }
  else
    assign fun run =>
      { run with status := .failed, observedState := "failed", failureReason := reason }

/-- The attempt as observed, with the assignments to the run. -/
def observeTraining (attempt : RLAttempt) (spec : RLRunSpec) (job : Object) : Pass RLAttempt := do
  let observed := trainingStatus job
  if jobSucceeded observed then
    finishTraining spec
    pure { attempt with status := .completed }
  else if jobFailed observed then
    let reason := if job.message = "" then "RayJob failed" else job.message
    retryTraining attempt spec reason
    pure { attempt with status := .failed, failureReason := reason }
  else
    assign fun run =>
      { run with
        status := .running
        observedState := if observed = "" then "pending" else observed }
    pure { attempt with status := .running }

/-- `observeRayJob`. -/
def observeRayJob (attempt : RLAttempt) (spec : RLRunSpec) (job : Object) : Pass Unit := do
  let attempt ← observeTraining attempt spec job
  stored (saveRLAttempt attempt)
  saveRun

/-! ## Evaluations -/

/-- The number of canary replicas. -/
def canaryReplicas (spec : RLRunSpec) : Int :=
  let percent := if spec.evaluation.canaryPercent ≤ 0 then 10 else spec.evaluation.canaryPercent
  max (Int.tdiv (wrap (wrap (spec.topology.rollout.replicas * percent) + 99)) 100) 1

/-- The start of the canary of an accepted version. -/
def startCanary (spec : RLRunSpec) (attempt : RLAttempt) (evaluation : RLEvaluationRecord) :
    Pass RLEvaluationRecord := do
  let run ← Act.get
  applyAndTrack attempt
    (renderCanaryRolloutDeployment spec run.policyVersion (canaryReplicas spec) false)
  applyAndTrack attempt (renderCanaryRolloutService spec)
  assign fun run => { run with status := .canary, observedState := "canary-running" }
  pure { evaluation with canaryState := .running }

/-- Apply the evaluator job, look at it, and act on its status. -/
def evaluate (spec : RLRunSpec) (attempt : RLAttempt) (evaluation : RLEvaluationRecord) :
    Pass RLEvaluationRecord := do
  let job := renderEvaluatorRayJob spec evaluation.id evaluation.policyVersion
  let evaluation := { evaluation with rayJobName := job.name }
  applyAndTrack attempt job
  let observed : Object ← Act.attempt ClientError.text
    (call (.getObject .rayJob job.namespace_ job.name))
  if jobFailed (rayJobStatus observed) then
    pure { evaluation with status := .failed, failureReason := "evaluator RayJob failed" }
  else if jobSucceeded (rayJobStatus observed) then
    if evaluation.status = .passed ∧ evaluation.gatesPassed = true then
      startCanary spec attempt evaluation
    else if evaluation.status ≠ .failed then
      assign fun run => { run with observedState := "evaluation-awaiting-metrics" }
      pure { evaluation with status := .awaitingMetrics }
    else
      pure evaluation
  else
    assign fun run => { run with observedState := "evaluation-running" }
    pure { evaluation with status := .running }

/-- The stage `evaluating` of `reconcileEvaluation`. -/
def evaluatorStage (spec : RLRunSpec) (attempt : RLAttempt) (evaluation : RLEvaluationRecord) :
    Pass RLEvaluationRecord := do
  let run ← Act.get
  if run.status = .evaluating then evaluate spec attempt evaluation else pure evaluation

/-- Apply the canary's evaluator job and look at it. -/
def watchCanary (spec : RLRunSpec) (attempt : RLAttempt) (evaluation : RLEvaluationRecord) :
    Pass RLEvaluationRecord := do
  let job := renderEvaluatorRayJobPhase spec evaluation.id evaluation.policyVersion "canary"
  applyAndTrack attempt job
  let observed : Object ← Act.attempt ClientError.text
    (call (.getObject .rayJob job.namespace_ job.name))
  if jobFailed (rayJobStatus observed) then
    pure { evaluation with
      canaryState := .failed, failureReason := "canary evaluator RayJob failed" }
  else if jobSucceeded (rayJobStatus observed) then
    assign fun run => { run with observedState := "canary-awaiting-metrics" }
    pure evaluation
  else
    pure evaluation

/-- The stage `canary` of `reconcileEvaluation`. -/
def canaryStage (spec : RLRunSpec) (attempt : RLAttempt) (evaluation : RLEvaluationRecord) :
    Pass RLEvaluationRecord := do
  let run ← Act.get
  if run.status = .canary ∧ evaluation.canaryState = .running then
    watchCanary spec attempt evaluation
  else
    pure evaluation

/-- The end of `reconcileEvaluation`: roll a rejected version back, promote an
accepted one. -/
def decisionStage (cfg : Config) (spec : RLRunSpec) (evaluation : RLEvaluationRecord) :
    Pass Unit := do
  let run ← Act.get
  if evaluation.status = .failed ∨ evaluation.canaryState = .failed then
    if cfg.promotions then
      let version : String ← Act.attempt id (call (.rollback run.id evaluation.failureReason))
      assign fun run =>
        { run with
          policyVersion := version
          rolloutDraining := true
          status := if evaluation.final then .completed else .running
          observedState :=
            if evaluation.final then "rolled-back" else "periodic-evaluation-rolled-back" }
    else
      Act.fail "promotion controller is unavailable"
  else if run.status = .canary ∧ evaluation.canaryState = .passed then
    if cfg.promotions then
      let _ : Unit ← Act.attempt id (call (.markGood run.id run.policyVersion))
      assign fun run =>
        { run with
          lastGoodPolicyVersion := run.policyVersion
          rolloutDraining := false
          status := if evaluation.final then .completed else .running
          observedState :=
            if evaluation.final then "promoted" else "periodic-evaluation-promoted" }
      let _ ← Act.lift (call (.apply
        (renderCanaryRolloutDeployment spec run.policyVersion 0 true)))
      pure ()
    else
      Act.fail "promotion controller is unavailable"
  else
    pure ()

/-- The version the stable fleet serves during an evaluation. -/
def stableVersion (run : RLRun) : String :=
  if run.lastGoodPolicyVersion = "" then run.policyVersion else run.lastGoodPolicyVersion

/-- `reconcileEvaluation`. -/
def reconcileEvaluation (cfg : Config) (spec : RLRunSpec) : Pass Unit := do
  let run ← Act.get
  let evaluation ← Act.attempt (fun e : Failure => "load evaluation: " ++ e.text)
    (getRLEvaluation run.id run.policyVersion)
  let attempt ← stored (getRLAttempt run.currentAttemptID)
  Act.when (spec.topology.mode = "disaggregated")
    (applyAndTrack attempt (renderRolloutDeploymentState spec (stableVersion run)
      spec.topology.rollout.minReplicas false))
  let evaluation ← evaluatorStage spec attempt evaluation
  let evaluation ← canaryStage spec attempt evaluation
  decisionStage cfg spec evaluation
  stored (saveRLEvaluation evaluation)
  saveRun

/-! ## A pass -/

/-- The integrity checks at the start of `Reconcile`; `now` is the clock reading of
`Normalize`. -/
def verifiedSpec (cfg : Config) (now : Int) (run : RLRun) : Except String RLRunSpec :=
  match cfg.decodeSnapshot run.snapshotJSON with
  | .error text => .error ("decode immutable run snapshot: " ++ text)
  | .ok stored =>
    if stored.sha256 ≠ run.snapshotSHA256 ∨ stored.immutable = false then
      .error "run snapshot integrity check failed"
    else
      match snapshot cfg.codec now stored.spec with
      | .error _ => .error "run snapshot content hash verification failed"
      | .ok recomputed =>
        if recomputed.sha256 = stored.sha256 then .ok stored.spec
        else .error "run snapshot content hash verification failed"

/-- The branch of `Reconcile` for a run that is to be cancelled. -/
def cancelBranch : Pass Unit := do
  let run ← Act.get
  if run.status ≠ .cancelling then
    suspendOwned
    assign fun run =>
      { run with status := .cancelling, observedState := "draining", rolloutDraining := true }
    saveRun
  else
    assign fun run => { run with status := .cancelling, observedState := "deleting" }
    let run ← Act.get
    let _ ← Act.lift (saveRLRun run)
    let done ← deleteOwned
    if done then
      assign fun run =>
        { run with status := .cancelled, observedState := "cancelled", failureReason := "" }
      saveRun
    else
      saveRun

/-- The branch of `Reconcile` for a run that is to be suspended. -/
def suspendBranch : Pass Unit := do
  suspendOwned
  assign fun run =>
    { run with status := .suspended, observedState := "resources-suspended" }
  saveRun

/-- The rollout fleet of a disaggregated run. -/
def rolloutBranch (spec : RLRunSpec) (attempt : RLAttempt) : Pass Unit := do
  applyAndTrack attempt (renderRolloutService spec)
  let run ← Act.get
  let current := if run.rolloutDesiredReplicas ≤ 0 then spec.topology.rollout.replicas
    else run.rolloutDesiredReplicas
  let wanted := desiredRolloutReplicas spec.topology.rollout current
    { queueDepth := run.rolloutQueueDepth
      generationP95Sec := run.rolloutGenerationP95
      tokensPerSecond := run.rolloutTokensPerSecond
      trainerDemand := run.rolloutTrainerDemand
      backpressured := run.backpressured }
  let draining := run.rolloutDraining || run.backpressured
  let desired := if draining then 0 else wanted
  assign fun run => { run with rolloutDesiredReplicas := desired }
  applyAndTrack attempt
    (renderRolloutDeploymentState spec run.policyVersion desired draining)
  saveRun

/-- A run without checkpoint adopts the latest committed one. -/
def adoptCheckpoint : Pass Unit := do
  let run ← Act.get
  if run.checkpointID = "" then
    let latest ← Act.lift (latestRLCheckpoint run.id)
    match latest with
    | .error _ => pure ()
    | .ok checkpoint =>
      assign fun run =>
        { run with
          checkpointID := checkpoint.id
          policyVersion := checkpoint.policyVersion
          optimizerStep := checkpoint.optimizerStep }
      saveRun
  else
    pure ()

/-- The specification the training job runs: it resumes from the run's checkpoint. -/
def executionSpec (spec : RLRunSpec) : Pass RLRunSpec := do
  let run ← Act.get
  if run.checkpointID ≠ "" then
    let checkpoint ← Act.attempt (fun e : Failure => "load resume checkpoint: " ++ e.text)
      (getRLCheckpoint run.checkpointID)
    pure { spec with checkpoint := { spec.checkpoint with resumeFrom := checkpoint.resumeURI } }
  else
    pure spec

/-- The branch of `Reconcile` for a run that trains. -/
def trainBranch (cfg : Config) (spec : RLRunSpec) : Pass Unit := do
  ensureTenantInfrastructure cfg spec
  let attempt ← ensureAttempt spec
  Act.when (spec.topology.mode = "disaggregated") (rolloutBranch spec attempt)
  adoptCheckpoint
  let execution ← executionSpec spec
  let job := renderRayJob execution attempt.id
  applyAndTrack attempt job
  let observed : Object ← Act.attempt (fun e : ClientError => "observe RayJob: " ++ e.text)
    (call (.getObject .rayJob job.namespace_ job.name))
  observeRayJob attempt spec observed

/-- `Reconcile`. -/
def reconcile (cfg : Config) : Pass Unit := do
  let run ← Act.get
  let now : Int ← Act.lift (call .now)
  match verifiedSpec cfg now run with
  | .error text => Act.fail text
  | .ok spec =>
    discoverOwned spec
    if run.desiredState = .cancelled ∨ run.status = .cancelling then
      cancelBranch
    else if run.desiredState = .suspended then
      suspendBranch
    else if run.status = .evaluating ∨ run.status = .canary then
      reconcileEvaluation cfg spec
    else
      trainBranch cfg spec

/-- `terminal`. -/
def terminal (status : RunStatus) : Bool :=
  status = .completed || status = .cancelled || status = .failed

/-- The call of `Reconcile` in `ReconcileAll`, with its result: the copy of a failed
pass is saved with the error. -/
def reconcileRecording (cfg : Config) (run : RLRun) : Program (Except String Unit) := do
  let (result, run) ← reconcile cfg run
  match result with
  | .ok () => return .ok ()
  | .error text =>
    let _ ← saveRLRun { run with failureReason := text }
    return .error text

/-- The body of the loop of `ReconcileAll`. -/
def reconcileOne (cfg : Config) (run : RLRun) : Program Unit :=
  if run.backend ≠ .slime ∨ terminal run.status = true then
    return ()
  else do
    let _ ← reconcileRecording cfg run
    return ()

/-- `ReconcileAll`. -/
def reconcileAll (cfg : Config) : Program Unit := do
  match ← listRLRuns with
  | .error _ => return ()
  | .ok runs => Prog.forEach (reconcileOne cfg) runs

end RL
end Skyscale
