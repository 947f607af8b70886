import Skyscale.RL.Start

/-!
# Handlers that change a run

The handlers of `control-plane/api/rl.go`, `rl_slime.go`, `rl_collect.go` and
`rl_services.go` that read a run row and write a changed copy back, and the handler
that records evaluation metrics.  Each reads the row once and saves the whole row
later; nothing keeps other programs from running in between.
-/

namespace Skyscale
namespace RL

open Lib State Control K8s Contracts

/-- Read a run or answer 404. -/
def withRLRun (id : String) (next : RLRun → Handler) : Handler := do
  match ← getRLRun id with
  | .error _ => respondError "run not found" 404
  | .ok run => next run

/-- Save a run, or answer 500 with a text. -/
def savingRLRun (run : RLRun) (text : String) (next : Handler) : Handler := do
  match ← saveRLRun run with
  | .error _ => respondError text 500
  | .ok () => next

/-! ## Life cycle -/

/-- `rlSetPolicyServerHandler`; `url` is empty also when the body is rejected. -/
def rlSetPolicyServer (id url : String) : Handler :=
  if url = "" then
    respondError "url required" 400
  else
    withRLRun id fun run =>
      savingRLRun { run with policyServerURL := url } "failed to save run" (respond 200 .empty)

/-- Stop an execution that is queued or running. -/
def stopExecution (id : String) : Program Unit := do
  match ← getExecution id with
  | .error _ => return ()
  | .ok execution =>
    if execution.status = "queued" ∨ execution.status = "running" then
      let _ ← saveExecution { execution with status := "stopped" }
      return ()
    else
      return ()

/-- `rlStopRunHandler`. -/
def rlStopRun (id : String) : Handler :=
  withRLRun id fun run =>
    if run.backend = .slime then
      savingRLRun { run with desiredState := .cancelled, status := .cancelling }
        "failed to request cancellation" (respond 202 .empty)
    else do
      let _ ← saveRLRun { run with status := .stopped }
      Prog.forEach stopExecution (run.workerExecIDs ++ [run.trainerExecID])
      respond 204 .empty

/-- `setSlimeDesiredState`. -/
def setSlimeDesiredState (id : String) (desired : DesiredState) : Handler :=
  withRLRun id fun run =>
    if run.backend ≠ .slime then
      respondError "operation is only supported for slime runs" 409
    else if terminal run.status then
      respondError "terminal run cannot change desired state" 409
    else
      savingRLRun
        { run with
          desiredState := desired
          status := if desired = .running then .starting else run.status }
        "failed to update run" (respond 200 (.desiredState id desired))

/-- `rlSuspendRunHandler`. -/
def rlSuspendRun (id : String) : Handler := setSlimeDesiredState id .suspended

/-- `rlResumeRunHandler`. -/
def rlResumeRun (id : String) : Handler := setSlimeDesiredState id .running

/-! ## Closed-loop rounds -/

structure CollectBody where
  round : Int
  trajectoriesPerWorker : Int

/-- The execution of a worker of a round. -/
def roundExecID (run : RLRun) (round : Int) (i : Nat) : String :=
  "exec-worker-" ++ run.id ++ "-r" ++ toString round ++ "-" ++ toString i

def roundEnv (run : RLRun) (round trajectories : Int) (url : String) (i : Nat) :
    FinMap String String :=
  FinMap.ofList
    [("RUN_ID", run.id), ("WORKER_INDEX", toString i), ("COLLECT_ROUND", toString round),
     ("CONTROL_PLANE_URL", url), ("EXECUTION_ID", roundExecID run round i),
     ("POLICY_EXEC_ID", "exec-policy-" ++ run.id), ("MODEL", run.baseModel),
     ("MAX_STEPS", toString trajectories), ("DIFFICULTY", "easy"),
     ("ENTRYPOINT", "python /app/worker.py"), ("REFRESH_POLICY_URL", "1")]

/-- The loop of `enqueueWorkerRound`: it stops at the first error. -/
def enqueueWorkers (run : RLRun) (round trajectories : Int) (url : String) (now : Int) :
    List Nat → Program (Except Failure Unit)
  | [] => return .ok ()
  | i :: rest => do
    let execID := roundExecID run round i
    match ← saveExecution (queuedExecution execID run.id "rl_rollout_worker" "cpu" "") with
    | .error e => return .error e
    | .ok () =>
      let job := queuedJob
        ("job-worker-" ++ run.id ++ "-r" ++ toString round ++ "-" ++ toString i) execID
        "ghcr.io/skyscale/rl-worker:latest" "cpu" url
        (roundEnv run round trajectories url i) 8 now
      match ← enqueueJob job with
      | .error e => return .error e
      | .ok () => enqueueWorkers run round trajectories url now rest

/-- `enqueueWorkerRound`.  A negative number of workers makes the source panic, which
ends the request; here it enqueues nothing. -/
def enqueueWorkerRound (run : RLRun) (round trajectories : Int) (url : String) :
    Program (Except Failure (List String)) := do
  let now : Int ← call .now
  let workers := List.range run.numWorkers.toNat
  let result ← enqueueWorkers run round trajectories url now workers
  return result.map fun _ => workers.map (roundExecID run round)

/-- `rlCollectHandler`. -/
def rlCollect (id url : String) (body : Option CollectBody) : Handler :=
  withRLRun id fun run =>
    if run.policyServerURL = "" then
      respondError "policy server not ready" 503
    else
      match body with
      | none => respondError "invalid body" 400
      | some body => do
        let round := if body.round ≤ 0 then run.trainingRound + 1 else body.round
        let trajectories :=
          if body.trajectoriesPerWorker ≤ 0 then 2 else body.trajectoriesPerWorker
        match ← enqueueWorkerRound run round trajectories url with
        | .error e => respondError e.text 500
        | .ok execIDs => do
          let _ ← saveRLRun { run with trainingRound := round }
          respond 200 (.collected round execIDs trajectories)

/-- Terminate the sandbox of the current policy server, if there is one. -/
def terminatePolicy (policyExecID : String) : Program Unit := do
  match ← getExecution policyExecID with
  | .error _ => return ()
  | .ok execution =>
    if execution.vmID ≠ "" then
      let _ ← call (.terminate execution.vmID)
      return ()
    else
      return ()

/-- `rlPolicyRedeployHandler`; `checkpointURL` is empty also when the body is
rejected. -/
def rlPolicyRedeploy (cfg : Config) (id checkpointURL url : String) : Handler :=
  if checkpointURL = "" then
    respondError "checkpoint_url required" 400
  else
    withRLRun id fun run => do
      let policyExecID := "exec-policy-" ++ id
      terminatePolicy policyExecID
      let _ ← saveRLRun { run with policyServerURL := "" }
      let now : Int ← call .now
      let env := appendHFToken cfg (FinMap.ofList
        [("MODEL_NAME", run.baseModel), ("CHECKPOINT_URL", checkpointURL), ("RUN_ID", id),
         ("CONTROL_PLANE_URL", url), ("EXECUTION_ID", policyExecID),
         ("SKYSCALE_ROLE", "policy_server"), ("ENTRYPOINT", "python /app/serve.py")])
      let _ ← saveExecution (queuedExecution policyExecID id "policy_server" "gpu" run.gpuModel)
      match ← enqueueJob (queuedJob ("job-policy-" ++ id ++ "-r" ++ toString run.trainingRound)
          policyExecID "ghcr.io/skyscale/policy-server:latest" run.gpuModel url env 10 now) with
      | .error _ => respondError "failed to enqueue policy redeploy" 500
      | .ok () => respond 200 .queued

/-! ## Grouped samples and rollout metrics -/

structure ClaimBody where
  runID : String
  expectedGroupSize : Int
  owner : String
  leaseSeconds : Int
  importanceRatios : FinMap String Rat

/-- The decisions on the samples of a group. -/
def admitSamples (algorithm : AlgorithmSpec) (run : RLRun) (ratios : FinMap String Rat) :
    List SampleEnvelope → Program (List (String × SampleDecision))
  | [] => return []
  | sample :: samples => do
    let version ← getPolicyVersion run.id sample.policyVersion
    let behaviorStep := match version with
      | .ok version => version.optimizerStep
      | .error _ => 0
    let now : Int ← call .now
    let decision := evaluateSample algorithm run.optimizerStep behaviorStep sample.generatedAt
      now (ratios.getD sample.sampleID 0)
    let rest ← admitSamples algorithm run ratios samples
    return (sample.sampleID, decision) :: rest

/-- The action on a group: a discarded sample discards it, a quarantined one
quarantines it otherwise. -/
def groupAction (decisions : List (String × SampleDecision)) : SampleAction :=
  if decisions.any (·.2.action = .discard) then .discard
  else if decisions.any (·.2.action = .quarantine) then .quarantine
  else .accept

/-- `rlGroupedSampleClaimHandler`. -/
def rlGroupedSampleClaim (cfg : Config) (body : Option ClaimBody) : Handler :=
  if cfg.groupedSamples = false then
    respondError "grouped sample data plane is not configured" 503
  else
    match body with
    | none => respondError "invalid claim" 400
    | some body =>
      withRLRun body.runID fun run => do
        let turn : Except String Bool ←
          call (.acquireFairClaimTurn run.tenantID run.id body.owner)
        match turn with
        | .error _ => respondError "failed to schedule fair sample claim" 500
        | .ok false => respondError "another tenant has the next fair scheduling turn" 429
        | .ok true => do
          let claimed : Except ClaimError (Lease × List SampleEnvelope) ←
            call (.claimGroup run.tenantID body.runID body.expectedGroupSize body.owner
              body.leaseSeconds)
          match claimed with
          | .error .noCompleteGroup => respondError "no complete sample group available" 204
          | .error (.other text) => respondError text 400
          | .ok (lease, samples) =>
            match cfg.decodeSnapshot run.snapshotJSON with
            | .error _ => do
              let _ ← call (.nackLease lease.id body.owner "run snapshot failed")
              respondError "invalid run snapshot" 500
            | .ok snapshot => do
              let decisions ← admitSamples snapshot.spec.algorithm run
                body.importanceRatios samples
              match groupAction decisions with
              | .discard => do
                let _ ← call (.ackLease lease.id body.owner)
                let _ ← saveRLRun { run with rolloutDraining := true }
                respond 204 (.groupAction .discard)
              | .quarantine => do
                let _ ← call (.nackLease lease.id body.owner
                  "quarantine: bounded staleness exceeded")
                respond 204 (.groupAction .quarantine)
              | _ => respond 200 (.claimed lease samples (FinMap.ofList decisions))

/-- `rlGroupedSampleBackpressureHandler`. -/
def rlGroupedSampleBackpressure (cfg : Config) (runID : String) : Handler :=
  if cfg.groupedSamples = false then
    respondError "grouped sample data plane is not configured" 503
  else
    withRLRun runID fun run => do
      let state : Except String (Bool × Int) ← call (.backpressure run.tenantID run.id)
      match state with
      | .error text => respondError text 500
      | .ok (paused, resumeBelow) => do
        if run.backpressured ≠ paused then
          let _ ← saveRLRun { run with backpressured := paused }
          respond 200 (.backpressure paused resumeBelow)
        else
          respond 200 (.backpressure paused resumeBelow)

structure MetricsBody where
  queueDepth : Int
  generationP95Sec : Rat
  tokensPerSecond : Rat
  trainerDemand : Int

def MetricsBody.nonNegative (body : MetricsBody) : Bool :=
  0 ≤ body.queueDepth && 0 ≤ body.generationP95Sec && 0 ≤ body.tokensPerSecond &&
    0 ≤ body.trainerDemand

/-- `rlRolloutMetricsHandler`. -/
def rlRolloutMetrics (id : String) (body : Option MetricsBody) : Handler :=
  withRLRun id fun run =>
    match body.filter MetricsBody.nonNegative with
    | none => respondError "rollout metrics must be non-negative" 400
    | some body =>
      savingRLRun
        { run with
          rolloutQueueDepth := body.queueDepth
          rolloutGenerationP95 := body.generationP95Sec
          rolloutTokensPerSecond := body.tokensPerSecond
          rolloutTrainerDemand := body.trainerDemand }
        "failed to persist rollout metrics" (respond 204 .empty)

/-! ## Weights -/

structure PublishBody where
  manifest : Weights.Manifest
  requiredEngines : List String
  timeoutSeconds : Int

/-- `rlPublishWeightsHandler`. -/
def rlPublishWeights (cfg : Config) (body : Option PublishBody) : Handler :=
  match body with
  | none => respondError "invalid publication" 400
  | some body =>
    if cfg.weightService = false then
      respondError "weight service is unavailable" 503
    else
      withRLRun body.manifest.runID fun run => do
        let published : Except String Unit ←
          call (.publish body.manifest body.requiredEngines body.timeoutSeconds)
        match published with
        | .error text => respondError text 409
        | .ok () => do
          let result : Except String (String × String) ←
            call (.materialize body.manifest.runID body.manifest.version)
          match result with
          | .error text => respondError text 422
          | .ok (uri, checksum) => do
            let _ ← saveRLRun { run with rolloutDraining := true }
            respond 202 (.materialized uri checksum)

structure AcknowledgeBody where
  runID : String
  engineID : String
  checksum : String

/-- Whether the run's snapshot asks for an evaluation; a snapshot that cannot be
decoded asks for none. -/
def requiresEvaluation (cfg : Config) (run : RLRun) : Bool :=
  match cfg.decodeSnapshot run.snapshotJSON with
  | .ok snapshot => snapshot.spec.evaluation.required
  | .error _ => false

/-- `rlAcknowledgeWeightsHandler`. -/
def rlAcknowledgeWeights (cfg : Config) (version : String) (body : Option AcknowledgeBody) :
    Handler :=
  if cfg.weightService = false then
    respondError "weight service is unavailable" 503
  else
    match body.filter fun body => body.runID ≠ "" && body.engineID ≠ "" with
    | none => respondError "run_id and engine_id are required" 400
    | some body => do
      let result : Except String Bool ←
        call (.acknowledge body.runID body.engineID version body.checksum)
      match result with
      | .error text => respondError text 409
      | .ok false => respond 200 (.activation version false)
      | .ok true => do
        match ← getRLRun body.runID with
        | .error _ => respond 200 (.activation version true)
        | .ok run => do
          let _ ← saveRLRun
            { run with
              policyVersion := version
              rolloutDraining := requiresEvaluation cfg run }
          respond 200 (.activation version true)

structure RollbackBody where
  runID : String
  reason : String

/-- `rlRollbackWeightsHandler`. -/
def rlRollbackWeights (cfg : Config) (body : Option RollbackBody) : Handler :=
  if cfg.weightService = false then
    respondError "weight service is unavailable" 503
  else
    match body.filter fun body => body.runID ≠ "" && body.reason ≠ "" with
    | none => respondError "run_id and rollback reason are required" 400
    | some body => do
      let result : Except String String ← call (.rollback body.runID body.reason)
      match result with
      | .error text => respondError text 409
      | .ok version => do
        match ← getRLRun body.runID with
        | .error _ => respond 200 (.desiredVersion version)
        | .ok run => do
          let _ ← saveRLRun { run with policyVersion := version, rolloutDraining := true }
          respond 200 (.desiredVersion version)

/-! ## Evaluations, checkpoints, progress -/

structure EvaluateBody where
  metrics : FinMap String Rat
  phase : String

/-- The record `rlEvaluateWeightsHandler` writes. -/
def judged (evaluation : RLEvaluationRecord) (body : EvaluateBody) (gates : Except String Unit) :
    RLEvaluationRecord :=
  let evaluation := { evaluation with metrics := body.metrics }
  match gates with
  | .error text =>
    if body.phase = "canary" then
      { evaluation with canaryState := .failed, failureReason := text }
    else
      { evaluation with status := .failed, gatesPassed := false, failureReason := text }
  | .ok () =>
    if body.phase = "canary" then
      { evaluation with canaryState := .passed }
    else
      { evaluation with status := .passed, gatesPassed := true }

/-- `rlEvaluateWeightsHandler`. -/
def rlEvaluateWeights (cfg : Config) (id version : String) (body : Option EvaluateBody) :
    Handler :=
  withRLRun id fun run =>
    match cfg.decodeSnapshot run.snapshotJSON with
    | .error _ => respondError "invalid run snapshot" 500
    | .ok snapshot =>
      match body with
      | none => respondError "invalid evaluation" 400
      | some body => do
        match ← getRLEvaluation run.id version with
        | .error _ => respondError "evaluation not found" 404
        | .ok evaluation => do
          let gates := evaluateGates body.metrics snapshot.spec.evaluation.gates
          match ← saveRLEvaluation (judged evaluation body gates) with
          | .error _ => respondError "failed to persist evaluation" 500
          | .ok () =>
            match gates with
            | .error text => respondError text 422
            | .ok () => respond 204 .empty

structure CheckpointBody where
  attemptID : String
  optimizerStep : Int
  resumeURI : String
  servingURI : String
  policyVersion : String
  manifestSHA256 : String

def CheckpointBody.complete (body : CheckpointBody) : Bool :=
  body.attemptID ≠ "" && 0 ≤ body.optimizerStep && body.resumeURI ≠ "" &&
    body.policyVersion ≠ "" && body.manifestSHA256.utf8ByteSize = 64

/-- The checkpoint a commit records. -/
def committed (runID : String) (body : CheckpointBody) : RLCheckpointRecord where
  id := "ckpt-" ++ runID ++ "-" ++ toString body.optimizerStep
  runID
  attemptID := body.attemptID
  optimizerStep := body.optimizerStep
  resumeURI := body.resumeURI
  servingURI := body.servingURI
  policyVersion := body.policyVersion
  manifestSHA256 := body.manifestSHA256
  status := "committed"

/-- Whether a commit at this step starts a periodic evaluation. -/
def periodicEvaluation (cfg : Config) (run : RLRun) (step : Int) : Bool :=
  match cfg.decodeSnapshot run.snapshotJSON with
  | .error _ => false
  | .ok snapshot =>
    let every := snapshot.spec.evaluation.everySteps
    every > 0 && step > 0 && step % every = 0

/-- The evaluation of a periodic checkpoint. -/
def periodicRecord (runID checkpointID : String) (body : CheckpointBody) :
    RLEvaluationRecord where
  id := "eval-" ++ runID ++ "-" ++ body.policyVersion
  runID
  policyVersion := body.policyVersion
  checkpointID
  rayJobName := ""
  status := .pending
  metrics := ∅
  gatesPassed := false
  final := false
  canaryState := .pending
  failureReason := ""

/-- `rlCommitCheckpointHandler`. -/
def rlCommitCheckpoint (cfg : Config) (runID : String) (body : Option CheckpointBody) :
    Handler :=
  withRLRun runID fun run =>
    match body.filter CheckpointBody.complete with
    | none => respondError ("attempt_id, optimizer_step, resume_uri, policy_version, " ++
        "and manifest_sha256 are required") 400
    | some body =>
      if body.attemptID ≠ run.currentAttemptID then
        respondError "checkpoint attempt does not match current attempt" 409
      else do
        match ← saveRLCheckpoint (committed runID body) with
        | .error _ => respondError "failed to commit checkpoint" 500
        | .ok checkpointID => do
          let checkpoint := { committed runID body with id := checkpointID }
          let version : PolicyVersionRecord :=
            { id := body.policyVersion, runID, optimizerStep := body.optimizerStep
              parentVersion := run.policyVersion, checkpointID, status := "published" }
          match ← savePolicyVersion version with
          | .error _ => respondError "failed to persist policy version" 500
          | .ok () => do
            let run :=
              { run with
                checkpointID := checkpointID
                policyVersion := body.policyVersion
                optimizerStep := body.optimizerStep }
            if periodicEvaluation cfg run body.optimizerStep then do
              match ← saveRLEvaluation (periodicRecord run.id checkpointID body) with
              | .error _ => respondError "failed to schedule periodic evaluation" 500
              | .ok () =>
                savingRLRun
                  { run with
                    status := .evaluating
                    observedState := "evaluation-pending"
                    rolloutDraining := true }
                  "failed to update run checkpoint" (respond 201 (.checkpoint checkpoint))
            else
              savingRLRun run "failed to update run checkpoint"
                (respond 201 (.checkpoint checkpoint))

structure ProgressBody where
  attemptID : String
  optimizerStep : Int

/-- `rlTrainerProgressHandler`. -/
def rlTrainerProgress (id : String) (body : Option ProgressBody) : Handler :=
  withRLRun id fun run =>
    match body.filter fun body => body.attemptID ≠ "" && 0 ≤ body.optimizerStep with
    | none => respondError "attempt_id and non-negative optimizer_step are required" 400
    | some body =>
      if body.attemptID ≠ run.currentAttemptID then
        respondError "trainer attempt is no longer authoritative" 409
      else if body.optimizerStep < run.optimizerStep then
        respondError "optimizer step cannot regress" 409
      else
        savingRLRun { run with optimizerStep := body.optimizerStep }
          "failed to persist trainer progress" (respond 204 .empty)

end RL
end Skyscale
