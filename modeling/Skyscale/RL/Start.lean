import Skyscale.RL.Reconciler

/-!
# Starting runs

`rlStartRunHandler` of `control-plane/api/rl.go`, `rlStartSlimeRunHandler` of
`api/rl_slime.go` and the responses of all modelled handlers.

A request body is given by what the JSON decoder makes of it; `none` is a body the
decoder rejects.  The start handlers decode the same bytes several times, so their
request has one field for each of these results.
-/

namespace Skyscale
namespace RL

open Lib State Control K8s Contracts

/-! ## Responses -/

/-- The body of a response. -/
inductive Body
  | empty
  | error (text : String)
  | started (runID trainerExecID policyExecID : String) (workerExecIDs : List String)
  | accepted (run : RLRun)
  | collected (round : Int) (workerExecIDs : List String) (trajectoriesPerWorker : Int)
  | queued
  | claimed (lease : Lease) (samples : List SampleEnvelope)
      (admission : FinMap String SampleDecision)
  | groupAction (action : SampleAction)
  | backpressure (paused : Bool) (resumeBelowGroups : Int)
  | materialized (uri checksum : String)
  | activation (version : String) (active : Bool)
  | desiredVersion (version : String)
  | checkpoint (record : RLCheckpointRecord)
  | desiredState (runID : String) (desired : DesiredState)

/-- A response: its status code and body. -/
structure Response where
  code : Nat
  body : Body

/-- A request handler. -/
abbrev Handler : Type := Program Response

/-- `http.Error`. -/
def respondError (text : String) (code : Nat) : Handler := return ⟨code, .error text⟩

/-- A response that is not an error. -/
def respond (code : Nat) (body : Body) : Handler := return ⟨code, body⟩

/-! ## Environment variables -/

/-- `envOrDefault`, `firstEnv`. -/
def envOrDefault (cfg : Config) (name fallback : String) : String :=
  if cfg.getenv name = "" then fallback else cfg.getenv name

/-- `envInt`. -/
def envInt (cfg : Config) (name : String) (fallback : Int) : Int :=
  match atoi (cfg.getenv name) with
  | some n => if n < 0 then fallback else n
  | none => fallback

/-- `mustAtoi`: the number a text starts with, at least one.  `Sscanf` does not scan a number
that is no `int`. -/
def mustAtoi (text : String) : Int :=
  let rest := text.toList.dropWhile fun c => isSpace c && c ≠ '\n'
  let number (cs : List Char) : Int :=
    (cs.takeWhile Char.isDigit).foldl (fun n c => 10 * n + (c.toNat - '0'.toNat : Nat)) 0
  let n := match rest with
    | '-' :: cs => -number cs
    | '+' :: cs => number cs
    | cs => number cs
  if n ≤ 0 ∨ 2 ^ 63 ≤ n then 1 else n

/-- `splitNonEmpty`. -/
def splitNonEmpty (value : String) : List String :=
  ((value.toList.splitOn ',').map fun item => trimSpace (String.ofList item)).filter (· ≠ "")

/-- `appendHFToken`. -/
def appendHFToken (cfg : Config) (env : FinMap String String) : FinMap String String :=
  if cfg.getenv "HF_TOKEN" = "" then env else env.set "HF_TOKEN" (cfg.getenv "HF_TOKEN")

/-! ## Requests -/

/-- The `backend` fields `rlStartRunHandler` looks at first. -/
structure BackendProbe where
  backend : String
  specBackend : Option String

/-- The body of a run that is not a slime run. -/
structure StartBody where
  baseModel : String
  numWorkers : Int
  gpuModel : String
  controlPlaneURL : String
  maxSteps : Int
  minBatchSize : Int
  batchSize : Int
  workerMaxSteps : Int
  closedLoop : Bool

/-- `slimeRunPreset`. -/
structure SlimeRunPreset where
  baseModel : String
  numWorkers : Int
  gpuModel : String
  problemSet : String

/-- A start request: the results of decoding its body, the headers it reads, and the
URL `defaultControlPlaneURL` derives from it. -/
structure StartRequest where
  probe : Option BackendProbe
  body : Option StartBody
  wrapper : Option (Option RLRunSpec)
  preset : Option SlimeRunPreset
  spec : Option RLRunSpec
  tenantHeader : String
  projectHeader : String
  defaultControlPlaneURL : String

/-! ## Runs of the slime backend -/

/-- `slimeSpecFromPreset`. -/
def slimeSpecFromPreset (cfg : Config) (preset : SlimeRunPreset) (request : StartRequest) :
    RLRunSpec :=
  let spec := defaultRunSpec
  let header (value env fallback : String) : String :=
    if value = "" then envOrDefault cfg env fallback else value
  let gpuType (fallback : String) : String :=
    if preset.gpuModel = "" then fallback else preset.gpuModel
  let trainer := spec.topology.trainer
  let rollout := spec.topology.rollout
  let many := preset.numWorkers > 1
  let workers := if many then preset.numWorkers else 1
  let slime := envOrDefault cfg "SKYSCALE_SLIME_IMAGE" spec.image.slime
  { spec with
    metadata :=
      { spec.metadata with
        tenantID := header request.tenantHeader "SKYSCALE_DEFAULT_TENANT" "default"
        projectID := header request.projectHeader "SKYSCALE_DEFAULT_PROJECT" "default" }
    model :=
      { spec.model with
        source := preset.baseModel
        revision := envOrDefault cfg "SKYSCALE_MODEL_REVISION" "main"
        volumeClaim := envOrDefault cfg "SKYSCALE_MODEL_PVC" "qwen3-0-6b-models"
        mountPath := envOrDefault cfg "SKYSCALE_MODEL_MOUNT_PATH" "/models" }
    data :=
      { spec.data with
        sourceURI := if preset.problemSet = "" then spec.data.sourceURI
          else "skyscale://problems/" ++ preset.problemSet }
    topology :=
      { spec.topology with
        mode := if many then "disaggregated" else "colocated"
        trainer :=
          { trainer with
            resources := { trainer.resources with gpuType := gpuType trainer.resources.gpuType } }
        rollout :=
          { rollout with
            external := many
            replicas := workers, minReplicas := workers, maxReplicas := workers
            resources :=
              { rollout.resources with
                gpuType := gpuType rollout.resources.gpuType
                gpus := if many then 1 else rollout.resources.gpus } } }
    image :=
      { slime
        sglang := envOrDefault cfg "SKYSCALE_SGLANG_IMAGE" slime
        digest := cfg.getenv "SKYSCALE_SLIME_IMAGE_DIGEST" }
    security :=
      { spec.security with
        imageAllowlist :=
          splitNonEmpty (envOrDefault cfg "SKYSCALE_RL_IMAGE_ALLOWLIST" "ghcr.io/skyscale/")
        secretRefs :=
          splitNonEmpty (envOrDefault cfg "SKYSCALE_RUNTIME_SECRET" "skyscale-runtime") } }

/-- The specification a slime start request asks for. -/
def requestedSpec (cfg : Config) (request : StartRequest) : Option RLRunSpec :=
  match request.wrapper with
  | none => none
  | some (some spec) => some spec
  | some none =>
    match request.preset with
    | some preset =>
      if preset.baseModel = "" then request.spec
      else some (slimeSpecFromPreset cfg preset request)
    | none => request.spec

/-- The row of a new slime run. -/
def newSlimeRun (cfg : Config) (snapshot : RunSnapshot) (spec : RLRunSpec) : RLRun :=
  { (default : RLRun) with
    id := spec.metadata.runID
    apiVersion := spec.apiVersion
    tenantID := spec.metadata.tenantID
    projectID := spec.metadata.projectID
    backend := .slime
    status := .starting
    desiredState := .running
    observedState := "pending"
    namespace_ := "skyscale-" ++ spec.metadata.tenantID ++ "-" ++ spec.metadata.projectID
    snapshotJSON := cfg.encodeSnapshot snapshot
    snapshotSHA256 := snapshot.sha256
    baseModel := spec.model.source
    gpuModel := spec.topology.trainer.resources.gpuType
    numWorkers := spec.topology.rollout.replicas }

/-- `rlStartSlimeRunHandler`; the audit record it writes is not modelled. -/
def rlStartSlimeRun (cfg : Config) (request : StartRequest) : Handler := do
  if cfg.reconciler = false then
    respondError
      "slime backend requires SKYSCALE_RL_KUBERNETES=1 and Kubernetes credentials" 503
  else
    match requestedSpec cfg request with
    | none => respondError "invalid run contract" 400
    | some requested => do
      let runID : String ← call (.newRunID 12)
      let now : Int ← call .now
      let normalized := requested.normalize now
      let spec :=
        { normalized with
          backend := "slime"
          metadata := { normalized.metadata with runID := runID }
          createdAt := now }
      match snapshot cfg.codec now spec with
      | .error text => respondError ("invalid run contract: " ++ text) 400
      | .ok accepted => do
        let active ← countActiveTenantRLRuns spec.metadata.tenantID
        match active with
        | .error _ => respondError "failed to evaluate quota" 500
        | .ok activeRuns =>
          let quota : TenantQuota :=
            { maxConcurrentRuns := envInt cfg "SKYSCALE_RL_TENANT_MAX_RUNS" 2
              maxGPUs := envInt cfg "SKYSCALE_RL_TENANT_MAX_GPUS" 8 }
          match validateQuota activeRuns 0 spec.topology quota with
          | .error text => respondError text 429
          | .ok () => do
            let run := newSlimeRun cfg accepted spec
            let saved ← saveRLRun run
            match saved with
            | .error _ => respondError "failed to persist immutable run" 500
            | .ok () => respond 202 (.accepted run)

/-! ## Runs of the built-in backend -/

/-- The body with its defaults. -/
def StartBody.withDefaults (cfg : Config) (request : StartRequest) (body : StartBody) :
    StartBody :=
  { body with
    baseModel := if body.baseModel = "" then "Qwen/Qwen3-0.6B" else body.baseModel
    numWorkers := if body.numWorkers ≤ 0 then 2 else body.numWorkers
    gpuModel := if body.gpuModel = "" then "a10g" else body.gpuModel
    controlPlaneURL :=
      if body.controlPlaneURL = "" then request.defaultControlPlaneURL else body.controlPlaneURL
    closedLoop := body.closedLoop || cfg.getenv "RL_CLOSED_LOOP" = "1" }

/-- A number of the body, or the default of the environment. -/
def orEnv (cfg : Config) (n : Int) (name fallback : String) : String :=
  if n > 0 then toString n else envOrDefault cfg name fallback

/-- A queued job and its execution. -/
def queuedJob (id executionID image gpuModel controlPlaneURL : String)
    (env : FinMap String String) (priority now : Int) : JobQueueItem :=
  { (default : JobQueueItem) with
    id, executionID, dockerImage := image, gpuModel, envVars := env, controlPlaneURL, priority
    status := .queued, createdAt := now }

def queuedExecution (id runID jobType hardwareType gpuModel : String) : Execution :=
  { (default : Execution) with
    id, functionID := runID, status := "queued", jobType, hardwareType, gpuModel }

/-- Save an execution and enqueue its job; the start handler only logs errors. -/
def spawnJob (execution : Execution) (job : JobQueueItem) : Program Unit := do
  let _ ← saveExecution execution
  let _ ← enqueueJob job
  return ()

def policyEnv (cfg : Config) (body : StartBody) (runID execID : String) : FinMap String String :=
  appendHFToken cfg (FinMap.ofList
    [("MODEL_NAME", body.baseModel), ("RUN_ID", runID),
     ("CONTROL_PLANE_URL", body.controlPlaneURL), ("EXECUTION_ID", execID),
     ("SKYSCALE_ROLE", "policy_server"), ("ENTRYPOINT", "python /app/serve.py")])

def trainerEnv (cfg : Config) (body : StartBody) (runID execID policyExecID : String) :
    FinMap String String :=
  let minBatch := orEnv cfg body.minBatchSize "RL_MIN_BATCH_SIZE" "4"
  let env := FinMap.ofList
    [("RUN_ID", runID), ("BASE_MODEL", body.baseModel),
     ("CONTROL_PLANE_URL", body.controlPlaneURL), ("EXECUTION_ID", execID),
     ("POLICY_EXEC_ID", policyExecID),
     ("MAX_STEPS", orEnv cfg body.maxSteps "RL_MAX_STEPS" "3"),
     ("BATCH_SIZE", orEnv cfg body.batchSize "RL_BATCH_SIZE" "4"),
     ("MIN_BATCH_SIZE", minBatch),
     ("CHECKPOINT_EVERY", envOrDefault cfg "RL_CHECKPOINT_EVERY" "3"),
     ("ENTRYPOINT", "python /app/trainer.py")]
  let perWorker := max 1 (Int.tdiv (mustAtoi minBatch + body.numWorkers - 1)
    (max 1 body.numWorkers))
  let env := if body.closedLoop then
      (((env.set "CLOSED_LOOP" "1").set "CHECKPOINT_EVERY" "1").set "NUM_WORKERS"
        (toString body.numWorkers)).set "TRAJECTORIES_PER_WORKER" (toString perWorker)
    else env
  appendHFToken cfg env

def workerEnv (cfg : Config) (body : StartBody) (runID execID policyExecID : String) (i : Nat) :
    FinMap String String :=
  FinMap.ofList
    [("RUN_ID", runID), ("WORKER_INDEX", toString i),
     ("CONTROL_PLANE_URL", body.controlPlaneURL), ("EXECUTION_ID", execID),
     ("POLICY_EXEC_ID", policyExecID), ("MODEL", body.baseModel),
     ("MAX_STEPS", orEnv cfg body.workerMaxSteps "RL_WORKER_MAX_STEPS" "10"),
     ("DIFFICULTY", "easy"), ("ENTRYPOINT", "python /app/worker.py")]

/-- The row of a new run of the built-in backend. -/
def newRun (body : StartBody) (runID : String) : RLRun :=
  { (default : RLRun) with
    id := runID
    backend := .unset
    status := .starting
    desiredState := .unset
    baseModel := body.baseModel
    numWorkers := body.numWorkers
    gpuModel := body.gpuModel
    closedLoop := body.closedLoop }

/-- `rlStartRunHandler`. -/
def rlStartRun (cfg : Config) (request : StartRequest) : Handler := do
  match request.probe with
  | none => respondError "invalid body" 400
  | some probe =>
    if probe.backend = "slime" ∨ probe.specBackend = some "slime" then
      rlStartSlimeRun cfg request
    else
      match request.body with
      | none => respondError "invalid body" 400
      | some body => do
        let body := body.withDefaults cfg request
        let runID : String ← call (.newRunID 8)
        let now : Int ← call .now
        let run := newRun body runID
        match ← saveRLRun run with
        | .error _ => respondError "failed to save run" 500
        | .ok () => do
          let policyExecID := "exec-policy-" ++ runID
          spawnJob (queuedExecution policyExecID runID "policy_server" "gpu" body.gpuModel)
            (queuedJob ("job-policy-" ++ runID) policyExecID
              "ghcr.io/skyscale/policy-server:latest" body.gpuModel body.controlPlaneURL
              (policyEnv cfg body runID policyExecID) 10 now)
          let trainerExecID := "exec-trainer-" ++ runID
          spawnJob (queuedExecution trainerExecID runID "rl_trainer" "gpu" body.gpuModel)
            (queuedJob ("job-trainer-" ++ runID) trainerExecID
              "ghcr.io/skyscale/rl-trainer:latest" body.gpuModel body.controlPlaneURL
              (trainerEnv cfg body runID trainerExecID policyExecID) 9 now)
          let workers := if body.closedLoop then [] else List.range body.numWorkers.toNat
          let workerExecID (i : Nat) : String :=
            "exec-worker-" ++ runID ++ "-" ++ toString i
          Prog.forEach (fun i =>
            spawnJob (queuedExecution (workerExecID i) runID "rl_rollout_worker" "cpu" "")
              (queuedJob ("job-worker-" ++ runID ++ "-" ++ toString i) (workerExecID i)
                "ghcr.io/skyscale/rl-worker:latest" "cpu" body.controlPlaneURL
                (workerEnv cfg body runID (workerExecID i) policyExecID i) 5 now)) workers
          let _ ← saveRLRun
            { run with
              trainerExecID := trainerExecID
              workerExecIDs := workers.map workerExecID
              status := .running }
          respond 202
            (.started runID trainerExecID policyExecID (workers.map workerExecID))

end RL
end Skyscale
