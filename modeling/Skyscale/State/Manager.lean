import Skyscale.Control.Calls

/-!
# The state manager

The functions of `control-plane/state/state.go` that the modelled handlers, passes
and workers use, as programs of single database statements.  A function that selects
and then writes is two statements: nothing keeps other programs from running between
them.
-/

namespace Skyscale
namespace State

open Lib Control

/-- No order is asked for. -/
def unordered {α : Type} : α → Int × Int := fun _ => (0, 0)

/-- Run one statement. -/
def statement (q : Statement schema) : Program q.Reply := call (.sql q)

/-! ## Runs and attempts -/

/-- `SaveRLRun`. -/
def saveRLRun (run : RLRun) : Program (Except Failure Unit) := statement (.save .runs run)

/-- `GetRLRun`. -/
def getRLRun (id : String) : Program (Except Failure RLRun) :=
  statement (.first .runs (fun run : RLRun => run.id = id) unordered)

/-- `ListRLRuns`; the creation times it orders by are not modelled. -/
def listRLRuns : Program (Except Failure (List RLRun)) :=
  statement (.find .runs (fun _ => true) unordered none)

/-- The statuses `CountActiveTenantRLRuns` counts. -/
def RunStatus.active (status : RunStatus) : Bool :=
  status = .starting || status = .running || status = .suspended || status = .cancelling

/-- `CountActiveTenantRLRuns`. -/
def countActiveTenantRLRuns (tenantID : String) : Program (Except Failure Nat) :=
  statement (.count .runs fun run : RLRun => run.tenantID = tenantID && run.status.active)

/-- `SaveRLAttempt`. -/
def saveRLAttempt (attempt : RLAttempt) : Program (Except Failure Unit) :=
  statement (.save .attempts attempt)

/-- `GetRLAttempt`. -/
def getRLAttempt (id : String) : Program (Except Failure RLAttempt) :=
  statement (.first .attempts (fun attempt : RLAttempt => attempt.id = id) unordered)

/-- `ListRLAttempts`. -/
def listRLAttempts (runID : String) : Program (Except Failure (List RLAttempt)) :=
  statement (.find .attempts (fun attempt : RLAttempt => attempt.runID = runID)
    (fun attempt : RLAttempt => (attempt.number, 0)) none)

/-! ## Tracked resources -/

/-- The columns `SaveBackendResource` overwrites on a conflict. -/
def BackendResource.overwrite (new old : BackendResource) : BackendResource :=
  { new with
    id := old.id, runID := old.runID, kind := old.kind, namespace_ := old.namespace_
    name := old.name }

/-- `SaveBackendResource`: a row without number is numbered on insertion. -/
def saveBackendResource (resource : BackendResource) : Program (Except Failure Unit) :=
  statement (.insert .resources
    (fun n => { resource with id := if resource.id = 0 then n else resource.id })
    (some ⟨resource.overwrite, fun _ => rfl⟩))

/-- `ListBackendResources`; the order by kind and name is not modelled. -/
def listBackendResources (runID : String) : Program (Except Failure (List BackendResource)) :=
  statement (.find .resources (fun resource : BackendResource => resource.runID = runID)
    unordered none)

/-- `DeleteBackendResource`. -/
def deleteBackendResource (id : Nat) : Program (Except Failure Unit) :=
  statement (.delete .resources fun resource : BackendResource => resource.id = id)

/-! ## Policy versions, checkpoints, evaluations -/

/-- The columns `SavePolicyVersion` overwrites on a conflict. -/
def PolicyVersionRecord.overwrite (new old : PolicyVersionRecord) : PolicyVersionRecord :=
  { new with id := old.id, runID := old.runID }

/-- `SavePolicyVersion`. -/
def savePolicyVersion (version : PolicyVersionRecord) : Program (Except Failure Unit) :=
  statement (.insert .policyVersions (fun _ => version)
    (some ⟨version.overwrite, fun _ => rfl⟩))

/-- `GetPolicyVersion`. -/
def getPolicyVersion (runID id : String) : Program (Except Failure PolicyVersionRecord) :=
  statement (.first .policyVersions
    (fun version : PolicyVersionRecord => version.runID = runID && version.id = id) unordered)

/-- `SaveRLCheckpoint`.  It returns the identifier of the stored checkpoint: a
repeated commit with the same content is given the identifier of the first. -/
def saveRLCheckpoint (checkpoint : RLCheckpointRecord) : Program (Except Failure String) := do
  let existing : Except Failure RLCheckpointRecord ← statement (.first .checkpoints
    (fun row : RLCheckpointRecord => row.runID = checkpoint.runID &&
      row.optimizerStep = checkpoint.optimizerStep) unordered)
  match existing with
  | .ok existing =>
    if existing.manifestSHA256 = checkpoint.manifestSHA256 ∧
        existing.resumeURI = checkpoint.resumeURI then
      return .ok existing.id
    else
      return .error (.other
        "checkpoint optimizer step is already committed with different content")
  | .error (.other text) => return .error (.other text)
  | .error .notFound =>
    let created : Except Failure Unit ←
      statement (.insert .checkpoints (fun _ => checkpoint) none)
    return created.map fun _ => checkpoint.id

/-- `GetRLCheckpoint`. -/
def getRLCheckpoint (id : String) : Program (Except Failure RLCheckpointRecord) :=
  statement (.first .checkpoints (fun row : RLCheckpointRecord => row.id = id) unordered)

/-- `LatestRLCheckpoint`. -/
def latestRLCheckpoint (runID : String) : Program (Except Failure RLCheckpointRecord) :=
  statement (.first .checkpoints
    (fun row : RLCheckpointRecord => row.runID = runID && row.status = "committed")
    (fun row : RLCheckpointRecord => (-row.optimizerStep, 0)))

/-- `SaveRLEvaluation`. -/
def saveRLEvaluation (evaluation : RLEvaluationRecord) : Program (Except Failure Unit) :=
  statement (.save .evaluations evaluation)

/-- `GetRLEvaluation`. -/
def getRLEvaluation (runID policyVersion : String) :
    Program (Except Failure RLEvaluationRecord) :=
  statement (.first .evaluations
    (fun row : RLEvaluationRecord => row.runID = runID && row.policyVersion = policyVersion)
    unordered)

/-! ## Executions, jobs, machines, trajectories -/

/-- `SaveExecution`. -/
def saveExecution (execution : Execution) : Program (Except Failure Unit) :=
  statement (.save .executions execution)

/-- `GetExecution`. -/
def getExecution (id : String) : Program (Except Failure Execution) :=
  statement (.first .executions (fun execution : Execution => execution.id = id) unordered)

/-- `EnqueueJob`. -/
def enqueueJob (item : JobQueueItem) : Program (Except Failure Unit) :=
  statement (.insert .jobs (fun _ => item) none)

/-- `ClaimNextJob`. -/
def claimNextJob : Program (Except Failure JobQueueItem) := do
  let selected : Except Failure JobQueueItem ← statement (.first .jobs
    (fun item : JobQueueItem => item.status = .queued)
    (fun item : JobQueueItem => (-item.priority, item.createdAt)))
  match selected with
  | .error e => return .error e
  | .ok item =>
    let item := { item with status := .dispatching }
    let saved : Except Failure Unit ← statement (.save .jobs item)
    return saved.map fun _ => item

/-- The columns `UpdateJobStatus` sets. -/
def JobQueueItem.withStatus (status : JobStatus) (error : String) (item : JobQueueItem) :
    JobQueueItem :=
  { item with status, error := if error = "" then item.error else error }

/-- `UpdateJobStatus`. -/
def updateJobStatus (id : String) (status : JobStatus) (error : String) :
    Program (Except Failure Unit) :=
  statement (.update .jobs (fun item : JobQueueItem => item.id = id)
    (JobQueueItem.withStatus status error) fun _ => rfl)

/-- `SaveVM`. -/
def saveVM (vm : VM) : Program (Except Failure Unit) := statement (.save .vms vm)

/-- `ClaimStandbyVM`. -/
def claimStandbyVM (gpuModel : String) : Program (Except Failure StandbyVM) := do
  let now : Int ← call .now
  let selected : Except Failure StandbyVM ← statement (.first .standbyVMs
    (fun vm : StandbyVM => vm.gpuModel = gpuModel && vm.status = .standby && now < vm.expiresAt)
    (fun vm : StandbyVM => (vm.createdAt, 0)))
  match selected with
  | .error e => return .error e
  | .ok vm =>
    let vm := { vm with status := .claimed }
    let saved : Except Failure Unit ← statement (.save .standbyVMs vm)
    return saved.map fun _ => vm

end State
end Skyscale
