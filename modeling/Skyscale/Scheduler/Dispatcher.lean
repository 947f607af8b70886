import Skyscale.State.Manager

/-!
# The job queue worker

`processOne` of `control-plane/scheduler/job_queue.go`: claim a queued job, wait for
the policy server where the job needs it, deploy the job on a warm slot or through
the providers, and record where it runs.  The address of a deployed policy server is
written into the run row.
-/

namespace Skyscale
namespace Scheduler

open Lib State Control

/-- The constant `maxRetries`. -/
def maxRetries : Nat := 3

/-- `dispatchWithRetry`; the waiting times between the attempts are not modelled. -/
def dispatchWithRetry (spec : DeploySpec) (lastErr : String) :
    Nat → Program (Except String DeployResult)
  | 0 => return .error ("all retries exhausted: " ++ lastErr)
  | attempts + 1 => do
    let result : Except String DeployResult ← call (.dispatch spec)
    match result with
    | .ok result => return .ok result
    | .error text => dispatchWithRetry spec text attempts

/-- `markExecFailed`. -/
def markExecFailed (executionID errMsg : String) : Program Unit := do
  match ← getExecution executionID with
  | .error _ => return ()
  | .ok execution => do
    let _ ← saveExecution { execution with status := "error", error := errMsg }
    return ()

/-- The role of a job: from its environment, or the type of its execution. -/
def jobRole (item : JobQueueItem) : Program String := do
  let role := item.envVars.getD "SKYSCALE_ROLE" ""
  if role ≠ "" then
    return role
  else
    match ← getExecution item.executionID with
    | .ok execution => return execution.jobType
    | .error _ => return ""

/-- Whether a job has to wait for the policy server of its run. -/
def mustWait (runID role : String) : Program Bool := do
  if runID ≠ "" ∧ role ≠ "policy_server" then
    match ← getRLRun runID with
    | .ok run => return run.policyServerURL = ""
    | .error _ => return false
  else
    return false

/-- A slot of the warm pool (`BufferPool.Claim`), or a new deployment. -/
def deploy (item : JobQueueItem) : Program (Except String DeployResult) := do
  let spec : DeploySpec :=
    { dockerImage := item.dockerImage, gpuModel := item.gpuModel
      providerName := item.providerName, envVars := item.envVars
      executionID := item.executionID, jobID := item.id
      controlPlaneURL := item.controlPlaneURL }
  if item.providerName = "" then
    match ← claimStandbyVM item.gpuModel with
    | .ok slot =>
      if slot.deploymentID = "" then
        dispatchWithRetry spec "" maxRetries
      else
        return .ok ⟨slot.deploymentID, slot.providerName, slot.providerAddr⟩
    | .error _ => dispatchWithRetry spec "" maxRetries
  else
    dispatchWithRetry spec "" maxRetries

/-- Write the deployment into the execution. -/
def markRunning (item : JobQueueItem) (result : DeployResult) : Program Unit := do
  match ← getExecution item.executionID with
  | .error _ => return ()
  | .ok execution => do
    let _ ← saveExecution { execution with vmID := result.deploymentID, status := "running" }
    return ()

/-- Record where a job runs. -/
def recordDeployment (item : JobQueueItem) (result : DeployResult) : Program Unit := do
  markRunning item result
  let _ ← saveVM
    { (default : VM) with
      id := result.deploymentID, status := "busy", hardwareType := "gpu"
      gpuModel := item.gpuModel, providerAddr := result.providerAddr
      akashDeploymentID := result.deploymentID }
  return ()

/-- Write the address of a policy server into its run. -/
def recordPolicyServer (item : JobQueueItem) (result : DeployResult) : Program Unit := do
  if "http".toList.isPrefixOf result.providerAddr.toList then
    match ← getExecution item.executionID with
    | .error _ => return ()
    | .ok execution =>
      if execution.jobType = "policy_server" then
        match ← getRLRun execution.functionID with
        | .error _ => return ()
        | .ok run => do
          let _ ← saveRLRun { run with policyServerURL := result.providerAddr }
          return ()
      else
        return ()
  else
    return ()

/-- `processOne`. -/
def processOne : Program Unit := do
  match ← claimNextJob with
  | .error _ => return ()
  | .ok item => do
    let runID := item.envVars.getD "RUN_ID" ""
    let role ← jobRole item
    let wait ← mustWait runID role
    if wait then do
      let _ ← updateJobStatus item.id .queued ""
      return ()
    else
      match ← deploy item with
      | .error text => do
        let _ ← updateJobStatus item.id .failed text
        markExecFailed item.executionID text
      | .ok result => do
        recordDeployment item result
        recordPolicyServer item result
        let _ ← updateJobStatus item.id .done ""
        return ()

end Scheduler
end Skyscale
