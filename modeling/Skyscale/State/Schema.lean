import Mathlib.Data.Rat.Defs
import Skyscale.Lib.Database

/-!
# The rows of the control plane

The records of `control-plane/state/state.go` and `state/job_queue.go` that the
modelled handlers, passes and workers read or write, as a `Lib.Schema`.

A text field whose values are fixed by the code is an inductive type, with `unset`
for the empty text.  Statuses that a request can set to any text (executions,
virtual machines) stay texts.  Times are kept where a statement orders or filters by
them.  A JSON column holds the value it encodes, except the run snapshot, whose text
is what the integrity check is about.
-/

namespace Skyscale
namespace State

open Lib

/-! ## Reinforcement-learning runs -/

/-- `RLRun.Backend`. -/
inductive Backend
  | unset | slime
deriving DecidableEq, Inhabited

/-- `RLRun.Status`. -/
inductive RunStatus
  | starting | running | stopped | completed | failed | cancelling | cancelled | suspended
  | evaluating | canary
deriving DecidableEq, Inhabited

/-- `RLRun.DesiredState`. -/
inductive DesiredState
  | unset | running | suspended | cancelled
deriving DecidableEq, Inhabited

structure RLRun where
  id : String
  apiVersion : String
  tenantID : String
  projectID : String
  backend : Backend
  status : RunStatus
  desiredState : DesiredState
  observedState : String
  failureReason : String
  namespace_ : String
  currentAttemptID : String
  policyVersion : String
  lastGoodPolicyVersion : String
  checkpointID : String
  snapshotJSON : String
  snapshotSHA256 : String
  baseModel : String
  numWorkers : Int
  gpuModel : String
  policyServerURL : String
  trainerExecID : String
  workerExecIDs : List String
  closedLoop : Bool
  trainingRound : Int
  optimizerStep : Int
  backpressured : Bool
  rolloutDraining : Bool
  rolloutQueueDepth : Int
  rolloutGenerationP95 : Rat
  rolloutTokensPerSecond : Rat
  rolloutTrainerDemand : Int
  rolloutDesiredReplicas : Int
deriving DecidableEq, Inhabited

/-- `RLAttempt.Status`. -/
inductive AttemptStatus
  | starting | running | completed | failed
deriving DecidableEq, Inhabited

structure RLAttempt where
  id : String
  runID : String
  number : Int
  status : AttemptStatus
  rayJobName : String
  namespace_ : String
  resumeCheckpointID : String
  failureReason : String
deriving DecidableEq, Inhabited

/-- The kinds of Kubernetes objects the control plane handles. -/
inductive Kind
  | rayJob | deployment | service | configMap | secret | job | persistentVolumeClaim
  | namespace_ | resourceQuota | limitRange | networkPolicy | serviceAccount
deriving DecidableEq, Inhabited

/-- `BackendResource.DesiredState`. -/
inductive ResourceGoal
  | present | suspended | absent
deriving DecidableEq, Inhabited

/-- `BackendResource.ObservedState`. -/
inductive ResourceView
  | present | discovered | suspended
deriving DecidableEq, Inhabited

structure BackendResource where
  id : Nat
  runID : String
  attemptID : String
  apiVersion : String
  kind : Kind
  namespace_ : String
  name : String
  uid : String
  generation : Int
  resourceVersion : String
  desiredState : ResourceGoal
  observedState : ResourceView
  failureReason : String
  deletionPending : Bool
deriving DecidableEq, Inhabited

structure PolicyVersionRecord where
  id : String
  runID : String
  optimizerStep : Int
  parentVersion : String
  checkpointID : String
  status : String
deriving DecidableEq, Inhabited

structure RLCheckpointRecord where
  id : String
  runID : String
  attemptID : String
  optimizerStep : Int
  resumeURI : String
  servingURI : String
  policyVersion : String
  manifestSHA256 : String
  status : String
deriving DecidableEq, Inhabited

/-- `RLEvaluationRecord.Status`. -/
inductive EvaluationStatus
  | pending | running | awaitingMetrics | passed | failed
deriving DecidableEq, Inhabited

/-- `RLEvaluationRecord.CanaryState`. -/
inductive CanaryState
  | pending | running | passed | failed
deriving DecidableEq, Inhabited

structure RLEvaluationRecord where
  id : String
  runID : String
  policyVersion : String
  checkpointID : String
  rayJobName : String
  status : EvaluationStatus
  metrics : FinMap String Rat
  gatesPassed : Bool
  final : Bool
  canaryState : CanaryState
  failureReason : String
deriving DecidableEq, Inhabited

/-! ## Executions, jobs, machines, trajectories -/

structure Execution where
  id : String
  functionID : String
  status : String
  vmID : String
  error : String
  jobType : String
  hardwareType : String
  gpuModel : String
deriving DecidableEq, Inhabited

/-- `JobQueueItem.Status`. -/
inductive JobStatus
  | queued | dispatching | done | failed
deriving DecidableEq, Inhabited

structure JobQueueItem where
  id : String
  executionID : String
  dockerImage : String
  gpuModel : String
  providerName : String
  envVars : FinMap String String
  controlPlaneURL : String
  priority : Int
  status : JobStatus
  error : String
  createdAt : Int
deriving DecidableEq, Inhabited

structure VM where
  id : String
  status : String
  lastUsed : Int
  hardwareType : String
  gpuModel : String
  akashDeploymentID : String
  providerAddr : String
deriving DecidableEq, Inhabited

/-- `StandbyVM.Status`. -/
inductive StandbyStatus
  | standby | claimed | expired
deriving DecidableEq, Inhabited

structure StandbyVM where
  id : String
  providerName : String
  providerAddr : String
  gpuModel : String
  deploymentID : String
  status : StandbyStatus
  createdAt : Int
  expiresAt : Int
deriving DecidableEq, Inhabited

structure Trajectory where
  id : Nat
  runID : String
  problemID : String
  prompt : String
  code : String
  reward : Rat
  done : Bool
  stepN : Int
  consumed : Bool
  createdAt : Int
deriving DecidableEq, Inhabited

/-! ## The schema -/

/-- The tables. -/
inductive Table
  | runs | attempts | resources | policyVersions | checkpoints | evaluations
  | executions | jobs | vms | standbyVMs | trajectories
deriving DecidableEq

/-- The primary keys, or the unique index an upsert goes by. -/
def Table.Key : Table → Type
  | resources => String × Kind × String × String
  | policyVersions => String × String
  | trajectories => Nat
  | _ => String

def Table.Row : Table → Type
  | runs => RLRun
  | attempts => RLAttempt
  | resources => BackendResource
  | policyVersions => PolicyVersionRecord
  | checkpoints => RLCheckpointRecord
  | evaluations => RLEvaluationRecord
  | executions => Execution
  | jobs => JobQueueItem
  | vms => VM
  | standbyVMs => StandbyVM
  | trajectories => Trajectory

def Table.key : (t : Table) → t.Row → t.Key
  | runs, r => r.id
  | attempts, r => r.id
  | resources, r => (r.runID, r.kind, r.namespace_, r.name)
  | policyVersions, r => (r.id, r.runID)
  | checkpoints, r => r.id
  | evaluations, r => r.id
  | executions, r => r.id
  | jobs, r => r.id
  | vms, r => r.id
  | standbyVMs, r => r.id
  | trajectories, r => r.id

/-- The columns that are numbered on insertion. -/
def Table.serial : (t : Table) → t.Row → Nat
  | resources, r => r.id
  | trajectories, r => r.id
  | _, _ => 0

def Table.keyEq : (t : Table) → DecidableEq t.Key
  | runs => inferInstanceAs (DecidableEq String)
  | attempts => inferInstanceAs (DecidableEq String)
  | resources => inferInstanceAs (DecidableEq (String × Kind × String × String))
  | policyVersions => inferInstanceAs (DecidableEq (String × String))
  | checkpoints => inferInstanceAs (DecidableEq String)
  | evaluations => inferInstanceAs (DecidableEq String)
  | executions => inferInstanceAs (DecidableEq String)
  | jobs => inferInstanceAs (DecidableEq String)
  | vms => inferInstanceAs (DecidableEq String)
  | standbyVMs => inferInstanceAs (DecidableEq String)
  | trajectories => inferInstanceAs (DecidableEq Nat)

/-- The database of the control plane. -/
def schema : Schema where
  Table := Table
  Key := Table.Key
  Row := Table.Row
  key := Table.key
  serial := Table.serial
  tableEq := inferInstance
  keyEq := Table.keyEq

end State
end Skyscale
