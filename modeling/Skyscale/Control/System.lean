import Skyscale.RL.Handlers
import Skyscale.Scheduler.Dispatcher

/-!
# The control plane as a pool of programs

Requests to the run service, passes of the reconciler and rounds of the queue
workers all run at the same time on one database.  `Step` interleaves them at single
operations.
-/

namespace Skyscale
namespace Control

open Lib State RL

/-- What a program of the control plane is started for. -/
inductive Request
  | startRun (request : StartRequest)
  | setPolicyServer (id url : String)
  | stopRun (id : String)
  | suspendRun (id : String)
  | resumeRun (id : String)
  | collect (id url : String) (body : Option CollectBody)
  | policyRedeploy (id checkpointURL url : String)
  | claimSamples (body : Option ClaimBody)
  | queryBackpressure (runID : String)
  | rolloutMetrics (id : String) (body : Option MetricsBody)
  | publishWeights (body : Option PublishBody)
  | acknowledgeWeights (version : String) (body : Option AcknowledgeBody)
  | rollbackWeights (body : Option RollbackBody)
  | evaluateWeights (id version : String) (body : Option EvaluateBody)
  | commitCheckpoint (id : String) (body : Option CheckpointBody)
  | trainerProgress (id : String) (body : Option ProgressBody)
  | reconcilePass
  | queueRound

/-- The program of a request handler, with its response as result. -/
def serving (handler : Handler) : Program (Option Response) := do
  let response ← handler
  return some response

/-- A program without response. -/
def background (p : Program Unit) : Program (Option Response) := do
  p
  return none

/-- The program a request starts. -/
def program (cfg : Config) : Request → Program (Option Response)
  | .startRun request => serving (rlStartRun cfg request)
  | .setPolicyServer id url => serving (rlSetPolicyServer id url)
  | .stopRun id => serving (rlStopRun id)
  | .suspendRun id => serving (rlSuspendRun id)
  | .resumeRun id => serving (rlResumeRun id)
  | .collect id url body => serving (rlCollect id url body)
  | .policyRedeploy id checkpointURL url => serving (rlPolicyRedeploy cfg id checkpointURL url)
  | .claimSamples body => serving (rlGroupedSampleClaim cfg body)
  | .queryBackpressure runID => serving (rlGroupedSampleBackpressure cfg runID)
  | .rolloutMetrics id body => serving (rlRolloutMetrics id body)
  | .publishWeights body => serving (rlPublishWeights cfg body)
  | .acknowledgeWeights version body => serving (rlAcknowledgeWeights cfg version body)
  | .rollbackWeights body => serving (rlRollbackWeights cfg body)
  | .evaluateWeights id version body => serving (rlEvaluateWeights cfg id version body)
  | .commitCheckpoint id body => serving (rlCommitCheckpoint cfg id body)
  | .trainerProgress id body => serving (rlTrainerProgress id body)
  | .reconcilePass => background (reconcileAll cfg)
  | .queueRound => background Scheduler.processOne

/-- The state of the control plane: the database and the running programs. -/
abbrev Plane : Type := Pool World Request Op Ans (Option Response)

/-- The events of the control plane. -/
abbrev Event : Type := PoolEvent Request Op Ans

/-- The interleaving semantics of the control plane. -/
def Step (cfg : Config) : Plane → Event → Plane → Prop := Pool.Step (program cfg) exec

def environment (oracle : (op : Op) → Ans op) (w : World) :
    (op : Op) → Option (Ans op × World)
  | .sql q => some (w.eval q)
  | .newRunID digits =>
    if w.row .runs (oracle (.newRunID digits)) = none ∧
        generatedRunID digits (oracle (.newRunID digits)) = true then
      some (oracle (.newRunID digits), w)
    else none
  | op => some (oracle op, w)

theorem exec_environment {oracle : (op : Op) → Ans op} {w w' : World} {op : Op} {ans : Ans op}
    (h : environment oracle w op = some (ans, w')) : exec w op ans w' := by
  cases op with
  | sql q =>
    have heval : w.eval q = (ans, w') := Option.some.inj h
    have hexec := w.exec_eval q
    rw [heval] at hexec
    exact hexec
  | newRunID digits =>
    simp only [environment] at h
    split at h
    · cases h
      rename_i hfresh
      exact ⟨rfl, hfresh⟩
    · cases h
  | _ =>
    cases h
    rfl

def agreeable : (op : Op) → Ans op
  | .sql (.first _ _ _) => .error .notFound
  | .sql (.find _ _ _ _) => .ok []
  | .sql (.count _ _) => .ok 0
  | .sql (.save _ _) => .ok ()
  | .sql (.insert _ _ _) => .ok ()
  | .sql (.update _ _ _ _) => .ok ()
  | .sql (.delete _ _) => .ok ()
  | .apply object => .ok object
  | .getObject _ _ _ => .error (.notFound "not found")
  | .listObjects _ _ _ => .ok []
  | .deleteObject _ _ _ => .ok ()
  | .markGood _ _ => .ok ()
  | .rollback _ _ => .ok "v0"
  | .publish _ _ _ => .ok ()
  | .materialize _ _ => .ok ("uri", "sum")
  | .acknowledge _ _ _ _ => .ok true
  | .claimGroup _ _ _ _ _ => .error .noCompleteGroup
  | .ackLease _ _ => .ok ()
  | .nackLease _ _ _ => .ok ()
  | .backpressure _ _ => .ok (false, 0)
  | .acquireFairClaimTurn _ _ _ => .ok true
  | .terminate _ => .ok ()
  | .dispatch _ => .ok ⟨"d", "p", "a"⟩
  | .newRunID digits => "rl-" ++ String.ofList (List.replicate digits '0')
  | .now => (0 : Int)

def jobsAre (status : String) : (op : Op) → Ans op
  | .getObject _ _ _ => Except.ok { (default : K8s.Object) with jobStatus := status }
  | op => agreeable op

def runIs (id : String) : (op : Op) → Ans op
  | .newRunID _ => id
  | op => agreeable op

theorem environment_sound (oracle : (op : Op) → Ans op) :
    ∀ w op ans w', environment oracle w op = some (ans, w') → exec w op ans w' :=
  fun _ _ _ _ h => exec_environment h

theorem step_of_advance {cfg : Config} {oracle : (op : Op) → Ans op} {s s' : Plane}
    {choice : Pool.Choice Request} {event : Event}
    (h : Pool.advance (program cfg) (environment oracle) s choice = some (event, s')) :
    Step cfg s event s' :=
  Pool.step_of_advance (environment_sound oracle) h

def schedule (cfg : Config) (oracle : (op : Op) → Ans op) (s : Plane)
    (choices : List (Pool.Choice Request)) : List Event × Plane :=
  play (Pool.advance (program cfg) (environment oracle)) s choices

theorem run_schedule (cfg : Config) (oracle : (op : Op) → Ans op) (s : Plane)
    (choices : List (Pool.Choice Request)) :
    Run (Step cfg) s (schedule cfg oracle s choices).1 (schedule cfg oracle s choices).2 := by
  have hadvance : ∀ s choice event s',
      Pool.advance (program cfg) (environment oracle) s choice = some (event, s') →
        Step cfg s event s' := fun _ _ _ _ h => step_of_advance h
  exact run_play hadvance s choices

end Control
end Skyscale
