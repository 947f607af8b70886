import Mathlib.Algebra.Group.Nat.Defs
import Mathlib.Algebra.Order.Ring.Unbundled.Rat
import Mathlib.Algebra.Ring.Int.Defs
import Skyscale.Contracts.RunSpec

/-!
# Policies of the run service

The pure functions of `control-plane/rlservice/policy.go` and `autoscale.go`:
admission of samples, evaluation gates, tenant quotas and the size of the rollout
fleet.  Times and durations are in nanoseconds.
-/

namespace Skyscale
namespace RL

open Lib Contracts

/-- The action taken on a sample. -/
inductive SampleAction
  | accept | reweight | quarantine | discard
deriving DecidableEq, Inhabited

structure SampleDecision where
  action : SampleAction
  policyLag : Int
  age : Int
  weight : Rat
  reason : String
deriving DecidableEq, Inhabited

/-- The `float64` constant `0.1`. -/
def minWeight : Rat := 3602879701896397 / 36028797018963968

/-- The value of an `int` after an operation with this result: 64 bits, in two's
complement. -/
def wrap (n : Int) : Int := n.bmod (2 ^ 64)

/-- `EvaluateSample`.  The weight of a reweighted sample is the importance ratio,
truncated to [0.1, 2.0]; an unknown action discards.  `Time.Sub` saturates. -/
def evaluateSample (policy : AlgorithmSpec) (trainerStep behaviorStep generatedAt now : Int)
    (importanceRatio : Rat) : SampleDecision :=
  let lag := max (wrap (trainerStep - behaviorStep)) 0
  let age := max (-2 ^ 63) (min (2 ^ 63 - 1) (now - generatedAt))
  let stale : Bool := lag > policy.maxPolicyLagSteps ||
    (policy.maxQueueAgeSeconds > 0 && age > wrap (policy.maxQueueAgeSeconds * 1000000000))
  if !stale then
    { action := .accept, policyLag := lag, age, weight := 1, reason := "" }
  else
    let decision : SampleDecision :=
      { action := .discard, policyLag := lag, age, weight := 0
        reason := "bounded staleness exceeded" }
    if policy.offPolicyAction = "accept" then
      { decision with action := .accept, weight := 1 }
    else if policy.offPolicyAction = "reweight" then
      { decision with action := .reweight, weight := max minWeight (min 2 importanceRatio) }
    else if policy.offPolicyAction = "quarantine" then
      { decision with action := .quarantine }
    else
      decision

/-- One gate of `EvaluateGates`; an unknown operator never passes. -/
def gatePasses (gate : EvaluationGate) (value : Rat) : Bool :=
  if gate.operator = ">=" then gate.threshold ≤ value
  else if gate.operator = ">" then gate.threshold < value
  else if gate.operator = "<=" then value ≤ gate.threshold
  else if gate.operator = "<" then value < gate.threshold
  else false

/-- `EvaluateGates`. -/
def evaluateGates (metrics : FinMap String Rat) : List EvaluationGate → Except String Unit
  | [] => .ok ()
  | gate :: gates =>
    match metrics.get gate.metric with
    | none => .error ("required evaluation metric missing: " ++ gate.metric)
    | some value =>
      if gatePasses gate value then evaluateGates metrics gates
      else .error ("evaluation gate failed: " ++ gate.metric)

structure TenantQuota where
  maxConcurrentRuns : Int
  maxGPUs : Int

/-- `ValidateQuota`. -/
def validateQuota (activeRuns activeGPUs : Int) (requested : TopologySpec) (quota : TenantQuota) :
    Except String Unit :=
  if quota.maxConcurrentRuns > 0 ∧ activeRuns ≥ quota.maxConcurrentRuns then
    .error "tenant concurrent run quota exceeded"
  else
    let trainerGPUs := wrap (requested.trainer.nodes * requested.trainer.resources.gpus)
    let requestedGPUs :=
      if requested.mode = "disaggregated" then
        wrap (trainerGPUs + wrap (requested.rollout.replicas * requested.rollout.resources.gpus))
      else trainerGPUs
    if quota.maxGPUs > 0 ∧ wrap (activeGPUs + requestedGPUs) > quota.maxGPUs then
      .error "tenant GPU quota exceeded"
    else
      .ok ()

structure RolloutMetrics where
  queueDepth : Int
  generationP95Sec : Rat
  tokensPerSecond : Rat
  trainerDemand : Int
  backpressured : Bool

/-- `DesiredRolloutReplicas`, with an exact quotient where the code divides `float64` values. -/
def desiredRolloutReplicas (topology : RolloutTopology) (current : Int)
    (metrics : RolloutMetrics) : Int :=
  if metrics.backpressured then
    topology.minReplicas
  else
    let capacity := max metrics.tokensPerSecond 1
    let queueTarget := Rat.ceil (metrics.queueDepth / capacity)
    let desired := if queueTarget > current then queueTarget else current
    let desired := if metrics.trainerDemand > desired then metrics.trainerDemand else desired
    let desired := if metrics.generationP95Sec > 30 ∧ desired = current then desired + 1
      else desired
    let desired := if desired < topology.minReplicas then topology.minReplicas else desired
    if desired > topology.maxReplicas then topology.maxReplicas else desired

/-! ## Texts -/

/-- `strconv.Atoi`. -/
def atoi (text : String) : Option Int :=
  let digits (cs : List Char) : Option Int :=
    if cs ≠ [] ∧ cs.all Char.isDigit then
      some (cs.foldl (fun n c => 10 * n + (c.toNat - '0'.toNat : Nat)) 0)
    else none
  let value := match text.toList with
    | '-' :: cs => (digits cs).map (- ·)
    | '+' :: cs => digits cs
    | cs => digits cs
  value.filter fun n => -2 ^ 63 ≤ n ∧ n < 2 ^ 63

/-- The format `%03d` of a positive number. -/
def pad3 (n : Int) : String :=
  let text := toString n
  String.ofList (List.replicate (3 - text.length) '0') ++ text

end RL
end Skyscale
