import Skyscale.K8s.Namespace
import Skyscale.State.Schema

/-!
# Kubernetes objects

The objects of `control-plane/k8s/render.go`, with the fields the reconciler reads
or changes: identity, labels, annotations, finalizers, `spec.suspend`,
`spec.replicas` and the status of a Ray job.  What else a renderer writes is
determined by its arguments, which `Content` records.
-/

namespace Skyscale
namespace K8s

open Lib Contracts State

/-- The constant `Finalizer`. -/
def finalizer : String := "rl.skyscale.dev/finalizer"

/-- The rest of a rendered object, as the arguments it was rendered from.  `foreign`
is an object that was not rendered here. -/
inductive Content
  | rayJob (spec : RLRunSpec) (attemptID : String)
  | evaluatorRayJob (spec : RLRunSpec) (evaluationID policyVersion phase : String)
  | rolloutDeployment (spec : RLRunSpec) (policyVersion : String) (draining canary : Bool)
  | rolloutService (spec : RLRunSpec) (canary : Bool)
  | tenantNamespace (spec : RLRunSpec)
  | tenantQuota (spec : RLRunSpec) (maxGPUs : Int)
  | tenantServiceAccount (spec : RLRunSpec)
  | tenantLimitRange (spec : RLRunSpec)
  | tenantNetworkPolicy (spec : RLRunSpec)
  | foreign
deriving Inhabited

/-- An object, rendered or as the cluster stores it.  Fields the cluster assigns are
empty in a rendered object; an absent status text is empty. -/
structure Object where
  apiVersion : String
  kind : Kind
  namespace_ : String
  name : String
  uid : String
  generation : Int
  resourceVersion : String
  labels : FinMap String String
  annotations : FinMap String String
  finalizers : List String
  suspend : Option Bool
  replicas : Option Int
  content : Content
  jobStatus : String
  jobDeploymentStatus : String
  deploymentStatus : String
  message : String
deriving Inhabited

/-- `object.GetLabels()[key]`. -/
def Object.label (object : Object) (key : String) : String := object.labels.getD key ""

/-- An object nothing but its identity is known of. -/
def bare (apiVersion : String) (kind : Kind) (namespace_ name : String)
    (labels : FinMap String String) (content : Content) : Object where
  apiVersion
  kind
  namespace_
  name
  uid := ""
  generation := 0
  resourceVersion := ""
  labels
  annotations := ∅
  finalizers := []
  suspend := none
  replicas := none
  content
  jobStatus := ""
  jobDeploymentStatus := ""
  deploymentStatus := ""
  message := ""

/-- The namespace of a run. -/
def specNamespace (spec : RLRunSpec) : String :=
  namespaceFor spec.metadata.tenantID spec.metadata.projectID

/-- `labels`. -/
def runLabels (spec : RLRunSpec) : FinMap String String :=
  FinMap.ofList
    [("app.kubernetes.io/managed-by", "skyscale"),
     ("app.kubernetes.io/part-of", "skyscale-rl"),
     ("rl.skyscale.dev/tenant", spec.metadata.tenantID),
     ("rl.skyscale.dev/project", spec.metadata.projectID),
     ("rl.skyscale.dev/run", spec.metadata.runID)]

/-- The labels of `sharedMetadata`. -/
def sharedLabels (spec : RLRunSpec) : FinMap String String :=
  FinMap.ofList
    [("app.kubernetes.io/managed-by", "skyscale"),
     ("rl.skyscale.dev/tenant", spec.metadata.tenantID),
     ("rl.skyscale.dev/project", spec.metadata.projectID)]

/-- An object with `metadata`: the run's labels and the finalizer. -/
def owned (spec : RLRunSpec) (apiVersion : String) (kind : Kind) (name : String)
    (content : Content) : Object :=
  { bare apiVersion kind (specNamespace spec) name (runLabels spec) content with
    finalizers := [finalizer] }

/-- An object with `sharedMetadata`. -/
def shared (spec : RLRunSpec) (apiVersion : String) (kind : Kind) (name : String)
    (content : Content) : Object :=
  bare apiVersion kind (specNamespace spec) name (sharedLabels spec) content

/-! ## Renderers -/

/-- `RenderRayJob`. -/
def renderRayJob (spec : RLRunSpec) (attemptID : String) : Object :=
  { owned spec "ray.io/v1" .rayJob (spec.metadata.runID ++ "-" ++ attemptID)
      (.rayJob spec attemptID) with
    labels := (runLabels spec).set "rl.skyscale.dev/attempt" attemptID
    suspend := some false }

/-- `RenderEvaluatorRayJobPhase`. -/
def renderEvaluatorRayJobPhase (spec : RLRunSpec) (evaluationID policyVersion phase : String) :
    Object :=
  let job := renderRayJob spec (evaluationID ++ "-" ++ phase)
  { job with
    name := spec.metadata.runID ++ "-eval-" ++ evaluationID ++ "-" ++ phase
    labels := job.labels.set "rl.skyscale.dev/role" "evaluator"
    content := .evaluatorRayJob spec evaluationID policyVersion phase }

/-- `RenderEvaluatorRayJob`. -/
def renderEvaluatorRayJob (spec : RLRunSpec) (evaluationID policyVersion : String) : Object :=
  renderEvaluatorRayJobPhase spec evaluationID policyVersion "evaluation"

/-- `strconv.FormatBool`. -/
def formatBool (b : Bool) : String := if b then "true" else "false"

/-- `RenderRolloutDeploymentState`. -/
def renderRolloutDeploymentState (spec : RLRunSpec) (policyVersion : String) (replicas : Int)
    (draining : Bool) : Object :=
  { owned spec "apps/v1" .deployment (spec.metadata.runID ++ "-rollout")
      (.rolloutDeployment spec policyVersion draining false) with
    annotations := FinMap.ofList
      [("rl.skyscale.dev/draining", formatBool draining),
       ("rl.skyscale.dev/autoscaler", "skyscale-controller")]
    replicas := some replicas }

/-- `RenderCanaryRolloutDeployment`. -/
def renderCanaryRolloutDeployment (spec : RLRunSpec) (policyVersion : String) (replicas : Int)
    (draining : Bool) : Object :=
  let deployment := renderRolloutDeploymentState spec policyVersion replicas draining
  { deployment with
    name := spec.metadata.runID ++ "-rollout-canary"
    labels := deployment.labels.set "rl.skyscale.dev/role" "rollout-canary"
    content := .rolloutDeployment spec policyVersion draining true }

/-- `RenderRolloutService`. -/
def renderRolloutService (spec : RLRunSpec) : Object :=
  owned spec "v1" .service (spec.metadata.runID ++ "-rollout") (.rolloutService spec false)

/-- `RenderCanaryRolloutService`. -/
def renderCanaryRolloutService (spec : RLRunSpec) : Object :=
  { renderRolloutService spec with
    name := spec.metadata.runID ++ "-rollout-canary"
    content := .rolloutService spec true }

/-- `RenderTenantNamespace`: the namespace object itself has none. -/
def renderTenantNamespace (spec : RLRunSpec) : Object :=
  bare "v1" .namespace_ "" (specNamespace spec)
    (FinMap.ofList
      [("rl.skyscale.dev/tenant", spec.metadata.tenantID),
       ("rl.skyscale.dev/project", spec.metadata.projectID),
       ("pod-security.kubernetes.io/enforce", "restricted")])
    (.tenantNamespace spec)

/-- `RenderTenantServiceAccount`. -/
def renderTenantServiceAccount (spec : RLRunSpec) : Object :=
  let name := spec.security.serviceAccountName
  shared spec "v1" .serviceAccount (if name = "" then "skyscale-rl-runner" else name)
    (.tenantServiceAccount spec)

/-- `RenderTenantQuota`. -/
def renderTenantQuota (spec : RLRunSpec) (maxGPUs : Int) : Object :=
  shared spec "v1" .resourceQuota "skyscale-rl-quota" (.tenantQuota spec maxGPUs)

/-- `RenderTenantLimitRange`. -/
def renderTenantLimitRange (spec : RLRunSpec) : Object :=
  shared spec "v1" .limitRange "skyscale-rl-defaults" (.tenantLimitRange spec)

/-- `RenderTenantNetworkPolicy`. -/
def renderTenantNetworkPolicy (spec : RLRunSpec) : Object :=
  shared spec "networking.k8s.io/v1" .networkPolicy "skyscale-rl-isolation"
    (.tenantNetworkPolicy spec)

/-- The text of `GetKind()`. -/
def kindName : Kind → String
  | .rayJob => "RayJob"
  | .deployment => "Deployment"
  | .service => "Service"
  | .configMap => "ConfigMap"
  | .secret => "Secret"
  | .job => "Job"
  | .persistentVolumeClaim => "PersistentVolumeClaim"
  | .namespace_ => "Namespace"
  | .resourceQuota => "ResourceQuota"
  | .limitRange => "LimitRange"
  | .networkPolicy => "NetworkPolicy"
  | .serviceAccount => "ServiceAccount"

end K8s
end Skyscale
