import Mathlib.Data.List.Sort
import Mathlib.Data.Rat.Defs
import Skyscale.Lib.FinMap

/-!
# The run contract

This module embeds the run specification of `control-plane/contracts/v1.go`: its
records, `Normalize`, `Validate` and `Snapshot`.

A JSON number of the source type `float64` is finite, so it is a rational here, and
times are integers with `0` for the zero time.  `Snapshot` needs two library
functions, the hash of the encoded specification and the CIDR check of the standard
library; both are parameters (`Codec`).
-/

namespace Skyscale
namespace Contracts

open Lib

/-- The constant `APIVersion`. -/
def apiVersion : String := "rl.skyscale.dev/v1alpha1"

/-! ## Records -/

structure ObjectMeta where
  tenantID : String
  projectID : String
  runID : String
  labels : FinMap String String
deriving DecidableEq, Inhabited

structure ModelSpec where
  source : String
  revision : String
  sha256 : String
  megatronFormat : String
  tokenizerRevision : String
  artifactManifestURI : String
  volumeClaim : String
  mountPath : String
deriving DecidableEq, Inhabited

structure DataSpec where
  sourceURI : String
  revision : String
  sha256 : String
  environmentVersion : String
  seed : Int
deriving DecidableEq, Inhabited

structure RewardSpec where
  name : String
  version : String
  endpoint : String
  secretRef : String
  components : FinMap String Rat
  maxEvaluationSec : Int
deriving DecidableEq, Inhabited

structure AlgorithmSpec where
  name : String
  strategy : String
  arguments : FinMap String String
  maxPolicyLagSteps : Int
  maxQueueAgeSeconds : Int
  offPolicyAction : String
deriving DecidableEq, Inhabited

structure ResourceSpec where
  cpu : String
  memory : String
  gpus : Int
  gpuType : String
  selectors : FinMap String String
deriving DecidableEq, Inhabited

structure TrainerTopology where
  nodes : Int
  tp : Int
  pp : Int
  cp : Int
  resources : ResourceSpec
deriving DecidableEq, Inhabited

structure RolloutTopology where
  replicas : Int
  minReplicas : Int
  maxReplicas : Int
  tp : Int
  dp : Int
  memoryFraction : Rat
  external : Bool
  resources : ResourceSpec
deriving DecidableEq, Inhabited

structure TopologySpec where
  mode : String
  trainer : TrainerTopology
  rollout : RolloutTopology
  queue : String
  priorityClass : String
deriving DecidableEq, Inhabited

structure CheckpointPolicy where
  everySteps : Int
  keepLast : Int
  resumeFrom : String
  servingFormat : String
  deltaEnabled : Bool
  minimumAcks : Int
  publishTimeoutSec : Int
deriving DecidableEq, Inhabited

structure EvaluationGate where
  metric : String
  operator : String
  threshold : Rat
deriving DecidableEq, Inhabited

structure EvaluationPolicy where
  everySteps : Int
  suiteURI : String
  suiteHash : String
  gates : List EvaluationGate
  canaryPercent : Int
deriving DecidableEq, Inhabited

structure RetentionPolicy where
  sampleTTLHours : Int
  checkpointTTLHours : Int
  quarantineTTLHours : Int
  highWatermarkGroups : Int
  lowWatermarkGroups : Int
deriving DecidableEq, Inhabited

structure SecuritySpec where
  serviceAccountName : String
  imageAllowlist : List String
  secretRefs : List String
  egressAllowlist : List String
  encryptionKeyRef : String
deriving DecidableEq, Inhabited

structure ImageSpec where
  slime : String
  sglang : String
  digest : String
deriving DecidableEq, Inhabited

structure RLRunSpec where
  apiVersion : String
  kind : String
  metadata : ObjectMeta
  backend : String
  model : ModelSpec
  data : DataSpec
  reward : RewardSpec
  algorithm : AlgorithmSpec
  topology : TopologySpec
  checkpoint : CheckpointPolicy
  evaluation : EvaluationPolicy
  retention : RetentionPolicy
  security : SecuritySpec
  image : ImageSpec
  createdAt : Int
deriving DecidableEq, Inhabited

structure RunSnapshot where
  spec : RLRunSpec
  sha256 : String
  immutable : Bool
deriving DecidableEq, Inhabited

/-- Whether a finished run is evaluated before it counts as completed: the test
`SuiteURI != "" || len(Gates) > 0`. -/
def EvaluationPolicy.required (policy : EvaluationPolicy) : Bool :=
  policy.suiteURI ≠ "" || policy.gates ≠ []

/-- The `float64` constant `0.35`. -/
def defaultMemoryFraction : Rat := 3152519739159347 / 9007199254740992

/-- `DefaultRunSpec`. -/
def defaultRunSpec : RLRunSpec where
  apiVersion := apiVersion
  kind := "RLRun"
  metadata := default
  backend := "slime"
  model :=
    { (default : ModelSpec) with
      source := "Qwen/Qwen3-0.6B", revision := "main", megatronFormat := "torch_dist"
      volumeClaim := "qwen3-0-6b-models", mountPath := "/models" }
  data :=
    { (default : DataSpec) with
      sourceURI := "skyscale://problems/default", revision := "v1"
      environmentVersion := "code-v1", seed := 42 }
  reward :=
    { (default : RewardSpec) with
      name := "sandbox-tests", version := "v1", maxEvaluationSec := 120 }
  algorithm :=
    { (default : AlgorithmSpec) with
      name := "grpo", strategy := "synchronous", maxQueueAgeSeconds := 900
      offPolicyAction := "discard" }
  topology :=
    { (default : TopologySpec) with
      mode := "colocated"
      trainer :=
        { nodes := 1, tp := 1, pp := 1, cp := 1
          resources := { (default : ResourceSpec) with cpu := "6", memory := "24Gi", gpus := 1 } }
      rollout :=
        { replicas := 1, minReplicas := 1, maxReplicas := 1, tp := 1, dp := 1
          memoryFraction := defaultMemoryFraction, external := false
          resources := { (default : ResourceSpec) with gpus := 1 } } }
  checkpoint :=
    { (default : CheckpointPolicy) with
      everySteps := 1, keepLast := 3, servingFormat := "full", minimumAcks := 1
      publishTimeoutSec := 600 }
  evaluation := default
  retention :=
    { sampleTTLHours := 168, checkpointTTLHours := 720, quarantineTTLHours := 168
      highWatermarkGroups := 1000, lowWatermarkGroups := 500 }
  security := { (default : SecuritySpec) with imageAllowlist := ["ghcr.io/skyscale/"] }
  image := { (default : ImageSpec) with slime := "ghcr.io/skyscale/slime-runtime:latest" }
  createdAt := 0

/-! ## Labels -/

/-- Lower-case letters and digits. -/
def isAlnum (c : Char) : Bool :=
  ('a' ≤ c && c ≤ 'z') || ('0' ≤ c && c ≤ '9')

/-- Lower-case letters, digits and the dash. -/
def isLabelChar (c : Char) : Bool := isAlnum c || c = '-'

/-- The expression `^[a-z0-9]([-a-z0-9]*[a-z0-9])?$`. -/
def dnsLabel (value : String) : Bool :=
  value.toList.all isLabelChar && value.toList.head?.any isAlnum &&
    value.toList.getLast?.any isAlnum

/-- `unicode.ToLower`, as far as it can produce an ASCII character: besides ASCII
letters only the Kelvin sign and the dotted capital I fold into ASCII. -/
def lowerRune (c : Char) : Char :=
  if c = '\u212a' then 'k' else if c = '\u0130' then 'i' else c.toLower

/-- `unicode.IsSpace`. -/
def isSpace (c : Char) : Bool :=
  let n := c.toNat
  (9 ≤ n && n ≤ 13) || (0x2000 ≤ n && n ≤ 0x200a) ||
    [0x20, 0x85, 0xa0, 0x1680, 0x2028, 0x2029, 0x202f, 0x205f, 0x3000].contains n

/-- `strings.TrimSpace`. -/
@[irreducible]
def trimSpace (value : String) : String :=
  String.ofList ((value.toList.dropWhile isSpace).reverse.dropWhile isSpace).reverse

theorem trimSpace_empty : trimSpace "" = "" := by
  unfold trimSpace
  rfl

/-- The check of `RLRunSpec.Validate` on `tenant_id` and `project_id`. -/
def validateID (name value : String) : Except String Unit :=
  if value.utf8ByteSize = 0 ∨ value.utf8ByteSize > 63 ∨ dnsLabel value = false then
    .error (name ++ " must be a DNS label")
  else
    .ok ()

/-! ## Normalisation, validation, snapshots -/

/-- The library functions `Snapshot` rests on. -/
structure Codec where
  /-- The hexadecimal SHA-256 of the JSON encoding. -/
  sha256 : RLRunSpec → String
  /-- `net.ParseCIDR` succeeds. -/
  isCIDR : String → Bool

/-- `RLRunSpec.Normalize`; `now` is the clock reading it may take. -/
def RLRunSpec.normalize (now : Int) (s : RLRunSpec) : RLRunSpec :=
  { s with
    apiVersion := if s.apiVersion = "" then Contracts.apiVersion else s.apiVersion
    kind := if s.kind = "" then "RLRun" else s.kind
    backend := if s.backend = "" then "skyscale" else s.backend
    createdAt := if s.createdAt = 0 then now else s.createdAt
    security :=
      { s.security with
        imageAllowlist := s.security.imageAllowlist.insertionSort (· ≤ ·)
        secretRefs := s.security.secretRefs.insertionSort (· ≤ ·)
        egressAllowlist := s.security.egressAllowlist.insertionSort (· ≤ ·) } }

/-- One check: a problem to report, if the condition holds. -/
def problem (condition : Bool) (text : String) : List String :=
  if condition then [text] else []

/-- The problem `validateID` reports. -/
def idProblem (name value : String) : List String :=
  match validateID name value with
  | .ok () => []
  | .error text => [text]

/-- `strings.Contains(value, part)`. -/
def contains (value part : String) : Bool :=
  value.toList.tails.any fun rest => part.toList.isPrefixOf rest

/-- The key of a custom argument may reach a shell. -/
def unsafeArgumentKey (key : String) : Bool :=
  key ≠ "max_retries" &&
    (!"--".toList.isPrefixOf key.toList || key.toList.any (" \t\n;&|`$".toList.contains ·))

/-- The `float64` constant `0.9`. -/
def maxMemoryFraction : Rat := 8106479329266893 / 9007199254740992

/-- The problems `RLRunSpec.Validate` collects.  The source ranges over a map for
the two identifiers, so their problems may come in either order. -/
def RLRunSpec.problems (codec : Codec) (s : RLRunSpec) : List String :=
  let r := s.topology.rollout
  problem (s.apiVersion ≠ Contracts.apiVersion) ("api_version must be " ++ Contracts.apiVersion) ++
  problem (s.kind ≠ "RLRun") "kind must be RLRun" ++
  idProblem "tenant_id" s.metadata.tenantID ++
  idProblem "project_id" s.metadata.projectID ++
  problem (s.backend ≠ "slime" && s.backend ≠ "skyscale") "backend must be slime or skyscale" ++
  problem (s.model.source = "" || s.model.revision = "")
    "model source and immutable revision are required" ++
  problem (s.model.volumeClaim ≠ "" && !dnsLabel s.model.volumeClaim)
    "model volume_claim must be a DNS label" ++
  problem (s.model.mountPath ≠ "" && s.model.mountPath.toList.head? ≠ some '/')
    "model mount_path must be absolute" ++
  problem (decide (s.model.volumeClaim = "") ≠ decide (s.model.mountPath = ""))
    "model volume_claim and mount_path must be set together" ++
  problem (!(["grpo", "gspo", "cispo", "reinforce++", "ppo", "sft", "custom"].contains
      (String.ofList (s.algorithm.name.toList.map lowerRune)))) "unsupported algorithm" ++
  problem (!(["synchronous", "overlapped", "asynchronous"].contains s.algorithm.strategy))
    "invalid algorithm strategy" ++
  problem (!(["accept", "reweight", "quarantine", "discard"].contains s.algorithm.offPolicyAction))
    "invalid off-policy action" ++
  problem (s.algorithm.maxPolicyLagSteps < 0 || s.algorithm.maxQueueAgeSeconds < 0)
    "policy lag and queue age bounds must be non-negative" ++
  problem (s.topology.mode ≠ "colocated" && s.topology.mode ≠ "disaggregated")
    "topology mode must be colocated or disaggregated" ++
  problem (s.topology.trainer.nodes < 1 || s.topology.trainer.tp < 1 ||
      s.topology.trainer.pp < 1 || s.topology.trainer.cp < 1)
    "trainer nodes and parallelism must be positive" ++
  problem (s.topology.trainer.resources.gpus < 1) "trainer requires at least one whole GPU" ++
  problem (r.replicas < 1 || r.minReplicas < 0 || r.maxReplicas < r.minReplicas ||
      r.replicas < r.minReplicas || r.replicas > r.maxReplicas)
    "invalid rollout replica bounds" ++
  problem (r.memoryFraction ≤ 0 || maxMemoryFraction ≤ r.memoryFraction)
    "rollout memory_fraction must be > 0 and < 0.9" ++
  problem (s.topology.mode = "colocated" && r.external) "colocated rollout cannot be external" ++
  problem (s.algorithm.strategy = "asynchronous" && s.topology.mode ≠ "disaggregated")
    "asynchronous strategy requires disaggregated topology" ++
  problem (s.retention.lowWatermarkGroups < 0 ||
      s.retention.highWatermarkGroups ≤ s.retention.lowWatermarkGroups)
    "high watermark must exceed low watermark" ++
  problem (s.image.slime = "" || (!contains s.image.slime "@sha256:" && s.image.digest = ""))
    "slime image and digest are required" ++
  problem (s.backend = "slime" && s.security.imageAllowlist = [])
    "slime backend requires a non-empty image allowlist" ++
  [s.image.slime, s.image.sglang].flatMap (fun candidate =>
    problem (candidate ≠ "" && !s.security.imageAllowlist.any
      (fun allowed => allowed.toList.isPrefixOf candidate.toList))
      "runtime image is outside the image allowlist") ++
  problem (s.algorithm.arguments.keys.any unsafeArgumentKey) "unsafe custom argument key" ++
  problem (s.security.egressAllowlist.any (!codec.isCIDR ·))
    "egress allowlist entries must be CIDRs"

/-- `RLRunSpec.Validate`. -/
def RLRunSpec.validate (codec : Codec) (s : RLRunSpec) : Except String Unit :=
  match s.problems codec with
  | [] => .ok ()
  | problems => .error ("; ".intercalate problems)

/-- `Snapshot`. -/
def snapshot (codec : Codec) (now : Int) (s : RLRunSpec) : Except String RunSnapshot :=
  let spec := s.normalize now
  match spec.validate codec with
  | .error text => .error text
  | .ok () => .ok { spec, sha256 := codec.sha256 spec, immutable := true }

end Contracts
end Skyscale
