import Skyscale.K8s.Objects
import Skyscale.Lib.Shell

/-!
# Entrypoints of Ray jobs

The command lines of `control-plane/k8s/render.go`: the arguments of `slimeArgs` and
of the evaluator, and `shellCommand`, which quotes them into the one string that a
shell on the Ray head splits again.

`shellCommand` puts a value between single quotes and leaves them at each single quote
of the value, which it writes between double quotes.  `spells_escapeQuote` is that
scheme for one character; `Lib.Shell` does the rest.
-/

namespace Skyscale
namespace K8s

open Lib Contracts

/-! ## Arguments -/

/-- `modelMountPath`. -/
def modelMountPath (spec : RLRunSpec) : String :=
  if spec.model.mountPath ≠ "" then spec.model.mountPath else "/models"

/-- `runtimeProfile`. -/
def runtimeProfile (spec : RLRunSpec) : String :=
  if spec.algorithm.strategy = "asynchronous" then
    "/opt/skyscale/slime/configs/async_qwen3_0_6b.sh"
  else if spec.topology.mode = "disaggregated" then
    "/opt/skyscale/slime/configs/disaggregated_qwen3_0_6b.sh"
  else
    "/opt/skyscale/slime/configs/one_gpu_qwen3_0_6b.sh"

/-- The arguments `slimeArgs` takes from the algorithm, in the order of their keys. -/
def algorithmArgs (arguments : FinMap String String) : List String :=
  ((arguments.keys.insertionSort (· ≤ ·)).filter (· ≠ "max_retries")).flatMap fun key =>
    [key, arguments.getD key ""]

/-- `slimeArgs`. -/
def slimeArgs (spec : RLRunSpec) : List String :=
  ["env", "MODEL_ROOT=" ++ modelMountPath spec] ++
    (if spec.topology.mode = "disaggregated" then
      ["ROLLOUT_EXTERNAL_ENGINE_ADDRS=" ++ spec.metadata.runID ++ "-rollout." ++
        specNamespace spec ++ ".svc.cluster.local:8000"]
    else []) ++
    ["bash", runtimeProfile spec,
      "--tensor-model-parallel-size", toString spec.topology.trainer.tp,
      "--pipeline-model-parallel-size", toString spec.topology.trainer.pp,
      "--context-parallel-size", toString spec.topology.trainer.cp] ++
    (if spec.checkpoint.resumeFrom ≠ "" then ["--load", spec.checkpoint.resumeFrom] else []) ++
    algorithmArgs spec.algorithm.arguments

/-- The entrypoint of `RenderEvaluatorRayJobPhase`, before it is quoted. -/
def evaluatorArgs (spec : RLRunSpec) (policyVersion phase : String) : List String :=
  let serviceSuffix := if phase = "canary" then "-rollout-canary" else "-rollout"
  ["python", "-m", "skyscale.evaluate",
    "--run-id", spec.metadata.runID,
    "--policy-version", policyVersion,
    "--suite-uri", spec.evaluation.suiteURI,
    "--suite-hash", spec.evaluation.suiteHash,
    "--engine-url", "http://" ++ spec.metadata.runID ++ serviceSuffix ++ "." ++
      specNamespace spec ++ ".svc.cluster.local:8000",
    "--control-plane-url",
    "http://skyscale-control-plane.skyscale-system.svc.cluster.local:8080",
    "--phase", phase]

/-! ## Quoting -/

/-- What `strings.ReplaceAll(value, "'", "'\"'\"'")` makes of a character. -/
def escapeQuote (c : Char) : List Char :=
  if c = '\x27' then ['\x27', '\x22', '\x27', '\x22', '\x27'] else [c]

/-- One value of `shellCommand`, quoted. -/
def quoteValue (value : List Char) : List Char :=
  '\x27' :: (value.flatMap escapeQuote ++ ['\x27'])

/-- `shellCommand`. -/
def shellCommand (values : List String) : String :=
  " ".intercalate (values.map fun value => String.ofList (quoteValue value.toList))

/-- The field `spec.entrypoint` of a rendered object. -/
def Content.entrypoint : Content → Option String
  | .rayJob spec _ => some (shellCommand (slimeArgs spec))
  | .evaluatorRayJob spec _ policyVersion phase =>
    some (shellCommand (evaluatorArgs spec policyVersion phase))
  | _ => none

theorem entrypoint_renderRayJob (spec : RLRunSpec) (attemptID : String) :
    (renderRayJob spec attemptID).content.entrypoint = some (shellCommand (slimeArgs spec)) := rfl

theorem entrypoint_renderEvaluatorRayJobPhase (spec : RLRunSpec)
    (evaluationID policyVersion phase : String) :
    (renderEvaluatorRayJobPhase spec evaluationID policyVersion phase).content.entrypoint =
      some (shellCommand (evaluatorArgs spec policyVersion phase)) := rfl

/-! ## Reading back -/

/-- A value that can be part of a command: no character of it is NUL. -/
def NulFree (value : String) : Prop := '\x00' ∉ value.toList

instance (value : String) : Decidable (NulFree value) :=
  inferInstanceAs (Decidable (¬_))

theorem spells_escapeQuote {c : Char} (hnul : c ≠ '\x00') :
    Shell.Spells .single (escapeQuote c) [c] := by
  by_cases hquote : c = '\x27'
  · -- Out of the single quotes, into double quotes around the quote, and back.
    subst hquote
    intro ws w
    rfl
  · unfold escapeQuote
    rw [if_neg hquote]
    exact Shell.spells_single hnul hquote

theorem quotes_quoteValue {value : List Char} (hnul : '\x00' ∉ value) :
    Shell.Quotes (quoteValue value) value := by
  have hchars : ∀ c ∈ value, Shell.Spells .single (escapeQuote c) [c] := by
    intro c hc
    refine spells_escapeQuote ?_
    rintro rfl
    exact hnul hc
  exact (Shell.Spells.flatMap hchars).quotes

theorem words_shellCommand {values : List String} (hvalues : ∀ value ∈ values, NulFree value) :
    Shell.words (shellCommand values) = some values :=
  Shell.words_intercalate fun value hvalue => quotes_quoteValue (hvalues value hvalue)

/-- A shell splits `shellCommand` into the values it was given, whatever they are, and
does nothing else.  The entrypoints of trainers and evaluators are such commands. -/
theorem entrypoints_read_back (values : List String) (hvalues : ∀ value ∈ values, NulFree value) :
    Shell.words (shellCommand values) = some values ∧
      (∀ spec attemptID, slimeArgs spec = values →
        (renderRayJob spec attemptID).content.entrypoint.bind Shell.words = some values) ∧
      ∀ spec evaluationID policyVersion phase, evaluatorArgs spec policyVersion phase = values →
        (renderEvaluatorRayJobPhase spec evaluationID policyVersion phase).content.entrypoint.bind
          Shell.words = some values := by
  refine ⟨words_shellCommand hvalues, ?_, ?_⟩
  · intro spec attemptID hargs
    rw [entrypoint_renderRayJob, Option.bind_some, hargs, words_shellCommand hvalues]
  · intro spec evaluationID policyVersion phase hargs
    rw [entrypoint_renderEvaluatorRayJobPhase, Option.bind_some, hargs, words_shellCommand hvalues]

def hostileValues : List String := ["a b", "", "\x27; rm -rf / #", "$(id)\x22\\", "it\x27s"]

theorem entrypoints_read_back_hostile :
    Shell.words (shellCommand hostileValues) = some hostileValues :=
  (entrypoints_read_back hostileValues (by decide)).1

end K8s
end Skyscale
