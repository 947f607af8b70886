import Skyscale.Contracts.RunSpec
import Skyscale.Scheduler.Dispatcher

/-!
# The registry of providers

`Registry.Dispatch` of `control-plane/providers/registry.go`.  For the programs of the
control plane it is one call (`Op.dispatch`); here it becomes a sequence of `Deploy`
calls of providers.  `registry` is the translation, and `Prog.expand` applies it to a
program.
-/

namespace Skyscale
namespace Providers

open Lib Control Contracts

/-- The implementations of `GPUProvider`. -/
inductive ProviderKind
  | akash
  | huggingface
  | aws
  | azure
  | modal
deriving DecidableEq

/-- The implementations that are not wired up. -/
def ProviderKind.stub : ProviderKind → Bool
  | aws | azure => true
  | akash | huggingface | modal => false

/-- `ErrNotImplemented`. -/
def errNotImplemented : String := "provider not implemented"

/-- `strings.ToLower`. -/
def toLower (value : String) : String := String.ofList (value.toList.map lowerRune)

/-- `newProviderByName`. -/
def newProviderByName (name : String) : Option ProviderKind :=
  let key := toLower (trimSpace name)
  if key = "akash" then some .akash
  else if key = "huggingface" ∨ key = "hf" then some .huggingface
  else if key = "aws" then some .aws
  else if key = "azure" then some .azure
  else if key = "modal" then some .modal
  else none

/-- A call of the control plane that is not a dispatch, or a `Deploy` call. -/
inductive Op
  | control (op : Control.Op)
  | deploy (provider : ProviderKind) (spec : DeploySpec)

/-- The answers. -/
def Ans : Op → Type
  | .control op => Control.Ans op
  | .deploy _ _ => Except String DeployResult

/-- Programs over these calls. -/
abbrev Program (α : Type) : Type := Prog Op Ans α

/-- The program of a `Deploy` call. -/
def deploy (provider : ProviderKind) (spec : DeploySpec) :
    Program (Except String DeployResult) :=
  Prog.perform (Op.deploy provider spec)

/-- `Registry.DispatchTo`. -/
def dispatchTo (name : String) (spec : DeploySpec) : Program (Except String DeployResult) :=
  match newProviderByName name with
  | none => pure (.error ("unknown provider \"" ++ name ++ "\""))
  | some provider => deploy provider spec

/-- The loop of `Registry.Dispatch` over the providers. -/
def tryProviders (spec : DeploySpec) (lastErr : String) :
    List ProviderKind → Program (Except String DeployResult)
  | [] => pure (.error ("all providers failed: " ++ lastErr))
  | provider :: providers => do
    let result ← deploy provider spec
    match result with
    | .ok result => pure (.ok result)
    | .error err => tryProviders spec err providers

/-- `Registry.Dispatch`.  A `nil` error is printed as `%!w(<nil>)`. -/
def dispatch (providers : List ProviderKind) (spec : DeploySpec) :
    Program (Except String DeployResult) :=
  if trimSpace spec.providerName ≠ "" then
    dispatchTo spec.providerName spec
  else
    tryProviders spec "%!w(<nil>)" providers

/-- The dispatches of a program of the control plane go through the registry. -/
def registry (providers : List ProviderKind) : (op : Control.Op) → Program (Control.Ans op)
  | .dispatch spec => dispatch providers spec
  | op => Prog.perform (Op.control op)

end Providers
end Skyscale
