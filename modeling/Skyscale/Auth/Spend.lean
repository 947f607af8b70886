import Skyscale.Lib.FinMap
import Skyscale.Lib.Json

/-!
# Spend authorization of invoke requests

The middleware in front of the invoke handlers reads the body of a request on its own,
to see whether it asks for a GPU or for a training run, and only then asks for a token.
The handlers read the same body again.  The two readers differ: the middleware takes a
body that is one JSON value, the handlers take the first value of the body.

The number texts that fit a `float64` are a parameter.
-/

namespace Skyscale
namespace Auth

open Lib

/-! ## Keys and tokens -/

/-- What is checked of an API key: when it expires. -/
structure APIKey where
  expiresAt : Int

/-- The keys that have been issued. -/
structure AuthManager where
  apiKeys : FinMap String APIKey

/-- What a check reads of its surroundings: `SKYSCALE_DASHBOARD_TOKEN` and the clock. -/
structure Env where
  dashboardToken : String
  now : Int

def AuthManager.validateAPIKey (a : AuthManager) (env : Env) (key : String) :
    Except String APIKey :=
  match a.apiKeys.get key with
  | none => .error "invalid API key"
  | some apiKey => if apiKey.expiresAt < env.now then .error "API key expired" else .ok apiKey

/-- The text behind the scheme `Bearer` and a blank. -/
def bearerToken (authHeader : String) : String :=
  match authHeader.toList.dropWhile (· ≠ ' ') with
  | [] => ""
  | _ :: token =>
    if authHeader.toList.takeWhile (· ≠ ' ') = "Bearer".toList then String.ofList token else ""

def spendAuthRequired (env : Env) : Bool := env.dashboardToken ≠ ""

def AuthManager.authorizeSpend (a : AuthManager) (env : Env) (authHeader : String) : Bool :=
  let token := bearerToken authHeader
  if token = "" then false
  else if token = env.dashboardToken then true
  else
    match a.validateAPIKey env token with
    | .ok _ => true
    | .error _ => false

/-! ## The middleware -/

/-- The fields the middleware reads of a body. -/
structure SpendFields where
  hardwareType : String := ""
  jobType : String := ""
deriving DecidableEq

inductive SpendField
  | hardwareType
  | jobType
deriving DecidableEq

namespace SpendField

def name : SpendField → String
  | hardwareType => "hardware_type"
  | jobType => "job_type"

def all : List SpendField := [hardwareType, jobType]

def store : SpendField → Json → SpendFields → Option SpendFields
  | hardwareType, v, s => Json.storeText (fun text => { s with hardwareType := text }) s v
  | jobType, v, s => Json.storeText (fun text => { s with jobType := text }) s v

end SpendField

/-- The body asks for a GPU, or for a training run. -/
def SpendFields.spends (s : SpendFields) : Bool :=
  s.hardwareType = "gpu" || s.jobType = "training_run"

def spendFields (v : Json) : Option SpendFields :=
  Json.decode (Json.lookup SpendField.name SpendField.all) SpendField.store {} v

/-- A body that is not one JSON value asks for nothing. -/
def gpuInvokeBody (body : Bytes) : Bool :=
  match Json.whole body with
  | none => false
  | some v =>
    match spendFields v with
    | none => false
    | some s => s.spends

/-- A request as the middleware sees it; a body can fail to be read. -/
structure Request where
  authorization : String
  body : Option Bytes

/-- What the middleware does with a request.  A request that is forwarded carries the
answer of `authorizeSpend`, if it has been asked. -/
inductive Passage
  | refused (text : String) (status : Nat)
  | forwarded (answer : Option Bool) (body : Option Bytes)
deriving DecidableEq

def AuthManager.spendAuthIfGPUMiddleware (a : AuthManager) (env : Env) (r : Request) : Passage :=
  if !spendAuthRequired env then .forwarded none r.body
  else
    match r.body with
    | none => .refused "invalid body" 400
    | some body =>
      if gpuInvokeBody body then
        if a.authorizeSpend env r.authorization then .forwarded (some true) (some body)
        else .refused "Unauthorized" 401
      else
        .forwarded none (some body)

/-! ## The invoke handlers -/

/-- The body of an invoke request. -/
structure InvokeRequest where
  input : Option (FinMap String Json) := none
  sync : Bool := false
  jobType : String := ""
  hardwareType : String := ""
  gpuModel : String := ""
  dockerImage : String := ""
  controlPlaneURL : String := ""

inductive InvokeField
  | input
  | sync
  | jobType
  | hardwareType
  | gpuModel
  | dockerImage
  | controlPlaneURL
deriving DecidableEq

namespace InvokeField

def name : InvokeField → String
  | input => "input"
  | sync => "sync"
  | jobType => "job_type"
  | hardwareType => "hardware_type"
  | gpuModel => "gpu_model"
  | dockerImage => "docker_image"
  | controlPlaneURL => "control_plane_url"

def all : List InvokeField :=
  [input, sync, jobType, hardwareType, gpuModel, dockerImage, controlPlaneURL]

end InvokeField

section Decoding

variable (parseFloat : Bytes → Bool)

/-- Decode into the map `input`: an object adds its members to the map that is there. -/
def storeInput (input : Option (FinMap String Json)) : Json → Option (Option (FinMap String Json))
  | .obj members =>
    if (Json.obj members).numbersAll parseFloat then
      some (some (members.foldl (fun m member => m.set (String.ofList member.1) member.2)
        (input.getD ∅)))
    else
      none
  | .null => some none
  | _ => none

def InvokeField.store : InvokeField → Json → InvokeRequest → Option InvokeRequest
  | input, v, r => (storeInput parseFloat r.input v).map fun m => { r with input := m }
  | sync, v, r => Json.storeBool (fun b => { r with sync := b }) r v
  | jobType, v, r => Json.storeText (fun text => { r with jobType := text }) r v
  | hardwareType, v, r => Json.storeText (fun text => { r with hardwareType := text }) r v
  | gpuModel, v, r => Json.storeText (fun text => { r with gpuModel := text }) r v
  | dockerImage, v, r => Json.storeText (fun text => { r with dockerImage := text }) r v
  | controlPlaneURL, v, r => Json.storeText (fun text => { r with controlPlaneURL := text }) r v

def invokeRequest (v : Json) : Option InvokeRequest :=
  Json.decode (Json.lookup InvokeField.name InvokeField.all) (InvokeField.store parseFloat) {} v

/-- The request the handlers decode from a body: from its first value. -/
def decodeInvoke (body : Bytes) : Option InvokeRequest :=
  match Json.first body with
  | none => none
  | some (v, _) => invokeRequest parseFloat v

/-- The part of an invoke request the middleware decides by. -/
def InvokeRequest.spend (r : InvokeRequest) : SpendFields :=
  { hardwareType := r.hardwareType, jobType := r.jobType }

end Decoding

/-! ## What the readers agree on -/

section Agreement

variable {parseFloat : Bytes → Bool}

theorem spend_lookup_eq_none {key : List Char}
    (h : Json.lookup InvokeField.name InvokeField.all key = none) :
    Json.lookup SpendField.name SpendField.all key = none := by
  rw [Json.lookup_eq_none_iff] at h ⊢
  intro f _
  cases f with
  | hardwareType => exact h .hardwareType (by decide)
  | jobType => exact h .jobType (by decide)

/-- The field of the middleware for a field of the handlers. -/
def InvokeField.spend : InvokeField → Option SpendField
  | hardwareType => some .hardwareType
  | jobType => some .jobType
  | _ => none

theorem foldName_name_ne : ∀ (f : InvokeField) (g : SpendField), f.spend ≠ some g →
    Json.foldName g.name.toList ≠ Json.foldName f.name.toList := by
  intro f g
  cases f <;> cases g <;> decide +kernel

theorem foldName_name_spend {f : InvokeField} {g : SpendField} (h : f.spend = some g) :
    g.name = f.name := by
  cases f <;> cases h <;> rfl

theorem spend_lookup_eq {key : List Char} {f : InvokeField}
    (h : Json.lookup InvokeField.name InvokeField.all key = some f) :
    Json.lookup SpendField.name SpendField.all key = f.spend := by
  obtain ⟨_, hkey⟩ := Json.foldName_of_lookup h
  cases hlookup : Json.lookup SpendField.name SpendField.all key with
  | some g =>
    obtain ⟨_, hkey'⟩ := Json.foldName_of_lookup hlookup
    by_contra hne
    exact foldName_name_ne f g (Ne.symm hne) (hkey'.trans hkey.symm)
  | none =>
    cases hspend : f.spend with
    | none => rfl
    | some g =>
      rw [Json.lookup_eq_none_iff] at hlookup
      have hmem : g ∈ SpendField.all := by cases g <;> decide
      refine absurd ?_ (hlookup g hmem)
      rw [foldName_name_spend hspend, hkey]

/-- A member that is decoded into the request leaves what the middleware decides by, or
changes it as the middleware does. -/
theorem store_spend {f : InvokeField} {v : Json} {r r' : InvokeRequest}
    (h : f.store parseFloat v r = some r') :
    match f.spend with
    | none => r'.spend = r.spend
    | some g => g.store v r.spend = some r'.spend := by
  cases f with
  | input =>
    obtain ⟨m, _, rfl⟩ := Option.map_eq_some_iff.mp h
    rfl
  | sync | jobType | hardwareType | gpuModel | dockerImage | controlPlaneURL =>
    cases v <;> cases h <;> rfl

theorem spendFields_of_invokeRequest {v : Json} {r : InvokeRequest}
    (h : invokeRequest parseFloat v = some r) : spendFields v = some r.spend := by
  cases v with
  | obj members =>
    refine Json.decodeMembers_map InvokeRequest.spend (fun _ => spend_lookup_eq_none) ?_ h
    intro key f value s s' hlookup hstore
    have hspend := store_spend hstore
    rw [spend_lookup_eq hlookup]
    cases hf : f.spend with
    | none =>
      rw [hf] at hspend
      exact .inl ⟨rfl, hspend⟩
    | some g =>
      rw [hf] at hspend
      exact .inr ⟨g, rfl, hspend⟩
  | null =>
    cases h
    rfl
  | bool _ | num _ | str _ | arr _ => cases h

end Agreement

/-! ## Bodies that slip through -/

section Bypass

variable (parseFloat : Bytes → Bool)

/-- The handlers decode a request for a GPU or a training run from the first value of
the body, and something other than blanks follows. -/
def smuggles (body : Bytes) : Bool :=
  match Json.first body with
  | none => false
  | some (v, rest) =>
    ((invokeRequest parseFloat v).any fun r => r.spend.spends) && !rest.all Json.isBlank

variable {parseFloat}

/-- When the handlers decode a request that spends, the middleware recognizes the body,
unless it smuggles. -/
theorem gpuInvokeBody_of_decodeInvoke {body : Bytes} {request : InvokeRequest}
    (h : decodeInvoke parseFloat body = some request) (hspends : request.spend.spends = true) :
    gpuInvokeBody body = !smuggles parseFloat body := by
  unfold decodeInvoke at h
  split at h
  · cases h
  rename_i v rest hfirst
  unfold gpuInvokeBody smuggles Json.whole
  rw [hfirst]
  simp only [h, Option.any_some, hspends, Bool.true_and, Bool.not_not]
  cases rest.all Json.isBlank with
  | false => rfl
  | true => simp only [if_true, spendFields_of_invokeRequest h, hspends]

/-- With a dashboard token, a request that spends is scheduled only after
`authorizeSpend` has said yes, exactly when its body does not smuggle. -/
theorem spend_authorized_iff (a : AuthManager) (env : Env) (htoken : env.dashboardToken ≠ "")
    (authorization : String) (body : Bytes) :
    (∀ request, decodeInvoke parseFloat body = some request → request.spend.spends = true →
      ∀ answer body',
        a.spendAuthIfGPUMiddleware env ⟨authorization, some body⟩ = .forwarded answer body' →
          answer = some true ∧ a.authorizeSpend env authorization = true) ↔
      smuggles parseFloat body = false := by
  have hrequired : spendAuthRequired env = true := decide_eq_true htoken
  constructor
  · intro h
    by_contra hsmuggles
    rw [Bool.not_eq_false] at hsmuggles
    obtain ⟨request, hdecode, hspends⟩ : ∃ request,
        decodeInvoke parseFloat body = some request ∧ request.spend.spends = true := by
      unfold smuggles at hsmuggles
      unfold decodeInvoke
      split at hsmuggles
      · cases hsmuggles
      rename_i v rest hfirst
      rw [Bool.and_eq_true, Option.any_eq_true] at hsmuggles
      obtain ⟨⟨request, hdecode, hspends⟩, _⟩ := hsmuggles
      exact ⟨request, hdecode, hspends⟩
    have hgpu := gpuInvokeBody_of_decodeInvoke hdecode hspends
    rw [hsmuggles] at hgpu
    have hforwarded : a.spendAuthIfGPUMiddleware env ⟨authorization, some body⟩ =
        .forwarded none (some body) := by
      simp [AuthManager.spendAuthIfGPUMiddleware, hrequired, hgpu]
    exact absurd (h request hdecode hspends _ _ hforwarded).1 nofun
  · intro hsmuggles request hdecode hspends answer body' hforwarded
    have hgpu := gpuInvokeBody_of_decodeInvoke hdecode hspends
    rw [hsmuggles] at hgpu
    simp only [AuthManager.spendAuthIfGPUMiddleware, hrequired, Bool.not_true,
      Bool.false_eq_true, if_false, hgpu, Bool.not_false, if_true] at hforwarded
    split at hforwarded
    · rename_i hauthorized
      cases hforwarded
      exact ⟨rfl, hauthorized⟩
    · cases hforwarded

def gpuBody (tail : String) : Bytes :=
  ("\x7b\"hardware_type\":\"gpu\"\x7d" ++ tail).toUTF8.toList

/-- A request for a GPU with a line end behind it, sent with the dashboard token. -/
theorem spend_authorized_lineEnd :
    (∀ request, decodeInvoke (fun _ => true) (gpuBody "\n") = some request →
      request.spend.spends = true → ∀ answer body',
        AuthManager.spendAuthIfGPUMiddleware ⟨∅⟩ ⟨"token", 0⟩
          ⟨"Bearer token", some (gpuBody "\n")⟩ =
          .forwarded answer body' →
        answer = some true ∧ AuthManager.authorizeSpend ⟨∅⟩ ⟨"token", 0⟩ "Bearer token" = true) ∧
      (decodeInvoke (fun _ => true) (gpuBody "\n")).any (fun request => request.spend.spends) ∧
      AuthManager.spendAuthIfGPUMiddleware ⟨∅⟩ ⟨"token", 0⟩ ⟨"Bearer token", some (gpuBody "\n")⟩ =
        .forwarded (some true) (some (gpuBody "\n")) :=
  ⟨(spend_authorized_iff ⟨∅⟩ ⟨"token", 0⟩ (by decide) "Bearer token" (gpuBody "\n")).mpr
    (by decide +kernel), by decide +kernel, by decide +kernel⟩

/-- A request for a GPU with an `x` behind it is decoded by the handlers, and the
middleware forwards it without a token. -/
theorem spend_bypassed :
    (∃ request, decodeInvoke (fun _ => true) (gpuBody " x") = some request ∧
      request.hardwareType = "gpu") ∧
      AuthManager.spendAuthIfGPUMiddleware ⟨∅⟩ ⟨"token", 0⟩ ⟨"", some (gpuBody " x")⟩ =
        .forwarded none (some (gpuBody " x")) ∧
      AuthManager.authorizeSpend ⟨∅⟩ ⟨"token", 0⟩ "" = false := by
  refine ⟨?_, by decide +kernel, by decide +kernel⟩
  have hdecode : (decodeInvoke (fun _ => true) (gpuBody " x")).map InvokeRequest.spend =
      some { hardwareType := "gpu" } := by
    decide +kernel
  obtain ⟨request, hrequest, hspend⟩ := Option.map_eq_some_iff.mp hdecode
  exact ⟨request, hrequest, congrArg SpendFields.hardwareType hspend⟩

end Bypass

end Auth
end Skyscale
