import Skyscale.Providers.Registry

/-!
# Deployments on Akash

`CreateDeployment` of `control-plane/akash/client.go` and the provider around it.  A
deployment is created, bids are collected for it, and a lease is made with one of the
bidders: three kinds of requests to the Console API, each of which may fail.  When bids
or lease fail, the error is returned and the deployment stays open.

A dispatch with its retries is `Scheduler.dispatchWithRetry`, with its dispatches
replaced by the registry and the `Deploy` calls of Akash by requests to the Console
API.  The record of a run lists the requests with their answers.  `Attempt` says what
the record of one `Deploy` call looks like, `Attempts` what the record of a dispatch
with retries looks like, and `retries_leave_none_iff` reads off which deployments are
left.

Times are in milliseconds.  Fields that the provider does not read are left out: the
prices of bids, and status, address and port of a deployment.
-/

namespace Skyscale
namespace Akash

open Lib Control Providers Contracts

/-! ## Data model -/

/-- A bid on a deployment. -/
structure Bid where
  gseq : Int
  oseq : Int
  provider : String
  state : String

/-- `badProviders`. -/
def badProviders : List String :=
  ["akash1sevd2ymtty3dpq9ycxgkhuzzk4fe6mchqdwd4e", "akash18ga02jzaq8cw52anyhzkwta5wygufgu6zsz6xc"]

/-- The bid is not skipped by `waitForBid`. -/
def Bid.acceptable (b : Bid) : Bool :=
  (b.state = "open" || b.state = "active") && !badProviders.contains b.provider

structure Deployment where
  id : String
  providerAddr : String

/-- The values of the SDL template. -/
structure SDLData where
  dockerImage : String
  jobID : String
  executionID : String
  controlPlaneURL : String
  gpuModel : String
  envVars : FinMap String String

/-- The client: without an API key it simulates.  `generateTrainingSDL` renders the
template. -/
structure Client where
  simulate : Bool
  generateTrainingSDL : SDLData → Except String String

/-! ## Requests -/

/-- A call that Akash has no part in, a request to the Console API, or a pause.  A
`GET` of bids answers with the time it took, a pause with the time by which it was
longer than three seconds. -/
inductive Op
  | provider (op : Providers.Op)
  | postDeployment (sdl : String)
  | getBids (dseq : String)
  | postLease (dseq : String) (gseq oseq : Int) (provider manifest : String)
  | deleteDeployment (dseq : String)
  | sleep

/-- The answers.  A created deployment has an identifier and a manifest. -/
def Ans : Op → Type
  | .provider op => Providers.Ans op
  | .postDeployment _ => Except String (String × String)
  | .getBids _ => Except String (List Bid) × Nat
  | .postLease .. => Except String Unit
  | .deleteDeployment _ => Except String Unit
  | .sleep => Nat

/-- Programs over these requests. -/
abbrev Program (α : Type) : Type := Prog Op Ans α

abbrev request (op : Op) : Program (Ans op) := Prog.perform op

/-! ## The client -/

/-- The end of `waitForBid`, after its deadline. -/
def endOfBids (dseq : String) : Option Bid → Except String Bid
  | some best => .ok best
  | none => .error ("no bids from acceptable providers within 3m0s for dseq " ++ dseq)

/-- One round of `waitForBid`, `elapsed` after its start; `next` is the following one.
The first acceptable bid is kept. -/
def pollRound (dseq : String) (next : Nat → Option Bid → Program (Except String Bid))
    (elapsed : Nat) (best : Option Bid) : Program (Except String Bid) :=
  if elapsed < 180000 then do
    let (answer, took) ← request (.getBids dseq)
    match answer with
    | .error message => pure (.error message)
    | .ok bids =>
      let best := best.or (bids.find? Bid.acceptable)
      if 60000 < elapsed + took ∧ best.isSome then
        pure (endOfBids dseq best)
      else do
        let longer : Nat ← request .sleep
        next (elapsed + took + 3000 + longer) best
  else
    pure (endOfBids dseq best)

/-- The loop of `waitForBid`.  `polls` bounds the number of rounds: a round takes three seconds or
more, so sixty of them reach the deadline. -/
def pollBids (dseq : String) : (polls elapsed : Nat) → Option Bid → Program (Except String Bid)
  | 0, _, best => pure (endOfBids dseq best)
  | polls + 1, elapsed, best => pollRound dseq (pollBids dseq polls) elapsed best

/-- `waitForBid`, which gives up after three minutes. -/
def waitForBid (dseq : String) : Program (Except String Bid) := pollBids dseq 60 0 none

/-- `Client.CreateDeployment`. -/
def createDeployment (client : Client) (sdl jobID : String) : Program (Except String Deployment) :=
  if client.simulate then
    pure (.ok ⟨jobID, "akash1simulatedprovider000000000000000000001"⟩)
  else do
    let created ← request (.postDeployment sdl)
    match created with
    | .error message => pure (.error ("POST /v1/deployments: " ++ message))
    | .ok (dseq, manifest) => do
      let chosen ← waitForBid dseq
      match chosen with
      | .error message => pure (.error ("wait for bid: " ++ message))
      | .ok bid => do
        let leased ← request (.postLease dseq bid.gseq bid.oseq bid.provider manifest)
        match leased with
        | .error message => pure (.error ("create lease: POST /v1/leases: " ++ message))
        | .ok _ => pure (.ok ⟨dseq, bid.provider⟩)

/-- `AkashProvider.Deploy`. -/
def deploy (client : Client) (spec : DeploySpec) : Program (Except String DeployResult) :=
  match client.generateTrainingSDL
      ⟨spec.dockerImage, spec.jobID, spec.executionID, spec.controlPlaneURL, spec.gpuModel,
        spec.envVars⟩ with
  | .error message => pure (.error message)
  | .ok sdl => do
    let created ← createDeployment client sdl spec.jobID
    match created with
    | .error message => pure (.error message)
    | .ok deployment => pure (.ok ⟨deployment.id, "akash", deployment.providerAddr⟩)

/-- The `Deploy` calls of Akash become requests to the Console API. -/
def akash (client : Client) : (op : Providers.Op) → Program (Providers.Ans op)
  | .deploy .akash spec => deploy client spec
  | op => request (.provider op)

/-! ## Records -/

/-- A request with its answer. -/
abbrev Entry : Type := (op : Op) × Ans op

/-- The requests of a run with their answers. -/
abbrev Record : Type := List Entry

/-- The deployment that a request has created. -/
def Entry.created : Entry → Option String
  | ⟨.postDeployment _, .ok (dseq, _)⟩ => some dseq
  | _ => none

/-- The deployment that a request has closed. -/
def Entry.closed : Entry → Option String
  | ⟨.deleteDeployment dseq, .ok _⟩ => some dseq
  | _ => none

/-- The created deployments, in order. -/
def Record.created (past : Record) : List String := past.filterMap Entry.created

/-- The created deployments that are not closed. -/
def Record.openDeployments (past : Record) : List String :=
  (Record.created past).filter fun dseq => dseq ∉ past.filterMap Entry.closed

/-- No query for the bids on a deployment fails. -/
def Polled (dseq : String) (past : Record) : Prop :=
  ∀ message took, ⟨.getBids dseq, (.error message, took)⟩ ∉ past

/-- Some query for the bids on a deployment lists an acceptable one. -/
def Offered (dseq : String) (past : Record) : Prop :=
  ∃ bids took, ⟨.getBids dseq, (.ok bids, took)⟩ ∈ past ∧ ∃ b ∈ bids, Bid.acceptable b = true

/-- The entries of a `waitForBid`. -/
def Bidding (dseq : String) (past : Record) : Prop :=
  ∀ e ∈ past, (∃ answer, e = ⟨.getBids dseq, answer⟩) ∨ ∃ longer, e = ⟨.sleep, longer⟩

section Bids

variable {dseq : String} {past past' : Record}

theorem polled_append : Polled dseq (past ++ past') ↔ Polled dseq past ∧ Polled dseq past' := by
  constructor
  · intro h
    exact ⟨fun m t hm => h m t (List.mem_append_left _ hm),
      fun m t hm => h m t (List.mem_append_right _ hm)⟩
  · rintro ⟨h, h'⟩ m t hm
    exact (List.mem_append.mp hm).elim (h m t) (h' m t)

theorem offered_append :
    Offered dseq (past ++ past') ↔ Offered dseq past ∨ Offered dseq past' := by
  constructor
  · rintro ⟨bids, took, hmem, hacceptable⟩
    exact (List.mem_append.mp hmem).imp (fun h => ⟨bids, took, h, hacceptable⟩)
      fun h => ⟨bids, took, h, hacceptable⟩
  · rintro (⟨bids, took, hmem, hacceptable⟩ | ⟨bids, took, hmem, hacceptable⟩)
    · exact ⟨bids, took, List.mem_append_left _ hmem, hacceptable⟩
    · exact ⟨bids, took, List.mem_append_right _ hmem, hacceptable⟩

theorem bidding_append (h : Bidding dseq past) (h' : Bidding dseq past') :
    Bidding dseq (past ++ past') :=
  fun e he => (List.mem_append.mp he).elim (h e) (h' e)

theorem polled_nil : Polled dseq [] := fun _ _ hmem => absurd hmem List.not_mem_nil

theorem not_offered_nil : ¬Offered dseq [] := by
  rintro ⟨_, _, hmem, -⟩
  exact absurd hmem List.not_mem_nil

theorem polled_listed (bids : List Bid) (took : Nat) :
    Polled dseq [⟨.getBids dseq, (.ok bids, took)⟩] := by
  intro message took' hmem
  have heq := List.mem_singleton.mp hmem
  cases heq

theorem offered_listed (bids : List Bid) (took : Nat) :
    Offered dseq [⟨.getBids dseq, (.ok bids, took)⟩] ↔
      (bids.find? Bid.acceptable).isSome = true := by
  rw [List.find?_isSome]
  constructor
  · rintro ⟨bids', took', hmem, hacceptable⟩
    cases List.mem_singleton.mp hmem
    exact hacceptable
  · intro hacceptable
    exact ⟨bids, took, List.mem_singleton_self _, hacceptable⟩

theorem bidding_query (answer : Ans (.getBids dseq)) : Bidding dseq [⟨.getBids dseq, answer⟩] := by
  intro e he
  exact .inl ⟨answer, List.mem_singleton.mp he⟩

theorem bidding_sleep (longer : Ans .sleep) : Bidding dseq [⟨.sleep, longer⟩] := by
  intro e he
  exact .inr ⟨longer, List.mem_singleton.mp he⟩

theorem polled_sleep (longer : Ans .sleep) : Polled dseq [⟨.sleep, longer⟩] := by
  intro message took hmem
  cases List.mem_singleton.mp hmem

theorem not_offered_sleep (longer : Ans .sleep) : ¬Offered dseq [⟨.sleep, longer⟩] := by
  rintro ⟨bids, took, hmem, -⟩
  cases List.mem_singleton.mp hmem

end Bids

/-- Programs whose requests are recorded. -/
abbrev recording : OpSpec Op Ans Record := acting logs

instance : OpSpec.IsMonotone recording := inferInstanceAs (acting logs).IsMonotone

variable {past : Record} {dseq : String} {past' : Record} {r : Except String DeployResult}
  {own : Record}

theorem wp_request {α : Type} {op : Op} {f : Ans op → Program α} {Q : α → Record → Prop}
    (h : ∀ ans, wp recording (f ans) Q (past ++ [⟨op, ans⟩])) :
    wp recording (request op >>= f) Q past := by
  rintro ans past' rfl
  exact h ans

/-- A wait for bids that starts with a bid in hand, or without one, has come to its
end: it returns a bid exactly when no query failed and there was an acceptable one. -/
def Waited (dseq : String) (best : Option Bid) (past : Record) (r : Except String Bid)
    (past' : Record) : Prop :=
  ∃ bidding, past' = past ++ bidding ∧ Bidding dseq bidding ∧
    ((∃ bid, r = .ok bid) ↔ Polled dseq bidding ∧ (best.isSome = true ∨ Offered dseq bidding))

theorem waited_end (dseq : String) (best : Option Bid) (past : Record) :
    Waited dseq best past (endOfBids dseq best) past := by
  refine ⟨[], (List.append_nil _).symm, fun e he => absurd he List.not_mem_nil, ?_⟩
  cases best with
  | none =>
    refine ⟨(fun ⟨_, h⟩ => by cases h), fun ⟨_, h⟩ => ?_⟩
    exact h.elim (fun h => by cases h) fun h => absurd h not_offered_nil
  | some best => exact ⟨fun _ => ⟨polled_nil, .inl rfl⟩, fun _ => ⟨best, rfl⟩⟩

theorem Waited.listed {best : Option Bid} {bids : List Bid} {took : Nat} {r : Except String Bid}
    (h : Waited dseq (best.or (bids.find? Bid.acceptable)) (past ++ [⟨.getBids dseq, (.ok bids,
      took)⟩]) r past') :
    Waited dseq best past r past' := by
  obtain ⟨bidding, rfl, hbidding, hr⟩ := h
  refine ⟨_, List.append_assoc _ _ _, bidding_append (bidding_query _) hbidding, hr.trans ?_⟩
  rw [polled_append, offered_append, offered_listed, Option.isSome_or, Bool.or_eq_true]
  simp only [polled_listed, true_and, or_assoc]

theorem Waited.slept {best : Option Bid} {longer : Ans .sleep} {r : Except String Bid}
    (h : Waited dseq best (past ++ [⟨.sleep, longer⟩]) r past') :
    Waited dseq best past r past' := by
  obtain ⟨bidding, rfl, hbidding, hr⟩ := h
  refine ⟨_, List.append_assoc _ _ _, bidding_append (bidding_sleep _) hbidding, hr.trans ?_⟩
  rw [polled_append, offered_append]
  simp only [polled_sleep, not_offered_sleep, true_and, false_or]

theorem wp_pollBids (dseq : String) (polls elapsed : Nat) (best : Option Bid) (past : Record) :
    wp recording (pollBids dseq polls elapsed best) (Waited dseq best past) past := by
  induction polls generalizing elapsed best past with
  | zero => exact waited_end dseq best past
  | succ polls ih =>
    show wp recording (pollRound dseq _ elapsed best) _ past
    unfold pollRound
    split
    · refine wp_request ?_
      rintro ⟨message | bids, took⟩
      · refine ⟨_, rfl, bidding_query _, (fun ⟨_, h⟩ => by cases h), fun ⟨hpolled, _⟩ => ?_⟩
        exact absurd (List.mem_singleton_self _) (hpolled message took)
      · show wp recording (ite _ _ _) _ _
        split
        · exact (waited_end dseq _ _).listed
        · refine wp_request fun longer => ?_
          refine wp_mono (fun r past' h => ?_) (ih _ _ _)
          exact h.slept.listed
    · exact waited_end dseq best past

theorem wp_waitForBid (dseq : String) (past : Record) :
    wp recording (waitForBid dseq) (Waited dseq none past) past := by
  unfold waitForBid
  exact wp_pollBids dseq 60 0 none past

/-! ## Attempts -/

/-- The ways a `Deploy` call of Akash ends, with the record of its requests. -/
inductive Attempt : Record → Except String DeployResult → Prop
  /-- The template cannot be rendered. -/
  | unrendered (message : String) : Attempt [] (.error message)
  | refused (sdl err message : String) :
      Attempt [⟨.postDeployment sdl, .error err⟩] (.error message)
  | unbid {dseq : String} {bidding : Record} (sdl manifest message : String) :
      Bidding dseq bidding → ¬(Polled dseq bidding ∧ Offered dseq bidding) →
      Attempt (⟨.postDeployment sdl, .ok (dseq, manifest)⟩ :: bidding) (.error message)
  | unleased {dseq : String} {bidding : Record} (sdl manifest provider err message : String)
      (gseq oseq : Int) :
      Bidding dseq bidding → Polled dseq bidding ∧ Offered dseq bidding →
      Attempt (⟨.postDeployment sdl, .ok (dseq, manifest)⟩ :: bidding ++
        [⟨.postLease dseq gseq oseq provider manifest, .error err⟩]) (.error message)
  | leased {dseq : String} {bidding : Record} (sdl manifest provider : String) (gseq oseq : Int) :
      Bidding dseq bidding → Polled dseq bidding ∧ Offered dseq bidding →
      Attempt (⟨.postDeployment sdl, .ok (dseq, manifest)⟩ :: bidding ++
        [⟨.postLease dseq gseq oseq provider manifest, .ok ()⟩]) (.ok ⟨dseq, "akash", provider⟩)

theorem wp_deploy {client : Client} (hreal : client.simulate = false) (spec : DeploySpec)
    (past : Record) :
    wp recording (deploy client spec) (fun r past' => ∃ own, past' = past ++ own ∧ Attempt own r)
      past := by
  unfold deploy
  split
  · exact ⟨[], (List.append_nil _).symm, .unrendered _⟩
  · rename_i sdl _
    unfold createDeployment
    rw [if_neg (by rw [hreal]; exact Bool.noConfusion), wp_bind]
    refine wp_request ?_
    rintro (err | ⟨dseq, manifest⟩)
    · exact ⟨_, rfl, .refused _ _ _⟩
    · dsimp only
      rw [wp_bind]
      refine wp_mono ?_ (wp_waitForBid dseq _)
      rintro r past' ⟨bidding, rfl, hbidding, hr⟩
      rcases r with message | bid
      · refine ⟨⟨.postDeployment sdl, .ok (dseq, manifest)⟩ :: bidding, by simp, ?_⟩
        refine .unbid _ _ _ hbidding fun hboth => ?_
        obtain ⟨bid, h⟩ := hr.mpr ⟨hboth.1, .inr hboth.2⟩
        cases h
      · have hboth : Polled dseq bidding ∧ Offered dseq bidding := by
          obtain ⟨hpolled, hbest | hoffered⟩ := hr.mp ⟨bid, rfl⟩
          · cases hbest
          · exact ⟨hpolled, hoffered⟩
        refine wp_request ?_
        rintro (err | _)
        · refine ⟨_, ?_, .unleased sdl manifest bid.provider err _ bid.gseq bid.oseq hbidding hboth⟩
          rw [List.append_assoc, List.append_assoc]
          rfl
        · refine ⟨_, ?_, .leased sdl manifest bid.provider bid.gseq bid.oseq hbidding hboth⟩
          rw [List.append_assoc, List.append_assoc]
          rfl

/-- The records of dispatches with retries: attempts that fail, and possibly one that
succeeds. -/
inductive Attempts : Record → Except String DeployResult → Prop
  | gaveUp (message : String) : Attempts [] (.error message)
  | last {own : Record} {result : DeployResult} : Attempt own (.ok result) →
      Attempts own (.ok result)
  | again {own rest : Record} {message : String} {r : Except String DeployResult} :
      Attempt own (.error message) → Attempts rest r → Attempts (own ++ rest) r

theorem Attempt.attempts (h : Attempt own r) :
    Attempts own r := by
  rcases r with message | result
  · have hagain := Attempts.again h (.gaveUp message)
    rwa [List.append_nil] at hagain
  · exact .last h

theorem Attempts.append {rest : Record} {message : String} (h : Attempts past (.error message))
    (hrest : Attempts rest r) : Attempts (past ++ rest) r := by
  generalize herror : (Except.error message : Except String DeployResult) = r0 at h
  induction h with
  | gaveUp => exact hrest
  | last => cases herror
  | again hown _ ih =>
    rw [List.append_assoc]
    exact .again hown (ih herror)

/-- The dispatch goes to Akash, by the name in the specification or because the
registry has no other provider. -/
def ThroughAkash (providers : List ProviderKind) (spec : DeploySpec) : Prop :=
  if trimSpace spec.providerName ≠ "" then newProviderByName spec.providerName = some .akash
  else ∀ provider ∈ providers, provider = .akash

/-- `Registry.Dispatch`, down to the Console API. -/
def consoleDispatch (client : Client) (providers : List ProviderKind) (spec : DeploySpec) :
    Program (Except String DeployResult) :=
  (dispatch providers spec).expand (akash client)

/-- `dispatchWithRetry`, down to the Console API. -/
def consoleDispatchWithRetry (client : Client) (providers : List ProviderKind)
    (spec : DeploySpec) (lastErr : String) (attempts : Nat) :
    Program (Except String DeployResult) :=
  ((Scheduler.dispatchWithRetry spec lastErr attempts).expand (registry providers)).expand
    (akash client)

/-- The record ends with the attempts of a dispatch. -/
def Dispatched (past : Record) (r : Except String DeployResult) (past' : Record) : Prop :=
  ∃ own, past' = past ++ own ∧ Attempts own r

theorem Dispatched.again {past'' : Record} {message : String}
    (h : Dispatched past (.error message) past') (hrest : Dispatched past' r past'') :
    Dispatched past r past'' := by
  obtain ⟨own, rfl, hown⟩ := h
  obtain ⟨rest, rfl, hrest⟩ := hrest
  exact ⟨own ++ rest, List.append_assoc _ _ _, hown.append hrest⟩

section Dispatch

variable {client : Client} (hreal : client.simulate = false)
include hreal

theorem wp_tryProviders (spec : DeploySpec) (lastErr : String) {providers : List ProviderKind}
    (hakash : ∀ provider ∈ providers, provider = .akash) (past : Record) :
    wp recording ((tryProviders spec lastErr providers).expand (akash client)) (Dispatched past)
      past := by
  induction providers generalizing lastErr past with
  | nil => exact ⟨[], (List.append_nil _).symm, .gaveUp _⟩
  | cons provider providers ih =>
    obtain rfl := hakash provider List.mem_cons_self
    show wp recording ((deploy client spec).bind _) _ past
    refine wp_seq (wp_deploy hreal spec past) ?_
    rintro r past' ⟨own, rfl, hown⟩
    rcases r with message | result
    · refine wp_mono ?_
        (ih message (fun p hp => hakash p (List.mem_cons_of_mem _ hp)) (past ++ own))
      intro r past' hrest
      exact Dispatched.again ⟨own, rfl, hown.attempts⟩ hrest
    · exact ⟨own, rfl, hown.attempts⟩

theorem wp_consoleDispatch {providers : List ProviderKind} {spec : DeploySpec}
    (hakash : ThroughAkash providers spec) (past : Record) :
    wp recording (consoleDispatch client providers spec) (Dispatched past) past := by
  unfold ThroughAkash at hakash
  unfold consoleDispatch dispatch
  split at hakash
  · rename_i hnamed
    rw [if_pos hnamed]
    unfold dispatchTo
    rw [hakash]
    show wp recording ((deploy client spec).bind _) _ past
    refine wp_seq (wp_deploy hreal spec past) ?_
    rintro r past' ⟨own, rfl, hown⟩
    exact ⟨own, rfl, hown.attempts⟩
  · rename_i hnamed
    rw [if_neg hnamed]
    exact wp_tryProviders hreal spec _ hakash past

theorem wp_consoleDispatchWithRetry {providers : List ProviderKind} {spec : DeploySpec}
    (hakash : ThroughAkash providers spec) (lastErr : String) (attempts : Nat) (past : Record) :
    wp recording (consoleDispatchWithRetry client providers spec lastErr attempts)
      (Dispatched past) past := by
  induction attempts generalizing lastErr past with
  | zero => exact ⟨[], (List.append_nil _).symm, .gaveUp _⟩
  | succ attempts ih =>
    show wp recording (Prog.expand (akash client) ((dispatch providers spec).bind _)) _ past
    refine wp_expand_seq (wp_consoleDispatch hreal hakash past) ?_
    intro r past' hfirst
    rcases r with message | result
    · refine wp_mono ?_ (ih message past')
      exact fun r past'' hrest => hfirst.again hrest
    · exact hfirst

end Dispatch

/-! ## What is left open -/

/-- The deployment a dispatch answers for. -/
def returned : Except String DeployResult → List String
  | .ok result => [result.deploymentID]
  | .error _ => []

/-- The Console API serves every deployment that it creates: no query for bids fails,
an acceptable bid comes in time, and the lease is granted. -/
structure Served (past : Record) : Prop where
  polled : ∀ dseq, Polled dseq past
  offered : ∀ dseq ∈ Record.created past, Offered dseq past
  granted : ∀ dseq gseq oseq provider manifest err,
    ⟨.postLease dseq gseq oseq provider manifest, .error err⟩ ∉ past

theorem created_append (past past' : Record) :
    Record.created (past ++ past') = Record.created past ++ Record.created past' :=
  List.filterMap_append

theorem Bidding.quiet {bidding : Record} (h : Bidding dseq bidding) :
    Record.created bidding = [] ∧ bidding.filterMap Entry.closed = [] := by
  constructor
  · refine List.filterMap_eq_nil_iff.mpr fun e he => ?_
    rcases h e he with ⟨answer, rfl⟩ | ⟨longer, rfl⟩ <;> rfl
  · refine List.filterMap_eq_nil_iff.mpr fun e he => ?_
    rcases h e he with ⟨answer, rfl⟩ | ⟨longer, rfl⟩ <;> rfl

theorem Bidding.dseq_eq {dseq' : String} {bidding : Record} (h : Bidding dseq bidding)
    {answer : Ans (.getBids dseq')} (hmem : ⟨.getBids dseq', answer⟩ ∈ bidding) : dseq' = dseq := by
  rcases h _ hmem with ⟨answer', heq⟩ | ⟨longer, heq⟩
  · cases heq
    rfl
  · cases heq

theorem Attempt.closed (h : Attempt own r) :
    own.filterMap Entry.closed = [] := by
  cases h with
  | unrendered | refused => rfl
  | unbid _ _ _ hbidding => exact hbidding.quiet.2
  | unleased _ _ _ _ _ _ _ hbidding | leased _ _ _ _ _ hbidding =>
    show List.filterMap _ (_ :: (_ ++ _)) = []
    rw [List.filterMap_cons, List.filterMap_append, hbidding.quiet.2]
    rfl

theorem Attempts.closed (h : Attempts past r) :
    past.filterMap Entry.closed = [] := by
  induction h with
  | gaveUp => rfl
  | last hown => exact hown.closed
  | again hown _ ih => rw [List.filterMap_append, hown.closed, ih]; rfl

theorem Attempts.openDeployments (h : Attempts past r) :
    Record.openDeployments past = Record.created past := by
  unfold Record.openDeployments
  rw [h.closed]
  exact List.filter_eq_self.mpr fun _ _ => by simp

theorem served_append (h : Served past) (h' : Served past') :
    Served (past ++ past') where
  polled dseq := polled_append.mpr ⟨h.polled dseq, h'.polled dseq⟩
  offered dseq hdseq := by
    rw [created_append] at hdseq
    exact offered_append.mpr ((List.mem_append.mp hdseq).imp (h.offered dseq) (h'.offered dseq))
  granted dseq gseq oseq provider manifest err hmem :=
    (List.mem_append.mp hmem).elim (h.granted dseq gseq oseq provider manifest err)
      (h'.granted dseq gseq oseq provider manifest err)

/-- The record of a granted lease. -/
theorem Bidding.served {sdl manifest provider : String} {gseq oseq : Int} {bidding : Record}
    (h : Bidding dseq bidding) (hboth : Polled dseq bidding ∧ Offered dseq bidding) :
    Record.created (⟨.postDeployment sdl, .ok (dseq, manifest)⟩ :: bidding ++
        [⟨.postLease dseq gseq oseq provider manifest, .ok ()⟩]) = [dseq] ∧
      Served (⟨.postDeployment sdl, .ok (dseq, manifest)⟩ :: bidding ++
        [⟨.postLease dseq gseq oseq provider manifest, .ok ()⟩]) := by
  have hcreated : Record.created (⟨.postDeployment sdl, .ok (dseq, manifest)⟩ :: bidding ++
      [⟨.postLease dseq gseq oseq provider manifest, .ok ()⟩]) = [dseq] := by
    rw [created_append]
    show dseq :: Record.created bidding ++ [] = [dseq]
    rw [h.quiet.1]
    rfl
  have hmiddle : ∀ e : Entry, e ∈ (⟨.postDeployment sdl, .ok (dseq, manifest)⟩ :: bidding ++
      [⟨.postLease dseq gseq oseq provider manifest, .ok ()⟩] : Record) →
      e = ⟨.postDeployment sdl, .ok (dseq, manifest)⟩ ∨ e ∈ bidding ∨
        e = ⟨.postLease dseq gseq oseq provider manifest, .ok ()⟩ := by
    intro e he
    rcases List.mem_append.mp he with he | he
    · exact (List.mem_cons.mp he).imp_right .inl
    · exact .inr (.inr (List.mem_singleton.mp he))
  refine ⟨hcreated, fun dseq' message took hmem => ?_, fun dseq' hdseq' => ?_, ?_⟩
  · rcases hmiddle _ hmem with heq | hquery | heq
    · cases heq
    · obtain rfl := h.dseq_eq hquery
      exact hboth.1 message took hquery
    · cases heq
  · rw [hcreated] at hdseq'
    obtain rfl := List.mem_singleton.mp hdseq'
    obtain ⟨bids, took, hmem, hacceptable⟩ := hboth.2
    exact ⟨bids, took, List.mem_append_left _ (List.mem_cons_of_mem _ hmem), hacceptable⟩
  · intro dseq' gseq' oseq' provider' manifest' err hmem
    rcases hmiddle _ hmem with heq | hmem | heq
    · cases heq
    · rcases h _ hmem with ⟨answer, heq⟩ | ⟨longer, heq⟩ <;> cases heq
    · cases heq

theorem Attempt.succeeded {result : DeployResult} (h : Attempt own (.ok result)) :
    Record.created own = [result.deploymentID] ∧ Served own := by
  cases h with
  | leased _ _ _ _ _ hbidding hboth => exact hbidding.served hboth

/-- An attempt that fails creates nothing and asks for no bids, or it creates a
deployment that is not served. -/
theorem Attempt.failed {message : String} (h : Attempt own (.error message)) :
    (Record.created own = [] ∧ Served own ∧ ∀ dseq, ¬Offered dseq own) ∨
      ∃ dseq, Record.created own = [dseq] ∧ (Polled dseq own → Offered dseq own →
        ∃ gseq oseq provider manifest err,
          ⟨.postLease dseq gseq oseq provider manifest, .error err⟩ ∈ own) := by
  cases h with
  | unrendered =>
    refine .inl ⟨rfl, ⟨fun dseq => polled_nil, fun dseq h => ?_, ?_⟩, fun _ => not_offered_nil⟩
    · exact absurd h List.not_mem_nil
    · exact fun _ _ _ _ _ _ h => absurd h List.not_mem_nil
  | refused sdl err =>
    refine .inl ⟨rfl, ⟨fun dseq m t hmem => ?_, fun dseq h => ?_, ?_⟩, ?_⟩
    · cases List.mem_singleton.mp hmem
    · exact absurd h List.not_mem_nil
    · intro _ _ _ _ _ _ hmem
      cases List.mem_singleton.mp hmem
    · rintro dseq ⟨bids, took, hmem, -⟩
      cases List.mem_singleton.mp hmem
  | @unbid dseq bidding sdl manifest _ hbidding hnot =>
    refine .inr ⟨dseq, ?_, fun hpolled hoffered => absurd ⟨?_, ?_⟩ hnot⟩
    · show dseq :: Record.created bidding = [dseq]
      rw [hbidding.quiet.1]
    · exact fun m t hmem => hpolled m t (List.mem_cons_of_mem _ hmem)
    · obtain ⟨bids, took, hmem, hacceptable⟩ := hoffered
      rcases List.mem_cons.mp hmem with heq | hmem
      · cases heq
      · exact ⟨bids, took, hmem, hacceptable⟩
  | @unleased dseq bidding sdl manifest provider err _ gseq oseq hbidding hboth =>
    refine .inr ⟨dseq, ?_, fun _ _ => ⟨gseq, oseq, provider, manifest, err, ?_⟩⟩
    · rw [created_append]
      show dseq :: Record.created bidding ++ [] = [dseq]
      rw [hbidding.quiet.1]
      rfl
    · exact List.mem_append_right _ (List.mem_singleton_self _)

theorem Attempt.created_of_offered (h : Attempt own r) (hoffered : Offered dseq own) :
    dseq ∈ Record.created own := by
  obtain ⟨bids, took, hmem, -⟩ := hoffered
  cases h with
  | unrendered => exact absurd hmem List.not_mem_nil
  | refused => cases List.mem_singleton.mp hmem
  | unbid _ _ _ hbidding =>
    rcases List.mem_cons.mp hmem with heq | hmem
    · cases heq
    · obtain rfl := hbidding.dseq_eq hmem
      exact List.mem_cons_self
  | unleased _ _ _ _ _ _ _ hbidding | leased _ _ _ _ _ hbidding =>
    rcases List.mem_append.mp hmem with hmem | hmem
    · rcases List.mem_cons.mp hmem with heq | hmem
      · cases heq
      · obtain rfl := hbidding.dseq_eq hmem
        exact List.mem_cons_self
    · cases List.mem_singleton.mp hmem

section Accounts

variable {past : Record} {r : Except String DeployResult}

theorem Attempts.created_of_offered (h : Attempts past r) {dseq : String}
    (hoffered : Offered dseq past) : dseq ∈ Record.created past := by
  induction h with
  | gaveUp => exact absurd hoffered not_offered_nil
  | last hown => exact hown.created_of_offered hoffered
  | again hown _ ih =>
    rw [created_append]
    refine List.mem_append.mpr ((offered_append.mp hoffered).imp ?_ ih)
    exact hown.created_of_offered

theorem Attempts.returned_suffix (h : Attempts past r) :
    ∃ left, Record.created past = left ++ returned r := by
  induction h with
  | gaveUp => exact ⟨[], rfl⟩
  | last hown => exact ⟨[], hown.succeeded.1⟩
  | @again own _ _ _ hown _ ih =>
    obtain ⟨left, hleft⟩ := ih
    exact ⟨Record.created own ++ left, by rw [created_append, hleft, List.append_assoc]⟩

theorem Attempts.served (h : Attempts past r) (hcreated : Record.created past = returned r) :
    Served past := by
  induction h with
  | gaveUp => exact (Attempt.unrendered "").failed.elim (fun h => h.2.1) fun ⟨_, h, _⟩ => by cases h
  | last hown => exact hown.succeeded.2
  | @again own rest _ r hown hrest ih =>
    obtain ⟨left, hleft⟩ := hrest.returned_suffix
    rw [created_append, hleft, ← List.append_assoc] at hcreated
    obtain ⟨hnone, rfl⟩ := List.append_eq_nil_iff.mp (List.append_left_eq_self.mp hcreated)
    rcases hown.failed with ⟨-, hserved, -⟩ | ⟨dseq, hone, -⟩
    · exact served_append hserved (ih hleft)
    · rw [hone] at hnone
      cases hnone

/-- When all are served, nothing but the returned deployment was created. -/
theorem Attempts.created_of_served (h : Attempts past r) (hserved : Served past)
    (hdistinct : (Record.created past).Nodup) : Record.created past = returned r := by
  induction h with
  | gaveUp => rfl
  | last hown => exact hown.succeeded.1
  | @again own rest _ r hown hrest ih =>
    rw [created_append] at hdistinct
    rcases hown.failed with ⟨hnone, -, hsilent⟩ | ⟨dseq, hone, hfailed⟩
    · rw [created_append, hnone, List.nil_append]
      refine ih ⟨fun dseq => (polled_append.mp (hserved.polled dseq)).2, fun dseq hdseq => ?_, ?_⟩
        (List.nodup_append.mp hdistinct).2.1
      · have hmem : dseq ∈ Record.created (own ++ rest) := by
          rw [created_append]
          exact List.mem_append_right _ hdseq
        exact (offered_append.mp (hserved.offered dseq hmem)).resolve_left (hsilent dseq)
      · exact fun _ _ _ _ _ _ hmem => hserved.granted _ _ _ _ _ _ (List.mem_append_right _ hmem)
    · exfalso
      have hmem : dseq ∈ Record.created (own ++ rest) := by
        rw [created_append, hone]
        exact List.mem_cons_self
      rcases offered_append.mp (hserved.offered dseq hmem) with hoffered | hoffered
      · obtain ⟨gseq, oseq, provider, manifest, err, hlease⟩ :=
          hfailed (polled_append.mp (hserved.polled dseq)).1 hoffered
        exact hserved.granted _ _ _ _ _ _ (List.mem_append_left _ hlease)
      · -- A later attempt cannot be about the same deployment.
        rw [hone] at hdistinct
        exact (List.nodup_cons.mp hdistinct).1 (hrest.created_of_offered hoffered)

end Accounts

/-- A dispatch with its retries through Akash, for every sequence of answers of the
Console API, which gives every deployment an identifier of its own: the deployments
that are left open are exactly the returned one, or none on error, if and only if the
API serves every deployment that it creates. -/
theorem retries_leave_none_iff (client : Client) (hreal : client.simulate = false)
    (providers : List ProviderKind) (spec : DeploySpec) (hakash : ThroughAkash providers spec)
    (past : Record) (r : Except String DeployResult)
    (hrun : Prog.Runs logs []
      (consoleDispatchWithRetry client providers spec "" Scheduler.maxRetries) r past)
    (hdistinct : (Record.created past).Nodup) :
    Record.openDeployments past = returned r ↔ Served past := by
  obtain ⟨own, hown, hattempts⟩ :=
    hrun.post (wp_consoleDispatchWithRetry hreal hakash "" Scheduler.maxRetries [])
  obtain rfl : past = own := hown
  rw [hattempts.openDeployments]
  exact ⟨hattempts.served, fun hserved => hattempts.created_of_served hserved hdistinct⟩

/-! ## Runs of a dispatch -/

namespace Console

def client : Client := ⟨false, fun _ => .ok "sdl"⟩

def spec : DeploySpec where
  dockerImage := "trainer:latest"
  gpuModel := "a100"
  providerName := ""
  envVars := ∅
  executionID := "exec-1"
  jobID := "job-1"
  controlPlaneURL := "http://control"

theorem throughAkash : ThroughAkash [.akash] spec := by
  have hunnamed : trimSpace spec.providerName = "" := trimSpace_empty
  unfold ThroughAkash
  rw [if_neg (not_not.mpr hunnamed)]
  exact fun provider hprovider => List.mem_singleton.mp hprovider

def api (failing : List String) (past : Record) : (op : Op) → Option (Ans op × Record)
  | .postDeployment sdl =>
    let ans : Ans (.postDeployment sdl) :=
      .ok (if Record.created past = [] then "101" else "102", "manifest")
    some (ans, past ++ [⟨_, ans⟩])
  | .getBids dseq =>
    let ans : Ans (.getBids dseq) :=
      if dseq ∈ failing then (.error "503", 20)
      else (.ok [⟨1, 1, "akash1provider", "open"⟩], 25000)
    some (ans, past ++ [⟨_, ans⟩])
  | .postLease dseq gseq oseq provider manifest =>
    let ans : Ans (.postLease dseq gseq oseq provider manifest) := .ok ()
    some (ans, past ++ [⟨_, ans⟩])
  | .sleep =>
    let ans : Ans .sleep := (0 : Nat)
    some (ans, past ++ [⟨_, ans⟩])
  | .provider _ => none
  | .deleteDeployment _ => none

theorem logs_api {failing : List String} {past past' : Record} {op : Op} {ans : Ans op}
    (h : api failing past op = some (ans, past')) : logs past op ans past' := by
  cases op with
  | provider | deleteDeployment => cases h
  | postDeployment | getBids | postLease | sleep =>
    obtain ⟨rfl, rfl⟩ := Prod.mk.inj (Option.some.inj h)
    rfl

def run (failing : List String) : Option (Except String DeployResult × Record) :=
  (consoleDispatchWithRetry client [.akash] spec "" Scheduler.maxRetries).evaluate (api failing) []

theorem runs_of_run {failing : List String} {r : Except String DeployResult} {past : Record}
    (h : run failing = some (r, past)) :
    Prog.Runs logs [] (consoleDispatchWithRetry client [.akash] spec "" Scheduler.maxRetries) r
      past := by
  have henv : ∀ past op ans past', api failing past op = some (ans, past') →
      logs past op ans past' := fun _ _ _ _ h => logs_api h
  exact Prog.runs_of_evaluate henv h

end Console

theorem retries_leave_none_iff_served :
    ∃ past, Prog.Runs logs []
        (consoleDispatchWithRetry Console.client [.akash] Console.spec "" Scheduler.maxRetries)
        (.ok ⟨"101", "akash", "akash1provider"⟩) past ∧
      Record.openDeployments past = ["101"] ∧ Served past := by
  obtain ⟨past, hpast, hcreated, hopen⟩ : ∃ past, Console.run [] =
      some (.ok ⟨"101", "akash", "akash1provider"⟩, past) ∧ Record.created past = ["101"] ∧
        Record.openDeployments past = ["101"] :=
    ⟨_, by with_unfolding_all rfl, rfl, by with_unfolding_all rfl⟩
  have hruns := Console.runs_of_run hpast
  have hdistinct : (Record.created past).Nodup := by
    rw [hcreated]
    exact List.nodup_singleton _
  exact ⟨past, hruns, hopen, (retries_leave_none_iff Console.client rfl _ _ Console.throughAkash
    past _ hruns hdistinct).mp hopen⟩

/-- The query for bids on the first deployment fails.  The retry succeeds with a second
one, and the first one stays open. -/
theorem failed_deployment_left_open :
    ∃ past, Prog.Runs logs []
        (consoleDispatchWithRetry Console.client [.akash] Console.spec "" Scheduler.maxRetries)
        (.ok ⟨"102", "akash", "akash1provider"⟩) past ∧
      (Record.created past).Nodup ∧ Record.openDeployments past = ["101", "102"] := by
  obtain ⟨past, hpast, hcreated, hopen⟩ : ∃ past, Console.run ["101"] =
      some (.ok ⟨"102", "akash", "akash1provider"⟩, past) ∧
        Record.created past = ["101", "102"] ∧ Record.openDeployments past = ["101", "102"] :=
    ⟨_, by with_unfolding_all rfl, rfl, by decide⟩
  refine ⟨past, Console.runs_of_run hpast, ?_, hopen⟩
  rw [hcreated]
  decide

end Akash
end Skyscale
