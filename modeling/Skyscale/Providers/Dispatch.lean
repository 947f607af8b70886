import Skyscale.Providers.Registry

/-!
# What one call of the job queue worker does

`processOne` runs alone on a scene: the database of the control plane and the `Deploy`
calls made so far.  `Handled` describes everything one call may change, and
`wp_processOne` is the only place where the program is taken apart.

A run has rules: which clock readings are possible, and whether the run is reliable.
In a reliable run no statement of the worker fails without a reason, every dispatch
succeeds, and among jobs with the same rank the one with the smallest primary key is
selected, as `First` of the object mapper does.

The worker sees a dispatch as one operation (`Rules.handles`).  `serves` is the level
below, where the registry turns a dispatch into `Deploy` calls; `wp_registry` and
`wp_dispatching` connect the two.
-/

namespace Skyscale
namespace Providers

open Lib State Control Scheduler Contracts

/-! ## Scenes -/

/-- A `Deploy` call with its answer. -/
structure DeployCall where
  provider : ProviderKind
  spec : DeploySpec
  answer : Except String DeployResult

/-- The database of the control plane and the `Deploy` calls made so far. -/
structure Scene where
  db : Control.World
  deployed : List DeployCall

/-- The rules of a run. -/
structure Rules where
  clock : Int → Prop
  reliable : Prop

/-- The answer is an error without a reason in the database. -/
def Spurious : (op : Control.Op) → Control.Ans op → Prop
  | .sql (.first _ _ _), .error (.other _) => True
  | .sql (.save _ _), .error _ => True
  | .sql (.update _ _ _ _), .error _ => True
  | _, _ => False

/-- `First` selects the smallest key among the rows with the same rank. -/
def TieBroken (db : Control.World) : (op : Control.Op) → Control.Ans op → Prop
  | .sql (.first .jobs where_ rank), .ok job =>
    ∀ other ∈ db.matching .jobs where_, rank other = rank job → job.id ≤ other.id
  | .sql (.first .standbyVMs where_ rank), .ok vm =>
    ∀ other ∈ db.matching .standbyVMs where_, rank other = rank vm → vm.id ≤ other.id
  | _, _ => True

/-- The answer is a possible clock reading. -/
def Reads (clock : Int → Prop) : (op : Control.Op) → Control.Ans op → Prop
  | .now, time => clock time
  | _, _ => True

/-- The rules allow the answer. -/
structure Rules.Allows (rules : Rules) (db : Control.World) (op : Control.Op)
    (ans : Control.Ans op) : Prop where
  reads : Reads rules.clock op ans
  succeeds : rules.reliable → ¬Spurious op ans
  tieBroken : TieBroken db op ans

/-- The `Deploy` calls of a dispatch: all are for the given workload, and one of them
has returned the result. -/
structure Tried (spec : DeploySpec) (calls : List DeployCall) (r : Except String DeployResult) :
    Prop where
  spec_eq : ∀ c ∈ calls, c.spec = spec
  deployed : ∀ result, r = .ok result → ∃ provider, ⟨provider, spec, .ok result⟩ ∈ calls

theorem Tried.nil (spec : DeploySpec) (text : String) : Tried spec [] (.error text) :=
  ⟨fun _ hc => absurd hc List.not_mem_nil, fun _ h => by cases h⟩

theorem Tried.single (provider : ProviderKind) (spec : DeploySpec)
    (ans : Except String DeployResult) : Tried spec [⟨provider, spec, ans⟩] ans := by
  refine ⟨?_, ?_⟩
  · intro c hc
    rw [List.mem_singleton.mp hc]
  · rintro result rfl
    exact ⟨provider, List.mem_singleton_self _⟩

theorem Tried.append {spec : DeploySpec} {calls calls' : List DeployCall}
    {r r' : Except String DeployResult} (h : Tried spec calls r) (h' : Tried spec calls' r') :
    Tried spec (calls ++ calls') r' := by
  refine ⟨?_, ?_⟩
  · intro c hc
    rcases List.mem_append.mp hc with hc | hc
    · exact h.spec_eq c hc
    · exact h'.spec_eq c hc
  · intro result hr
    obtain ⟨provider, hcall⟩ := h'.deployed result hr
    exact ⟨provider, List.mem_append_right _ hcall⟩

/-- The scene after more `Deploy` calls. -/
def Scene.after (s : Scene) (calls : List DeployCall) : Scene :=
  { s with deployed := s.deployed ++ calls }

theorem Scene.after_after (s : Scene) (calls calls' : List DeployCall) :
    (s.after calls).after calls' = s.after (calls ++ calls') := by
  unfold Scene.after
  rw [List.append_assoc]

/-- What an operation of the worker may answer, and the scene it leaves. -/
def Rules.handles (rules : Rules) (s : Scene) :
    (op : Control.Op) → Control.Ans op → Scene → Prop
  | .dispatch spec, r, s' =>
    ∃ calls, Tried spec calls r ∧ s' = s.after calls ∧
      (rules.reliable → ∃ result, r = .ok result)
  | op, ans, s' =>
    ∃ db', Control.exec s.db op ans db' ∧ rules.Allows s.db op ans ∧ s' = { s with db := db' }

/-! ## The registry -/

/-- The same one level below: a dispatch is a sequence of `Deploy` calls, of which those of the
stubs fail. -/
def serves (clock : Int → Prop) (s : Scene) : (op : Op) → Ans op → Scene → Prop
  | .control op, ans, s' =>
    ∃ db', Control.exec s.db op ans db' ∧ (Reads clock op ans ∧ TieBroken s.db op ans) ∧
      s' = { s with db := db' }
  | .deploy provider spec, ans, s' =>
    (provider.stub = true → ans = .error errNotImplemented) ∧
      s' = s.after [⟨provider, spec, ans⟩]

/-- Rules under which everything may fail. -/
def unreliable (clock : Int → Prop) : Rules := ⟨clock, False⟩

section Registry

variable (clock : Int → Prop) (providers : List ProviderKind)

theorem wp_tryProviders (spec : DeploySpec) (lastErr : String) (s : Scene) :
    wp (acting (serves clock)) (tryProviders spec lastErr providers)
      (fun r s' => ∃ calls, Tried spec calls r ∧ s' = s.after calls) s := by
  induction providers generalizing lastErr s with
  | nil => exact ⟨[], Tried.nil spec _, by rw [Scene.after, List.append_nil]⟩
  | cons provider providers ih =>
    intro ans s1 hs1
    obtain rfl : s1 = s.after [⟨provider, spec, ans⟩] := hs1.2
    have hfirst := Tried.single provider spec ans
    rcases ans with err | result
    · refine wp_mono ?_ (ih err _)
      rintro r s' ⟨calls, htried, rfl⟩
      exact ⟨_, hfirst.append htried, Scene.after_after s _ calls⟩
    · exact ⟨_, hfirst, rfl⟩

theorem wp_dispatch (spec : DeploySpec) (s : Scene) :
    wp (acting (serves clock)) (dispatch providers spec)
      (fun r s' => ∃ calls, Tried spec calls r ∧ s' = s.after calls) s := by
  unfold dispatch
  by_cases hnamed : trimSpace spec.providerName ≠ ""
  · rw [if_pos hnamed]
    unfold dispatchTo
    cases newProviderByName spec.providerName with
    | none => exact ⟨[], Tried.nil spec _, by rw [Scene.after, List.append_nil]⟩
    | some provider =>
      intro ans s1 hs1
      exact ⟨_, Tried.single provider spec ans, hs1.2⟩
  · rw [if_neg hnamed]
    exact wp_tryProviders clock providers spec _ s

/-- The registry meets the specification of a dispatch, and leaves other operations
alone. -/
theorem wp_registry (op : Control.Op) (s : Scene) (Q : Control.Ans op → Scene → Prop)
    (h : acting (unreliable clock).handles op s Q) :
    wp (acting (serves clock)) (registry providers op) Q s := by
  cases op with
  | dispatch spec =>
    refine wp_mono ?_ (wp_dispatch clock providers spec s)
    rintro r s' ⟨calls, htried, hs'⟩
    exact h r s' ⟨calls, htried, hs', fun hreliable => hreliable.elim⟩
  | _ =>
    rintro ans s' ⟨db', hexec, ⟨hreads, htie⟩, rfl⟩
    exact h ans _ ⟨db', hexec, ⟨hreads, fun h => h.elim, htie⟩, rfl⟩

theorem wp_dispatching {α : Type} {p : Control.Program α} {Q : α → Scene → Prop} {s : Scene}
    (h : wp (acting (unreliable clock).handles) p Q s) :
    wp (acting (serves clock)) (p.expand (registry providers)) Q s :=
  wp_expand (wp_registry clock providers) h

end Registry

/-! ## Single statements of the worker -/

/-- What a selection by primary key has found. -/
structure Found {ρ : Type} (reliable : Prop) (row : Option ρ) (r : Except Failure ρ) : Prop where
  of_ok : ∀ x, r = .ok x → row = some x
  of_error : reliable → ∀ e, r = .error e → row = none

section Statements

variable {rules : Rules} {s : Scene}

theorem wp_statement {q : Statement schema} {Q : q.Reply → Scene → Prop}
    (h : ∀ ans db', s.db.Exec q ans db' → rules.Allows s.db (.sql q) ans →
      Q ans { s with db := db' }) :
    wp (acting rules.handles) (statement q) Q s := by
  rintro ans s' ⟨db', hexec, hallows, rfl⟩
  exact h ans db' hexec hallows

theorem wp_first {t : schema.Table} {p : schema.Row t → Bool} {rank : schema.Row t → Int × Int}
    {k : schema.Key t} (hp : ∀ r, p r = true ↔ schema.key t r = k) :
    wp (acting rules.handles) (statement (.first t p rank))
      (fun r s' => s' = s ∧ Found rules.reliable (s.db.row t k) r) s := by
  refine wp_statement ?_
  rintro ((_ | text) | r) db' hexec hallows
  · obtain ⟨rfl, hrow⟩ := hexec.row_of_notFound hp
    exact ⟨rfl, fun _ h => (by cases h), fun _ _ _ => hrow⟩
  · obtain rfl : db' = s.db := hexec
    refine ⟨rfl, fun _ h => (by cases h), fun hreliable => ?_⟩
    exact absurd trivial (hallows.succeeds hreliable)
  · obtain ⟨rfl, hrow⟩ := hexec.row_of_first hp
    refine ⟨rfl, fun x h => ?_, fun _ _ h => (by cases h)⟩
    cases h
    exact hrow

theorem wp_getExecution (id : String) :
    wp (acting rules.handles) (getExecution id)
      (fun r s' => s' = s ∧ Found rules.reliable (s.db.row .executions id) r) s :=
  wp_first (t := .executions) fun _ => decide_eq_true_iff

theorem wp_getRLRun (id : String) :
    wp (acting rules.handles) (getRLRun id)
      (fun r s' => s' = s ∧ Found rules.reliable (s.db.row .runs id) r) s :=
  wp_first (t := .runs) fun _ => decide_eq_true_iff

theorem wp_save {t : schema.Table} {row : schema.Row t} :
    wp (acting rules.handles) (statement (.save t row))
      (fun ans s' => ans = .ok () ∧ s' = { s with db := s.db.save t row } ∨
        (∃ e, ans = .error e) ∧ s' = s ∧ ¬rules.reliable) s := by
  refine wp_statement ?_
  rintro (e | _) db' hexec hallows
  · obtain rfl : db' = s.db := hexec
    refine .inr ⟨⟨e, rfl⟩, rfl, fun hreliable => ?_⟩
    exact hallows.succeeds hreliable trivial
  · obtain rfl : db' = s.db.save t row := hexec
    exact .inl ⟨rfl, rfl⟩

theorem wp_now :
    wp (acting rules.handles) (call .now) (fun (now : Int) s' => s' = s ∧ rules.clock now) s := by
  rintro now s' ⟨db', hdb', hallows, rfl⟩
  obtain rfl : db' = s.db := hdb'
  exact ⟨rfl, hallows.reads⟩

theorem key_withStatus (status : JobStatus) (error : String) (item : JobQueueItem) :
    schema.key Table.jobs (JobQueueItem.withStatus status error item) =
      schema.key Table.jobs item :=
  rfl

/-- The database after `UpdateJobStatus`. -/
def withJobStatus (db : Control.World) (id : String) (status : JobStatus) (error : String) :
    Control.World :=
  db.rewrite .jobs (fun item : JobQueueItem => item.id = id)
    (JobQueueItem.withStatus status error) (key_withStatus status error)

theorem wp_updateJobStatus (id : String) (status : JobStatus) (error : String) :
    wp (acting rules.handles) (updateJobStatus id status error)
      (fun _ s' => s' = { s with db := withJobStatus s.db id status error } ∨
        s' = s ∧ ¬rules.reliable) s := by
  refine wp_statement ?_
  rintro (e | _) db' hexec hallows
  · obtain rfl : db' = s.db := hexec
    exact .inr ⟨rfl, fun hreliable => hallows.succeeds hreliable trivial⟩
  · obtain rfl : db' = withJobStatus s.db id status error := hexec
    exact .inl rfl

end Statements

/-! ## The parts of `processOne` -/

/-- `ClaimNextJob` selects the job: of those with the same priority and time, the one with the
smallest key. -/
structure Next (db : Control.World) (job : JobQueueItem) : Prop where
  selects : db.Selects .jobs (fun item : JobQueueItem => item.status = .queued)
    (fun item : JobQueueItem => (-item.priority, item.createdAt)) job
  foremost : ∀ other ∈ db.matching .jobs (fun item : JobQueueItem => item.status = .queued),
    (-other.priority, other.createdAt) = (-job.priority, job.createdAt) → job.id ≤ other.id

/-- The role of a job, from the database. -/
def roleIn (db : Control.World) (item : JobQueueItem) : String :=
  let role := item.envVars.getD "SKYSCALE_ROLE" ""
  if role ≠ "" then role
  else
    match db.row .executions item.executionID with
    | none => ""
    | some (execution : Execution) => execution.jobType

/-- The run of a job. -/
def runOf (item : JobQueueItem) : String := item.envVars.getD "RUN_ID" ""

/-- A job has to wait for the policy server of its run. -/
def Waiting (db : Control.World) (item : JobQueueItem) : Prop :=
  runOf item ≠ "" ∧ roleIn db item ≠ "policy_server" ∧
    ∃ run : RLRun, db.row .runs (runOf item) = some run ∧ run.policyServerURL = ""

/-- The workload of a job. -/
def workload (item : JobQueueItem) : DeploySpec :=
  { dockerImage := item.dockerImage, gpuModel := item.gpuModel
    providerName := item.providerName, envVars := item.envVars
    executionID := item.executionID, jobID := item.id
    controlPlaneURL := item.controlPlaneURL }

/-- A slot of the model that has not expired. -/
def onStandby (now : Int) (gpuModel : String) (vm : StandbyVM) : Bool :=
  vm.gpuModel = gpuModel && vm.status = .standby && now < vm.expiresAt

/-- `ClaimStandbyVM` selects the slot: of those of the same time, the one with the smallest
key. -/
structure Offers (db : Control.World) (now : Int) (gpuModel : String) (slot : StandbyVM) :
    Prop where
  selects : db.Selects .standbyVMs (onStandby now gpuModel)
    (fun vm : StandbyVM => (vm.createdAt, 0)) slot
  foremost : ∀ other ∈ db.matching .standbyVMs (onStandby now gpuModel),
    (other.createdAt, (0 : Int)) = (slot.createdAt, 0) → slot.id ≤ other.id

theorem Offers.congr {db db' : Control.World} {now : Int} {gpuModel : String} {slot : StandbyVM}
    (h : Offers db now gpuModel slot) (hsame : db'.table .standbyVMs = db.table .standbyVMs) :
    Offers db' now gpuModel slot := by
  have hmatching := Database.matching_congr (S := schema) hsame (onStandby now gpuModel)
  refine ⟨(Database.selects_congr (S := schema) hsame).mpr h.selects, fun other hother => ?_⟩
  exact h.foremost other (hmatching ▸ hother)

/-- A job runs on a slot of the warm pool. -/
structure Warm (rules : Rules) (db : Control.World) (item : JobQueueItem) (result : DeployResult) :
    Prop where
  unnamed : item.providerName = ""
  slot : ∃ now slot, rules.clock now ∧ Offers db now item.gpuModel slot ∧
    slot.deploymentID ≠ "" ∧
    result = ⟨slot.deploymentID, slot.providerName, slot.providerAddr⟩

/-- How a call ends for the job it has claimed. -/
inductive Outcome
  | deferred
  | failed (text : String)
  | done (result : DeployResult)

/-- The status it gives the job. -/
def Outcome.status : Outcome → JobStatus
  | deferred => .queued
  | failed _ => .failed
  | done _ => .done

/-- What it writes into the execution of the job. -/
def Outcome.mark : Outcome → Execution → Execution
  | deferred, execution => execution
  | failed text, execution => { execution with status := "error", error := text }
  | done result, execution =>
    { execution with vmID := result.deploymentID, status := "running" }

section Parts

variable {rules : Rules} {s : Scene}

theorem wp_selectJob :
    wp (acting rules.handles)
      (statement (.first .jobs (fun item : JobQueueItem => item.status = .queued)
        (fun item : JobQueueItem => (-item.priority, item.createdAt))))
      (fun (r : Except Failure JobQueueItem) s' => s' = s ∧
        ((∃ e, r = .error e) ∧ (rules.reliable → ∀ job, ¬Next s.db job) ∨
          ∃ job, r = .ok job ∧ Next s.db job)) s := by
  refine wp_statement ?_
  rintro ((_ | text) | job) db' hexec hallows
  · obtain ⟨rfl, hnone⟩ := hexec
    refine ⟨rfl, .inl ⟨⟨_, rfl⟩, fun _ job hjob => ?_⟩⟩
    have hmem := hjob.selects.1
    rw [hnone] at hmem
    exact List.not_mem_nil hmem
  · obtain rfl : db' = s.db := hexec
    exact ⟨rfl, .inl ⟨⟨_, rfl⟩, fun hreliable => absurd trivial (hallows.succeeds hreliable)⟩⟩
  · obtain ⟨rfl, hselects⟩ := hexec
    exact ⟨rfl, .inr ⟨job, rfl, hselects, hallows.tieBroken⟩⟩

theorem wp_claimNextJob :
    wp (acting rules.handles) claimNextJob
      (fun r s' =>
        (∃ e, r = .error e) ∧ s' = s ∧ (rules.reliable → ∀ job, ¬Next s.db job) ∨
        ∃ job : JobQueueItem, Next s.db job ∧
          r = .ok { job with status := .dispatching } ∧
          s' = { s with db := s.db.save .jobs { job with status := .dispatching } }) s := by
  unfold claimNextJob
  refine wp_seq wp_selectJob ?_
  rintro r s' ⟨rfl, ⟨⟨e, rfl⟩, hnone⟩ | ⟨job, rfl, hnext⟩⟩
  · exact .inl ⟨⟨e, rfl⟩, rfl, hnone⟩
  · refine wp_seq wp_save ?_
    rintro ans s' (⟨rfl, rfl⟩ | ⟨⟨e, rfl⟩, rfl, hunreliable⟩)
    · exact .inr ⟨job, hnext, rfl, rfl⟩
    · exact .inl ⟨⟨e, rfl⟩, rfl, fun hreliable => absurd hreliable hunreliable⟩

theorem wp_jobRole (item : JobQueueItem) :
    wp (acting rules.handles) (jobRole item)
      (fun role s' => s' = s ∧ (rules.reliable → role = roleIn s.db item)) s := by
  unfold jobRole roleIn
  by_cases hrole : item.envVars.getD "SKYSCALE_ROLE" "" ≠ ""
  · rw [if_pos hrole, if_pos hrole]
    exact ⟨rfl, fun _ => rfl⟩
  · rw [if_neg hrole, if_neg hrole]
    refine wp_seq (wp_getExecution item.executionID) ?_
    rintro (e | execution) s' ⟨rfl, hfound⟩
    · refine ⟨rfl, fun hreliable => ?_⟩
      rw [hfound.of_error hreliable e rfl]
    · refine ⟨rfl, fun _ => ?_⟩
      rw [hfound.of_ok execution rfl]

theorem wp_mustWait (item : JobQueueItem) (role : String)
    (hrole : rules.reliable → role = roleIn s.db item) :
    wp (acting rules.handles) (mustWait (runOf item) role)
      (fun wait s' => s' = s ∧ (rules.reliable → (wait = true ↔ Waiting s.db item))) s := by
  unfold mustWait
  split
  · rename_i hneeds
    refine wp_seq (wp_getRLRun (runOf item)) ?_
    rintro (e | run) s' ⟨rfl, hfound⟩
    · refine ⟨rfl, fun hreliable => ⟨fun h => (by cases h), ?_⟩⟩
      rintro ⟨-, -, run, hrun, -⟩
      rw [hfound.of_error hreliable e rfl] at hrun
      cases hrun
    · have hrow := hfound.of_ok run rfl
      refine ⟨rfl, fun hreliable => ⟨fun h => ?_, ?_⟩⟩
      · refine ⟨hneeds.1, ?_, run, hrow, of_decide_eq_true h⟩
        rw [← hrole hreliable]
        exact hneeds.2
      · rintro ⟨-, -, run', hrun', hurl⟩
        rw [hrow] at hrun'
        cases hrun'
        exact decide_eq_true hurl
  · rename_i hneeds
    refine ⟨rfl, fun hreliable => ⟨fun h => (by cases h), fun hwaiting => ?_⟩⟩
    refine absurd ⟨hwaiting.1, ?_⟩ hneeds
    rw [hrole hreliable]
    exact hwaiting.2.1

theorem wp_dispatchWithRetry (spec : DeploySpec) (lastErr : String) (attempts : Nat) :
    wp (acting rules.handles) (dispatchWithRetry spec lastErr attempts)
      (fun r s' => ∃ calls, Tried spec calls r ∧ s' = s.after calls ∧
        (rules.reliable → attempts ≠ 0 → ∃ result, r = .ok result)) s := by
  induction attempts generalizing lastErr s with
  | zero =>
    exact ⟨[], Tried.nil spec _, by rw [Scene.after, List.append_nil], fun _ h => absurd rfl h⟩
  | succ attempts ih =>
    rintro r s' ⟨calls, htried, rfl, hreliable⟩
    rcases r with text | result
    · refine wp_mono ?_ (ih text)
      rintro r s' ⟨calls', htried', rfl, -⟩
      refine ⟨_, htried.append htried', Scene.after_after s calls calls', fun h _ => ?_⟩
      obtain ⟨result, hresult⟩ := hreliable h
      cases hresult
    · exact ⟨calls, htried, rfl, fun _ _ => ⟨result, rfl⟩⟩

theorem wp_claimStandbyVM (gpuModel : String) :
    wp (acting rules.handles) (claimStandbyVM gpuModel)
      (fun r s' => (∃ e, r = .error e) ∧ s' = s ∨
        ∃ now slot, rules.clock now ∧ Offers s.db now gpuModel slot ∧
          r = .ok { slot with status := .claimed } ∧
          s' = { s with db := s.db.save .standbyVMs { slot with status := .claimed } }) s := by
  unfold claimStandbyVM
  refine wp_seq wp_now ?_
  rintro now s1 ⟨rfl, hclock⟩
  have hselect : wp (acting rules.handles) (statement (.first .standbyVMs
        (onStandby now gpuModel) (fun vm : StandbyVM => (vm.createdAt, 0))))
      (fun (r : Except Failure StandbyVM) s' => s' = s1 ∧
        ((∃ e, r = .error e) ∨ ∃ slot, r = .ok slot ∧ Offers s1.db now gpuModel slot)) s1 := by
    refine wp_statement ?_
    rintro ((_ | text) | slot) db' hexec hallows
    · obtain ⟨rfl, -⟩ := hexec
      exact ⟨rfl, .inl ⟨_, rfl⟩⟩
    · obtain rfl : db' = s1.db := hexec
      exact ⟨rfl, .inl ⟨_, rfl⟩⟩
    · obtain ⟨rfl, hselects⟩ := hexec
      exact ⟨rfl, .inr ⟨slot, rfl, hselects, hallows.tieBroken⟩⟩
  refine wp_seq hselect ?_
  rintro r s' ⟨rfl, ⟨e, rfl⟩ | ⟨slot, rfl, hoffers⟩⟩
  · exact .inl ⟨⟨e, rfl⟩, rfl⟩
  · refine wp_seq wp_save ?_
    rintro ans s' (⟨rfl, rfl⟩ | ⟨⟨e, rfl⟩, rfl, -⟩)
    · exact .inr ⟨now, slot, hclock, hoffers, rfl, rfl⟩
    · exact .inl ⟨⟨e, rfl⟩, rfl⟩

/-- What a deployment of a job leaves. -/
structure Deployed (rules : Rules) (s : Scene) (item : JobQueueItem)
    (r : Except String DeployResult) (s' : Scene) : Prop where
  writes : s.db.Writes s'.db [.standbyVMs]
  standby : ∀ id, s.db.row .standbyVMs id = none → s'.db.row .standbyVMs id = none
  source : ∃ calls, s'.deployed = s.deployed ++ calls ∧
    (Tried (workload item) calls r ∨
      calls = [] ∧ ∃ result, r = .ok result ∧ Warm rules s.db item result)
  succeeds : rules.reliable → ∃ result, r = .ok result

theorem wp_deploy (item : JobQueueItem) :
    wp (acting rules.handles) (Scheduler.deploy item) (Deployed rules s item) s := by
  -- The cold path, after a claim of a slot that is not used.
  have hcold : ∀ s1 : Scene, s1.deployed = s.deployed → s.db.Writes s1.db [.standbyVMs] →
      (∀ id, s.db.row .standbyVMs id = none → s1.db.row .standbyVMs id = none) →
      wp (acting rules.handles) (dispatchWithRetry (workload item) "" maxRetries)
        (Deployed rules s item) s1 := by
    intro s1 hdeployed hwrites hstandby
    refine wp_mono ?_ (wp_dispatchWithRetry (workload item) "" maxRetries)
    rintro r s' ⟨calls, htried, rfl, hreliable⟩
    refine ⟨hwrites, hstandby, ⟨calls, ?_, .inl htried⟩, fun h => hreliable h (by decide)⟩
    rw [← hdeployed]
    rfl
  unfold Scheduler.deploy
  dsimp only
  by_cases hunnamed : item.providerName = ""
  · rw [if_pos hunnamed]
    refine wp_seq (wp_claimStandbyVM item.gpuModel) ?_
    rintro r s' (⟨⟨e, rfl⟩, rfl⟩ | ⟨now, slot, hclock, hoffers, rfl, rfl⟩)
    · exact hcold _ rfl (.refl _ _) fun _ h => h
    · have hwrites : s.db.Writes (s.db.save .standbyVMs { slot with status := .claimed })
          [.standbyVMs] :=
            Database.Writes.save (S := schema) (t := Table.standbyVMs) _ _ List.mem_cons_self
      have htouches : s.db.Touches (s.db.save .standbyVMs { slot with status := .claimed })
          .standbyVMs slot.id (fun slot : StandbyVM => { slot with status := .claimed }) :=
        Database.Touches.save (S := schema) (t := Table.standbyVMs)
          (f := fun slot : StandbyVM => { slot with status := .claimed })
            hoffers.selects.row_eq.1 rfl
      have hstandby : ∀ id, s.db.row .standbyVMs id = none →
          (s.db.save .standbyVMs { slot with status := .claimed }).row .standbyVMs id = none :=
        fun _ hnone => htouches.row_none hnone
      dsimp only
      split
      · exact hcold _ rfl hwrites hstandby
      · rename_i hid
        refine ⟨hwrites, hstandby, ⟨[], (List.append_nil _).symm, .inr ⟨rfl, _, rfl, ?_⟩⟩, ?_⟩
        · exact ⟨hunnamed, now, slot, hclock, hoffers, hid, rfl⟩
        · exact fun _ => ⟨_, rfl⟩
  · rw [if_neg hunnamed]
    exact hcold _ rfl (.refl _ _) fun _ h => h

/-! ### Rows that are read and written back -/

/-- Only the row with the key was rewritten. -/
structure Amends (s : Scene) (t : schema.Table) (k : schema.Key t)
    (f : schema.Row t → schema.Row t) (s' : Scene) : Prop where
  deployed : s'.deployed = s.deployed
  writes : s.db.Writes s'.db [t]
  touches : s.db.Touches s'.db t k f

theorem Amends.refl (t : schema.Table) (k : schema.Key t) (f : schema.Row t → schema.Row t) :
    Amends s t k f s :=
  ⟨rfl, .refl _ _, .of_table_eq rfl k f⟩

theorem wp_saveRead (rules : Rules) {t : schema.Table} {k : schema.Key t}
    {f : schema.Row t → schema.Row t}
    {r : schema.Row t} (hrow : s.db.row t k = some r) (hkey : schema.key t (f r) = k) :
    wp (acting rules.handles) (statement (.save t (f r))) (fun _ s' => Amends s t k f s') s := by
  refine wp_mono ?_ wp_save
  rintro ans s' (⟨-, rfl⟩ | ⟨-, rfl, -⟩)
  · exact ⟨rfl, .save _ _ List.mem_cons_self, .save hrow hkey⟩
  · exact .refl t k f

theorem wp_saveExecution (rules : Rules) {id : String} (f : Execution → Execution)
    {execution : Execution}
    (hrow : s.db.row .executions id = some execution) (hf : (f execution).id = execution.id) :
    wp (acting rules.handles) (saveExecution (f execution))
      (fun _ s' => Amends s .executions id f s') s :=
  wp_saveRead rules (t := Table.executions) (f := f) hrow
    (hf.trans (s.db.keyed .executions id execution hrow))

theorem wp_markExecFailed (executionID errMsg : String) :
    wp (acting rules.handles) (markExecFailed executionID errMsg)
      (fun _ s' => Amends s .executions executionID (Outcome.failed errMsg).mark s') s := by
  unfold markExecFailed
  refine wp_seq (wp_getExecution executionID) ?_
  rintro (e | execution) s' ⟨rfl, hfound⟩
  · exact .refl (t := .executions) _ _
  · have hsave := wp_saveExecution rules (Outcome.failed errMsg).mark
      (hfound.of_ok execution rfl) rfl
    exact wp_seq hsave fun _ _ h => h

theorem wp_markRunning (item : JobQueueItem) (result : DeployResult) :
    wp (acting rules.handles) (markRunning item result)
      (fun _ s' => Amends s .executions item.executionID (Outcome.done result).mark s') s := by
  unfold markRunning
  refine wp_seq (wp_getExecution item.executionID) ?_
  rintro (e | execution) s' ⟨rfl, hfound⟩
  · exact .refl (t := .executions) _ _
  · have hsave := wp_saveExecution rules (Outcome.done result).mark (hfound.of_ok execution rfl) rfl
    exact wp_seq hsave fun _ _ h => h

theorem wp_recordDeployment (item : JobQueueItem) (result : DeployResult) :
    wp (acting rules.handles) (recordDeployment item result)
      (fun _ s' => s'.deployed = s.deployed ∧ s.db.Writes s'.db [.executions, .vms] ∧
        s.db.Touches s'.db .executions item.executionID (Outcome.done result).mark) s := by
  unfold recordDeployment
  refine wp_seq (wp_markRunning item result) ?_
  intro _ s1 hrunning
  refine wp_seq (wp_save (t := Table.vms)) ?_
  have hwrites : ∀ t : schema.Table, t ∉ [Table.executions, Table.vms] →
      s1.db.table t = s.db.table t := fun t ht =>
    hrunning.writes t fun hmem => ht (List.mem_cons.mpr (.inl (List.mem_singleton.mp hmem)))
  rintro ans s' (⟨-, rfl⟩ | ⟨-, rfl, -⟩)
  · have hsaved : ∀ (t : schema.Table) (vm : VM), t ≠ Table.vms →
        (s1.db.save Table.vms vm).table t = s1.db.table t := fun t vm ht =>
      table_save_of_ne (t := .vms) s1.db vm ht
    refine ⟨hrunning.deployed, fun t ht => ?_, hrunning.touches.congr rfl (hsaved _ _ ?_)⟩
    · refine Eq.trans (hsaved t _ fun heq => ht ?_) (hwrites t ht)
      exact List.mem_cons_of_mem _ (List.mem_singleton.mpr heq)
    · exact fun heq : Table.executions = Table.vms => by cases heq
  · exact ⟨hrunning.deployed, hwrites, hrunning.touches⟩

/-- Write the address of the policy server into a run. -/
def withPolicyServer (url : String) (run : RLRun) : RLRun := { run with policyServerURL := url }

/-- The run of a policy server that has got an address. -/
structure Serves (db : Control.World) (item : JobQueueItem) (result : DeployResult)
    (runID : String) : Prop where
  http : "http".toList.isPrefixOf result.providerAddr.toList = true
  execution : ∃ execution : Execution, db.row .executions item.executionID = some execution ∧
    execution.jobType = "policy_server" ∧ execution.functionID = runID

theorem Serves.execution_of_touches {db db' : Control.World} {item : JobQueueItem}
    {result : DeployResult} {runID : String} {outcome : Outcome} (h : Serves db' item result runID)
    (htouches : db.Touches db' .executions item.executionID outcome.mark) :
    ∃ execution : Execution, db.row .executions item.executionID = some execution ∧
      execution.jobType = "policy_server" ∧ execution.functionID = runID := by
  obtain ⟨execution', hrow, htype, hrun⟩ := h.execution
  rcases htouches item.executionID with hsame | ⟨-, execution, hbefore, hafter⟩
  · exact ⟨execution', hsame.symm.trans hrow, htype, hrun⟩
  · obtain rfl : outcome.mark execution = execution' := Option.some.inj (hafter.symm.trans hrow)
    cases outcome with
    | deferred | failed text | done result => exact ⟨execution, hbefore, htype, hrun⟩

theorem wp_recordPolicyServer (item : JobQueueItem) (result : DeployResult) :
    wp (acting rules.handles) (recordPolicyServer item result)
      (fun _ s' => s' = s ∨ ∃ runID, Serves s.db item result runID ∧
        Amends s .runs runID (withPolicyServer result.providerAddr) s') s := by
  unfold recordPolicyServer
  by_cases hhttp : "http".toList.isPrefixOf result.providerAddr.toList = true
  · rw [if_pos hhttp]
    refine wp_seq (wp_getExecution item.executionID) ?_
    rintro (e | execution) s1 ⟨rfl, hexecution⟩
    · exact .inl rfl
    · dsimp only
      split
      · rename_i htype
        refine wp_seq (wp_getRLRun execution.functionID) ?_
        rintro (e | run) s2 ⟨rfl, hrun⟩
        · exact .inl rfl
        · have hrow := hrun.of_ok run rfl
          have hsave := wp_saveRead rules (t := Table.runs)
            (f := withPolicyServer result.providerAddr) hrow
            (s2.db.keyed .runs execution.functionID run hrow)
          refine wp_seq hsave fun _ s' hamends => ?_
          exact .inr ⟨_, ⟨hhttp, execution, hexecution.of_ok execution rfl, htype, rfl⟩, hamends⟩
      · exact .inl rfl
  · rw [if_neg hhttp]
    exact .inl rfl

end Parts

/-! ## One call -/

/-- The stored job with a key. -/
def jobRow (db : Control.World) (id : String) : Option JobQueueItem := db.row .jobs id

/-- The job has got a status, and a text only if it has failed.  No other job has
changed. -/
def Settled (db db' : Control.World) (job : JobQueueItem) (status : JobStatus) : Prop :=
  ∃ error, (status ≠ .failed → error = job.error) ∧
    ∀ id, jobRow db' id =
      if id = job.id then some { job with status, error } else jobRow db id

/-- Where the deployment of a job comes from. -/
def Outcome.Sourced (rules : Rules) (db : Control.World) (job : JobQueueItem)
    (calls : List DeployCall) : Outcome → Prop
  | deferred => calls = []
  | failed text => Tried (workload job) calls (.error text)
  | done result =>
    Tried (workload job) calls (.ok result) ∨ calls = [] ∧ Warm rules db job result

theorem Outcome.Sourced.spec_eq {rules : Rules} {db : Control.World} {job : JobQueueItem}
    {calls : List DeployCall} {outcome : Outcome} (h : outcome.Sourced rules db job calls) :
    ∀ c ∈ calls, c.spec = workload job := by
  have hnil : calls = [] → ∀ c ∈ calls, c.spec = workload job := by
    rintro rfl c hc
    exact absurd hc List.not_mem_nil
  cases outcome with
  | deferred => exact hnil h
  | failed text => exact Tried.spec_eq h
  | done result =>
    rcases h with htried | ⟨hcalls, -⟩
    · exact htried.spec_eq
    · exact hnil hcalls

/-- Everything a call does for the job it has claimed. -/
structure Handled (rules : Rules) (s : Scene) (job : JobQueueItem) (outcome : Outcome)
    (s' : Scene) : Prop where
  queue : Settled s.db s'.db job outcome.status ∨
    Settled s.db s'.db job .dispatching ∧ ¬rules.reliable
  executions : s.db.Touches s'.db .executions job.executionID outcome.mark
  runs : s'.db.table .runs = s.db.table .runs ∨
    ∃ result runID, outcome = .done result ∧ Serves s.db job result runID ∧
      s.db.Touches s'.db .runs runID (withPolicyServer result.providerAddr)
  standby : ∀ id, s.db.row .standbyVMs id = none → s'.db.row .standbyVMs id = none
  source : ∃ calls, s'.deployed = s.deployed ++ calls ∧ outcome.Sourced rules s.db job calls
  waiting : rules.reliable → (outcome = .deferred ↔ Waiting s.db job)
  succeeds : rules.reliable → ∀ text, outcome ≠ .failed text

/-- The stored jobs after a call are those before it, apart from status and error of
the claimed one. -/
theorem Handled.job_cases {rules : Rules} {s s' : Scene} {job : JobQueueItem} {outcome : Outcome}
    (h : Handled rules s job outcome s') {id : String} {after : JobQueueItem}
    (hafter : jobRow s'.db id = some after) :
    (id = job.id ∧ ∃ status error, after = { job with status, error } ∧
        (status = outcome.status ∨ status = .dispatching ∧ ¬rules.reliable) ∧
        (status ≠ .failed → error = job.error)) ∨
      id ≠ job.id ∧ jobRow s.db id = some after := by
  have hsettled : ∀ status, Settled s.db s'.db job status →
      (id = job.id ∧ ∃ error, after = { job with status, error } ∧
          (status ≠ .failed → error = job.error)) ∨
        id ≠ job.id ∧ jobRow s.db id = some after := by
    rintro status ⟨error, herror, hrows⟩
    have hrow := hrows id
    rw [hafter] at hrow
    by_cases hid : id = job.id
    · rw [if_pos hid] at hrow
      exact .inl ⟨hid, error, Option.some.inj hrow, herror⟩
    · rw [if_neg hid] at hrow
      exact .inr ⟨hid, hrow.symm⟩
  rcases h.queue with hqueue | ⟨hqueue, hunreliable⟩
  · rcases hsettled _ hqueue with ⟨hid, error, rfl, herror⟩ | hother
    · exact .inl ⟨hid, _, error, rfl, .inl rfl, herror⟩
    · exact .inr hother
  · rcases hsettled _ hqueue with ⟨hid, error, rfl, herror⟩ | hother
    · exact .inl ⟨hid, _, error, rfl, .inr ⟨rfl, hunreliable⟩, herror⟩
    · exact .inr hother

section Call

variable {rules : Rules} {s : Scene}

/-- The database after a job was claimed. -/
def claimed (db : Control.World) (job : JobQueueItem) : Control.World :=
  db.save .jobs { job with status := .dispatching }

variable {db db' : Control.World} {job : JobQueueItem} {status : JobStatus}

theorem Settled.congr {db1 : Control.World} (h : Settled db db' job status)
    (h1 : db1.table .jobs = db'.table .jobs) :
    Settled db db1 job status := by
  obtain ⟨error, herror, hrows⟩ := h
  refine ⟨error, herror, fun id => Eq.trans ?_ (hrows id)⟩
  exact row_congr h1 id

theorem settled_claimed (h : db'.table .jobs = (claimed s.db job).table .jobs) :
    Settled s.db db' job .dispatching := by
  refine ⟨job.error, fun _ => rfl, fun id => ?_⟩
  have hrow : jobRow db' id = jobRow (claimed s.db job) id :=
    row_congr h id
  exact hrow.trans (row_save (t := .jobs) s.db _ id)

theorem jobRow_withJobStatus (db : Control.World) (key : String) (status : JobStatus)
    (error id : String) :
    jobRow (withJobStatus db key status error) id =
      if id = key then (jobRow db id).map (JobQueueItem.withStatus status error)
      else jobRow db id :=
  Database.row_rewrite_key (S := schema) (t := Table.jobs) (k := key) db
    (fun item : JobQueueItem => decide_eq_true_iff (p := item.id = key)) _ _ id

theorem settled_withJobStatus (h : db'.table .jobs = (claimed s.db job).table .jobs)
    {error : String} (herror : status ≠ .failed → error = "") :
    Settled s.db (withJobStatus db' job.id status error) job status := by
  obtain ⟨error0, herror0, hrows⟩ := settled_claimed h
  refine ⟨if error = "" then error0 else error, fun hstatus => ?_, fun id => ?_⟩
  · rw [if_pos (herror hstatus)]
    exact herror0 fun h => by cases h
  rw [jobRow_withJobStatus, hrows id]
  by_cases hid : id = job.id
  · rw [if_pos hid, if_pos hid, if_pos hid]
    rfl
  · rw [if_neg hid, if_neg hid, if_neg hid]

theorem roleIn_congr (h : db'.table .executions = db.table .executions) (item : JobQueueItem) :
    roleIn db' item = roleIn db item := by
  have hrow : db'.row .executions item.executionID = db.row .executions item.executionID :=
    row_congr h _
  unfold roleIn
  rw [hrow]

theorem waiting_congr (hexecutions : db'.table .executions = db.table .executions)
    (hruns : db'.table .runs = db.table .runs) (item : JobQueueItem) :
    Waiting db' item ↔ Waiting db item := by
  have hrow : db'.row .runs (runOf item) = db.row .runs (runOf item) :=
    row_congr hruns _
  unfold Waiting
  rw [roleIn_congr hexecutions, hrow]

theorem claimed_writes (db : Control.World) (job : JobQueueItem) :
    db.Writes (claimed db job) [.jobs] :=
  Database.Writes.save (S := schema) (t := Table.jobs) db _ List.mem_cons_self

theorem withJobStatus_writes (db : Control.World) (id : String) (status : JobStatus)
    (error : String) : db.Writes (withJobStatus db id status error) [.jobs] :=
  Database.Writes.rewrite (S := schema) (t := Table.jobs) db List.mem_cons_self

theorem table_of_writes {ts : List Table} (h : db.Writes db' ts) (t : Table)
    (ht : decide (t ∈ ts) = false) : db'.table t = db.table t := by
  have hnot : t ∉ ts := of_decide_eq_false ht
  exact h t hnot

theorem queue_of_update {text : String} {s1 s' : Scene} (htext : status ≠ .failed → text = "")
    (hjobs : s1.db.table .jobs = (claimed s.db job).table .jobs)
    (hs' : s' = { s1 with db := withJobStatus s1.db job.id status text } ∨ s' = s1 ∧
      ¬rules.reliable) :
    (Settled s.db s'.db job status ∨ Settled s.db s'.db job .dispatching ∧ ¬rules.reliable) ∧
      s'.deployed = s1.deployed ∧ s1.db.Writes s'.db [.jobs] := by
  rcases hs' with rfl | ⟨rfl, hunreliable⟩
  · exact ⟨.inl (settled_withJobStatus hjobs htext), rfl, withJobStatus_writes _ _ _ _⟩
  · exact ⟨.inr ⟨settled_claimed hjobs, hunreliable⟩, rfl, .refl _ _⟩

theorem wp_defer (job : JobQueueItem) (hwaiting : rules.reliable → Waiting s.db job) :
    wp (acting rules.handles) (updateJobStatus job.id .queued "")
      (fun _ s' => Handled rules s job .deferred s') { s with db := claimed s.db job } := by
  refine wp_mono ?_ (wp_updateJobStatus job.id .queued "")
  intro _ s' hs'
  obtain ⟨hqueue, hdeployed, hwrites⟩ := queue_of_update (s := s) (fun _ => rfl) rfl hs'
  have hkept : ∀ t, t ≠ Table.jobs → s'.db.table t = s.db.table t := fun t ht =>
    (hwrites t fun hmem => ht (List.mem_singleton.mp hmem)).trans
      (claimed_writes s.db job t fun hmem => ht (List.mem_singleton.mp hmem))
  refine ⟨hqueue, ?_, .inl (hkept _ (by decide)), ?_, ⟨[], ?_, rfl⟩, ?_, fun _ _ h => by cases h⟩
  · exact .of_table_eq (hkept .executions (by decide)) _ _
  · intro id hnone
    exact (row_congr (hkept .standbyVMs (by decide)) id).trans hnone
  · rw [hdeployed, List.append_nil]
  · exact fun hreliable => ⟨fun _ => hwaiting hreliable, fun _ => rfl⟩

theorem Warm.of_claimed {result : DeployResult}
    (h : Warm rules (claimed s.db job) { job with status := .dispatching } result) :
    Warm rules s.db job result := by
  obtain ⟨now, slot, hclock, hoffers, hslot⟩ := h.slot
  have hstandby := table_of_writes (claimed_writes s.db job) .standbyVMs rfl
  exact ⟨h.unnamed, now, slot, hclock, hoffers.congr hstandby.symm, hslot⟩

/-- A deployment after the claim, seen from before the claim. -/
structure DeployedClaim (rules : Rules) (s : Scene) (job : JobQueueItem)
    (r : Except String DeployResult) (s' : Scene) : Prop where
  jobs : s'.db.table .jobs = (claimed s.db job).table .jobs
  writes : s.db.Writes s'.db [.jobs, .standbyVMs]
  standby : ∀ id, s.db.row .standbyVMs id = none → s'.db.row .standbyVMs id = none
  source : ∃ calls, s'.deployed = s.deployed ++ calls ∧
    (Tried (workload job) calls r ∨
      calls = [] ∧ ∃ result, r = .ok result ∧ Warm rules s.db job result)
  succeeds : rules.reliable → ∃ result, r = .ok result

theorem DeployedClaim.of_deployed {r : Except String DeployResult} {s' : Scene}
    (h : Deployed rules { s with db := claimed s.db job } { job with status := .dispatching } r
      s') :
    DeployedClaim rules s job r s' := by
  have hclaimed := claimed_writes s.db job
  refine ⟨table_of_writes h.writes .jobs rfl, fun t ht => ?_, fun id hnone => ?_, ?_, h.succeeds⟩
  · have hstandby : t ∉ [Table.standbyVMs] := fun hmem => ht (List.mem_cons_of_mem _ hmem)
    have hjobs : t ∉ [Table.jobs] := fun hmem =>
      ht (List.mem_cons.mpr (.inl (List.mem_singleton.mp hmem)))
    exact (h.writes t hstandby).trans (hclaimed t hjobs)
  · refine h.standby id ?_
    have hkept := table_of_writes hclaimed .standbyVMs rfl
    exact (row_congr hkept id).trans hnone
  · obtain ⟨calls, hcalls, htried | ⟨hnil, result, hresult, hwarm⟩⟩ := h.source
    · exact ⟨calls, hcalls, .inl htried⟩
    · exact ⟨calls, hcalls, .inr ⟨hnil, result, hresult, hwarm.of_claimed⟩⟩

theorem wp_fail (job : JobQueueItem) {text : String} {s1 : Scene}
    (hdeployed : DeployedClaim rules s job (.error text) s1) :
    wp (acting rules.handles)
      (do
        let _ ← updateJobStatus job.id .failed text
        markExecFailed job.executionID text)
      (fun _ s' => Handled rules s job (.failed text) s') s1 := by
  refine wp_seq (wp_updateJobStatus job.id .failed text) ?_
  intro _ s2 hs2
  obtain ⟨hqueue, hcalls, hwrites⟩ := queue_of_update (fun h => absurd rfl h) hdeployed.jobs hs2
  refine wp_mono ?_ (wp_markExecFailed job.executionID text)
  intro _ s' hmark
  have hunreliable : ¬rules.reliable := fun hreliable => by
    obtain ⟨result, hresult⟩ := hdeployed.succeeds hreliable
    cases hresult
  have hjobs : s'.db.table .jobs = s2.db.table .jobs := table_of_writes hmark.writes .jobs rfl
  have hexecutions : s2.db.table .executions = s.db.table .executions :=
    (table_of_writes hwrites .executions rfl).trans
      (table_of_writes hdeployed.writes .executions rfl)
  refine ⟨?_, ?_, .inl ?_, ?_, ?_, fun h => absurd h hunreliable, fun h => absurd h hunreliable⟩
  · rcases hqueue with hqueue | ⟨hqueue, -⟩
    · exact .inl (hqueue.congr hjobs)
    · exact .inr ⟨hqueue.congr hjobs, hunreliable⟩
  · exact hmark.touches.congr hexecutions rfl
  · calc s'.db.table .runs = s2.db.table .runs := table_of_writes hmark.writes .runs rfl
      _ = s1.db.table .runs := table_of_writes hwrites .runs rfl
      _ = s.db.table .runs := table_of_writes hdeployed.writes .runs rfl
  · intro id hnone
    have hkept : s'.db.table .standbyVMs = s1.db.table .standbyVMs :=
      (table_of_writes hmark.writes .standbyVMs rfl).trans
        (table_of_writes hwrites .standbyVMs rfl)
    exact (row_congr hkept id).trans (hdeployed.standby id hnone)
  · obtain ⟨calls, hcalls', htried | ⟨-, result, hresult, -⟩⟩ := hdeployed.source
    · exact ⟨calls, by rw [hmark.deployed, hcalls, hcalls'], htried⟩
    · cases hresult

theorem wp_complete (job : JobQueueItem) {result : DeployResult} {s1 : Scene}
    (hdeployed : DeployedClaim rules s job (.ok result) s1)
    (hwaiting : rules.reliable → ¬Waiting s.db job) :
    wp (acting rules.handles)
      (do
        recordDeployment { job with status := .dispatching } result
        recordPolicyServer { job with status := .dispatching } result
        let _ ← updateJobStatus job.id .done ""
        return ())
      (fun _ s' => Handled rules s job (.done result) s') s1 := by
  refine wp_seq (wp_recordDeployment _ result) ?_
  rintro _ s2 ⟨hcalls2, hwrites2, hexecutions2⟩
  refine wp_seq (wp_recordPolicyServer _ result) ?_
  intro _ s3 hpolicy
  refine wp_seq (wp_updateJobStatus job.id .done "") ?_
  intro _ s' hs'
  have hwrites3 : s2.db.Writes s3.db [Table.runs] ∧ s3.deployed = s2.deployed := by
    rcases hpolicy with rfl | ⟨runID, -, hamends⟩
    · exact ⟨.refl _ _, rfl⟩
    · exact ⟨hamends.writes, hamends.deployed⟩
  have hjobs : s3.db.table .jobs = (claimed s.db job).table .jobs :=
    calc s3.db.table .jobs = s2.db.table .jobs := table_of_writes hwrites3.1 .jobs rfl
      _ = s1.db.table .jobs := table_of_writes hwrites2 .jobs rfl
      _ = (claimed s.db job).table .jobs := hdeployed.jobs
  obtain ⟨hqueue, hcalls', hwrites'⟩ := queue_of_update (fun _ => rfl) hjobs hs'
  have hexecutions1 := table_of_writes hdeployed.writes .executions rfl
  have hexecutions' : s'.db.table .executions = s2.db.table .executions :=
    (table_of_writes hwrites' .executions rfl).trans
      (table_of_writes hwrites3.1 .executions rfl)
  have hruns2 : s2.db.table .runs = s.db.table .runs :=
    (table_of_writes hwrites2 .runs rfl).trans
      (table_of_writes hdeployed.writes .runs rfl)
  have hruns' := table_of_writes hwrites' .runs rfl
  have hexecutions := hexecutions2.congr hexecutions1 hexecutions'
  refine ⟨hqueue, hexecutions, ?_, ?_, ?_, ?_, fun _ _ h => by cases h⟩
  · rcases hpolicy with rfl | ⟨runID, hserves, hamends⟩
    · exact .inl (hruns'.trans hruns2)
    · refine .inr ⟨result, runID, rfl, ⟨hserves.http, ?_⟩, hamends.touches.congr hruns2 hruns'⟩
      exact hserves.execution_of_touches (hexecutions2.congr hexecutions1 rfl)
  · intro id hnone
    have hkept : s'.db.table .standbyVMs = s1.db.table .standbyVMs :=
      calc s'.db.table .standbyVMs = s3.db.table .standbyVMs :=
            table_of_writes hwrites' .standbyVMs rfl
        _ = s2.db.table .standbyVMs := table_of_writes hwrites3.1 .standbyVMs rfl
        _ = s1.db.table .standbyVMs := table_of_writes hwrites2 .standbyVMs rfl
    exact (row_congr hkept id).trans (hdeployed.standby id hnone)
  · obtain ⟨calls, hcalls1, htried | ⟨hnil, result', hresult, hwarm⟩⟩ := hdeployed.source
    · refine ⟨calls, ?_, .inl htried⟩
      rw [hcalls', hwrites3.2, hcalls2, hcalls1]
    · cases hresult
      refine ⟨calls, ?_, .inr ⟨hnil, hwarm⟩⟩
      rw [hcalls', hwrites3.2, hcalls2, hcalls1]
  · exact fun hreliable => ⟨fun h => (by cases h), fun h => absurd h (hwaiting hreliable)⟩

/-- One call of the worker: nothing was claimed, or the job that was claimed is
handled. -/
theorem wp_processOne :
    wp (acting rules.handles) processOne
      (fun _ s' => s' = s ∧ (rules.reliable → ∀ job, ¬Next s.db job) ∨
        ∃ job outcome, Next s.db job ∧ Handled rules s job outcome s') s := by
  unfold processOne
  refine wp_seq wp_claimNextJob ?_
  rintro r s1 (⟨⟨e, rfl⟩, rfl, hnone⟩ | ⟨job, hnext, rfl, rfl⟩)
  · exact .inl ⟨rfl, hnone⟩
  have hwritten := claimed_writes s.db job
  have hsame : Waiting (claimed s.db job) { job with status := .dispatching } ↔ Waiting s.db job :=
    waiting_congr (table_of_writes hwritten .executions rfl)
      (table_of_writes hwritten .runs rfl) job
  refine wp_seq (wp_jobRole _) ?_
  rintro role s2 ⟨rfl, hrole⟩
  refine wp_seq (wp_mustWait { job with status := .dispatching } role hrole) ?_
  rintro wait s3 ⟨rfl, hwait⟩
  cases wait with
  | true =>
    refine wp_seq (wp_defer job fun hreliable => ?_) ?_
    · exact hsame.mp ((hwait hreliable).mp rfl)
    · exact fun _ s' hhandled => .inr ⟨job, .deferred, hnext, hhandled⟩
  | false =>
    have hwaiting : rules.reliable → ¬Waiting s.db job := fun hreliable hwaits =>
      Bool.false_ne_true ((hwait hreliable).mpr (hsame.mpr hwaits))
    refine wp_seq (wp_deploy _) ?_
    rintro (text | result) s4 hdeployed
    · refine wp_mono ?_ (wp_fail job (.of_deployed hdeployed))
      exact fun _ s' hhandled => .inr ⟨job, _, hnext, hhandled⟩
    · have hcomplete := wp_complete job (.of_deployed hdeployed) hwaiting
      refine wp_mono ?_ hcomplete
      exact fun _ s' hhandled => .inr ⟨job, _, hnext, hhandled⟩

end Call

end Providers
end Skyscale
