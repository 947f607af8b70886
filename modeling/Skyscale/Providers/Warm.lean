import Skyscale.Control.System
import Skyscale.Providers.Dispatch

/-!
# Warm and cold dispatch

The buffer pool of `control-plane/providers/pool.go` deploys a placeholder in advance
(`provision`), and `processOne` hands its slots out to jobs that name no provider.  A
job on a slot is marked done without any `Deploy` call for its own image: calls for
the image are made for every job that is done if and only if no slot is on offer to
the jobs that can be claimed.
-/

namespace Skyscale
namespace Providers

open Lib State Control Scheduler

/-! ## The pool -/

def standbyTTL : Int := 7200000

def saveStandbyVM (vm : StandbyVM) : Control.Program (Except Failure Unit) :=
  statement (.save .standbyVMs vm)

def placeholder (gpuModel execID : String) : DeploySpec where
  dockerImage := "alpine:latest"
  gpuModel
  providerName := ""
  envVars := FinMap.ofList [("STANDBY", "1")]
  executionID := execID
  jobID := execID
  controlPlaneURL := ""

def provision (gpuModel : String) : Control.Program Unit := do
  let millis : Int ← call .now
  let execID := "standby-" ++ gpuModel ++ "-" ++ toString millis
  let result : Except String DeployResult ← call (.dispatch (placeholder gpuModel execID))
  match result with
  | .error _ => return ()
  | .ok result => do
    let createdAt : Int ← call .now
    let now : Int ← call .now
    let _ ← saveStandbyVM
      { id := execID, providerName := result.providerName, providerAddr := result.providerAddr
        gpuModel, deploymentID := result.deploymentID, status := .standby
        createdAt, expiresAt := now + standbyTTL }
    return ()

/-! ## Dispatches -/

/-- One call of the worker, on top of the registry. -/
def Processes (clock : Int → Prop) (providers : List ProviderKind) (s s' : Scene) : Prop :=
  Prog.Runs (serves clock) s (processOne.expand (registry providers)) () s'

/-- The call deploys the job. -/
structure Deploys (c : DeployCall) (job : JobQueueItem) (result : DeployResult) : Prop where
  dockerImage : c.spec.dockerImage = job.dockerImage
  envVars : c.spec.envVars = job.envVars
  executionID : c.spec.executionID = job.executionID
  controlPlaneURL : c.spec.controlPlaneURL = job.controlPlaneURL
  answer : c.answer = .ok result

/-- Between two scenes, a provider has deployed the job, and if the execution of the
job has changed, it has got the deployment that the provider returned. -/
def DeployedBetween (s s' : Scene) (job : JobQueueItem) : Prop :=
  ∃ calls, s'.deployed = s.deployed ++ calls ∧ ∃ c ∈ calls, ∃ result, Deploys c job result ∧
    ∀ execution : Execution, s'.db.row .executions job.executionID = some execution →
      s.db.row .executions job.executionID = some execution ∨
        execution.vmID = result.deploymentID

theorem Processes.cases {clock : Int → Prop} {providers : List ProviderKind} {s s' : Scene}
    (h : Processes clock providers s s') :
    s' = s ∨ ∃ job outcome, Next s.db job ∧ Handled (unreliable clock) s job outcome s' := by
  rcases h.post (wp_dispatching clock providers wp_processOne) with ⟨hsame, -⟩ | hhandled
  · exact .inl hsame
  · obtain ⟨job, outcome, hnext, hhandled⟩ := hhandled
    exact .inr ⟨job, outcome, hnext, hhandled⟩

theorem Handled.done_cases {rules : Rules} {s s' : Scene} {job : JobQueueItem} {outcome : Outcome}
    (h : Handled rules s job outcome s') {id : String} {before after : JobQueueItem}
    (hbefore : jobRow s.db id = some before) (hopen : before.status ≠ .done)
    (hafter : jobRow s'.db id = some after) (hdone : after.status = .done) :
    id = job.id ∧ ∃ result, outcome = .done result := by
  rcases h.job_cases hafter with ⟨hid, status, error, rfl, rfl | ⟨rfl, -⟩, -⟩ | ⟨-, hsame⟩
  · refine ⟨hid, ?_⟩
    cases outcome with
    | deferred => cases hdone
    | failed text => cases hdone
    | done result => exact ⟨result, rfl⟩
  · cases hdone
  · obtain rfl : before = after := Option.some.inj (hbefore.symm.trans hsame)
    exact absurd hdone hopen

theorem Deploys.of_tried {job : JobQueueItem} {calls : List DeployCall} {result : DeployResult}
    (h : Tried (workload job) calls (.ok result)) : ∃ c ∈ calls, Deploys c job result := by
  obtain ⟨provider, hcall⟩ := h.deployed result rfl
  exact ⟨_, hcall, rfl, rfl, rfl, rfl, rfl⟩

theorem Handled.deployedBetween {rules : Rules} {s s' : Scene} {job : JobQueueItem}
    {result : DeployResult} (h : Handled rules s job (.done result) s')
    (hcold : ¬Warm rules s.db job result) : DeployedBetween s s' job := by
  obtain ⟨calls, hcalls, htried | ⟨-, hwarm⟩⟩ := h.source
  · obtain ⟨c, hc, hdeploys⟩ := Deploys.of_tried htried
    refine ⟨calls, hcalls, c, hc, result, hdeploys, fun execution hrow => ?_⟩
    rcases h.executions job.executionID with hsame | ⟨-, execution0, -, hafter⟩
    · exact .inl (hsame.symm.trans hrow)
    · obtain rfl : (Outcome.done result).mark execution0 = execution :=
        Option.some.inj (hafter.symm.trans hrow)
      exact .inr rfl
  · exact absurd hwarm hcold

/-! ## A run on the warm path -/

/-- Operations other than dispatches. -/
def skips (clock : Int → Prop) (s : Scene) (op : Control.Op) (ans : Control.Ans op) (s' : Scene) :
    Prop :=
  (∀ spec, op ≠ .dispatch spec) ∧ serves clock s (.control op) ans s'

section Skips

variable {clock : Int → Prop} {s : Scene}

theorem runs_of_skips {α : Type} {p : Control.Program α} {a : α} {s' : Scene}
    (h : Prog.Runs (skips clock) s p a s') (providers : List ProviderKind) :
    Prog.Runs (serves clock) s (p.expand (registry providers)) a s' := by
  refine h.expand ?_
  rintro s op ans s' ⟨hnot, hserves⟩
  cases op with
  | dispatch spec => exact absurd rfl (hnot spec)
  | _ => exact .perform hserves

theorem runs_statement {q : Statement schema} {ans : q.Reply} {db' : Control.World}
    (h : s.db.Exec q ans db') (htie : TieBroken s.db (.sql q) ans) :
    Prog.Runs (skips clock) s (statement q) ans { s with db := db' } :=
  .perform ⟨fun _ h => (by cases h), db', h, ⟨trivial, htie⟩, rfl⟩

theorem runs_getExecution (id : String) :
    Prog.Runs (skips clock) s (getExecution id) (.error (.other "")) s :=
  runs_statement (s := s) rfl trivial

theorem runs_getRLRun (id : String) :
    Prog.Runs (skips clock) s (getRLRun id) (.error (.other "")) s :=
  runs_statement (s := s) rfl trivial

theorem runs_jobRole (item : JobQueueItem) :
    ∃ role, Prog.Runs (skips clock) s (jobRole item) role s := by
  unfold jobRole
  dsimp only
  split
  · exact ⟨_, .ret s _⟩
  · exact ⟨"", (runs_getExecution item.executionID).bind (.ret s _)⟩

theorem runs_mustWait (runID role : String) :
    Prog.Runs (skips clock) s (mustWait runID role) false s := by
  unfold mustWait
  split
  · exact (runs_getRLRun runID).bind (.ret s _)
  · exact .ret s _

theorem runs_claimNextJob {job : JobQueueItem} (hnext : Next s.db job) :
    Prog.Runs (skips clock) s claimNextJob (.ok { job with status := .dispatching })
      { s with db := claimed s.db job } := by
  have hselect : Prog.Runs (skips clock) s
      (statement (.first .jobs (fun item : JobQueueItem => item.status = .queued)
        (fun item : JobQueueItem => (-item.priority, item.createdAt))))
      (.ok job : Except Failure JobQueueItem) s :=
    runs_statement ⟨rfl, hnext.selects⟩ hnext.foremost
  have hsave : Prog.Runs (skips clock) s
      (statement (.save .jobs { job with status := .dispatching })) (.ok () : Except Failure Unit)
      { s with db := claimed s.db job } := runs_statement rfl trivial
  exact hselect.bind (hsave.bind (.ret _ _))

theorem runs_claimStandbyVM {gpuModel : String} {now : Int} (hclock : clock now)
    {slot : StandbyVM} (hoffers : Offers s.db now gpuModel slot) :
    Prog.Runs (skips clock) s (claimStandbyVM gpuModel) (.ok { slot with status := .claimed })
      { s with db := s.db.save .standbyVMs { slot with status := .claimed } } := by
  have hnow : skips clock s .now now s :=
    ⟨fun _ h => (by cases h), s.db, rfl, ⟨hclock, trivial⟩, rfl⟩
  have hselect : Prog.Runs (skips clock) s (statement (.first .standbyVMs
        (onStandby now gpuModel) (fun vm : StandbyVM => (vm.createdAt, 0))))
      (.ok slot : Except Failure StandbyVM) s :=
    runs_statement ⟨rfl, hoffers.selects⟩ hoffers.foremost
  have hsave : Prog.Runs (skips clock) s
      (statement (.save .standbyVMs { slot with status := .claimed }))
      (.ok () : Except Failure Unit)
      { s with db := s.db.save .standbyVMs { slot with status := .claimed } } :=
    runs_statement rfl trivial
  exact .call hnow (hselect.bind (hsave.bind (.ret _ _)))

theorem runs_deploy {item : JobQueueItem} (hunnamed : item.providerName = "") {now : Int}
    (hclock : clock now) {slot : StandbyVM} (hoffers : Offers s.db now item.gpuModel slot)
    (hid : slot.deploymentID ≠ "") :
    Prog.Runs (skips clock) s (Scheduler.deploy item)
      (.ok ⟨slot.deploymentID, slot.providerName, slot.providerAddr⟩)
      { s with db := s.db.save .standbyVMs { slot with status := .claimed } } := by
  unfold Scheduler.deploy
  dsimp only
  rw [if_pos hunnamed]
  refine (runs_claimStandbyVM hclock hoffers).bind ?_
  show Prog.Runs _ _ (if slot.deploymentID = "" then _ else _) _ _
  rw [if_neg hid]
  exact .ret _ _

theorem runs_recordDeployment (item : JobQueueItem) (result : DeployResult) :
    Prog.Runs (skips clock) s (recordDeployment item result) () s := by
  have hfails : ∀ vm, Prog.Runs (skips clock) s (saveVM vm) (.error (.other "")) s :=
    fun _ => runs_statement (s := s) rfl trivial
  have hmark : Prog.Runs (skips clock) s (markRunning item result) () s :=
    (runs_getExecution item.executionID).bind (.ret s _)
  exact hmark.bind ((hfails _).bind (.ret s _))

theorem runs_recordPolicyServer (item : JobQueueItem) (result : DeployResult) :
    Prog.Runs (skips clock) s (recordPolicyServer item result) () s := by
  unfold recordPolicyServer
  split
  · exact (runs_getExecution item.executionID).bind (.ret s _)
  · exact .ret s _

end Skips

/-- A job on a slot: it is done, and no provider was called.  In this run the store
fails wherever it is allowed to. -/
theorem exists_warm_run (clock : Int → Prop) {s : Scene} {job : JobQueueItem}
    (hnext : Next s.db job)
    (hunnamed : job.providerName = "") {now : Int} (hclock : clock now) {slot : StandbyVM}
    (hoffers : Offers s.db now job.gpuModel slot) (hid : slot.deploymentID ≠ "")
    (providers : List ProviderKind) :
    ∃ s', Processes clock providers s s' ∧ s'.deployed = s.deployed ∧
      ∃ done, jobRow s'.db job.id = some done ∧ done.status = .done := by
  have hstandby := table_of_writes (claimed_writes s.db job) .standbyVMs rfl
  have hoffers' : Offers (claimed s.db job) now job.gpuModel slot := hoffers.congr hstandby
  let s1 : Scene := { s with db := claimed s.db job }
  let s2 : Scene :=
    { s with db := (claimed s.db job).save .standbyVMs { slot with status := .claimed } }
  let s3 : Scene := { s with db := withJobStatus s2.db job.id .done "" }
  obtain ⟨role, hrole⟩ : ∃ role, Prog.Runs (skips clock) s1
      (jobRole { job with status := .dispatching }) role s1 := runs_jobRole _
  have hupdate : Prog.Runs (skips clock) s2 (updateJobStatus job.id .done "") (.ok ()) s3 :=
    runs_statement (s := s2) rfl trivial
  have hlast : Prog.Runs (skips clock) s2
      (do let _ ← updateJobStatus job.id .done ""; return ()) () s3 := hupdate.bind (.ret s3 ())
  refine ⟨s3, runs_of_skips ((runs_claimNextJob hnext).bind (hrole.bind
    ((runs_mustWait (s := s1) _ role).bind
      ((runs_deploy (s := s1) hunnamed hclock hoffers' hid).bind
        ((runs_recordDeployment _ _).bind ((runs_recordPolicyServer _ _).bind hlast)))))) providers,
    rfl, ?_⟩
  have hjobs : s2.db.table .jobs = (claimed s.db job).table .jobs :=
    table_save_of_ne (t := .standbyVMs) _ _
      (fun h : Table.jobs = Table.standbyVMs => by cases h)
  obtain ⟨error, -, hrows⟩ : Settled s.db s3.db job .done :=
    settled_withJobStatus hjobs fun _ => rfl
  exact ⟨_, (hrows job.id).trans (if_pos rfl), rfl⟩

/-- Whenever one call of the worker sets a job to done, some provider has deployed the
job's image, environment, execution and control plane address, and the execution has
got that deployment, if and only if no slot of the warm pool with a deployment is on
offer to a job that can be claimed and names no provider. -/
theorem done_deployed_iff (providers : List ProviderKind) (s : Scene) (now : Int) :
    (∀ s', Processes (· = now) providers s s' → ∀ id before after,
      jobRow s.db id = some before → before.status ≠ .done →
      jobRow s'.db id = some after → after.status = .done → DeployedBetween s s' before) ↔
    ∀ job, Next s.db job → job.providerName = "" →
      ∀ slot, Offers s.db now job.gpuModel slot → slot.deploymentID = "" := by
  constructor
  · intro hdeployed job hnext hunnamed slot hoffers
    by_contra hid
    obtain ⟨s', hprocesses, hcalls, done, hrow, hdone⟩ :
        ∃ s', Processes (· = now) providers s s' ∧ s'.deployed = s.deployed ∧
          ∃ done, jobRow s'.db job.id = some done ∧ done.status = .done :=
      exists_warm_run (· = now) hnext hunnamed rfl hoffers hid providers
    obtain ⟨hbefore, hqueued⟩ := hnext.selects.row_eq
    have hopen : job.status ≠ .done := by
      rw [of_decide_eq_true hqueued]
      exact fun h => by cases h
    obtain ⟨calls, happend, c, hc, -⟩ :=
      hdeployed s' hprocesses job.id job done hbefore hopen hrow hdone
    rw [hcalls] at happend
    rw [List.self_eq_append_right.mp happend] at hc
    exact List.not_mem_nil hc
  · intro hempty s' hprocesses id before after hbefore hopen hafter hdone
    rcases hprocesses.cases with rfl | ⟨job, outcome, hnext, hhandled⟩
    · rw [hbefore] at hafter
      cases hafter
      exact absurd hdone hopen
    · obtain ⟨rfl, result, rfl⟩ := hhandled.done_cases hbefore hopen hafter hdone
      obtain rfl : before = job := Option.some.inj (hbefore.symm.trans hnext.selects.row_eq.1)
      refine hhandled.deployedBetween fun hwarm => ?_
      obtain ⟨time, slot, rfl, hoffers, hid, -⟩ := hwarm.slot
      exact hid (hempty before hnext hwarm.unnamed slot hoffers)

/-! ## A job on a slot -/

namespace WarmPool

def job : JobQueueItem where
  id := "job-1"
  executionID := "exec-1"
  dockerImage := "trainer:latest"
  gpuModel := "a100"
  providerName := ""
  envVars := ∅
  controlPlaneURL := "http://control"
  priority := 0
  status := .queued
  error := ""
  createdAt := 0

def start : Scene :=
  ⟨((Database.empty : Control.World).save .jobs job).save .executions
    { (default : Execution) with id := "exec-1", status := "queued" }, []⟩

/-- A selection has at most one row to choose. -/
def unambiguous (db : Control.World) : Control.Op → Bool
  | .sql (.first t p _) => (db.matching t p).tail.isEmpty
  | _ => true

theorem eq_of_tail_isEmpty {α : Type} {xs : List α} (h : xs.tail.isEmpty = true) {a b : α}
    (ha : a ∈ xs) (hb : b ∈ xs) : a = b := by
  rcases xs with - | ⟨x, - | ⟨y, rest⟩⟩
  · cases ha
  · rw [List.mem_singleton.mp ha, List.mem_singleton.mp hb]
  · cases h

theorem tieBroken_of_unambiguous {db db' : Control.World} {op : Control.Op} {ans : Control.Ans op}
    (h : unambiguous db op = true) (hexec : Control.exec db op ans db') : TieBroken db op ans := by
  unfold TieBroken
  split
  · intro other hother _
    have hsame := eq_of_tail_isEmpty h hother hexec.2.1
    exact hsame ▸ le_refl _
  · intro other hother _
    have hsame := eq_of_tail_isEmpty h hother hexec.2.1
    exact hsame ▸ le_refl _
  · trivial

def answering (s : Scene) : (op : Op) → Option (Ans op × Scene)
  | .control op =>
    if unambiguous s.db op then
      (environment agreeable s.db op).map fun r => (r.1, { s with db := r.2 })
    else none
  | .deploy provider spec =>
    if provider.stub then none
    else some (.ok ⟨"d-1", "modal", "10.0.0.1"⟩,
      s.after [⟨provider, spec, .ok ⟨"d-1", "modal", "10.0.0.1"⟩⟩])

theorem serves_answering {s s' : Scene} {op : Op} {ans : Ans op}
    (h : answering s op = some (ans, s')) : serves (· = 0) s op ans s' := by
  unfold answering at h
  cases op with
  | control op =>
    dsimp only at h
    split at h
    · rename_i hone
      obtain ⟨⟨ans', db'⟩, henv, heq⟩ := Option.map_eq_some_iff.mp h
      cases heq
      have hexec := exec_environment henv
      refine ⟨db', hexec, ⟨?_, tieBroken_of_unambiguous hone hexec⟩, rfl⟩
      cases op with
      | now =>
        cases henv
        rfl
      | _ => trivial
    · cases h
  | deploy provider spec =>
    dsimp only at h
    split at h
    · cases h
    · rename_i hwired
      cases h
      exact ⟨fun hstub => absurd hstub hwired, rfl⟩

theorem runs_of_answering {p : Control.Program Unit} {s s' : Scene}
    (h : (p.expand (registry [.modal])).evaluate answering s = some ((), s')) :
    Prog.Runs (serves (· = 0)) s (p.expand (registry [.modal])) () s' := by
  have henv : ∀ s op ans s', answering s op = some (ans, s') → serves (· = 0) s op ans s' :=
    fun _ _ _ _ h => serves_answering h
  exact Prog.runs_of_evaluate henv h

end WarmPool

/-- The pool provisions a slot, and the worker sets the job to done on it.  The only
`Deploy` call was for the placeholder. -/
theorem warm_job_not_deployed :
    ∃ s1 s2, Prog.Runs (serves (· = 0)) WarmPool.start
        ((provision "a100").expand (registry [.modal])) () s1 ∧
      Processes (· = 0) [.modal] s1 s2 ∧
      (jobRow s1.db "job-1").map (·.status) = some .queued ∧
      (jobRow s2.db "job-1").map (·.status) = some .done ∧
      s2.deployed.map (·.spec.dockerImage) = ["alpine:latest"] ∧
      ¬DeployedBetween s1 s2 WarmPool.job := by
  obtain ⟨s1, s2, hprovision, hprocess, hbefore, hafter, himages, hsame⟩ : ∃ s1 s2,
      ((provision "a100").expand (registry [.modal])).evaluate WarmPool.answering WarmPool.start =
        some ((), s1) ∧
      (processOne.expand (registry [.modal])).evaluate WarmPool.answering s1 = some ((), s2) ∧
      (jobRow s1.db "job-1").map (·.status) = some .queued ∧
      (jobRow s2.db "job-1").map (·.status) = some .done ∧
      s2.deployed.map (·.spec.dockerImage) = ["alpine:latest"] ∧
      s2.deployed = s1.deployed :=
    ⟨_, _, by with_unfolding_all rfl, by with_unfolding_all rfl, by with_unfolding_all rfl,
      by with_unfolding_all rfl, by with_unfolding_all rfl, by with_unfolding_all rfl⟩
  refine ⟨s1, s2, WarmPool.runs_of_answering hprovision, WarmPool.runs_of_answering hprocess,
    hbefore, hafter, himages, ?_⟩
  rintro ⟨calls, hcalls, c, hc, -⟩
  rw [hsame] at hcalls
  rw [List.self_eq_append_right.mp hcalls] at hc
  exact List.not_mem_nil hc

end Providers
end Skyscale
