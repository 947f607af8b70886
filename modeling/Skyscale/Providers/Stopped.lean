import Skyscale.Providers.Warm

/-!
# Jobs of a stopped run

`rlStopRunHandler` of `control-plane/api/rl.go` sets the status of a run and of its
executions, and does not look at the queue.  A job of the run that is queued when the
handler completes is still deployed by a later call of the worker, and its execution is
set to running again.  Without such a job, nothing of the run is started any more.
-/

namespace Skyscale
namespace Providers

open Lib State Control Scheduler RL

/-- The stored execution with a key. -/
def executionRow (db : Control.World) (id : String) : Option Execution := db.row .executions id

/-- A job of the run: by its environment, or by its execution. -/
def OfRun (db : Control.World) (runID : String) (job : JobQueueItem) : Prop :=
  job.envVars.get "RUN_ID" = some runID ∨
    ∃ execution, executionRow db job.executionID = some execution ∧ execution.functionID = runID

/-- No queued job is of the run. -/
def Cleared (db : Control.World) (runID : String) : Prop :=
  ∀ id job, jobRow db id = some job → job.status = .queued → ¬OfRun db runID job

/-- Nothing of the run is started: no job of it is deployed, by a provider or on a slot,
and no execution of it changes to running. -/
structure StartsNothing (runID : String) (s s' : Scene) : Prop where
  calls : ∀ calls, s'.deployed = s.deployed ++ calls →
    ∀ c ∈ calls, c.spec.envVars.get "RUN_ID" ≠ some runID
  jobs : ∀ id before after, jobRow s.db id = some before →
    before.envVars.get "RUN_ID" = some runID → jobRow s'.db id = some after →
    after.status = .done → before.status = .done
  executions : ∀ id before after, executionRow s.db id = some before →
    before.functionID = runID → executionRow s'.db id = some after →
    after.status = "running" → before.status = "running"

/-! ## The stop handler -/

/-- No execution has got another run. -/
def KeepsRuns (db db' : Control.World) : Prop :=
  ∀ id after, executionRow db' id = some after →
    ∃ before, executionRow db id = some before ∧ before.functionID = after.functionID

theorem KeepsRuns.refl (db : Control.World) : KeepsRuns db db := fun _ after h => ⟨after, h, rfl⟩

variable {db db' : Control.World} {runID : String}

theorem KeepsRuns.trans {db1 : Control.World} (h : KeepsRuns db db1) (h' : KeepsRuns db1 db') :
    KeepsRuns db db' := by
  intro id after hafter
  obtain ⟨mid, hmid, hrun⟩ := h' id after hafter
  obtain ⟨before, hbefore, hrun'⟩ := h id mid hmid
  exact ⟨before, hbefore, hrun'.trans hrun⟩

theorem KeepsRuns.of_touches {id : String} {f : Execution → Execution}
    (h : db.Touches db' .executions id f) (hf : ∀ e, (f e).functionID = e.functionID) :
    KeepsRuns db db' := by
  intro id' after hafter
  rcases h id' with hsame | ⟨-, before, hbefore, hrow⟩
  · exact ⟨after, hsame.symm.trans hafter, rfl⟩
  · obtain rfl : f before = after := Option.some.inj (hrow.symm.trans hafter)
    exact ⟨before, hbefore, (hf before).symm⟩

theorem KeepsRuns.ofRun {job : JobQueueItem} (h : KeepsRuns db db') (hjob : OfRun db' runID job) :
    OfRun db runID job := by
  rcases hjob with henv | ⟨after, hafter, hrun⟩
  · exact .inl henv
  · obtain ⟨before, hbefore, hsame⟩ := h _ after hafter
    exact .inr ⟨before, hbefore, hsame.trans hrun⟩

/-- The queue is as before, and executions keep their runs. -/
structure LeavesQueue (s s' : Scene) : Prop where
  jobs : s'.db.table .jobs = s.db.table .jobs
  executions : KeepsRuns s.db s'.db

theorem LeavesQueue.refl (s : Scene) : LeavesQueue s s := ⟨rfl, .refl _⟩

theorem LeavesQueue.trans {s s1 s' : Scene} (h : LeavesQueue s s1) (h' : LeavesQueue s1 s') :
    LeavesQueue s s' :=
  ⟨h'.jobs.trans h.jobs, h.executions.trans h'.executions⟩

theorem LeavesQueue.cleared {s s' : Scene} (h : LeavesQueue s s') (hclear : Cleared s.db runID) :
    Cleared s'.db runID := by
  intro id job hrow hqueued hof
  have hsame : jobRow s'.db id = jobRow s.db id :=
    row_congr h.jobs id
  exact hclear id job (hsame.symm.trans hrow) hqueued (h.executions.ofRun hof)

section Stop

variable {rules : Rules} {s : Scene}

theorem wp_stopExecution (id : String) :
    wp (acting rules.handles) (stopExecution id) (fun _ s' => LeavesQueue s s') s := by
  unfold stopExecution
  refine wp_seq (wp_getExecution id) ?_
  rintro (e | execution) s1 ⟨rfl, hfound⟩
  · exact .refl _
  · dsimp only
    split
    · have hsave := wp_saveExecution rules
        (fun execution => { execution with status := "stopped" }) (hfound.of_ok execution rfl) rfl
      refine wp_seq hsave fun _ s' hamends => ?_
      refine ⟨table_of_writes hamends.writes .jobs rfl, ?_⟩
      exact .of_touches hamends.touches fun _ => rfl
    · exact .refl _

theorem wp_rlStopRun (id : String) :
    wp (acting rules.handles) (rlStopRun id) (fun _ s' => LeavesQueue s s') s := by
  -- Saving the run changes neither the queue nor the executions.
  have hsave : ∀ run, wp (acting rules.handles) (saveRLRun run)
      (fun _ s' => LeavesQueue s s') s := by
    intro run
    refine wp_mono ?_ wp_save
    rintro ans s' (⟨-, rfl⟩ | ⟨-, rfl, -⟩)
    · have hwrites : s.db.Writes (s.db.save .runs run) [.runs] :=
        Database.Writes.save (S := schema) (t := Table.runs) _ _ List.mem_cons_self
      refine ⟨table_of_writes hwrites .jobs rfl, ?_⟩
      intro id after hafter
      have hkept := table_of_writes hwrites .executions rfl
      have hrow := row_congr hkept id
      exact ⟨after, hrow.symm.trans hafter, rfl⟩
    · exact .refl _
  unfold rlStopRun withRLRun
  refine wp_seq (wp_getRLRun id) ?_
  rintro (e | run) s1 ⟨rfl, -⟩
  · exact .refl _
  · dsimp only
    split
    · unfold savingRLRun
      refine wp_seq (hsave _) ?_
      rintro (e | _) s' hleaves
      · exact hleaves
      · exact hleaves
    · refine wp_seq (hsave _) fun _ s2 hleaves => ?_
      refine wp_seq (wp_forEach LeavesQueue.refl LeavesQueue.trans
          (fun id s => wp_stopExecution id) _ s2) fun _ s' hloop => ?_
      exact hleaves.trans hloop

end Stop

/-! ## The worker afterwards -/

/-- One call of the worker, from a state in which no queued job is of the run. -/
theorem Handled.startsNothing {rules : Rules} {s s' : Scene} {job : JobQueueItem}
    {outcome : Outcome} (h : Handled rules s job outcome s') (hnext : Next s.db job)
    (hclear : Cleared s.db runID) :
    StartsNothing runID s s' ∧ Cleared s'.db runID := by
  obtain ⟨hrow, hqueued⟩ := hnext.selects.row_eq
  have hnot : ¬OfRun s.db runID job := hclear job.id job hrow (of_decide_eq_true hqueued)
  have hkeeps : KeepsRuns s.db s'.db := by
    refine .of_touches h.executions fun execution => ?_
    cases outcome with
    | deferred | failed | done => rfl
  refine ⟨⟨?_, ?_, ?_⟩, ?_⟩
  · intro calls hcalls c hc henv
    refine hnot (.inl ?_)
    obtain ⟨calls', hcalls', hsourced⟩ := h.source
    obtain rfl : calls' = calls := List.append_cancel_left (hcalls'.symm.trans hcalls)
    rw [hsourced.spec_eq c hc] at henv
    exact henv
  · intro id before after hbefore henv hafter hdone
    by_contra hopen
    obtain ⟨rfl, -⟩ := h.done_cases hbefore hopen hafter hdone
    obtain rfl : before = job := Option.some.inj (hbefore.symm.trans hrow)
    exact hnot (.inl henv)
  · intro id before after hbefore hrun hafter hrunning
    rcases h.executions id with hsame | ⟨rfl, execution, hexecution, -⟩
    · obtain rfl : before = after := Option.some.inj (hbefore.symm.trans (hsame.symm.trans hafter))
      exact hrunning
    · exact absurd (.inr ⟨before, hbefore, hrun⟩) hnot
  · intro id after hafter hstill hof
    have hof' := hkeeps.ofRun hof
    rcases h.job_cases hafter with ⟨-, status, error, rfl, -⟩ | ⟨-, hsame⟩
    · exact hnot hof'
    · exact hclear id after hsame hstill hof'

/-- Calls of the worker one after the other. -/
def Calls (clock : Int → Prop) (providers : List ProviderKind) (s : Scene) (_ : Unit) (s' : Scene) :
    Prop :=
  Processes clock providers s s'

theorem Processes.startsNothing {clock : Int → Prop} {providers : List ProviderKind} {s s' : Scene}
    (h : Processes clock providers s s') (hclear : Cleared s.db runID) :
    StartsNothing runID s s' ∧ Cleared s'.db runID := by
  rcases h.cases with rfl | ⟨job, outcome, hnext, hhandled⟩
  · refine ⟨⟨?_, ?_, ?_⟩, hclear⟩
    · intro calls hcalls c hc
      rw [List.self_eq_append_right.mp hcalls] at hc
      exact absurd hc List.not_mem_nil
    · intro id before after hbefore _ hafter hdone
      obtain rfl : before = after := Option.some.inj (hbefore.symm.trans hafter)
      exact hdone
    · intro id before after hbefore _ hafter hrunning
      obtain rfl : before = after := Option.some.inj (hbefore.symm.trans hafter)
      exact hrunning
  · exact hhandled.startsNothing hnext hclear

/-- The `DELETE` request for a run is served, from a state in which no queued job is of
the run.  Then no call of the worker in any later sequence of calls deploys a job of
the run or sets an execution of the run to running. -/
theorem stopped_run_starts_nothing (clock : Int → Prop) (providers : List ProviderKind)
    (runID : String) (s0 s1 s s' : Scene) (response : Response) (calls : List Unit)
    (hclear : Cleared s0.db runID)
    (hstop : Prog.Runs (serves clock) s0 ((rlStopRun runID).expand (registry providers)) response
      s1)
    (hcalls : Run (Calls clock providers) s1 calls s) (hcall : Processes clock providers s s') :
    StartsNothing runID s s' := by
  have hstopped : Cleared s1.db runID :=
    (hstop.post (wp_dispatching clock providers (wp_rlStopRun runID))).cleared hclear
  have hlater : Cleared s.db runID := hcalls.invariant (I := fun s => Cleared s.db runID) hstopped
      fun _ _ _ hclear hstep => (Processes.startsNothing hstep hclear).2
  exact (hcall.startsNothing hlater).1

/-! ## A run with a queued worker -/

namespace Stopping

def run (id : String) (workers : List String) : RLRun :=
  { (default : RLRun) with
    id, status := .running, policyServerURL := "http://policy", workerExecIDs := workers }

def worker (runID : String) : JobQueueItem :=
  { WarmPool.job with
    envVars := FinMap.ofList [("RUN_ID", runID), ("SKYSCALE_ROLE", "rl_worker")] }

def execution (id runID status : String) : Execution :=
  { (default : Execution) with id, functionID := runID, status, jobType := "rl_worker" }

/-- `rl-1` has a running worker, and another one is queued for the given run. -/
def queued (runID : String) : Control.World :=
  (((Database.empty : Control.World).save .runs (run "rl-1" ["exec-0"])).save .runs
    (run runID (if runID = "rl-1" then ["exec-0", "exec-1"] else ["exec-1"]))).save .jobs
      (worker runID)

def start (runID : String) : Scene :=
  ⟨((queued runID).save .executions (execution "exec-0" "rl-1" "running")).save .executions
    (execution "exec-1" runID "queued"), []⟩

theorem cleared_start {runID : String} (hne : runID ≠ "rl-1") :
    Cleared (start runID).db "rl-1" := by
  intro id job hrow _ hof
  have hne' : Table.jobs ≠ Table.executions := by decide
  have hkept : (start runID).db.table .jobs = (queued runID).table .jobs :=
    (table_save_of_ne (t := .executions) _ _ hne').trans
      (table_save_of_ne (t := .executions) _ _ hne')
  have hjobs : jobRow (start runID).db id = if id = "job-1" then some (worker runID) else none :=
    (row_congr hkept id).trans
      (row_save (t := .jobs) _ _ id)
  rw [hjobs] at hrow
  obtain rfl : worker runID = job := by
    split at hrow
    · exact Option.some.inj hrow
    · cases hrow
  rcases hof with henv | ⟨execution, hexecution, hrun⟩
  · exact hne (Option.some.inj henv)
  · cases (row_save_self (t := .executions) _ _).symm.trans hexecution
    exact hne hrun

theorem runs_of_start {runID : String} {s1 s2 : Scene} {response : Response}
    (hstop : ((rlStopRun "rl-1").expand (registry [.modal])).evaluate WarmPool.answering
      (start runID) = some (response, s1))
    (hcall : (processOne.expand (registry [.modal])).evaluate WarmPool.answering s1 =
      some ((), s2)) :
    Prog.Runs (serves (· = 0)) (start runID) ((rlStopRun "rl-1").expand (registry [.modal]))
        response s1 ∧
      Processes (· = 0) [.modal] s1 s2 := by
  have henv : ∀ s op ans s', WarmPool.answering s op = some (ans, s') →
      serves (· = 0) s op ans s' := fun _ _ _ _ h => WarmPool.serves_answering h
  exact ⟨Prog.runs_of_evaluate henv hstop, Prog.runs_of_evaluate henv hcall⟩

end Stopping

theorem stopped_run_starts_nothing_other :
    ∃ response s1 s2, Prog.Runs (serves (· = 0)) (Stopping.start "rl-2")
        ((rlStopRun "rl-1").expand (registry [.modal])) response s1 ∧
      Processes (· = 0) [.modal] s1 s2 ∧ s2.deployed.length = 1 ∧ StartsNothing "rl-1" s1 s2 := by
  obtain ⟨response, s1, s2, hstop, hcall, hlength⟩ : ∃ response s1 s2,
      ((rlStopRun "rl-1").expand (registry [.modal])).evaluate WarmPool.answering
        (Stopping.start "rl-2") = some (response, s1) ∧
      (processOne.expand (registry [.modal])).evaluate WarmPool.answering s1 = some ((), s2) ∧
      s2.deployed.length = 1 :=
    ⟨_, _, _, by with_unfolding_all rfl, by with_unfolding_all rfl, by with_unfolding_all rfl⟩
  obtain ⟨hstop', hcall'⟩ := Stopping.runs_of_start hstop hcall
  refine ⟨response, s1, s2, hstop', hcall', hlength, ?_⟩
  exact stopped_run_starts_nothing (· = 0) [.modal] "rl-1" _ s1 s1 s2 response []
    (Stopping.cleared_start (by decide)) hstop' .nil hcall'

/-- A worker of the run is queued when the run is stopped.  The next call of the queue
worker deploys it, and its execution goes from stopped to running. -/
theorem stopped_run_deployed :
    ∃ response s1 s2, Prog.Runs (serves (· = 0)) (Stopping.start "rl-1")
        ((rlStopRun "rl-1").expand (registry [.modal])) response s1 ∧
      Processes (· = 0) [.modal] s1 s2 ∧
      s1.deployed = [] ∧
      s2.deployed.map (fun c => c.spec.envVars.get "RUN_ID") = [some "rl-1"] ∧
      (executionRow s1.db "exec-1").map (·.status) = some "stopped" ∧
      (executionRow s2.db "exec-1").map (·.status) = some "running" := by
  obtain ⟨response, s1, s2, hstop, hcall, hrest⟩ : ∃ response s1 s2,
      ((rlStopRun "rl-1").expand (registry [.modal])).evaluate WarmPool.answering
        (Stopping.start "rl-1") = some (response, s1) ∧
      (processOne.expand (registry [.modal])).evaluate WarmPool.answering s1 = some ((), s2) ∧
      s1.deployed = [] ∧
      s2.deployed.map (fun c => c.spec.envVars.get "RUN_ID") = [some "rl-1"] ∧
      (executionRow s1.db "exec-1").map (·.status) = some "stopped" ∧
      (executionRow s2.db "exec-1").map (·.status) = some "running" :=
    ⟨_, _, _, by with_unfolding_all rfl, by with_unfolding_all rfl, by with_unfolding_all rfl,
      by with_unfolding_all rfl, by with_unfolding_all rfl, by with_unfolding_all rfl⟩
  obtain ⟨hstop', hcall'⟩ := Stopping.runs_of_start hstop hcall
  exact ⟨response, s1, s2, hstop', hcall', hrest⟩

end Providers
end Skyscale
