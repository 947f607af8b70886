import Mathlib.Data.String.Basic
import Skyscale.Providers.Warm

/-!
# Jobs that wait in front of others

`processOne` puts a job that has to wait for its policy server back into the queue as
it was, and `ClaimNextJob` selects by priority, time and key.  A waiting job at the
front is claimed and put back by every call, and the jobs behind it are never
dispatched.

With a single worker, a reliable store and dispatches that succeed, some dispatchable
job is done after as many calls as there are queued jobs, whatever slots are on offer
and whatever the providers return, if and only if every waiting job has a dispatchable
one in front of it (`progress_iff`).
-/

namespace Skyscale
namespace Providers

open Lib State Control Scheduler

/-- The store is reliable and every dispatch succeeds. -/
def steady : Rules := ⟨fun _ => True, True⟩

/-- One call of the worker under these rules. -/
def SteadyCall (s : Scene) (_ : Unit) (s' : Scene) : Prop :=
  Prog.Runs steady.handles s processOne () s'

/-! ## The order of the queue -/

/-- The job is stored and queued. -/
def Queued (db : Control.World) (job : JobQueueItem) : Prop :=
  jobRow db job.id = some job ∧ job.status = .queued

/-- The queued jobs. -/
def queue (db : Control.World) : List JobQueueItem :=
  db.matching .jobs fun item : JobQueueItem => item.status = .queued

theorem mem_queue_iff {db : Control.World} {job : JobQueueItem} : job ∈ queue db ↔ Queued db job :=
  (Database.mem_matching_iff (S := schema) (t := Table.jobs)).trans
    (and_congr_right fun _ => decide_eq_true_iff)

/-- The first job is claimed before the second. -/
def Ahead (a b : JobQueueItem) : Prop :=
  b.priority < a.priority ∨
    a.priority = b.priority ∧ (a.createdAt < b.createdAt ∨
      a.createdAt = b.createdAt ∧ a.id < b.id)

theorem not_ahead_of_next {db : Control.World} {job other : JobQueueItem} (hnext : Next db job)
    (hother : Queued db other) : ¬Ahead other job := by
  have hmem := mem_queue_iff.mpr hother
  have hrank : Database.Precedes (-job.priority, job.createdAt)
    (-other.priority, other.createdAt) :=
    hnext.selects.2 other hmem
  have htie := hnext.foremost other hmem
  unfold Database.Precedes at hrank
  rintro (hpriority | ⟨hpriority, htime | ⟨htime, hid⟩⟩)
  · omega
  · omega
  · exact absurd hid (not_lt_of_ge (htie (by rw [hpriority, htime])))

theorem ahead_total {a b : JobQueueItem} (h : a.id ≠ b.id) : Ahead a b ∨ Ahead b a := by
  unfold Ahead
  rcases lt_trichotomy a.priority b.priority with hp | hp | hp
  · exact .inr (.inl hp)
  · rcases lt_trichotomy a.createdAt b.createdAt with hc | hc | hc
    · exact .inl (.inr ⟨hp, .inl hc⟩)
    · rcases lt_or_gt_of_ne h with hid | hid
      · exact .inl (.inr ⟨hp, .inr ⟨hc, hid⟩⟩)
      · exact .inr (.inr ⟨hp.symm, .inr ⟨hc.symm, hid⟩⟩)
    · exact .inr (.inr ⟨hp.symm, .inl hc⟩)
  · exact .inl (.inl hp)

/-- The job needs no policy server, or there is one. -/
def Dispatchable (db : Control.World) (job : JobQueueItem) : Prop :=
  runOf job = "" ∨ roleIn db job = "policy_server" ∨
    ∃ run : RLRun, db.row .runs (runOf job) = some run ∧ run.policyServerURL ≠ ""

theorem Dispatchable.not_waiting {db : Control.World} {job : JobQueueItem}
    (h : Dispatchable db job) : ¬Waiting db job := by
  rintro ⟨hrun, hrole, run, hrow, hurl⟩
  rcases h with hnone | hserver | ⟨run', hrow', hurl'⟩
  · exact hrun hnone
  · exact hrole hserver
  · rw [hrow] at hrow'
    cases hrow'
    exact hurl' hurl

/-! ## One call -/

section Call

variable {rules : Rules} {s s' : Scene} {job : JobQueueItem} {outcome : Outcome}

theorem Handled.row_of_ne (h : Handled rules s job outcome s') {id : String} (hid : id ≠ job.id) :
    jobRow s'.db id = jobRow s.db id := by
  rcases h.queue with ⟨error, -, hrows⟩ | ⟨⟨error, -, hrows⟩, -⟩
  · rw [hrows, if_neg hid]
  · rw [hrows, if_neg hid]

theorem Handled.roleIn_eq (h : Handled rules s job outcome s') (item : JobQueueItem) :
    roleIn s'.db item = roleIn s.db item := by
  unfold roleIn
  rcases h.executions item.executionID with hsame | ⟨-, execution, hbefore, hafter⟩
  · rw [hsame]
  · rw [hbefore, hafter]
    cases outcome with
    | deferred | failed | done => rfl

theorem Handled.queued_before (h : Handled rules s job outcome s') (hnext : Next s.db job)
    {id : String} {after : JobQueueItem} (hafter : jobRow s'.db id = some after)
    (hqueued : after.status = .queued) :
    jobRow s.db id = some after := by
  obtain ⟨hrow, hstatus⟩ := hnext.selects.row_eq
  rcases h.job_cases hafter with ⟨rfl, status, error, rfl, -, herror⟩ | ⟨-, hsame⟩
  · obtain rfl : status = .queued := hqueued
    have hsame : { job with status := .queued, error } = job := by
      rw [herror fun h => (by cases h), ← of_decide_eq_true hstatus]
    rw [hsame]
    exact hrow
  · exact hsame

theorem SteadyCall.cases {u : Unit} (h : SteadyCall s u s') :
    s' = s ∧ (∀ job, ¬Next s.db job) ∨
      ∃ job outcome, Next s.db job ∧ Handled steady s job outcome s' := by
  rcases h.post wp_processOne with ⟨hsame, hnone⟩ | hhandled
  · exact .inl ⟨hsame, hnone trivial⟩
  · exact .inr hhandled

theorem Handled.done_of_not_waiting (h : Handled steady s job outcome s')
    (hwaiting : ¬Waiting s.db job) :
    ∃ after, jobRow s'.db job.id = some after ∧ after.status = .done := by
  obtain ⟨result, rfl⟩ : ∃ result, outcome = .done result := by
    cases outcome with
    | deferred => exact absurd ((h.waiting trivial).mp rfl) hwaiting
    | failed text => exact absurd rfl (h.succeeds trivial text)
    | done result => exact ⟨result, rfl⟩
  rcases h.queue with ⟨error, -, hrows⟩ | ⟨-, hunreliable⟩
  · exact ⟨_, (hrows job.id).trans (if_pos rfl), rfl⟩
  · exact absurd trivial hunreliable

theorem Handled.row_of_waiting (h : Handled steady s job outcome s') (hqueued : Queued s.db job)
    (hwaiting : Waiting s.db job) : jobRow s'.db job.id = some job := by
  obtain rfl : outcome = .deferred := (h.waiting trivial).mpr hwaiting
  rcases h.queue with ⟨error, herror, hrows⟩ | ⟨-, hunreliable⟩
  · refine ((hrows job.id).trans (if_pos rfl)).trans (congrArg some ?_)
    rw [herror fun h => (by cases h), Outcome.status, ← hqueued.2]
  · exact absurd trivial hunreliable

end Call

/-! ## Progress -/

/-- The databases have the same jobs, runs and executions. -/
structure Agrees (db db' : Control.World) : Prop where
  jobs : db'.table .jobs = db.table .jobs
  runs : db'.table .runs = db.table .runs
  executions : db'.table .executions = db.table .executions

/-- As many calls as there are queued jobs dispatch some dispatchable job, whatever the
other tables hold. -/
def Progress (db : Control.World) : Prop :=
  ∀ s, Agrees db s.db → ∀ calls s', Run SteadyCall s calls s' →
    calls.length = (queue db).length →
    ∃ job after, Queued db job ∧ Dispatchable db job ∧
      jobRow s'.db job.id = some after ∧ after.status = .done

/-- Every waiting job has a dispatchable job in front of it. -/
def Unobstructed (db : Control.World) : Prop :=
  ∀ job, Queued db job → Waiting db job →
    ∃ other, Queued db other ∧ Dispatchable db other ∧ Ahead other job

/-- What stays of the start while no dispatchable job was dispatched. -/
structure Pending (db : Control.World) (s : Scene) : Prop where
  original : ∀ id job, jobRow s.db id = some job → job.status = .queued → jobRow db id = some job
  waiting : ∀ job, Waiting s.db job → Waiting db job
  kept : ∀ job, Queued db job → Dispatchable db job ∨ Waiting db job →
    jobRow s.db job.id = some job

theorem Handled.waiting_before {rules : Rules} {s s' : Scene} {job item : JobQueueItem}
    {outcome : Outcome} (h : Handled rules s job outcome s') (hwaiting : Waiting s'.db item) :
    Waiting s.db item := by
  obtain ⟨hrun, hrole, run, hrow, hurl⟩ := hwaiting
  rw [h.roleIn_eq] at hrole
  refine ⟨hrun, hrole, ?_⟩
  rcases h.runs with hsame | ⟨result, runID, -, hserves, htouches⟩
  · have hkept : s'.db.row .runs (runOf item) = s.db.row .runs (runOf item) :=
      row_congr hsame _
    exact ⟨run, hkept.symm.trans hrow, hurl⟩
  · rcases htouches (runOf item) with hkept | ⟨-, before, -, hafter⟩
    · exact ⟨run, hkept.symm.trans hrow, hurl⟩
    · -- The address that was written is not empty.
      obtain rfl : withPolicyServer result.providerAddr before = run :=
        Option.some.inj (hafter.symm.trans hrow)
      have haddr : result.providerAddr = "" := hurl
      have hhttp := hserves.http
      rw [haddr] at hhttp
      cases hhttp

theorem Pending.of_agrees {db : Control.World} {s : Scene} (h : Agrees db s.db) : Pending db s := by
  have hrow : ∀ id, jobRow s.db id = jobRow db id := fun id =>
    row_congr h.jobs id
  refine ⟨?_, ?_, ?_⟩
  · intro id job hjob _
    rw [← hrow, hjob]
  · exact fun job => (waiting_congr h.executions h.runs job).mp
  · intro job hqueued _
    rw [hrow, hqueued.1]

section Sufficient

variable {db : Control.World} {s s' : Scene} {job : JobQueueItem} {u : Unit}

/-- The jobs of the start that are still there. -/
def remaining (db : Control.World) (s : Scene) : List JobQueueItem :=
  (queue db).filter fun job => jobRow s.db job.id = some job

theorem mem_remaining_iff :
    job ∈ remaining db s ↔ Queued db job ∧ jobRow s.db job.id = some job := by
  unfold remaining
  rw [List.mem_filter, mem_queue_iff, decide_eq_true_iff]

theorem exists_next (h : Queued s.db job) : ∃ next, Next s.db next := by
  have hne : queue s.db ≠ [] := List.ne_nil_of_mem (mem_queue_iff.mpr h)
  obtain ⟨next, hselects, hforemost⟩ := s.db.exists_selects (t := Table.jobs)
    (fun item : JobQueueItem => (-item.priority, item.createdAt))
    (fun item : JobQueueItem => item.id) hne
  exact ⟨next, hselects, hforemost⟩

theorem length_remaining_lt {job after : JobQueueItem} {outcome : Outcome}
    (hhandled : Handled steady s job outcome s') (hnext : Next s.db job) (hjob : Queued db job)
    (hafter : jobRow s'.db job.id = some after) (hdone : after.status = .done) :
    (remaining db s').length < (remaining db s).length := by
  have hbefore : ∀ item ∈ queue db, jobRow s'.db item.id = some item →
      jobRow s.db item.id = some item := fun item hitem hrow =>
    hhandled.queued_before hnext hrow (mem_queue_iff.mp hitem).2
  have hsub : remaining db s' =
      (remaining db s).filter fun item => jobRow s'.db item.id = some item := by
    unfold remaining
    rw [List.filter_filter]
    refine List.filter_congr fun item hitem => ?_
    rw [Bool.eq_iff_iff, Bool.and_eq_true, decide_eq_true_iff, decide_eq_true_iff]
    exact ⟨fun hrow => ⟨hrow, hbefore item hitem hrow⟩, fun hrows => hrows.1⟩
  rw [hsub]
  refine List.length_filter_lt_length_iff_exists.mpr ⟨job, ?_, ?_⟩
  · exact mem_remaining_iff.mpr ⟨hjob, hnext.selects.row_eq.1⟩
  · rw [decide_eq_true_iff, hafter]
    intro hsame
    rw [Option.some.inj hsame, hjob.2] at hdone
    cases hdone

/-- One call, while no dispatchable job was dispatched: one is dispatched, or a job
less is there. -/
theorem Pending.call (hfree : Unobstructed db) (hsome : ∃ job, Queued db job ∧ Dispatchable db job)
    (h : Pending db s) (hcall : SteadyCall s u s') :
    (∃ job after, Queued db job ∧ Dispatchable db job ∧
      jobRow s'.db job.id = some after ∧ after.status = .done) ∨
      Pending db s' ∧ (remaining db s').length < (remaining db s).length := by
  rcases hcall.cases with ⟨-, hnone⟩ | ⟨job, outcome, hnext, hhandled⟩
  · obtain ⟨job, hqueued, hdispatchable⟩ := hsome
    obtain ⟨next, hnext⟩ := exists_next ⟨h.kept job hqueued (.inl hdispatchable), hqueued.2⟩
    exact absurd hnext (hnone next)
  have hqueued : Queued s.db job := mem_queue_iff.mp hnext.selects.1
  have horiginal : Queued db job := ⟨h.original _ job hqueued.1 hqueued.2, hqueued.2⟩
  have hwaiting : ¬Waiting db job := by
    intro hwaiting
    obtain ⟨other, hother, hdispatchable, hahead⟩ := hfree job horiginal hwaiting
    have hstill : Queued s.db other := ⟨h.kept other hother (.inl hdispatchable), hother.2⟩
    exact not_ahead_of_next hnext hstill hahead
  obtain ⟨after, hafter, hdone⟩ :=
    hhandled.done_of_not_waiting fun hwaits => hwaiting (h.waiting job hwaits)
  by_cases hdispatchable : Dispatchable db job
  · exact .inl ⟨job, after, horiginal, hdispatchable, hafter, hdone⟩
  refine .inr ⟨⟨?_, ?_, ?_⟩, length_remaining_lt hhandled hnext horiginal hafter hdone⟩
  · exact fun id item hitem hstatus =>
      h.original id item (hhandled.queued_before hnext hitem hstatus) hstatus
  · exact fun item hwaits => h.waiting item (hhandled.waiting_before hwaits)
  · intro item hitem hkind
    have hne : item.id ≠ job.id := by
      intro hid
      have hsame : item = job := by
        have hrow := hitem.1
        rw [hid, horiginal.1] at hrow
        exact (Option.some.inj hrow).symm
      rw [hsame] at hkind
      exact hkind.elim hdispatchable hwaiting
    rw [hhandled.row_of_ne hne]
    exact h.kept item hitem hkind

theorem SteadyCall.row_of_done (h : SteadyCall s u s') {id : String}
    (hrow : jobRow s.db id = some job) (hdone : job.status = .done) :
    jobRow s'.db id = some job := by
  rcases h.cases with ⟨rfl, -⟩ | ⟨next, outcome, hnext, hhandled⟩
  · exact hrow
  · have hne : id ≠ next.id := by
      rintro rfl
      have hqueued : Queued s.db next := mem_queue_iff.mp hnext.selects.1
      obtain rfl : job = next := Option.some.inj (hrow.symm.trans hqueued.1)
      rw [hqueued.2] at hdone
      cases hdone
    rw [hhandled.row_of_ne hne]
    exact hrow

theorem progress_of_unobstructed (hsome : ∃ job, Queued db job ∧ Dispatchable db job)
    (hfree : Unobstructed db) : Progress db := by
  intro s hagrees calls s' hrun hlength
  -- Either a dispatchable job is done, or every call so far has taken a job.
  have hinv : (∃ job after, Queued db job ∧ Dispatchable db job ∧
      jobRow s'.db job.id = some after ∧ after.status = .done) ∨
      Pending db s' ∧ (remaining db s').length + calls.length ≤ (queue db).length := by
    clear hlength
    induction hrun with
    | nil => exact .inr ⟨.of_agrees hagrees, List.length_filter_le _ _⟩
    | snoc hrun hcall ih =>
      rcases ih with ⟨job, after, hjob, hdispatchable, hafter, hdone⟩ | ⟨hpending, hcount⟩
      · exact .inl ⟨job, after, hjob, hdispatchable, hcall.row_of_done hafter hdone, hdone⟩
      · rcases hpending.call hfree hsome hcall with hdispatched | ⟨hpending', hless⟩
        · exact .inl hdispatched
        · refine .inr ⟨hpending', ?_⟩
          rw [List.length_append, List.length_singleton]
          omega
  rcases hinv with hdispatched | ⟨hpending, hcount⟩
  · exact hdispatched
  · obtain ⟨job, hqueued, hdispatchable⟩ := hsome
    have hmem : job ∈ remaining db s' :=
      mem_remaining_iff.mpr ⟨hqueued, hpending.kept job hqueued (.inl hdispatchable)⟩
    have hpos := List.length_pos_of_mem hmem
    omega

end Sufficient

/-! ## A queue that is stuck -/

/-- The operations of the worker. -/
def Basic : Control.Op → Prop
  | .sql (.first _ _ _) => True
  | .sql (.save _ _) => True
  | .sql (.update _ _ _ _) => True
  | .dispatch _ => True
  | .now => True
  | _ => False

section Basic

theorem basic_perform {op : Control.Op} (h : Basic op) :
    Only Basic (call op) :=
  Obeys.perform h

theorem basic_claimNextJob : Only Basic claimNextJob := by
  refine Obeys.bind (basic_perform trivial) ?_
  rintro (e | job)
  · exact Obeys.pure _
  · exact Obeys.bind (basic_perform trivial) fun _ => Obeys.pure _

theorem basic_jobRole (item : JobQueueItem) : Only Basic (jobRole item) := by
  unfold jobRole
  dsimp only
  split
  · exact Obeys.pure _
  refine Obeys.bind (basic_perform trivial) ?_
  rintro (e | execution)
  · exact Obeys.pure _
  · exact Obeys.pure _

theorem basic_mustWait (runID role : String) :
    Only Basic (mustWait runID role) := by
  unfold mustWait
  split
  · refine Obeys.bind (basic_perform trivial) ?_
    rintro (e | run)
    · exact Obeys.pure _
    · exact Obeys.pure _
  · exact Obeys.pure _

theorem basic_dispatchWithRetry (spec : DeploySpec) (lastErr : String) (attempts : Nat) :
    Only Basic (dispatchWithRetry spec lastErr attempts) := by
  induction attempts generalizing lastErr with
  | zero => exact Obeys.pure _
  | succ attempts ih =>
    refine Obeys.bind (basic_perform trivial) ?_
    rintro (text | result)
    · exact ih text
    · exact Obeys.pure _

theorem basic_deploy (item : JobQueueItem) :
    Only Basic (Scheduler.deploy item) := by
  have hclaim : Only Basic (claimStandbyVM item.gpuModel) := by
    refine Obeys.bind (basic_perform trivial) fun now => ?_
    refine Obeys.bind (basic_perform trivial) ?_
    rintro (e | slot)
    · exact Obeys.pure _
    · exact Obeys.bind (basic_perform trivial) fun _ => Obeys.pure _
  unfold Scheduler.deploy
  dsimp only
  split
  · refine Obeys.bind hclaim ?_
    rintro (e | slot)
    · exact basic_dispatchWithRetry _ _ _
    · dsimp only
      split
      · exact basic_dispatchWithRetry _ _ _
      · exact Obeys.pure _
  · exact basic_dispatchWithRetry _ _ _

theorem basic_rewriteExecution (id : String) (f : Execution → Execution) :
    Only Basic
      (do
        match ← getExecution id with
        | .error _ => return ()
        | .ok execution => do
          let _ ← saveExecution (f execution)
          return ()) := by
  refine Obeys.bind (basic_perform trivial) ?_
  rintro (e | execution)
  · exact Obeys.pure _
  · exact Obeys.bind (basic_perform trivial) fun _ => Obeys.pure _

theorem basic_recordPolicyServer (item : JobQueueItem) (result : DeployResult) :
    Only Basic (recordPolicyServer item result) := by
  unfold recordPolicyServer
  split
  · refine Obeys.bind (basic_perform trivial) ?_
    rintro (e | execution)
    · exact Obeys.pure _
    · dsimp only
      split
      · refine Obeys.bind (basic_perform trivial) ?_
        rintro (e | run)
        · exact Obeys.pure _
        · exact Obeys.bind (basic_perform trivial) fun _ => Obeys.pure _
      · exact Obeys.pure _
  · exact Obeys.pure _

theorem basic_processOne : Only Basic processOne := by
  refine Obeys.bind basic_claimNextJob ?_
  rintro (e | item)
  · exact Obeys.pure _
  refine Obeys.bind (basic_jobRole item) fun role => ?_
  refine Obeys.bind (basic_mustWait _ role) fun wait => ?_
  cases wait with
  | true => exact Obeys.bind (basic_perform trivial) fun _ => Obeys.pure _
  | false =>
    refine Obeys.bind (basic_deploy item) ?_
    rintro (text | result)
    · refine Obeys.bind (basic_perform trivial) fun _ => ?_
      exact basic_rewriteExecution _ (Outcome.failed text).mark
    · refine Obeys.bind (Obeys.bind ?_ fun _ => ?_) fun _ => ?_
      · exact basic_rewriteExecution _ (Outcome.done result).mark
      · exact Obeys.bind (basic_perform trivial) fun _ => Obeys.pure _
      · refine Obeys.bind (basic_recordPolicyServer item result) fun _ => ?_
        exact Obeys.bind (basic_perform trivial) fun _ => Obeys.pure _

end Basic

/-- A deployment without an address. -/
def addressless : DeployResult := ⟨"d", "modal", ""⟩

/-- Every dispatch is one `Deploy` call, and the deployment has no address. -/
def plainly (s : Scene) : (op : Control.Op) → Control.Ans op → Scene → Prop
  | .dispatch spec, r, s' =>
    r = .ok addressless ∧ s' = s.after [⟨.modal, spec, .ok addressless⟩]
  | op, ans, s' => steady.handles s op ans s'

theorem steady_of_plainly {s s' : Scene} {op : Control.Op} {ans : Control.Ans op}
    (h : plainly s op ans s') : steady.handles s op ans s' := by
  cases op with
  | dispatch spec =>
    obtain ⟨rfl, rfl⟩ := h
    exact ⟨_, Tried.single .modal spec _, rfl, fun _ => ⟨_, rfl⟩⟩
  | _ => exact h

theorem exists_first (s : Scene) (t : Table) (p : schema.Row t → Bool)
    (rank : schema.Row t → Int × Int) :
    ∃ ans s', plainly s (.sql (.first t p rank)) ans s' := by
  by_cases hempty : s.db.matching t p = []
  · refine ⟨.error .notFound, s, s.db, ⟨rfl, hempty⟩, ⟨trivial, fun _ h => h, ?_⟩, rfl⟩
    cases t with
    | _ => trivial
  cases t with
  | jobs =>
    obtain ⟨job, hselects, htie⟩ := s.db.exists_selects (t := Table.jobs) rank
      (fun item : JobQueueItem => item.id) hempty
    exact ⟨.ok job, s, s.db, ⟨rfl, hselects⟩, ⟨trivial, fun _ h => h, htie⟩, rfl⟩
  | standbyVMs =>
    obtain ⟨slot, hselects, htie⟩ := s.db.exists_selects (t := Table.standbyVMs) rank
      (fun vm : StandbyVM => vm.id) hempty
    exact ⟨.ok slot, s, s.db, ⟨rfl, hselects⟩, ⟨trivial, fun _ h => h, htie⟩, rfl⟩
  | _ =>
    obtain ⟨row, hselects, -⟩ := s.db.exists_selects rank (fun _ => (0 : Int)) hempty
    exact ⟨.ok row, s, s.db, ⟨rfl, hselects⟩, ⟨trivial, fun _ h => h, trivial⟩, rfl⟩

theorem exists_plainly (s : Scene) (op : Control.Op) (hop : Basic op) :
    ∃ ans s', plainly s op ans s' := by
  cases op with
  | sql q =>
    cases q with
    | first t p rank => exact exists_first s t p rank
    | save t row | update t p set key_set =>
      exact ⟨.ok (), _, _, rfl, ⟨trivial, fun _ h => h, trivial⟩, rfl⟩
    | find | count | insert | delete => exact hop.elim
  | dispatch spec => exact ⟨_, _, rfl, rfl⟩
  | now => exact ⟨(0 : Int), s, s.db, rfl, ⟨trivial, fun _ h => h, trivial⟩, rfl⟩
  | _ => exact hop.elim

/-- A waiting job that no dispatchable job is ahead of. -/
structure Obstructs (db : Control.World) (blocker : JobQueueItem) : Prop where
  queued : Queued db blocker
  waiting : Waiting db blocker
  first : ∀ other, Queued db other → Dispatchable db other → ¬Ahead other blocker

/-- What stays of the start behind a waiting job: there are no slots, deployments have
no address, so runs do not change, and no dispatchable job is claimed. -/
structure Stuck (db : Control.World) (blocker : JobQueueItem) (s : Scene) : Prop where
  original : ∀ id job, jobRow s.db id = some job → job.status = .queued → jobRow db id = some job
  waiting : ∀ job, Waiting s.db job ↔ Waiting db job
  standby : ∀ id, s.db.row .standbyVMs id = none
  addressless : ∀ c ∈ s.deployed, c.answer = .ok addressless
  kept : ∀ job, Queued db job → Dispatchable db job ∨ job = blocker → jobRow s.db job.id = some job

/-- One call of the worker under `plainly`. -/
def PlainCall (s : Scene) (_ : Unit) (s' : Scene) : Prop := Prog.Runs plainly s processOne () s'

theorem PlainCall.steady {s s' : Scene} {u : Unit} (h : PlainCall s u s') : SteadyCall s u s' :=
  Prog.Runs.mono (fun _ _ _ _ hplain => steady_of_plainly hplain) h

theorem PlainCall.addressless {s s' : Scene} {u : Unit} (h : PlainCall s u s')
    (hs : ∀ c ∈ s.deployed, c.answer = .ok addressless) :
    ∀ c ∈ s'.deployed, c.answer = .ok addressless := by
  refine h.invariant (I := fun s => ∀ c ∈ s.deployed, c.answer = .ok Providers.addressless)
    (A := fun _ _ => True) ?_ basic_processOne hs
  intro s op ans s' hs _ hplain
  refine ⟨?_, trivial⟩
  cases op with
  | dispatch spec =>
    obtain ⟨-, rfl⟩ := hplain
    intro c hc
    rcases List.mem_append.mp hc with hc | hc
    · exact hs c hc
    · rw [List.mem_singleton.mp hc]
  | _ =>
    obtain ⟨db', -, -, rfl⟩ := hplain
    exact hs

theorem Handled.runs_of_addressless {s s' : Scene} {job : JobQueueItem} {outcome : Outcome}
    (h : Handled steady s job outcome s') (hstandby : ∀ id, s.db.row .standbyVMs id = none)
    (hcalls : ∀ c ∈ s'.deployed, c.answer = .ok addressless) :
    s'.db.table .runs = s.db.table .runs := by
  rcases h.runs with hsame | ⟨result, runID, rfl, hserves, -⟩
  · exact hsame
  · exfalso
    obtain ⟨calls, hdeployed, htried | ⟨-, hwarm⟩⟩ := h.source
    · obtain ⟨provider, hcall⟩ := htried.deployed result rfl
      have hanswer := hcalls _ (by rw [hdeployed]; exact List.mem_append_right _ hcall)
      obtain rfl : result = addressless := Except.ok.inj hanswer
      have hhttp := hserves.http
      cases hhttp
    · obtain ⟨now, slot, -, hoffers, -⟩ := hwarm.slot
      have hrow := hoffers.selects.row_eq.1
      rw [hstandby] at hrow
      cases hrow

section Stuck

variable {db : Control.World} {blocker : JobQueueItem} {s s' : Scene} {u : Unit}

/-- No call claims a dispatchable job: the blocker is ahead of them all, and when it is
claimed itself it goes back to the queue as it was. -/
theorem Stuck.call (hblocker : Obstructs db blocker) (h : Stuck db blocker s)
    (hcall : PlainCall s u s') : Stuck db blocker s' := by
  have hcalls := hcall.addressless h.addressless
  rcases hcall.steady.cases with ⟨rfl, -⟩ | ⟨job, outcome, hnext, hhandled⟩
  · exact h
  have hqueued : Queued s.db job := mem_queue_iff.mp hnext.selects.1
  have horiginal : Queued db job := ⟨h.original _ job hqueued.1 hqueued.2, hqueued.2⟩
  have hruns := hhandled.runs_of_addressless h.standby hcalls
  have hwaiting : ∀ item, Waiting s'.db item ↔ Waiting s.db item := by
    intro item
    have hrow : s'.db.row .runs (runOf item) = s.db.row .runs (runOf item) :=
      row_congr hruns _
    unfold Waiting
    rw [hhandled.roleIn_eq, hrow]
  refine ⟨?_, fun item => (hwaiting item).trans (h.waiting item), ?_, hcalls, ?_⟩
  · exact fun id item hitem hstatus =>
      h.original id item (hhandled.queued_before hnext hitem hstatus) hstatus
  · exact fun id => hhandled.standby id (h.standby id)
  · intro item hitem hkind
    by_cases hid : item.id = job.id
    · obtain rfl : item = job := by
        have hrow := hitem.1
        rw [hid, horiginal.1] at hrow
        exact (Option.some.inj hrow).symm
      refine hhandled.row_of_waiting hqueued ((h.waiting item).mpr ?_)
      rcases hkind with hdispatchable | rfl
      · -- The job is claimed before the blocker, so it is ahead of it.
        have hne : item.id ≠ blocker.id := by
          intro hid
          have hrow := hblocker.queued.1
          rw [← hid, hitem.1] at hrow
          obtain rfl : item = blocker := Option.some.inj hrow
          exact hdispatchable.not_waiting hblocker.waiting
        have hstill : Queued s.db blocker :=
          ⟨h.kept blocker hblocker.queued (.inr rfl), hblocker.queued.2⟩
        rcases ahead_total hne with hahead | hahead
        · exact absurd hahead (hblocker.first item hitem hdispatchable)
        · exact absurd hahead (not_ahead_of_next hnext hstill)
      · exact hblocker.waiting
    · rw [hhandled.row_of_ne hid]
      exact h.kept item hitem hkind

/-- The database without slots. -/
def withoutSlots (db : Control.World) : Control.World := db.remove .standbyVMs fun _ => true

theorem agrees_withoutSlots (db : Control.World) : Agrees db (withoutSlots db) := by
  have hdelete : db.Exec (.delete .standbyVMs fun _ => true) (.ok () : Except Failure Unit)
      (withoutSlots db) := rfl
  have hkept : ∀ t : Table, t ≠ .standbyVMs → (withoutSlots db).table t = db.table t :=
    fun t ht => hdelete.table_of_target_ne fun heq => ht (Option.some.inj heq).symm
  exact ⟨hkept _ (by decide), hkept _ (by decide), hkept _ (by decide)⟩

theorem Stuck.start : Stuck db blocker ⟨withoutSlots db, []⟩ := by
  have hagrees := agrees_withoutSlots db
  have hrow : ∀ id, jobRow (withoutSlots db) id = jobRow db id := fun id =>
    row_congr hagrees.jobs id
  refine ⟨?_, waiting_congr hagrees.executions hagrees.runs, ?_, ?_, ?_⟩
  · intro id job hjob _
    rw [← hrow]
    exact hjob
  · intro id
    have hremoved := Database.row_remove (S := schema) (t := Table.standbyVMs) db (fun _ => true) id
    exact hremoved.trans (Option.filter_eq_none_iff.mpr fun _ _ h => by cases h)
  · exact fun c hc => absurd hc List.not_mem_nil
  · intro job hqueued _
    exact (hrow job.id).trans hqueued.1

theorem exists_plainCalls (s : Scene) (n : Nat) :
    ∃ s', Run PlainCall s (List.replicate n ()) s' := by
  induction n with
  | zero => exact ⟨s, .nil⟩
  | succ n ih =>
    obtain ⟨s1, hrun⟩ := ih
    obtain ⟨_, s', hcall⟩ := Prog.exists_runs exists_plainly basic_processOne s1
    refine ⟨s', ?_⟩
    rw [List.replicate_succ']
    exact .snoc hrun hcall

theorem not_progress_of_obstructs (hblocker : Obstructs db blocker) : ¬Progress db := by
  intro hprogress
  obtain ⟨s', hrun⟩ := exists_plainCalls ⟨withoutSlots db, []⟩ (queue db).length
  have hstuck : Stuck db blocker s' :=
    hrun.invariant (I := Stuck db blocker) .start fun _ _ _ hstuck hcall =>
      hstuck.call hblocker hcall
  have hsteady := hrun.mono fun _ _ _ hcall => hcall.steady
  obtain ⟨job, after, hqueued, hdispatchable, hafter, hdone⟩ :=
    hprogress _ (agrees_withoutSlots db) _ s' hsteady (List.length_replicate)
  rw [hstuck.kept job hqueued (.inl hdispatchable)] at hafter
  rw [← Option.some.inj hafter, hqueued.2] at hdone
  cases hdone

end Stuck

/-- With a single worker, a reliable store and dispatches that succeed, from a queue
with a dispatchable job: as many calls as there are queued jobs dispatch a dispatchable
job, whatever slots there are and whatever the providers return, if and only if every
waiting job has a dispatchable one in front of it. -/
theorem progress_iff (db : Control.World) (hsome : ∃ job, Queued db job ∧ Dispatchable db job) :
    Progress db ↔ Unobstructed db := by
  refine ⟨fun hprogress job hqueued hwaiting => ?_, progress_of_unobstructed hsome⟩
  by_contra hnone
  refine not_progress_of_obstructs ⟨hqueued, hwaiting, fun other hother hdispatchable hahead => ?_⟩
    hprogress
  exact hnone ⟨other, hother, hdispatchable, hahead⟩

/-! ## A waiting job and a job without a run -/

namespace Blocking

def run : RLRun := { (default : RLRun) with id := "rl-1", policyServerURL := "" }

def worker (priority : Int) : JobQueueItem :=
  { WarmPool.job with
    id := "job-worker", priority
    envVars := FinMap.ofList [("RUN_ID", "rl-1"), ("SKYSCALE_ROLE", "rl_worker")] }

def db (priority : Int) : Control.World :=
  (((Database.empty : Control.World).save .runs run).save .jobs (worker priority)).save .jobs
    WarmPool.job

theorem jobRow_db (priority : Int) (id : String) :
    jobRow (db priority) id =
      if id = "job-1" then some WarmPool.job
      else if id = "job-worker" then some (worker priority) else none := by
  have hinner : jobRow (((Database.empty : Control.World).save .runs run).save .jobs
      (worker priority)) id = if id = "job-worker" then some (worker priority) else none :=
    row_save (t := .jobs) _ _ id
  rw [← hinner]
  exact row_save (t := .jobs) _ _ id

theorem queued_iff {priority : Int} {job : JobQueueItem} :
    Queued (db priority) job ↔ job = WarmPool.job ∨ job = worker priority := by
  constructor
  · rintro ⟨hrow, -⟩
    rw [jobRow_db] at hrow
    split at hrow
    · exact .inl (Option.some.inj hrow).symm
    · split at hrow
      · exact .inr (Option.some.inj hrow).symm
      · cases hrow
  · rintro (rfl | rfl)
    · exact ⟨(jobRow_db priority _).trans (if_pos rfl), rfl⟩
    · have hne : ¬(worker priority).id = "job-1" := show ¬"job-worker" = "job-1" by decide
      exact ⟨(jobRow_db priority _).trans ((if_neg hne).trans (if_pos rfl)), rfl⟩

theorem waiting_worker (priority : Int) : Waiting (db priority) (worker priority) := by
  have hrun : runOf (worker priority) = "rl-1" := by with_unfolding_all rfl
  have hrole : roleIn (db priority) (worker priority) = "rl_worker" := by with_unfolding_all rfl
  unfold Waiting
  rw [hrun, hrole]
  exact ⟨by decide, by decide, run, by with_unfolding_all rfl, rfl⟩

theorem dispatchable_job (priority : Int) : Dispatchable (db priority) WarmPool.job :=
  .inl (by with_unfolding_all rfl)

theorem exists_dispatchable (priority : Int) :
    ∃ job, Queued (db priority) job ∧ Dispatchable (db priority) job :=
  ⟨WarmPool.job, queued_iff.mpr (.inl rfl), dispatchable_job priority⟩

end Blocking

theorem progress_iff_behind : Progress (Blocking.db (-1)) := by
  refine (progress_iff _ (Blocking.exists_dispatchable (-1))).mpr fun job hqueued hwaiting => ?_
  refine ⟨WarmPool.job, Blocking.queued_iff.mpr (.inl rfl), Blocking.dispatchable_job (-1), ?_⟩
  rcases Blocking.queued_iff.mp hqueued with rfl | rfl
  · exact absurd hwaiting (Blocking.dispatchable_job (-1)).not_waiting
  · exact .inl (by decide)

/-- The worker has the higher priority: it is claimed and put back by every call, and
the job without a run is never dispatched. -/
theorem waiting_job_blocks :
    (∃ job, Queued (Blocking.db 1) job ∧ Dispatchable (Blocking.db 1) job) ∧
      ¬Progress (Blocking.db 1) := by
  have hfirst : ∀ other, Queued (Blocking.db 1) other → Dispatchable (Blocking.db 1) other →
      ¬Ahead other (Blocking.worker 1) := ?_
  · exact ⟨Blocking.exists_dispatchable 1, not_progress_of_obstructs
      ⟨Blocking.queued_iff.mpr (.inr rfl), Blocking.waiting_worker 1, hfirst⟩⟩
  intro other hqueued hdispatchable
  rcases Blocking.queued_iff.mp hqueued with rfl | rfl
  · rintro (hpriority | ⟨hpriority, -⟩)
    · exact absurd hpriority (by decide)
    · exact absurd hpriority (by decide)
  · exact absurd (Blocking.waiting_worker 1) hdispatchable.not_waiting

end Providers
end Skyscale
