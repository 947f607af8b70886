import Skyscale.Control.Serial
import Skyscale.RL.Stages

/-!
# What a served request may write

When requests do not overlap, the copy of a row that a handler or a pass writes is the
stored row up to a change the program has decided on.  This module names these
changes, once for all programs:

* `Asked` are the changes a handler makes to a run because a request asks for them;
* `Reconciled` are the changes a pass of the reconciler makes to a run;
* `Lawful` says of any single operation what is known when it is performed: which
  change a written row is, and what the program has seen before.

`RL.Serving` proves that every operation of every program is lawful.  The results about
served requests are then invariants of lawful operations.

The columns the results speak about are collected in `Core`; all other columns of a
run may change in any way.
-/

namespace Skyscale
namespace RL

open Lib State Control K8s Contracts

/-! ## Columns -/

/-- The columns of a run that the results are about. -/
structure Core where
  id : String
  tenantID : String
  backend : Backend
  status : RunStatus
  desiredState : DesiredState
  currentAttemptID : String
  policyVersion : String
  lastGoodPolicyVersion : String
  checkpointID : String
  snapshotJSON : String
  optimizerStep : Int

/-- The columns of a row. -/
def core (run : RLRun) : Core where
  id := run.id
  tenantID := run.tenantID
  backend := run.backend
  status := run.status
  desiredState := run.desiredState
  currentAttemptID := run.currentAttemptID
  policyVersion := run.policyVersion
  lastGoodPolicyVersion := run.lastGoodPolicyVersion
  checkpointID := run.checkpointID
  snapshotJSON := run.snapshotJSON
  optimizerStep := run.optimizerStep

/-- A status of a run in training: no cancellation, no evaluation, and not ended. -/
def training (status : RunStatus) : Bool :=
  status ≠ .cancelling && status ≠ .evaluating && status ≠ .canary

/-! ## Plain operations -/

/-- The runs, checkpoints and evaluations are the same, and the log has only grown. -/
structure Extends (L L' : Ledger) : Prop where
  table : ∀ t : Table, followed t = true → t ≠ .attempts → L'.world.table t = L.world.table t
  log : ∃ entries, L'.log = L.log ++ entries

namespace Extends

variable {L L1 L2 : Ledger}

theorem refl (L : Ledger) : Extends L L := ⟨fun _ _ _ => rfl, [], (List.append_nil _).symm⟩

theorem trans (h1 : Extends L L1) (h2 : Extends L1 L2) : Extends L L2 := by
  refine ⟨fun t ht hne => (h2.table t ht hne).trans (h1.table t ht hne), ?_⟩
  obtain ⟨entries1, hlog1⟩ := h1.log
  obtain ⟨entries2, hlog2⟩ := h2.log
  exact ⟨entries1 ++ entries2, by rw [hlog2, hlog1, List.append_assoc]⟩

theorem runs (h : Extends L L1) (id : String) : L1.world.row .runs id = L.world.row .runs id :=
  row_congr (h.table .runs rfl nofun) id

theorem evaluations (h : Extends L L1) (id : String) :
    L1.world.row .evaluations id = L.world.row .evaluations id :=
  row_congr (h.table .evaluations rfl nofun) id

end Extends

variable {L L' : Ledger} {request : Request}

theorem table_of_plain {op : Op} {ans : Ans op} (h : L.Records op ans L') (hop : Plain op)
    {t : Table} (ht : followed t = true) :
    L'.world.table t = L.world.table t := by
  cases op with
  | sql q =>
    refine h.table_of_target_ne fun htarget => ?_
    simp only [Plain, htarget] at hop
    rw [ht] at hop
    cases hop
  | markGood runID version => exact hop.elim
  | newRunID digits => rw [h.1.1]
  | _ => rw [show L'.world = L.world from h.1]

theorem row_of_aloof {op : Op} {ans : Ans op} (h : L.Records op ans L') (hop : Aloof op)
    (id : String) : L'.world.row .runs id = L.world.row .runs id := by
  cases op with
  | sql q => exact h.row_of_target_ne (t := .runs) hop id
  | newRunID digits => rw [h.1.1]
  | _ => rw [show L'.world = L.world from h.1]

theorem extends_of_plain {op : Op} {ans : Ans op} (h : L.Records op ans L') (hop : Plain op) :
    Extends L L' :=
  ⟨fun _ ht _ => table_of_plain h hop ht, _, h.2⟩

theorem extends_of_attempt {attempt : RLAttempt} {ans : Ans (.sql (.save .attempts attempt))}
    (h : L.Records (.sql (.save .attempts attempt)) ans L') : Extends L L' := by
  refine ⟨fun t _ hne => ?_, _, h.2⟩
  refine h.table_of_target_ne fun htarget => hne ?_
  exact (Option.some.inj htarget).symm

/-! ## Parts of a pass, alone -/

/-- Served alone, the part of a pass ends with `Ok`, or with an error and `Err`. -/
abbrev Ends {α : Type} (Ok : α → RLRun → Ledger → Prop) (Err : RLRun → Ledger → Prop) (m : Pass α)
    (run : RLRun) (L : Ledger) : Prop :=
  Act.At (acting Ledger.Records) Ok Err m run L

section Calm

variable {α β : Type} {m : Pass α} {run : RLRun} {L : Ledger}

theorem extends_of_calm (L : Ledger) (op : Op) (ans : Ans op) (L' : Ledger) (hop : Plain op)
    (hrec : L.Records op ans L') : Extends L L' :=
  extends_of_plain hrec hop

theorem Calm.then {f : α → Pass β} {Ok : β → RLRun → Ledger → Prop} {Err : RLRun → Ledger → Prop}
    (hm : Calm m) (herror : ∀ L', Extends L L' → Err run L')
    (hf : ∀ a L', Extends L L' → Ends Ok Err (f a) run L') : Ends Ok Err (m >>= f) run L :=
  Leaves.then Extends.refl (fun h1 h2 => Extends.trans h1 h2) extends_of_calm hm herror hf

end Calm

/-! ## Changes asked for by requests -/

/-- The database holds an evaluation of the version. -/
def Evaluated (w : World) (runID version : String) : Prop :=
  ∃ e : RLEvaluationRecord, w.row .evaluations e.id = some e ∧ e.runID = runID ∧
    e.policyVersion = version

/-- The database holds a checkpoint of the run at a step. -/
def CheckpointAt (w : World) (id runID : String) (step : Int) : Prop :=
  ∃ checkpoint : RLCheckpointRecord, w.row .checkpoints id = some checkpoint ∧
    checkpoint.runID = runID ∧ checkpoint.optimizerStep = step

/-- A commit the handler accepts for the run: the body is complete and comes from the
current attempt. -/
structure Commits (request : Request) (run : RLRun) (body : CheckpointBody) : Prop where
  request : request = .commitCheckpoint run.id (some body)
  complete : body.complete = true
  attempt : body.attemptID = run.currentAttemptID

/-- The changes of a run that requests ask for. -/
inductive Asked (cfg : Config) (request : Request) (w : World) (stored run : RLRun) : Prop
  | same (h : core run = core stored)
  | cancelled (hrequest : request = .stopRun stored.id) (hslime : stored.backend = .slime)
      (h : core run =
        { core stored with desiredState := .cancelled, status := .cancelling })
  | suspended (hrequest : request = .suspendRun stored.id) (hslime : stored.backend = .slime)
      (hlive : terminal stored.status = false)
      (h : core run = { core stored with desiredState := .suspended })
  | resumed (hrequest : request = .resumeRun stored.id) (hslime : stored.backend = .slime)
      (hlive : terminal stored.status = false)
      (h : core run = { core stored with desiredState := .running, status := .starting })
  | activated (body : AcknowledgeBody)
      (hrequest : request = .acknowledgeWeights run.policyVersion (some body))
      (hbody : body.runID = stored.id)
      (h : core run = { core stored with policyVersion := run.policyVersion })
  | rolledBack (body : RollbackBody) (hrequest : request = .rollbackWeights (some body))
      (hbody : body.runID = stored.id)
      (h : core run = { core stored with policyVersion := run.policyVersion })
  | committed (body : CheckpointBody) (hcommit : Commits request stored body)
      (hperiodic : periodicEvaluation cfg stored body.optimizerStep = false)
      (hcheckpoint : CheckpointAt w run.checkpointID stored.id body.optimizerStep)
      (h : core run =
        { core stored with
          checkpointID := run.checkpointID, policyVersion := body.policyVersion
          optimizerStep := body.optimizerStep })
  | scheduled (body : CheckpointBody) (hcommit : Commits request stored body)
      (hperiodic : periodicEvaluation cfg stored body.optimizerStep = true)
      (hevaluated : Evaluated w stored.id body.policyVersion)
      (hcheckpoint : CheckpointAt w run.checkpointID stored.id body.optimizerStep)
      (h : core run =
        { core stored with
          checkpointID := run.checkpointID, policyVersion := body.policyVersion
          optimizerStep := body.optimizerStep, status := .evaluating })
  | progressed (body : ProgressBody) (hrequest : request = .trainerProgress stored.id (some body))
      (hstep : stored.optimizerStep ≤ body.optimizerStep)
      (h : core run = { core stored with optimizerStep := body.optimizerStep })

/-! ## Changes a pass makes -/

/-- The specification a pass works with. -/
def snapshotSpec (cfg : Config) (run : RLRun) (spec : RLRunSpec) : Prop :=
  ∃ snapshot, cfg.decodeSnapshot run.snapshotJSON = .ok snapshot ∧ snapshot.spec = spec

/-- The application of the canary deployment of a version. -/
def canaryApplied (w : World) (spec : RLRunSpec) (version : String) (replicas : Int)
    (applied : Object) : Entry :=
  .performed w (.apply (renderCanaryRolloutDeployment spec version replicas false))
    (Except.ok applied : Except ClientError Object)

/-- The database holds an evaluation of the run's version that has passed its gates. -/
def Cleared (w : World) (run : RLRun) : Prop :=
  ∃ e : RLEvaluationRecord, w.row .evaluations e.id = some e ∧ e.runID = run.id ∧
    e.policyVersion = run.policyVersion ∧ e.gatesPassed = true

/-- The canary of the run's version was started on a database in which the run is
stored like this, with an evaluation that has passed its gates. -/
structure CanaryStart (cfg : Config) (run : RLRun) (w : World) (entry : Entry) : Prop where
  entry : ∃ spec replicas applied, snapshotSpec cfg run spec ∧
    entry = canaryApplied w spec run.policyVersion replicas applied
  stored : w.row .runs run.id = some run
  cleared : Cleared w run

/-- Somewhere in the log, the canary of the stored version was started. -/
def CanaryLogged (cfg : Config) (L : Ledger) (stored : RLRun) : Prop :=
  ∃ pre entry post w, L.log = pre ++ entry :: post ∧ CanaryStart cfg stored w entry

/-- The checkpoint is the latest committed one of the run. -/
structure LatestCheckpoint (w : World) (runID : String) (checkpoint : RLCheckpointRecord) :
    Prop where
  stored : w.row .checkpoints checkpoint.id = some checkpoint
  run : checkpoint.runID = runID
  committed : checkpoint.status = "committed"
  latest : ∀ other : RLCheckpointRecord, w.row .checkpoints other.id = some other →
    other.runID = runID → other.status = "committed" →
    other.optimizerStep ≤ checkpoint.optimizerStep

/-- The changes of a run that a pass makes.  `L0` is the ledger at the start of the
request and `L` the one in which the columns `c` are written. -/
inductive Reconciled (cfg : Config) (L0 L : Ledger) (stored : RLRun) (c : Core) : Prop
  | same (h : c = core stored)
  | cancelling (h : c = { core stored with status := .cancelling })
  | cancelled (hstatus : stored.status = .cancelling)
      (h : c = { core stored with status := .cancelled })
  | suspended (hstatus : stored.status ≠ .cancelling)
      (h : c = { core stored with status := .suspended })
  | attempted (hstatus : training stored.status = true) (hattempt : c.currentAttemptID ≠ "")
      (h : c =
        { core stored with currentAttemptID := c.currentAttemptID, status := .starting })
  | adopted (hstatus : training stored.status = true) (checkpoint : RLCheckpointRecord)
      (hlatest : LatestCheckpoint L0.world stored.id checkpoint)
      (horigin : ∃ run0 : RLRun, L0.world.row .runs stored.id = some run0 ∧
        run0.checkpointID = "" ∧ run0.optimizerStep = stored.optimizerStep)
      (h : c =
        { core stored with
          checkpointID := checkpoint.id, policyVersion := checkpoint.policyVersion
          optimizerStep := checkpoint.optimizerStep })
  | running (hstatus : training stored.status = true)
      (h : c = { core stored with status := .running })
  | completed (hstatus : training stored.status = true)
      (h : c = { core stored with status := .completed })
  | failed (hstatus : training stored.status = true)
      (h : c = { core stored with status := .failed })
  | retried (hstatus : training stored.status = true)
      (h : c = { core stored with currentAttemptID := "", status := .starting })
  | evaluating (hstatus : training stored.status = true)
      (hattempt : stored.currentAttemptID ≠ "")
      (hevaluated : Evaluated L.world stored.id stored.policyVersion)
      (h : c = { core stored with status := .evaluating })
  | canary (hstatus : stored.status = .evaluating) (hcleared : Cleared L.world stored)
      (hstarted : CanaryLogged cfg L stored)
      (h : c = { core stored with status := .canary })
  | rolledBack (hstatus : stored.status = .evaluating ∨ stored.status = .canary)
      (final : Bool)
      (h : c =
        { core stored with
          policyVersion := c.policyVersion
          status := if final then .completed else .running })
  | promoted (hstatus : stored.status = .canary) (final : Bool)
      (h : c =
        { core stored with
          lastGoodPolicyVersion := stored.policyVersion
          status := if final then .completed else .running })

/-! ## Columns that never change -/

/-- The columns of a run that no program changes. -/
def Core.fixed (c : Core) : String × String × Backend × String :=
  (c.id, c.tenantID, c.backend, c.snapshotJSON)

section Frame

variable {cfg : Config} {request : Request} {L0 L : Ledger} {w : World} {stored run : RLRun}

theorem Asked.fixed (h : Asked cfg request w stored run) :
    (core run).fixed = (core stored).fixed := by
  cases h with
  | same h | cancelled _ _ h | suspended _ _ _ h | resumed _ _ _ h | activated _ _ _ h
  | rolledBack _ _ _ h | committed _ _ _ _ h | scheduled _ _ _ _ _ h | progressed _ _ _ h =>
    exact (congrArg Core.fixed h).trans rfl

theorem Reconciled.fixed (h : Reconciled cfg L0 L stored (core run)) :
    (core run).fixed = (core stored).fixed := by
  cases h with
  | same h | cancelling h | cancelled _ h | suspended _ h | attempted _ _ h | adopted _ _ _ _ h
  | running _ h | completed _ h | failed _ h | retried _ h | evaluating _ _ _ h
  | canary _ _ _ h | rolledBack _ _ h | promoted _ _ h => exact (congrArg Core.fixed h).trans rfl

theorem id_eq_of_fixed (h : (core run).fixed = (core stored).fixed) : run.id = stored.id :=
  congrArg (fun c => c.1) h

theorem tenantID_eq_of_fixed (h : (core run).fixed = (core stored).fixed) :
    run.tenantID = stored.tenantID :=
  congrArg (fun c => c.2.1) h

theorem backend_eq_of_fixed (h : (core run).fixed = (core stored).fixed) :
    run.backend = stored.backend :=
  congrArg (fun c => c.2.2.1) h

theorem snapshotJSON_eq_of_fixed (h : (core run).fixed = (core stored).fixed) :
    run.snapshotJSON = stored.snapshotJSON :=
  congrArg (fun c => c.2.2.2) h

end Frame

/-! ## Changes of evaluations -/

/-- What a pass makes of an evaluation: the gates' verdict stays, no canary is passed by
the pass, and during the canary the status stays. -/
structure Reviewed (stored : RLRun) (old new : RLEvaluationRecord) : Prop where
  id : new.id = old.id
  runID : new.runID = old.runID
  policyVersion : new.policyVersion = old.policyVersion
  gatesPassed : new.gatesPassed = old.gatesPassed
  canaryState : new.canaryState = .passed → old.canaryState = .passed
  status : stored.status = .canary → new.status = old.status

/-! ## Lawful operations -/

/-- The quota of the configuration. -/
def tenantQuota (cfg : Config) : TenantQuota where
  maxConcurrentRuns := envInt cfg "SKYSCALE_RL_TENANT_MAX_RUNS" 2
  maxGPUs := envInt cfg "SKYSCALE_RL_TENANT_MAX_GPUS" 8

/-- The number of runs `CountActiveTenantRLRuns` counts. -/
def activeRuns (w : World) (tenantID : String) : Nat :=
  (w.matching .runs fun run : RLRun => run.tenantID = tenantID && run.status.active).length

/-- A new run: the snapshot of the requested specification, admitted by the quota. -/
structure Admitted (cfg : Config) (request : Request) (w : World) (run : RLRun) : Prop where
  columns : run.backend = .slime ∧ run.status = .starting ∧ run.currentAttemptID = "" ∧
    run.checkpointID = "" ∧ run.optimizerStep = 0 ∧ generatedRunID 12 run.id = true
  requested : ∃ start requested snapshot, request = .startRun start ∧
    requestedSpec cfg start = some requested ∧ run.tenantID = requested.metadata.tenantID ∧
    snapshot.spec.topology = requested.topology ∧
    run.snapshotJSON = cfg.encodeSnapshot snapshot ∧
    validateQuota (activeRuns w requested.metadata.tenantID) 0 requested.topology
      (tenantQuota cfg) = .ok ()

/-- What one operation makes of a stored run.  With `strict`, the attempt a pass writes into
a run is stored. -/
inductive Rewritten (strict : Bool) (cfg : Config) (request : Request) (L0 L : Ledger)
    (stored run : RLRun) : Prop
  | kept (h : run = stored)
  | plain (hbackend : stored.backend ≠ .slime) (status : RunStatus) (hstatus : status ≠ .canary)
      (h : core run = { core stored with status := status })
  | ask (horigin : L0.world.row .runs stored.id = some stored)
      (h : Asked cfg request L.world stored run)
  | reconcile (hrequest : request = .reconcilePass) (hslime : stored.backend = .slime)
      (hlive : terminal stored.status = false) (h : Reconciled cfg L0 L stored (core run))
      (hattempt : strict = true → run.currentAttemptID = stored.currentAttemptID ∨
        run.currentAttemptID = "" ∨
        ∃ attempt, L.world.row .attempts run.currentAttemptID = some attempt)

/-- A run that one operation creates. -/
inductive Created (cfg : Config) (request : Request) (L0 L : Ledger) (run : RLRun) : Prop
  | slime (hruns : L.world.table .runs = L0.world.table .runs)
      (h : Admitted cfg request L.world run)
  | plain (hbackend : run.backend = .unset) (hattempt : run.currentAttemptID = "")
      (hstatus : run.status = .starting)

/-- What is known when a run is written. -/
inductive RunWrite (strict : Bool) (cfg : Config) (request : Request) (L0 L : Ledger)
    (run : RLRun) : Prop
  | create (hfresh : L.world.row .runs run.id = none) (h : Created cfg request L0 L run)
  | change {stored : RLRun} (hstored : L.world.row .runs stored.id = some stored)
      (h : Rewritten strict cfg request L0 L stored run)

/-- What is known when an evaluation is written. -/
inductive EvaluationWrite (cfg : Config) (request : Request) (L0 L : Ledger) :
    RLEvaluationRecord → Prop
  | schedule {stored : RLRun} {body : CheckpointBody} {checkpointID : String}
      (horigin : L0.world.row .runs stored.id = some stored)
      (hstored : L.world.row .runs stored.id = some stored)
      (hcommit : Commits request stored body)
      (hperiodic : periodicEvaluation cfg stored body.optimizerStep = true) :
      EvaluationWrite cfg request L0 L (periodicRecord stored.id checkpointID body)
  | finish {stored run : RLRun} (hrequest : request = .reconcilePass)
      (hstored : L.world.row .runs stored.id = some stored) (hslime : stored.backend = .slime)
      (hstatus : training stored.status = true) (hattempt : stored.currentAttemptID ≠ "")
      (h : core run = core stored) : EvaluationWrite cfg request L0 L (finalEvaluation run)
  | judge {stored : RLRun} {e : RLEvaluationRecord} {body : EvaluateBody} {snapshot : RunSnapshot}
      (hrequest : request = .evaluateWeights stored.id e.policyVersion (some body))
      (horigin : L0.world.row .runs stored.id = some stored)
      (hstored : L.world.row .runs stored.id = some stored)
      (hsnapshot : cfg.decodeSnapshot stored.snapshotJSON = .ok snapshot)
      (he : L.world.row .evaluations e.id = some e) (hrun : e.runID = stored.id) :
      EvaluationWrite cfg request L0 L
        (judged e body (evaluateGates body.metrics snapshot.spec.evaluation.gates))
  | review {stored : RLRun} {e e' : RLEvaluationRecord} (hrequest : request = .reconcilePass)
      (hstored : L.world.row .runs stored.id = some stored)
      (he : L.world.row .evaluations e.id = some e) (hrun : e.runID = stored.id)
      (hversion : e.policyVersion = stored.policyVersion) (h : Reviewed stored e e') :
      EvaluationWrite cfg request L0 L e'

/-- What is known when an operation is performed. -/
inductive Lawful (strict : Bool) (cfg : Config) (request : Request) (L0 L : Ledger) : Op → Prop
  | plain {op : Op} (h : Plain op) : Lawful strict cfg request L0 L op
  | attempt (attempt : RLAttempt) : Lawful strict cfg request L0 L (.sql (.save .attempts attempt))
  | run {run : RLRun} (h : RunWrite strict cfg request L0 L run) :
      Lawful strict cfg request L0 L (.sql (.save .runs run))
  | evaluation {e : RLEvaluationRecord} (h : EvaluationWrite cfg request L0 L e) :
      Lawful strict cfg request L0 L (.sql (.save .evaluations e))
  | commit {stored : RLRun} {body : CheckpointBody}
      (horigin : L0.world.row .runs stored.id = some stored)
      (hcommit : Commits request stored body) :
      Lawful strict cfg request L0 L
        (.sql (.insert .checkpoints (fun _ => committed stored.id body) none))
  | promote {stored : RLRun} {e : RLEvaluationRecord} (hrequest : request = .reconcilePass)
      (hstored : L.world.row .runs stored.id = some stored) (hstatus : stored.status = .canary)
      (he : L.world.row .evaluations e.id = some e) (hrun : e.runID = stored.id)
      (hversion : e.policyVersion = stored.policyVersion) (hfailed : e.status ≠ .failed)
      (hcanary : e.canaryState = .passed) :
      Lawful strict cfg request L0 L (.markGood stored.id stored.policyVersion)

/-- Only the writes of a pass depend on `strict`. -/
theorem Lawful.congr {strict strict' : Bool} {cfg : Config} {L0 : Ledger} {op : Op}
    (h : Lawful strict cfg request L0 L op)
    (hstrict : request = .reconcilePass → strict' = true → strict = true) :
    Lawful strict' cfg request L0 L op := by
  cases h with
  | run h =>
    refine .run ?_
    cases h with
    | create hfresh h => exact .create hfresh h
    | change hstored h =>
      refine .change hstored ?_
      cases h with
      | kept h => exact .kept h
      | plain hbackend status hstatus h => exact .plain hbackend status hstatus h
      | ask horigin h => exact .ask horigin h
      | reconcile hrequest hslime hlive h hattempt =>
        exact .reconcile hrequest hslime hlive h fun hs => hattempt (hstrict hrequest hs)
  | plain h => exact .plain h
  | attempt attempt => exact .attempt attempt
  | evaluation h => exact .evaluation h
  | commit horigin hcommit => exact .commit horigin hcommit
  | promote hrequest hstored hstatus he hrun hversion hfailed hcanary =>
    exact .promote hrequest hstored hstatus he hrun hversion hfailed hcanary

/-! ## What lawful operations do -/

/-- What a lawful operation does to the followed tables: nothing, or it writes one row. -/
inductive Effect (strict : Bool) (cfg : Config) (request : Request) (L0 L : Ledger) (w : World) :
    Prop
  | idle (h : ∀ t : Table, followed t = true → t ≠ .attempts → w.table t = L.world.table t)
      (hattempts : ∀ (id : String) (a : RLAttempt), L.world.row .attempts id = some a →
        ∃ a' : RLAttempt, w.row .attempts id = some a')
  | run (run : RLRun) (h : RunWrite strict cfg request L0 L run)
      (hworld : w = L.world.save Table.runs run)
  | evaluation (e : RLEvaluationRecord) (h : EvaluationWrite cfg request L0 L e)
      (hworld : w = L.world.save Table.evaluations e)
  | commit (stored : RLRun) (body : CheckpointBody)
      (horigin : L0.world.row .runs stored.id = some stored)
      (hcommit : Commits request stored body)
      (hfresh : L.world.row .checkpoints (committed stored.id body).id = none)
      (hworld : w = L.world.save Table.checkpoints (committed stored.id body))

theorem Effect.of_eq {strict : Bool} {cfg : Config} {L0 : Ledger} {w : World} (h : w = L.world) :
    Effect strict cfg request L0 L w :=
  .idle (fun _ _ _ => by rw [h]) fun _ a ha => ⟨a, by rw [h]; exact ha⟩

theorem save_of_insert_checkpoint {checkpoint : RLCheckpointRecord}
    {ans : Ans (.sql (.insert .checkpoints (fun _ => checkpoint) none))}
    (h : L.Records (.sql (.insert .checkpoints (fun _ => checkpoint) none)) ans L')
    (hans : ans = Except.ok ()) :
    L.world.row .checkpoints checkpoint.id = none ∧
      L'.world = L.world.save Table.checkpoints checkpoint := by
  subst hans
  obtain ⟨_, -, hworld⟩ := h.1
  split at hworld
  · rename_i hfresh
    exact ⟨hfresh, hworld⟩
  · rename_i hmerge
    cases hmerge
  · exact hworld.elim

theorem Lawful.effect {strict : Bool} {cfg : Config} {L0 : Ledger} {op : Op} {ans : Ans op}
    (h : Lawful strict cfg request L0 L op) (hrec : L.Records op ans L') :
    Effect strict cfg request L0 L L'.world := by
  cases h with
  | plain hop =>
    refine .idle (extends_of_plain hrec hop).table fun id a ha => ⟨a, ?_⟩
    exact (row_congr (t := .attempts)
      (table_of_plain hrec hop rfl) id).trans ha
  | attempt attempt =>
    refine .idle (extends_of_attempt hrec).table fun id a ha => ?_
    cases ans with
    | error e => exact ⟨a, by rw [show L'.world = L.world from hrec.1]; exact ha⟩
    | ok _ =>
      rw [show L'.world = L.world.save Table.attempts attempt from hrec.1]
      by_cases hid : id = attempt.id
      · exact ⟨attempt, (row_save (t := .attempts) _ _ _).trans
          (if_pos hid)⟩
      · exact ⟨a, (row_save (t := .attempts) _ _ _).trans
          ((if_neg hid).trans ha)⟩
  | run h =>
    cases ans with
    | error e => exact .of_eq hrec.1
    | ok _ => exact .run _ h hrec.1
  | evaluation h =>
    cases ans with
    | error e => exact .of_eq hrec.1
    | ok _ => exact .evaluation _ h hrec.1
  | @commit stored body horigin hcommit =>
    cases ans with
    | error e => exact .of_eq hrec.1
    | ok _ =>
      obtain ⟨hfresh, hworld⟩ := save_of_insert_checkpoint hrec rfl
      exact .commit stored body horigin hcommit hfresh hworld
  | promote => exact .of_eq hrec.1

end RL
end Skyscale
