import Skyscale.RL.History

/-!
# Training progress

The optimizer step of a run is written by progress reports, by commits of checkpoints
and by the pass that adopts the latest checkpoint; the checkpoint a retry resumes from is
written by the last two.  Only progress reports are refused when they lie behind: a
commit that arrives late takes the run back (`progress_lost`).

`Forward` excludes such commits, and a pass over a run whose latest checkpoint was never
recorded in its row and lies behind its reports.  `training_monotone` says that nothing
else takes a run back.
-/

namespace Skyscale
namespace RL

open Lib State Control K8s Contracts

/-- No commit lies behind the run or one of its committed checkpoints, and no pass finds a
run without checkpoint whose latest committed checkpoint lies behind the run. -/
structure Forward (w : World) (request : Request) : Prop where
  commit : ∀ (run : RLRun) (body : CheckpointBody), w.row .runs run.id = some run →
    Commits request run body → run.optimizerStep ≤ body.optimizerStep ∧
      ∀ checkpoint : RLCheckpointRecord, w.row .checkpoints checkpoint.id = some checkpoint →
        checkpoint.runID = run.id → checkpoint.status = "committed" →
        checkpoint.optimizerStep ≤ body.optimizerStep
  pass : request = .reconcilePass → ∀ (run : RLRun) (checkpoint : RLCheckpointRecord),
    w.row .runs run.id = some run → run.checkpointID = "" →
    LatestCheckpoint w run.id checkpoint → run.optimizerStep ≤ checkpoint.optimizerStep

/-- The run is stored at the step or later. -/
def StepReached (w : World) (id : String) (step : Int) : Prop :=
  ∃ run : RLRun, w.row .runs id = some run ∧ step ≤ run.optimizerStep

/-- The run resumes from a checkpoint of its own at the step or later. -/
def ResumesFrom (w : World) (id : String) (step : Int) : Prop :=
  ∃ (run : RLRun) (checkpoint : RLCheckpointRecord), w.row .runs id = some run ∧
    w.row .checkpoints run.checkpointID = some checkpoint ∧ checkpoint.runID = id ∧
    step ≤ checkpoint.optimizerStep

/-- Every stored checkpoint is committed and has a name. -/
def AllCommitted (w : World) : Prop :=
  ∀ (id : String) (checkpoint : RLCheckpointRecord), w.row .checkpoints id = some checkpoint →
    checkpoint.status = "committed" ∧ checkpoint.id ≠ ""

section Step

variable {strict : Bool} {cfg : Config} {request : Request} {L0 L : Ledger} {w : World}
  {stored run : RLRun} {id : String} {step : Int}

theorem committed_id_ne (runID : String) (body : CheckpointBody) :
    (committed runID body).id ≠ "" := by
  intro h
  have hlength := congrArg String.length h
  simp only [committed, String.length_append] at hlength
  have hpositive : 0 < "ckpt-".length := by decide
  have hempty : "".length = 0 := by decide
  omega

theorem AllCommitted.effect (h : AllCommitted L.world)
    (heffect : Effect strict cfg request L0 L w) : AllCommitted w := by
  intro id checkpoint hrow
  rcases heffect.row_of_checkpoint hrow with hold | ⟨stored, body, _, rfl⟩
  · exact h id checkpoint hold
  · exact ⟨rfl, committed_id_ne stored.id body⟩

/-! ## Steps -/

theorem step_le_of_core {c : Core} (h : core run = c)
    (hstep : c.optimizerStep = stored.optimizerStep) : stored.optimizerStep ≤ run.optimizerStep :=
  (hstep.symm.trans (congrArg Core.optimizerStep h).symm).le

theorem Asked.step_le (h : Asked cfg request L.world stored run)
    (hcommit : ∀ body, Commits request stored body →
      stored.optimizerStep ≤ body.optimizerStep) :
    stored.optimizerStep ≤ run.optimizerStep := by
  cases h with
  | same h | cancelled _ _ h | suspended _ _ _ h | resumed _ _ _ h | activated _ _ _ h
  | rolledBack _ _ _ h => exact step_le_of_core h rfl
  | committed body hcommits _ _ h | scheduled body hcommits _ _ _ h =>
    rw [show run.optimizerStep = body.optimizerStep from congrArg Core.optimizerStep h]
    exact hcommit body hcommits
  | progressed body _ hstep h =>
    rw [show run.optimizerStep = body.optimizerStep from congrArg Core.optimizerStep h]
    exact hstep

theorem Reconciled.step_le (h : Reconciled cfg L0 L stored (core run))
    (hforward : Forward L0.world .reconcilePass) :
    stored.optimizerStep ≤ run.optimizerStep := by
  cases h with
  | same h | cancelling h | cancelled _ h | suspended _ h | attempted _ _ h | running _ h
  | completed _ h | failed _ h | retried _ h | evaluating _ _ _ h | canary _ _ _ h
  | rolledBack _ _ h | promoted _ _ h => exact step_le_of_core h rfl
  | adopted _ checkpoint hlatest horigin h =>
    obtain ⟨run0, hrow, hnone, hstep⟩ := horigin
    have hid : run0.id = stored.id := L0.world.keyed Table.runs stored.id run0 hrow
    rw [← hid] at hrow hlatest
    rw [show run.optimizerStep = checkpoint.optimizerStep from congrArg Core.optimizerStep h,
      ← hstep]
    exact hforward.pass rfl run0 checkpoint hrow hnone hlatest

theorem StepReached.effect (h : StepReached L.world id step)
    (hforward : Forward L0.world request) (heffect : Effect strict cfg request L0 L w) :
    StepReached w id step := by
  obtain ⟨stored, hstored, hstep⟩ := h
  obtain ⟨run, hrun, hrewritten⟩ := heffect.run_of_row hstored
  refine ⟨run, hrun, hstep.trans ?_⟩
  cases hrewritten with
  | kept h => rw [h]
  | plain _ _ _ h => exact (congrArg Core.optimizerStep h).symm.le
  | ask horigin h =>
    exact h.step_le fun body hcommit => (hforward.commit stored body horigin hcommit).1
  | reconcile hrequest _ _ h _ =>
    subst hrequest
    exact h.step_le hforward

/-! ## Checkpoints -/

theorem Asked.checkpoint (h : Asked cfg request L.world stored run) :
    run.checkpointID = stored.checkpointID ∨ ∃ body, Commits request stored body ∧
      CheckpointAt L.world run.checkpointID stored.id body.optimizerStep := by
  cases h with
  | same h | cancelled _ _ h | suspended _ _ _ h | resumed _ _ _ h | activated _ _ _ h
  | rolledBack _ _ _ h | progressed _ _ _ h => exact .inl (congrArg Core.checkpointID h)
  | committed body hcommit _ hcheckpoint _ | scheduled body hcommit _ _ hcheckpoint _ =>
    exact .inr ⟨body, hcommit, hcheckpoint⟩

theorem Reconciled.checkpoint (h : Reconciled cfg L0 L stored (core run)) :
    run.checkpointID = stored.checkpointID ∨
      ∃ run0 : RLRun, L0.world.row .runs stored.id = some run0 ∧ run0.checkpointID = "" := by
  cases h with
  | same h | cancelling h | cancelled _ h | suspended _ h | attempted _ _ h | running _ h
  | completed _ h | failed _ h | retried _ h | evaluating _ _ _ h | canary _ _ _ h
  | rolledBack _ _ h | promoted _ _ h => exact .inl (congrArg Core.checkpointID h)
  | adopted _ _ _ horigin _ =>
    obtain ⟨run0, hrow, hnone, _⟩ := horigin
    exact .inr ⟨run0, hrow, hnone⟩

/-- One operation does not take back the checkpoint a run resumes from.  `h0` is about
the ledger in which the request came in. -/
theorem ResumesFrom.effect (h : ResumesFrom L.world id step) (h0 : ResumesFrom L0.world id step)
    (hcommitted : AllCommitted L0.world) (hforward : Forward L0.world request)
    (heffect : Effect strict cfg request L0 L w) : ResumesFrom w id step := by
  obtain ⟨stored, checkpoint, hstored, hcheckpoint, hown, hstep⟩ := h
  obtain ⟨run0, checkpoint0, hrun0, hcheckpoint0, hown0, hstep0⟩ := h0
  obtain rfl : stored.id = id := L.world.keyed Table.runs id stored hstored
  obtain ⟨hstatus0, hname0⟩ := hcommitted _ _ hcheckpoint0
  have hid0 : checkpoint0.id = run0.checkpointID :=
    L0.world.keyed Table.checkpoints _ checkpoint0 hcheckpoint0
  obtain ⟨run, hrun, hrewritten⟩ := heffect.run_of_row hstored
  have hsame : run.checkpointID = stored.checkpointID → ResumesFrom w stored.id step :=
    fun heq => ⟨run, checkpoint, hrun, by rw [heq]; exact heffect.checkpoint_of_row hcheckpoint,
      hown, hstep⟩
  cases hrewritten with
  | kept h => exact hsame (by rw [h])
  | plain _ _ _ h => exact hsame (congrArg Core.checkpointID h)
  | ask horigin h =>
    rcases h.checkpoint with heq | ⟨body, hcommit, new, hnew, hnewRun, hnewStep⟩
    · exact hsame heq
    · refine ⟨run, new, hrun, heffect.checkpoint_of_row hnew, hnewRun, ?_⟩
      rw [hnewStep]
      refine hstep0.trans ((hforward.commit stored body horigin hcommit).2 checkpoint0 ?_ hown0
        hstatus0)
      rw [hid0]
      exact hcheckpoint0
  | reconcile _ _ _ h _ =>
    rcases h.checkpoint with heq | ⟨run1, hrun1, hnone⟩
    · exact hsame heq
    · cases hrun1.symm.trans hrun0
      exact absurd (hid0.trans hnone) hname0

end Step

/-! ## Served requests -/

/-- Served requests that do not lie behind. -/
abbrev ForwardRun (cfg : Config) : Ledger → List Exchange → Ledger → Prop :=
  Run (Guarded (Serves cfg) fun L exchange => Forward L.world exchange.request)

section Requests

variable {cfg : Config} {L L' : Ledger} {exchange : Exchange} {exchanges : List Exchange}
  {id : String} {step : Int}

theorem allCommitted_of_run (hrun : ForwardRun cfg Ledger.initial exchanges L) :
    AllCommitted L.world := by
  refine hrun.invariant (I := fun L => AllCommitted L.world) ?_ ?_
  · intro _ _ h
    exact absurd h row_empty_ne
  · rintro L exchange L' hcommitted ⟨hserves, _⟩
    exact serves_preserves hserves hcommitted fun _ _ h heffect => h.effect heffect

theorem StepReached.run (h : StepReached L.world id step) (hrun : ForwardRun cfg L exchanges L') :
    StepReached L'.world id step := by
  refine hrun.invariant (I := fun L => StepReached L.world id step) h ?_
  rintro L exchange L' hreached ⟨hserves, hforward⟩
  have hforward0 : Forward (L.receive exchange.request).world exchange.request := hforward
  exact serves_preserves (I := fun w => StepReached w id step) hserves hreached
    fun _ _ h heffect => h.effect hforward0 heffect

theorem ResumesFrom.run (h : ResumesFrom L.world id step) (hcommitted : AllCommitted L.world)
    (hrun : ForwardRun cfg L exchanges L') : ResumesFrom L'.world id step := by
  suffices hboth : ResumesFrom L'.world id step ∧ AllCommitted L'.world from hboth.1
  refine hrun.invariant (I := fun L => ResumesFrom L.world id step ∧ AllCommitted L.world)
    ⟨h, hcommitted⟩ ?_
  rintro L exchange L' ⟨hresumes, hcommitted⟩ ⟨hserves, hforward⟩
  have hforward0 : Forward (L.receive exchange.request).world exchange.request := hforward
  have hcommitted0 : AllCommitted (L.receive exchange.request).world := hcommitted
  have hresumes0 : ResumesFrom (L.receive exchange.request).world id step := hresumes
  exact serves_preserves (I := fun w => ResumesFrom w id step ∧ AllCommitted w) hserves
    ⟨hresumes, hcommitted⟩ fun _ _ h heffect =>
      ⟨h.1.effect hresumes0 hcommitted0 hforward0 heffect, h.2.effect heffect⟩

theorem accepted_of_serves {body : Option CheckpointBody} {payload : Body}
    (h : Serves cfg L ⟨.commitCheckpoint id body, some ⟨201, payload⟩⟩ L') :
    ∃ stored commit, Accepted (.commitCheckpoint id body)
      (L.receive (.commitCheckpoint id body)) L' stored commit := by
  obtain ⟨response, L1, hhandler, hreturn⟩ := Prog.Runs.of_bind h
  cases hreturn
  have hwp : wp (supervised false cfg (.commitCheckpoint id body)
      (L.receive (.commitCheckpoint id body))) (rlCommitCheckpoint cfg id body) _ _ :=
    wp_rlCommitCheckpoint (Extends.refl _) rfl
  exact (hhandler.checked (I := fun _ => True) (fun _ _ _ _ _ _ _ => trivial) hwp trivial).2 rfl

/-- After an accepted commit that does not lie behind, the run names the latest committed
checkpoint. -/
theorem Accepted.latest {request : Request} {stored : RLRun} {commit : CheckpointBody}
    (h : Accepted request L L' stored commit) (hforward : Forward L.world request)
    (hcommitted : AllCommitted L.world) (hcommitted' : AllCommitted L'.world) :
    ∃ (run : RLRun) (checkpoint : RLCheckpointRecord),
      L'.world.row .runs stored.id = some run ∧ run.checkpointID = checkpoint.id ∧
      checkpoint.optimizerStep = commit.optimizerStep ∧
      LatestCheckpoint L'.world stored.id checkpoint := by
  obtain ⟨run, hrun, checkpoint, hcheckpoint, hown, hstep⟩ := h.run
  have hid : checkpoint.id = run.checkpointID :=
    L'.world.keyed Table.checkpoints _ checkpoint hcheckpoint
  refine ⟨run, checkpoint, hrun, hid.symm, hstep, by rw [hid]; exact hcheckpoint, hown,
    (hcommitted' _ _ hcheckpoint).1, fun other hother hotherRun _ => ?_⟩
  rw [hstep]
  rcases h.others other hother with hold | rfl
  · exact (hforward.commit stored commit h.origin h.commits).2 other hold hotherRun
      (hcommitted _ _ hold).1
  · exact le_rfl

end Requests

/-- Progress from a ledger on: steps do not decrease; a commit answered with 201 leaves the
run with the latest committed checkpoint; and the run resumes from that checkpoint or from
a later one ever after. -/
structure TrainingMonotone (cfg : Config) (L : Ledger) : Prop where
  step : ∀ {exchanges : List Exchange} {L' : Ledger}, ForwardRun cfg L exchanges L' →
    ∀ run : RLRun, L.world.row .runs run.id = some run →
      StepReached L'.world run.id run.optimizerStep
  checkpoint : ∀ {id : String} {body : Option CheckpointBody} {payload : Body} {L' : Ledger},
    Serves cfg L ⟨.commitCheckpoint id body, some ⟨201, payload⟩⟩ L' →
    Forward L.world (.commitCheckpoint id body) →
      ∃ (run : RLRun) (checkpoint : RLCheckpointRecord), L'.world.row .runs id = some run ∧
        run.checkpointID = checkpoint.id ∧ LatestCheckpoint L'.world id checkpoint
  resume : ∀ {id : String} {body : CheckpointBody} {payload : Body} {L1 L2 : Ledger}
    {exchanges : List Exchange},
    Serves cfg L ⟨.commitCheckpoint id (some body), some ⟨201, payload⟩⟩ L1 →
    Forward L.world (.commitCheckpoint id (some body)) → ForwardRun cfg L1 exchanges L2 →
      ResumesFrom L2.world id body.optimizerStep

/-- While no commit and no pass lies behind, training progress is monotone. -/
theorem training_monotone (cfg : Config) {exchanges : List Exchange} {L : Ledger}
    (hrun : ForwardRun cfg Ledger.initial exchanges L) : TrainingMonotone cfg L := by
  have hcommitted := allCommitted_of_run hrun
  -- an accepted commit names its run, and the checkpoints after it are committed, too
  have haccepted : ∀ {id : String} {body : Option CheckpointBody} {payload : Body} {L' : Ledger},
      Serves cfg L ⟨.commitCheckpoint id body, some ⟨201, payload⟩⟩ L' →
      Forward L.world (.commitCheckpoint id body) →
        AllCommitted L'.world ∧ ∃ (commit : CheckpointBody) (run : RLRun)
          (checkpoint : RLCheckpointRecord), body = some commit ∧
          L'.world.row .runs id = some run ∧ run.checkpointID = checkpoint.id ∧
          checkpoint.optimizerStep = commit.optimizerStep ∧
          LatestCheckpoint L'.world id checkpoint := by
    intro id body payload L' hserves hforward
    have hcommitted' := allCommitted_of_run (hrun.snoc ⟨hserves, hforward⟩)
    obtain ⟨stored, commit, haccepted⟩ := accepted_of_serves hserves
    obtain ⟨run, checkpoint, hfacts⟩ := haccepted.latest hforward hcommitted hcommitted'
    have hrequest := haccepted.commits.request
    simp only [Request.commitCheckpoint.injEq] at hrequest
    obtain ⟨rfl, hbody⟩ := hrequest
    exact ⟨hcommitted', commit, run, checkpoint, hbody, hfacts⟩
  refine ⟨fun hrest run hrow => ?_, fun hserves hforward => ?_,
    fun hserves hforward hrest => ?_⟩
  · exact StepReached.run ⟨run, hrow, le_rfl⟩ hrest
  · obtain ⟨-, _, run, checkpoint, -, hrow, hid, -, hlatest⟩ := haccepted hserves hforward
    exact ⟨run, checkpoint, hrow, hid, hlatest⟩
  · obtain ⟨hcommitted', commit, run, checkpoint, hbody, hrow, hid, hstep, hlatest⟩ :=
      haccepted hserves hforward
    cases hbody
    refine ResumesFrom.run ⟨run, checkpoint, hrow, ?_, hlatest.run, hstep.ge⟩ hcommitted' hrest
    rw [hid]
    exact hlatest.stored

/-! ## Computed histories -/

def forwardCheck (w : World) : Request → Bool
  | .commitCheckpoint id (some body) =>
    ((w.row .runs id).all fun run : RLRun => run.optimizerStep ≤ body.optimizerStep) &&
      (w.rows .checkpoints).all fun checkpoint : RLCheckpointRecord =>
        checkpoint.runID ≠ id || checkpoint.optimizerStep ≤ body.optimizerStep
  | .reconcilePass =>
    (w.rows .runs).all fun run : RLRun => run.checkpointID ≠ "" ||
      (w.rows .checkpoints).all fun checkpoint : RLCheckpointRecord =>
        checkpoint.runID ≠ run.id || run.optimizerStep ≤ checkpoint.optimizerStep
  | _ => true

theorem forward_of_check {w : World} {request : Request} (h : forwardCheck w request = true) :
    Forward w request where
  commit run body hrow hcommit := by
    rw [hcommit.request, forwardCheck, Bool.and_eq_true] at h
    obtain ⟨hrun, hcheckpoints⟩ := h
    refine ⟨?_, fun checkpoint hstored hown _ => ?_⟩
    · rw [show w.row .runs run.id = some run from hrow] at hrun
      exact of_decide_eq_true hrun
    · have hmem := (mem_rows_iff (t := .checkpoints)).mpr hstored
      have hchecked := List.all_eq_true.mp hcheckpoints checkpoint hmem
      simpa [hown] using hchecked
  pass hrequest run checkpoint hrow hnone hlatest := by
    subst hrequest
    have hmem := (mem_rows_iff (t := .runs)).mpr hrow
    have hrun := List.all_eq_true.mp h run hmem
    simp only [hnone, ne_eq, not_true_eq_false, decide_false, Bool.false_or] at hrun
    have hmem' := (mem_rows_iff (t := .checkpoints)).mpr hlatest.stored
    have hchecked := List.all_eq_true.mp hrun checkpoint hmem'
    simpa [hlatest.run] using hchecked

theorem stepReached_iff {w : World} {id : String} {step : Int} :
    StepReached w id step ↔
      (w.row .runs id).any (fun run : RLRun => step ≤ run.optimizerStep) = true := by
  refine Iff.trans ?_ (Option.any_eq_true _ _).symm
  exact exists_congr fun run => and_congr Iff.rfl decide_eq_true_iff.symm

instance (w : World) (id : String) (step : Int) : Decidable (StepReached w id step) :=
  decidable_of_iff _ stepReached_iff.symm

def forwardHistory : List Visit :=
  sampleStarted ++ [sampleCommit 3 "v1", sampleCommit 4 "v2",
    ⟨.trainerProgress sampleID (some ⟨"attempt-001-" ++ sampleID, 6⟩), agreeable⟩,
    ⟨.reconcilePass, jobsAre "RUNNING"⟩]

def forwardLedger : Ledger :=
  (serveAllWhen sampleConfig forwardCheck Ledger.initial forwardHistory).2

theorem training_monotone_forwardHistory :
    StepReached forwardLedger.world sampleID 6 ∧ TrainingMonotone sampleConfig forwardLedger := by
  have hrun := run_serveAllWhen sampleConfig forwardCheck Ledger.initial forwardHistory
  refine ⟨by decide +kernel, training_monotone sampleConfig (hrun.mono fun L exchange L' h =>
    ⟨h.1, forward_of_check h.2⟩)⟩

def aheadLedger : Ledger :=
  (serveAll sampleConfig Ledger.initial (sampleStarted ++ [sampleCommit 4 "v2"])).2

structure CommitSummary where
  code : Option Nat
  run : Option (Int × String)
  three : Option Int
  four : Option (String × String × Int)
deriving DecidableEq

def commitSummary (served : Exchange × Ledger) : CommitSummary where
  code := served.1.response.map (·.code)
  run := (served.2.world.row .runs sampleID).map fun run : RLRun =>
    (run.optimizerStep, run.checkpointID)
  three := (served.2.world.row .checkpoints "ckpt-rl-000000000000-3").map
    fun checkpoint : RLCheckpointRecord => checkpoint.optimizerStep
  four := (served.2.world.row .checkpoints "ckpt-rl-000000000000-4").map
    fun checkpoint : RLCheckpointRecord =>
      (checkpoint.runID, checkpoint.status, checkpoint.optimizerStep)

theorem serve_lateCommit :
    (serve sampleConfig aheadLedger (sampleCommit 3 "v1")).map commitSummary =
      some ⟨some 201, some (3, "ckpt-rl-000000000000-3"), some 3,
        some (sampleID, "committed", 4)⟩ := by
  decide +kernel

/-- A commit that arrives late is accepted: the step of the run decreases, and the run does
not name its latest committed checkpoint. -/
theorem progress_lost :
    StepReached aheadLedger.world sampleID 4 ∧ ∃ exchange L,
      Serves sampleConfig aheadLedger exchange L ∧ exchange.response.map (·.code) = some 201 ∧
      ¬StepReached L.world sampleID 4 ∧
      ¬∃ (run : RLRun) (checkpoint : RLCheckpointRecord),
        L.world.row .runs sampleID = some run ∧ run.checkpointID = checkpoint.id ∧
        LatestCheckpoint L.world sampleID checkpoint := by
  obtain ⟨⟨exchange, L⟩, hserve, hfacts⟩ := Option.map_eq_some_iff.mp serve_lateCommit
  simp only [commitSummary, CommitSummary.mk.injEq] at hfacts
  obtain ⟨hcode, hrun, hthree, hfour⟩ := hfacts
  obtain ⟨run, hrow, hcolumns⟩ := Option.map_eq_some_iff.mp hrun
  obtain ⟨hstep, hcheckpoint⟩ := Prod.mk.inj hcolumns
  refine ⟨by decide +kernel, exchange, L, serves_of_serve hserve, hcode, ?_, ?_⟩
  · rintro ⟨run', hrow', hstep'⟩
    cases hrow.symm.trans hrow'
    omega
  · rintro ⟨run', latest, hrow', hid, hlatest⟩
    cases hrow.symm.trans hrow'
    obtain ⟨three, hthreeRow, hthreeStep⟩ := Option.map_eq_some_iff.mp hthree
    obtain ⟨four, hfourRow, hfourColumns⟩ := Option.map_eq_some_iff.mp hfour
    simp only [Prod.mk.injEq] at hfourColumns
    obtain ⟨hfourRun, hfourStatus, hfourStep⟩ := hfourColumns
    have hstored := hlatest.stored
    rw [← hid, hcheckpoint] at hstored
    cases hthreeRow.symm.trans hstored
    have hfourID : four.id = "ckpt-rl-000000000000-4" :=
      L.world.keyed Table.checkpoints _ four hfourRow
    rw [← hfourID] at hfourRow
    have hle := hlatest.latest four hfourRow hfourRun hfourStatus
    omega

end RL
end Skyscale
