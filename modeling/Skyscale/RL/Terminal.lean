import Skyscale.RL.History

/-!
# Ended runs

`completed`, `failed` and `cancelled` are meant to be final.  The reconciler and the
handlers that suspend and resume a run test for them; the commit of a checkpoint does
not.  A late commit at a multiple of the evaluation period puts an ended run under
evaluation (`cancelled_revived`), and `terminal_absorbing` says that, deletion
requests aside, nothing else changes the status of an ended run.
-/

namespace Skyscale
namespace RL

open Lib State Control K8s Contracts

/-- The request commits a checkpoint of the stored run that starts a periodic
evaluation. -/
def PeriodicCommit (cfg : Config) (w : World) (id : String) (request : Request) : Prop :=
  ∃ (run : RLRun) (body : CheckpointBody), w.row .runs id = some run ∧ Commits request run body ∧
    periodicEvaluation cfg run body.optimizerStep = true

/-- The run is stored as a slime run with a status. -/
def HasStatus (w : World) (id : String) (status : RunStatus) : Prop :=
  ∃ run : RLRun, w.row .runs id = some run ∧ run.backend = .slime ∧ run.status = status

theorem hasStatus_iff {w : World} {id : String} {status : RunStatus} :
    HasStatus w id status ↔
      ((w.row .runs id).map fun run : RLRun => (run.backend, run.status)) =
        some (.slime, status) := by
  refine Iff.trans ?_ Option.map_eq_some_iff.symm
  constructor
  · rintro ⟨run, hrow, hslime, hstatus⟩
    exact ⟨run, hrow, Prod.ext hslime hstatus⟩
  · rintro ⟨run, hrow, hpair⟩
    exact ⟨run, hrow, congrArg Prod.fst hpair, congrArg Prod.snd hpair⟩

instance (w : World) (id : String) (status : RunStatus) : Decidable (HasStatus w id status) :=
  decidable_of_iff _ hasStatus_iff.symm

section Requests

variable {strict : Bool} {cfg : Config} {request : Request} {L0 L : Ledger} {stored run : RLRun}
  {id : String} {status : RunStatus}

theorem status_eq_of_core {c : Core} (h : core run = c) : run.status = c.status :=
  congrArg Core.status h

theorem Asked.status_of_terminal (h : Asked cfg request L.world stored run)
    (hended : terminal stored.status = true) (hdelete : request ≠ .stopRun stored.id)
    (hcommit : ∀ body, Commits request stored body →
      periodicEvaluation cfg stored body.optimizerStep = false) :
    run.status = stored.status := by
  cases h with
  | same h | suspended _ _ _ h | activated _ _ _ h | rolledBack _ _ _ h | committed _ _ _ _ h
  | progressed _ _ _ h => exact status_eq_of_core h
  | cancelled hrequest _ _ => exact absurd hrequest hdelete
  | resumed _ _ hlive _ =>
    rw [hlive] at hended
    cases hended
  | scheduled body hcommits hperiodic _ _ _ =>
    rw [hcommit body hcommits] at hperiodic
    cases hperiodic

theorem HasStatus.effect {w : World} (h : HasStatus L.world id status)
    (hended : terminal status = true) (hdelete : request ≠ .stopRun id)
    (hcommit : ¬PeriodicCommit cfg L0.world id request)
    (heffect : Effect strict cfg request L0 L w) : HasStatus w id status := by
  obtain ⟨stored, hstored, hslime, rfl⟩ := h
  obtain rfl : stored.id = id := L.world.keyed Table.runs id stored hstored
  obtain ⟨run, hrun, hrewritten⟩ := heffect.run_of_row hstored
  refine ⟨run, hrun, (backend_eq_of_fixed hrewritten.fixed).trans hslime, ?_⟩
  cases hrewritten with
  | kept h => rw [h]
  | plain hbackend _ _ _ => exact absurd hslime hbackend
  | ask horigin h =>
    refine h.status_of_terminal hended hdelete fun body hcommits => ?_
    exact Bool.eq_false_of_not_eq_true fun hperiodic =>
      hcommit ⟨stored, body, horigin, hcommits, hperiodic⟩
  | reconcile _ _ hlive _ _ =>
    rw [hlive] at hended
    cases hended

end Requests

/-- While nobody deletes an ended run or commits a periodic checkpoint of it, its
status stays. -/
theorem terminal_absorbing (cfg : Config) (id : String) (status : RunStatus)
    (hended : terminal status = true) {L L' : Ledger} {exchanges : List Exchange}
    (hstatus : HasStatus L.world id status)
    (hrun : Run (Guarded (Serves cfg) fun L exchange =>
      exchange.request ≠ .stopRun id ∧ ¬PeriodicCommit cfg L.world id exchange.request)
      L exchanges L') :
    HasStatus L'.world id status := by
  refine hrun.invariant (I := fun L => HasStatus L.world id status) hstatus ?_
  rintro L exchange L' hstatus ⟨hserves, hdelete, hcommit⟩
  -- the log entry of the request leaves the database as it is
  have hcommit0 : ¬PeriodicCommit cfg (L.receive exchange.request).world id exchange.request :=
    hcommit
  exact serves_preserves (I := fun w => HasStatus w id status) hserves hstatus
    fun L1 w hL1 heffect => hL1.effect hended hdelete hcommit0 heffect

def cancelledLedger : Ledger :=
  (serveAll sampleConfig Ledger.initial
    (sampleStarted ++ [⟨.stopRun sampleID, agreeable⟩, ⟨.reconcilePass, agreeable⟩])).2

def offPeriod : Request → Bool
  | .stopRun _ => false
  | .commitCheckpoint _ (some body) => body.optimizerStep % 5 ≠ 0
  | _ => true

theorem offPeriod_of_commits {request : Request} {run : RLRun} {body : CheckpointBody}
    (h : Commits request run body) (hrequest : offPeriod request = true) :
    periodicEvaluation sampleConfig run body.optimizerStep = false := by
  rw [h.request] at hrequest
  have hstep : body.optimizerStep % 5 ≠ 0 := of_decide_eq_true hrequest
  show (decide ((5 : Int) > 0) && decide (body.optimizerStep > 0) &&
    decide (body.optimizerStep % 5 = 0)) = false
  rw [decide_eq_false hstep, Bool.and_false]

def lateRequests : List Visit :=
  [sampleCommit 3 "v1",
    ⟨.trainerProgress sampleID (some ⟨"attempt-001-" ++ sampleID, 4⟩), agreeable⟩,
    ⟨.reconcilePass, jobsAre "RUNNING"⟩]

theorem terminal_absorbing_lateRequests :
    HasStatus (serveAll sampleConfig cancelledLedger lateRequests).2.world sampleID .cancelled := by
  have hrun := (run_serveAll sampleConfig cancelledLedger lateRequests).guarded_of_labels
    (P := fun exchange => offPeriod exchange.request = true) (by decide +kernel)
  refine terminal_absorbing sampleConfig sampleID .cancelled rfl (by decide +kernel) (hrun.mono ?_)
  rintro L exchange L' ⟨hserves, hoff⟩
  refine ⟨hserves, fun hdelete => ?_, ?_⟩
  · rw [hdelete] at hoff
    cases hoff
  · rintro ⟨run, body, _, hcommits, hperiodic⟩
    rw [offPeriod_of_commits hcommits hoff] at hperiodic
    cases hperiodic

def deletes : Request → Bool
  | .stopRun _ => true
  | _ => false

/-- The commit of a checkpoint at step five puts the cancelled run under evaluation. -/
theorem cancelled_revived :
    HasStatus cancelledLedger.world sampleID .cancelled ∧
      ∃ exchanges L, Run (Serves sampleConfig) cancelledLedger exchanges L ∧
        (∀ exchange ∈ exchanges, exchange.request ≠ .stopRun sampleID) ∧
        HasStatus L.world sampleID .evaluating := by
  have hkind : ∀ exchange ∈ (serveAll sampleConfig cancelledLedger [sampleCommit 5 "v1"]).1,
      deletes exchange.request = false := by decide +kernel
  refine ⟨by decide +kernel, _, _,
    run_serveAll sampleConfig cancelledLedger [sampleCommit 5 "v1"], ?_, by decide +kernel⟩
  intro exchange hmem hdelete
  have hnot := hkind exchange hmem
  rw [hdelete] at hnot
  cases hnot

end RL
end Skyscale
