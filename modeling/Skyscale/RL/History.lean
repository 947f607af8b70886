import Skyscale.RL.Passes

/-!
# What served requests do to the rows

Every operation of a served request is lawful (`lawfully_program`), and a lawful
operation writes at most one followed row (`Lawful.effect`).  Here this is read row by
row: where a stored run or evaluation comes from, and what becomes of it.

* `RunWrite.cases`: a written run is created, or is what one operation makes of a stored one;
* `Effect.run_of_row` follows a run forwards, `Effect.row_of_run` backwards;
* `Effect.evaluation_of_row` and `Effect.row_of_evaluation` do the same for evaluations,
  `Effect.checkpoint_of_row` and `Effect.row_of_checkpoint` for checkpoints;
* `serves_invariant` and `serves_preserves` are the induction over the operations of a
  request;
* `records_endure`: no history loses a record.
-/

namespace Skyscale
namespace RL

open Lib State Control K8s Contracts

section Rows

variable {strict : Bool} {cfg : Config} {request : Request} {L0 L : Ledger} {w : World}
  {stored run : RLRun} {id : String}

theorem Rewritten.fixed (h : Rewritten strict cfg request L0 L stored run) :
    (core run).fixed = (core stored).fixed := by
  cases h with
  | kept h => rw [h]
  | plain _ _ _ h => exact (congrArg Core.fixed h).trans rfl
  | ask _ h | reconcile _ _ _ h _ => exact h.fixed

@[grind =]
theorem row_save_run_self (w : World) (run : RLRun) :
    (w.save Table.runs run).row .runs run.id = some run :=
  row_save_self (t := .runs) w run

@[grind =]
theorem row_save_run_of_ne (w : World) (h : id ≠ run.id) :
    (w.save Table.runs run).row .runs id = w.row .runs id :=
  (row_save (t := .runs) w run id).trans (if_neg h)

@[grind =]
theorem row_save_other (w : World) {t : Table} (r : t.Row) (t' : Table) (h : t' ≠ t) (k : t'.Key) :
    (w.save t r).row t' k = w.row t' k :=
  Database.row_save_of_ne (S := schema) (t := t) w r k h

@[grind =]
theorem row_save_evaluation_self (w : World) (e : RLEvaluationRecord) :
    (w.save Table.evaluations e).row .evaluations e.id = some e :=
  row_save_self (t := .evaluations) w e

variable {e : RLEvaluationRecord}

@[grind =]
theorem row_save_evaluation_of_ne (w : World) (h : id ≠ e.id) :
    (w.save Table.evaluations e).row .evaluations id = w.row .evaluations id :=
  (row_save (t := .evaluations) w e id).trans (if_neg h)

/-- A write of a run creates a row or changes the stored one. -/
theorem RunWrite.cases (h : RunWrite strict cfg request L0 L run) :
    (L.world.row .runs run.id = none ∧ Created cfg request L0 L run) ∨
      ∃ stored, L.world.row .runs run.id = some stored ∧
        Rewritten strict cfg request L0 L stored run := by
  cases h with
  | create hfresh h => exact .inl ⟨hfresh, h⟩
  | change hstored h =>
    -- a changed row keeps its identifier, so it is the row stored under that of the new one
    rw [← id_eq_of_fixed h.fixed] at hstored
    exact .inr ⟨_, hstored, h⟩

theorem Effect.runs (h : Effect strict cfg request L0 L w) :
    w.table .runs = L.world.table .runs ∨
      ∃ run, RunWrite strict cfg request L0 L run ∧ w = L.world.save Table.runs run := by
  cases h with
  | idle h _ => exact .inl (h .runs rfl nofun)
  | run run h hworld => exact .inr ⟨run, h, hworld⟩
  | evaluation e h hworld =>
    rw [hworld]
    exact .inl (table_save_of_ne (t := .evaluations) _ e nofun)
  | commit stored body _ _ _ hworld =>
    rw [hworld]
    exact .inl (table_save_of_ne (t := .checkpoints) _ _ nofun)

theorem Effect.evaluations (h : Effect strict cfg request L0 L w) :
    w.table .evaluations = L.world.table .evaluations ∨
      ∃ e, EvaluationWrite cfg request L0 L e ∧ w = L.world.save Table.evaluations e := by
  cases h with
  | idle h _ => exact .inl (h .evaluations rfl nofun)
  | run run h hworld =>
    rw [hworld]
    exact .inl (table_save_of_ne (t := .runs) _ run nofun)
  | evaluation e h hworld => exact .inr ⟨e, h, hworld⟩
  | commit stored body _ _ _ hworld =>
    rw [hworld]
    exact .inl (table_save_of_ne (t := .checkpoints) _ _ nofun)

theorem Effect.run_of_row (h : Effect strict cfg request L0 L w)
    (hstored : L.world.row .runs id = some stored) :
    ∃ run : RLRun, w.row .runs id = some run ∧ Rewritten strict cfg request L0 L stored run := by
  rcases h.runs with htable | ⟨run, hwrite, rfl⟩
  · exact ⟨stored, (row_congr htable id).trans hstored,
      .kept rfl⟩
  · by_cases hid : id = run.id
    · subst hid
      refine ⟨run, row_save_run_self _ _, ?_⟩
      rcases hwrite.cases with ⟨hfresh, _⟩ | ⟨stored', hstored', hrewritten⟩
      · cases hfresh.symm.trans hstored
      · cases hstored'.symm.trans hstored
        exact hrewritten
    · exact ⟨stored, (row_save_run_of_ne _ hid).trans hstored, .kept rfl⟩

theorem Effect.row_of_run (h : Effect strict cfg request L0 L w)
    (hrun : w.row .runs id = some run) :
    (∃ stored : RLRun, L.world.row .runs id = some stored ∧
      Rewritten strict cfg request L0 L stored run) ∨
    (L.world.row .runs id = none ∧ Created cfg request L0 L run) := by
  cases hstored : L.world.row .runs id with
  | some stored =>
    obtain ⟨run', hrun', hrewritten⟩ := h.run_of_row hstored
    cases hrun'.symm.trans hrun
    exact .inl ⟨stored, rfl, hrewritten⟩
  | none =>
    refine .inr ⟨rfl, ?_⟩
    rcases h.runs with htable | ⟨run', hwrite, rfl⟩
    · have hrow := (row_congr htable id).trans hstored
      cases hrow.symm.trans hrun
    · by_cases hid : id = run'.id
      · subst hid
        cases (row_save_run_self _ _).symm.trans hrun
        rcases hwrite.cases with ⟨_, hcreated⟩ | ⟨stored', hstored', _⟩
        · exact hcreated
        · cases hstored.symm.trans hstored'
      · cases ((row_save_run_of_ne _ hid).trans hstored).symm.trans hrun

theorem Effect.row_of_evaluation (h : Effect strict cfg request L0 L w)
    (he : w.row .evaluations id = some e) :
    L.world.row .evaluations id = some e ∨ EvaluationWrite cfg request L0 L e := by
  rcases h.evaluations with htable | ⟨e', hwrite, rfl⟩
  · exact .inl ((row_congr htable id).symm.trans he)
  · by_cases hid : id = e'.id
    · subst hid
      cases (row_save_evaluation_self _ _).symm.trans he
      exact .inr hwrite
    · exact .inl ((row_save_evaluation_of_ne _ hid).symm.trans he)

theorem Effect.evaluation_of_row (h : Effect strict cfg request L0 L w)
    (he : L.world.row .evaluations id = some e) :
    ∃ e' : RLEvaluationRecord, w.row .evaluations id = some e' ∧
      (e' = e ∨ e'.id = id ∧ EvaluationWrite cfg request L0 L e') := by
  rcases h.evaluations with htable | ⟨e', hwrite, rfl⟩
  · exact ⟨e, (row_congr htable id).trans he,
      .inl rfl⟩
  · by_cases hid : id = e'.id
    · subst hid
      exact ⟨e', row_save_evaluation_self _ _, .inr ⟨rfl, hwrite⟩⟩
    · exact ⟨e, (row_save_evaluation_of_ne _ hid).trans he, .inl rfl⟩

theorem Effect.checkpoints (h : Effect strict cfg request L0 L w) :
    w.table .checkpoints = L.world.table .checkpoints ∨
      ∃ stored body, Commits request stored body ∧
        L.world.row .checkpoints (committed stored.id body).id = none ∧
        w = L.world.save Table.checkpoints (committed stored.id body) := by
  cases h with
  | idle h _ => exact .inl (h .checkpoints rfl nofun)
  | run run _ hworld =>
    rw [hworld]
    exact .inl (table_save_of_ne (t := .runs) _ run nofun)
  | evaluation e _ hworld =>
    rw [hworld]
    exact .inl (table_save_of_ne (t := .evaluations) _ e nofun)
  | commit stored body _ hcommit hfresh hworld =>
    exact .inr ⟨stored, body, hcommit, hfresh, hworld⟩

theorem Effect.checkpoint_of_row {checkpoint : RLCheckpointRecord}
    (h : Effect strict cfg request L0 L w)
    (hstored : L.world.row .checkpoints id = some checkpoint) :
    w.row .checkpoints id = some checkpoint := by
  rcases h.checkpoints with htable | ⟨stored, body, _, hfresh, rfl⟩
  · exact (row_congr htable id).trans hstored
  · refine (row_save (t := .checkpoints) L.world _ id).trans ?_
    refine (if_neg fun hid => ?_).trans hstored
    cases ((congrArg (L.world.row .checkpoints) hid).symm.trans hstored).symm.trans hfresh

theorem Effect.row_of_checkpoint {checkpoint : RLCheckpointRecord}
    (h : Effect strict cfg request L0 L w) (hnew : w.row .checkpoints id = some checkpoint) :
    L.world.row .checkpoints id = some checkpoint ∨
      ∃ stored body, Commits request stored body ∧ checkpoint = committed stored.id body := by
  rcases h.checkpoints with htable | ⟨stored, body, hcommit, _, rfl⟩
  · exact .inl ((row_congr htable id).symm.trans
      hnew)
  · have hrow := row_save (t := .checkpoints) L.world
      (committed stored.id body) id
    by_cases hid : id = (committed stored.id body).id
    · refine .inr ⟨stored, body, hcommit, ?_⟩
      exact Option.some.inj (hnew.symm.trans (hrow.trans (if_pos hid)))
    · exact .inl ((hrow.trans (if_neg hid)).symm.trans hnew)

theorem Effect.attempts {a : RLAttempt} (h : Effect strict cfg request L0 L w)
    (ha : L.world.row .attempts id = some a) :
    ∃ a' : RLAttempt, w.row .attempts id = some a' := by
  have hsame : w.table .attempts = L.world.table .attempts →
      ∃ a' : RLAttempt, w.row .attempts id = some a' := fun htable =>
    ⟨a, (row_congr htable id).trans ha⟩
  cases h with
  | idle _ hattempts => exact hattempts id a ha
  | run run _ hworld =>
    refine hsame ?_
    rw [hworld]
    exact table_save_of_ne (t := .runs) _ run nofun
  | evaluation e _ hworld =>
    refine hsame ?_
    rw [hworld]
    exact table_save_of_ne (t := .evaluations) _ e nofun
  | commit stored body _ _ _ hworld =>
    refine hsame ?_
    rw [hworld]
    exact table_save_of_ne (t := .checkpoints) _ _ nofun

end Rows

/-! ## Served requests -/

section Requests

variable {cfg : Config} {L L' : Ledger} {exchange : Exchange}

theorem serves_invariant {I : Ledger → Prop} (h : Serves cfg L exchange L')
    (hstart : I (L.receive exchange.request))
    (hstep : ∀ L1 op ans L2, I L1 →
      Lawful false cfg exchange.request (L.receive exchange.request) L1 op →
      L1.Records op ans L2 → I L2) : I L' :=
  h.checked (lawfully_program cfg (L.receive exchange.request) exchange.request) hstep hstart

theorem serves_preserves {I : World → Prop} (h : Serves cfg L exchange L') (hstart : I L.world)
    (hstep : ∀ L1 w, I L1.world →
      Effect false cfg exchange.request (L.receive exchange.request) L1 w → I w) : I L'.world :=
  serves_invariant (I := fun L => I L.world) h hstart fun L1 _ _ L2 hI hop hrec =>
    hstep L1 L2.world hI (hop.effect hrec)

end Requests

/-! ## A control plane to serve requests -/

def sampleSpec : RLRunSpec :=
  { defaultRunSpec with
    metadata := { (default : ObjectMeta) with tenantID := "t", projectID := "p" }
    image := { defaultRunSpec.image with slime := "ghcr.io/skyscale/slime@sha256:0" }
    evaluation :=
      { (default : EvaluationPolicy) with
        everySteps := 5, gates := [⟨"reward", ">=", 1⟩], canaryPercent := 10 } }

def sampleConfig : Config := configOf sampleSpec

def startOf (spec : RLRunSpec) : Request :=
  .startRun
    { probe := some ⟨"slime", none⟩, body := none, wrapper := some (some spec)
      preset := none, spec := none, tenantHeader := "", projectHeader := ""
      defaultControlPlaneURL := "" }

def startSample : Request := startOf sampleSpec

def sampleID : String := "rl-000000000000"

def sampleCheckpoint (step : Int) (version : String) : CheckpointBody where
  attemptID := "attempt-001-" ++ sampleID
  optimizerStep := step
  resumeURI := "uri"
  servingURI := ""
  policyVersion := version
  manifestSHA256 := String.ofList (List.replicate 64 '0')

def sampleStarted : List Visit := [⟨startSample, agreeable⟩, ⟨.reconcilePass, jobsAre "RUNNING"⟩]

def sampleCommit (step : Int) (version : String) : Visit :=
  ⟨.commitCheckpoint sampleID (some (sampleCheckpoint step version)), agreeable⟩

/-! ## What histories keep -/

/-- What is stored in `w0` is stored in `w`: runs with their identifier, tenant, backend and
snapshot, checkpoints as they were. -/
structure Endures (w0 w : World) : Prop where
  runs : ∀ id (stored : RLRun), w0.row .runs id = some stored →
    ∃ run : RLRun, w.row .runs id = some run ∧ (core run).fixed = (core stored).fixed
  checkpoints : ∀ id (checkpoint : RLCheckpointRecord),
    w0.row .checkpoints id = some checkpoint → w.row .checkpoints id = some checkpoint
  attempts : ∀ id (a : RLAttempt), w0.row .attempts id = some a →
    ∃ a' : RLAttempt, w.row .attempts id = some a'
  evaluations : ∀ id (e : RLEvaluationRecord), w0.row .evaluations id = some e →
    ∃ e' : RLEvaluationRecord, w.row .evaluations id = some e'

theorem Endures.effect {strict : Bool} {cfg : Config} {request : Request} {L0 L : Ledger}
    {w0 w : World} (h : Endures w0 L.world) (heffect : Effect strict cfg request L0 L w) :
    Endures w0 w where
  runs id stored hstored := by
    obtain ⟨run, hrun, hfixed⟩ := h.runs id stored hstored
    obtain ⟨run', hrun', hrewritten⟩ := heffect.run_of_row hrun
    exact ⟨run', hrun', hrewritten.fixed.trans hfixed⟩
  checkpoints id checkpoint hstored := heffect.checkpoint_of_row (h.checkpoints id _ hstored)
  attempts id a hstored := by
    obtain ⟨a', ha'⟩ := h.attempts id a hstored
    exact heffect.attempts ha'
  evaluations id e hstored := by
    obtain ⟨e1, he1⟩ := h.evaluations id e hstored
    obtain ⟨e2, he2, -⟩ := heffect.evaluation_of_row he1
    exact ⟨e2, he2⟩

/-- The checkpoints of `w` that `w0` does not have are the records of complete commits among the
requests. -/
def Authentic (w0 w : World) (requests : List Request) : Prop :=
  ∀ id (checkpoint : RLCheckpointRecord), w.row .checkpoints id = some checkpoint →
    w0.row .checkpoints id = some checkpoint ∨
      ∃ runID body, .commitCheckpoint runID (some body) ∈ requests ∧ body.complete = true ∧
        checkpoint = committed runID body

/-- No request and no pass loses a stored run, attempt, evaluation or checkpoint, moves a run
to another tenant, backend or snapshot, or changes a checkpoint; and every new checkpoint is
the record of a commit request. -/
theorem records_endure (cfg : Config) (L L' : Ledger) (exchanges : List Exchange)
    (hrun : Run (Serves cfg) L exchanges L') :
    Endures L.world L'.world ∧
      Authentic L.world L'.world (exchanges.map Exchange.request) := by
  induction hrun with
  | nil => exact ⟨⟨fun _ run h => ⟨run, h, rfl⟩, fun _ _ h => h, fun _ a h => ⟨a, h⟩,
      fun _ e h => ⟨e, h⟩⟩, fun _ _ h => .inl h⟩
  | @snoc exchanges L1 L2 last _ hserves ih =>
    refine ⟨serves_preserves hserves ih.1 fun _ _ h heffect => h.effect heffect, ?_⟩
    rw [List.map_append]
    refine serves_preserves (I := (Authentic L.world · _)) hserves ?_ ?_
    · intro id checkpoint hstored
      refine (ih.2 id checkpoint hstored).imp_right ?_
      rintro ⟨runID, body, hmem, hcommit⟩
      exact ⟨runID, body, List.mem_append_left _ hmem, hcommit⟩
    · intro _ w hold heffect id checkpoint hstored
      rcases heffect.row_of_checkpoint hstored with hbefore | ⟨stored, body, hcommit, heq⟩
      · exact hold id checkpoint hbefore
      · exact .inr ⟨stored.id, body, by simp [hcommit.request], hcommit.complete, heq⟩

theorem records_endure_sample :
    ((serveAll sampleConfig Ledger.initial sampleStarted).2.world.row .runs sampleID).isSome ∧
    Endures (serveAll sampleConfig Ledger.initial sampleStarted).2.world
      (serveAll sampleConfig (serveAll sampleConfig Ledger.initial sampleStarted).2
        [sampleCommit 3 "v1", ⟨.stopRun sampleID, agreeable⟩]).2.world :=
  ⟨by decide +kernel, (records_endure sampleConfig _ _ _ (run_serveAll _ _ _)).1⟩

end RL
end Skyscale
