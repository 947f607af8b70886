import Skyscale.RL.Serving

/-!
# Passes are lawful

A pass of the reconciler works on a copy of a run.  Served alone, at every moment of the
pass the copy is the stored row up to one change that is still to be written
(`Due`), and the pass may stop there with an error: `ReconcileAll` then writes the
copy as it is.

The lemmas follow the branches of `Reconcile`.  Each says that a part performs lawful
operations, and in which change it leaves the copy.  `lawfully_program` at the end
covers every request.
-/

namespace Skyscale
namespace RL

open Lib State Control K8s Contracts

/-! ## The copy of a pass -/

section Frame

variable {cfg : Config} {L0 L L' : Ledger} {stored run : RLRun}

theorem Evaluated.extend {runID version : String} (h : Evaluated L.world runID version)
    (hext : Extends L L') : Evaluated L'.world runID version := by
  obtain ⟨e, he, hrun, hversion⟩ := h
  exact ⟨e, (hext.evaluations e.id).trans he, hrun, hversion⟩

theorem Cleared.extend (h : Cleared L.world stored) (hext : Extends L L') :
    Cleared L'.world stored := by
  obtain ⟨e, he, hfacts⟩ := h
  exact ⟨e, (hext.evaluations e.id).trans he, hfacts⟩

theorem CanaryLogged.grow {entries : List Entry} (h : CanaryLogged cfg L stored)
    (hlog : L'.log = L.log ++ entries) : CanaryLogged cfg L' stored := by
  obtain ⟨pre, entry, post, w, hpre, hstart⟩ := h
  exact ⟨pre, entry, post ++ entries, w, by rw [hlog, hpre]; simp, hstart⟩

theorem CanaryLogged.extend (h : CanaryLogged cfg L stored) (hext : Extends L L') :
    CanaryLogged cfg L' stored := by
  obtain ⟨entries, hlog⟩ := hext.log
  exact h.grow hlog

/-- A change a pass may make stays one while other operations extend the ledger: it speaks
of stored evaluations and of the log only. -/
theorem Reconciled.extend (h : Reconciled cfg L0 L stored (core run)) (hext : Extends L L') :
    Reconciled cfg L0 L' stored (core run) := by
  cases h with
  | same h => exact .same h
  | cancelling h => exact .cancelling h
  | cancelled hstatus h => exact .cancelled hstatus h
  | suspended hstatus h => exact .suspended hstatus h
  | attempted hstatus hattempt h => exact .attempted hstatus hattempt h
  | adopted hstatus checkpoint hlatest horigin h =>
    exact .adopted hstatus checkpoint hlatest horigin h
  | running hstatus h => exact .running hstatus h
  | completed hstatus h => exact .completed hstatus h
  | failed hstatus h => exact .failed hstatus h
  | retried hstatus h => exact .retried hstatus h
  | evaluating hstatus hattempt hevaluated h =>
    exact .evaluating hstatus hattempt (hevaluated.extend hext) h
  | canary hstatus hcleared hstarted h =>
    exact .canary hstatus (hcleared.extend hext) (hstarted.extend hext) h
  | rolledBack hstatus final h => exact .rolledBack hstatus final h
  | promoted hstatus final h => exact .promoted hstatus final h

end Frame

/-- The pass over `run0`, which started in `Lp`, finds the run stored as `stored`; no
other run was touched. -/
structure Holding (L0 Lp L : Ledger) (run0 stored : RLRun) : Prop where
  id : stored.id = run0.id
  slime : stored.backend = .slime
  stored : L.world.row .runs stored.id = some stored
  origin : L0.world.row .runs run0.id = some run0
  others : ∀ id : String, id ≠ run0.id → L.world.row .runs id = Lp.world.row .runs id
  checkpoints : L.world.table .checkpoints = L0.world.table .checkpoints

/-- The copy is the stored row up to a change that is still to be written. -/
structure Due (cfg : Config) (L0 Lp L : Ledger) (run0 stored run : RLRun) : Prop where
  holding : Holding L0 Lp L run0 stored
  live : terminal stored.status = false
  change : Reconciled cfg L0 L stored (core run)

/-- The pass may stop here: some change is due. -/
def Stuck (cfg : Config) (L0 Lp : Ledger) (run0 run : RLRun) (L : Ledger) : Prop :=
  ∃ stored, Due cfg L0 Lp L run0 stored run

section Pass

variable {cfg : Config} {L0 Lp L L' : Ledger} {run0 stored run : RLRun} {α β : Type}

theorem Holding.extend (h : Holding L0 Lp L run0 stored) (hext : Extends L L') :
    Holding L0 Lp L' run0 stored where
  id := h.id
  slime := h.slime
  stored := (hext.runs stored.id).trans h.stored
  origin := h.origin
  others := fun id hid => (hext.runs id).trans (h.others id hid)
  checkpoints := (hext.table .checkpoints rfl nofun).trans h.checkpoints

theorem Due.extend (h : Due cfg L0 Lp L run0 stored run) (hext : Extends L L') :
    Due cfg L0 Lp L' run0 stored run :=
  ⟨h.holding.extend hext, h.live, h.change.extend hext⟩

theorem Due.stuck (h : Due cfg L0 Lp L run0 stored run) : Stuck cfg L0 Lp run0 run L := ⟨stored, h⟩

theorem Due.assign {run' : RLRun} (h : Due cfg L0 Lp L run0 stored run)
    (hchange : Reconciled cfg L0 L stored (core run')) : Due cfg L0 Lp L run0 stored run' :=
  ⟨h.holding, h.live, hchange⟩

/-- The operations of a pass. -/
abbrev reconciling (cfg : Config) (L0 : Ledger) : OpSpec Op Ans Ledger :=
  supervised true cfg .reconcilePass L0

/-- The part of a pass ends as `Ok` says, or fails and leaves the run stuck; all its writes
are changes a pass may make. -/
abbrev Passes {α : Type} (cfg : Config) (L0 Lp : Ledger) (run0 : RLRun)
    (Ok : α → RLRun → Ledger → Prop) (m : Pass α) (run : RLRun) (L : Ledger) : Prop :=
  Act.At (reconciling cfg L0) Ok (Stuck cfg L0 Lp run0) m run L

instance (cfg : Config) (L0 : Ledger) : (reconciling cfg L0).IsMonotone :=
  inferInstanceAs (checking _ _).IsMonotone

/-- A calm part of a pass leaves the copy as it is; after an error the run is stuck. -/
theorem Calm.alone {m : Pass α} (hm : Calm m) (h : Due cfg L0 Lp L run0 stored run) :
    Passes cfg L0 Lp run0 (fun _ copy L' => copy = run ∧ Extends L L') m run L := by
  refine wp_mono ?_ (supervised_of_plain (hm run run () rfl) L)
  rintro ⟨r, copy⟩ L' ⟨rfl, hext⟩
  cases r with
  | ok a => exact ⟨rfl, hext⟩
  | error e => exact (h.extend hext).stuck

variable {f : Unit → Pass β} {Ok : β → RLRun → Ledger → Prop} {ans : Ans (.sql (.save .runs run))}
  {spec : RLRunSpec} {attempt : RLAttempt}

theorem Calm.at {m : Pass α} {f : α → Pass β} (hm : Calm m) (h : Due cfg L0 Lp L run0 stored run)
    (hf : ∀ a L', Extends L L' → Due cfg L0 Lp L' run0 stored run →
      Passes cfg L0 Lp run0 Ok (f a) run L') :
    Passes cfg L0 Lp run0 Ok (m >>= f) run L := by
  refine Act.At.seq (hm.alone h) ?_
  rintro a _ L' ⟨rfl, hext⟩
  exact hf a L' hext (h.extend hext)

/-- A successful write of the run makes the written row the stored one. -/
theorem Holding.save (h : Holding L0 Lp L run0 stored)
    (hrec : L.Records (.sql (.save .runs run)) ans L')
    (hfixed : (core run).fixed = (core stored).fixed) (hans : ans = Except.ok ()) :
    Holding L0 Lp L' run0 run := by
  have hid : run.id = run0.id := (id_eq_of_fixed hfixed).trans h.id
  subst hans
  have hworld : L'.world = L.world.save Table.runs run := hrec.1
  refine ⟨hid, (backend_eq_of_fixed hfixed).trans h.slime, ?_, h.origin, fun id hne => ?_, ?_⟩
  · rw [hworld]
    exact row_save_self (t := .runs) L.world run
  · rw [hworld]
    refine (row_save (t := .runs) L.world run id).trans ?_
    exact (if_neg fun heq => hne (heq.trans hid)).trans (h.others id hne)
  · exact (hrec.table_of_target_ne (t := .checkpoints) nofun).trans h.checkpoints

/-- Writing an evaluation leaves the run as it is held. -/
theorem Holding.evaluation {e : RLEvaluationRecord} {ans : Ans (.sql (.save .evaluations e))}
    (h : Holding L0 Lp L run0 stored) (hrec : L.Records (.sql (.save .evaluations e)) ans L') :
    Holding L0 Lp L' run0 stored := by
  have hruns : ∀ id : String, L'.world.row .runs id = L.world.row .runs id :=
    fun id => hrec.row_of_target_ne (t := .runs) nofun id
  refine ⟨h.id, h.slime, (hruns _).trans h.stored, h.origin,
    fun id hne => (hruns id).trans (h.others id hne), ?_⟩
  exact (hrec.table_of_target_ne (t := .checkpoints) nofun).trans h.checkpoints

theorem extends_of_failed_save {e : Failure} (hrec : L.Records (.sql (.save .runs run)) ans L')
    (hans : ans = Except.error e) :
    Extends L L' := by
  subst hans
  have hworld : L'.world = L.world := hrec.1
  exact ⟨fun t _ _ => by rw [hworld], _, hrec.2⟩

/-- The attempt written into a run is the stored one, none, or one that exists. -/
def AttemptStored (L : Ledger) (stored run : RLRun) : Prop :=
  run.currentAttemptID = stored.currentAttemptID ∨ run.currentAttemptID = "" ∨
    ∃ attempt, L.world.row .attempts run.currentAttemptID = some attempt

/-- Writing the run: afterwards the copy is the stored row, and a failed write leaves the
run stuck. -/
theorem at_saveRun (h : Due cfg L0 Lp L run0 stored run) (hattempt : AttemptStored L stored run) :
    Passes cfg L0 Lp run0 (fun _ run' L' => run' = run ∧ Holding L0 Lp L' run0 run)
      saveRun run L := by
  refine Act.At.get (Act.At.attempt ⟨.run <| .change h.holding.stored <| .reconcile rfl
    h.holding.slime h.live h.change fun _ => hattempt, fun ans L' hrec => ⟨?_, ?_⟩⟩)
  · rintro ⟨⟩ hans
    exact ⟨rfl, h.holding.save hrec h.change.fixed hans⟩
  · intro e hans
    exact (h.extend (extends_of_failed_save hrec hans)).stuck

theorem at_saveRun_bind (h : Due cfg L0 Lp L run0 stored run)
    (hattempt : AttemptStored L stored run) (hlive : terminal run.status = false)
    (hf : ∀ L', Due cfg L0 Lp L' run0 run run → Passes cfg L0 Lp run0 Ok (f ()) run L') :
    Passes cfg L0 Lp run0 Ok (saveRun >>= f) run L := by
  refine Act.At.seq (at_saveRun h hattempt) ?_
  rintro ⟨⟩ _ L' ⟨rfl, hholding⟩
  exact hf L' ⟨hholding, hlive, .same rfl⟩

/-- What is left at the end of a pass. -/
def Done (L0 Lp : Ledger) (run0 : RLRun) (L : Ledger) : Prop :=
  ∃ stored, Holding L0 Lp L run0 stored

theorem at_saveRun_last (h : Due cfg L0 Lp L run0 stored run)
    (hattempt : AttemptStored L stored run) :
    Passes cfg L0 Lp run0 (fun _ _ => Done L0 Lp run0) saveRun run L :=
  (at_saveRun h hattempt).mono (fun _ _ _ hpost => ⟨run, hpost.2⟩)
    fun _ _ hstuck => hstuck

/-! ## Cancellation and suspension -/

/-- Cancelling takes two passes: the first suspends what the run owns and marks the run, a
later one deletes it and ends the run once nothing is left. -/
theorem at_cancelBranch (h : Due cfg L0 Lp L run0 run0 run0) :
    Passes cfg L0 Lp run0 (fun _ _ => Done L0 Lp run0) cancelBranch run0 L := by
  refine Act.At.get ?_
  split
  · refine calm_suspendOwned.at h fun _ L1 _ h1 => ?_
    exact Act.At.modify (at_saveRun_last (h1.assign (.cancelling rfl)) (.inl rfl))
  · rename_i hstatus
    have hstatus : run0.status = .cancelling := not_not.mp hstatus
    refine Act.At.modify (Act.At.get (Act.At.bind ?_))
    have hdue : Due cfg L0 Lp L run0 run0
        { run0 with status := .cancelling, observedState := "deleting" } :=
      h.assign (.cancelling rfl)
    refine Act.At.lift ⟨.run <| .change hdue.holding.stored <| .reconcile rfl
      hdue.holding.slime hdue.live hdue.change fun _ => .inl rfl, fun ans L1 hrec => ?_⟩
    -- Whether the row was written or not, it has the status `cancelling`.
    obtain ⟨stored, hdue1, hstored, hattempt⟩ : ∃ stored, Due cfg L0 Lp L1 run0 stored
          { run0 with status := .cancelling, observedState := "deleting" } ∧
        stored.status = .cancelling ∧
        core { run0 with status := .cancelling, observedState := "deleting" } = core stored := by
      cases ans with
      | error e =>
        refine ⟨run0, hdue.extend (extends_of_failed_save hrec rfl), hstatus, ?_⟩
        rw [core, core, hstatus]
      | ok _ =>
        exact ⟨_, ⟨hdue.holding.save hrec hdue.change.fixed rfl, rfl, .same rfl⟩, rfl, rfl⟩
    refine calm_deleteOwned.at hdue1 fun done L2 _ hdue2 => ?_
    have hcurrent := congrArg Core.currentAttemptID hattempt
    split
    · refine Act.At.modify (at_saveRun_last (hdue2.assign (.cancelled hstored ?_)) (.inl hcurrent))
      exact congrArg (fun c : Core => { c with status := .cancelled }) hattempt
    · exact at_saveRun_last hdue2 (.inl hcurrent)

theorem at_suspendBranch (h : Due cfg L0 Lp L run0 run0 run0)
    (hstatus : run0.status ≠ .cancelling) :
    Passes cfg L0 Lp run0 (fun _ _ => Done L0 Lp run0) suspendBranch run0 L := by
  refine calm_suspendOwned.at h fun _ L1 _ h1 => ?_
  exact Act.At.modify (at_saveRun_last (h1.assign (.suspended hstatus rfl)) (.inl rfl))

/-! ## Training -/

/-- The copy of a run in training is the stored row. -/
structure InTraining (cfg : Config) (L0 Lp L : Ledger) (run0 run : RLRun) : Prop where
  due : Due cfg L0 Lp L run0 run run
  status : training run.status = true

/-- The run has not adopted a checkpoint in this pass. -/
structure Unadopted (run0 run : RLRun) : Prop where
  checkpointID : run.checkpointID = run0.checkpointID
  optimizerStep : run.optimizerStep = run0.optimizerStep

theorem newAttempt_id_ne (run : RLRun) (spec : RLRunSpec) (number : Int) :
    (newAttempt run spec number).id ≠ "" := by
  intro h
  have hlength := congrArg String.length h
  simp only [newAttempt, String.length_append] at hlength
  have hpositive : 0 < "attempt-".length := by decide
  have hempty : "".length = 0 := by decide
  omega

/-- The current attempt is read, or a new one is written before the run names it. -/
theorem at_ensureAttempt {f : RLAttempt → Pass β} (h : InTraining cfg L0 Lp L run0 run0)
    (hf : ∀ attempt run L', InTraining cfg L0 Lp L' run0 run → Unadopted run0 run →
      run.currentAttemptID ≠ "" → Passes cfg L0 Lp run0 Ok (f attempt) run L') :
    Passes cfg L0 Lp run0 Ok (ensureAttempt spec >>= f) run0 L := by
  show Act.At _ _ _ ((if run0.currentAttemptID ≠ "" then _ else _ : Pass RLAttempt) >>= f) run0 L
  split
  · rename_i hcurrent
    refine Calm.at (Leaves.stored (Obeys.perform trivial)) h.due fun attempt L1 _ h1 => ?_
    exact hf attempt run0 L1 ⟨h1, h.status⟩ ⟨rfl, rfl⟩ hcurrent
  · refine Act.At.bind ?_
    refine Calm.at (Leaves.stored (Obeys.perform trivial)) h.due fun attempts L1 _ h1 => ?_
    refine Act.At.modify ?_
    have hid := newAttempt_id_ne run0 spec (attempts.length + 1)
    have hdue : Due cfg L0 Lp L1 run0 run0 { run0 with
          currentAttemptID := (newAttempt run0 spec (attempts.length + 1)).id
          status := .starting, observedState := "reconciling" } :=
      h1.assign (.attempted h.status hid rfl)
    refine Act.At.bind ?_
    refine Act.At.attempt ⟨.attempt _, fun ans L2 hrec => ⟨?_, ?_⟩⟩
    · rintro ⟨⟩ rfl
      have hdue2 := hdue.extend (extends_of_attempt hrec)
      have hstored : L2.world.row Table.attempts (newAttempt run0 spec (attempts.length + 1)).id =
            some (newAttempt run0 spec (attempts.length + 1)) := by
        rw [show L2.world = _ from hrec.1]
        exact row_save_self (t := .attempts) L1.world
          (newAttempt run0 spec (attempts.length + 1))
      refine at_saveRun_bind hdue2 (.inr (.inr ⟨_, hstored⟩)) rfl fun L3 h3 => ?_
      exact Act.At.pure (hf _ _ L3 ⟨h3, rfl⟩ ⟨rfl, rfl⟩ hid)
    · intro e _
      exact (hdue.extend (extends_of_attempt hrec)).stuck

theorem InTraining.write {run' : RLRun} (h : InTraining cfg L0 Lp L run0 run)
    (hcore : core run' = core run) :
    Passes cfg L0 Lp run0 (fun _ copy L' => copy = run' ∧ InTraining cfg L0 Lp L' run0 run')
      saveRun run' L := by
  have hstatus : run'.status = run.status := congrArg Core.status hcore
  refine (at_saveRun (h.due.assign (.same hcore))
    (.inl (congrArg Core.currentAttemptID hcore))).mono ?_ fun _ _ hstuck => hstuck
  rintro ⟨⟩ _ L' ⟨rfl, hholding⟩
  refine ⟨rfl, ⟨hholding, ?_, .same rfl⟩, ?_⟩
  · rw [hstatus]
    exact h.due.live
  · rw [hstatus]
    exact h.status

/-- The rollout of a disaggregated run changes no column of its `core`. -/
theorem at_rolloutBranch (h : InTraining cfg L0 Lp L run0 run)
    (hf : ∀ run' L', InTraining cfg L0 Lp L' run0 run' → core run' = core run →
      Passes cfg L0 Lp run0 Ok (f ()) run' L') :
    Passes cfg L0 Lp run0 Ok
      (Act.when (spec.topology.mode = "disaggregated") (rolloutBranch spec attempt) >>= f) run
      L := by
  unfold Act.when
  split
  · refine Act.At.bind ?_
    refine (calm_applyAndTrack _ _).at h.due fun _ L1 _ h1 => ?_
    refine Act.At.get (Act.At.modify ?_)
    refine (calm_applyAndTrack _ _).at (h1.assign (.same rfl)) fun _ L2 hext h2 => ?_
    have h2' : InTraining cfg L0 Lp L2 run0 run := ⟨h1.extend hext, h.status⟩
    refine Act.At.mono (h2'.write ?_) ?_ fun _ _ hstuck => hstuck
    · rfl
    · rintro ⟨⟩ _ L3 ⟨rfl, h3⟩
      exact hf _ L3 h3 rfl
  · exact hf run L h rfl

/-- `GetLatestRLCheckpoint` finds a committed checkpoint of the highest step. -/
theorem latestCheckpoint_of_records {runID : String} {checkpoint : RLCheckpointRecord}
    {where_ : RLCheckpointRecord → Bool} {rank : RLCheckpointRecord → Int × Int}
    (hwhere : where_ = fun row => row.runID = runID && row.status = "committed")
    (hrank : rank = fun row => (-row.optimizerStep, 0))
    (hrec : L.Records (.sql (.first .checkpoints where_ rank)) (Except.ok checkpoint) L') :
    LatestCheckpoint L.world runID checkpoint := by
  subst hwhere hrank
  obtain ⟨-, hselect⟩ := hrec.1
  obtain ⟨hrow, hwhere⟩ := hselect.row_eq
  simp only [Bool.and_eq_true, decide_eq_true_eq] at hwhere
  refine ⟨hrow, hwhere.1, hwhere.2, fun other hother hrun hcommitted => ?_⟩
  have hle := hselect.2 other (Database.mem_matching_iff.mpr ⟨hother, by simp [hrun, hcommitted]⟩)
  simp only [Database.Precedes] at hle
  omega

theorem LatestCheckpoint.of_table {w w' : World} {runID : String} {checkpoint : RLCheckpointRecord}
    (h : LatestCheckpoint w runID checkpoint) (ht : w.table .checkpoints = w'.table .checkpoints) :
    LatestCheckpoint w' runID checkpoint := by
  have hrow : ∀ id : String, w.row .checkpoints id = w'.row .checkpoints id :=
    fun id => row_congr ht id
  refine ⟨(hrow _).symm.trans h.stored, h.run, h.committed, fun other hother => ?_⟩
  exact h.latest other ((hrow _).trans hother)

/-- A run without a checkpoint adopts the latest committed one.  No pass writes a
checkpoint, so it is the latest at the start of the request too. -/
theorem at_adoptCheckpoint (h : InTraining cfg L0 Lp L run0 run) (hunadopted : Unadopted run0 run)
    (hf : ∀ run' L', InTraining cfg L0 Lp L' run0 run' → run'.currentAttemptID =
      run.currentAttemptID → Passes cfg L0 Lp run0 Ok (f ()) run' L') :
    Passes cfg L0 Lp run0 Ok (adoptCheckpoint >>= f) run L := by
  show Act.At _ _ _ ((if run.checkpointID = "" then _ else _ : Pass Unit) >>= f) run L
  split
  · rename_i hnone
    refine Act.At.bind (Act.At.bind ?_)
    refine Act.At.lift ⟨.plain trivial, fun latest L1 hrec => ?_⟩
    have hext : Extends L L1 := extends_of_plain hrec trivial
    cases latest with
    | error e => exact hf run L1 ⟨h.due.extend hext, h.status⟩ rfl
    | ok checkpoint =>
      have hlatest : LatestCheckpoint L0.world run.id checkpoint :=
        (latestCheckpoint_of_records rfl rfl hrec).of_table h.due.holding.checkpoints
      have hid : run.id = run0.id := h.due.holding.id
      have horigin : ∃ run0 : RLRun, L0.world.row .runs run.id = some run0 ∧
          run0.checkpointID = "" ∧ run0.optimizerStep = run.optimizerStep :=
        ⟨run0, by rw [hid]; exact h.due.holding.origin, hunadopted.checkpointID.symm.trans hnone,
          hunadopted.optimizerStep.symm⟩
      refine Act.At.modify (Act.At.mono (at_saveRun
        ((h.due.extend hext).assign (.adopted h.status checkpoint hlatest horigin ?_))
        (.inl ?_)) ?_ fun _ _ hstuck => hstuck)
      · rfl
      · rfl
      · rintro ⟨⟩ _ L2 ⟨rfl, hholding⟩
        exact hf _ L2 ⟨⟨hholding, h.due.live, .same rfl⟩, h.status⟩ rfl
  · exact hf run L h rfl

/-- What a pass has decided about a training job. -/
structure Observed (cfg : Config) (L0 Lp L : Ledger) (run0 stored run : RLRun) : Prop where
  due : Due cfg L0 Lp L run0 stored run
  attempt : run.currentAttemptID = stored.currentAttemptID ∨ run.currentAttemptID = ""

/-- Writing the evaluation of a finished run. -/
theorem at_saveFinalEvaluation (h : InTraining cfg L0 Lp L run0 run)
    (hattempt : run.currentAttemptID ≠ "")
    (hf : ∀ L', Due cfg L0 Lp L' run0 run run → Evaluated L'.world run.id run.policyVersion →
      Passes cfg L0 Lp run0 Ok (f ()) run L') :
    Passes cfg L0 Lp run0 Ok (RL.stored (saveRLEvaluation (finalEvaluation run)) >>= f) run L := by
  refine Act.At.bind (Act.At.attempt
    ⟨.evaluation <| .finish rfl h.due.holding.stored h.due.holding.slime h.status hattempt rfl,
      fun ans L' hrec => ?_⟩)
  have hdue : Due cfg L0 Lp L' run0 run run :=
    ⟨h.due.holding.evaluation hrec, h.due.live, .same rfl⟩
  refine ⟨?_, fun e _ => hdue.stuck⟩
  rintro ⟨⟩ rfl
  refine hf L' hdue ⟨finalEvaluation run, ?_, rfl, rfl⟩
  rw [show L'.world = _ from hrec.1]
  exact row_save_self (t := .evaluations) L.world (finalEvaluation run)

/-- One case for each state of the job: succeeded, failed with or without a retry left,
and still running. -/
theorem at_observeTraining {f : RLAttempt → Pass β} {job : Object}
    (h : InTraining cfg L0 Lp L run0 run) (hattempt : run.currentAttemptID ≠ "")
    (hf : ∀ attempt run' L', Observed cfg L0 Lp L' run0 run run' →
      Passes cfg L0 Lp run0 Ok (f attempt) run' L') :
    Passes cfg L0 Lp run0 Ok (observeTraining attempt spec job >>= f) run L := by
  unfold observeTraining
  dsimp only
  split
  · show Act.At _ _ _ (((if spec.evaluation.required then _ else _ : Pass Unit) >>= _) >>= f) run L
    split
    · refine Act.At.bind (Act.At.bind ?_)
      refine at_saveFinalEvaluation h hattempt fun L1 h1 hevaluated => ?_
      exact hf _ _ L1 ⟨h1.assign (.evaluating h.status hattempt hevaluated rfl), .inl rfl⟩
    · exact hf _ _ L ⟨h.due.assign (.completed h.status rfl), .inl rfl⟩
  · split
    · unfold retryTraining
      split
      · exact hf _ _ L ⟨h.due.assign (.retried h.status rfl), .inr rfl⟩
      · exact hf _ _ L ⟨h.due.assign (.failed h.status rfl), .inl rfl⟩
    · exact hf _ _ L ⟨h.due.assign (.running h.status rfl), .inl rfl⟩

theorem at_observeRayJob {job : Object} (h : InTraining cfg L0 Lp L run0 run)
    (hattempt : run.currentAttemptID ≠ "") :
    Passes cfg L0 Lp run0 (fun _ _ => Done L0 Lp run0) (observeRayJob attempt spec job) run L := by
  refine at_observeTraining h hattempt fun attempt run' L1 h1 => ?_
  refine Act.At.bind (Act.At.attempt ⟨.attempt _, fun ans L2 hrec => ⟨?_, fun e _ => ?_⟩⟩)
  · rintro ⟨⟩ rfl
    exact at_saveRun_last (h1.due.extend (extends_of_attempt hrec))
      (h1.attempt.imp_right fun hempty => .inl hempty)
  · exact (h1.due.extend (extends_of_attempt hrec)).stuck

/-- The parts of the training branch, each from what the one before it leaves. -/
theorem at_trainBranch (h : InTraining cfg L0 Lp L run0 run0) :
    Passes cfg L0 Lp run0 (fun _ _ => Done L0 Lp run0) (trainBranch cfg spec) run0 L := by
  refine (calm_ensureTenantInfrastructure cfg spec).at h.due fun _ L1 _ h1 => ?_
  refine at_ensureAttempt ⟨h1, h.status⟩ fun attempt run1 L2 h2 hunadopted hattempt => ?_
  refine at_rolloutBranch h2 fun run2 L3 h3 hcore => ?_
  have hunadopted2 : Unadopted run0 run2 :=
    ⟨(congrArg Core.checkpointID hcore).trans hunadopted.checkpointID,
      (congrArg Core.optimizerStep hcore).trans hunadopted.optimizerStep⟩
  refine at_adoptCheckpoint h3 hunadopted2 fun run3 L4 h4 hcurrent => ?_
  have hattempt3 : run3.currentAttemptID ≠ "" := by
    rw [hcurrent, show run2.currentAttemptID = run1.currentAttemptID from
      congrArg Core.currentAttemptID hcore]
    exact hattempt
  refine (calm_executionSpec spec).at h4.due fun execution L5 _ h5 => ?_
  refine (calm_applyAndTrack _ _).at h5 fun _ L6 _ h6 => ?_
  refine Calm.at (Leaves.attempt (Obeys.perform trivial)) h6 fun observed L7 _ h7 => ?_
  exact at_observeRayJob ⟨h7, h4.status⟩ hattempt3

/-! ## Evaluations -/

/-- A pass reviews the evaluation of a run's version: `e` is stored, and `e'` is to be
written. -/
structure Review (L0 Lp L : Ledger) (run0 : RLRun) (e e' : RLEvaluationRecord) : Prop where
  holding : Holding L0 Lp L run0 run0
  live : terminal run0.status = false
  status : run0.status = .evaluating ∨ run0.status = .canary
  stored : L.world.row .evaluations e.id = some e
  runID : e.runID = run0.id
  version : e.policyVersion = run0.policyVersion
  reviewed : Reviewed run0 e e'

/-- The pass has just started the canary. -/
structure FreshCanary (cfg : Config) (L : Ledger) (run0 run : RLRun) (e e' : RLEvaluationRecord) :
    Prop where
  status : run0.status = .evaluating
  core : core run = { core run0 with status := .canary }
  gates : e.gatesPassed = true
  canary : e'.canaryState ≠ .passed
  logged : CanaryLogged cfg L run0

variable {e e' e'' : RLEvaluationRecord}

theorem Review.extend (h : Review L0 Lp L run0 e e') (hext : Extends L L') :
    Review L0 Lp L' run0 e e' :=
  ⟨h.holding.extend hext, h.live, h.status, (hext.evaluations e.id).trans h.stored, h.runID,
    h.version, h.reviewed⟩

theorem Review.update (h : Review L0 Lp L run0 e e') (hreviewed : Reviewed run0 e e'') :
    Review L0 Lp L run0 e e'' :=
  ⟨h.holding, h.live, h.status, h.stored, h.runID, h.version, hreviewed⟩

theorem FreshCanary.extend (h : FreshCanary cfg L run0 run e e') (hext : Extends L L') :
    FreshCanary cfg L' run0 run e e' :=
  ⟨h.status, h.core, h.gates, h.canary, h.logged.extend hext⟩

/-- The copy of a pass that reviews an evaluation: the stored row, or the canary has
just been started. -/
structure Reviewing (cfg : Config) (L0 Lp L : Ledger) (run0 run : RLRun)
    (e e' : RLEvaluationRecord) : Prop where
  review : Review L0 Lp L run0 e e'
  copy : RL.core run = RL.core run0 ∨ FreshCanary cfg L run0 run e e'

theorem Review.dueSame (h : Review L0 Lp L run0 e e') (hcore : core run = core run0) :
    Due cfg L0 Lp L run0 run0 run :=
  ⟨h.holding, h.live, .same hcore⟩

theorem Review.dueCanary (h : Review L0 Lp L run0 e e') (hfresh : FreshCanary cfg L run0 run e e') :
    Due cfg L0 Lp L run0 run0 run :=
  ⟨h.holding, h.live, .canary hfresh.status ⟨e, h.stored, h.runID, h.version, hfresh.gates⟩
    hfresh.logged hfresh.core⟩

theorem Reviewing.due (h : Reviewing cfg L0 Lp L run0 run e e') :
    Due cfg L0 Lp L run0 run0 run := by
  rcases h.copy with hcore | hfresh
  · exact h.review.dueSame hcore
  · exact h.review.dueCanary hfresh

theorem Reviewing.extend (h : Reviewing cfg L0 Lp L run0 run e e') (hext : Extends L L') :
    Reviewing cfg L0 Lp L' run0 run e e' :=
  ⟨h.review.extend hext, h.copy.imp_right fun hfresh => hfresh.extend hext⟩

/-- An object is applied and tracked; what follows finds the application in the log. -/
theorem at_applyAndTrack {object : Object} (h : Due cfg L0 Lp L run0 stored run)
    (hf : ∀ (applied : Object) post L', Extends L L' → L'.log = L.log ++
        .performed L.world (.apply object) (Except.ok applied : Except ClientError Object) :: post →
      Passes cfg L0 Lp run0 Ok (f ()) run L') :
    Passes cfg L0 Lp run0 Ok (applyAndTrack attempt object >>= f) run L := by
  refine Act.At.bind (Act.At.get (Act.At.bind ?_))
  refine Act.At.attempt ⟨.plain trivial, fun ans L1 hrec => ⟨?_, fun e _ => ?_⟩⟩
  · rintro applied rfl
    have hext : Extends L L1 := extends_of_plain hrec trivial
    have htrack := quiet_saveBackendResource (tracked run.id attempt.id object applied)
    refine (Calm.alone (Leaves.stored htrack) (h.extend hext)).mono ?_ fun _ _ hstuck => hstuck
    rintro ⟨⟩ _ L2 ⟨rfl, hext2⟩
    obtain ⟨post, hpost⟩ := hext2.log
    exact hf applied post L2 (hext.trans hext2) (by rw [hpost, hrec.2]; simp)
  · exact (h.extend (extends_of_plain hrec trivial)).stuck

theorem Reviewed.refl (stored : RLRun) (e : RLEvaluationRecord) : Reviewed stored e e :=
  ⟨rfl, rfl, rfl, rfl, fun h => h, fun _ => rfl⟩

theorem Reviewed.evaluating (hstatus : run0.status = .evaluating) (status : EvaluationStatus)
    (rayJobName failureReason : String) :
    Reviewed run0 e { e with
      status := status, rayJobName := rayJobName, failureReason := failureReason } :=
  ⟨rfl, rfl, rfl, rfl, fun h => h, fun hcanary => by rw [hstatus] at hcanary; cases hcanary⟩

/-- The canary starts for an evaluation whose gates passed, and the log holds the
application of its service before the run says so. -/
theorem at_startCanary (h : Review L0 Lp L run0 e e') (hspec : snapshotSpec cfg run0 spec)
    (hstatus : run0.status = .evaluating) (hgates : e.gatesPassed = true) :
    Passes cfg L0 Lp run0 (fun e' run L' => Reviewing cfg L0 Lp L' run0 run e e')
      (startCanary spec attempt e') run0 L := by
  refine Act.At.get (at_applyAndTrack (h.dueSame rfl) fun applied post L1 hext hlog => ?_)
  have hcleared : Cleared L.world run0 := ⟨e, h.stored, h.runID, h.version, hgates⟩
  have hlogged : CanaryLogged cfg L1 run0 :=
    ⟨L.log, _, post, L.world, hlog, ⟨spec, _, applied, hspec, rfl⟩, h.holding.stored, hcleared⟩
  have h1 := h.extend hext
  refine (calm_applyAndTrack _ _).at (h1.dueSame rfl) fun _ L2 hext2 _ => ?_
  refine Act.At.modify (Act.At.pure ⟨(h1.extend hext2).update ?_,
    .inr ⟨hstatus, rfl, hgates, nofun, hlogged.extend hext2⟩⟩)
  exact ⟨h.reviewed.id, h.reviewed.runID, h.reviewed.policyVersion, h.reviewed.gatesPassed, nofun,
    h.reviewed.status⟩

/-- The evaluation job is watched.  Only an evaluation whose gates passed starts the canary;
the other outcomes change the evaluation and not the run. -/
theorem at_evaluatorStage (h : Review L0 Lp L run0 e e) (hspec : snapshotSpec cfg run0 spec) :
    Passes cfg L0 Lp run0 (fun e' run L' => Reviewing cfg L0 Lp L' run0 run e e')
      (evaluatorStage spec attempt e) run0 L := by
  refine Act.At.get ?_
  split
  · rename_i hstatus
    refine (calm_applyAndTrack _ _).at (h.dueSame rfl) fun _ L1 hext1 h1 => ?_
    refine Calm.at (Leaves.attempt (Obeys.perform trivial)) h1 fun observed L2 hext2 _ => ?_
    have h2 : ∀ (status : EvaluationStatus) (rayJobName failureReason : String),
        Review L0 Lp L2 run0 e { e with
          status := status, rayJobName := rayJobName, failureReason := failureReason } :=
      fun status rayJobName failureReason => (h.extend (hext1.trans hext2)).update
        (Reviewed.evaluating hstatus status rayJobName failureReason)
    split
    · exact ⟨h2 .failed _ _, .inl rfl⟩
    · split
      · split
        · rename_i hpassed
          exact at_startCanary (h2 e.status _ e.failureReason) hspec hstatus hpassed.2
        · split
          · exact ⟨h2 .awaitingMetrics _ e.failureReason, .inl rfl⟩
          · exact ⟨h2 e.status _ e.failureReason, .inl rfl⟩
      · exact ⟨h2 .running _ e.failureReason, .inl rfl⟩
  · exact ⟨h, .inl rfl⟩

theorem Reviewing.copied {run' : RLRun} (h : Reviewing cfg L0 Lp L run0 run e e')
    (hcore : core run' = core run) : Reviewing cfg L0 Lp L run0 run' e e' :=
  ⟨h.review, h.copy.imp hcore.trans fun hfresh =>
    ⟨hfresh.status, hcore.trans hfresh.core, hfresh.gates, hfresh.canary, hfresh.logged⟩⟩

theorem Reviewing.failCanary (h : Reviewing cfg L0 Lp L run0 run e e') (reason : String) :
    Reviewing cfg L0 Lp L run0 run e
      { e' with canaryState := .failed, failureReason := reason } := by
  have hreviewed := h.review.reviewed
  refine ⟨h.review.update ⟨hreviewed.id, hreviewed.runID, hreviewed.policyVersion,
    hreviewed.gatesPassed, nofun, hreviewed.status⟩, h.copy.imp_right fun hfresh => ?_⟩
  exact ⟨hfresh.status, hfresh.core, hfresh.gates, nofun, hfresh.logged⟩

/-- Watching the canary can fail it and never passes it. -/
theorem at_canaryStage (h : Reviewing cfg L0 Lp L run0 run e e') :
    Passes cfg L0 Lp run0 (fun e' run L' => Reviewing cfg L0 Lp L' run0 run e e')
      (canaryStage spec attempt e') run L := by
  refine Act.At.get ?_
  split
  · refine (calm_applyAndTrack _ _).at h.due fun _ L1 hext1 h1 => ?_
    refine Calm.at (Leaves.attempt (Obeys.perform trivial)) h1 fun observed L2 hext2 _ => ?_
    have h2 := h.extend (hext1.trans hext2)
    split
    · exact h2.failCanary _
    · split
      · exact Act.At.modify (Act.At.pure (h2.copied rfl))
      · exact h2
  · exact h

/-- The change a reviewed run is to be written with does not depend on the evaluation,
or it is the start of the canary. -/
structure Decided (cfg : Config) (L0 Lp L : Ledger) (run0 run : RLRun)
    (e e' : RLEvaluationRecord) : Prop where
  review : Review L0 Lp L run0 e e'
  attempt : run.currentAttemptID = run0.currentAttemptID
  change : (∀ L', Reconciled cfg L0 L' run0 (core run)) ∨ FreshCanary cfg L run0 run e e'

theorem Reviewing.decided (h : Reviewing cfg L0 Lp L run0 run e e') :
    Decided cfg L0 Lp L run0 run e e' := by
  rcases h.copy with hcore | hfresh
  · exact ⟨h.review, congrArg Core.currentAttemptID hcore, .inl fun _ => .same hcore⟩
  · exact ⟨h.review, (congrArg Core.currentAttemptID hfresh.core).trans rfl, .inr hfresh⟩

theorem Reviewing.core_eq (h : Reviewing cfg L0 Lp L run0 run e e') (status : RunStatus) :
    { core run with status := status } = { core run0 with status := status } := by
  rcases h.copy with hcore | hfresh
  · rw [hcore]
  · rw [hfresh.core]

/-- A run that can be promoted was stored as a canary that had passed: a canary started in
this pass has not. -/
theorem Reviewing.promotable (h : Reviewing cfg L0 Lp L run0 run e e')
    (hfailed : e'.status ≠ .failed) (hstatus : run.status = .canary)
    (hpassed : e'.canaryState = .passed) :
    core run = core run0 ∧ run0.status = .canary ∧ e.status ≠ .failed ∧
      e.canaryState = .passed := by
  have hcore : core run = core run0 := h.copy.resolve_right fun hfresh => hfresh.canary hpassed
  have hcanary : run0.status = .canary := (congrArg Core.status hcore).symm.trans hstatus
  refine ⟨hcore, hcanary, ?_, h.review.reviewed.canaryState hpassed⟩
  rw [← h.review.reviewed.status hcanary]
  exact hfailed

theorem at_markGood (h : Reviewing cfg L0 Lp L run0 run e e') (hfailed : e'.status ≠ .failed)
    (hstatus : run.status = .canary) (hpassed : e'.canaryState = .passed)
    (hf : ∀ L', Extends L L' →
      Passes cfg L0 Lp run0 Ok (f ()) run L') :
    Passes cfg L0 Lp run0 Ok
      ((Act.attempt id (call (.markGood run.id run.policyVersion)) : Pass Unit) >>= f) run L := by
  obtain ⟨hcore, hcanary, hnotFailed, hcanaryPassed⟩ := h.promotable hfailed hstatus hpassed
  have hid : run.id = run0.id := congrArg Core.id hcore
  have hversion : run.policyVersion = run0.policyVersion := congrArg Core.policyVersion hcore
  have hlawful : Lawful true cfg .reconcilePass L0 L (.markGood run.id run.policyVersion) := by
    rw [hid, hversion]
    exact .promote rfl h.review.holding.stored hcanary h.review.stored h.review.runID
      h.review.version hnotFailed hcanaryPassed
  refine Act.At.bind (Act.At.attempt ⟨hlawful, fun ans L' hrec => ?_⟩)
  have hworld : L'.world = L.world := hrec.1
  have hext : Extends L L' := ⟨fun t _ _ => by rw [hworld], _, hrec.2⟩
  exact ⟨fun ⟨⟩ _ => hf L' hext, fun _ _ => (h.due.extend hext).stuck⟩

/-- A failed evaluation rolls the run back, a passed canary promotes it, and otherwise the
run stays as the stages before have left it. -/
theorem at_decisionStage (h : Reviewing cfg L0 Lp L run0 run e e') :
    Passes cfg L0 Lp run0 (fun _ run L' => Decided cfg L0 Lp L' run0 run e e')
      (decisionStage cfg spec e') run L := by
  refine Act.At.get ?_
  split
  · split
    · refine Calm.at (Leaves.attempt (Obeys.perform trivial)) h.due fun version L1 hext _ => ?_
      refine Act.At.modify (Act.At.pure ⟨(h.extend hext).review, ?_, .inl fun L' =>
        .rolledBack h.review.status e'.final ?_⟩)
      · exact congrArg Core.currentAttemptID (h.core_eq .running)
      · exact congrArg (fun c : Core => { c with policyVersion := version })
          (h.core_eq (if e'.final then .completed else .running))
    · exact Act.At.fail h.due.stuck
  · rename_i hverdict
    obtain ⟨hfailed, -⟩ := not_or.mp hverdict
    split
    · rename_i hpassed
      obtain ⟨hcore, hcanary, -⟩ := h.promotable hfailed hpassed.1 hpassed.2
      split
      · refine at_markGood h hfailed hpassed.1 hpassed.2 fun L1 hext => Act.At.modify ?_
        -- The promoted row; the version is the one of the stored row.
        have hchange : core { run with
            lastGoodPolicyVersion := run.policyVersion
            rolloutDraining := false
            status := if e'.final then .completed else .running
            observedState :=
              if e'.final then "promoted" else "periodic-evaluation-promoted" } =
            { core run0 with
              lastGoodPolicyVersion := run0.policyVersion
              status := if e'.final then .completed else .running } :=
          congrArg (fun c : Core =>
            { c with
              lastGoodPolicyVersion := c.policyVersion
              status := if e'.final then .completed else .running }) hcore
        have h1 := (h.extend hext).review
        refine Calm.at (Leaves.lift (Obeys.perform trivial))
          ⟨h1.holding, h1.live, .promoted hcanary e'.final hchange⟩ fun _ L2 hext2 _ => ?_
        exact ⟨h1.extend hext2, congrArg Core.currentAttemptID hcore,
          .inl fun _ => .promoted hcanary e'.final hchange⟩
      · exact Act.At.fail h.due.stuck
    · exact h.decided

/-- Writing the evaluation and then the run. -/
theorem at_saveEvaluation (h : Decided cfg L0 Lp L run0 run e e') :
    Passes cfg L0 Lp run0 (fun _ _ => Done L0 Lp run0)
      (do RL.stored (saveRLEvaluation e'); saveRun) run L := by
  refine Act.At.bind (Act.At.attempt
    ⟨.evaluation <| .review rfl h.review.holding.stored h.review.stored h.review.runID
      h.review.version h.review.reviewed, fun ans L' hrec => ?_⟩)
  have hholding : Holding L0 Lp L' run0 run0 := h.review.holding.evaluation hrec
  have hevaluations : ∃ e1 : RLEvaluationRecord, L'.world.row .evaluations e1.id = some e1 ∧
      e1.runID = run0.id ∧ e1.policyVersion = run0.policyVersion ∧
      e1.gatesPassed = e.gatesPassed := by
    have hreviewed := h.review.reviewed
    cases ans with
    | error text =>
      rw [show L'.world = L.world from hrec.1]
      exact ⟨e, h.review.stored, h.review.runID, h.review.version, rfl⟩
    | ok _ =>
      refine ⟨e', ?_, hreviewed.runID.trans h.review.runID,
        hreviewed.policyVersion.trans h.review.version, hreviewed.gatesPassed⟩
      rw [show L'.world = _ from hrec.1]
      exact row_save_self (t := .evaluations) L.world e'
  have hdue : Due cfg L0 Lp L' run0 run0 run := by
    refine ⟨hholding, h.review.live, ?_⟩
    rcases h.change with hchange | hfresh
    · exact hchange L'
    · obtain ⟨e1, hrow, hrun, hversion, hgates⟩ := hevaluations
      exact .canary hfresh.status ⟨e1, hrow, hrun, hversion, hgates.trans hfresh.gates⟩
        (hfresh.logged.grow hrec.2) hfresh.core
  exact ⟨fun ⟨⟩ _ => at_saveRun_last hdue (.inl h.attempt), fun _ _ => hdue.stuck⟩

/-- The stages of a review, from the evaluation stored for the version of the run. -/
theorem at_evaluationBranch (h : Due cfg L0 Lp L run0 run0 run0)
    (hspec : snapshotSpec cfg run0 spec)
    (hstatus : run0.status = .evaluating ∨ run0.status = .canary) :
    Passes cfg L0 Lp run0 (fun _ _ => Done L0 Lp run0) (reconcileEvaluation cfg spec) run0 L := by
  refine Act.At.get (Act.At.bind (Act.At.attempt ?_))
  refine wp_mono ?_ (wp_getRLEvaluation run0.id run0.policyVersion L)
  rintro found L1 ⟨hext1, hfound⟩
  have h1 := h.extend hext1
  refine ⟨?_, fun _ _ => h1.stuck⟩
  rintro e rfl
  obtain ⟨hrow, hrun, hversion⟩ := hfound e rfl
  refine Calm.at (Leaves.stored (Obeys.perform trivial)) h1 fun attempt L2 hext2 h2 => ?_
  refine Calm.at (Leaves.when (calm_applyAndTrack _ _)) h2 fun _ L3 hext3 h3 => ?_
  have hreview : Review L0 Lp L3 run0 e e :=
    ⟨h3.holding, h3.live, hstatus, ((hext2.trans hext3).evaluations e.id).trans hrow, hrun,
      hversion, Reviewed.refl run0 e⟩
  refine Act.At.seq (at_evaluatorStage hreview hspec) ?_
  intro e1 run1 L4 h4
  refine Act.At.seq (at_canaryStage h4) ?_
  intro e2 run2 L5 h5
  refine Act.At.seq (at_decisionStage h5) ?_
  intro _ run3 L6 h6
  exact at_saveEvaluation h6

/-! ## A whole pass -/

theorem snapshotSpec_of_verifiedSpec {now : Int} (h : verifiedSpec cfg now run = .ok spec) :
    snapshotSpec cfg run spec := by
  unfold verifiedSpec at h
  split at h
  · cases h
  rename_i snapshot hdecode
  split at h
  · cases h
  split at h
  · cases h
  split at h
  · cases h
    exact ⟨snapshot, hdecode, rfl⟩
  · cases h

/-- Every branch of `Reconcile` makes only changes a pass may make, and ends with the run
written or stuck. -/
theorem at_pass (h : Due cfg L0 Lp L run0 run0 run0) :
    Passes cfg L0 Lp run0 (fun _ _ => Done L0 Lp run0) (RL.reconcile cfg) run0 L := by
  refine Act.At.get (Calm.at (Leaves.lift (Obeys.perform trivial)) h fun now L1 _ h1 => ?_)
  split
  · exact Act.At.fail h1.stuck
  rename_i spec hspec
  refine (calm_discoverOwned spec).at h1 fun _ L2 _ h2 => ?_
  split
  · exact at_cancelBranch h2
  · rename_i hcancel
    obtain ⟨-, hcancelling⟩ := not_or.mp hcancel
    split
    · exact at_suspendBranch h2 hcancelling
    · split
      · rename_i hstatus
        exact at_evaluationBranch h2 (snapshotSpec_of_verifiedSpec hspec) hstatus
      · rename_i hstatus
        obtain ⟨hevaluating, hcanary⟩ := not_or.mp hstatus
        exact at_trainBranch ⟨h2, by simp [training, hcancelling, hevaluating, hcanary]⟩

end Pass

/-! ## All requests -/

section Programs

variable {cfg : Config} {L0 L : Ledger}

/-- A run whose stored row has not changed since the request came in. -/
structure Waiting (L0 L : Ledger) (run : RLRun) : Prop where
  stored : L.world.row .runs run.id = some run
  origin : L0.world.row .runs run.id = some run

theorem Waiting.due {run : RLRun} (h : Waiting L0 L run) (hslime : run.backend = .slime)
    (hlive : terminal run.status = false)
    (hcheckpoints : L.world.table .checkpoints = L0.world.table .checkpoints) :
    Due cfg L0 L L run run run :=
  ⟨⟨rfl, hslime, h.stored, h.origin, fun _ _ => rfl, hcheckpoints⟩, hlive, .same rfl⟩

/-- What a pass over a run leaves as it was. -/
structure Spared (L0 Lp : Ledger) (run : RLRun) (L : Ledger) : Prop where
  others : ∀ id : String, id ≠ run.id → L.world.row .runs id = Lp.world.row .runs id
  checkpoints : L.world.table .checkpoints = L0.world.table .checkpoints

theorem Holding.spared {Lp : Ledger} {run0 stored : RLRun} (h : Holding L0 Lp L run0 stored) :
    Spared L0 Lp run0 L :=
  ⟨h.others, h.checkpoints⟩

theorem Spared.waiting {L' : Ledger} {run : RLRun} {runs : List RLRun} (h : Spared L0 L run L')
    (hwaiting : ∀ other ∈ run :: runs, Waiting L0 L other) (hnew : run.id ∉ runs.map (·.id)) :
    ∀ other ∈ runs, Waiting L0 L' other := by
  intro other hother
  have hne : other.id ≠ run.id := fun heq => hnew (List.mem_map.mpr ⟨other, hother, heq⟩)
  have hwait := hwaiting other (List.mem_cons_of_mem run hother)
  exact ⟨(h.others other.id hne).trans hwait.stored, hwait.origin⟩

/-- The call of `Reconcile` in `ReconcileAll`: after an error the copy is written as it
is. -/
theorem lawful_reconcileRecording {run : RLRun} (h : Waiting L0 L run)
    (hslime : run.backend = .slime)
    (hlive : terminal run.status = false)
    (hcheckpoints : L.world.table .checkpoints = L0.world.table .checkpoints) :
    wp (supervised false cfg .reconcilePass L0) (reconcileRecording cfg run)
      (fun _ L' => Spared L0 L run L') L := by
  unfold reconcileRecording
  rw [wp_bind]
  have hpass : Passes cfg L0 L run (fun _ _ => Done L0 L run) (RL.reconcile cfg) run L :=
    at_pass (h.due hslime hlive hcheckpoints)
  refine wp_mono ?_ (wp_checking_mono (fun _ _ h => h.congr nofun) hpass)
  rintro ⟨result, run'⟩ L1 hpost
  cases result with
  | ok _ =>
    obtain ⟨stored, hholding⟩ := hpost
    exact hholding.spared
  | error text =>
    obtain ⟨stored, hdue⟩ := hpost
    refine ⟨.run <| .change hdue.holding.stored <|
      .reconcile rfl hdue.holding.slime hdue.live hdue.change nofun, fun ans L2 hrec => ?_⟩
    cases ans with
    | error e => exact (hdue.holding.extend (extends_of_failed_save hrec rfl)).spared
    | ok _ => exact (hdue.holding.save hrec hdue.change.fixed rfl).spared

/-- By induction on the runs still to come: a pass spares all other runs, so each is found
as the request listed it. -/
theorem lawfully_reconcileEach (runs : List RLRun) (hdistinct : (runs.map (·.id)).Nodup)
    (hwaiting : ∀ run ∈ runs, Waiting L0 L run)
    (hcheckpoints : L.world.table .checkpoints = L0.world.table .checkpoints) :
    Lawfully false cfg .reconcilePass L0 (Prog.forEach (reconcileOne cfg) runs) L := by
  induction runs generalizing L with
  | nil => trivial
  | cons run runs ih =>
    obtain ⟨hnew, hdistinct⟩ := List.nodup_cons.mp hdistinct
    have hrest : ∀ L', Spared L0 L run L' →
        Lawfully false cfg .reconcilePass L0 (Prog.forEach (reconcileOne cfg) runs) L' :=
      fun L' hspared => ih hdistinct (hspared.waiting hwaiting hnew) hspared.checkpoints
    refine Lawfully.bind (Q := fun _ L' => Spared L0 L run L') ?_ fun _ L' h => hrest L' h
    unfold reconcileOne
    split
    · exact ⟨fun _ _ => rfl, hcheckpoints⟩
    · rename_i hskip
      obtain ⟨hslime, hlive⟩ := not_or.mp hskip
      rw [wp_bind]
      exact wp_mono (fun _ _ hspared => hspared)
        (lawful_reconcileRecording (hwaiting run List.mem_cons_self) (not_not.mp hslime)
          (Bool.eq_false_of_not_eq_true hlive) hcheckpoints)

theorem lawfully_reconcileAll (h : Extends L0 L) :
    Lawfully false cfg .reconcilePass L0 (reconcileAll cfg) L := by
  refine ⟨.plain trivial, fun ans L1 hrec => ?_⟩
  have hext : Extends L0 L1 := h.trans (extends_of_plain hrec trivial)
  cases ans with
  | error e => trivial
  | ok runs =>
    obtain ⟨-, hlists⟩ := hrec.1
    refine lawfully_reconcileEach runs hlists.nodup_keys (fun run hrun => ?_)
      (hext.table .checkpoints rfl nofun)
    have hrow : L1.world.row .runs run.id = some run :=
      ((extends_of_plain hrec trivial).runs run.id).trans (hlists.row_eq hrun).1
    exact ⟨hrow, (hext.runs run.id).symm.trans hrow⟩

/-- Every operation of a served request is lawful. -/
theorem lawfully_program (cfg : Config) (L0 : Ledger) (request : Request) :
    Lawfully false cfg request L0 (program cfg request) L0 := by
  have h := Extends.refl L0
  have hserving : ∀ {handler : Handler}, Lawfully false cfg request L0 handler L0 →
      Lawfully false cfg request L0 (serving handler) L0 :=
    fun hhandler => Lawfully.bind hhandler fun _ _ _ => trivial
  have hbackground : ∀ {p : Program Unit}, Lawfully false cfg request L0 p L0 →
      Lawfully false cfg request L0 (background p) L0 :=
    fun hp => Lawfully.bind hp fun _ _ _ => trivial
  cases request with
  | startRun start => exact hserving (lawfully_rlStartRun h rfl)
  | setPolicyServer id url => exact hserving (lawfully_rlSetPolicyServer h id url)
  | stopRun id => exact hserving (lawfully_rlStopRun h rfl)
  | suspendRun id => exact hserving (lawfully_rlSuspendRun h rfl)
  | resumeRun id => exact hserving (lawfully_rlResumeRun h rfl)
  | collect id url body => exact hserving (lawfully_rlCollect h id url body)
  | policyRedeploy id checkpointURL url =>
    exact hserving (lawfully_rlPolicyRedeploy h id checkpointURL url)
  | claimSamples body => exact hserving (lawfully_rlGroupedSampleClaim h body)
  | queryBackpressure runID => exact hserving (lawfully_rlGroupedSampleBackpressure h runID)
  | rolloutMetrics id body => exact hserving (lawfully_rlRolloutMetrics h id body)
  | publishWeights body => exact hserving (lawfully_rlPublishWeights h body)
  | acknowledgeWeights version body => exact hserving (lawfully_rlAcknowledgeWeights h rfl)
  | rollbackWeights body => exact hserving (lawfully_rlRollbackWeights h rfl)
  | evaluateWeights id version body => exact hserving (lawfully_rlEvaluateWeights h rfl)
  | commitCheckpoint id body => exact hserving (lawfully_rlCommitCheckpoint h rfl)
  | trainerProgress id body => exact hserving (lawfully_rlTrainerProgress h rfl)
  | reconcilePass => exact hbackground (lawfully_reconcileAll h)
  | queueRound => exact hbackground (lawfully_processOne h)

end Programs

end RL
end Skyscale
