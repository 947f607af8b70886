import Skyscale.RL.History

/-!
# Canary starts that are cut short

`reconcileEvaluation` starts the canary of an accepted version in memory: the copy of the
run gets the status `canary` and the copy of the evaluation the canary state `running`.
Then it calls out several more times before it saves the evaluation and the run.  If one
of these calls fails, `ReconcileAll` saves the run alone.

The module is about one pass over one run, served alone, with any answers of the
Kubernetes client, the promotion controller and the store.

* `CanaryKept` says of a database that the run is not stored half-way: with the status
  `canary` goes an evaluation whose canary was started.
* `Interrupted` says of the answers of a pass that they cut the start of a canary short.
* `canary_start_recorded_iff` says that these are exactly the answers that break
  `CanaryKept`.
-/

namespace Skyscale
namespace RL

open Lib State Control K8s Contracts

/-! ## What is stored -/

/-- The canary of the evaluation was started. -/
def CanaryBegun (e : RLEvaluationRecord) : Prop :=
  e.canaryState = .running ∨ e.canaryState = .passed ∨ e.canaryState = .failed

/-- The stored evaluation of the version has a canary that was started. -/
def CanaryRecorded (w : World) (runID version : String) : Prop :=
  ∃ e : RLEvaluationRecord, w.row .evaluations e.id = some e ∧ e.runID = runID ∧
    e.policyVersion = version ∧ CanaryBegun e

/-- If the run is stored with the status `canary`, the canary of its version was started. -/
def CanaryKept (w : World) (id : String) : Prop :=
  ∀ run : RLRun, w.row .runs id = some run → run.status = .canary →
    CanaryRecorded w id run.policyVersion

/-- The unique index `idx_eval_run_policy`. -/
def EvaluationsIndexed (w : World) : Prop :=
  ∀ e e' : RLEvaluationRecord, w.row .evaluations e.id = some e →
    w.row .evaluations e'.id = some e' → e.runID = e'.runID →
    e.policyVersion = e'.policyVersion → e = e'

theorem canaryBegun_iff {e : RLEvaluationRecord} : CanaryBegun e ↔ e.canaryState ≠ .pending := by
  unfold CanaryBegun
  cases e.canaryState with
  | _ => decide

/-! ## What the answers say -/

/-- The object is the canary's evaluator job. -/
def canaryJob (object : Object) : Bool :=
  match object.content with
  | .evaluatorRayJob _ _ _ phase => phase = "canary"
  | _ => false

/-- The canary's evaluator job is applied. -/
def appliesCanaryJob : Entry → Bool
  | .performed _ (.apply object) _ => canaryJob object
  | _ => false

/-- A call fails that is not a save of the run; or a job is seen to have failed, and there
is no promotion controller to roll back. -/
def adverse (cfg : Config) : Entry → Bool
  | .performed _ (.sql (.save .runs _)) _ => false
  | .performed _ (.getObject _ _ _) (.ok job) => !cfg.promotions && jobFailed (rayJobStatus job)
  | .performed _ op ans => failed op ans
  | .request _ => false

/-- A version is rolled back. -/
def rollsBack : Entry → Bool
  | .performed _ (.rollback _ _) (.ok _) => true
  | _ => false

/-- A run is saved. -/
def savesRun : Entry → Bool
  | .performed _ (.sql (.save .runs _)) (.ok _) => true
  | _ => false

/-- The pass evaluates the run. -/
structure Evaluates (run : RLRun) : Prop where
  status : run.status = .evaluating
  cancelled : run.desiredState ≠ .cancelled
  suspended : run.desiredState ≠ .suspended

/-- The pass has started a canary that was not recorded before, and a later call fails: the
version is not rolled back, and the run is saved. -/
structure Interrupted (cfg : Config) (w : World) (run : RLRun) (log : List Entry) : Prop where
  evaluates : Evaluates run
  unrecorded : ¬CanaryRecorded w run.id run.policyVersion
  started : log.any appliesCanaryJob = true
  fails : log.any (adverse cfg) = true
  kept : log.any rollsBack = false
  saved : log.any savesRun = true

/-! ## Passes that start no canary -/

section KeptCanary

variable {cfg : Config} {id : String} {run run0 : RLRun} {L L' : Ledger} {w w' : World}

theorem CanaryRecorded.congr {runID version : String} (h : CanaryRecorded w runID version)
    (hrows : ∀ id : String, w'.row .evaluations id = w.row .evaluations id) :
    CanaryRecorded w' runID version := by
  obtain ⟨e, he, hfacts⟩ := h
  exact ⟨e, (hrows e.id).trans he, hfacts⟩

/-- The copy, and the stored run, have the status `canary` only if the canary of their
version was started. -/
structure KeptCanary (id : String) (run : RLRun) (L : Ledger) : Prop where
  named : run.id = id
  copy : run.status = .canary → CanaryRecorded L.world id run.policyVersion
  stored : CanaryKept L.world id

theorem KeptCanary.extend (h : KeptCanary id run L) (hext : Extends L L') :
    KeptCanary id run L' where
  named := h.named
  copy := fun hstatus => (h.copy hstatus).congr hext.evaluations
  stored := by
    intro found hfound hstatus
    rw [hext.runs] at hfound
    exact (h.stored found hfound hstatus).congr hext.evaluations

variable {ans : Ans (.sql (.save .runs run))}

theorem KeptCanary.save (h : KeptCanary id run L)
    (hrec : L.Records (.sql (.save .runs run)) ans L') : KeptCanary id run L' := by
  have hevaluations : ∀ id : String, L'.world.row .evaluations id = L.world.row .evaluations id :=
    hrec.row_of_target_ne (t := .evaluations) nofun
  refine ⟨h.named, fun hstatus => (h.copy hstatus).congr hevaluations, ?_⟩
  intro found hfound hstatus
  cases ans with
  | error e =>
    rw [show L'.world = L.world from hrec.1] at hfound ⊢
    exact h.stored found hfound hstatus
  | ok =>
    have hworld : L'.world = L.world.save Table.runs run := hrec.1
    rw [hworld, ← h.named, row_save_run_self] at hfound
    obtain rfl := Option.some.inj hfound
    exact (h.copy hstatus).congr hevaluations

theorem KeptCanary.assign {run' : RLRun} (h : KeptCanary id run L) (hid : run'.id = run.id)
    (hstatus : run'.status ≠ .canary) : KeptCanary id run' L :=
  ⟨hid.trans h.named, fun hcanary => absurd hcanary hstatus, h.stored⟩

/-- A pass that cancels or suspends the run keeps this. -/
theorem tame_kept : Tame Idle Ending (acting Ledger.Records) (KeptCanary id) where
  leaves := Leaves.keeps fun _ _ _ _ _ hop hrec h => h.extend (extends_of_plain hrec hop.plain)
  assign hf := Keeps.modify fun run _ h =>
    h.assign (congrArg Prod.fst (hf run).1) (hf run).2
  save _ _ h _ _ hrec := h.save hrec

/-- Neither the copy nor the stored run have the status `canary`. -/
structure Away (id : String) (run : RLRun) (L : Ledger) : Prop where
  named : run.id = id
  copy : run.status ≠ .canary
  stored : ∀ found : RLRun, L.world.row .runs id = some found → found.status ≠ .canary

theorem Away.kept (h : Away id run L) : CanaryKept L.world id :=
  fun found hfound hstatus => absurd hstatus (h.stored found hfound)

theorem Away.same (h : Away id run L)
    (hruns : L'.world.row .runs id = L.world.row .runs id) : Away id run L' :=
  ⟨h.named, h.copy, fun found hfound => h.stored found (hruns.symm.trans hfound)⟩

theorem Away.save (h : Away id run L) (hrec : L.Records (.sql (.save .runs run)) ans L') :
    Away id run L' := by
  cases ans with
  | error e => exact h.same (by rw [show L'.world = L.world from hrec.1])
  | ok =>
    refine ⟨h.named, h.copy, fun found hfound => ?_⟩
    have hworld : L'.world = L.world.save Table.runs run := hrec.1
    rw [hworld, ← h.named, row_save_run_self] at hfound
    obtain rfl := Option.some.inj hfound
    exact h.copy

/-- A pass that trains the run keeps this. -/
theorem tame_away : Tame Aloof Leaving (acting Ledger.Records) (Away id) where
  leaves := Leaves.keeps fun _ _ _ _ _ hop hrec h => h.same (row_of_aloof hrec hop _)
  assign hf := Keeps.modify fun run _ h =>
    ⟨(congrArg Prod.fst (hf run).1).trans h.named, fun hcanary => h.copy ((hf run).2 hcanary),
      h.stored⟩
  save _ _ h _ _ hrec := h.save hrec

end KeptCanary

/-! ## Evaluations of a canary that runs -/

section Review

variable {cfg : Config} {id : String} {run : RLRun} {L L' : Ledger} {w : World}
  {e : RLEvaluationRecord}

/-- The copy of the evaluation is one whose canary was started, and it is stored under its
identifier, perhaps with other columns. -/
structure UnderReview (id : String) (e : RLEvaluationRecord) (run : RLRun) (L : Ledger) : Prop where
  kept : KeptCanary id run L
  begun : CanaryBegun e
  stored : ∃ old : RLEvaluationRecord, L.world.row .evaluations e.id = some old ∧
    old.runID = e.runID ∧ old.policyVersion = e.policyVersion

theorem UnderReview.extend (h : UnderReview id e run L) (hext : Extends L L') :
    UnderReview id e run L' := by
  obtain ⟨old, hold, hfacts⟩ := h.stored
  exact ⟨h.kept.extend hext, h.begun, old, (hext.evaluations _).trans hold, hfacts⟩

/-- The evaluation is saved. -/
theorem UnderReview.save {ans : Ans (.sql (.save .evaluations e))} (h : UnderReview id e run L)
    (hrec : L.Records (.sql (.save .evaluations e)) ans L') : KeptCanary id run L' := by
  cases ans with
  | error text =>
    have hworld : L'.world = L.world := hrec.1
    refine ⟨h.kept.named, ?_, ?_⟩
    · rw [hworld]
      exact h.kept.copy
    · rw [hworld]
      exact h.kept.stored
  | ok =>
    have hworld : L'.world = L.world.save Table.evaluations e := hrec.1
    obtain ⟨old, hold, hrun, hversion⟩ := h.stored
    have hrecorded : ∀ version, CanaryRecorded L.world id version →
        CanaryRecorded L'.world id version := by
      rintro version ⟨found, hfound, rfl, rfl, hbegun⟩
      rw [hworld]
      by_cases hid : found.id = e.id
      · rw [hid, hold] at hfound
        obtain rfl := Option.some.inj hfound
        exact ⟨e, row_save_evaluation_self _ _, hrun.symm, hversion.symm, h.begun⟩
      · exact ⟨found, (row_save_evaluation_of_ne _ hid).trans hfound, rfl, rfl, hbegun⟩
    have hruns : L'.world.row .runs id = L.world.row .runs id :=
      hrec.row_of_target_ne (t := .runs) nofun id
    refine ⟨h.kept.named, fun hstatus => hrecorded _ (h.kept.copy hstatus), ?_⟩
    intro found hfound hstatus
    exact hrecorded _ (h.kept.stored found (hruns.symm.trans hfound) hstatus)

theorem ends_canaryStage {spec : RLRunSpec} {attempt : RLAttempt} (h : UnderReview id e run L) :
    Ends (fun e' copy L' => UnderReview id e' copy L') (KeptCanary id)
      (canaryStage spec attempt e) run L := by
  refine Act.At.get ?_
  split
  · refine (calm_applyAndTrack _ _).then (fun L' hext => h.kept.extend hext) fun _ L1 hext1 => ?_
    have h1 := h.extend hext1
    refine (calm_getObject _ _ _ _).then (fun L' hext => h1.kept.extend hext)
      fun observed L2 hext2 => ?_
    have h2 := h1.extend hext2
    split
    · exact ⟨h2.kept, .inr (.inr rfl), h2.stored⟩
    · split
      · exact Act.At.modify ⟨⟨h2.kept.named, h2.kept.copy, h2.kept.stored⟩, h2.begun, h2.stored⟩
      · exact h2
  · exact h

theorem decided_ne_canary (final : Bool) :
    (if final then RunStatus.completed else RunStatus.running) ≠ .canary := by
  cases final with
  | _ => decide

theorem ends_decisionStage {spec : RLRunSpec} (h : UnderReview id e run L) :
    Ends (fun _ copy L' => UnderReview id e copy L') (KeptCanary id)
      (decisionStage cfg spec e) run L := by
  have hdecided : ∀ {run' : RLRun} {L' : Ledger}, Extends L L' → run'.id = run.id →
      run'.status ≠ .canary → UnderReview id e run' L' := fun hext hid hstatus =>
    ⟨(h.kept.extend hext).assign hid hstatus, h.begun, (h.extend hext).stored⟩
  refine Act.At.get ?_
  split
  · split
    · refine Calm.then (Leaves.attempt (Obeys.perform trivial)) (fun L' hext => h.kept.extend hext)
        fun version L1 hext => ?_
      show UnderReview id e _ L1
      exact hdecided hext rfl (decided_ne_canary e.final)
    · exact Act.At.fail h.kept
  · split
    · split
      · refine Act.At.bind (Act.At.attempt ?_)
        intro ans L1 hrec
        have hworld : L1.world = L.world := hrec.1
        have hext1 : Extends L L1 := ⟨fun t _ _ => by rw [hworld], _, hrec.2⟩
        refine ⟨fun ⟨⟩ _ => Act.At.modify ?_, fun _ _ => h.kept.extend hext1⟩
        refine Calm.then (Leaves.lift (Obeys.perform trivial)) (fun L2 hext2 => ?_)
          fun _ L2 hext2 => ?_
        · exact (h.kept.extend (hext1.trans hext2)).assign rfl (decided_ne_canary e.final)
        · show UnderReview id e _ L2
          exact hdecided (hext1.trans hext2) rfl (decided_ne_canary e.final)
      · exact Act.At.fail h.kept
    · exact h

theorem evaluation_of_records {runID version : String} {where_ : RLEvaluationRecord → Bool}
    {rank : RLEvaluationRecord → Int × Int}
    (hwhere : where_ = fun row => row.runID = runID && row.policyVersion = version)
    (hrec : L.Records (.sql (.first .evaluations where_ rank)) (Except.ok e) L') :
    L.world.row .evaluations e.id = some e ∧ e.runID = runID ∧ e.policyVersion = version := by
  subst hwhere
  obtain ⟨hrow, hfound⟩ := Database.Selects.row_eq hrec.1.2
  simp only [Bool.and_eq_true, decide_eq_true_eq] at hfound
  exact ⟨hrow, hfound⟩

/-- A pass over a run in its canary stage. -/
theorem ends_reconcileEvaluation_canary {spec : RLRunSpec} (h : KeptCanary id run L)
    (hindexed : EvaluationsIndexed L.world) (hstatus : run.status = .canary) :
    Ends (fun _ copy L' => KeptCanary id copy L') (KeptCanary id)
      (reconcileEvaluation cfg spec) run L := by
  refine Act.At.get (Act.At.bind (Act.At.attempt ?_))
  intro ans L1 hrec
  have hext1 : Extends L L1 := extends_of_plain hrec trivial
  refine ⟨?_, fun _ _ => h.extend hext1⟩
  rintro e rfl
  obtain ⟨hrow, hrun, hversion⟩ := evaluation_of_records rfl hrec
  obtain ⟨recorded, hrecorded, hrun', hversion', hbegun⟩ := h.copy hstatus
  obtain rfl : e = recorded :=
    hindexed e recorded hrow hrecorded (hrun.trans (h.named.trans hrun'.symm))
      (hversion.trans hversion'.symm)
  have h1 : UnderReview id e run L1 :=
    ⟨h.extend hext1, hbegun, e, (hext1.evaluations e.id).trans hrow, rfl, rfl⟩
  refine Calm.then (Leaves.stored (Obeys.perform trivial)) (fun L' hext => h1.kept.extend hext)
    fun attempt L2 hext2 => ?_
  have h2 := h1.extend hext2
  refine Calm.then (Leaves.when (calm_applyAndTrack _ _)) (fun L' hext => h2.kept.extend hext)
    fun _ L3 hext3 => ?_
  refine Act.At.bind (Act.At.get ?_)
  rw [if_neg (by rw [hstatus]; decide)]
  refine Act.At.seq (ends_canaryStage (h2.extend hext3)) ?_
  intro e1 run1 L4 h4
  refine Act.At.seq (ends_decisionStage h4) ?_
  intro _ run2 L5 h5
  refine Act.At.bind (Act.At.attempt ?_)
  intro ans L6 hrec6
  exact ⟨fun ⟨⟩ _ => Act.At.of_keeps tame_kept.saveRun (h5.save hrec6), fun _ _ => h5.save hrec6⟩

end Review

/-! ## The start of a canary -/

/-- The pass has saved neither runs nor evaluations and rolled nothing back.  The flags say
whether it has come to the canary's evaluator job, and whether an answer was adverse. -/
structure Halfway (cfg : Config) (w : World) (started fails : Bool) (L : Ledger) : Prop where
  runs : ∀ id : String, L.world.row .runs id = w.row .runs id
  evaluations : ∀ id : String, L.world.row .evaluations id = w.row .evaluations id
  started : L.log.any appliesCanaryJob = started
  fails : L.log.any (adverse cfg) = fails
  kept : L.log.any rollsBack = false
  saved : L.log.any savesRun = false

section Start

variable {cfg : Config} {w : World} {run copy : RLRun} {L L' : Ledger} {started fails : Bool}
  {attempt : RLAttempt}
  {spec : RLRunSpec} {e : RLEvaluationRecord}

theorem Halfway.initial (cfg : Config) (w : World) : Halfway cfg w false false ⟨w, []⟩ :=
  ⟨fun _ => rfl, fun _ => rfl, rfl, rfl, rfl, rfl⟩

theorem Halfway.record {op : Op} {ans : Ans op} (h : Halfway cfg w started fails L)
    (hrec : L.Records op ans L') (hop : Plain op)
    (hrolls : rollsBack (.performed L.world op ans) = false)
    (hsaves : savesRun (.performed L.world op ans) = false) :
    Halfway cfg w (appliesCanaryJob (.performed L.world op ans) || started)
      (adverse cfg (.performed L.world op ans) || fails) L' := by
  have hext : Extends L L' := extends_of_plain hrec hop
  refine ⟨fun id => (hext.runs id).trans (h.runs id),
    fun id => (hext.evaluations id).trans (h.evaluations id), ?_, ?_, ?_, ?_⟩
  · rw [hrec.2, List.any_append, h.started, Bool.or_comm, List.any_cons, List.any_nil,
      Bool.or_false]
  · rw [hrec.2, List.any_append, h.fails, Bool.or_comm, List.any_cons, List.any_nil, Bool.or_false]
  · rw [hrec.2, List.any_append, h.kept, List.any_cons, hrolls, List.any_nil]
    rfl
  · rw [hrec.2, List.any_append, h.saved, List.any_cons, hsaves, List.any_nil]
    rfl

/-- The operation is plain, applies no canary job, and is adverse if and only if it fails. -/
structure Uneventful (cfg : Config) (op : Op) : Prop where
  plain : Plain op
  starts : ∀ w ans, appliesCanaryJob (.performed w op ans) = false
  adverse : ∀ w ans, adverse cfg (.performed w op ans) = failed op ans
  rolls : ∀ w ans, rollsBack (.performed w op ans) = false
  saves : ∀ w ans, savesRun (.performed w op ans) = false

theorem covers_uneventful : Covers (acting Ledger.Records) (Uneventful cfg)
    (Halfway cfg w started false) (Halfway cfg w started true) := by
  intro op L hop h ans L' hrec
  have h' := h.record hrec hop.plain (hop.rolls _ _) (hop.saves _ _)
  rw [hop.starts, hop.adverse, Bool.or_false, Bool.false_or] at h'
  show Outcome _ _ (failed op ans) _
  cases hfailed : failed op ans with
  | false | true =>
    rw [hfailed] at h'
    exact h'

theorem Handles.uneventful {op : Op} (h : Handles (fun object => canaryJob object = false) op) :
    Uneventful cfg op := by
  cases h with
  | apply hobject =>
    exact ⟨trivial, fun _ _ => hobject, fun _ ans => by cases ans <;> rfl, fun _ _ => rfl,
      fun _ _ => rfl⟩
  | list | track =>
    exact ⟨by trivial, fun _ _ => rfl, fun _ ans => by cases ans <;> rfl, fun _ _ => rfl,
      fun _ _ => rfl⟩

theorem Reports.halfway {α : Type} {m : Pass α} (hm : Reports (Uneventful cfg) m) (run : RLRun)
    (h : Halfway cfg w started false L) :
    Ends (fun _ copy L' => copy = run ∧ Halfway cfg w started false L')
      (fun copy L' => copy = run ∧ Halfway cfg w started true L') m run L :=
  hm.acts covers_uneventful run h

theorem uneventful_applyAndTrack {object : Object} (hobject : canaryJob object = false) :
    Reports (Uneventful cfg) (applyAndTrack attempt object) :=
  (reports_applyAndTrack attempt hobject).mono fun _ => Handles.uneventful

theorem ends_applyAndTrack (attempt : RLAttempt) (object : Object) (run : RLRun)
    (h : Halfway cfg w started false L) :
    Ends (fun _ copy L' => copy = run ∧ Halfway cfg w (canaryJob object || started) false L')
      (fun copy L' => copy = run ∧ Halfway cfg w (canaryJob object || started) true L')
      (applyAndTrack attempt object) run L := by
  refine Act.At.get (Act.At.bind (Act.At.attempt ?_))
  intro ans L1 hrec
  refine ⟨?_, ?_⟩
  · rintro applied rfl
    have h1 : Halfway cfg w (canaryJob object || started) false L1 := h.record hrec trivial rfl rfl
    exact ((reports_saveBackendResource _).mono fun _ => Handles.uneventful).halfway run h1
  · rintro text rfl
    exact ⟨rfl, h.record hrec trivial rfl rfl⟩

theorem uneventful_getRLAttempt (id : String) :
    Reports (Uneventful cfg) (RL.stored (getRLAttempt id)) :=
  reports_getRLAttempt ⟨trivial, fun _ _ => rfl, fun _ ans => by cases ans <;> rfl,
    fun _ _ => rfl, fun _ _ => rfl⟩

theorem ends_getRLEvaluation {text : Failure → String} (runID version : String) (run : RLRun)
    (h : Halfway cfg w started false L) :
    Ends (fun e copy L' => copy = run ∧ Halfway cfg w started false L' ∧ e.runID = runID ∧
        e.policyVersion = version)
      (fun copy L' => copy = run ∧ Halfway cfg w started true L')
      (Act.attempt text (getRLEvaluation runID version)) run L := by
  refine Act.At.attempt fun ans L' hrec => ⟨?_, ?_⟩
  · rintro e rfl
    exact ⟨rfl, h.record hrec trivial rfl rfl, (evaluation_of_records rfl hrec).2⟩
  · rintro text rfl
    exact ⟨rfl, h.record hrec trivial rfl rfl⟩

/-- Neither the copy nor the stored run have the status `canary`, and no canary was
started, or it was rolled back. -/
structure Aside (run copy : RLRun) (L : Ledger) : Prop where
  away : Away run.id copy L
  harmless : L.log.any appliesCanaryJob = false ∨ L.log.any rollsBack = true

theorem Aside.record {op : Op} {ans : Ans op} (h : Aside run copy L) (hrec : L.Records op ans L')
    (haway : Away run.id copy L')
    (hjob : appliesCanaryJob (.performed L.world op ans) = false) : Aside run copy L' := by
  refine ⟨haway, ?_⟩
  rw [hrec.2, List.any_append, List.any_append, List.any_cons, List.any_nil, hjob]
  rcases h.harmless with hnone | hrolled
  · exact .inl (by rw [hnone]; rfl)
  · exact .inr (by rw [hrolled]; rfl)

theorem Halfway.aside (h : Halfway cfg w false fails L) (hstored : w.row .runs run.id = some run)
    (hrun : run.status ≠ .canary) (hid : copy.id = run.id) (hcopy : copy.status ≠ .canary) :
    Aside run copy L := by
  refine ⟨⟨hid, hcopy, fun found hfound => ?_⟩, .inl h.started⟩
  rw [h.runs, hstored] at hfound
  obtain rfl := Option.some.inj hfound
  exact hrun

/-- The end of an evaluation keeps this. -/
theorem tame_aside :
    Tame Decides (fun f => Judging f ∧ Ending f) (acting Ledger.Records) (Aside run) where
  leaves := Leaves.keeps fun _ _ op _ _ hop hrec h => by
    refine h.record hrec (h.away.same (row_of_aloof hrec hop.beside.aloof _)) ?_
    cases op with
    | apply object =>
      obtain ⟨_, _, rfl⟩ := hop
      rfl
    | _ => rfl
  assign hf := Keeps.modify fun copy _ h =>
    ⟨⟨(congrArg Prod.fst (hf.2 copy).1).trans h.away.named, (hf.2 copy).2, h.away.stored⟩,
      h.harmless⟩
  save _ _ h _ _ hrec := h.record hrec (h.away.save hrec) rfl

theorem aside_saveRLEvaluation (e : RLEvaluationRecord) :
    Keeps (acting Ledger.Records) (Aside run) (RL.stored (saveRLEvaluation e)) := by
  refine Keeps.attempt (fun copy L h ans L' hrec => ?_)
  exact h.record hrec (h.away.same (hrec.row_of_target_ne (t := .runs) nofun _)) rfl

theorem ends_aside (h : Aside run copy L) :
    Ends (fun _ copy L' => Aside run copy L') (Aside run) (do
      let e ← canaryStage spec attempt e
      decisionStage cfg spec e
      RL.stored (saveRLEvaluation e)
      saveRun) copy L := by
  refine Act.At.bind (Act.At.get ?_)
  rw [if_neg fun hcanary => h.away.copy hcanary.1]
  refine Act.At.of_keeps ?_ h
  refine Keeps.bind (tame_aside.decisionStage e) fun _ => ?_
  exact Keeps.bind (aside_saveRLEvaluation e) fun _ => tame_aside.saveRun

/-- The copy of the run is in its canary stage, and its evaluation is `e`. -/
structure InCanary (run : RLRun) (e : RLEvaluationRecord) (copy : RLRun) : Prop where
  named : copy.id = run.id
  status : copy.status = .canary
  version : copy.policyVersion = run.policyVersion
  evaluated : e.runID = run.id ∧ e.policyVersion = run.policyVersion
  accepted : e.status ≠ .failed

/-- The start of the canary is cut short. -/
structure Broken (cfg : Config) (w : World) (run copy : RLRun) (L : Ledger) : Prop where
  named : copy.id = run.id
  status : copy.status = .canary
  version : copy.policyVersion = run.policyVersion
  halfway : Halfway cfg w true true L

theorem InCanary.broken (h : InCanary run e copy) (hhalfway : Halfway cfg w true true L) :
    Broken cfg w run copy L :=
  ⟨h.named, h.status, h.version, hhalfway⟩

/-- The canary's evaluator job was looked at. -/
structure CanaryWatched (cfg : Config) (w : World) (run : RLRun) (e : RLEvaluationRecord)
    (copy : RLRun) (L : Ledger) : Prop where
  canary : InCanary run e copy
  verdict : e.canaryState = .running ∧ Halfway cfg w true false L ∨
    e.canaryState = .failed ∧ Halfway cfg w true (!cfg.promotions) L

theorem ends_watchCanary (h : InCanary run e copy)
    (hrunning : e.canaryState = .running) (hhalfway : Halfway cfg w false false L) :
    Ends (fun e' copy' L' => CanaryWatched cfg w run e' copy' L') (Broken cfg w run)
      (canaryStage spec attempt e) copy L := by
  refine Act.At.get ?_
  rw [if_pos ⟨h.status, hrunning⟩]
  refine Act.At.bind (Act.At.mono (ends_applyAndTrack attempt _ copy hhalfway) ?_ ?_)
  · rintro ⟨⟩ _ L1 ⟨rfl, h1⟩
    have h1 : Halfway cfg w true false L1 := h1
    refine Act.At.bind (Act.At.attempt ?_)
    intro ans L2 hrec
    refine ⟨?_, ?_⟩
    · rintro observed rfl
      have h2 : Halfway cfg w true
          (!cfg.promotions && jobFailed (rayJobStatus observed) || false) L2 :=
        h1.record hrec trivial rfl rfl
      rw [Bool.or_false] at h2
      split
      · rename_i hfailed
        rw [hfailed, Bool.and_true] at h2
        exact ⟨⟨h.named, h.status, h.version, h.evaluated, h.accepted⟩, .inr ⟨rfl, h2⟩⟩
      · rename_i hfailed
        rw [Bool.eq_false_iff.mpr hfailed, Bool.and_false] at h2
        split
        · exact Act.At.modify
            ⟨⟨h.named, h.status, h.version, h.evaluated, h.accepted⟩, .inl ⟨hrunning, h2⟩⟩
        · exact ⟨h, .inl ⟨hrunning, h2⟩⟩
    · rintro text rfl
      exact h.broken (h1.record hrec trivial rfl rfl)
  · rintro _ L1 ⟨rfl, h1⟩
    exact h.broken h1

/-- The canary was looked at and runs, or its version was rolled back. -/
def Judged (cfg : Config) (w : World) (run : RLRun) (e : RLEvaluationRecord) (copy : RLRun)
    (L : Ledger) : Prop :=
  (InCanary run e copy ∧ e.canaryState = .running ∧ Halfway cfg w true false L) ∨ Aside run copy L

theorem ends_judge (h : CanaryWatched cfg w run e copy L) (hstored : w.row .runs run.id = some run)
    (hrun : run.status ≠ .canary) :
    Ends (fun _ copy' L' => Judged cfg w run e copy' L') (Broken cfg w run)
      (decisionStage cfg spec e) copy L := by
  refine Act.At.get ?_
  rcases h.verdict with ⟨hrunning, hhalfway⟩ | ⟨hfailed, hhalfway⟩
  · -- A canary that runs is neither rolled back nor promoted.
    have hnot : ¬(e.status = .failed ∨ e.canaryState = .failed) := by
      rintro (hstatus | hstate)
      · exact h.canary.accepted hstatus
      · rw [hrunning] at hstate
        cases hstate
    rw [if_neg hnot, if_neg fun hpassed => by rw [hrunning] at hpassed; cases hpassed.2]
    exact .inl ⟨h.canary, hrunning, hhalfway⟩
  · rw [if_pos (.inr hfailed)]
    split
    · rename_i hpromotions
      rw [hpromotions, Bool.not_true] at hhalfway
      refine Act.At.bind (Act.At.attempt ?_)
      intro ans L1 hrec
      refine ⟨?_, ?_⟩
      · rintro version rfl
        show Judged cfg w run e _ L1
        refine .inr ⟨⟨h.canary.named, decided_ne_canary e.final, ?_⟩, .inr ?_⟩
        · intro found hfound
          rw [show L1.world = L.world from hrec.1, hhalfway.runs, hstored] at hfound
          obtain rfl := Option.some.inj hfound
          exact hrun
        · rw [hrec.2, List.any_append]
          exact Bool.or_eq_true_iff.mpr (.inr rfl)
      · rintro text rfl
        exact h.canary.broken (hhalfway.record hrec trivial rfl rfl)
    · rename_i hpromotions
      rw [Bool.eq_false_iff.mpr hpromotions, Bool.not_false] at hhalfway
      exact Act.At.fail (h.canary.broken hhalfway)

/-- What the pass leaves is harmless: the stored run is as it should be, and the start of a
canary was not cut short. -/
def SafeEnd (cfg : Config) (run copy : RLRun) (L : Ledger) : Prop :=
  KeptCanary run.id copy L ∧ (¬Evaluates run ∨ L.log.any appliesCanaryJob = false ∨
    L.log.any rollsBack = true ∨ L.log.any (adverse cfg) = false)

theorem Aside.safe (h : Aside run copy L) : SafeEnd cfg run copy L :=
  ⟨⟨h.away.named, fun hstatus => absurd hstatus h.away.copy, h.away.kept⟩,
    .inr (h.harmless.imp_right .inl)⟩

/-- The evaluation of the started canary is saved. -/
theorem ends_record (h : InCanary run e copy) (hrunning : e.canaryState = .running)
    (hhalfway : Halfway cfg w true false L) (hstored : w.row .runs run.id = some run)
    (hrun : run.status ≠ .canary) :
    Ends (fun _ copy' L' => SafeEnd cfg run copy' L')
      (fun copy' L' => SafeEnd cfg run copy' L' ∨ Broken cfg w run copy' L')
      (do RL.stored (saveRLEvaluation e); saveRun) copy L := by
  refine Act.At.bind (Act.At.attempt ?_)
  intro ans L1 hrec
  have hruns : ∀ id : String, L1.world.row .runs id = w.row .runs id := fun id =>
    (hrec.row_of_target_ne (t := .runs) nofun id).trans (hhalfway.runs id)
  refine ⟨?_, ?_⟩
  · rintro ⟨⟩ rfl
    have hworld : L1.world = L.world.save Table.evaluations e := hrec.1
    have hrecorded : CanaryRecorded L1.world run.id run.policyVersion := by
      rw [hworld]
      exact ⟨e, row_save_evaluation_self _ _, h.evaluated.1, h.evaluated.2, .inl hrunning⟩
    have hadverse : L1.log.any (adverse cfg) = false := by
      rw [hrec.2, List.any_append, hhalfway.fails]
      rfl
    have hkept : KeptCanary run.id copy L1 := by
      refine ⟨h.named, fun _ => ?_, fun found hfound hstatus => ?_⟩
      · rw [h.version]
        exact hrecorded
      · rw [hruns, hstored] at hfound
        obtain rfl := Option.some.inj hfound
        exact absurd hstatus hrun
    refine Act.At.get (Act.At.attempt fun ans L2 hsave => ?_)
    have hsafe : SafeEnd cfg run copy L2 := by
      refine ⟨hkept.save hsave, .inr (.inr (.inr ?_))⟩
      rw [hsave.2, List.any_append, hadverse]
      rfl
    exact ⟨fun _ _ => hsafe, fun _ _ => .inl hsafe⟩
  · rintro text rfl
    have hworld : L1.world = L.world := hrec.1
    refine .inr (h.broken ⟨hruns, fun id => by rw [hworld]; exact hhalfway.evaluations id,
      ?_, ?_, ?_, ?_⟩)
    · rw [hrec.2, List.any_append, hhalfway.started]
      rfl
    · rw [hrec.2, List.any_append, hhalfway.fails]
      rfl
    · rw [hrec.2, List.any_append, hhalfway.kept]
      rfl
    · rw [hrec.2, List.any_append, hhalfway.saved]
      rfl

theorem ends_started (h : InCanary run e copy)
    (hrunning : e.canaryState = .running) (hhalfway : Halfway cfg w false false L)
    (hstored : w.row .runs run.id = some run) (hrun : run.status ≠ .canary) :
    Ends (fun _ copy' L' => SafeEnd cfg run copy' L')
      (fun copy' L' => SafeEnd cfg run copy' L' ∨ Broken cfg w run copy' L') (do
        let e ← canaryStage spec attempt e
        decisionStage cfg spec e
        RL.stored (saveRLEvaluation e)
        saveRun) copy L := by
  refine Act.At.bind (Act.At.mono
    (ends_watchCanary h hrunning hhalfway) ?_ fun _ _ hbroken => .inr hbroken)
  intro e1 copy1 L1 hwatched
  refine Act.At.bind (Act.At.mono
    (ends_judge hwatched hstored hrun) ?_ fun _ _ hbroken => .inr hbroken)
  rintro ⟨⟩ copy2 L2 (⟨hcanary, hrunning1, hhalfway1⟩ | haside)
  · exact ends_record hcanary hrunning1 hhalfway1 hstored hrun
  · have hkeeps : Keeps (acting Ledger.Records) (Aside run)
        (do RL.stored (saveRLEvaluation e1); saveRun) :=
      Keeps.bind (aside_saveRLEvaluation e1) fun _ => tame_aside.saveRun
    exact Act.At.mono (Act.At.of_keeps hkeeps haside)
      (fun _ _ _ hpost => hpost.safe) fun _ _ hpost => .inl hpost.safe

/-- The stage `evaluating`: the canary is started, or the pass goes on without. -/
def Staged (cfg : Config) (w : World) (run : RLRun) (e : RLEvaluationRecord) (copy : RLRun)
    (L : Ledger) : Prop :=
  (InCanary run e copy ∧ e.canaryState = .running ∧ Halfway cfg w false false L) ∨ Aside run copy L

theorem ends_startCanary {name : String}
    (hhalfway : Halfway cfg w false false L) (hstored : w.row .runs run.id = some run)
    (hrun : run.status ≠ .canary) (he : e.runID = run.id ∧ e.policyVersion = run.policyVersion)
    (hpassed : e.status = .passed) :
    Ends (fun e' copy L' => Staged cfg w run e' copy L') (Aside run)
      (startCanary spec attempt { e with rayJobName := name }) run L := by
  have haside : ∀ copy L', copy = run ∧ Halfway cfg w false true L' → Aside run copy L' := by
    rintro _ L' ⟨rfl, h⟩
    exact h.aside hstored hrun rfl hrun
  refine Act.At.get (Act.At.bind (Act.At.mono
    ((uneventful_applyAndTrack (by rfl)).halfway run hhalfway) ?_ haside))
  rintro ⟨⟩ _ L1 ⟨rfl, h1⟩
  refine Act.At.bind (Act.At.mono ((uneventful_applyAndTrack (by rfl)).halfway _ h1) ?_ haside)
  rintro ⟨⟩ _ L2 ⟨rfl, h2⟩
  have haccepted : e.status ≠ .failed := by
    rw [hpassed]
    decide
  exact Act.At.modify (Act.At.pure (.inl ⟨⟨rfl, rfl, rfl, he, haccepted⟩, rfl, h2⟩))

theorem ends_evaluatorStage (hhalfway : Halfway cfg w false false L)
    (hstored : w.row .runs run.id = some run) (hstatus : run.status = .evaluating)
    (he : e.runID = run.id ∧ e.policyVersion = run.policyVersion) :
    Ends (fun e' copy L' => Staged cfg w run e' copy L') (Aside run)
      (evaluatorStage spec attempt e) run L := by
  have hrun : run.status ≠ .canary := by
    rw [hstatus]
    decide
  have haside : ∀ {fails : Bool} {copy : RLRun} {L' : Ledger}, Halfway cfg w false fails L' →
      copy.id = run.id → copy.status = run.status → Aside run copy L' :=
    fun h hid hcopy => h.aside hstored hrun hid (by rw [hcopy]; exact hrun)
  refine Act.At.get ?_
  rw [if_pos hstatus]
  refine Act.At.bind (Act.At.mono ((uneventful_applyAndTrack (by rfl)).halfway run hhalfway) ?_ ?_)
  · rintro ⟨⟩ _ L1 ⟨rfl, h1⟩
    refine Act.At.bind (Act.At.attempt ?_)
    intro ans L2 hrec
    refine ⟨?_, ?_⟩
    · rintro observed rfl
      have h2 : Halfway cfg w false
          (!cfg.promotions && jobFailed (rayJobStatus observed) || false) L2 :=
        h1.record hrec trivial rfl rfl
      rw [Bool.or_false] at h2
      split
      · exact .inr (haside h2 rfl rfl)
      · rename_i hfailed
        rw [Bool.eq_false_iff.mpr hfailed, Bool.and_false] at h2
        split
        · split
          · rename_i hpassed
            exact ends_startCanary h2 hstored hrun he hpassed.1
          · split
            · exact Act.At.modify (Act.At.pure (.inr (haside h2 rfl rfl)))
            · exact .inr (haside h2 rfl rfl)
        · exact Act.At.modify (Act.At.pure (.inr (haside h2 rfl rfl)))
    · rintro text rfl
      exact haside (h1.record hrec trivial rfl rfl) rfl rfl
  · rintro _ L1 ⟨rfl, h1⟩
    exact haside h1 rfl rfl

/-- A pass over a run that is evaluated. -/
theorem ends_reconcileEvaluation (hhalfway : Halfway cfg w false false L)
    (hstored : w.row .runs run.id = some run) (hstatus : run.status = .evaluating) :
    Ends (fun _ copy L' => SafeEnd cfg run copy L')
      (fun copy L' => SafeEnd cfg run copy L' ∨ Broken cfg w run copy L')
      (reconcileEvaluation cfg spec) run L := by
  have hrun : run.status ≠ .canary := by
    rw [hstatus]
    decide
  have herror : ∀ copy L', copy = run ∧ Halfway cfg w false true L' →
      SafeEnd cfg run copy L' ∨ Broken cfg w run copy L' := by
    rintro _ L' ⟨rfl, h⟩
    exact .inl (h.aside hstored hrun rfl hrun).safe
  refine Act.At.get (Act.At.bind (Act.At.mono
    (ends_getRLEvaluation _ _ run hhalfway) ?_ herror))
  rintro e _ L1 ⟨rfl, h1, he⟩
  refine Act.At.bind (Act.At.mono ((uneventful_getRLAttempt _).halfway _ h1) ?_ herror)
  rintro attempt _ L2 ⟨rfl, h2⟩
  refine Act.At.bind (Act.At.mono
    ((Reports.when (uneventful_applyAndTrack (by rfl))).halfway _ h2) ?_ herror)
  rintro ⟨⟩ _ L3 ⟨rfl, h3⟩
  refine Act.At.bind (Act.At.mono
    (ends_evaluatorStage h3 hstored hstatus he) ?_ fun _ _ haside => .inl haside.safe)
  rintro e1 copy L4 (⟨hcanary, hrunning, h4⟩ | haside)
  · exact ends_started hcanary hrunning h4 hstored hrun
  · exact Act.At.mono (ends_aside haside) (fun _ _ _ hpost => hpost.safe)
      fun _ _ hpost => .inl hpost.safe

end Start

/-! ## A pass -/

section Pass

variable {cfg : Config} {w : World} {run copy : RLRun} {L L' : Ledger}

theorem Halfway.untouched {started fails : Bool} (h : Halfway cfg w started fails L)
    (hstored : w.row .runs run.id = some run) (hbefore : CanaryKept w run.id) :
    KeptCanary run.id run L := by
  have hkept : ∀ found : RLRun, w.row .runs run.id = some found → found.status = .canary →
      CanaryRecorded L.world run.id found.policyVersion := fun found hfound hstatus =>
    (hbefore found hfound hstatus).congr h.evaluations
  refine ⟨rfl, hkept run hstored, fun found hfound hstatus => ?_⟩
  exact hkept found ((h.runs run.id).symm.trans hfound) hstatus

theorem ends_safe {I : RLRun → Ledger → Prop} {m : Pass Unit}
    (hm : Keeps (acting Ledger.Records) I m) (h : I run L)
    (hI : ∀ copy L', I copy L' → KeptCanary run.id copy L') (hnot : ¬Evaluates run) :
    Ends (fun _ copy L' => SafeEnd cfg run copy L')
      (fun copy L' => SafeEnd cfg run copy L' ∨ Evaluates run ∧ Broken cfg w run copy L') m run L :=
  Act.At.mono (Act.At.of_keeps hm h)
    (fun _ copy L' hpost => ⟨hI copy L' hpost, .inl hnot⟩)
    fun copy L' hpost => .inl ⟨hI copy L' hpost, .inl hnot⟩

/-- A whole pass. -/
theorem ends_reconcile (hindexed : EvaluationsIndexed w) (hstored : w.row .runs run.id = some run)
    (hbefore : CanaryKept w run.id) :
    Ends (fun _ copy L' => SafeEnd cfg run copy L')
      (fun copy L' => SafeEnd cfg run copy L' ∨ Evaluates run ∧ Broken cfg w run copy L')
      (reconcile cfg) run ⟨w, []⟩ := by
  refine Act.At.get (Act.At.call fun now L1 hrec => ?_)
  have h1 : Halfway cfg w false false L1 := (Halfway.initial cfg w).record hrec trivial rfl rfl
  cases verifiedSpec cfg now run with
  | error text => exact .inl ⟨h1.untouched hstored hbefore, .inr (.inl h1.started)⟩
  | ok spec =>
    refine Act.At.bind (Act.At.mono
      (((reports_discoverOwned _).mono fun _ => Handles.uneventful).halfway run h1) ?_ ?_)
    · rintro ⟨⟩ copy L2 ⟨hcopy, h2⟩
      subst copy
      have hkept2 : KeptCanary run.id run L2 := h2.untouched hstored hbefore
      split
      · rename_i hcancel
        refine ends_safe tame_kept.cancelBranch hkept2 (fun _ _ h => h) fun hevaluates => ?_
        rcases hcancel with hdesired | hstatus
        · exact hevaluates.cancelled hdesired
        · rw [hevaluates.status] at hstatus
          cases hstatus
      · rename_i hcancel
        split
        · rename_i hsuspended
          exact ends_safe tame_kept.suspendBranch hkept2 (fun _ _ h => h) fun hevaluates =>
            hevaluates.suspended hsuspended
        · rename_i hsuspended
          split
          · rename_i hstatus
            rcases hstatus with hevaluating | hcanary
            · have hevaluates : Evaluates run :=
                ⟨hevaluating, fun h => hcancel (.inl h), hsuspended⟩
              exact Act.At.mono
                (ends_reconcileEvaluation h2 hstored hevaluating) (fun _ _ _ hpost => hpost)
                fun _ _ hpost => hpost.imp_right fun hbroken => ⟨hevaluates, hbroken⟩
            · have hindexed2 : EvaluationsIndexed L2.world := by
                intro e e' he he'
                rw [h2.evaluations] at he he'
                exact hindexed e e' he he'
              have hnot : ¬Evaluates run := fun hevaluates => by
                rw [hevaluates.status] at hcanary
                cases hcanary
              exact Act.At.mono (ends_reconcileEvaluation_canary hkept2 hindexed2 hcanary)
                (fun _ copy L' hpost => ⟨hpost, .inl hnot⟩)
                fun copy L' hpost => .inl ⟨hpost, .inl hnot⟩
          · rename_i hstatus
            obtain ⟨hevaluating, hcanary⟩ := not_or.mp hstatus
            have haway : Away run.id run L2 := by
              refine ⟨rfl, hcanary, fun found hfound => ?_⟩
              rw [h2.runs, hstored] at hfound
              obtain rfl := Option.some.inj hfound
              exact hcanary
            refine ends_safe tame_away.trainBranch haway (fun copy L' h => ?_)
              fun hevaluates => hevaluating hevaluates.status
            exact ⟨h.named, fun hstatus => absurd hstatus h.copy, h.kept⟩
    · rintro copy L2 ⟨hcopy, h2⟩
      subst copy
      exact .inl ⟨h2.untouched hstored hbefore, .inr (.inl h2.started)⟩

/-- The stored run is half-way through the start of a canary exactly if the start was cut
short. -/
def Settled (cfg : Config) (w : World) (run : RLRun) (L : Ledger) : Prop :=
  CanaryKept L.world run.id ↔ ¬Interrupted cfg w run L.log

theorem SafeEnd.settled (h : SafeEnd cfg run copy L) : Settled cfg w run L := by
  refine iff_of_true h.1.stored fun hinterrupted => ?_
  rcases h.2 with hnot | hnone | hrolled | hfine
  · exact hnot hinterrupted.evaluates
  · exact Bool.false_ne_true (hnone.symm.trans hinterrupted.started)
  · exact Bool.false_ne_true (hinterrupted.kept.symm.trans hrolled)
  · exact Bool.false_ne_true (hfine.symm.trans hinterrupted.fails)

theorem SafeEnd.record {text : String}
    {ans : Ans (.sql (.save .runs { copy with failureReason := text }))}
    (h : SafeEnd cfg run copy L)
    (hrec : L.Records (.sql (.save .runs { copy with failureReason := text })) ans L') :
    SafeEnd cfg run { copy with failureReason := text } L' := by
  have hkept : KeptCanary run.id { copy with failureReason := text } L :=
    ⟨h.1.named, h.1.copy, h.1.stored⟩
  refine ⟨hkept.save hrec, h.2.imp_right ?_⟩
  rw [hrec.2, List.any_append, List.any_append, List.any_append]
  rintro (hnone | hrolled | hfine)
  · exact .inl (by rw [hnone]; rfl)
  · exact .inr (.inl (by rw [hrolled]; rfl))
  · exact .inr (.inr (by rw [hfine]; rfl))

theorem Broken.settled {text : String}
    {ans : Ans (.sql (.save .runs { copy with failureReason := text }))}
    (h : Broken cfg w run copy L) (hevaluates : Evaluates run)
    (hstored : w.row .runs run.id = some run)
    (hrec : L.Records (.sql (.save .runs { copy with failureReason := text })) ans L') :
    Settled cfg w run L' := by
  have hhalfway := h.halfway
  have hlog : ∀ f : Entry → Bool, L'.log.any f = (L.log.any f ||
      f (.performed L.world (.sql (.save .runs { copy with failureReason := text })) ans)) := by
    intro f
    rw [hrec.2, List.any_append, List.any_cons, List.any_nil, Bool.or_false]
  cases ans with
  | error e =>
    -- The run is stored as it was, under evaluation.
    refine iff_of_true (fun found hfound hstatus => ?_) fun hinterrupted => ?_
    · rw [show L'.world = L.world from hrec.1, hhalfway.runs, hstored] at hfound
      obtain rfl := Option.some.inj hfound
      rw [hevaluates.status] at hstatus
      cases hstatus
    · have hsaved := hinterrupted.saved
      rw [hlog, hhalfway.saved] at hsaved
      cases hsaved
  | ok =>
    have hworld : L'.world = L.world.save Table.runs { copy with failureReason := text } := hrec.1
    have hself : L'.world.row .runs run.id = some { copy with failureReason := text } := by
      rw [hworld, ← h.named]
      exact row_save_run_self _ _
    have hevaluations : ∀ id : String,
        L'.world.row .evaluations id = w.row .evaluations id := fun id =>
      (hrec.row_of_target_ne (t := .evaluations) nofun id).trans (hhalfway.evaluations id)
    constructor
    · intro hkept hinterrupted
      refine hinterrupted.unrecorded ?_
      rw [← h.version]
      exact (hkept _ hself h.status).congr fun id => (hevaluations id).symm
    · intro hnot found hfound _
      rw [hself] at hfound
      obtain rfl := Option.some.inj hfound
      by_contra hunrecorded
      refine hnot ⟨hevaluates, fun hrecorded => hunrecorded ?_, ?_, ?_, ?_, ?_⟩
      · rw [show ({ copy with failureReason := text } : RLRun).policyVersion = run.policyVersion
          from h.version]
        exact hrecorded.congr hevaluations
      · rw [hlog, hhalfway.started]
        rfl
      · rw [hlog, hhalfway.fails]
        rfl
      · rw [hlog, hhalfway.kept]
        rfl
      · rw [hlog, hhalfway.saved]
        rfl

/-- When the start of a canary is recorded.  For a run that was stored consistently before:
after the pass, a run that is stored with the status `canary` has an evaluation whose canary
was started, unless the pass evaluated the run, reached the canary's evaluator job for an
evaluation without started canary, and then one of its calls failed, nothing was rolled
back, and the run was saved. -/
theorem canary_start_recorded_iff {cfg : Config} {w : World} {run : RLRun} {L' : Ledger}
    (hindexed : EvaluationsIndexed w) (hstored : w.row .runs run.id = some run)
    (hbefore : CanaryKept w run.id)
    (hpass : Prog.Runs Ledger.Records ⟨w, []⟩ (reconcileOne cfg run) () L') :
    CanaryKept L'.world run.id ↔ ¬Interrupted cfg w run L'.log := by
  refine hpass.post (Q := fun _ L' => Settled cfg w run L') ?_
  unfold reconcileOne
  split
  · exact iff_of_true hbefore fun hinterrupted => Bool.false_ne_true hinterrupted.started
  · show wp _ (((reconcile cfg run).bind _).bind _) _ _
    rw [wp_bind', wp_bind']
    refine wp_mono ?_ (ends_reconcile hindexed hstored hbefore)
    rintro ⟨result, copy⟩ L hpost
    cases result with
    | ok =>
      have hsafe : SafeEnd cfg run copy L := hpost
      exact hsafe.settled
    | error text =>
      intro ans L' hrec
      rcases hpost with hsafe | ⟨hevaluates, hbroken⟩
      · exact (hsafe.record hrec).settled
      · exact hbroken.settled hevaluates hstored hrec

end Pass

/-! ### A pass that starts a canary -/

def acceptedRun : RLRun :=
  { (default : RLRun) with
    id := "run", backend := .slime, status := .evaluating, desiredState := .running
    currentAttemptID := "attempt", policyVersion := "v1", snapshotSHA256 := "sha" }

def acceptedEvaluation : RLEvaluationRecord :=
  { (default : RLEvaluationRecord) with
    id := "eval-run-v1", runID := "run", policyVersion := "v1", status := .passed
    gatesPassed := true, canaryState := .pending }

def acceptedWorld : World :=
  ((Database.empty.save Table.runs acceptedRun).save Table.evaluations acceptedEvaluation).save
    Table.attempts { (default : RLAttempt) with id := "attempt", runID := "run" }

theorem row_acceptedWorld : acceptedWorld.row .runs acceptedRun.id = some acceptedRun := by
  with_unfolding_all rfl

theorem eq_of_row_saved {run : RLRun} {e found : RLEvaluationRecord} {a : RLAttempt} {id : String}
    (h : (((Database.empty.save Table.runs run).save Table.evaluations e).save Table.attempts a :
      World).row .evaluations id = some found) : found = e := by
  have hrow : (((Database.empty.save Table.runs run).save Table.evaluations e).save
      Table.attempts a : World).row .evaluations id =
      if id = e.id then some e
      else (Database.empty.save Table.runs run : World).row .evaluations id :=
    (row_save_other _ (t := .attempts) a .evaluations nofun id).trans
      (row_save (t := .evaluations) _ e id)
  by_cases hid : id = e.id
  · exact (Option.some.inj ((hrow.trans (if_pos hid)).symm.trans h)).symm
  · have hempty := (row_save_other Database.empty (t := .runs) run .evaluations nofun id).symm.trans
      ((hrow.trans (if_neg hid)).symm.trans h)
    exact absurd hempty row_empty_ne

theorem indexed_acceptedWorld : EvaluationsIndexed acceptedWorld := fun _ _ he he' _ _ =>
  (eq_of_row_saved he).trans (eq_of_row_saved he').symm

theorem canaryKept_acceptedWorld : CanaryKept acceptedWorld acceptedRun.id := by
  intro run hrun hstatus
  cases row_acceptedWorld.symm.trans hrun
  cases hstatus

def acceptedPass (oracle : (op : Op) → Ans op) : Option (Unit × Ledger) :=
  (reconcileOne sampleConfig acceptedRun).evaluate (Ledger.environment oracle) ⟨acceptedWorld, []⟩

theorem runs_of_acceptedPass {oracle : (op : Op) → Ans op} {L : Ledger}
    (h : acceptedPass oracle = some ((), L)) :
    Prog.Runs Ledger.Records ⟨acceptedWorld, []⟩ (reconcileOne sampleConfig acceptedRun) () L := by
  have henv : ∀ L op ans L', Ledger.environment oracle L op = some (ans, L') →
      L.Records op ans L' := fun _ _ _ _ hans => Ledger.records_environment hans
  exact Prog.runs_of_evaluate henv h

theorem acceptedPass_smooth : ((acceptedPass (jobsAre "SUCCEEDED")).any fun result =>
    !result.2.log.any (adverse sampleConfig)) = true := by decide +kernel

/-- All calls succeed, and the canary is recorded. -/
theorem canary_start_recorded_iff_smooth :
    ∃ L', Prog.Runs Ledger.Records ⟨acceptedWorld, []⟩ (reconcileOne sampleConfig acceptedRun)
      () L' ∧
      CanaryKept L'.world acceptedRun.id := by
  obtain ⟨⟨⟨⟩, L'⟩, heval, hsmooth⟩ := (Option.any_eq_true _ _).mp acceptedPass_smooth
  have hruns := runs_of_acceptedPass heval
  refine ⟨L', hruns, (canary_start_recorded_iff indexed_acceptedWorld row_acceptedWorld
    canaryKept_acceptedWorld hruns).mpr fun hinterrupted => ?_⟩
  have hfails := hinterrupted.fails
  simp [hfails] at hsmooth

def canaryJobRefused : (op : Op) → Ans op
  | .apply object =>
    if canaryJob object then Except.error (.other "timeout") else Except.ok object
  | op => jobsAre "SUCCEEDED" op

def halfStarted (w : World) : Bool :=
  (w.row .runs acceptedRun.id).any (fun run : RLRun => run.status = .canary) &&
    (w.rows .evaluations).all fun e : RLEvaluationRecord => e.canaryState = .pending

theorem halfStarted_acceptedPass :
    ((acceptedPass canaryJobRefused).any fun result => halfStarted result.2.world) = true := by
  decide +kernel

theorem not_canaryKept_of_halfStarted {w : World} (h : halfStarted w = true) :
    ¬CanaryKept w acceptedRun.id := by
  obtain ⟨hrun, hall⟩ := Bool.and_eq_true_iff.mp h
  obtain ⟨run, hrow, hstatus⟩ := (Option.any_eq_true _ _).mp hrun
  intro hkept
  obtain ⟨e, he, -, -, hbegun⟩ := hkept run hrow (of_decide_eq_true hstatus)
  have hmem : e ∈ w.rows .evaluations := (mem_rows_iff (t := .evaluations)).mpr he
  exact canaryBegun_iff.mp hbegun (of_decide_eq_true (List.all_eq_true.mp hall e hmem))

/-- The cluster refuses the canary's evaluator job: the run is stored in its canary stage,
and its evaluation is still pending. -/
theorem canary_start_lost :
    ∃ L', Prog.Runs Ledger.Records ⟨acceptedWorld, []⟩ (reconcileOne sampleConfig acceptedRun)
      () L' ∧
      CanaryKept acceptedWorld acceptedRun.id ∧ ¬CanaryKept L'.world acceptedRun.id := by
  obtain ⟨⟨⟨⟩, L'⟩, heval, hhalf⟩ := (Option.any_eq_true _ _).mp halfStarted_acceptedPass
  exact ⟨L', runs_of_acceptedPass heval, canaryKept_acceptedWorld,
    not_canaryKept_of_halfStarted hhalf⟩

end RL
end Skyscale
