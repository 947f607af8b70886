import Skyscale.RL.Quiet

/-!
# A reconcile pass over a run under evaluation

The part of `Reconcile` that decides about an evaluated policy version, seen from the
outside: which rows it writes, whether it has looked at the evaluator job, whether it
has rolled back.  `View` records this along a pass.

Two results carry the argument about verdicts.  `canary_of_pass` is about an
evaluation that has passed, `rollback_of_pass` about one that has failed.  Both are
proved part by part, over any answers of the cluster and the database that meet the
assumptions of `Regime.Answers`.
-/

namespace Skyscale
namespace RL

open Lib State Control K8s Contracts

/-! ## What is observed of a pass -/

/-- A policy version of a run, with its evaluation. -/
structure Subject where
  id : String
  version : String
  spec : RLRunSpec
  evaluationID : String

namespace Subject

/-- The evaluator job. -/
def job (x : Subject) : Object := renderEvaluatorRayJob x.spec x.evaluationID x.version

/-- The evaluator job of the canary. -/
def canaryJob (x : Subject) : Object :=
  renderEvaluatorRayJobPhase x.spec x.evaluationID x.version "canary"

end Subject

/-- The run's row, whether the evaluator job was looked at, and the version a rollback
returned. -/
structure View where
  row : RLRun
  seen : Bool
  back : Option String

/-- The view after an operation. -/
def View.after (x : Subject) (v : View) : (op : Op) → Ans op → View
  | .sql (.save .runs row), .ok () => { v with row := row }
  | .getObject .rayJob namespace_ name, .ok _ =>
    if namespace_ = x.job.namespace_ ∧ name = x.job.name then { v with seen := true } else v
  | .rollback runID _, .ok version =>
    if runID = x.id then { v with back := some version } else v
  | _, _ => v

theorem View.after_getObject (x : Subject) (v : View) (namespace_ name : String)
    (object : Object) :
    v.after x (.getObject .rayJob namespace_ name)
        (Except.ok object : Except ClientError Object) =
      if namespace_ = x.job.namespace_ ∧ name = x.job.name then { v with seen := true } else v :=
  rfl

variable {x : Subject}

theorem View.seen_after {v : View} (h : v.seen = true) (op : Op) (ans : Ans op) :
    (v.after x op ans).seen = true := by
  unfold View.after
  split
  · exact h
  · split
    · rfl
    · exact h
  · split
    · exact h
    · exact h
  · exact h

/-- Operations that neither touch runs or evaluations, nor look at an object, nor roll
back. -/
def Neutral : Op → Prop
  | .sql (.first .evaluations _ _) => False
  | .sql q => q.target ≠ some .runs ∧ q.target ≠ some .evaluations
  | .getObject _ _ _ => False
  | .rollback _ _ => False
  | _ => True

theorem View.after_of_neutral (v : View) {op : Op} (h : Neutral op) (ans : Ans op) :
    v.after x op ans = v := by
  cases op with
  | sql q =>
    cases q with
    | save t row => cases t with
      | runs => exact absurd rfl h.1
      | _ => rfl
    | _ => rfl
  | getObject kind namespace_ name | rollback runID reason => exact h.elim
  | _ => rfl

/-- What is assumed and guaranteed around a pass: `verdict` of every evaluation row of
the version, `writable` of every row of the run that is written, `observed` of every
observation of the evaluator job, `canary` of every observation of the canary's. -/
structure Regime where
  verdict : RLEvaluationRecord → Prop
  writable : View → RLRun → Prop
  observed : Object → Prop
  canary : Object → Prop

namespace Regime

/-- The answers a pass relies on; a strict pass meets no errors. -/
def Answers (r : Regime) (x : Subject) (strict : Bool) (op : Op) (ans : Ans op) : Prop :=
  (strict = true → failed op ans = false) ∧
  match op, ans with
  | .sql (.first .evaluations where_ _), ans =>
    ∀ e : RLEvaluationRecord, ans = Except.ok e →
      where_ e = true ∧ (e.runID = x.id → e.policyVersion = x.version → r.verdict e)
  | .getObject .rayJob namespace_ name, ans =>
    ∀ object : Object, ans = Except.ok object →
      (namespace_ = x.job.namespace_ ∧ name = x.job.name → r.observed object) ∧
      (namespace_ = x.canaryJob.namespace_ ∧ name = x.canaryJob.name → r.canary object)
  | _, _ => True

/-- The operations of a pass. -/
def Performs (r : Regime) (x : Subject) : Op → View → Prop
  | .sql (.save .evaluations e), _ =>
    e.runID = x.id → e.policyVersion = x.version → r.verdict e
  | .sql (.save .runs row), v => row.id = x.id ∧ r.writable v row
  | .sql q, _ => q.target ≠ some .runs ∧ q.target ≠ some .evaluations
  | _, _ => True

/-- Both together, as a specification of single operations. -/
def spec (r : Regime) (x : Subject) (strict : Bool) : OpSpec Op Ans View :=
  tracking (r.Answers x strict) (r.Performs x) (View.after x)

instance (r : Regime) (x : Subject) (strict : Bool) : (r.spec x strict).IsMonotone :=
  inferInstanceAs (tracking _ _ _).IsMonotone

theorem answers_of_neutral (r : Regime) (x : Subject) {op : Op} (h : Neutral op) (ans : Ans op) :
    r.Answers x false op ans := by
  refine ⟨fun hstrict => (by cases hstrict), ?_⟩
  cases op with
  | sql q =>
    cases q with
    | first t where_ rank => cases t with
      | evaluations => exact h.elim
      | _ => trivial
    | _ => trivial
  | getObject kind namespace_ name => exact h.elim
  | _ => trivial

end Regime

/-! ## Parts of a pass that are not observed -/

section Silent

variable {r : Regime} {x : Subject} {strict : Bool} {α β : Type}

theorem strict_of_answers {op : Op} {ans : Ans op} (h : r.Answers x strict op ans)
    (hfailed : failed op ans = true) : strict = false := by
  cases strict with
  | false => rfl
  | true => rw [h.1 rfl] at hfailed; cases hfailed

/-- The operation is performed in every regime and changes no view. -/
def Unobserved (r : Regime) (x : Subject) (op : Op) : Prop :=
  ∀ v, r.Performs x op v ∧ ∀ ans, v.after x op ans = v

theorem covers_unobserved (v : View) :
    Covers (r.spec x strict) (Unobserved r x) (fun g => g = v) fun g => g = v ∧ strict = false := by
  rintro op _ hop rfl
  refine ⟨(hop _).1, fun ans hans => ?_⟩
  rw [(hop _).2 ans]
  show Outcome _ _ (failed op ans) _
  cases hfailed : failed op ans with
  | false => rfl
  | true => exact ⟨rfl, strict_of_answers hans hfailed⟩

theorem Handles.unobserved {op : Op} (h : Handles (fun _ => True) op) : Unobserved r x op := by
  cases h with
  | apply | list => exact fun _ => ⟨trivial, fun _ => rfl⟩
  | track => exact fun _ => ⟨⟨nofun, nofun⟩, fun _ => rfl⟩

theorem silent_applyAndTrack (attempt : RLAttempt) (object : Object) :
    Reports (Unobserved r x) (applyAndTrack attempt object) :=
  (reports_applyAndTrack attempt trivial).mono fun _ => Handles.unobserved

/-- A part that is not observed: the pass goes on with the same view, or was not strict. -/
theorem Reports.silent {m : Pass α} {f : α → Pass β} {Ok : β → RLRun → View → Prop}
    {Err : RLRun → View → Prop} {run : RLRun} {v : View} (hm : Reports (Unobserved r x) m)
    (herr : strict = false → Err run v) (hf : ∀ a, Act.At (r.spec x strict) Ok Err (f a) run v) :
    Act.At (r.spec x strict) Ok Err (m >>= f) run v := by
  refine Act.At.bind (Act.At.mono (hm.acts (covers_unobserved v) run rfl) ?_ ?_)
  · rintro a s g ⟨rfl, rfl⟩
    exact hf a
  · rintro s g ⟨rfl, rfl, hstrict⟩
    exact herr hstrict

end Silent

/-! ## From the start of a pass to the decision -/

/-- The run is under evaluation: the pass takes its evaluation branch. -/
structure UnderEvaluation (cfg : Config) (x : Subject) (run : RLRun) : Prop where
  id : run.id = x.id
  version : run.policyVersion = x.version
  desired : run.desiredState ≠ .cancelled ∧ run.desiredState ≠ .suspended
  snapshot : ∀ snapshot, cfg.decodeSnapshot run.snapshotJSON = .ok snapshot → snapshot.spec = x.spec

/-- The part of `reconcileEvaluation` behind its selections. -/
def judgement (cfg : Config) (spec : RLRunSpec) (attempt : RLAttempt)
    (evaluation : RLEvaluationRecord) : Pass Unit := do
  let evaluation ← evaluatorStage spec attempt evaluation
  let evaluation ← canaryStage spec attempt evaluation
  decisionStage cfg spec evaluation
  stored (saveRLEvaluation evaluation)
  saveRun

theorem spec_of_verifiedSpec {cfg : Config} {run : RLRun} {now : Int} {spec : RLRunSpec}
    (hrun : UnderEvaluation cfg x run) (h : verifiedSpec cfg now run = .ok spec) :
    spec = x.spec := by
  unfold verifiedSpec at h
  split at h
  · cases h
  rename_i stored hstored
  have hspec := hrun.snapshot stored hstored
  split at h
  · cases h
  split at h
  · cases h
  split at h
  · cases h
    exact hspec
  · cases h

section Pass

variable {cfg : Config} {r : Regime} {x : Subject} {strict : Bool} {run : RLRun} {v : View}
  {Ok : Unit → RLRun → View → Prop} {Err : RLRun → View → Prop}

/-- Up to the decision, a pass over a run under evaluation only selects the evaluation
of the version. -/
theorem at_reconcileEvaluation (hrun : UnderEvaluation cfg x run) (herr : Err run v)
    (hjudge : ∀ attempt e, e.runID = x.id → e.policyVersion = x.version → r.verdict e →
      Act.At (r.spec x strict) Ok Err (judgement cfg x.spec attempt e) run v) :
    Act.At (r.spec x strict) Ok Err (reconcileEvaluation cfg x.spec) run v := by
  refine Act.At.get (Act.At.bind (Act.At.attempt ⟨⟨nofun, nofun⟩, fun ans hans => ?_⟩))
  refine ⟨fun e he => ?_, fun _ _ => herr⟩
  have hselected := hans.2 e he
  have hkeys : e.runID = x.id ∧ e.policyVersion = x.version := by
    simpa [hrun.id, hrun.version] using hselected.1
  refine Reports.silent
    (reports_getRLAttempt fun _ => ⟨⟨nofun, nofun⟩, fun _ => rfl⟩) (fun _ => herr) fun attempt => ?_
  refine (Reports.when (silent_applyAndTrack _ _)).silent (fun _ => herr) fun _ => ?_
  exact hjudge attempt e hkeys.1 hkeys.2 (hselected.2 hkeys.1 hkeys.2)

theorem at_reconcile (hrun : UnderEvaluation cfg x run)
    (hstatus : run.status = .evaluating ∨ run.status = .canary) (herr : Err run v)
    (hjudge : ∀ attempt e, e.runID = x.id → e.policyVersion = x.version → r.verdict e →
      Act.At (r.spec x strict) Ok Err (judgement cfg x.spec attempt e) run v) :
    Act.At (r.spec x strict) Ok Err (reconcile cfg) run v := by
  refine Act.At.get (Act.At.bind (Act.At.lift ⟨trivial, fun now _ => ?_⟩))
  dsimp only
  show Act.At (r.spec x strict) Ok Err _ run v
  cases hspec : verifiedSpec cfg now run with
  | error text => exact Act.At.fail herr
  | ok spec =>
    obtain rfl := spec_of_verifiedSpec hrun hspec
    refine Reports.silent
      ((reports_discoverOwned _).mono fun _ => Handles.unobserved) (fun _ => herr) fun _ => ?_
    have hcancelling : run.status ≠ .cancelling := by
      rcases hstatus with h | h <;> simp [h]
    rw [if_neg (by simp [hrun.desired.1, hcancelling]), if_neg hrun.desired.2, if_pos hstatus]
    exact at_reconcileEvaluation hrun herr hjudge

end Pass

theorem jobFailed_of_jobSucceeded {status : String} (h : jobSucceeded status = true) :
    jobFailed status = false := by
  simp only [jobSucceeded, Bool.or_eq_true, decide_eq_true_eq] at h
  rcases h with (rfl | rfl) | rfl <;> decide

section Observation

variable {r : Regime} {x : Subject} {strict : Bool} {run : RLRun} {v : View} {β : Type}
  {Ok : β → RLRun → View → Prop} {Err : RLRun → View → Prop}

theorem at_observe {f : Object → Pass β} (herr : strict = false → Err run v)
    (hf : ∀ object, r.observed object →
      Act.At (r.spec x strict) Ok Err (f object) run { v with seen := true }) :
    Act.At (r.spec x strict) Ok Err
      (Act.attempt ClientError.text (call (.getObject .rayJob x.job.namespace_ x.job.name)) >>= f)
      run v := by
  refine Act.At.bind (Act.At.attempt ⟨trivial, fun ans hans => ⟨?_, ?_⟩⟩)
  · rintro object rfl
    have hview := v.after_getObject x x.job.namespace_ x.job.name object
    rw [if_pos ⟨rfl, rfl⟩] at hview
    have hnext := hf object ((hans.2 object rfl).1 ⟨rfl, rfl⟩)
    rw [← hview] at hnext
    exact hnext
  · rintro e rfl
    exact herr (strict_of_answers hans rfl)

theorem at_observeCanary {f : Object → Pass β} (herr : strict = false → Err run v)
    (hf : ∀ object v', v'.row = v.row → v'.back = v.back → (v.seen = true → v'.seen = true) →
      r.canary object → Act.At (r.spec x strict) Ok Err (f object) run v') :
    Act.At (r.spec x strict) Ok Err
      (Act.attempt ClientError.text
        (call (.getObject .rayJob x.canaryJob.namespace_ x.canaryJob.name)) >>= f) run v := by
  refine Act.At.bind (Act.At.attempt ⟨trivial, fun ans hans => ⟨?_, ?_⟩⟩)
  · rintro object rfl
    have hview := v.after_getObject x x.canaryJob.namespace_ x.canaryJob.name object
    have hcanary := (hans.2 object rfl).2 ⟨rfl, rfl⟩
    refine hf object _ ?_ ?_ ?_ hcanary
    · rw [hview]
      split <;> rfl
    · rw [hview]
      split <;> rfl
    · intro hseen
      rw [hview]
      split
      · rfl
      · exact hseen
  · rintro e rfl
    exact herr (strict_of_answers hans rfl)

end Observation

theorem wp_reconcileRecording {cfg : Config} {r : Regime} {strict : Bool} {run : RLRun} {v : View}
    {Err : RLRun → View → Prop} {Q : Except String Unit → View → Prop}
    (h : Act.At (r.spec x strict) (fun _ _ => Q (.ok ())) Err (reconcile cfg) run v)
    (hwrite : ∀ run' v' text, Err run' v' → run'.id = x.id ∧ r.writable v' { run' with
      failureReason := text })
    (hfailed : ∀ run' v' text, Err run' v' → Q (.error text) v' ∧ Q (.error text) { v' with row :=
      { run' with failureReason := text } }) :
    wp (r.spec x strict) (reconcileRecording cfg run) Q v := by
  unfold reconcileRecording
  rw [wp_bind]
  refine wp_mono ?_ h
  rintro ⟨result, run'⟩ v' hresult
  cases result with
  | ok _ => exact hresult
  | error text =>
    refine ⟨hwrite run' v' text hresult, fun saved _ => ?_⟩
    cases saved with
    | ok _ => exact (hfailed run' v' text hresult).2
    | error e => exact (hfailed run' v' text hresult).1

/-! ## An evaluation that has passed -/

/-- The evaluation has passed, its job is only seen succeeded, and the canary's is not
seen failed. -/
def passedRegime (cfg : Config) (x : Subject) : Regime where
  verdict e := e.id = x.evaluationID ∧ e.status = .passed ∧ e.gatesPassed = true
  writable v run := UnderEvaluation cfg x run ∧ (v.seen = false → run.status = .evaluating)
  observed object := jobSucceeded (rayJobStatus object) = true
  canary object := jobFailed (rayJobStatus object) = false

section Passed

variable {cfg : Config} {x : Subject} {strict : Bool} {run : RLRun} {v : View}

/-- The copy of a pass that ends with an error can be written, and the pass was not
strict if it had looked at the job. -/
def PassedErr (cfg : Config) (x : Subject) (strict : Bool) (run : RLRun) (v : View) : Prop :=
  (passedRegime cfg x).writable v run ∧ (v.seen = true → strict = false)

/-- The copy of a pass that has started the canary. -/
structure CanaryCopy (cfg : Config) (x : Subject) (run : RLRun) (v : View) : Prop where
  under : UnderEvaluation cfg x run
  status : run.status = .canary
  seen : v.seen = true

theorem CanaryCopy.err (h : CanaryCopy cfg x run v) (hstrict : strict = false) :
    PassedErr cfg x strict run v :=
  ⟨⟨h.under, fun hseen => by rw [h.seen] at hseen; cases hseen⟩, fun _ => hstrict⟩

/-- The evaluation of a version whose canary runs. -/
def CanaryRecord (x : Subject) (e : RLEvaluationRecord) : Prop :=
  e.id = x.evaluationID ∧ e.policyVersion = x.version ∧ e.status = .passed ∧
    e.gatesPassed = true ∧ e.canaryState = .running

theorem UnderEvaluation.assign (h : UnderEvaluation cfg x run) (status : RunStatus)
    (observedState : String) :
    UnderEvaluation cfg x { run with status := status, observedState := observedState } :=
  ⟨h.id, h.version, h.desired, h.snapshot⟩

variable {attempt : RLAttempt} {e : RLEvaluationRecord}

theorem at_evaluate_passed (hrun : UnderEvaluation cfg x run) (hstatus : run.status = .evaluating)
    (hversion : e.policyVersion = x.version) (he : (passedRegime cfg x).verdict e) :
    Act.At ((passedRegime cfg x).spec x strict)
      (fun e' run' v' => CanaryRecord x e' ∧ CanaryCopy cfg x run' v')
      (PassedErr cfg x strict) (evaluate x.spec attempt e) run v := by
  have hjob : renderEvaluatorRayJob x.spec e.id e.policyVersion = x.job := by
    rw [he.1, hversion]
    rfl
  have herr : strict = false → PassedErr cfg x strict run v := fun hstrict =>
    ⟨⟨hrun, fun _ => hstatus⟩, fun _ => hstrict⟩
  have herrSeen : strict = false → PassedErr cfg x strict run { v with seen := true } :=
    fun hstrict => ⟨⟨hrun, fun h => by cases h⟩, fun _ => hstrict⟩
  unfold evaluate
  rw [hjob]
  refine (silent_applyAndTrack _ _).silent herr fun _ => ?_
  refine at_observe herr fun object hobject => ?_
  have hsucceeded : jobSucceeded (rayJobStatus object) = true := hobject
  rw [if_neg (by rw [jobFailed_of_jobSucceeded hsucceeded]; decide), if_pos hsucceeded,
    if_pos ⟨he.2.1, he.2.2⟩]
  -- The canary is started: two more objects, and the assignment to the copy.
  refine Act.At.get ((silent_applyAndTrack _ _).silent herrSeen fun _ => ?_)
  refine (silent_applyAndTrack _ _).silent herrSeen fun _ => Act.At.modify (Act.At.pure ?_)
  exact ⟨⟨he.1, hversion, he.2.1, he.2.2, rfl⟩, hrun.assign _ _, rfl, rfl⟩

theorem at_watchCanary_passed (hrun : CanaryCopy cfg x run v) (he : CanaryRecord x e) :
    Act.At ((passedRegime cfg x).spec x strict)
      (fun e' run' v' => CanaryRecord x e' ∧ CanaryCopy cfg x run' v')
      (PassedErr cfg x strict) (watchCanary x.spec attempt e) run v := by
  have hjob : renderEvaluatorRayJobPhase x.spec e.id e.policyVersion "canary" = x.canaryJob := by
    rw [he.1, he.2.1]
    rfl
  unfold watchCanary
  rw [hjob]
  refine (silent_applyAndTrack _ _).silent hrun.err fun _ => ?_
  refine at_observeCanary hrun.err fun object v' _ _ hseen hobject => ?_
  have hfailed : jobFailed (rayJobStatus object) = false := hobject
  have hcopy : CanaryCopy cfg x run v' := ⟨hrun.under, hrun.status, hseen hrun.seen⟩
  rw [if_neg (by rw [hfailed]; decide)]
  split
  · refine Act.At.modify (Act.At.pure ⟨he, ?_, hcopy.status, hcopy.seen⟩)
    exact ⟨hrun.under.id, hrun.under.version, hrun.under.desired, hrun.under.snapshot⟩
  · exact Act.At.pure ⟨he, hcopy⟩

/-- The decision about a passed evaluation whose job has succeeded: the run is saved in
the stage `canary`. -/
theorem at_judgement_passed (hrun : UnderEvaluation cfg x run) (hstatus : run.status = .evaluating)
    (hversion : e.policyVersion = x.version) (he : (passedRegime cfg x).verdict e) :
    Act.At ((passedRegime cfg x).spec x strict)
      (fun _ _ v' => v'.row.status = .canary) (PassedErr cfg x strict)
      (judgement cfg x.spec attempt e) run v := by
  refine Act.At.bind (Act.At.get ?_)
  rw [if_pos hstatus]
  refine Act.At.mono (at_evaluate_passed hrun hstatus hversion he) ?_ fun _ _ h => h
  rintro e1 run1 v1 ⟨he1, hrun1⟩
  refine Act.At.bind (Act.At.get ?_)
  rw [if_pos ⟨hrun1.status, he1.2.2.2.2⟩]
  refine Act.At.mono (at_watchCanary_passed hrun1 he1) ?_ fun _ _ h => h
  rintro e2 run2 v2 ⟨he2, hrun2⟩
  obtain ⟨hid, hversion2, hpassed, hgates, hcanary⟩ := he2
  -- Nothing is decided: the evaluation has not failed and its canary still runs.
  refine Act.At.bind (Act.At.get ?_)
  rw [if_neg (by simp [hpassed, hcanary]), if_neg (by simp [hcanary])]
  refine Act.At.pure ?_
  refine Act.At.bind (Act.At.attempt ⟨fun _ _ => ⟨hid, hpassed, hgates⟩, ?_⟩)
  intro ans hans
  refine ⟨fun _ _ => ?_, fun text htext => ?_⟩
  · refine Act.At.get (Act.At.attempt ⟨⟨hrun2.under.id, hrun2.under, ?_⟩, ?_⟩)
    · intro hunseen
      have hseen2 : v2.seen = false := hunseen
      rw [hrun2.seen] at hseen2
      cases hseen2
    · intro saved hsaved
      refine ⟨?_, ?_⟩
      · rintro _ rfl
        exact hrun2.status
      · rintro text rfl
        exact hrun2.err (strict_of_answers hsaved rfl)
  · subst htext
    exact hrun2.err (strict_of_answers hans rfl)

/-- A pass over a run whose evaluation has passed: if it looks at the job and meets no
error, it leaves the run in the stage `canary`. -/
theorem canary_of_pass (hrun : UnderEvaluation cfg x run) (hstatus : run.status = .evaluating)
    (hseen : v.seen = false) :
    wp ((passedRegime cfg x).spec x strict) (reconcileRecording cfg run)
      (fun _ v' => v'.seen = true → strict = true → v'.row.status = .canary) v := by
  have herr : PassedErr cfg x strict run v :=
    ⟨⟨hrun, fun _ => hstatus⟩, fun h => by rw [hseen] at h; cases h⟩
  have hreconcile : Act.At ((passedRegime cfg x).spec x strict)
      (fun _ _ v' => v'.row.status = .canary) (PassedErr cfg x strict) (reconcile cfg) run v :=
    at_reconcile hrun (.inl hstatus) herr fun attempt e _ hversion he =>
      at_judgement_passed hrun hstatus hversion he
  refine wp_reconcileRecording
    (Act.At.mono hreconcile
      (fun _ _ _ hcanary _ _ => hcanary) fun _ _ h => h) ?_ ?_
  · rintro run' v' text ⟨⟨hunder, hunseen⟩, -⟩
    exact ⟨hunder.id, ⟨hunder.id, hunder.version, hunder.desired, hunder.snapshot⟩, hunseen⟩
  · rintro run' v' text ⟨-, hfailed⟩
    constructor
    · intro hseen' hstrict
      rw [hfailed hseen'] at hstrict
      cases hstrict
    · intro hseen' hstrict
      rw [hfailed hseen'] at hstrict
      cases hstrict

end Passed

/-! ## An evaluation that has failed -/

/-- The evaluation has failed, and its job is only seen in a terminal state. -/
def failedRegime (cfg : Config) (x : Subject) : Regime where
  verdict e := e.id = x.evaluationID ∧ e.status = .failed
  writable v run := v.back = none →
    UnderEvaluation cfg x run ∧ (run.status = .evaluating ∨ run.status = .canary)
  observed object :=
    jobSucceeded (rayJobStatus object) = true ∨ jobFailed (rayJobStatus object) = true
  canary _ := True

section Failed

variable {cfg : Config} {x : Subject} {strict : Bool} {run : RLRun} {v : View}

/-- The copy of a pass that has not rolled back. -/
structure PendingCopy (cfg : Config) (x : Subject) (run : RLRun) (v : View) : Prop where
  under : UnderEvaluation cfg x run
  status : run.status = .evaluating ∨ run.status = .canary
  back : v.back = none

/-- The copy of a pass that has rolled back. -/
def RolledBack (run : RLRun) (v : View) : Prop :=
  ∃ version, v.back = some version ∧ run.policyVersion = version ∧ run.rolloutDraining = true

/-- The copy of a pass that ends with an error. -/
def FailedErr (cfg : Config) (x : Subject) (run : RLRun) (v : View) : Prop :=
  run.id = x.id ∧ (failedRegime cfg x).writable v run

theorem PendingCopy.err (h : PendingCopy cfg x run v) : FailedErr cfg x run v :=
  ⟨h.under.id, fun _ => ⟨h.under, h.status⟩⟩

theorem RolledBack.err (h : RolledBack run v) (hid : run.id = x.id) : FailedErr cfg x run v := by
  obtain ⟨version, hback, -⟩ := h
  exact ⟨hid, fun hnone => by rw [hback] at hnone; cases hnone⟩

/-- The evaluation of a rejected version. -/
def FailedRecord (x : Subject) (e : RLEvaluationRecord) : Prop :=
  e.id = x.evaluationID ∧ e.policyVersion = x.version ∧ e.status = .failed

variable {attempt : RLAttempt} {e : RLEvaluationRecord}

theorem at_evaluatorStage_failed (hrun : PendingCopy cfg x run v) (he : FailedRecord x e) :
    Act.At ((failedRegime cfg x).spec x strict)
      (fun e' run' v' => FailedRecord x e' ∧ PendingCopy cfg x run' v')
      (FailedErr cfg x) (evaluatorStage x.spec attempt e) run v := by
  have hjob : renderEvaluatorRayJob x.spec e.id e.policyVersion = x.job := by
    rw [he.1, he.2.1]
    rfl
  refine Act.At.get ?_
  split
  · unfold evaluate
    rw [hjob]
    refine (silent_applyAndTrack _ _).silent (fun _ => hrun.err) fun _ => ?_
    refine at_observe (fun _ => hrun.err) fun object hobject => ?_
    have hcopy : PendingCopy cfg x run { v with seen := true } :=
      ⟨hrun.under, hrun.status, hrun.back⟩
    have hterminal : jobSucceeded (rayJobStatus object) = true ∨
        jobFailed (rayJobStatus object) = true := hobject
    split
    · exact Act.At.pure ⟨⟨he.1, he.2.1, rfl⟩, hcopy⟩
    · rename_i hnot
      -- The job has succeeded, but the verdict stands.
      rw [if_pos (hterminal.resolve_right hnot), if_neg (by simp [he.2.2]),
        if_neg (by simp [he.2.2])]
      exact Act.At.pure ⟨he, hcopy⟩
  · exact Act.At.pure ⟨he, hrun⟩

theorem at_canaryStage_failed (hrun : PendingCopy cfg x run v) (he : FailedRecord x e) :
    Act.At ((failedRegime cfg x).spec x strict)
      (fun e' run' v' => FailedRecord x e' ∧ PendingCopy cfg x run' v')
      (FailedErr cfg x) (canaryStage x.spec attempt e) run v := by
  have hjob : renderEvaluatorRayJobPhase x.spec e.id e.policyVersion "canary" = x.canaryJob := by
    rw [he.1, he.2.1]
    rfl
  refine Act.At.get ?_
  split
  · unfold watchCanary
    rw [hjob]
    refine (silent_applyAndTrack _ _).silent (fun _ => hrun.err) fun _ => ?_
    refine at_observeCanary (fun _ => hrun.err) fun object v' _ hback _ _ => ?_
    have hcopy : PendingCopy cfg x run v' := ⟨hrun.under, hrun.status, hback.trans hrun.back⟩
    split
    · exact Act.At.pure ⟨he, hcopy⟩
    · split
      · refine Act.At.modify (Act.At.pure ⟨he, ?_, hcopy.status, hcopy.back⟩)
        exact ⟨hrun.under.id, hrun.under.version, hrun.under.desired, hrun.under.snapshot⟩
      · exact Act.At.pure ⟨he, hcopy⟩
  · exact Act.At.pure ⟨he, hrun⟩

theorem View.after_rollback (x : Subject) (v : View) (reason version : String) :
    v.after x (.rollback x.id reason) (Except.ok version : Except String String) =
      { v with back := some version } :=
  if_pos rfl

theorem at_decisionStage_failed (hrun : PendingCopy cfg x run v) (he : FailedRecord x e) :
    Act.At ((failedRegime cfg x).spec x strict)
      (fun _ run' v' => run'.id = x.id ∧ RolledBack run' v') (FailedErr cfg x)
      (decisionStage cfg x.spec e) run v := by
  refine Act.At.get ?_
  rw [if_pos (.inl he.2.2)]
  split
  · refine Act.At.bind (Act.At.attempt ⟨trivial, fun ans _ => ⟨?_, ?_⟩⟩)
    · rintro version rfl
      rw [hrun.under.id]
      have hview := v.after_rollback x e.failureReason version
      exact ⟨hrun.under.id, version, by rw [hview], rfl, rfl⟩
    · rintro text rfl
      exact hrun.err
  · exact Act.At.fail hrun.err

/-- The decision about a failed evaluation whose job is in a terminal state: the pass
rolls back and saves the run with the version it got. -/
theorem at_judgement_failed (hrun : PendingCopy cfg x run v) (he : FailedRecord x e) :
    Act.At ((failedRegime cfg x).spec x strict)
      (fun _ _ v' => RolledBack v'.row v') (FailedErr cfg x)
      (judgement cfg x.spec attempt e) run v := by
  refine Act.At.bind (Act.At.mono (at_evaluatorStage_failed hrun he) ?_ fun _ _ h => h)
  rintro e1 run1 v1 ⟨he1, hrun1⟩
  refine Act.At.bind (Act.At.mono (at_canaryStage_failed hrun1 he1) ?_ fun _ _ h => h)
  rintro e2 run2 v2 ⟨he2, hrun2⟩
  refine Act.At.bind (Act.At.mono (at_decisionStage_failed hrun2 he2) ?_ fun _ _ h => h)
  rintro _ run3 v3 ⟨hid, hback⟩
  refine Act.At.bind (Act.At.attempt ⟨fun _ _ => ⟨he2.1, he2.2.2⟩, fun ans _ => ?_⟩)
  refine ⟨fun _ _ => ?_, fun _ _ => hback.err hid⟩
  refine Act.At.get (Act.At.attempt ⟨hback.err hid, fun saved _ => ⟨?_, ?_⟩⟩)
  · rintro _ rfl
    exact hback
  · rintro text rfl
    exact hback.err hid

/-- A pass over a run whose evaluation has failed: if it succeeds, it has rolled
back. -/
theorem rollback_of_pass (hrun : PendingCopy cfg x run v) :
    wp ((failedRegime cfg x).spec x strict) (reconcileRecording cfg run)
      (fun result v' => result = .ok () → RolledBack v'.row v') v := by
  have hreconcile : Act.At ((failedRegime cfg x).spec x strict)
      (fun _ _ v' => RolledBack v'.row v') (FailedErr cfg x) (reconcile cfg) run v :=
    at_reconcile hrun.under hrun.status hrun.err fun attempt e _ hversion he =>
      at_judgement_failed hrun ⟨he.1, hversion, he.2⟩
  refine wp_reconcileRecording (Act.At.mono hreconcile
      (fun _ _ _ hback _ => hback) fun _ _ h => h) ?_ ?_
  · rintro run' v' text ⟨hid, hwritable⟩
    refine ⟨hid, fun hback => ?_⟩
    obtain ⟨hunder, hstatus⟩ := hwritable hback
    exact ⟨⟨hunder.id, hunder.version, hunder.desired, hunder.snapshot⟩, hstatus⟩
  · intro run' v' text _
    exact ⟨nofun, nofun⟩

end Failed

end RL
end Skyscale
