import Skyscale.Control.System
import Skyscale.RL.Judgement

/-!
# Verdicts of evaluations

Metric reports write the verdict of an evaluation, passes of the reconciler write the
status of its job, and both write the same row.  `Loop.Step` interleaves them: a
report runs at once, a pass one operation at a time, and one pass follows the other.
Passes over other runs touch none of the rows spoken about and are left out.

A pass that sees the evaluator job in a state that is not terminal overwrites the
verdict (`verdict_overwritten`), and so does a pass that has selected the evaluation
before the report.  Otherwise verdicts are kept until they are acted on
(`verdict_decides`).
-/

namespace Skyscale
namespace RL

open Lib State Control K8s Contracts

/-! ## Reports and passes -/

/-- The database, and what is left of the current pass, with its past operations. -/
structure Loop where
  world : World
  past : List ((op : Op) × Ans op)
  pass : Program (Except String Unit)

inductive LoopEvent
  | report (version : String) (body : Option EvaluateBody) (response : Response)
  | start (run : RLRun)
  | call (op : Op) (ans : Ans op)

namespace Loop

/-- Before the first pass. -/
def idle (w : World) : Loop := ⟨w, [], .ret (.ok ())⟩

/-- Reports about a run, and passes over it.  A pass starts from the row of the run, if
`ReconcileAll` does not skip it. -/
inductive Step (cfg : Config) (id : String) : Loop → LoopEvent → Loop → Prop
  | report {w w' : World} {past : List ((op : Op) × Ans op)}
      {pass : Program (Except String Unit)} {version : String} {body : Option EvaluateBody}
      {response : Response} :
      Prog.Runs exec w (rlEvaluateWeights cfg id version body) response w' →
      Step cfg id ⟨w, past, pass⟩ (.report version body response) ⟨w', past, pass⟩
  | start {w : World} {past : List ((op : Op) × Ans op)} {result : Except String Unit}
      {run : RLRun} :
      w.row .runs id = some run → run.backend = .slime → terminal run.status = false →
      Step cfg id ⟨w, past, .ret result⟩ (.start run) ⟨w, [], reconcileRecording cfg run⟩
  | call {w w' : World} {past : List ((op : Op) × Ans op)} {op : Op}
      {next : Ans op → Program (Except String Unit)} {ans : Ans op} :
      exec w op ans w' →
      Step cfg id ⟨w, past, .call op next⟩ (.call op ans) ⟨w', past ++ [⟨op, ans⟩], next ans⟩

end Loop

/-- The evaluator job is seen. -/
def Subject.observation (x : Subject) (object : Object) : LoopEvent :=
  .call (.getObject .rayJob x.job.namespace_ x.job.name)
    (Except.ok object : Except ClientError Object)

/-- The canary's evaluator job is seen. -/
def Subject.canaryObservation (x : Subject) (object : Object) : LoopEvent :=
  .call (.getObject .rayJob x.canaryJob.namespace_ x.canaryJob.name)
    (Except.ok object : Except ClientError Object)

/-- The weight service rolls the run back. -/
def Subject.rollback (x : Subject) (reason version : String) : LoopEvent :=
  .call (.rollback x.id reason) (Except.ok version : Except String String)

/-! ## Passes in flight -/

/-- A statement that does not write runs. -/
def SparesRuns : Op → Prop
  | .sql q => q.target ≠ some .runs
  | _ => True

variable {op : Op} {ans : Ans op} {x : Subject}

theorem row_of_sparesRuns {w w' : World} (hop : SparesRuns op) (h : exec w op ans w')
    (id : String) : w'.row .runs id = w.row .runs id := by
  cases op with
  | sql q =>
    have htarget : q.target ≠ some Table.runs := hop
    exact Database.Exec.row_of_target_ne h htarget id
  | newRunID digits => rw [h.1]
  | _ => rw [show w' = w from h]

theorem sparesRuns_of_neutral (h : Neutral op) : SparesRuns op := by
  cases op with
  | sql q =>
    cases q with
    | first t where_ rank => exact nofun
    | _ => exact h.1
  | _ => trivial

theorem obeys_rlEvaluateWeights (cfg : Config) (id version : String) (body : Option EvaluateBody) :
    Only SparesRuns (rlEvaluateWeights cfg id version body) := by
  refine Obeys.call (fun h => by cases h) fun found => ?_
  cases found with
  | error e => exact Obeys.pure _
  | ok run =>
    dsimp only
    split
    · exact Obeys.pure _
    split
    · exact Obeys.pure _
    refine Obeys.call (fun h => by cases h) fun selected => ?_
    cases selected with
    | error e => exact Obeys.pure _
    | ok evaluation =>
      rename_i snapshot _ _ body
      refine Obeys.call (fun h => by cases h) fun saved => ?_
      cases saved with
      | error e => exact Obeys.pure _
      | ok _ =>
        cases evaluateGates body.metrics snapshot.spec.evaluation.gates with
        | error text | ok _ => exact Obeys.pure _

theorem row_of_report {cfg : Config} {id version : String} {body : Option EvaluateBody}
    {response : Response} {w w' : World}
    (h : Prog.Runs exec w (rlEvaluateWeights cfg id version body) response w') (k : String) :
    w'.row .runs k = w.row .runs k :=
  h.invariant (I := fun w'' => w''.row .runs k = w.row .runs k)
    (fun _ _ _ _ hrow hop hexec => ⟨(row_of_sparesRuns hop hexec k).trans hrow, trivial⟩)
    (obeys_rlEvaluateWeights cfg id version body) rfl

/-- The pass has ended, or it is what is left of a pass over a copy that is still the
row, as long as its operations were neutral. -/
def Loop.Traced (cfg : Config) (id : String) (s : Loop) : Prop :=
  (∃ result, s.pass = .ret result) ∨
  ∃ copy, Residual (reconcileRecording cfg copy) s.past s.pass ∧
    ((∀ e ∈ s.past, Neutral e.1) → s.world.row .runs id = some copy)

theorem Loop.traced_of_run {cfg : Config} {id : String} {w : World} {events : List LoopEvent}
    {s : Loop} (h : Run (Loop.Step cfg id) (Loop.idle w) events s) : s.Traced cfg id := by
  refine h.invariant (I := Loop.Traced cfg id) (.inl ⟨_, rfl⟩) ?_
  intro a event b ha hstep
  cases hstep with
  | report hreport =>
    rcases ha with ha | ⟨copy, hresidual, hcopy⟩
    · exact .inl ha
    · refine .inr ⟨copy, hresidual, fun hpast => ?_⟩
      exact (row_of_report hreport id).trans (hcopy hpast)
  | start hrow _ _ => exact .inr ⟨_, .nil, fun _ => hrow⟩
  | @call w w' past op next ans hexec =>
    rcases ha with ⟨result, hret⟩ | ⟨copy, hresidual, hcopy⟩
    · cases hret
    · refine .inr ⟨copy, .snoc ans hresidual, fun hpast => ?_⟩
      have hneutral := hpast ⟨op, ans⟩ (List.mem_append_right _ List.mem_cons_self)
      refine (row_of_sparesRuns (sparesRuns_of_neutral hneutral) hexec id).trans ?_
      exact hcopy fun e he => hpast e (List.mem_append_left _ he)

/-- No pass in flight has done more than neutral operations: it has not yet selected
the evaluation. -/
def Loop.Unread (s : Loop) : Prop :=
  (∃ result, s.pass = .ret result) ∨ ∀ e ∈ s.past, Neutral e.1

/-! ## The rows, along passes -/

namespace Regime

/-- The view is the row of the run, and the evaluations of the version have the
verdict. -/
structure Holds (r : Regime) (x : Subject) (v : View) (w : World) : Prop where
  row : w.row .runs x.id = some v.row
  writable : r.writable v v.row
  verdict : ∀ k e, w.row .evaluations k = some e →
    e.runID = x.id → e.policyVersion = x.version → r.verdict e

/-- What may be written stays so. -/
def Stable (r : Regime) (x : Subject) : Prop :=
  ∀ v op ans run, r.writable v run → r.writable (v.after x op ans) run

/-- What is seen of the two evaluator jobs. -/
def Sees (r : Regime) (x : Subject) : (op : Op) → Ans op → Prop
  | .getObject .rayJob namespace_ name, ans =>
    ∀ object : Object, ans = Except.ok object →
      (namespace_ = x.job.namespace_ ∧ name = x.job.name → r.observed object) ∧
      (namespace_ = x.canaryJob.namespace_ ∧ name = x.canaryJob.name → r.canary object)
  | _, _ => True

variable {r : Regime} {x : Subject} {v : View} {w w' : World} {op : Op} {ans : Ans op}

theorem Holds.of_rows (hstable : r.Stable x) (h : r.Holds x v w)
    (hview : (v.after x op ans).row = v.row)
    (hrow : w'.row .runs x.id = w.row .runs x.id)
    (hevaluations : ∀ k, w'.row .evaluations k = w.row .evaluations k) :
    r.Holds x (v.after x op ans) w' := by
  refine ⟨?_, ?_, fun k e he => ?_⟩
  · rw [hrow, h.row, hview]
  · rw [hview]
    exact hstable v op ans v.row h.writable
  · rw [hevaluations] at he
    exact h.verdict k e he

theorem Holds.of_eq (hstable : r.Stable x) (h : r.Holds x v w)
    (hw : w' = w) (hview : (v.after x op ans).row = v.row) :
    r.Holds x (v.after x op ans) w' := by
  subst hw
  exact h.of_rows hstable hview rfl fun _ => rfl

theorem Holds.sql (hstable : r.Stable x) (h : r.Holds x v w) {q : Statement schema}
    {ans : q.Reply} (hop : r.Performs x (.sql q) v) (hexec : w.Exec q ans w') :
    r.Holds x (v.after x (.sql q) ans) w' := by
  -- Statements that write neither table leave the view alone.
  have hother : q.target ≠ some Table.runs → q.target ≠ some Table.evaluations →
      (v.after x (.sql q) ans).row = v.row → r.Holds x (v.after x (.sql q) ans) w' :=
    fun hruns hevaluations hview => h.of_rows hstable hview
      (Database.Exec.row_of_target_ne hexec hruns x.id)
      fun k => Database.Exec.row_of_target_ne hexec hevaluations k
  cases q with
  | save t row =>
    cases t with
    | runs =>
      obtain ⟨hid, hwritable⟩ := hop
      cases ans with
      | error e =>
        have hw : w' = w := hexec
        exact h.of_eq hstable hw rfl
      | ok _ =>
        have hw' : w' = w.save Table.runs row := hexec
        refine ⟨?_, hstable v _ _ row hwritable, fun k e he => ?_⟩
        · rw [hw', ← hid]
          exact w.row_save_self (t := Table.runs) row
        · have hkept : w'.row Table.evaluations k = w.row Table.evaluations k :=
            Database.Exec.row_of_target_ne (t := Table.evaluations) hexec nofun k
          exact h.verdict k e (hkept.symm.trans he)
    | evaluations =>
      refine ⟨?_, hstable v _ _ _ h.writable, fun k e he hrunID hversion => ?_⟩
      · exact (Database.Exec.row_of_target_ne (t := Table.runs) hexec nofun x.id).trans h.row
      · rcases Database.Exec.row_of_save hexec k with hsame | ⟨-, hnew⟩
        · rw [hsame] at he
          exact h.verdict k e he hrunID hversion
        · obtain rfl : row = e := Option.some.inj (hnew.symm.trans he)
          exact hop hrunID hversion
    | _ => exact hother hop.1 hop.2 rfl
  | _ => exact hother hop.1 hop.2 rfl

theorem Holds.exec (hstable : r.Stable x) (h : r.Holds x v w)
    (hop : r.Performs x op v) (hexec : exec w op ans w') :
    r.Holds x (v.after x op ans) w' := by
  cases op with
  | sql q => exact h.sql hstable hop hexec
  | getObject kind namespace_ name =>
    refine h.of_eq hstable hexec ?_
    cases kind with
    | rayJob =>
      cases ans with
      | error e => rfl
      | ok object =>
        rw [View.after_getObject]
        split <;> rfl
    | _ => rfl
  | rollback runID reason =>
    refine h.of_eq hstable hexec ?_
    cases ans with
    | error e => rfl
    | ok version =>
      simp only [View.after]
      split <;> rfl
  | newRunID digits => exact h.of_eq hstable hexec.1 rfl
  | _ => exact h.of_eq hstable hexec rfl

theorem Holds.answers (h : r.Holds x v w) {strict : Bool}
    (hexec : Control.exec w op ans w') (hsees : r.Sees x op ans)
    (hstrict : strict = true → failed op ans = false) : r.Answers x strict op ans := by
  refine ⟨hstrict, ?_⟩
  cases op with
  | sql q =>
    cases q with
    | first t where_ rank =>
      cases t with
      | evaluations =>
        rintro e rfl
        obtain ⟨-, hselects⟩ := hexec
        obtain ⟨hrow, hwhere⟩ := hselects.row_eq
        exact ⟨hwhere, h.verdict e.id e hrow⟩
      | _ => trivial
    | _ => trivial
  | getObject kind namespace_ name =>
    cases kind with
    | rayJob => exact hsees
    | _ => trivial
  | _ => trivial

end Regime

/-! ## Runs of passes -/

theorem View.seen_observation {v : View} {object : Object}
    (h : LoopEvent.call op ans = x.observation object) : (v.after x op ans).seen = true := by
  unfold Subject.observation at h
  cases h
  rw [View.after_getObject, if_pos ⟨rfl, rfl⟩]

theorem View.observation_of_seen {v : View} (hv : v.seen = false)
    (h : (v.after x op ans).seen = true) :
    ∃ object, LoopEvent.call op ans = x.observation object := by
  have hold : v.seen ≠ true := by simp [hv]
  unfold View.after at h
  split at h
  · exact absurd h hold
  · split at h
    · rename_i hnames
      obtain ⟨rfl, rfl⟩ := hnames
      exact ⟨_, rfl⟩
    · exact absurd h hold
  · split at h
    · exact absurd h hold
    · exact absurd h hold
  · exact absurd h hold

theorem View.back_after {v : View} {version : String} (h : (v.after x op ans).back = some version) :
    v.back = some version ∨ ∃ reason, LoopEvent.call op ans = x.rollback reason version := by
  unfold View.after at h
  split at h
  · exact .inl h
  · split at h
    · exact .inl h
    · exact .inl h
  · split at h
    · rename_i hid
      subst hid
      obtain rfl := Option.some.inj h
      exact .inr ⟨_, rfl⟩
    · exact .inl h
  · exact .inl h

section Passes

variable {cfg : Config} {r : Regime} {x : Subject} {strict : Bool} {v : View} {s s' : Loop}
  {Q : Except String Unit → View → Prop}

/-- Rows and current pass fit together. -/
structure Regime.Going (r : Regime) (x : Subject) (strict : Bool)
    (Q : Except String Unit → View → Prop) (v : View) (s : Loop) : Prop where
  holds : r.Holds x v s.world
  pass : wp (r.spec x strict) s.pass Q v

theorem Regime.Going.call (hstable : r.Stable x) (h : r.Going x strict Q v s) {op : Op}
    {ans : Ans op} (hstep : Loop.Step cfg x.id s (.call op ans) s') (hsees : r.Sees x op ans)
    (hstrict : strict = true → failed op ans = false) :
    r.Going x strict Q (v.after x op ans) s' := by
  cases hstep with
  | call hexec =>
    refine ⟨h.holds.exec hstable h.pass.1 hexec, ?_⟩
    exact h.pass.2 ans (h.holds.answers hexec hsees hstrict)

variable {events : List LoopEvent}

/-- Passes before the decisive one.  `Open` is what none of them changes: that the job
was not looked at, or that there was no rollback. -/
theorem Regime.going_of_run (hstable : r.Stable x) {Open : View → Prop}
    (hopen : ∀ v, Open v → r.writable v v.row → wp (r.spec x false) (reconcileRecording cfg v.row)
      (fun _ _ => True) v) (hrun : Run (Loop.Step cfg x.id) s events s')
    (hreports : ∀ version body response, LoopEvent.report version body response ∉ events)
    (hcalls : ∀ op ans, LoopEvent.call op ans ∈ events → r.Sees x op ans ∧ ∀ v, Open v → Open
      (v.after x op ans)) (hv : Open v) (h : r.Going x false (fun _ _ => True) v s) :
    ∃ v', Open v' ∧ r.Going x false (fun _ _ => True) v' s' := by
  induction hrun with
  | nil => exact ⟨v, hv, h⟩
  | @snoc events t u event _ hlast ih =>
    obtain ⟨v', hv', h'⟩ := ih
      (fun version body response hmem => hreports _ _ _ (List.mem_append_left _ hmem))
      (fun op ans hmem => hcalls op ans (List.mem_append_left _ hmem))
    have hmem : event ∈ events ++ [event] := List.mem_append_right _ List.mem_cons_self
    cases event with
    | report version body response => exact absurd hmem (hreports version body response)
    | start run =>
      cases hlast with
      | start hrow _ _ =>
        obtain rfl : v'.row = run := Option.some.inj (h'.holds.row.symm.trans hrow)
        exact ⟨v', hv', h'.holds, hopen v' hv' h'.holds.writable⟩
    | call op ans =>
      obtain ⟨hsees, hkeeps⟩ := hcalls op ans hmem
      exact ⟨v'.after x op ans, hkeeps v' hv', h'.call hstable hlast hsees nofun⟩

/-- The operations of one pass, with what they leave in the view. -/
theorem Regime.going_of_calls (hstable : r.Stable x) (hrun : Run (Loop.Step cfg x.id) s events s')
    (honly : ∀ e ∈ events, ∃ op ans, e = LoopEvent.call op ans)
    (hcalls : ∀ op ans, LoopEvent.call op ans ∈ events → r.Sees x op ans ∧ (strict = true → failed
      op ans = false)) (h : r.Going x strict Q v s) :
    ∃ v', r.Going x strict Q v' s' ∧
      ((∃ object, x.observation object ∈ events) → v'.seen = true) ∧
      ∀ version, v'.back = some version →
        v.back = some version ∨ ∃ reason, x.rollback reason version ∈ events := by
  induction hrun with
  | nil =>
    refine ⟨v, h, ?_, fun version hback => .inl hback⟩
    rintro ⟨object, hmem⟩
    cases hmem
  | @snoc events t u event _ hlast ih =>
    obtain ⟨v', h', hseen, hback⟩ := ih
      (fun e he => honly e (List.mem_append_left _ he))
      (fun op ans hmem => hcalls op ans (List.mem_append_left _ hmem))
    have hmem : event ∈ events ++ [event] := List.mem_append_right _ List.mem_cons_self
    obtain ⟨op, ans, rfl⟩ := honly event hmem
    obtain ⟨hsees, hstrict⟩ := hcalls op ans hmem
    refine ⟨v'.after x op ans, h'.call hstable hlast hsees hstrict, ?_, ?_⟩
    · rintro ⟨object, hobject⟩
      rcases List.mem_append.mp hobject with hobject | hobject
      · exact View.seen_after (hseen ⟨object, hobject⟩) op ans
      · exact View.seen_observation (List.mem_singleton.mp hobject).symm
    · intro version hversion
      rcases View.back_after hversion with hold | ⟨reason, hevent⟩
      · rcases hback version hold with hstart | ⟨reason, hearlier⟩
        · exact .inl hstart
        · exact .inr ⟨reason, List.mem_append_left _ hearlier⟩
      · exact .inr ⟨reason, List.mem_append_right _ (by rw [hevent]; exact List.mem_cons_self)⟩

theorem Regime.going_of_report {version : String} {body : Option EvaluateBody}
    {response : Response} (htraced : s.Traced cfg x.id) (hunread : s.Unread)
    (hreport : Loop.Step cfg x.id s (.report version body response) s')
    (hholds : r.Holds x v s'.world)
    (hpass : wp (r.spec x false) (reconcileRecording cfg v.row) (fun _ _ => True) v) :
    r.Going x false (fun _ _ => True) v s' := by
  refine ⟨hholds, ?_⟩
  cases hreport with
  | @report w w' past pass _ _ _ hreport =>
    have hret : (∃ result, pass = .ret result) →
        wp (r.spec x false) pass (fun _ _ => True) v := by
      rintro ⟨result, rfl⟩
      trivial
    rcases hunread with hdone | hneutral
    · exact hret hdone
    · rcases htraced with hdone | ⟨copy, hresidual, hcopy⟩
      · exact hret hdone
      · have hrow : w'.row .runs x.id = some copy :=
          (row_of_report hreport x.id).trans (hcopy hneutral)
        obtain rfl : v.row = copy := Option.some.inj (hholds.row.symm.trans hrow)
        refine hresidual.wp_tracking hpass fun e he => ?_
        have hop := hneutral e he
        exact ⟨r.answers_of_neutral x hop e.2, v.after_of_neutral hop e.2⟩

theorem Regime.sees_of_events (hjob : ∀ object, x.observation object ∈ events → r.observed object)
    (hcanary : ∀ object, x.canaryObservation object ∈ events → r.canary object) (op : Op)
    (ans : Ans op) (hmem : LoopEvent.call op ans ∈ events) : r.Sees x op ans := by
  cases op with
  | getObject kind namespace_ name =>
    cases kind with
    | rayJob =>
      rintro object rfl
      refine ⟨?_, ?_⟩
      · rintro ⟨rfl, rfl⟩
        exact hjob object hmem
      · rintro ⟨rfl, rfl⟩
        exact hcanary object hmem
    | _ => trivial
  | _ => trivial

/-- From a report to the end of the decisive pass. -/
theorem Regime.decisive (strict : Bool) (Open : View → Prop) (hstable : r.Stable x)
    {Q : Bool → Except String Unit → View → Prop}
    (hpass : ∀ strict v, Open v → r.writable v v.row →
      wp (r.spec x strict) (reconcileRecording cfg v.row) (Q strict) v)
    {s1 s2 s3 s4 s5 : Loop} {version : String} {body : Option EvaluateBody} {response : Response}
    {mid calls : List LoopEvent} {copy : RLRun}
    (htraced : s1.Traced cfg x.id) (hunread : s1.Unread)
    (hreport : Loop.Step cfg x.id s1 (.report version body response) s2)
    (hholds : r.Holds x v s2.world) (hv : Open v)
    (hmid : Run (Loop.Step cfg x.id) s2 mid s3)
    (hreports : ∀ version body response, LoopEvent.report version body response ∉ mid)
    (hopen : ∀ op ans, LoopEvent.call op ans ∈ mid → ∀ v, Open v → Open (v.after x op ans))
    (hstart : Loop.Step cfg x.id s3 (.start copy) s4)
    (hcalls : Run (Loop.Step cfg x.id) s4 calls s5)
    (honly : ∀ e ∈ calls, ∃ op ans, e = LoopEvent.call op ans)
    (hjob : ∀ object, x.observation object ∈ mid ++ calls → r.observed object)
    (hcanary : ∀ object, x.canaryObservation object ∈ mid ++ calls → r.canary object)
    (hstrict : strict = true → ∀ op ans, LoopEvent.call op ans ∈ calls → failed op ans = false) :
    ∃ v3 v5, Open v3 ∧ r.Going x strict (Q strict) v5 s5 ∧
      ((∃ object, x.observation object ∈ calls) → v5.seen = true) ∧
      ∀ version, v5.back = some version →
        v3.back = some version ∨ ∃ reason, x.rollback reason version ∈ calls := by
  have hsees := r.sees_of_events hjob hcanary
  have hloose : ∀ v, Open v → r.writable v v.row →
      wp (r.spec x false) (reconcileRecording cfg v.row) (fun _ _ => True) v :=
    fun v hv hwritable => wp_mono (fun _ _ _ => trivial)
      (hpass false v hv hwritable)
  have hgoing := r.going_of_report htraced hunread hreport hholds (hloose v hv hholds.writable)
  obtain ⟨v3, hv3, h3⟩ := r.going_of_run hstable hloose hmid hreports
    (fun op ans hmem => ⟨hsees op ans (List.mem_append_left _ hmem), hopen op ans hmem⟩) hv hgoing
  have h4 : r.Going x strict (Q strict) v3 s4 := by
    cases hstart with
    | start hrow _ _ =>
      obtain rfl : v3.row = copy := Option.some.inj (h3.holds.row.symm.trans hrow)
      exact ⟨h3.holds, hpass strict v3 hv3 h3.holds.writable⟩
  obtain ⟨v5, h5, hseen, hback⟩ := r.going_of_calls hstable hcalls honly
    (fun op ans hmem => ⟨hsees op ans (List.mem_append_right _ hmem),
      fun htrue => hstrict htrue op ans hmem⟩) h4
  exact ⟨v3, v5, hv3, h5, hseen, hback⟩

end Passes

/-! ## Verdicts decide -/

/-- The run and its evaluation as a report leaves them: the run is under evaluation,
and the version has this evaluation only. -/
structure Recorded (cfg : Config) (x : Subject) (run : RLRun) (evaluation : RLEvaluationRecord)
    (w : World) : Prop where
  row : w.row .runs x.id = some run
  under : UnderEvaluation cfg x run
  id : evaluation.id = x.evaluationID
  only : ∀ k e, w.row .evaluations k = some e → e.runID = x.id → e.policyVersion = x.version →
    e = evaluation

theorem passedRegime_stable (cfg : Config) (x : Subject) : (passedRegime cfg x).Stable x := by
  rintro v op ans run ⟨hunder, hunseen⟩
  refine ⟨hunder, fun hseen => hunseen ?_⟩
  by_contra hne
  have hold : v.seen = true := by simpa using hne
  rw [View.seen_after hold op ans] at hseen
  cases hseen

theorem View.back_mono {v : View} (h : (v.after x op ans).back = none) : v.back = none := by
  unfold View.after at h
  split at h
  · exact h
  · split at h
    · exact h
    · exact h
  · split at h
    · cases h
    · exact h
  · exact h

theorem failedRegime_stable (cfg : Config) (x : Subject) : (failedRegime cfg x).Stable x :=
  fun _ _ _ _ hwritable hback => hwritable (View.back_mono hback)

/-- Verdicts decide.  After a report that no pass in flight has overtaken, if the
evaluator job is from then on only seen in terminal states:

* an evaluation that has passed leads to the stage `canary`, by the first pass that
  sees the job succeeded and meets no error, unless the canary's own job is already
  seen failed;
* an evaluation that has failed leads to a rollback, by the next pass that succeeds. -/
theorem verdict_decides {cfg : Config} {x : Subject} {w : World}
    {before mid calls : List LoopEvent} {s1 s2 s3 s4 s5 : Loop} {body : Option EvaluateBody}
    {response : Response} {run copy : RLRun} {evaluation : RLEvaluationRecord}
    {result : Except String Unit}
    (hbefore : Run (Loop.Step cfg x.id) (Loop.idle w) before s1) (hunread : s1.Unread)
    (hreport : Loop.Step cfg x.id s1 (.report x.version body response) s2)
    (hrecorded : Recorded cfg x run evaluation s2.world)
    (hmid : Run (Loop.Step cfg x.id) s2 mid s3)
    (hreports : ∀ version body response, LoopEvent.report version body response ∉ mid)
    (hstart : Loop.Step cfg x.id s3 (.start copy) s4)
    (hcalls : Run (Loop.Step cfg x.id) s4 calls s5)
    (honly : ∀ e ∈ calls, ∃ op ans, e = LoopEvent.call op ans) (hdone : s5.pass = .ret result)
    (hterminal : ∀ object, x.observation object ∈ mid ++ calls →
      jobSucceeded (rayJobStatus object) = true ∨ jobFailed (rayJobStatus object) = true) :
    (evaluation.status = .passed → evaluation.gatesPassed = true → run.status = .evaluating →
      (∀ object, x.observation object ∈ mid →
        jobSucceeded (rayJobStatus object) = false ∧ jobFailed (rayJobStatus object) = false) →
      (∃ object, x.observation object ∈ calls) →
      (∀ object, x.observation object ∈ calls → jobSucceeded (rayJobStatus object) = true) →
      (∀ object, x.canaryObservation object ∈ mid ++ calls →
        jobFailed (rayJobStatus object) = false) →
      (∀ op ans, LoopEvent.call op ans ∈ calls → failed op ans = false) →
      ∃ run', s5.world.row .runs x.id = some run' ∧ run'.status = .canary) ∧
    (evaluation.status = .failed → run.status = .evaluating ∨ run.status = .canary →
      (∀ reason version, x.rollback reason version ∉ mid) → result = .ok () →
      ∃ reason version run', x.rollback reason version ∈ calls ∧
        s5.world.row .runs x.id = some run' ∧ run'.policyVersion = version ∧
        run'.rolloutDraining = true) := by
  have htraced := Loop.traced_of_run hbefore
  constructor
  · intro hpassed hgates hstatus hfirst hsome hsucceeded hcanary hclean
    -- Terminal states and the first pass that sees success: the job is not seen before.
    have hnone : ∀ object, x.observation object ∉ mid := by
      intro object hmem
      obtain ⟨hnot, hnot'⟩ := hfirst object hmem
      rcases hterminal object (List.mem_append_left _ hmem) with h | h
      · rw [hnot] at h
        cases h
      · rw [hnot'] at h
        cases h
    have hholds : (passedRegime cfg x).Holds x ⟨run, false, none⟩ s2.world := by
      refine ⟨hrecorded.row, ⟨hrecorded.under, fun _ => hstatus⟩, fun k e he hid hversion => ?_⟩
      obtain rfl := hrecorded.only k e he hid hversion
      exact ⟨hrecorded.id, hpassed, hgates⟩
    have hopen : ∀ op ans, LoopEvent.call op ans ∈ mid →
        ∀ v : View, v.seen = false → (v.after x op ans).seen = false := by
      intro op ans hmem v hv
      by_contra hne
      obtain ⟨object, hobject⟩ := View.observation_of_seen hv (by simpa using hne)
      rw [hobject] at hmem
      exact hnone object hmem
    have hjob : ∀ object, x.observation object ∈ mid ++ calls →
        jobSucceeded (rayJobStatus object) = true := by
      intro object hmem
      rcases List.mem_append.mp hmem with hmem | hmem
      · exact absurd hmem (hnone object)
      · exact hsucceeded object hmem
    obtain ⟨v3, v5, -, h5, hseen, -⟩ := Regime.decisive true (fun v => v.seen = false)
      (passedRegime_stable cfg x)
      (fun _ v hv hwritable => canary_of_pass hwritable.1 (hwritable.2 hv) hv)
      htraced hunread hreport hholds rfl hmid hreports hopen hstart hcalls honly hjob hcanary
      (fun _ => hclean)
    have hend := h5.pass
    rw [hdone] at hend
    exact ⟨v5.row, h5.holds.row, hend (hseen hsome) rfl⟩
  · intro hfailed hstatus hnoRollback hok
    have hholds : (failedRegime cfg x).Holds x ⟨run, false, none⟩ s2.world := by
      refine ⟨hrecorded.row, fun _ => ⟨hrecorded.under, hstatus⟩, fun k e he hid hversion => ?_⟩
      obtain rfl := hrecorded.only k e he hid hversion
      exact ⟨hrecorded.id, hfailed⟩
    have hopen : ∀ op ans, LoopEvent.call op ans ∈ mid →
        ∀ v : View, v.back = none → (v.after x op ans).back = none := by
      intro op ans hmem v hv
      cases hnew : (v.after x op ans).back with
      | none => rfl
      | some version =>
        rcases View.back_after hnew with hold | ⟨reason, hevent⟩
        · rw [hv] at hold
          cases hold
        · rw [hevent] at hmem
          exact absurd hmem (hnoRollback reason version)
    obtain ⟨v3, v5, hv3, h5, -, hback⟩ := Regime.decisive false (fun v => v.back = none)
      (failedRegime_stable cfg x)
      (fun _ v hv hwritable => rollback_of_pass ⟨(hwritable hv).1, (hwritable hv).2, hv⟩)
      htraced hunread hreport hholds rfl hmid hreports hopen hstart hcalls honly hterminal
      (fun _ _ => trivial) nofun
    have hend := h5.pass
    rw [hdone] at hend
    obtain ⟨version, hversion, hpolicy, hdraining⟩ := hend hok
    rcases hback version hversion with hold | ⟨reason, hevent⟩
    · rw [hv3] at hold
      cases hold
    · exact ⟨reason, version, v5.row, hevent, h5.holds.row, hpolicy, hdraining⟩

/-! ### Computed runs -/

inductive LoopChoice
  | report (version : String) (body : Option EvaluateBody)
  | start
  | run

def Loop.advance (cfg : Config) (id : String) (oracle : (op : Op) → Ans op) (s : Loop) :
    LoopChoice → Option (LoopEvent × Loop)
  | .report version body =>
    match (rlEvaluateWeights cfg id version body).evaluate (environment oracle) s.world with
    | none => none
    | some (response, w') => some (.report version body response, ⟨w', s.past, s.pass⟩)
  | .start =>
    match s.pass, s.world.row .runs id with
    | .ret _, some run =>
      if run.backend = .slime ∧ terminal run.status = false then
        some (.start run, ⟨s.world, [], reconcileRecording cfg run⟩)
      else
        none
    | _, _ => none
  | .run =>
    match s.pass with
    | .ret _ => none
    | .call op next =>
      match environment oracle s.world op with
      | none => none
      | some (ans, w') => some (.call op ans, ⟨w', s.past ++ [⟨op, ans⟩], next ans⟩)

theorem Loop.step_of_advance {cfg : Config} {id : String} {oracle : (op : Op) → Ans op}
    {s s' : Loop} {choice : LoopChoice} {event : LoopEvent}
    (h : Loop.advance cfg id oracle s choice = some (event, s')) :
    Loop.Step cfg id s event s' := by
  obtain ⟨w, past, pass⟩ := s
  cases choice with
  | report version body =>
    simp only [Loop.advance] at h
    split at h
    · cases h
    · rename_i response w' hresponse
      cases h
      exact .report (Prog.runs_of_evaluate (environment_sound oracle) hresponse)
  | start =>
    simp only [Loop.advance] at h
    split at h
    · rename_i hpass hrow
      split at h
      · rename_i hrun
        cases h
        exact .start hrow hrun.1 hrun.2
      · cases h
    · cases h
  | run =>
    simp only [Loop.advance] at h
    split at h
    · cases h
    split at h
    · cases h
    · rename_i hans
      cases h
      exact .call (exec_environment hans)

def Loop.schedule (cfg : Config) (id : String) (oracle : (op : Op) → Ans op) (s : Loop)
    (choices : List LoopChoice) : List LoopEvent × Loop :=
  play (Loop.advance cfg id oracle) s choices

theorem Loop.run_schedule (cfg : Config) (id : String) (oracle : (op : Op) → Ans op) (s : Loop)
    (choices : List LoopChoice) :
    Run (Loop.Step cfg id) s (Loop.schedule cfg id oracle s choices).1
      (Loop.schedule cfg id oracle s choices).2 := by
  have hadvance : ∀ s choice event s', Loop.advance cfg id oracle s choice = some (event, s') →
      Loop.Step cfg id s event s' := fun _ _ _ _ h => Loop.step_of_advance h
  exact run_play hadvance s choices

def Loop.succeeded (s : Loop) : Bool :=
  match s.pass with
  | .ret (.ok ()) => true
  | _ => false

theorem Loop.pass_of_succeeded {s : Loop} (h : s.succeeded = true) : s.pass = .ret (.ok ()) := by
  unfold Loop.succeeded at h
  split at h
  · assumption
  · cases h

namespace LoopEvent

def clean : LoopEvent → Bool
  | .call op ans => !failed op ans
  | _ => false

def sees (p : Object → Bool) : LoopEvent → Bool
  | .call (.getObject .rayJob _ _) (.ok object) => p object
  | _ => true

def observes (x : Subject) : LoopEvent → Bool
  | .call (.getObject .rayJob namespace_ name) (.ok _) =>
    namespace_ = x.job.namespace_ && name = x.job.name
  | _ => false

def rollsBack : LoopEvent → Bool
  | .call (.rollback _ _) _ => true
  | _ => false

variable {events : List LoopEvent} {x : Subject}

theorem call_of_clean (h : events.all clean = true) {e : LoopEvent} (he : e ∈ events) :
    ∃ op ans, e = .call op ans := by
  have hclean := List.all_eq_true.mp h e he
  cases e with
  | call op ans => exact ⟨op, ans, rfl⟩
  | report _ _ _ | start _ => cases hclean

theorem not_failed_of_clean (h : events.all clean = true) {op : Op} {ans : Ans op}
    (he : LoopEvent.call op ans ∈ events) : failed op ans = false := by
  simpa [clean] using List.all_eq_true.mp h _ he

theorem of_sees {p : Object → Bool} (h : events.all (sees p) = true) {object : Object} :
    (x.observation object ∈ events → p object = true) ∧
      (x.canaryObservation object ∈ events → p object = true) :=
  ⟨fun he => List.all_eq_true.mp h _ he, fun he => List.all_eq_true.mp h _ he⟩

theorem exists_observation (h : events.any (observes x) = true) :
    ∃ object, x.observation object ∈ events := by
  obtain ⟨e, he, hobserves⟩ := List.any_eq_true.mp h
  unfold observes at hobserves
  split at hobserves
  · rename_i namespace_ name object
    obtain ⟨rfl, rfl⟩ : namespace_ = x.job.namespace_ ∧ name = x.job.name := by
      simpa using hobserves
    exact ⟨object, he⟩
  · cases hobserves

end LoopEvent

/-! ### A run under evaluation -/

def gatedSpec : RLRunSpec :=
  { defaultRunSpec with
    metadata := { (default : ObjectMeta) with tenantID := "t", projectID := "p", runID := "r" }
    image := { defaultRunSpec.image with digest := "sha256:0" }
    evaluation := { (default : EvaluationPolicy) with gates := [⟨"reward", ">=", 1⟩] }
    createdAt := 1 }

def gatedConfig : Config := configOf gatedSpec

def gatedSubject : Subject := ⟨"r", "v1", gatedSpec, "eval-r-v1"⟩

def evaluatedRun : RLRun :=
  { (default : RLRun) with
    id := "r", backend := .slime, status := .evaluating, desiredState := .running
    snapshotSHA256 := "sha", policyVersion := "v1", currentAttemptID := "a" }

def openEvaluation : RLEvaluationRecord := { finalEvaluation evaluatedRun with status := .running }

def evaluatedWorld : World :=
  ((Database.empty.save Table.runs evaluatedRun).save Table.attempts
    { (default : RLAttempt) with id := "a", runID := "r", number := 1, status := .completed }).save
      Table.evaluations openEvaluation

def rewardOf (reward : Rat) : Option EvaluateBody :=
  some ⟨FinMap.ofList [("reward", reward)], "evaluation"⟩

def passedEvaluation : RLEvaluationRecord :=
  { openEvaluation with
    metrics := FinMap.ofList [("reward", 1)], status := .passed, gatesPassed := true }

def failedEvaluation : RLEvaluationRecord :=
  { openEvaluation with
    metrics := FinMap.ofList [("reward", 0)], status := .failed, gatesPassed := false
    failureReason := "evaluation gate failed: reward" }

def reported (evaluation : RLEvaluationRecord) : Loop :=
  ⟨evaluatedWorld.save Table.evaluations evaluation, [], .ret (.ok ())⟩

theorem step_passed : Loop.Step gatedConfig "r" (Loop.idle evaluatedWorld)
    (.report "v1" (rewardOf 1) ⟨204, .empty⟩) (reported passedEvaluation) := by
  have hadvance : Loop.advance gatedConfig "r" agreeable (Loop.idle evaluatedWorld)
      (.report "v1" (rewardOf 1)) =
        some (.report "v1" (rewardOf 1) ⟨204, .empty⟩, reported passedEvaluation) := rfl
  exact Loop.step_of_advance hadvance

theorem step_failed : Loop.Step gatedConfig "r" (Loop.idle evaluatedWorld)
    (.report "v1" (rewardOf 0) ⟨422, .error "evaluation gate failed: reward"⟩)
    (reported failedEvaluation) := by
  have hadvance : Loop.advance gatedConfig "r" agreeable (Loop.idle evaluatedWorld)
      (.report "v1" (rewardOf 0)) =
        some (.report "v1" (rewardOf 0) ⟨422, .error "evaluation gate failed: reward"⟩,
          reported failedEvaluation) := rfl
  exact Loop.step_of_advance hadvance

theorem row_save_evaluations (w : World) (e : RLEvaluationRecord) (k : String) :
    (w.save Table.evaluations e).row Table.evaluations k =
      if k = e.id then some e else w.row Table.evaluations k :=
  w.row_save (t := Table.evaluations) e k

theorem eq_of_reported {evaluation e : RLEvaluationRecord} {k : String}
    (hid : evaluation.id = "eval-r-v1")
    (he : (reported evaluation).world.row Table.evaluations k = some e) : e = evaluation := by
  have hrow := row_save_evaluations evaluatedWorld evaluation k
  by_cases hk : k = evaluation.id
  · exact (Option.some.inj ((hrow.trans (if_pos hk)).symm.trans he)).symm
  · -- The only other row would be the one of the same evaluation before the report.
    have hopen : k ≠ openEvaluation.id := fun h => hk (h.trans hid.symm)
    have hnone : evaluatedWorld.row Table.evaluations k = none :=
      (row_save_evaluations _ openEvaluation k).trans (if_neg hopen)
    cases ((hrow.trans (if_neg hk)).trans hnone).symm.trans he

theorem recorded_reported {evaluation : RLEvaluationRecord} (hid : evaluation.id = "eval-r-v1") :
    Recorded gatedConfig gatedSubject evaluatedRun evaluation (reported evaluation).world := by
  refine ⟨rfl, ⟨rfl, rfl, by decide, ?_⟩, hid, fun k e he _ _ => eq_of_reported hid he⟩
  rintro snapshot hsnapshot
  cases hsnapshot
  rfl

def passStarted (s : Loop) (run : RLRun) : Loop :=
  ⟨s.world, [], reconcileRecording gatedConfig run⟩

def passOver (status : String) (s : Loop) (run : RLRun) : List LoopEvent × Loop :=
  Loop.schedule gatedConfig "r" (jobsAre status) (passStarted s run) (List.replicate 30 .run)

theorem run_passOver (status : String) (s : Loop) (run : RLRun) :
    Run (Loop.Step gatedConfig "r") (passStarted s run) (passOver status s run).1
      (passOver status s run).2 :=
  Loop.run_schedule gatedConfig "r" (jobsAre status) (passStarted s run) _

theorem step_start {s : Loop} {run : RLRun} {result : Except String Unit}
    (hdone : s.pass = .ret result) (hrow : s.world.row .runs "r" = some run)
    (hbackend : run.backend = .slime) (hstatus : terminal run.status = false) :
    Loop.Step gatedConfig "r" s (.start run) (passStarted s run) := by
  obtain ⟨w, past, pass⟩ := s
  cases hdone
  exact .start hrow hbackend hstatus

theorem step_start_reported (evaluation : RLEvaluationRecord) :
    Loop.Step gatedConfig "r" (reported evaluation) (.start evaluatedRun)
      (passStarted (reported evaluation) evaluatedRun) :=
  step_start rfl rfl rfl rfl

def watched (p : Object → Bool) (pass : List LoopEvent × Loop) : Bool :=
  pass.1.all LoopEvent.clean && pass.1.all (LoopEvent.sees p) &&
    pass.1.any (LoopEvent.observes gatedSubject) && pass.2.succeeded

structure Watched (p : Object → Bool) (pass : List LoopEvent × Loop) : Prop where
  only : ∀ e ∈ pass.1, ∃ op ans, e = LoopEvent.call op ans
  clean : ∀ op ans, LoopEvent.call op ans ∈ pass.1 → failed op ans = false
  job : ∀ object, gatedSubject.observation object ∈ pass.1 → p object = true
  canary : ∀ object, gatedSubject.canaryObservation object ∈ pass.1 → p object = true
  seen : ∃ object, gatedSubject.observation object ∈ pass.1
  done : pass.2.pass = .ret (.ok ())

theorem watched_spec {p : Object → Bool} {pass : List LoopEvent × Loop}
    (h : watched p pass = true) : Watched p pass := by
  simp only [watched, Bool.and_eq_true] at h
  obtain ⟨⟨⟨hclean, hsees⟩, hobserves⟩, hdone⟩ := h
  exact ⟨fun e he => LoopEvent.call_of_clean hclean he,
    fun op ans he => LoopEvent.not_failed_of_clean hclean he,
    fun object he => (LoopEvent.of_sees hsees).1 he,
    fun object he => (LoopEvent.of_sees hsees).2 he,
    LoopEvent.exists_observation hobserves, Loop.pass_of_succeeded hdone⟩

def succeededJob (object : Object) : Bool := jobSucceeded (rayJobStatus object)

/-- The pass after the report sees the job succeeded: it starts the canary, or rolls
back. -/
theorem verdict_decides_nextPass :
    (∃ run, (passOver "SUCCEEDED" (reported passedEvaluation) evaluatedRun).2.world.row .runs "r" =
        some run ∧ run.status = .canary) ∧
    ∃ reason version run,
      gatedSubject.rollback reason version ∈
        (passOver "SUCCEEDED" (reported failedEvaluation) evaluatedRun).1 ∧
      (passOver "SUCCEEDED" (reported failedEvaluation) evaluatedRun).2.world.row .runs "r" =
        some run ∧ run.policyVersion = version ∧ run.rolloutDraining = true := by
  have hidle : (Loop.idle evaluatedWorld).Unread := .inl ⟨_, rfl⟩
  constructor
  · have hpass : Watched succeededJob
        (passOver "SUCCEEDED" (reported passedEvaluation) evaluatedRun) :=
      watched_spec (by decide +kernel)
    exact (verdict_decides (x := gatedSubject) .nil hidle step_passed (recorded_reported rfl) .nil
      (by simp) (step_start_reported _) (run_passOver "SUCCEEDED" _ _) hpass.only hpass.done
      (fun object he => .inl (hpass.job object he))).1
      rfl rfl rfl (by simp) hpass.seen hpass.job
      (fun object he => jobFailed_of_jobSucceeded (hpass.canary object he)) hpass.clean
  · have hpass : Watched succeededJob
        (passOver "SUCCEEDED" (reported failedEvaluation) evaluatedRun) :=
      watched_spec (by decide +kernel)
    exact (verdict_decides (x := gatedSubject) .nil hidle step_failed (recorded_reported rfl) .nil
      (by simp) (step_start_reported _) (run_passOver "SUCCEEDED" _ _) hpass.only hpass.done
      (fun object he => .inl (hpass.job object he))).2
      rfl (.inl rfl) (by simp) rfl

def watchedRun : RLRun := { evaluatedRun with observedState := "evaluation-running" }

def watchedLoop : Loop := (passOver "RUNNING" (reported passedEvaluation) evaluatedRun).2

def Loop.run (s : Loop) : Option RLRun := s.world.row .runs "r"

/-- Overwritten verdicts.  A report records that the evaluation has passed, a pass sees
the job running, and the pass that sees it succeeded leaves the run in the stage
`evaluating`; a report records that the evaluation has failed, and the next pass, which
sees the job running, succeeds without a rollback. -/
theorem verdict_overwritten :
    (Loop.Step gatedConfig "r" (Loop.idle evaluatedWorld)
        (.report "v1" (rewardOf 1) ⟨204, .empty⟩) (reported passedEvaluation) ∧
      Recorded gatedConfig gatedSubject evaluatedRun passedEvaluation
        (reported passedEvaluation).world ∧
      passedEvaluation.status = .passed ∧ passedEvaluation.gatesPassed = true ∧
      ∃ mid calls s3 s4 s5,
        Run (Loop.Step gatedConfig "r") (reported passedEvaluation) mid s3 ∧
        Loop.Step gatedConfig "r" s3 (.start watchedRun) s4 ∧
        Run (Loop.Step gatedConfig "r") s4 calls s5 ∧ s5.pass = .ret (.ok ()) ∧
        (∃ object, gatedSubject.observation object ∈ calls) ∧
        (∀ object, gatedSubject.observation object ∈ calls →
          jobSucceeded (rayJobStatus object) = true) ∧
        (∀ op ans, LoopEvent.call op ans ∈ calls → failed op ans = false) ∧
        s5.run.map (fun run => (run.policyVersion, run.status)) = some ("v1", .evaluating)) ∧
    (Loop.Step gatedConfig "r" (Loop.idle evaluatedWorld)
        (.report "v1" (rewardOf 0) ⟨422, .error "evaluation gate failed: reward"⟩)
        (reported failedEvaluation) ∧
      Recorded gatedConfig gatedSubject evaluatedRun failedEvaluation
        (reported failedEvaluation).world ∧
      failedEvaluation.status = .failed ∧
      ∃ calls s4 s5,
        Loop.Step gatedConfig "r" (reported failedEvaluation) (.start evaluatedRun) s4 ∧
        Run (Loop.Step gatedConfig "r") s4 calls s5 ∧ s5.pass = .ret (.ok ()) ∧
        ∀ e ∈ calls, e.rollsBack = false) := by
  constructor
  · have hfirst : watchedLoop.succeeded = true ∧ watchedLoop.run = some watchedRun := by
      decide +kernel
    have hmid : Run (Loop.Step gatedConfig "r") (reported passedEvaluation) _ watchedLoop :=
      Run.append (Run.snoc .nil (step_start_reported passedEvaluation)) (run_passOver "RUNNING" _ _)
    have hsecond : watched succeededJob (passOver "SUCCEEDED" watchedLoop watchedRun) = true ∧
        (passOver "SUCCEEDED" watchedLoop watchedRun).2.run.map
          (fun run => (run.policyVersion, run.status)) = some ("v1", .evaluating) := by
      decide +kernel
    have hpass := watched_spec hsecond.1
    exact ⟨step_passed, recorded_reported rfl, rfl, rfl, _, _, _, _, _, hmid,
      step_start (Loop.pass_of_succeeded hfirst.1) hfirst.2 rfl rfl, run_passOver "SUCCEEDED" _ _,
      hpass.done, hpass.seen, hpass.job, hpass.clean, hsecond.2⟩
  · have hpass : (passOver "RUNNING" (reported failedEvaluation) evaluatedRun).2.succeeded = true ∧
        ∀ e ∈ (passOver "RUNNING" (reported failedEvaluation) evaluatedRun).1,
          e.rollsBack = false := by decide +kernel
    exact ⟨step_failed, recorded_reported rfl, rfl, _, _, _, step_start_reported failedEvaluation,
      run_passOver "RUNNING" _ _, Loop.pass_of_succeeded hpass.1, hpass.2⟩

end RL
end Skyscale
