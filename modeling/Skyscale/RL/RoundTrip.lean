import Mathlib.Data.List.Chain
import Skyscale.RL.CanaryStart
import Skyscale.RL.Integrity

/-!
# Suspending and resuming a run under evaluation

A suspended run loses its status: the pass that suspends it writes `suspended`, the resume
request writes `starting`, and the next pass takes the training path, whatever the run was
doing before.  If the training job has succeeded, that path creates the final evaluation of
the run's version, under the name the evaluation in progress already has.

The module is about such a round trip of a single run, with passes and requests one after
another and calls that succeed.

* `Held` is the shape of the invariants of passes that may fail: what they keep of the copy
  and of the stored run.
* `Surely` says that a part of a pass cannot fail, and `Training` is what the training path
  goes by.
* `round_trip_preserves_iff` says which evaluations survive.
-/

namespace Skyscale
namespace RL

open Lib State Control K8s Contracts

/-! ## Requests and passes -/

/-- The calls succeed; a lookup may find nothing.  The training job of the given name is
found, and it is seen with the given status. -/
def healthy (name status : String) : (op : Op) → Ans op → Bool
  | .sql (.first _ _ _), .error .notFound => true
  | .getObject kind _ found, .ok job =>
    !(kind = .rayJob && found = name) || trainingStatus job = status
  | .getObject kind _ found, .error (.notFound _) => !(kind = .rayJob && found = name)
  | op, ans => !failed op ans

/-- What an operation may answer. -/
def Observing (name status : String) (w : World) (op : Op) (ans : Ans op) (w' : World) : Prop :=
  exec w op ans w' ∧ healthy name status op ans = true

/-- A request is served. -/
def Asks (name status : String) (handler : Handler) (w w' : World) : Prop :=
  ∃ response, Prog.Runs (Observing name status) w handler response w'

/-- A pass over the stored run. -/
def PassOver (cfg : Config) (name status id : String) (w w' : World) : Prop :=
  ∃ run : RLRun, w.row .runs id = some run ∧
    Prog.Runs (Observing name status) w (reconcileOne cfg run) () w'

/-- The gates or the canary of the evaluation were reset to their initial values. -/
def Reset (e : RLEvaluationRecord) (w : World) : Prop :=
  ∃ stored : RLEvaluationRecord, w.row .evaluations e.id = some stored ∧
    (e.gatesPassed = true ∧ stored.gatesPassed = false ∨
      e.canaryState ≠ .pending ∧ stored.canaryState = .pending)

/-- The run has its status again. -/
def BackIn (id : String) (status : RunStatus) (w : World) : Prop :=
  ∃ run : RLRun, w.row .runs id = some run ∧ run.status = status

/-- A run under evaluation: its snapshot is intact, its evaluation, its attempt and its
checkpoint are stored, and no checkpoint waits to be adopted. -/
structure InEvaluation (cfg : Config) (w : World) (run : RLRun) (e : RLEvaluationRecord)
    (spec : RLRunSpec) : Prop where
  stored : w.row .runs run.id = some run
  slime : run.backend = .slime
  status : run.status = .evaluating ∨ run.status = .canary
  intact : ∀ now, verifiedSpec cfg now run = .ok spec
  evaluation : w.row .evaluations e.id = some e
  named : e.id = "eval-" ++ run.id ++ "-" ++ run.policyVersion
  owned : e.runID = run.id ∧ e.policyVersion = run.policyVersion
  indexed : EvaluationsIndexed w
  attempted : run.currentAttemptID ≠ ""
  attempt : ∃ a : RLAttempt, w.row .attempts run.currentAttemptID = some a
  resumable : run.checkpointID ≠ "" →
    ∃ c : RLCheckpointRecord, w.row .checkpoints run.checkpointID = some c
  adopted : run.checkpointID = "" → ∀ c : RLCheckpointRecord,
    w.row .checkpoints c.id = some c → c.runID = run.id → c.status ≠ "committed"

/-- The columns that say what a run works on. -/
def identity (run : RLRun) :
    String × Backend × String × String × String × String × String :=
  (run.id, run.backend, run.snapshotJSON, run.snapshotSHA256, run.currentAttemptID,
    run.policyVersion, run.checkpointID)

section Identity

variable {run copy : RLRun} (h : identity copy = identity run)

include h

theorem id_of_identity : copy.id = run.id := congrArg Prod.fst h

theorem backend_of_identity : copy.backend = run.backend := congrArg (fun x => x.2.1) h

theorem attempt_of_identity : copy.currentAttemptID = run.currentAttemptID :=
  congrArg (fun x => x.2.2.2.2.1) h

theorem checkpoint_of_identity : copy.checkpointID = run.checkpointID :=
  congrArg (fun x => x.2.2.2.2.2.2) h

theorem finalEvaluation_of_identity : finalEvaluation copy = finalEvaluation run := by
  have hversion : copy.policyVersion = run.policyVersion := congrArg (fun x => x.2.2.2.2.2.1) h
  unfold finalEvaluation
  rw [id_of_identity h, hversion, checkpoint_of_identity h]

theorem verifiedSpec_of_identity (cfg : Config) (now : Int) :
    verifiedSpec cfg now copy = verifiedSpec cfg now run := by
  have hjson : copy.snapshotJSON = run.snapshotJSON := congrArg (fun x => x.2.2.1) h
  have hsum : copy.snapshotSHA256 = run.snapshotSHA256 := congrArg (fun x => x.2.2.2.1) h
  unfold verifiedSpec
  rw [hjson, hsum]

end Identity

/-! ## What passes keep -/

/-- The followed tables are the same. -/
def Frame (w w' : World) : Prop := ∀ t : Table, followed t = true → w'.table t = w.table t

/-- A property of the followed tables other than that of runs. -/
def Apart (E : World → Prop) : Prop :=
  ∀ w w', (∀ t : Table, followed t = true → t ≠ .runs → w'.table t = w.table t) → E w → E w'

/-- The run is stored with `G`, the other tables satisfy `E`. -/
structure Rests (id : String) (G : RLRun → Prop) (E : World → Prop) (w : World) : Prop where
  stored : ∃ found : RLRun, w.row .runs id = some found ∧ found.id = id ∧ G found
  rest : E w

/-- The copy satisfies `G` too. -/
structure Held (id : String) (G : RLRun → Prop) (E : World → Prop) (copy : RLRun) (w : World) :
    Prop where
  named : copy.id = id
  good : G copy
  rests : Rests id G E w

/-- The part leaves `I`, whether it fails or not. -/
abbrev Stays {α : Type} (name status : String) (I : RLRun → World → Prop) (m : Pass α)
    (run : RLRun) (w : World) : Prop :=
  Act.At (acting (Observing name status)) (fun _ copy w' => I copy w') I m run w

section Frames

variable {name status id : String} {w w' w1 : World} {run copy : RLRun} {α : Type}
variable {G : RLRun → Prop} {E : World → Prop}

theorem Frame.refl (w : World) : Frame w w := fun _ _ => rfl

theorem Frame.trans (h : Frame w w1) (h' : Frame w1 w') : Frame w w' :=
  fun t ht => (h' t ht).trans (h t ht)

theorem Frame.row (h : Frame w w') {t : Table} (ht : followed t = true) (k : t.Key) :
    w'.row t k = w.row t k :=
  row_congr (h t ht) k

theorem frame_of_plain {op : Op} {ans : Ans op} (h : Observing name status w op ans w')
    (hop : Plain op) : Frame w w' := by
  have hrec : Ledger.Records ⟨w, []⟩ op ans ⟨w', [.performed w op ans]⟩ := ⟨h.1, rfl⟩
  exact fun t ht => table_of_plain hrec hop ht

theorem found_of_first {t : Table} {where_ : t.Row → Bool} {rank : t.Row → Int × Int} {k : t.Key}
    {row : t.Row} {ans : Ans (.sql (.first t where_ rank))}
    (hwhere : ∀ r, where_ r = true ↔ schema.key t r = k) (hrow : w.row t k = some row)
    (h : Observing name status w (.sql (.first t where_ rank)) ans w') :
    ans = Except.ok row ∧ w' = w := by
  obtain ⟨hexec, hhealthy⟩ := h
  rcases ans with (_ | text) | found
  · have hnone : w.Exec (.first t where_ rank) (.error .notFound) w' := hexec
    cases (hnone.row_of_notFound hwhere).2.symm.trans hrow
  · cases hhealthy
  · obtain ⟨hsame, hfound⟩ := Database.Exec.row_of_first (S := schema) (t := t) hwhere hexec
    exact ⟨congrArg _ (Option.some.inj (hfound.symm.trans hrow)), hsame⟩

theorem Held.frame (h : Held id G E copy w) (hE : Apart E) (hframe : Frame w w') :
    Held id G E copy w' := by
  obtain ⟨found, hfound, hgood⟩ := h.rests.stored
  have hrow : w'.row .runs id = some found := (hframe.row (t := .runs) rfl id).trans hfound
  exact ⟨h.named, h.good, ⟨found, hrow, hgood⟩, hE w w' (fun t ht _ => hframe t ht) h.rests.rest⟩

theorem Held.save {ans : Ans (.sql (.save .runs copy))} (h : Held id G E copy w) (hE : Apart E)
    (hsave : exec w (.sql (.save .runs copy)) ans w') : Held id G E copy w' := by
  have hrec : Ledger.Records ⟨w, []⟩ (.sql (.save .runs copy)) ans
      ⟨w', [.performed w (.sql (.save .runs copy)) ans]⟩ := ⟨hsave, rfl⟩
  refine ⟨h.named, h.good, ?_, hE w w' (fun t _ hne => ?_) h.rests.rest⟩
  · cases ans with
    | error text =>
      rw [show w' = w from hsave]
      exact h.rests.stored
    | ok =>
      refine ⟨copy, ?_, h.named, h.good⟩
      rw [show w' = w.save Table.runs copy from hsave, ← h.named]
      exact row_save_run_self _ _
  · refine hrec.table_of_target_ne fun htarget => hne ?_
    exact (Option.some.inj htarget).symm

theorem Calm.frames {m : Pass α} (hm : Calm m) (run : RLRun) (w : World) :
    Act.At (acting (Observing name status)) (fun _ copy w' => copy = run ∧ Frame w w')
      (fun copy w' => copy = run ∧ Frame w w') m run w :=
  Leaves.acts Frame.refl (fun h1 h2 => Frame.trans h1 h2)
    (fun _ op _ _ (hop : Plain op) h => frame_of_plain h hop) hm run w

theorem Calm.held {m : Pass α} (hm : Calm m) (hE : Apart E) :
    Keeps (acting (Observing name status)) (Held id G E) m :=
  Leaves.keeps (fun _ _ op _ _ (hop : Plain op) hcall h => h.frame hE (frame_of_plain hcall hop)) hm

theorem held_saveRun (hE : Apart E) :
    Keeps (acting (Observing name status)) (Held id G E) saveRun := by
  intro run w h ans w' hsave
  cases ans with
  | error text | ok => exact h.save hE hsave.1

/-- A pass over the stored run keeps what `reconcile` keeps. -/
theorem Rests.passOver {cfg : Config} (hE : Apart E)
    (hG : ∀ run text, G run → G { run with failureReason := text })
    (hreconcile : ∀ run w, Held id G E run w → terminal run.status = false →
      Stays name status (Held id G E) (reconcile cfg) run w)
    (hpass : PassOver cfg name status id w w') (h : Rests id G E w) : Rests id G E w' := by
  obtain ⟨run, hrow, hruns⟩ := hpass
  obtain ⟨found, hfound, hnamed, hgood⟩ := h.stored
  obtain rfl : run = found := Option.some.inj (hrow.symm.trans hfound)
  refine hruns.post (Q := fun _ w' => Rests id G E w') ?_
  unfold reconcileOne
  split
  · exact h
  · rename_i hgoes
    have hlive : terminal run.status = false :=
      Bool.not_eq_true _ ▸ fun hterminal => hgoes (.inr hterminal)
    refine wp_seq (Q := fun _ w' => Rests id G E w') ?_ fun _ w' hw' => hw'
    refine wp_seq (hreconcile run w ⟨hnamed, hgood, h⟩ hlive) ?_
    rintro ⟨result, copy⟩ w1 hpost
    cases result with
    | ok a => exact hpost.rests
    | error text =>
      have hfailed : Held id G E { copy with failureReason := text } w1 :=
        ⟨hpost.named, hG copy text hpost.good, hpost.rests⟩
      intro ans w2 hsave
      exact (hfailed.save hE hsave.1).rests

theorem Rests.passes {cfg : Config} (hE : Apart E)
    (hG : ∀ run text, G run → G { run with failureReason := text })
    (hreconcile : ∀ run w, Held id G E run w → terminal run.status = false →
      Stays name status (Held id G E) (reconcile cfg) run w)
    {ws : List World} (hchain : List.IsChain (PassOver cfg name status id) (w :: ws))
    (h : Rests id G E w) : ∀ w' ∈ w :: ws, Rests id G E w' :=
  hchain.induction _ _ (fun _ _ hpass h => h.passOver hE hG hreconcile hpass) fun _ => h

end Frames

/-! ## The suspended run -/

/-- The other followed tables are those of the given world. -/
def Others (w0 w : World) : Prop :=
  ∀ t : Table, followed t = true → t ≠ .runs → w.table t = w0.table t

theorem apart_others (w0 : World) : Apart (Others w0) :=
  fun _ _ hsame hothers t ht hne => (hsame t ht hne).trans (hothers t ht hne)

/-- The copy of a pass that suspends the run. -/
structure ToSuspend (run copy : RLRun) : Prop where
  same : identity copy = identity run
  desired : copy.desiredState = .suspended
  status : copy.status = run.status ∨ copy.status = .suspended

theorem live_of_evaluated {run : RLRun} (h : run.status = .evaluating ∨ run.status = .canary) :
    terminal run.status = false := by
  rcases h with heq | heq
  · rw [heq]
    rfl
  · rw [heq]
    rfl

section Suspended

variable {cfg : Config} {name status : String} {w0 w w' : World} {run copy : RLRun}

/-- A pass over a suspended run leaves its identity and everything else. -/
theorem at_reconcile_toSuspend
    (hstatus : run.status = .evaluating ∨ run.status = .canary)
    (h : Held run.id (ToSuspend run) (Others w0) copy w) :
    Stays name status (Held run.id (ToSuspend run) (Others w0)) (reconcile cfg) copy w := by
  have hE := apart_others w0
  refine Act.At.get (Act.At.call fun now w1 hnow => ?_)
  have h1 := h.frame hE (frame_of_plain hnow trivial)
  cases verifiedSpec cfg now copy with
  | error text => exact Act.At.fail h1
  | ok spec =>
    refine Act.At.seq
      (Act.At.of_keeps ((calm_discoverOwned spec).held hE) h1) ?_
    intro _ copy2 w2 h2
    have hgoes : ¬(copy.desiredState = .cancelled ∨ copy.status = .cancelling) := by
      rw [h.good.desired]
      rcases h.good.status with heq | heq
      · rcases hstatus with hs | hs
        · rw [heq, hs]
          decide
        · rw [heq, hs]
          decide
      · rw [heq]
        decide
    rw [if_neg hgoes, if_pos h.good.desired]
    refine Act.At.seq
      (Act.At.of_keeps (calm_suspendOwned.held hE) h2) ?_
    intro _ copy3 w3 h3
    refine Act.At.modify (Act.At.of_keeps (held_saveRun hE) ?_)
    exact ⟨h3.named, ⟨h3.good.same, h3.good.desired, .inr rfl⟩, h3.rests⟩

theorem toSuspend_passes (hstatus : run.status = .evaluating ∨ run.status = .canary)
    {ws : List World} (hchain : List.IsChain (PassOver cfg name status run.id) (w :: ws))
    (h : Rests run.id (ToSuspend run) (Others w0) w) :
    ∀ w' ∈ w :: ws, Rests run.id (ToSuspend run) (Others w0) w' :=
  Rests.passes (apart_others w0)
    (fun _ _ hgood => ⟨hgood.same, hgood.desired, hgood.status⟩)
    (fun _ _ hheld _ => at_reconcile_toSuspend hstatus hheld) hchain h

theorem save_of_setSlimeDesiredState {id : String} {desired : DesiredState}
    (hrow : w.row .runs id = some run) (hslime : run.backend = .slime)
    (hlive : terminal run.status = false)
    (hasks : Asks name status (setSlimeDesiredState id desired) w w') :
    w' = w.save Table.runs
      { run with
        desiredState := desired
        status := if desired = .running then .starting else run.status } := by
  obtain ⟨response, hruns⟩ := hasks
  refine hruns.post (Q := fun _ w' => w' = _) ?_
  intro ans w1 hread
  have hkey : ∀ row : RLRun, decide (row.id = id) = true ↔ row.id = id :=
    fun _ => decide_eq_true_iff
  obtain ⟨rfl, rfl⟩ := found_of_first (t := .runs) hkey hrow hread
  show wp _ (if run.backend ≠ .slime then _ else _) _ _
  rw [if_neg (not_not.mpr hslime), hlive]
  intro ans w2 hsave
  cases ans with
  | error text => cases hsave.2
  | ok => exact hsave.1

end Suspended

/-! ## Parts that cannot fail -/

/-- The part ends without error, with `Ok`. -/
abbrev Surely {α : Type} (name status : String) (Ok : α → RLRun → World → Prop) (m : Pass α)
    (run : RLRun) (w : World) : Prop :=
  Act.At (acting (Observing name status)) Ok (fun _ _ => False) m run w

section Certain

variable {name status : String} {w w' : World} {run copy : RLRun} {α β : Type}
variable {Ok : β → RLRun → World → Prop}

/-- A part that reports its errors meets none, and leaves the copy and the followed tables. -/
theorem Reports.surely {m : Pass α} {f : α → Pass β} (hm : Reports (Handles fun _ => True) m)
    (hf : ∀ a w', Frame w w' → Surely name status Ok (f a) run w') :
    Surely name status Ok (m >>= f) run w := by
  have hcovers : Covers (acting (Observing name status)) (Handles fun _ => True) (Frame w)
      fun _ => False := by
    intro op w1 hop hframe ans w2 hcall
    have hframe2 : Frame w w2 := hframe.trans (frame_of_plain hcall hop.plain)
    cases hop with
    | apply | list | track =>
      cases ans with
      | ok => exact hframe2
      | error => cases hcall.2
  refine Act.At.seq ((hm.acts hcovers run (Frame.refl w)).mono (fun _ _ _ h => h) ?_) ?_
  · exact fun _ _ h => h.2
  · rintro a _ w1 ⟨rfl, hframe⟩
    exact hf a w1 hframe

theorem surely_saveRun {Ok : Unit → RLRun → World → Prop} (h : Ok () run (w.save Table.runs run)) :
    Surely name status Ok saveRun run w := by
  refine Act.At.get (Act.At.attempt fun ans w' hcall => ?_)
  refine ⟨?_, ?_⟩
  · rintro _ rfl
    obtain rfl : w' = w.save Table.runs run := hcall.1
    exact h
  · rintro e rfl
    cases hcall.2

end Certain

/-! ## The training path -/

/-- What the training path goes by: the identity of the run, its attempt and its checkpoints.
The evaluations are those of `base`. -/
structure Training (w0 base : World) (run copy : RLRun) (w : World) : Prop where
  same : identity copy = identity run
  desired : copy.desiredState = .running
  checkpoints : ∀ k, w.row .checkpoints k = w0.row .checkpoints k
  evaluations : ∀ k, w.row .evaluations k = base.row .evaluations k
  attempt : ∃ a : RLAttempt, w.row .attempts run.currentAttemptID = some a

/-- The status of a run after a pass that trains it. -/
def afterTraining (spec : RLRunSpec) (status : String) : RunStatus :=
  if jobSucceeded status then
    if spec.evaluation.required then .evaluating else .completed
  else .running

theorem afterTraining_cases (spec : RLRunSpec) (status : String) :
    afterTraining spec status = .evaluating ∨ afterTraining spec status = .completed ∨
      afterTraining spec status = .running := by
  unfold afterTraining
  split
  · split
    · exact .inl rfl
    · exact .inr (.inl rfl)
  · exact .inr (.inr rfl)

theorem afterTraining_ne_canary (spec : RLRunSpec) (status : String) :
    afterTraining spec status ≠ .canary := by
  rcases afterTraining_cases spec status with heq | heq | heq
  · exact heq ▸ nofun
  · exact heq ▸ nofun
  · exact heq ▸ nofun

theorem afterTraining_eq_evaluating {spec : RLRunSpec} {status : String} :
    afterTraining spec status = .evaluating ↔
      jobSucceeded status = true ∧ spec.evaluation.required = true := by
  unfold afterTraining
  split
  · rename_i hjob
    split
    · rename_i hrequired
      exact ⟨fun _ => ⟨hjob, hrequired⟩, fun _ => rfl⟩
    · rename_i hrequired
      exact ⟨nofun, fun h => absurd h.2 hrequired⟩
  · rename_i hjob
    exact ⟨nofun, fun h => absurd h.1 hjob⟩

/-- The evaluations after such a pass. -/
def evaluationsAfter (spec : RLRunSpec) (status : String) (run : RLRun) (w0 : World) : World :=
  if afterTraining spec status = .evaluating then
    w0.save Table.evaluations (finalEvaluation run)
  else w0

section Trains

variable {cfg : Config} {name status : String} {w0 base w w' : World} {run copy : RLRun}
variable {e : RLEvaluationRecord} {spec : RLRunSpec} {β : Type}
variable {Ok : β → RLRun → World → Prop}

theorem Training.congr {copy' : RLRun} (h : Training w0 base run copy w)
    (hsame : identity copy' = identity copy) (hdesired : copy'.desiredState = copy.desiredState) :
    Training w0 base run copy' w :=
  ⟨hsame.trans h.same, hdesired.trans h.desired, h.checkpoints, h.evaluations, h.attempt⟩

theorem Training.frame (h : Training w0 base run copy w) (hframe : Frame w w') :
    Training w0 base run copy w' := by
  obtain ⟨a, ha⟩ := h.attempt
  exact ⟨h.same, h.desired, fun k => (hframe.row (t := .checkpoints) rfl k).trans (h.checkpoints k),
    fun k => (hframe.row (t := .evaluations) rfl k).trans (h.evaluations k),
    a, (hframe.row (t := .attempts) rfl _).trans ha⟩

theorem Training.saveRun (h : Training w0 base run copy w) :
    Training w0 base run copy (w.save Table.runs copy) := by
  obtain ⟨a, ha⟩ := h.attempt
  have hrow := fun t ht k => row_save_other w (t := .runs) copy t ht k
  exact ⟨h.same, h.desired, fun k => (hrow .checkpoints nofun k).trans (h.checkpoints k),
    fun k => (hrow .evaluations nofun k).trans (h.evaluations k),
    a, (hrow .attempts nofun _).trans ha⟩

theorem Training.saveAttempt {attempt : RLAttempt} (h : Training w0 base run copy w)
    (hattempt : attempt.id = run.currentAttemptID) :
    Training w0 base run copy (w.save Table.attempts attempt) := by
  have hrow := fun t ht k => row_save_other w (t := .attempts) attempt t ht k
  refine ⟨h.same, h.desired, fun k => (hrow .checkpoints nofun k).trans (h.checkpoints k),
    fun k => (hrow .evaluations nofun k).trans (h.evaluations k), attempt, ?_⟩
  rw [← hattempt]
  exact row_save_self (t := .attempts) w attempt

theorem Training.saveEvaluation (h : Training w0 w0 run copy w) (e : RLEvaluationRecord) :
    Training w0 (w0.save Table.evaluations e) run copy (w.save Table.evaluations e) := by
  obtain ⟨a, ha⟩ := h.attempt
  have hrow := fun t ht k => row_save_other w (t := .evaluations) e t ht k
  refine ⟨h.same, h.desired, fun k => (hrow .checkpoints nofun k).trans (h.checkpoints k),
    fun k => ?_, a, (hrow .attempts nofun _).trans ha⟩
  have hself := fun w : World => row_save (t := .evaluations) w e k
  exact (hself w).trans ((congrArg _ (h.evaluations k)).trans (hself w0).symm)

theorem surely_ensureAttempt (hattempted : run.currentAttemptID ≠ "")
    (h : Training w0 base run copy w) :
    Surely name status (fun attempt copy' w' => attempt.id = run.currentAttemptID ∧
      Training w0 base run copy' w') (ensureAttempt spec) copy w := by
  obtain ⟨a, ha⟩ := h.attempt
  have hid := attempt_of_identity h.same
  refine Act.At.get ?_
  rw [if_pos (show copy.currentAttemptID ≠ "" by rwa [hid])]
  refine Act.At.attempt fun ans w' hcall => ?_
  have hkey : ∀ row : RLAttempt,
      decide (row.id = copy.currentAttemptID) = true ↔ row.id = copy.currentAttemptID :=
    fun _ => decide_eq_true_iff
  obtain ⟨rfl, rfl⟩ := found_of_first (t := .attempts) hkey (hid ▸ ha) hcall
  refine ⟨?_, nofun⟩
  rintro _ ⟨⟩
  exact ⟨w'.keyed .attempts _ a ha, h⟩

theorem surely_rolloutBranch (attempt : RLAttempt) (h : Training w0 base run copy w) :
    Surely name status (fun _ copy' w' => Training w0 base run copy' w')
      (rolloutBranch spec attempt) copy w := by
  refine (reports_applyAndTrack _ trivial).surely fun _ w1 hframe1 => ?_
  refine Act.At.get (Act.At.modify ?_)
  refine (reports_applyAndTrack _ trivial).surely fun _ w2 hframe2 => ?_
  refine surely_saveRun (Training.saveRun ?_)
  exact (h.frame (hframe1.trans hframe2)).congr rfl rfl

theorem surely_adoptCheckpoint (hin : InEvaluation cfg w0 run e spec)
    (h : Training w0 base run copy w) :
    Surely name status (fun _ copy' w' => Training w0 base run copy' w')
      adoptCheckpoint copy w := by
  have hid := checkpoint_of_identity h.same
  refine Act.At.get ?_
  by_cases hempty : copy.checkpointID = ""
  · rw [if_pos hempty]
    refine Act.At.call fun ans w' hcall => ?_
    obtain ⟨hexec, hhealthy⟩ := hcall
    rcases ans with (_ | text) | c
    · exact Act.At.pure (by rwa [hexec.1])
    · cases hhealthy
    · obtain ⟨hrow, hfound⟩ := Database.Selects.row_eq hexec.2
      simp only [Bool.and_eq_true, decide_eq_true_eq] at hfound
      have hcommitted := hin.adopted (hid ▸ hempty) c ((h.checkpoints c.id).symm.trans hrow)
        (hfound.1.trans (id_of_identity h.same))
      exact absurd hfound.2 hcommitted
  · rw [if_neg hempty]
    exact Act.At.pure h

theorem surely_executionSpec (hin : InEvaluation cfg w0 run e spec)
    (h : Training w0 base run copy w) :
    Surely name status (fun execution copy' w' => execution.metadata = spec.metadata ∧
      Training w0 base run copy' w') (executionSpec spec) copy w := by
  have hid := checkpoint_of_identity h.same
  refine Act.At.get ?_
  by_cases hempty : copy.checkpointID ≠ ""
  · rw [if_pos hempty]
    refine Act.At.bind (Act.At.attempt fun ans w' hcall => ?_)
    obtain ⟨c, hc⟩ := hin.resumable (hid ▸ hempty)
    have hkey : ∀ row : RLCheckpointRecord,
        decide (row.id = copy.checkpointID) = true ↔ row.id = copy.checkpointID :=
      fun _ => decide_eq_true_iff
    have hrow : w.row .checkpoints copy.checkpointID = some c := hid ▸ (h.checkpoints _).trans hc
    obtain ⟨rfl, rfl⟩ := found_of_first (t := .checkpoints) hkey hrow hcall
    exact ⟨fun _ _ => ⟨rfl, h⟩, nofun⟩
  · rw [if_neg hempty]
    exact Act.At.pure ⟨rfl, h⟩

theorem surely_getObject (text : ClientError → String) (namespace_ : String) :
    Surely name status (fun observed copy' w' => trainingStatus observed = status ∧
        copy' = copy ∧ w' = w)
      (Act.attempt text (call (.getObject .rayJob namespace_ name)) : Pass Object) copy w := by
  refine Act.At.attempt fun ans w' hcall => ?_
  obtain ⟨hexec, hhealthy⟩ := hcall
  have hsame : w' = w := hexec
  rcases ans with (_ | _) | observed
  · simp [healthy] at hhealthy
  · cases hhealthy
  · refine ⟨?_, nofun⟩
    rintro _ ⟨⟩
    simp only [healthy, decide_true, Bool.and_self, Bool.not_true, Bool.false_or,
      decide_eq_true_eq] at hhealthy
    exact ⟨hhealthy, rfl, hsame⟩

theorem surely_finishTraining (h : Training w0 w0 run copy w) (hjob : jobSucceeded status = true) :
    Surely name status (fun _ copy' w' =>
        Training w0 (evaluationsAfter spec status run w0) run copy' w' ∧
        copy'.status = afterTraining spec status) (finishTraining spec) copy w := by
  unfold finishTraining evaluationsAfter afterTraining
  rw [if_pos hjob]
  refine Act.At.get ?_
  by_cases hrequired : spec.evaluation.required = true
  · rw [if_pos hrequired, if_pos hrequired, if_pos rfl, finalEvaluation_of_identity h.same]
    refine Act.At.bind (Act.At.attempt fun ans w' hcall => ?_)
    refine ⟨?_, ?_⟩
    · rintro _ rfl
      obtain rfl : w' = w.save Table.evaluations (finalEvaluation run) := hcall.1
      exact Act.At.pure ⟨(h.saveEvaluation (finalEvaluation run)).congr rfl rfl, rfl⟩
    · rintro text rfl
      cases hcall.2
  · rw [if_neg hrequired, if_neg hrequired, if_neg (by decide)]
    exact Act.At.pure ⟨h.congr rfl rfl, rfl⟩

theorem surely_observeTraining (attempt : RLAttempt) {job : Object}
    (hjob : trainingStatus job = status) (hstatus : jobFailed status = false)
    (h : Training w0 w0 run copy w) :
    Surely name status (fun attempt' copy' w' => attempt'.id = attempt.id ∧
        Training w0 (evaluationsAfter spec status run w0) run copy' w' ∧
        copy'.status = afterTraining spec status)
      (observeTraining attempt spec job) copy w := by
  unfold observeTraining
  dsimp only
  rw [hjob]
  by_cases hsucceeded : jobSucceeded status = true
  · rw [if_pos hsucceeded]
    refine Act.At.seq (surely_finishTraining h hsucceeded) ?_
    exact fun _ _ _ hfinished => Act.At.pure ⟨rfl, hfinished⟩
  · rw [if_neg hsucceeded, if_neg (hstatus ▸ Bool.false_ne_true)]
    have hrunning : afterTraining spec status = .running := if_neg hsucceeded
    have hsame : evaluationsAfter spec status run w0 = w0 := if_neg (hrunning ▸ nofun)
    rw [hrunning, hsame]
    exact Act.At.modify (Act.At.pure ⟨rfl, h.congr rfl rfl, rfl⟩)

/-- The run is stored as a pass that trains it leaves it. -/
structure Trained (spec : RLRunSpec) (status : String) (w0 : World) (run : RLRun) (w : World) :
    Prop where
  stored : ∃ copy : RLRun, w.row .runs run.id = some copy ∧
    copy.status = afterTraining spec status ∧
    Training w0 (evaluationsAfter spec status run w0) run copy w

theorem surely_observeRayJob {attempt : RLAttempt} {job : Object}
    (hattempt : attempt.id = run.currentAttemptID)
    (hjob : trainingStatus job = status) (hstatus : jobFailed status = false)
    (h : Training w0 w0 run copy w) :
    Surely name status (fun _ _ w' => Trained spec status w0 run w')
      (observeRayJob attempt spec job) copy w := by
  refine Act.At.seq (surely_observeTraining attempt hjob hstatus h) ?_
  rintro attempt1 copy1 w1 ⟨hid, h1, hnext⟩
  refine Act.At.bind (Act.At.attempt fun ans w2 hcall => ?_)
  refine ⟨?_, ?_⟩
  · rintro _ rfl
    obtain rfl : w2 = w1.save Table.attempts attempt1 := hcall.1
    refine surely_saveRun ⟨_, ?_, hnext, (h1.saveAttempt (hid.trans hattempt)).saveRun⟩
    rw [← id_of_identity h1.same]
    exact row_save_run_self _ _
  · rintro text rfl
    cases hcall.2

/-- A pass that trains the run. -/
theorem surely_trainBranch (hin : InEvaluation cfg w0 run e spec)
    (hstatus : jobFailed status = false)
    (hname : (renderRayJob spec run.currentAttemptID).name = name)
    (h : Training w0 w0 run copy w) :
    Surely name status (fun _ _ w' => Trained spec status w0 run w')
      (trainBranch cfg spec) copy w := by
  refine Reports.surely (reports_ensureTenantInfrastructure cfg spec fun _ _ => trivial)
    fun _ _ hframe => ?_
  refine Act.At.seq (surely_ensureAttempt hin.attempted (h.frame hframe)) ?_
  rintro attempt copy1 w1 ⟨hattempt, h1⟩
  have hrollout : Surely name status (fun _ copy' w' => Training w0 w0 run copy' w')
      (Act.when (spec.topology.mode = "disaggregated") (rolloutBranch spec attempt)) copy1 w1 := by
    unfold Act.when
    split
    · exact surely_rolloutBranch attempt h1
    · exact Act.At.pure h1
  refine Act.At.seq hrollout ?_
  intro _ copy2 w2 h2
  refine Act.At.seq (surely_adoptCheckpoint hin h2) ?_
  intro _ copy3 w3 h3
  refine Act.At.seq (surely_executionSpec hin h3) ?_
  rintro execution copy4 w4 ⟨hmetadata, h4⟩
  refine (reports_applyAndTrack _ trivial).surely fun _ w5 hframe5 => ?_
  have hjob : (renderRayJob execution attempt.id).name = name := by
    rw [← hname, hattempt]
    show execution.metadata.runID ++ "-" ++ _ = spec.metadata.runID ++ "-" ++ _
    rw [hmetadata]
  rw [hjob]
  refine Act.At.seq (surely_getObject _ _) ?_
  rintro observed _ _ ⟨hobserved, rfl, rfl⟩
  exact surely_observeRayJob hattempt hobserved hstatus (h4.frame hframe5)

/-- A pass over a run that starts or trains. -/
theorem trained_of_passOver (hin : InEvaluation cfg w0 run e spec)
    (hstatus : jobFailed status = false)
    (hname : (renderRayJob spec run.currentAttemptID).name = name)
    (hpass : PassOver cfg name status run.id w w') (hrow : w.row .runs run.id = some copy)
    (hgoes : copy.status = .starting ∨ copy.status = .running)
    (h : Training w0 w0 run copy w) : Trained spec status w0 run w' := by
  obtain ⟨found, hfound, hruns⟩ := hpass
  obtain rfl : found = copy := Option.some.inj (hfound.symm.trans hrow)
  have hreconcile : Surely name status (fun _ _ w' => Trained spec status w0 run w')
      (reconcile cfg) found w := by
    refine Act.At.get (Act.At.call fun now w1 hnow => ?_)
    have hspec : verifiedSpec cfg now found = .ok spec :=
      (verifiedSpec_of_identity h.same cfg now).trans (hin.intact now)
    revert hspec
    cases verifiedSpec cfg now found with
    | error text => exact nofun
    | ok verified =>
    rintro ⟨⟩
    refine (reports_discoverOwned spec).surely fun _ w2 hframe => ?_
    have h2 := (h.frame (frame_of_plain hnow trivial)).frame hframe
    rw [h.desired]
    rcases hgoes with heq | heq
    · rw [heq]
      exact surely_trainBranch hin hstatus hname h2
    · rw [heq]
      exact surely_trainBranch hin hstatus hname h2
  have hlive : ¬(found.backend ≠ .slime ∨ terminal found.status = true) := by
    rw [backend_of_identity h.same, hin.slime]
    rcases hgoes with heq | heq
    · rw [heq]
      decide
    · rw [heq]
      decide
  refine hruns.post (Q := fun _ w' => Trained spec status w0 run w') ?_
  unfold reconcileOne
  rw [if_neg hlive]
  refine wp_seq (Q := fun _ w' => Trained spec status w0 run w') ?_ fun _ w' hw' => hw'
  refine wp_seq hreconcile ?_
  rintro ⟨result, copy'⟩ w1 hpost
  cases result with
  | ok a => exact hpost
  | error text => exact hpost.elim

theorem passOver_terminal (hrow : w.row .runs run.id = some copy)
    (hterminal : terminal copy.status = true) (hpass : PassOver cfg name status run.id w w') :
    w' = w := by
  obtain ⟨found, hfound, hruns⟩ := hpass
  obtain rfl : found = copy := Option.some.inj (hfound.symm.trans hrow)
  refine hruns.post (Q := fun _ w' => w' = w) ?_
  unfold reconcileOne
  rw [if_pos (.inr hterminal)]
  exact rfl

theorem Trained.passOver (hin : InEvaluation cfg w0 run e spec) (hstatus : jobFailed status = false)
    (hname : (renderRayJob spec run.currentAttemptID).name = name)
    (hnext : afterTraining spec status ≠ .evaluating) (h : Trained spec status w0 run w)
    (hpass : PassOver cfg name status run.id w w') : Trained spec status w0 run w' := by
  obtain ⟨copy, hrow, heq, htraining⟩ := h.stored
  rw [show evaluationsAfter spec status run w0 = w0 from if_neg hnext] at htraining
  by_cases hterminal : terminal copy.status = true
  · rw [passOver_terminal hrow hterminal hpass]
    exact h
  · refine trained_of_passOver hin hstatus hname hpass hrow (.inr ?_) htraining
    rcases afterTraining_cases spec status with hevaluating | hcompleted | hrunning
    · exact absurd hevaluating hnext
    · rw [heq, hcompleted] at hterminal
      exact absurd rfl hterminal
    · exact heq.trans hrunning

theorem Trained.passes (hin : InEvaluation cfg w0 run e spec) (hstatus : jobFailed status = false)
    (hname : (renderRayJob spec run.currentAttemptID).name = name)
    (hnext : afterTraining spec status ≠ .evaluating) {ws : List World}
    (hchain : List.IsChain (PassOver cfg name status run.id) (w :: ws))
    (h : Trained spec status w0 run w) : ∀ w' ∈ w :: ws, Trained spec status w0 run w' :=
  hchain.induction _ _ (fun _ _ hpass h => h.passOver hin hstatus hname hnext hpass) fun _ => h

end Trains

/-! ## The new evaluation -/

/-- A copy that is evaluated in the given version, or has ended. -/
def Reevaluated (version : String) (copy : RLRun) : Prop :=
  copy.desiredState = .running ∧ copy.status = .evaluating ∧ copy.policyVersion = version ∨
    copy.status = .completed

/-- A final evaluation that has not passed. -/
def Unproven (e : RLEvaluationRecord) : Prop := e.gatesPassed = false ∧ e.final = true

/-- The evaluations of the version are such. -/
def AllUnproven (id version : String) (w : World) : Prop :=
  ∀ e : RLEvaluationRecord, w.row .evaluations e.id = some e → e.runID = id →
    e.policyVersion = version → Unproven e

/-- The invariant of the passes after the final evaluation was created. -/
abbrev Retested (id version : String) : RLRun → World → Prop :=
  Held id (Reevaluated version) (AllUnproven id version)

section Waits

variable {cfg : Config} {name status id version : String} {w w' : World} {run copy : RLRun}
variable {e : RLEvaluationRecord} {spec : RLRunSpec}

theorem apart_allUnproven : Apart (AllUnproven id version) := by
  intro w w' hsame h e hrow
  have htable := hsame .evaluations rfl nofun
  exact h e ((row_congr htable e.id).symm.trans hrow)

theorem Reevaluated.status_ne_canary (h : Reevaluated version copy) : copy.status ≠ .canary := by
  rcases h with ⟨-, hstatus, -⟩ | hstatus
  · rw [hstatus]
    decide
  · rw [hstatus]
    decide

theorem Held.observed {E : World → Prop} (h : Held id (Reevaluated version) E copy w)
    (text : String) : Held id (Reevaluated version) E { copy with observedState := text } w :=
  ⟨h.named, h.good, h.rests⟩

theorem at_evaluate_unproven (attempt : RLAttempt) (he : Unproven e)
    (h : Retested id version copy w) :
    Act.At (acting (Observing name status))
      (fun e' copy' w' => Unproven e' ∧ Retested id version copy' w')
      (Retested id version) (evaluate spec attempt e) copy w := by
  refine Act.At.seq (Act.At.of_keeps ((calm_applyAndTrack _ _).held apart_allUnproven) h) ?_
  intro _ copy1 w1 h1
  refine Act.At.seq (Act.At.of_keeps ((calm_getObject _ _ _ _).held apart_allUnproven) h1) ?_
  intro observed copy2 w2 h2
  by_cases hfailed : jobFailed (rayJobStatus observed) = true
  · rw [if_pos hfailed]
    exact Act.At.pure ⟨he, h2⟩
  rw [if_neg hfailed]
  by_cases hsucceeded : jobSucceeded (rayJobStatus observed) = true
  · rw [if_pos hsucceeded, if_neg fun hpassed => Bool.false_ne_true (he.1.symm.trans hpassed.2)]
    split
    · exact Act.At.modify (Act.At.pure ⟨he, h2.observed _⟩)
    · exact Act.At.pure ⟨he, h2⟩
  · rw [if_neg hsucceeded]
    exact Act.At.modify (Act.At.pure ⟨he, h2.observed _⟩)

theorem at_decisionStage_unproven (he : Unproven e) (h : Retested id version copy w) :
    Stays name status (Retested id version) (decisionStage cfg spec e) copy w := by
  refine Act.At.get ?_
  split
  · split
    · have hback : Quiet (call (.rollback copy.id e.failureReason)) := Obeys.perform trivial
      refine Act.At.seq (Act.At.of_keeps (Calm.held (Leaves.attempt hback) apart_allUnproven) h) ?_
      intro version' copy1 w1 h1
      rw [he.2]
      exact ⟨h1.named, .inr rfl, h1.rests⟩
    · exact Act.At.fail h
  · rw [if_neg fun hcanary => h.good.status_ne_canary hcanary.1]
    exact Act.At.pure h

theorem Held.saveEvaluation {ans : Ans (.sql (.save .evaluations e))} (he : Unproven e)
    (h : Retested id version copy w) (hsave : exec w (.sql (.save .evaluations e)) ans w') :
    Retested id version copy w' := by
  cases ans with
  | error text => rwa [show w' = w from hsave]
  | ok =>
    obtain rfl : w' = w.save Table.evaluations e := hsave
    obtain ⟨found, hfound, hgood⟩ := h.rests.stored
    refine ⟨h.named, h.good, ⟨found, ?_, hgood⟩, fun e' hrow hrun hversion => ?_⟩
    · exact (row_save_other w (t := .evaluations) e .runs nofun id).trans hfound
    · by_cases hid : e'.id = e.id
      · rw [hid, row_save_evaluation_self] at hrow
        cases hrow
        exact he
      · rw [row_save_evaluation_of_ne w hid] at hrow
        exact h.rests.rest e' hrow hrun hversion

theorem at_reconcileEvaluation_unproven (hevaluating : copy.status = .evaluating)
    (h : Retested id version copy w) :
    Stays name status (Retested id version) (reconcileEvaluation cfg spec) copy w := by
  have hversion : copy.policyVersion = version := by
    rcases h.good with ⟨-, -, hversion⟩ | hcompleted
    · exact hversion
    · rw [hevaluating] at hcompleted
      cases hcompleted
  refine Act.At.get (Act.At.bind (Act.At.attempt ?_))
  intro ans w1 hcall
  have h1 := h.frame apart_allUnproven (frame_of_plain hcall trivial)
  refine ⟨?_, fun _ _ => h1⟩
  rintro e rfl
  obtain ⟨hrow, hselected⟩ := Database.Selects.row_eq hcall.1.2
  simp only [Bool.and_eq_true, decide_eq_true_eq] at hselected
  obtain ⟨hrun, hpolicy⟩ := hselected
  have he : Unproven e := h.rests.rest e hrow (hrun.trans h.named) (hpolicy.trans hversion)
  have hattempt : Calm (stored (getRLAttempt copy.currentAttemptID)) :=
    Leaves.stored (Obeys.perform trivial)
  refine Act.At.seq (Act.At.of_keeps (hattempt.held apart_allUnproven) h1) ?_
  intro attempt copy2 w2 h2
  refine Act.At.seq (Act.At.of_keeps
    (Calm.held (Leaves.when (calm_applyAndTrack _ _)) apart_allUnproven) h2) ?_
  intro _ copy3 w3 h3
  have hstage : Act.At (acting (Observing name status))
      (fun e' copy' w' => Unproven e' ∧ Retested id version copy' w')
      (Retested id version) (evaluatorStage spec attempt e) copy3 w3 := by
    refine Act.At.get ?_
    split
    · exact at_evaluate_unproven attempt he h3
    · exact Act.At.pure ⟨he, h3⟩
  refine Act.At.seq hstage ?_
  rintro e4 copy4 w4 ⟨he4, h4⟩
  refine Act.At.bind (Act.At.get ?_)
  rw [if_neg fun hcanary => h4.good.status_ne_canary hcanary.1]
  refine Act.At.seq (at_decisionStage_unproven he4 h4) ?_
  intro _ copy5 w5 h5
  refine Act.At.bind (Act.At.attempt fun ans w6 hsave => ?_)
  have h6 := h5.saveEvaluation he4 hsave.1
  exact ⟨fun _ _ => Act.At.of_keeps (held_saveRun apart_allUnproven) h6, fun _ _ => h6⟩

/-- A pass over the run evaluates it or ends it. -/
theorem at_reconcile_retested (hlive : terminal copy.status = false)
    (h : Retested id version copy w) :
    Stays name status (Retested id version) (reconcile cfg) copy w := by
  have hE : Apart (AllUnproven id version) := apart_allUnproven
  have hgoes : copy.desiredState = .running ∧ copy.status = .evaluating := by
    rcases h.good with ⟨hdesired, hevaluating, -⟩ | hcompleted
    · exact ⟨hdesired, hevaluating⟩
    · rw [hcompleted] at hlive
      cases hlive
  refine Act.At.get (Act.At.call fun now w1 hnow => ?_)
  have h1 := h.frame hE (frame_of_plain hnow trivial)
  cases verifiedSpec cfg now copy with
  | error text => exact Act.At.fail h1
  | ok spec =>
    have hfound : Act.At (acting (Observing name status))
        (fun _ copy' w' => copy' = copy ∧ Retested id version copy' w') (Retested id version)
        (discoverOwned spec) copy w1 := by
      refine ((calm_discoverOwned spec).frames copy w1).mono ?_ ?_
      · rintro _ _ w2 ⟨rfl, hframe⟩
        exact ⟨rfl, h1.frame hE hframe⟩
      · rintro _ w2 ⟨rfl, hframe⟩
        exact h1.frame hE hframe
    refine Act.At.seq hfound ?_
    rintro _ _ w2 ⟨rfl, h2⟩
    rw [hgoes.1, hgoes.2]
    exact at_reconcileEvaluation_unproven hgoes.2 h2

theorem retested_passes {ws : List World}
    (hchain : List.IsChain (PassOver cfg name status id) (w :: ws))
    (h : Rests id (Reevaluated version) (AllUnproven id version) w) :
    ∀ w' ∈ w :: ws, Rests id (Reevaluated version) (AllUnproven id version) w' :=
  Rests.passes apart_allUnproven (fun _ _ hgood => hgood)
    (fun _ _ hheld hlive => at_reconcile_retested hlive hheld) hchain h

end Waits

/-! ## The round trip -/

/-- The name of the training job of the run's attempt. -/
def trainingJob (spec : RLRunSpec) (run : RLRun) : String :=
  (renderRayJob spec run.currentAttemptID).name

/-- The run is suspended, passes may follow, it is resumed, and passes follow.  The lists are
what the passes leave. -/
structure RoundTrip (cfg : Config) (name status id : String) (w0 w1 : World) (vs : List World)
    (w2 : World) (ws : List World) : Prop where
  suspend : Asks name status (rlSuspendRun id) w0 w1
  suspended : List.IsChain (PassOver cfg name status id) (w1 :: vs)
  resume : Asks name status (rlResumeRun id) ((w1 :: vs).getLast (List.cons_ne_nil _ _)) w2
  resumed : List.IsChain (PassOver cfg name status id) (w2 :: ws)
  passes : ws ≠ []

section Trips

variable {cfg : Config} {name status : String} {w0 w1 w2 w : World} {vs ws : List World}
variable {run : RLRun} {e : RLEvaluationRecord} {spec : RLRunSpec}

theorem RoundTrip.toSuspend (hin : InEvaluation cfg w0 run e spec)
    (h : RoundTrip cfg name status run.id w0 w1 vs w2 ws) :
    ∀ w ∈ w1 :: vs, Rests run.id (ToSuspend run) (Others w0) w := by
  have hsaved := save_of_setSlimeDesiredState hin.stored hin.slime (live_of_evaluated hin.status)
    h.suspend
  refine toSuspend_passes hin.status h.suspended ?_
  rw [hsaved]
  refine ⟨⟨_, row_save_run_self _ _, rfl, rfl, rfl, .inl rfl⟩, fun t _ hne => ?_⟩
  exact table_save_of_ne (t := .runs) w0 _ hne

/-- The run when it is resumed. -/
theorem RoundTrip.training (hin : InEvaluation cfg w0 run e spec)
    (h : RoundTrip cfg name status run.id w0 w1 vs w2 ws) :
    ∃ copy : RLRun, w2.row .runs run.id = some copy ∧ copy.status = .starting ∧
      Training w0 w0 run copy w2 := by
  have hlast := h.toSuspend hin _ (List.getLast_mem (List.cons_ne_nil w1 vs))
  obtain ⟨found, hfound, hnamed, hgood⟩ := hlast.stored
  have hlive : terminal found.status = false := by
    rcases hgood.status with heq | heq
    · rw [heq]
      exact live_of_evaluated hin.status
    · rw [heq]
      rfl
  have hslime := (backend_of_identity hgood.same).trans hin.slime
  have hsaved := save_of_setSlimeDesiredState hfound hslime hlive h.resume
  obtain ⟨a, ha⟩ := hin.attempt
  have hrow : ∀ t : Table, followed t = true → t ≠ .runs → ∀ k, w2.row t k = w0.row t k := by
    intro t ht hne k
    rw [hsaved]
    exact (row_save_other _ (t := .runs) _ t hne k).trans
      (row_congr (hlast.rest t ht hne) k)
  refine ⟨{ found with desiredState := .running, status := .starting }, ?_, rfl, hgood.same, rfl,
    hrow .checkpoints rfl nofun, hrow .evaluations rfl nofun, a,
    (hrow .attempts rfl nofun _).trans ha⟩
  rw [hsaved, ← hnamed]
  exact row_save_run_self _ _

theorem Trained.row_evaluation (hin : InEvaluation cfg w0 run e spec)
    (hnext : afterTraining spec status = .evaluating) (h : Trained spec status w0 run w) :
    w.row .evaluations e.id = some (finalEvaluation run) := by
  obtain ⟨copy, -, -, htraining⟩ := h.stored
  have hrow := htraining.evaluations e.id
  rw [show evaluationsAfter spec status run w0 = _ from if_pos hnext, hin.named] at hrow
  rw [hin.named]
  exact hrow.trans (row_save_evaluation_self w0 (finalEvaluation run))

/-- From then on no evaluation of the version has passed. -/
theorem Trained.rests (hin : InEvaluation cfg w0 run e spec)
    (hnext : afterTraining spec status = .evaluating) (h : Trained spec status w0 run w) :
    Rests run.id (Reevaluated run.policyVersion) (AllUnproven run.id run.policyVersion) w := by
  have hrow := h.row_evaluation hin hnext
  obtain ⟨copy, hcopy, hstatus, htraining⟩ := h.stored
  have hversion : copy.policyVersion = run.policyVersion :=
    congrArg (fun x => x.2.2.2.2.2.1) htraining.same
  refine ⟨⟨copy, hcopy, id_of_identity htraining.same,
    .inl ⟨htraining.desired, hstatus.trans hnext, hversion⟩⟩, fun e' he' hrun hpolicy => ?_⟩
  by_cases hid : e'.id = e.id
  · rw [hid] at he'
    obtain rfl : e' = finalEvaluation run := Option.some.inj (he'.symm.trans hrow)
    exact ⟨rfl, rfl⟩
  · -- another row of the version would have been the evaluation in progress
    have hother := htraining.evaluations e'.id
    rw [show evaluationsAfter spec status run w0 = _ from if_pos hnext] at hother
    have hbefore := row_save_evaluation_of_ne w0 (e := finalEvaluation run) (hin.named ▸ hid)
    have hsame := hin.indexed e' e ((hother.trans hbefore).symm.trans he') hin.evaluation
      (hrun.trans hin.owned.1.symm) (hpolicy.trans hin.owned.2.symm)
    exact absurd (congrArg RLEvaluationRecord.id hsame) hid

/-- **The round trip.**  An evaluation in progress survives it exactly if nothing of it was
recorded yet: the run was `evaluating`, its gates had not passed and its canary had not begun;
and only if the training job has succeeded and the run requires an evaluation, so that the
training path creates the evaluation again. -/
theorem round_trip_preserves_iff (hin : InEvaluation cfg w0 run e spec)
    (hstatus : jobFailed status = false)
    (h : RoundTrip cfg (trainingJob spec run) status run.id w0 w1 vs w2 ws) :
    ((∀ w ∈ w1 :: vs ++ w2 :: ws, ¬Reset e w) ∧ ∃ w ∈ ws, BackIn run.id run.status w) ↔
      run.status = .evaluating ∧ e.gatesPassed = false ∧ e.canaryState = .pending ∧
        jobSucceeded status = true ∧ spec.evaluation.required = true := by
  obtain ⟨copy, hcopy, hstarting, htraining⟩ := h.training hin
  obtain ⟨w3, ws', rfl⟩ := List.exists_cons_of_ne_nil h.passes
  obtain ⟨hpass, hlater⟩ := List.isChain_cons_cons.mp h.resumed
  have htrained : Trained spec status w0 run w3 :=
    trained_of_passOver hin hstatus rfl hpass hcopy (.inl hstarting) htraining
  rw [← afterTraining_eq_evaluating]
  by_cases hnext : afterTraining spec status = .evaluating
  · have hrow := htrained.row_evaluation hin hnext
    constructor
    · rintro ⟨hkept, w, hw, found, hfound, hback⟩
      have hreset : ¬Reset e w3 :=
        hkept w3 (List.mem_append_right _ (List.mem_cons_of_mem _ List.mem_cons_self))
      refine ⟨?_, ?_, ?_, hnext⟩
      · rcases hin.status with hevaluating | hcanary
        · exact hevaluating
        · have hrests := retested_passes hlater (htrained.rests hin hnext) w hw
          obtain ⟨stored, hstored, -, hgood⟩ := hrests.stored
          obtain rfl : found = stored := Option.some.inj (hfound.symm.trans hstored)
          exact absurd (hback.trans hcanary) hgood.status_ne_canary
      · exact Bool.eq_false_iff.mpr fun hpassed => hreset ⟨_, hrow, .inl ⟨hpassed, rfl⟩⟩
      · by_contra hbegun
        exact hreset ⟨_, hrow, .inr ⟨hbegun, rfl⟩⟩
    · rintro ⟨hevaluating, hgates, hpending, -⟩
      obtain ⟨copy3, hcopy3, hstatus3, -⟩ := htrained.stored
      refine ⟨?_, w3, List.mem_cons_self, copy3, hcopy3,
        hstatus3.trans (hnext.trans hevaluating.symm)⟩
      rintro w - ⟨stored, -, ⟨htrue, -⟩ | ⟨hne, -⟩⟩
      · exact Bool.false_ne_true (hgates.symm.trans htrue)
      · exact hne hpending
  · constructor
    · rintro ⟨-, w, hw, found, hfound, hback⟩
      obtain ⟨copy', hcopy', heq, -⟩ := (htrained.passes hin hstatus rfl hnext hlater w hw).stored
      obtain rfl : found = copy' := Option.some.inj (hfound.symm.trans hcopy')
      rcases hin.status with hevaluating | hcanary
      · exact absurd (heq.symm.trans (hback.trans hevaluating)) hnext
      · exact absurd (heq.symm.trans (hback.trans hcanary)) (afterTraining_ne_canary spec status)
    · exact fun hall => absurd hall.2.2.2 hnext

end Trips

/-! ### A round trip with one pass each -/

def observed (oracle : (op : Op) → Ans op) (name status : String) (w : World) (op : Op) :
    Option (Ans op × World) :=
  (environment oracle w op).filter fun answer => healthy name status op answer.1

def requested (oracle : (op : Op) → Ans op) (name status : String) (handler : Handler) (w : World) :
    Option World :=
  (handler.evaluate (observed oracle name status) w).map Prod.snd

def passedOver (cfg : Config) (oracle : (op : Op) → Ans op) (name status id : String) (w : World) :
    Option World :=
  (w.row .runs id).bind fun run : RLRun =>
    ((reconcileOne cfg run).evaluate (observed oracle name status) w).map Prod.snd

def roundTrip (cfg : Config) (oracle : (op : Op) → Ans op) (name status id : String) (w0 : World) :
    Option (World × World × World × World) := do
  let w1 ← requested oracle name status (rlSuspendRun id) w0
  let v ← passedOver cfg oracle name status id w1
  let w2 ← requested oracle name status (rlResumeRun id) v
  let w3 ← passedOver cfg oracle name status id w2
  return (w1, v, w2, w3)

section Samples

variable {cfg : Config} {oracle : (op : Op) → Ans op} {name status id : String}
variable {w w' w0 w1 w2 w3 v : World}

theorem observing_observed {op : Op} {ans : Ans op}
    (h : observed oracle name status w op = some (ans, w')) :
    Observing name status w op ans w' := by
  obtain ⟨hanswer, hhealthy⟩ := Option.filter_eq_some_iff.mp h
  exact ⟨exec_environment hanswer, hhealthy⟩

theorem runs_of_observed {α : Type} {p : Program α} {a : α}
    (h : p.evaluate (observed oracle name status) w = some (a, w')) :
    Prog.Runs (Observing name status) w p a w' := by
  have henv : ∀ w op ans w', observed oracle name status w op = some (ans, w') →
      Observing name status w op ans w' := fun _ _ _ _ hans => observing_observed hans
  exact Prog.runs_of_evaluate henv h

theorem asks_of_requested {handler : Handler}
    (h : requested oracle name status handler w = some w') : Asks name status handler w w' := by
  obtain ⟨⟨response, _⟩, heval, rfl⟩ := Option.map_eq_some_iff.mp h
  exact ⟨response, runs_of_observed heval⟩

theorem passOver_of_passedOver (h : passedOver cfg oracle name status id w = some w') :
    PassOver cfg name status id w w' := by
  obtain ⟨run, hrow, hpass⟩ := Option.bind_eq_some_iff.mp h
  obtain ⟨⟨⟨⟩, _⟩, heval, rfl⟩ := Option.map_eq_some_iff.mp hpass
  exact ⟨run, hrow, runs_of_observed heval⟩

theorem roundTrip_of_eq_some (h : roundTrip cfg oracle name status id w0 = some (w1, v, w2, w3)) :
    RoundTrip cfg name status id w0 w1 [v] w2 [w3] := by
  obtain ⟨_, hsuspend, h⟩ := Option.bind_eq_some_iff.mp h
  obtain ⟨_, hsuspended, h⟩ := Option.bind_eq_some_iff.mp h
  obtain ⟨_, hresume, h⟩ := Option.bind_eq_some_iff.mp h
  obtain ⟨_, hresumed, h⟩ := Option.bind_eq_some_iff.mp h
  cases h
  exact ⟨asks_of_requested hsuspend,
    .cons_cons (passOver_of_passedOver hsuspended) (.singleton _), asks_of_requested hresume,
    .cons_cons (passOver_of_passedOver hresumed) (.singleton _), List.cons_ne_nil _ _⟩

end Samples

def reviewedWorld (run : RLRun) (e : RLEvaluationRecord) : World :=
  ((Database.empty.save Table.runs run).save Table.evaluations e).save Table.attempts
    { (default : RLAttempt) with id := "attempt", runID := "run" }

theorem row_checkpoint_reviewedWorld (run : RLRun) (e : RLEvaluationRecord) (k : String)
    (c : RLCheckpointRecord) : (reviewedWorld run e).row .checkpoints k ≠ some c := by
  intro h
  have hattempt := row_save_other ((Database.empty.save Table.runs run).save Table.evaluations e)
    (t := .attempts) { (default : RLAttempt) with id := "attempt", runID := "run" }
    .checkpoints nofun k
  have hevaluation := row_save_other (Database.empty.save Table.runs run) (t := .evaluations) e
    .checkpoints nofun k
  have hrun := row_save_other Database.empty (t := .runs) run .checkpoints nofun k
  exact row_empty_ne (t := .checkpoints)
    ((hattempt.trans (hevaluation.trans hrun)).symm.trans h)

theorem verifiedSpec_acceptedRun (now : Int) :
    verifiedSpec sampleConfig now acceptedRun = .ok sampleSpec := by
  have hdecoded : sampleConfig.decodeSnapshot acceptedRun.snapshotJSON =
      .ok ⟨sampleSpec, "sha", true⟩ := rfl
  have hsound : (sampleSpec.normalize now).problems sampleConfig.codec = [] :=
    (problems_normalize _ now 0 _).trans (by decide +kernel)
  obtain ⟨spec, hspec⟩ := (verifiedSpec_ok_iff hdecoded).mpr ⟨rfl, rfl, hsound, rfl⟩
  obtain ⟨snapshot, hsnapshot, rfl⟩ := snapshotSpec_of_verifiedSpec hspec
  cases hdecoded.symm.trans hsnapshot
  exact hspec

theorem inEvaluation_reviewedWorld {run : RLRun} {e : RLEvaluationRecord}
    (hrun : identity run = identity acceptedRun)
    (hstatus : run.status = .evaluating ∨ run.status = .canary)
    (he : e.id = "eval-run-v1" ∧ e.runID = "run" ∧ e.policyVersion = "v1") :
    InEvaluation sampleConfig (reviewedWorld run e) run e sampleSpec := by
  have hversion : run.policyVersion = "v1" := congrArg (fun x => x.2.2.2.2.2.1) hrun
  have hid : run.id = "run" := id_of_identity hrun
  have hattempt : run.currentAttemptID = "attempt" := attempt_of_identity hrun
  refine ⟨?_, backend_of_identity hrun, hstatus, fun now => ?_, ?_, ?_, ?_, ?_, ?_, ?_, ?_, ?_⟩
  · exact (row_save_other _ (t := .attempts) _ .runs nofun run.id).trans
      ((row_save_other _ (t := .evaluations) e .runs nofun run.id).trans (row_save_run_self _ run))
  · exact (verifiedSpec_of_identity hrun sampleConfig now).trans (verifiedSpec_acceptedRun now)
  · exact (row_save_other _ (t := .attempts) _ .evaluations nofun e.id).trans
      (row_save_evaluation_self _ e)
  · rw [hid, hversion]
    exact he.1
  · rw [hid, hversion]
    exact he.2
  · exact fun _ _ h h' _ _ => (eq_of_row_saved h).trans (eq_of_row_saved h').symm
  · rw [hattempt]
    decide
  · rw [hattempt]
    exact ⟨_, row_save_self (t := .attempts) _ _⟩
  · exact fun hresume => absurd (checkpoint_of_identity hrun) hresume
  · exact fun _ c hc => absurd hc (row_checkpoint_reviewedWorld run e c.id c)

def sampleTrip (run : RLRun) (e : RLEvaluationRecord) : Option (World × World × World × World) :=
  roundTrip sampleConfig (jobsAre "SUCCEEDED") (trainingJob sampleSpec run) "SUCCEEDED" run.id
    (reviewedWorld run e)

theorem sampleTrip_open :
    (sampleTrip acceptedRun (finalEvaluation acceptedRun)).isSome = true := by decide +kernel

/-- An evaluation without results survives. -/
theorem round_trip_preserves_iff_open :
    ∃ w1 v w2 w3, RoundTrip sampleConfig (trainingJob sampleSpec acceptedRun) "SUCCEEDED"
        acceptedRun.id (reviewedWorld acceptedRun (finalEvaluation acceptedRun)) w1 [v] w2 [w3] ∧
      (∀ w ∈ [w1, v, w2, w3], ¬Reset (finalEvaluation acceptedRun) w) ∧
      ∃ w ∈ [w3], BackIn acceptedRun.id acceptedRun.status w := by
  obtain ⟨⟨w1, v, w2, w3⟩, htrip⟩ := Option.isSome_iff_exists.mp sampleTrip_open
  have hround := roundTrip_of_eq_some htrip
  refine ⟨w1, v, w2, w3, hround, ?_⟩
  exact (round_trip_preserves_iff (inEvaluation_reviewedWorld rfl (.inl rfl) ⟨rfl, rfl, rfl⟩) rfl
    hround).mpr ⟨rfl, rfl, rfl, rfl, rfl⟩

def canaryRun : RLRun := { acceptedRun with status := .canary }

def canaryEvaluation : RLEvaluationRecord := { acceptedEvaluation with canaryState := .running }

def resetIn (e : RLEvaluationRecord) (w : World) : Bool :=
  (w.row .evaluations e.id).any fun stored : RLEvaluationRecord =>
    stored.gatesPassed = false && stored.canaryState = .pending

theorem sampleTrip_canary : ((sampleTrip canaryRun canaryEvaluation).any fun worlds =>
    resetIn canaryEvaluation worlds.2.2.2) = true := by decide +kernel

/-- A running canary is forgotten: after the run is suspended and resumed, its evaluation is
stored as new, with gates that have not passed. -/
theorem round_trip_resets :
    ∃ w1 v w2 w3, RoundTrip sampleConfig (trainingJob sampleSpec canaryRun) "SUCCEEDED"
        canaryRun.id (reviewedWorld canaryRun canaryEvaluation) w1 [v] w2 [w3] ∧
      InEvaluation sampleConfig (reviewedWorld canaryRun canaryEvaluation) canaryRun
        canaryEvaluation sampleSpec ∧
      Reset canaryEvaluation w3 := by
  obtain ⟨⟨w1, v, w2, w3⟩, htrip, hreset⟩ := (Option.any_eq_true _ _).mp sampleTrip_canary
  obtain ⟨stored, hstored, hinitial⟩ := (Option.any_eq_true _ _).mp hreset
  simp only [Bool.and_eq_true, decide_eq_true_eq] at hinitial
  exact ⟨w1, v, w2, w3, roundTrip_of_eq_some htrip,
    inEvaluation_reviewedWorld rfl (.inr rfl) ⟨rfl, rfl, rfl⟩, stored, hstored,
    .inl ⟨rfl, hinitial.1⟩⟩

end RL
end Skyscale
