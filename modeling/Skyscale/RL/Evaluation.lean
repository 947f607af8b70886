import Skyscale.RL.History

/-!
# Runs under evaluation

A pass over a run with status `evaluating` or `canary` looks up the evaluation of the
run's policy version and the run's attempt.  Status and version are written by different
programs: a commit between two evaluations, an acknowledgement and a rollback move the
version alone, and the lookup then finds nothing (`evaluation_missing`).
`evaluation_present` says that these requests are the only ones that can do so.

* `Sound` says how evaluations are named; with it no evaluation is ever overwritten by
  that of another version (`Evaluated.effect`).
* `Attended` is the invariant of the runs under evaluation.
* `ErrorFree` are the passes in which every call of `Reconcile` succeeds.
-/

namespace Skyscale
namespace RL

open Lib State Control K8s Contracts

/-! ## Names of evaluations -/

/-- The evaluation is named after its run and version, and the run has a generated name. -/
structure WellNamed (e : RLEvaluationRecord) : Prop where
  id : e.id = "eval-" ++ e.runID ++ "-" ++ e.policyVersion
  runID : e.runID.length = 15

/-- Generated names of runs have one length, so the name of an evaluation determines its
run and version. -/
theorem WellNamed.unique {e e' : RLEvaluationRecord} (h : WellNamed e) (h' : WellNamed e')
    (hid : e.id = e'.id) : e.runID = e'.runID ∧ e.policyVersion = e'.policyVersion := by
  have hlist : ("eval-" ++ e.runID ++ "-" ++ e.policyVersion).toList =
      ("eval-" ++ e'.runID ++ "-" ++ e'.policyVersion).toList := by
    rw [← h.id, ← h'.id, hid]
  simp only [String.toList_append, List.append_assoc] at hlist
  have hlength : e.runID.toList.length = e'.runID.toList.length := by
    rw [String.length_toList, String.length_toList, h.runID, h'.runID]
  obtain ⟨hrun, hrest⟩ := List.append_inj (List.append_cancel_left hlist) hlength
  exact ⟨String.toList_inj.mp hrun, String.toList_inj.mp (List.append_cancel_left hrest)⟩

/-- The names in the database: slime runs have generated names, other runs have no
attempts, and evaluations are well named. -/
structure Sound (w : World) : Prop where
  slime : ∀ (id : String) (run : RLRun), w.row .runs id = some run → run.backend = .slime →
    run.id.length = 15
  plain : ∀ (id : String) (run : RLRun), w.row .runs id = some run → run.backend ≠ .slime →
    run.currentAttemptID = ""
  evaluations : ∀ (id : String) (e : RLEvaluationRecord), w.row .evaluations id = some e →
    WellNamed e

section Names

variable {strict : Bool} {cfg : Config} {request : Request} {L0 L : Ledger} {w : World}
  {stored run : RLRun}

theorem Asked.currentAttemptID (h : Asked cfg request w stored run) :
    run.currentAttemptID = stored.currentAttemptID := by
  cases h with
  | same h | cancelled _ _ h | suspended _ _ _ h | resumed _ _ _ h | activated _ _ _ h
  | rolledBack _ _ _ h | committed _ _ _ _ h | scheduled _ _ _ _ _ h | progressed _ _ _ h =>
    exact congrArg Core.currentAttemptID h

theorem Commits.attempt_ne {body : CheckpointBody} (h : Commits request run body) :
    run.currentAttemptID ≠ "" := by
  have hcomplete := h.complete
  unfold CheckpointBody.complete at hcomplete
  rw [← h.attempt]
  simp only [Bool.and_eq_true, decide_eq_true_eq] at hcomplete
  exact hcomplete.1.1.1.1

theorem judged_names (e : RLEvaluationRecord) (body : EvaluateBody) (gates : Except String Unit) :
    (judged e body gates).id = e.id ∧ (judged e body gates).runID = e.runID ∧
      (judged e body gates).policyVersion = e.policyVersion := by
  unfold judged
  dsimp only
  split <;> split <;> exact ⟨rfl, rfl, rfl⟩

theorem WellNamed.congr {e e' : RLEvaluationRecord} (h : WellNamed e) (hid : e'.id = e.id)
    (hrun : e'.runID = e.runID) (hversion : e'.policyVersion = e.policyVersion) : WellNamed e' :=
  ⟨by rw [hid, hrun, hversion]; exact h.id, by rw [hrun]; exact h.runID⟩

theorem Sound.slime_of_commits {body : CheckpointBody} (h : Sound L.world)
    (hstored : L.world.row .runs stored.id = some stored) (hcommit : Commits request stored body) :
    stored.backend = .slime := by
  by_contra hbackend
  exact hcommit.attempt_ne (h.plain stored.id stored hstored hbackend)

theorem Sound.wellNamed {e : RLEvaluationRecord} (h : Sound L.world)
    (hwrite : EvaluationWrite cfg request L0 L e) : WellNamed e := by
  cases hwrite with
  | schedule _ hstored hcommit _ =>
    exact ⟨rfl, h.slime _ _ hstored (h.slime_of_commits hstored hcommit)⟩
  | finish _ hstored hslime _ _ hcore =>
    refine ⟨rfl, ?_⟩
    rw [show (finalEvaluation _).runID = _ from congrArg Core.id hcore]
    exact h.slime _ _ hstored hslime
  | judge _ _ _ _ he _ =>
    obtain ⟨hid, hrun, hversion⟩ := judged_names _ _ _
    exact (h.evaluations _ _ he).congr hid hrun hversion
  | review _ _ he _ _ hreviewed =>
    exact (h.evaluations _ _ he).congr hreviewed.id hreviewed.runID hreviewed.policyVersion

theorem Rewritten.plain_attempt (h : Rewritten strict cfg request L0 L stored run)
    (hbackend : stored.backend ≠ .slime) : run.currentAttemptID = stored.currentAttemptID := by
  cases h with
  | kept h => rw [h]
  | plain _ _ _ h => exact congrArg Core.currentAttemptID h
  | ask _ h => exact h.currentAttemptID
  | reconcile _ hslime _ _ _ => exact absurd hslime hbackend

/-- Names stay sound. -/
theorem Sound.effect (h : Sound L.world) (heffect : Effect strict cfg request L0 L w) :
    Sound w where
  slime id run hrun hslime := by
    rcases heffect.row_of_run hrun with ⟨stored, hstored, hrewritten⟩ | ⟨_, hcreated⟩
    · rw [id_eq_of_fixed hrewritten.fixed]
      exact h.slime id stored hstored ((backend_eq_of_fixed hrewritten.fixed).symm.trans hslime)
    · cases hcreated with
      | slime _ hadmitted =>
        have hgenerated := hadmitted.columns.2.2.2.2.2
        unfold generatedRunID at hgenerated
        rw [Bool.and_eq_true, decide_eq_true_eq] at hgenerated
        exact hgenerated.1
      | plain hbackend _ _ =>
        rw [hbackend] at hslime
        cases hslime
  plain id run hrun hbackend := by
    rcases heffect.row_of_run hrun with ⟨stored, hstored, hrewritten⟩ | ⟨_, hcreated⟩
    · have hstoredBackend : stored.backend ≠ .slime := fun hslime =>
        hbackend ((backend_eq_of_fixed hrewritten.fixed).trans hslime)
      rw [hrewritten.plain_attempt hstoredBackend]
      exact h.plain id stored hstored hstoredBackend
    · cases hcreated with
      | slime _ hadmitted => exact hadmitted.columns.2.2.1
      | plain _ hattempt _ => exact hattempt
  evaluations id e he := by
    rcases heffect.row_of_evaluation he with hold | hwrite
    · exact h.evaluations id e hold
    · exact h.wellNamed hwrite

theorem Evaluated.effect {runID version : String} (h : Evaluated L.world runID version)
    (hsound : Sound L.world) (heffect : Effect strict cfg request L0 L w) :
    Evaluated w runID version := by
  obtain ⟨e, he, rfl, rfl⟩ := h
  obtain ⟨e', he', hcase⟩ := heffect.evaluation_of_row he
  rcases hcase with rfl | ⟨hid, _⟩
  · exact ⟨e', he', rfl, rfl⟩
  · obtain ⟨hrun, hversion⟩ :=
      ((hsound.effect heffect).evaluations _ _ he').unique (hsound.evaluations _ _ he) hid
    exact ⟨e', by rw [hid]; exact he', hrun, hversion⟩

end Names

/-! ## The invariant -/

/-- The columns of a run under evaluation fit the database. -/
def Core.Attended (w : World) (c : Core) : Prop :=
  c.status = .evaluating ∨ c.status = .canary →
    Evaluated w c.id c.policyVersion ∧ c.currentAttemptID ≠ ""

/-- Every slime run under evaluation has its evaluation, and attempts of slime runs are
stored. -/
structure Attended (w : World) : Prop where
  attempts : ∀ (id : String) (run : RLRun), w.row .runs id = some run → run.backend = .slime →
    run.currentAttemptID ≠ "" → ∃ a : RLAttempt, w.row .attempts run.currentAttemptID = some a
  runs : ∀ (id : String) (run : RLRun), w.row .runs id = some run → run.backend = .slime →
    (core run).Attended w

/-- The request moves a run under evaluation to a version without evaluation: an
acknowledgement, a rollback, or a commit between two evaluations. -/
inductive Misdirects (cfg : Config) (w : World) (request : Request) (run : RLRun) : Prop
  | acknowledge (version : String) (body : AcknowledgeBody)
      (hrequest : request = .acknowledgeWeights version (some body)) (hbody : body.runID = run.id)
      (h : ¬Evaluated w run.id version)
  | rollback (body : RollbackBody) (hrequest : request = .rollbackWeights (some body))
      (hbody : body.runID = run.id)
  | commit (body : CheckpointBody) (hcommit : Commits request run body)
      (hperiodic : periodicEvaluation cfg run body.optimizerStep = false)
      (h : ¬Evaluated w run.id body.policyVersion)

/-- No run under evaluation is moved to a version without evaluation. -/
def Directed (cfg : Config) (w : World) (request : Request) : Prop :=
  ∀ run : RLRun, w.row .runs run.id = some run →
    run.status = .evaluating ∨ run.status = .canary → ¬Misdirects cfg w request run

section Invariant

variable {cfg : Config} {request : Request} {L0 L : Ledger} {w : World} {stored run : RLRun}

theorem Core.attended_of_status {c : Core} (hevaluating : c.status ≠ .evaluating)
    (hcanary : c.status ≠ .canary) : c.Attended w :=
  fun h => h.elim (fun h => absurd h hevaluating) fun h => absurd h hcanary

theorem Core.Attended.effect {strict : Bool} {c : Core} (h : c.Attended L.world)
    (hsound : Sound L.world) (heffect : Effect strict cfg request L0 L w) : c.Attended w :=
  fun hstatus => ⟨(h hstatus).1.effect hsound heffect, (h hstatus).2⟩

/-- A change a request asks for keeps the run attended, unless the request misdirects
it. -/
theorem Asked.attended (h : Asked cfg request L.world stored run)
    (hattended : (core stored).Attended L.world)
    (hdirected : stored.status = .evaluating ∨ stored.status = .canary →
      ¬Misdirects cfg L0.world request stored)
    (hgrow : ∀ runID version, Evaluated L0.world runID version → Evaluated L.world runID version) :
    (core run).Attended L.world := by
  cases h with
  | same h => rwa [h]
  | cancelled _ _ h | resumed _ _ _ h =>
    rw [h]
    exact Core.attended_of_status (fun h => by cases h) (fun h => by cases h)
  | suspended _ _ _ h | progressed _ _ _ h =>
    rw [h]
    exact hattended
  | activated body hrequest hbody h =>
    rw [h]
    intro hstatus
    refine ⟨hgrow _ _ ?_, (hattended hstatus).2⟩
    by_contra hmissing
    exact hdirected hstatus (.acknowledge run.policyVersion body hrequest hbody hmissing)
  | rolledBack body hrequest hbody h =>
    rw [h]
    intro hstatus
    exact absurd (.rollback body hrequest hbody) (hdirected hstatus)
  | committed body hcommit hperiodic _ h =>
    rw [h]
    intro hstatus
    refine ⟨hgrow _ _ ?_, (hattended hstatus).2⟩
    by_contra hmissing
    exact hdirected hstatus (.commit body hcommit hperiodic hmissing)
  | scheduled body hcommit _ hevaluated _ h =>
    rw [h]
    exact fun _ => ⟨hevaluated, hcommit.attempt_ne⟩

theorem Reconciled.attended (h : Reconciled cfg L0 L stored (core run))
    (hattended : (core stored).Attended L.world) : (core run).Attended L.world := by
  -- a run in training is not under evaluation
  have htraining : training stored.status = true →
      stored.status ≠ .evaluating ∧ stored.status ≠ .canary := by
    intro h
    simp only [training, Bool.and_eq_true, decide_eq_true_eq] at h
    exact ⟨h.1.2, h.2⟩
  cases h with
  | same h => rwa [h]
  | cancelling h | cancelled _ h | suspended _ h | running _ h | completed _ h | failed _ h
  | retried _ h | attempted _ _ h =>
    rw [h]
    exact Core.attended_of_status (fun h => by cases h) (fun h => by cases h)
  | adopted hstatus _ _ _ h =>
    rw [h]
    exact Core.attended_of_status (htraining hstatus).1 (htraining hstatus).2
  | evaluating _ hattempt hevaluated h =>
    rw [h]
    exact fun _ => ⟨hevaluated, hattempt⟩
  | canary hstatus _ _ h =>
    rw [h]
    exact fun _ => hattended (.inl hstatus)
  | rolledBack _ final h | promoted _ final h =>
    rw [h]
    cases final with
    | false | true => exact Core.attended_of_status (fun h => by cases h) (fun h => by cases h)

/-- One operation keeps the runs attended. -/
theorem Attended.effect (h : Attended L.world) (hsound : Sound L.world)
    (hdirected : Directed cfg L0.world request)
    (hgrow : ∀ runID version, Evaluated L0.world runID version → Evaluated L.world runID version)
    (heffect : Effect true cfg request L0 L w) : Attended w where
  attempts id run hrun hslime hattempt := by
    rcases heffect.row_of_run hrun with ⟨stored, hstored, hrewritten⟩ | ⟨_, hcreated⟩
    · have hstoredSlime := (backend_eq_of_fixed hrewritten.fixed).symm.trans hslime
      have hsame : run.currentAttemptID = stored.currentAttemptID →
          ∃ a : RLAttempt, w.row .attempts run.currentAttemptID = some a := by
        intro heq
        rw [heq] at hattempt ⊢
        obtain ⟨a, ha⟩ := h.attempts id stored hstored hstoredSlime hattempt
        exact heffect.attempts ha
      cases hrewritten with
      | kept h => exact hsame (by rw [h])
      | plain hbackend _ _ _ => exact absurd hstoredSlime hbackend
      | ask _ h => exact hsame h.currentAttemptID
      | reconcile _ _ _ _ hwritten =>
        rcases hwritten rfl with heq | hnone | ⟨a, ha⟩
        · exact hsame heq
        · exact absurd hnone hattempt
        · exact heffect.attempts ha
    · cases hcreated with
      | slime _ hadmitted => exact absurd hadmitted.columns.2.2.1 hattempt
      | plain _ hnone _ => exact absurd hnone hattempt
  runs id run hrun hslime := by
    rcases heffect.row_of_run hrun with ⟨stored, hstored, hrewritten⟩ | ⟨_, hcreated⟩
    · have hstoredSlime := (backend_eq_of_fixed hrewritten.fixed).symm.trans hslime
      have hattended := h.runs id stored hstored hstoredSlime
      refine Core.Attended.effect ?_ hsound heffect
      cases hrewritten with
      | kept h => rwa [h]
      | plain hbackend _ _ _ => exact absurd hstoredSlime hbackend
      | ask horigin h => exact h.attended hattended (hdirected stored horigin) hgrow
      | reconcile _ _ _ h _ => exact h.attended hattended
    · cases hcreated with
      | slime _ hadmitted =>
        have hstatus : (core run).status = .starting := hadmitted.columns.2.1
        refine Core.attended_of_status ?_ ?_
        · rw [hstatus]
          nofun
        · rw [hstatus]
          nofun
      | plain hbackend _ _ =>
        rw [hbackend] at hslime
        cases hslime

end Invariant

/-! ## Passes without errors -/

/-- The body of the loop of `ReconcileAll`, with the result of its call. -/
def reconcileResult (cfg : Config) (run : RLRun) : Program (Except String Unit) :=
  if run.backend ≠ .slime ∨ terminal run.status = true then
    return .ok ()
  else
    reconcileRecording cfg run

/-- The loop, with the results. -/
def reconcileResults (cfg : Config) : List RLRun → Program (List (Except String Unit))
  | [] => return []
  | run :: runs => do
    let result ← reconcileResult cfg run
    let results ← reconcileResults cfg runs
    return result :: results

/-- `ReconcileAll`, with the results of its calls. -/
def reconcileAllResults (cfg : Config) : Program (Except Failure (List (Except String Unit))) := do
  match ← listRLRuns with
  | .error e => return .error e
  | .ok runs => do
    let results ← reconcileResults cfg runs
    return .ok results

/-- A pass in which the runs are listed and every call of `Reconcile` succeeds. -/
def ErrorFree (cfg : Config) (L L' : Ledger) : Prop :=
  ∃ results, Prog.Runs Ledger.Records (L.receive .reconcilePass) (reconcileAllResults cfg)
    (.ok results) L' ∧ ∀ result ∈ results, result = .ok ()

section Passes

variable {cfg : Config} {L0 L L' : Ledger}

/-- The calls of a pass without errors keep what lawful operations keep. -/
theorem reconcileResults_invariant {I : Ledger → Prop}
    (hstep : ∀ L1 op ans L2, I L1 → Lawful true cfg .reconcilePass L0 L1 op →
      L1.Records op ans L2 → I L2)
    {runs : List RLRun} {results : List (Except String Unit)}
    (h : Prog.Runs Ledger.Records L (reconcileResults cfg runs) results L')
    (hresults : ∀ result ∈ results, result = .ok ()) (hdistinct : (runs.map (·.id)).Nodup)
    (hwaiting : ∀ run ∈ runs, Waiting L0 L run)
    (hcheckpoints : L.world.table .checkpoints = L0.world.table .checkpoints) (hI : I L) :
    I L' := by
  induction runs generalizing L results with
  | nil =>
    cases h
    exact hI
  | cons run runs ih =>
    obtain ⟨hnew, hdistinct⟩ := List.nodup_cons.mp hdistinct
    rw [reconcileResults] at h
    obtain ⟨result, L1, hfirst, hrest⟩ := Prog.Runs.of_bind h
    obtain ⟨results', L2, hloop, hlast⟩ := Prog.Runs.of_bind hrest
    cases hlast
    obtain ⟨hresult, hresults'⟩ := List.forall_mem_cons.mp hresults
    suffices hpass : I L1 ∧ Spared L0 L run L1 from
      ih hloop hresults' hdistinct (hpass.2.waiting hwaiting hnew) hpass.2.checkpoints hpass.1
    unfold reconcileResult at hfirst
    split at hfirst
    · cases hfirst
      exact ⟨hI, fun _ _ => rfl, hcheckpoints⟩
    · rename_i hskip
      obtain ⟨hslime, hlive⟩ := not_or.mp hskip
      have hdue : Due cfg L0 L L run run run :=
        (hwaiting run List.mem_cons_self).due (not_not.mp hslime)
          (Bool.eq_false_of_not_eq_true hlive) hcheckpoints
      obtain ⟨⟨verdict, copy⟩, L3, hpass, hrecord⟩ := Prog.Runs.of_bind hfirst
      cases verdict with
      | ok _ =>
        cases hrecord
        obtain ⟨hinvariant, stored, hholding⟩ := hpass.checked hstep (at_pass hdue) hI
        exact ⟨hinvariant, hholding.spared⟩
      | error text =>
        -- after an error the result of the call is the error
        obtain ⟨_, _, _, hreturn⟩ := Prog.Runs.of_bind hrecord
        cases hreturn
        cases hresult

theorem ErrorFree.invariant {I : Ledger → Prop} (h : ErrorFree cfg L L')
    (hstart : I (L.receive .reconcilePass))
    (hstep : ∀ L1 op ans L2, I L1 →
      Lawful true cfg .reconcilePass (L.receive .reconcilePass) L1 op →
      L1.Records op ans L2 → I L2) : I L' := by
  obtain ⟨results, hruns, hresults⟩ := h
  obtain ⟨listed, L1, hlist, hrest⟩ := Prog.Runs.of_bind hruns
  cases hlist with
  | call hrec hret =>
    cases hret
    have hext := extends_of_plain hrec trivial
    cases listed with
    | error e => cases hrest
    | ok runs =>
      obtain ⟨results', L2, hloop, hlast⟩ := Prog.Runs.of_bind hrest
      cases hlast
      obtain ⟨-, hlists⟩ := hrec.1
      have hlisted : I L1 := by
        refine hstep _ _ _ _ hstart (.plain ?_) hrec
        trivial
      refine reconcileResults_invariant hstep hloop hresults hlists.nodup_keys
        (fun run hrun => ?_) (hext.table .checkpoints rfl nofun) hlisted
      have hrow := (hlists.row_eq hrun).1
      exact ⟨(hext.runs run.id).trans hrow, hrow⟩

end Passes

/-! ## Whole requests -/

/-- A whole handler call, or a pass without errors. -/
inductive Orderly (cfg : Config) (L : Ledger) : Exchange → Ledger → Prop
  | handler {exchange : Exchange} {L' : Ledger} (hrequest : exchange.request ≠ .reconcilePass)
      (h : Serves cfg L exchange L') : Orderly cfg L exchange L'
  | pass {L' : Ledger} (h : ErrorFree cfg L L') : Orderly cfg L ⟨.reconcilePass, none⟩ L'

section Requests

variable {cfg : Config} {L L' : Ledger} {exchange : Exchange}

theorem runs_forEach_reconcileOne {runs : List RLRun} {results : List (Except String Unit)}
    (h : Prog.Runs Ledger.Records L (reconcileResults cfg runs) results L') :
    Prog.Runs Ledger.Records L (Prog.forEach (reconcileOne cfg) runs) () L' := by
  induction runs generalizing L results with
  | nil =>
    cases h
    exact .ret _ _
  | cons run runs ih =>
    rw [reconcileResults] at h
    obtain ⟨result, L1, hfirst, hrest⟩ := Prog.Runs.of_bind h
    obtain ⟨results', L2, hloop, hlast⟩ := Prog.Runs.of_bind hrest
    cases hlast
    refine Prog.Runs.bind (a := ()) ?_ (ih hloop)
    unfold reconcileResult at hfirst
    unfold reconcileOne
    split at hfirst
    · rename_i hskip
      cases hfirst
      rw [if_pos hskip]
      exact .ret _ _
    · rename_i hskip
      rw [if_neg hskip]
      exact hfirst.bind (.ret _ _)

/-- A pass without errors is a pass of `ReconcileAll`. -/
theorem Orderly.serves (h : Orderly cfg L exchange L') : Serves cfg L exchange L' := by
  cases h with
  | handler _ h => exact h
  | pass h =>
    obtain ⟨results, hruns, -⟩ := h
    obtain ⟨listed, L1, hlist, hrest⟩ := Prog.Runs.of_bind hruns
    cases listed with
    | error e => cases hrest
    | ok runs =>
      obtain ⟨results', L2, hloop, hlast⟩ := Prog.Runs.of_bind hrest
      cases hlast
      exact Prog.Runs.bind (hlist.bind (runs_forEach_reconcileOne hloop)) (.ret _ _)

theorem Orderly.preserves {I : World → Prop} (h : Orderly cfg L exchange L') (hstart : I L.world)
    (hstep : ∀ L1 w, I L1.world →
      Effect true cfg exchange.request (L.receive exchange.request) L1 w → I w) : I L'.world := by
  cases h with
  | handler hrequest h =>
    exact serves_invariant (I := fun L => I L.world) h hstart fun L1 _ _ L2 hI hop hrec =>
      hstep L1 L2.world hI ((hop.congr fun hpass => absurd hpass hrequest).effect hrec)
  | pass h =>
    exact h.invariant (I := fun L => I L.world) hstart fun L1 _ _ L2 hI hop hrec =>
      hstep L1 L2.world hI (hop.effect hrec)

end Requests

theorem sound_initial : Sound Ledger.initial.world where
  slime _ _ h := absurd h row_empty_ne
  plain _ _ h := absurd h row_empty_ne
  evaluations _ _ h := absurd h row_empty_ne

theorem attended_initial : Attended Ledger.initial.world where
  attempts _ _ h := absurd h row_empty_ne
  runs _ _ h := absurd h row_empty_ne

theorem evaluated_iff {w : World} {runID version : String} :
    Evaluated w runID version ↔ w.matching .evaluations (fun e : RLEvaluationRecord =>
      e.runID = runID && e.policyVersion = version) ≠ [] := by
  rw [Ne, List.eq_nil_iff_forall_not_mem, not_forall]
  refine exists_congr fun e => ?_
  rw [not_not]
  refine Iff.trans ?_ (Database.mem_matching_iff (S := schema) (t := Table.evaluations)).symm
  refine and_congr Iff.rfl ?_
  simp

instance (w : World) (runID version : String) : Decidable (Evaluated w runID version) :=
  decidable_of_iff _ evaluated_iff.symm

/-- The run has its evaluation and its attempt, and the lookups of a pass find them. -/
structure Reviewable (w : World) (run : RLRun) : Prop where
  evaluated : Evaluated w run.id run.policyVersion
  attempt : ∃ a : RLAttempt, w.row .attempts run.currentAttemptID = some a
  evaluationFound : ∀ w', ¬Prog.Runs exec w (getRLEvaluation run.id run.policyVersion)
    (.error .notFound) w'
  attemptFound : ∀ w', ¬Prog.Runs exec w (getRLAttempt run.currentAttemptID) (.error .notFound) w'

theorem reviewable_of_stored {w : World} {run : RLRun}
    (hevaluated : Evaluated w run.id run.policyVersion)
    (hattempt : ∃ a : RLAttempt, w.row .attempts run.currentAttemptID = some a) :
    Reviewable w run where
  evaluated := hevaluated
  attempt := hattempt
  evaluationFound w' hruns := by
    cases hruns with
    | call hexec hret =>
      cases hret
      exact evaluated_iff.mp hevaluated hexec.2
  attemptFound w' hruns := by
    cases hruns with
    | call hexec hret =>
      cases hret
      obtain ⟨a, ha⟩ := hattempt
      have hid : a.id = run.currentAttemptID := w.keyed Table.attempts _ a ha
      have hmem : a ∈ w.matching .attempts
          (fun attempt : RLAttempt => attempt.id = run.currentAttemptID) := by
        refine (Database.mem_matching_iff (S := schema) (t := Table.attempts)).mpr ⟨?_, ?_⟩
        · exact (congrArg (w.row .attempts) hid).trans ha
        · exact decide_eq_true hid
      exact List.ne_nil_of_mem hmem hexec.2

/-- While no slime run under evaluation is moved to a version without evaluation, all of
them have their evaluations and attempts. -/
theorem evaluation_present (cfg : Config) {L : Ledger} {exchanges : List Exchange}
    (hrun : Run (Guarded (Orderly cfg) fun L exchange => Directed cfg L.world exchange.request)
      Ledger.initial exchanges L) (run : RLRun) (hrow : L.world.row .runs run.id = some run)
    (hslime : run.backend = .slime) (hstatus : run.status = .evaluating ∨ run.status = .canary) :
    Reviewable L.world run := by
  have hinvariant : Sound L.world ∧ Attended L.world := by
    refine hrun.invariant (I := fun L => Sound L.world ∧ Attended L.world) ?_ ?_
    · exact ⟨sound_initial, attended_initial⟩
    · rintro L exchange L' ⟨hsound, hattended⟩ ⟨hserves, hdirected⟩
      -- evaluations that exist when the request comes in exist until it is served
      have hdirected0 : Directed cfg (L.receive exchange.request).world exchange.request :=
        hdirected
      have hserved := hserves.preserves (I := fun w => Sound w ∧ Attended w ∧ ∀ runID version,
          Evaluated (L.receive exchange.request).world runID version → Evaluated w runID version)
        ⟨hsound, hattended, fun _ _ h => h⟩
        fun L1 w ⟨hsound1, hattended1, hgrow⟩ heffect =>
          ⟨hsound1.effect heffect, hattended1.effect hsound1 hdirected0 hgrow heffect,
            fun runID version h => (hgrow runID version h).effect hsound1 heffect⟩
      exact ⟨hserved.1, hserved.2.1⟩
  obtain ⟨hevaluated, hattempt⟩ := hinvariant.2.runs run.id run hrow hslime hstatus
  exact reviewable_of_stored hevaluated (hinvariant.2.attempts run.id run hrow hslime hattempt)

/-! ## Computed histories -/

def serveOrderly (cfg : Config) (L : Ledger) (visit : Visit) : Option (Exchange × Ledger) :=
  match visit.request with
  | .reconcilePass =>
    match (reconcileAllResults cfg).evaluate (Ledger.environment visit.oracle)
        (L.receive .reconcilePass) with
    | some (.ok results, L') =>
      if ∀ result ∈ results, result.isOk = true then some (⟨.reconcilePass, none⟩, L') else none
    | _ => none
  | _ => serve cfg L visit

theorem orderly_of_serveOrderly {cfg : Config} {L L' : Ledger} {visit : Visit}
    {exchange : Exchange} (h : serveOrderly cfg L visit = some (exchange, L')) :
    Orderly cfg L exchange L' := by
  unfold serveOrderly at h
  split at h
  · split at h
    · rename_i results L1 heval
      split at h
      · rename_i hok
        cases h
        have henv : ∀ L op ans L', Ledger.environment visit.oracle L op = some (ans, L') →
            L.Records op ans L' := fun _ _ _ _ h => Ledger.records_environment h
        refine .pass ⟨results, Prog.runs_of_evaluate henv heval, fun result hmem => ?_⟩
        have hresult := hok result hmem
        cases result with
        | ok _ => rfl
        | error _ => cases hresult
      · cases h
    · cases h
  · rename_i hrequest
    refine .handler (fun hpass => ?_) (serves_of_serve h)
    exact hrequest ((request_of_serve h).symm.trans hpass)

def serveAllOrderly (cfg : Config) (L : Ledger) (visits : List Visit) : List Exchange × Ledger :=
  play (serveOrderly cfg) L visits

theorem run_serveAllOrderly (cfg : Config) (L : Ledger) (visits : List Visit) :
    Run (Orderly cfg) L (serveAllOrderly cfg L visits).1 (serveAllOrderly cfg L visits).2 := by
  have hserve : ∀ L visit exchange L', serveOrderly cfg L visit = some (exchange, L') →
      Orderly cfg L exchange L' := fun _ _ _ _ h => orderly_of_serveOrderly h
  exact run_play hserve L visits

def sampleLedger (visits : List Visit) : Ledger :=
  (serveAllOrderly sampleConfig Ledger.initial visits).2

def onPeriod : Request → Bool
  | .acknowledgeWeights _ _ => false
  | .rollbackWeights _ => false
  | .commitCheckpoint _ (some body) => 0 < body.optimizerStep && body.optimizerStep % 5 = 0
  | _ => true

theorem directed_of_onPeriod {w : World} {request : Request} (h : onPeriod request = true) :
    Directed sampleConfig w request := by
  rintro run _ _ (⟨_, _, hrequest, _, _⟩ | ⟨_, hrequest, _⟩ | ⟨body, hcommit, hperiodic, _⟩)
  · rw [hrequest] at h
    cases h
  · rw [hrequest] at h
    cases h
  · rw [hcommit.request] at h
    have heq : periodicEvaluation sampleConfig run body.optimizerStep =
        onPeriod (.commitCheckpoint run.id (some body)) := rfl
    rw [heq, h] at hperiodic
    cases hperiodic

def periodicHistory : List Visit := sampleStarted ++ [sampleCommit 5 "v1", sampleCommit 10 "v2"]

theorem evaluation_present_periodicHistory :
    ∃ run : RLRun, (sampleLedger periodicHistory).world.row .runs run.id = some run ∧
      run.status = .evaluating ∧ Reviewable (sampleLedger periodicHistory).world run := by
  have hrun := (run_serveAllOrderly sampleConfig Ledger.initial periodicHistory).guarded_of_labels
    (P := fun exchange => onPeriod exchange.request = true) (by decide +kernel)
  have hstatus : ((sampleLedger periodicHistory).world.row .runs sampleID).map
      (fun run : RLRun => (run.id, run.backend, run.status)) =
        some (sampleID, .slime, .evaluating) := by
    decide +kernel
  obtain ⟨run, hrow, hcolumns⟩ := Option.map_eq_some_iff.mp hstatus
  simp only [Prod.mk.injEq] at hcolumns
  obtain ⟨hid, hslime, hevaluating⟩ := hcolumns
  rw [← hid] at hrow
  refine ⟨run, hrow, hevaluating,
    evaluation_present sampleConfig (hrun.mono ?_) run hrow hslime (.inl hevaluating)⟩
  exact fun L exchange L' h => ⟨h.1, directed_of_onPeriod h.2⟩

/-- A commit between two evaluations leaves the run under evaluation without an
evaluation of its version. -/
theorem evaluation_missing :
    ∃ exchanges L, Run (Orderly sampleConfig) Ledger.initial exchanges L ∧
      ∃ run : RLRun, L.world.row .runs run.id = some run ∧ run.backend = .slime ∧
        run.status = .evaluating ∧ ¬Evaluated L.world run.id run.policyVersion := by
  refine ⟨_, _, run_serveAllOrderly sampleConfig Ledger.initial
    (sampleStarted ++ [sampleCommit 5 "v1", sampleCommit 6 "v2"]), ?_⟩
  have hcolumns : ((sampleLedger (sampleStarted ++ [sampleCommit 5 "v1", sampleCommit 6 "v2"]))
      |>.world.row .runs sampleID).map
        (fun run : RLRun => (run.id, run.backend, run.status, run.policyVersion)) =
      some (sampleID, .slime, .evaluating, "v2") := by
    decide +kernel
  obtain ⟨run, hrow, hcolumns⟩ := Option.map_eq_some_iff.mp hcolumns
  simp only [Prod.mk.injEq] at hcolumns
  obtain ⟨hid, hslime, hevaluating, hversion⟩ := hcolumns
  refine ⟨run, by rw [hid]; exact hrow, hslime, hevaluating, ?_⟩
  rw [hid, hversion]
  decide +kernel

end RL
end Skyscale
