import Skyscale.Lib.Log
import Skyscale.RL.Evaluation

/-!
# Promotions

A pass promotes the version of a run in `canary` whose record says that the canary passed.
The version is one column that five handlers write, and the record is the one of whatever
version it names at that moment.  If the column moves during a canary, or if a canary
report arrives before the canary, a version is promoted that never passed its gates
(`promotion_unjustified`).

`Unmixed` excludes these requests.  `promotion_justified` says that then, at every
promotion, the version's record has passed its gates, and the log holds, in this order, an
evaluation report that satisfies every gate, the start of the canary, and a canary report
that satisfies every gate.

The invariant is `Vetting`: what the flags of the records and the status `canary` say
about the log.  The start of a canary refers to the database at that moment, so the
invariant also holds for every earlier entry of the log.
-/

namespace Skyscale
namespace RL

open Lib State Control K8s Contracts

/-! ## Entries of the log -/

/-- The metrics satisfy every gate of the snapshot. -/
def GatesSatisfied (cfg : Config) (json : String) (metrics : FinMap String Rat) : Prop :=
  ∃ snapshot, cfg.decodeSnapshot json = .ok snapshot ∧
    evaluateGates metrics snapshot.spec.evaluation.gates = .ok ()

/-- An evaluation report for the version that satisfies every gate. -/
def EvaluationPassed (cfg : Config) (id json version : String) (entry : Entry) : Prop :=
  ∃ body : EvaluateBody, entry = .request (.evaluateWeights id version (some body)) ∧
    body.phase ≠ "canary" ∧ GatesSatisfied cfg json body.metrics

/-- The canary deployment of the version is applied. -/
def CanaryStarted (cfg : Config) (json version : String) (entry : Entry) : Prop :=
  ∃ w snapshot replicas applied, cfg.decodeSnapshot json = .ok snapshot ∧
    entry = canaryApplied w snapshot.spec version replicas applied

/-- A canary report for the version that satisfies every gate. -/
def CanaryPassed (cfg : Config) (id json version : String) (entry : Entry) : Prop :=
  ∃ body : EvaluateBody, entry = .request (.evaluateWeights id version (some body)) ∧
    body.phase = "canary" ∧ GatesSatisfied cfg json body.metrics

/-- The canary was started after a passed evaluation. -/
def StartedInOrder (cfg : Config) (id json version : String) (log : List Entry) : Prop :=
  InOrder [EvaluationPassed cfg id json version, CanaryStarted cfg json version] log

/-- The canary passed after it was started after a passed evaluation. -/
def PassedInOrder (cfg : Config) (id json version : String) (log : List Entry) : Prop :=
  InOrder [EvaluationPassed cfg id json version, CanaryStarted cfg json version,
    CanaryPassed cfg id json version] log

/-- The promotion of the version is justified by its record and the log. -/
def Justified (cfg : Config) (w : World) (log : List Entry) (id version : String) : Prop :=
  ∃ (run : RLRun) (e : RLEvaluationRecord), w.row .runs id = some run ∧
    w.row .evaluations e.id = some e ∧ e.runID = id ∧ e.policyVersion = version ∧
    e.gatesPassed = true ∧ PassedInOrder cfg id run.snapshotJSON version log

/-! ## Requests that mix up versions -/

/-- During a canary the version of the run stays or a new evaluation starts, the record
under canary is not replaced, and canary reports that satisfy every gate come during the
canary of their version. -/
structure Unmixed (cfg : Config) (w : World) (request : Request) : Prop where
  acknowledge : ∀ (run : RLRun) (version : String) (body : AcknowledgeBody),
    w.row .runs run.id = some run → run.status = .canary →
    request = .acknowledgeWeights version (some body) → body.runID = run.id →
    version = run.policyVersion
  rollback : ∀ (run : RLRun) (body : RollbackBody), w.row .runs run.id = some run →
    run.status = .canary → request = .rollbackWeights (some body) → body.runID ≠ run.id
  commit : ∀ (run : RLRun) (body : CheckpointBody), w.row .runs run.id = some run →
    run.status = .canary → Commits request run body →
    (periodicEvaluation cfg run body.optimizerStep = true ↔
      body.policyVersion ≠ run.policyVersion)
  report : ∀ (run : RLRun) (version : String) (body : EvaluateBody),
    w.row .runs run.id = some run → request = .evaluateWeights run.id version (some body) →
    body.phase = "canary" → GatesSatisfied cfg run.snapshotJSON body.metrics →
    run.status = .canary ∧ run.policyVersion = version

/-! ## The invariant -/

/-- What the flags of a record say about the log. -/
def Vetted (cfg : Config) (w : World) (log : List Entry) (e : RLEvaluationRecord) : Prop :=
  ∃ run : RLRun, w.row .runs e.runID = some run ∧
    (e.gatesPassed = true →
      InOrder [EvaluationPassed cfg e.runID run.snapshotJSON e.policyVersion] log) ∧
    (e.canaryState = .passed → PassedInOrder cfg e.runID run.snapshotJSON e.policyVersion log)

/-- All records are vetted. -/
def RecordsVetted (cfg : Config) (w : World) (log : List Entry) : Prop :=
  ∀ (id : String) (e : RLEvaluationRecord), w.row .evaluations id = some e → Vetted cfg w log e

/-- What the status `canary` says about the log and the record of the version. -/
def Core.Vetted (cfg : Config) (w : World) (log : List Entry) (c : Core) : Prop :=
  c.status = .canary → StartedInOrder cfg c.id c.snapshotJSON c.policyVersion log ∧
    ∀ (id : String) (e : RLEvaluationRecord), w.row .evaluations id = some e →
      e.runID = c.id → e.policyVersion = c.policyVersion → e.status = .failed ∨ e.gatesPassed = true

/-- What holds of an entry: the records were vetted when the operation was performed, and
promotions are justified. -/
def VettedEntry (cfg : Config) (before : List Entry) : Entry → Prop
  | .request _ => True
  | .performed w op _ => RecordsVetted cfg w before ∧
      ∀ id version, op = .markGood id version → Justified cfg w before id version

structure Vetting (cfg : Config) (L : Ledger) : Prop where
  sound : Sound L.world
  records : RecordsVetted cfg L.world L.log
  runs : ∀ (id : String) (run : RLRun), L.world.row .runs id = some run →
    (core run).Vetted cfg L.world L.log
  past : AtEach (VettedEntry cfg) L.log

section Vetting

variable {strict : Bool} {cfg : Config} {request : Request} {L0 L L' : Ledger} {w : World}
  {stored run : RLRun} {log : List Entry}

theorem Core.vetted_of_status {c : Core} (h : c.status ≠ .canary) : c.Vetted cfg w log :=
  fun hcanary => absurd hcanary h

variable {e : RLEvaluationRecord} {Lp : Ledger} {id : String} {body : EvaluateBody}

theorem Vetted.effect (h : Vetted cfg L.world L.log e) (heffect : Effect strict cfg request L0 L w)
    (more : List Entry) :
    Vetted cfg w (L.log ++ more) e := by
  obtain ⟨stored, hstored, hgates, hcanary⟩ := h
  obtain ⟨run, hrun, hrewritten⟩ := heffect.run_of_row hstored
  refine ⟨run, hrun, fun hpassed => ?_, fun hpassed => ?_⟩
  · rw [snapshotJSON_eq_of_fixed hrewritten.fixed]
    exact (hgates hpassed).append more
  · rw [snapshotJSON_eq_of_fixed hrewritten.fixed]
    exact InOrder.append (hcanary hpassed) more

theorem Vetted.congr {e' : RLEvaluationRecord} (h : Vetted cfg w log e) (hrun : e'.runID = e.runID)
    (hversion : e'.policyVersion = e.policyVersion)
    (hgates : e'.gatesPassed = true → e.gatesPassed = true)
    (hcanary : e'.canaryState = .passed → e.canaryState = .passed) : Vetted cfg w log e' := by
  obtain ⟨run, hrow, hevaluation, hpassed⟩ := h
  refine ⟨run, by rw [hrun]; exact hrow, fun h => ?_, fun h => ?_⟩
  · rw [hrun, hversion]
    exact hevaluation (hgates h)
  · rw [hrun, hversion]
    exact hpassed (hcanary h)

/-! ### Written records -/

/-- A request is being served: it came in when everything was vetted, and it mixes up no
versions. -/
structure Begun (cfg : Config) (Lp : Ledger) (request : Request) (L : Ledger) : Prop where
  vetting : Vetting cfg Lp
  unmixed : Unmixed cfg Lp.world request
  log : ∃ entries, L.log = Lp.log ++ .request request :: entries

theorem Begun.evaluationPassed {json version : String} (h : Begun cfg Lp request L)
    (hrequest : request = .evaluateWeights id version (some body)) (hphase : body.phase ≠ "canary")
    (hgates : GatesSatisfied cfg json body.metrics) :
    InOrder [EvaluationPassed cfg id json version] L.log := by
  obtain ⟨entries, hlog⟩ := h.log
  refine ⟨Lp.log, .request request, entries, hlog, ?_, trivial⟩
  exact ⟨body, congrArg Entry.request hrequest, hphase, hgates⟩

theorem Begun.canaryPassed {version : String} (h : Begun cfg Lp request L)
    (hrow : Lp.world.row .runs run.id = some run)
    (hrequest : request = .evaluateWeights run.id version (some body))
    (hphase : body.phase = "canary") (hgates : GatesSatisfied cfg run.snapshotJSON body.metrics) :
    PassedInOrder cfg run.id run.snapshotJSON version L.log := by
  obtain ⟨entries, hlog⟩ := h.log
  obtain ⟨hstatus, hversion⟩ := h.unmixed.report run version body hrow hrequest hphase hgates
  have hstarted : StartedInOrder cfg run.id run.snapshotJSON run.policyVersion Lp.log :=
    (h.vetting.runs run.id run hrow hstatus).1
  rw [hversion] at hstarted
  rw [hlog]
  exact InOrder.snoc hstarted ⟨body, congrArg Entry.request hrequest, hphase, hgates⟩ entries

theorem gatesPassed_of_judged {gates : Except String Unit}
    (h : (judged e body gates).gatesPassed = true) :
    e.gatesPassed = true ∨ gates = .ok () ∧ body.phase ≠ "canary" := by
  unfold judged at h
  dsimp only at h
  split at h
  · split at h
    · exact .inl h
    · cases h
  · split at h
    · exact .inl h
    · rename_i hphase
      exact .inr ⟨rfl, hphase⟩

theorem canaryState_of_judged {gates : Except String Unit}
    (h : (judged e body gates).canaryState = .passed) :
    e.canaryState = .passed ∨ gates = .ok () ∧ body.phase = "canary" := by
  unfold judged at h
  dsimp only at h
  split at h
  · split at h
    · cases h
    · exact .inl h
  · split at h
    · rename_i hphase
      exact .inr ⟨rfl, hphase⟩
    · exact .inl h

theorem judged_verdict (body : EvaluateBody) (gates : Except String Unit)
    (h : e.status = .failed ∨ e.gatesPassed = true) :
    (judged e body gates).status = .failed ∨ (judged e body gates).gatesPassed = true := by
  unfold judged
  dsimp only
  split
  · split
    · exact h
    · exact .inl rfl
  · split
    · exact h
    · exact .inr rfl

/-- Written records are vetted. -/
theorem EvaluationWrite.vetted (h : EvaluationWrite cfg request (Lp.receive request) L e)
    (hbegun : Begun cfg Lp request L) (hrecords : RecordsVetted cfg L.world L.log) :
    Vetted cfg L.world L.log e := by
  cases h with
  | schedule _ hstored _ _ => exact ⟨_, hstored, nofun, nofun⟩
  | @finish stored run _ hstored _ _ _ hcore =>
    refine ⟨stored, ?_, nofun, nofun⟩
    rw [show (finalEvaluation run).runID = stored.id from congrArg Core.id hcore]
    exact hstored
  | @judge stored e body snapshot hrequest horigin hstored hsnapshot he hrun =>
    obtain ⟨run, hrow, hevaluation, hcanary⟩ := hrecords _ _ he
    obtain ⟨-, hrunID, hversion⟩ :=
      judged_names e body (evaluateGates body.metrics snapshot.spec.evaluation.gates)
    rw [hrun] at hrow hevaluation hcanary
    cases hstored.symm.trans hrow
    refine ⟨stored, by rw [hrunID, hrun]; exact hstored, fun hgates => ?_, fun hpassed => ?_⟩
    · rw [hrunID, hversion, hrun]
      rcases gatesPassed_of_judged hgates with hold | ⟨hok, hphase⟩
      · exact hevaluation hold
      · exact hbegun.evaluationPassed hrequest hphase ⟨snapshot, hsnapshot, hok⟩
    · rw [hrunID, hversion, hrun]
      rcases canaryState_of_judged hpassed with hold | ⟨hok, hphase⟩
      · exact hcanary hold
      · exact hbegun.canaryPassed horigin hrequest hphase ⟨snapshot, hsnapshot, hok⟩
  | review _ _ he _ _ hreviewed =>
    exact (hrecords _ _ he).congr hreviewed.runID hreviewed.policyVersion
      (fun h => by rw [← hreviewed.gatesPassed]; exact h) hreviewed.canaryState

/-- A record that is written for a version under canary has failed or passed its gates. -/
theorem EvaluationWrite.verdict (h : EvaluationWrite cfg request L0 L e)
    (hunmixed : Unmixed cfg L0.world request) (hrow : L.world.row .runs run.id = some run)
    (hvetted : (core run).Vetted cfg L.world L.log) (hstatus : run.status = .canary)
    (hrun : e.runID = run.id) (hversion : e.policyVersion = run.policyVersion) :
    e.status = .failed ∨ e.gatesPassed = true := by
  -- the run of the written record is the one in canary
  have hsame : ∀ stored : RLRun, L.world.row .runs stored.id = some stored → stored.id = run.id →
      stored = run := by
    intro stored hstored hid
    rw [hid] at hstored
    exact Option.some.inj (hstored.symm.trans hrow)
  cases h with
  | @schedule stored body _ horigin hstored hcommit hperiodic =>
    cases hsame stored hstored hrun
    exact absurd hversion ((hunmixed.commit run body horigin hstatus hcommit).mp hperiodic)
  | @finish stored final _ hstored _ htraining _ hcore =>
    cases hsame stored hstored ((congrArg Core.id hcore).symm.trans hrun)
    rw [hstatus] at htraining
    cases htraining
  | @judge stored e body snapshot _ _ hstored _ he _ =>
    obtain ⟨-, hrunID, hpolicy⟩ :=
      judged_names e body (evaluateGates body.metrics snapshot.spec.evaluation.gates)
    exact judged_verdict body _
      ((hvetted hstatus).2 e.id e he (hrunID.symm.trans hrun) (hpolicy.symm.trans hversion))
  | @review stored e _ _ hstored he hrunID hpolicy hreviewed =>
    cases hsame stored hstored (hrunID.symm.trans (hreviewed.runID.symm.trans hrun))
    rw [hreviewed.status hstatus, hreviewed.gatesPassed]
    exact (hvetted hstatus).2 e.id e he hrunID hpolicy

/-! ### Written runs -/

theorem Sound.evaluation_unique {id' : String} {e' : RLEvaluationRecord} (h : Sound w)
    (he : w.row .evaluations id = some e) (he' : w.row .evaluations id' = some e')
    (hrun : e.runID = e'.runID) (hversion : e.policyVersion = e'.policyVersion) : e = e' := by
  have hid : e.id = e'.id := by
    rw [(h.evaluations id e he).id, (h.evaluations id' e' he').id, hrun, hversion]
  have hkey : id = id' :=
    (w.keyed Table.evaluations id e he).symm.trans
      (hid.trans (w.keyed Table.evaluations id' e' he'))
  rw [hkey] at he
  exact Option.some.inj (he.symm.trans he')

theorem Core.Vetted.congr {c : Core} {w' : World} (h : c.Vetted cfg w log)
    (htable : w'.table .evaluations = w.table .evaluations) (more : List Entry) :
    c.Vetted cfg w' (log ++ more) := by
  intro hstatus
  refine ⟨InOrder.append (h hstatus).1 more, fun id e he => (h hstatus).2 id e ?_⟩
  exact (row_congr htable id).symm.trans he

theorem Asked.vetted (h : Asked cfg request L.world stored run)
    (hvetted : (core stored).Vetted cfg w log) (hunmixed : Unmixed cfg L0.world request)
    (horigin : L0.world.row .runs stored.id = some stored) : (core run).Vetted cfg w log := by
  cases h with
  | same h => rwa [h]
  | cancelled _ _ h | resumed _ _ _ h | scheduled _ _ _ _ _ h =>
    rw [h]
    exact Core.vetted_of_status fun h => by cases h
  | suspended _ _ _ h | progressed _ _ _ h =>
    rw [h]
    exact hvetted
  | activated body hrequest hbody h =>
    rw [h]
    intro hstatus
    rw [hunmixed.acknowledge stored run.policyVersion body horigin hstatus hrequest hbody]
    exact hvetted hstatus
  | rolledBack body hrequest hbody h =>
    rw [h]
    intro hstatus
    exact absurd hbody (hunmixed.rollback stored body horigin hstatus hrequest)
  | committed body hcommit hperiodic _ h =>
    rw [h]
    intro hstatus
    have hversion : body.policyVersion = stored.policyVersion := by
      by_contra hne
      rw [(hunmixed.commit stored body horigin hstatus hcommit).mpr hne] at hperiodic
      cases hperiodic
    rw [hversion]
    exact hvetted hstatus

/-- A canary that a pass has started is in order: the record had passed its gates before
the deployment was applied, so the report is before it in the log. -/
theorem CanaryLogged.startedInOrder (h : CanaryLogged cfg L stored) (hvetting : Vetting cfg L) :
    StartedInOrder cfg stored.id stored.snapshotJSON stored.policyVersion L.log := by
  obtain ⟨pre, entry, post, w1, hlog, hstart⟩ := h
  obtain ⟨spec, replicas, applied, ⟨snapshot, hdecode, rfl⟩, hentry⟩ := hstart.entry
  obtain ⟨e, he, hrun, hversion, hgates⟩ := hstart.cleared
  have hpast : VettedEntry cfg pre entry := hvetting.past pre entry post hlog
  rw [hentry] at hpast
  obtain ⟨run, hrow, hevaluation, -⟩ := hpast.1 e.id e he
  rw [hrun] at hrow hevaluation
  cases hstart.stored.symm.trans hrow
  rw [hversion] at hevaluation
  rw [hlog]
  exact (hevaluation hgates).snoc ⟨w1, snapshot, replicas, applied, hdecode, hentry⟩ post

theorem Reconciled.vetted (h : Reconciled cfg L0 L stored (core run)) (hvetting : Vetting cfg L)
    (hvetted : (core stored).Vetted cfg L.world L.log) : (core run).Vetted cfg L.world L.log := by
  cases h with
  | same h => rwa [h]
  | cancelling h | cancelled _ h | suspended _ h | running _ h | completed _ h | failed _ h
  | retried _ h | attempted _ _ h | evaluating _ _ _ h =>
    rw [h]
    exact Core.vetted_of_status fun h => by cases h
  | adopted htraining _ _ _ h =>
    rw [h]
    refine Core.vetted_of_status fun hstatus => ?_
    rw [show stored.status = .canary from hstatus] at htraining
    cases htraining
  | canary _ hcleared hstarted h =>
    rw [h]
    intro _
    refine ⟨hstarted.startedInOrder hvetting, fun id e he hrun hversion => .inr ?_⟩
    obtain ⟨e', he', hrun', hversion', hgates⟩ := hcleared
    rw [hvetting.sound.evaluation_unique he he' (hrun.trans hrun'.symm)
      (hversion.trans hversion'.symm)]
    exact hgates
  | rolledBack _ final h | promoted _ final h =>
    rw [h]
    cases final with
    | false | true => exact Core.vetted_of_status fun h => by cases h

/-! ### One operation -/

/-- Runs stay vetted. -/
theorem Vetting.run_effect (h : Vetting cfg L) (hbegun : Begun cfg Lp request L)
    (heffect : Effect strict cfg request (Lp.receive request) L w)
    (hrow : w.row .runs id = some run) (more : List Entry) :
    (core run).Vetted cfg w (L.log ++ more) := by
  have hunmixed : Unmixed cfg (Lp.receive request).world request := hbegun.unmixed
  rcases heffect.evaluations with htable | ⟨e, hwrite, hworld⟩
  · refine Core.Vetted.congr ?_ htable more
    rcases heffect.row_of_run hrow with ⟨stored, hstored, hrewritten⟩ | ⟨_, hcreated⟩
    · have hvetted := h.runs id stored hstored
      cases hrewritten with
      | kept h => rwa [h]
      | plain _ status hstatus h =>
        rw [h]
        exact Core.vetted_of_status hstatus
      | ask horigin hasked => exact hasked.vetted hvetted hunmixed horigin
      | reconcile _ _ _ hreconciled _ => exact hreconciled.vetted h hvetted
    · refine Core.vetted_of_status fun hcanary => ?_
      have hstarting : run.status = .starting := by
        cases hcreated with
        | slime _ hadmitted => exact hadmitted.columns.2.1
        | plain _ _ hstatus => exact hstatus
      cases hstarting.symm.trans hcanary
  · -- an evaluation is written, and the runs are the same
    have hruns : w.table .runs = L.world.table .runs := by
      rw [hworld]
      exact table_save_of_ne (t := .evaluations) _ e nofun
    have hstored := (row_congr hruns id).symm.trans hrow
    have hvetted := h.runs id run hstored
    intro hstatus
    refine ⟨InOrder.append (hvetted hstatus).1 more, fun id' e' he' hrun hversion => ?_⟩
    rcases heffect.row_of_evaluation he' with hold | hwrite'
    · exact (hvetted hstatus).2 id' e' hold hrun hversion
    · rw [← L.world.keyed Table.runs id run hstored] at hstored
      exact hwrite'.verdict hunmixed hstored hvetted hstatus hrun hversion

theorem Vetting.justified {version : String} (h : Vetting cfg L)
    (hop : Lawful strict cfg request L0 L (.markGood id version)) :
    Justified cfg L.world L.log id version := by
  cases hop with
  | plain h => exact h.elim
  | @promote stored e _ hstored hstatus he hrun hversion hfailed hcanary =>
    have hgates : e.gatesPassed = true :=
      ((h.runs stored.id stored hstored hstatus).2 e.id e he hrun hversion).resolve_left hfailed
    obtain ⟨run, hrow, -, hpassed⟩ := h.records e.id e he
    refine ⟨run, e, by rw [← hrun]; exact hrow, he, hrun, hversion, hgates, ?_⟩
    rw [← hrun, ← hversion]
    exact hpassed hcanary

theorem Vetting.step {op : Op} {ans : Ans op} (h : Vetting cfg L) (hbegun : Begun cfg Lp request L)
    (hop : Lawful strict cfg request (Lp.receive request) L op) (hrec : L.Records op ans L') :
    Vetting cfg L' := by
  have heffect := hop.effect hrec
  refine ⟨h.sound.effect heffect, fun id e he => ?_, fun id run hrow => ?_, ?_⟩
  · rw [hrec.2]
    rcases heffect.row_of_evaluation he with hold | hwrite
    · exact (h.records id e hold).effect heffect _
    · exact (hwrite.vetted hbegun h.records).effect heffect _
  · rw [hrec.2]
    exact h.run_effect hbegun heffect hrow _
  · rw [hrec.2]
    refine h.past.snoc ⟨h.records, fun id version hmark => ?_⟩
    rw [hmark] at hop
    exact h.justified hop

theorem Vetting.serves {exchange : Exchange} (h : Vetting cfg L)
    (hunmixed : Unmixed cfg L.world exchange.request) (hserves : Serves cfg L exchange L') :
    Vetting cfg L' := by
  have hserved : Vetting cfg L' ∧ Begun cfg L exchange.request L' := by
    refine serves_invariant (I := fun L1 => Vetting cfg L1 ∧ Begun cfg L exchange.request L1)
      hserves ⟨?_, h, hunmixed, [], rfl⟩ ?_
    · -- the request itself is an entry of the log
      refine ⟨h.sound, fun id e he => ?_, fun id run hrow => ?_, h.past.snoc trivial⟩
      · obtain ⟨run, hrow, hgates, hcanary⟩ := h.records id e he
        exact ⟨run, hrow, fun hpassed => (hgates hpassed).append _,
          fun hpassed => InOrder.append (hcanary hpassed) _⟩
      · exact (h.runs id run hrow).congr rfl _
    · rintro L1 op ans L2 ⟨hvetting, hbegun⟩ hop hrec
      refine ⟨hvetting.step hbegun hop hrec, h, hunmixed, ?_⟩
      obtain ⟨entries, hlog⟩ := hbegun.log
      exact ⟨entries ++ [.performed L1.world op ans], by
        rw [hrec.2, hlog, List.append_assoc, List.cons_append]⟩
  exact hserved.1

end Vetting

theorem vetting_initial (cfg : Config) : Vetting cfg Ledger.initial where
  sound := sound_initial
  records _ _ h := absurd h row_empty_ne
  runs _ _ h := absurd h row_empty_ne
  past := AtEach.nil

/-- While requests mix up no versions, every promotion is justified. -/
theorem promotion_justified (cfg : Config) {L : Ledger} {exchanges : List Exchange}
    (hrun : Run (Guarded (Serves cfg) fun L exchange => Unmixed cfg L.world exchange.request)
      Ledger.initial exchanges L) {pre post : List Entry} {w : World} {id version : String}
    {ans : Ans (.markGood id version)}
    (hlog : L.log = pre ++ .performed w (.markGood id version) ans :: post) :
    Justified cfg w pre id version := by
  have hvetting : Vetting cfg L :=
    hrun.invariant (I := Vetting cfg) (vetting_initial cfg) fun L exchange L' h hstep =>
      h.serves hstep.2 hstep.1
  exact (hvetting.past _ _ _ hlog).2 id version rfl

/-! ## Computed histories -/

def promotes (check : World → Bool) (id version : String) : Entry → Bool
  | .performed w (.markGood id' version') _ => id' = id && version' = version && check w
  | _ => false

theorem split_of_promotes {check : World → Bool} {id version : String} {log : List Entry}
    (h : log.any (promotes check id version) = true) :
    ∃ pre w ans post, log = pre ++ .performed w (.markGood id version) ans :: post ∧
      check w = true := by
  obtain ⟨entry, hmem, hpromotes⟩ := List.any_eq_true.mp h
  obtain ⟨pre, post, rfl⟩ := List.append_of_mem hmem
  unfold promotes at hpromotes
  split at hpromotes
  · rename_i w id' version' ans
    simp only [Bool.and_eq_true, decide_eq_true_eq] at hpromotes
    obtain ⟨⟨rfl, rfl⟩, hcheck⟩ := hpromotes
    exact ⟨pre, w, ans, post, rfl, hcheck⟩
  · cases hpromotes

def unmixed (w : World) : Request → Bool
  | .acknowledgeWeights _ _ => false
  | .rollbackWeights _ => false
  | .commitCheckpoint id _ => (w.row .runs id).all fun run : RLRun => run.status ≠ .canary
  | .evaluateWeights id version (some body) => body.phase ≠ "canary" ||
      (w.row .runs id).all fun run : RLRun => run.status = .canary && run.policyVersion = version
  | _ => true

theorem unmixed_sound {cfg : Config} {w : World} {request : Request}
    (h : unmixed w request = true) : Unmixed cfg w request where
  acknowledge run version body _ _ hrequest _ := by
    rw [hrequest] at h
    cases h
  rollback run body _ _ hrequest := by
    rw [hrequest] at h
    cases h
  commit run body hrow hstatus hcommit := by
    rw [hcommit.request, unmixed, show w.row .runs run.id = some run from hrow] at h
    exact absurd hstatus (of_decide_eq_true h)
  report run version body hrow hrequest hphase _ := by
    rw [hrequest, unmixed, show w.row .runs run.id = some run from hrow] at h
    simpa [hphase] using h

def samplePassed (version phase : String) : Visit :=
  ⟨.evaluateWeights sampleID version (some ⟨FinMap.ofList [("reward", 1)], phase⟩), agreeable⟩

def canaryHistory : List Visit :=
  sampleStarted ++
    [sampleCommit 5 "v1", samplePassed "v1" "evaluation", ⟨.reconcilePass, jobsAre "SUCCEEDED"⟩,
      samplePassed "v1" "canary", ⟨.reconcilePass, jobsAre "SUCCEEDED"⟩]

theorem promotion_justified_canaryHistory :
    ∃ pre w ans post, (serveAllWhen sampleConfig unmixed Ledger.initial canaryHistory).2.log =
        pre ++ .performed w (.markGood sampleID "v1") ans :: post ∧
      Justified sampleConfig w pre sampleID "v1" := by
  have hrun := run_serveAllWhen sampleConfig unmixed Ledger.initial canaryHistory
  have hpromoted : (serveAllWhen sampleConfig unmixed Ledger.initial canaryHistory).2.log.any
      (promotes (fun _ => true) sampleID "v1") = true := by
    decide +kernel
  obtain ⟨pre, w, ans, post, hlog, -⟩ := split_of_promotes hpromoted
  refine ⟨pre, w, ans, post, hlog, promotion_justified sampleConfig (hrun.mono ?_) hlog⟩
  exact fun L exchange L' h => ⟨h.1, unmixed_sound h.2⟩

def mixedHistory : List Visit :=
  sampleStarted ++
    [sampleCommit 5 "v1", sampleCommit 10 "v2", samplePassed "v2" "evaluation",
      ⟨.reconcilePass, jobsAre "SUCCEEDED"⟩, samplePassed "v1" "canary",
      ⟨.acknowledgeWeights "v1" (some ⟨sampleID, "engine", "sum"⟩), agreeable⟩,
      ⟨.reconcilePass, jobsAre "SUCCEEDED"⟩]

def unpassed (id version : String) (w : World) : Bool :=
  (w.rows .evaluations).all fun e : RLEvaluationRecord =>
    !(e.runID = id && e.policyVersion = version && e.gatesPassed)

/-- The first version is promoted although its gates never passed. -/
theorem promotion_unjustified :
    ∃ exchanges L, Run (Serves sampleConfig) Ledger.initial exchanges L ∧
      (∃ pre w ans post, L.log = pre ++ .performed w (.markGood sampleID "v1") ans :: post ∧
        ¬Justified sampleConfig w pre sampleID "v1") ∧
      ∃ run : RLRun, L.world.row .runs sampleID = some run ∧ run.lastGoodPolicyVersion = "v1" := by
  refine ⟨_, _, run_serveAll sampleConfig Ledger.initial mixedHistory, ?_, ?_⟩
  · have hpromoted : (serveAll sampleConfig Ledger.initial mixedHistory).2.log.any
        (promotes (unpassed sampleID "v1") sampleID "v1") = true := by
      decide +kernel
    obtain ⟨pre, w, ans, post, hlog, hunpassed⟩ := split_of_promotes hpromoted
    refine ⟨pre, w, ans, post, hlog, ?_⟩
    rintro ⟨run, e, -, he, hrun, hversion, hgates, -⟩
    have hmem := (mem_rows_iff (t := .evaluations)).mpr he
    have hnot := List.all_eq_true.mp hunpassed e hmem
    simp [hrun, hversion, hgates] at hnot
  · have hlast : ((serveAll sampleConfig Ledger.initial mixedHistory).2.world.row .runs
        sampleID).map (fun run : RLRun => run.lastGoodPolicyVersion) = some "v1" := by
      decide +kernel
    exact Option.map_eq_some_iff.mp hlast

end RL
end Skyscale
