import Skyscale.RL.Stages

/-!
# Copies of run rows

Every program of the control plane that writes a run row writes a copy: of a row it
has read, or of a row it has built for a new identifier.  Between reading and writing
it changes other fields, but never the identifier or the backend, and only the
handlers for suspending, resuming and stopping change the desired state.

The module states this once, for an arbitrary property `Good` of identifier, backend
and desired state: a program that only ever got good copies only ever writes good
copies.  `Safe` is the property for programs; for the parts of a reconcile pass it is an
invariant as in `RL.Stages` (`tame_fine`).  `safe_program` covers every request.
-/

namespace Skyscale
namespace RL

open Lib State Control K8s Contracts

section Copies

variable (Good : String → Backend → DesiredState → Prop)

/-- A run row with the property. -/
def Fine (run : RLRun) : Prop := Good run.id run.backend run.desiredState

/-- Answers that hand out good copies only: rows read, and identifiers any row may be
built for. -/
def Reads : (op : Op) → Ans op → Prop
  | .sql (.first .runs where_ _), ans =>
    ∀ run : RLRun, ans = Except.ok run → where_ run = true ∧ Fine Good run
  | .sql (.find .runs _ _ _), ans =>
    ∀ runs : List RLRun, ans = Except.ok runs → ∀ run ∈ runs, Fine Good run
  | .newRunID _, id => ∀ backend desired, Good id backend desired
  | _, _ => True

/-- Operations that write good copies only. -/
def Writes : Op → Prop
  | .sql (.save .runs run) => Fine Good run
  | .sql (.insert .runs _ _) => False
  | .sql (.update .runs _ _ _) => False
  | .sql (.delete .runs _) => False
  | _ => True

/-- As long as it gets good copies, the program writes good copies. -/
abbrev Safe {α : Type} (p : Program α) : Prop := Obeys (Reads Good) (Writes Good) p

/-- The operation writes no attempt and applies no training job. -/
def SparesAttempts : Op → Prop
  | .sql q =>
    match q.target with
    | some .attempts => False
    | _ => True
  | .apply object => ∀ spec attemptID, object ≠ renderRayJob spec attemptID
  | _ => True

/-- The program is safe, writes no attempt and applies no training job. -/
abbrev Modest {α : Type} (p : Program α) : Prop :=
  Obeys (Reads Good) (fun op => Writes Good op ∧ SparesAttempts op) p

end Copies

variable {Good : String → Backend → DesiredState → Prop} {α β : Type}

theorem writes_of_aloof {op : Op} (h : Aloof op) : Writes Good op := by
  cases op with
  | sql q =>
    cases q with
    | save t row | insert t row onConflict | update t p set key_set | delete t p => cases t with
      | runs => exact absurd rfl h
      | _ => trivial
    | _ => trivial
  | _ => trivial

theorem Idle.sparesAttempts {op : Op} (h : Idle op) : SparesAttempts op := by
  cases op with
  | sql q =>
    have hplain : Plain (.sql q) := h
    cases htarget : q.target with
    | none => simp only [SparesAttempts, htarget]
    | some t =>
      simp only [Plain, htarget] at hplain
      cases t with
      | attempts => cases hplain
      | _ => simp only [SparesAttempts, htarget]
  | apply object => exact h
  | _ => trivial

/-! ## Rules for programs -/

theorem Modest.safe {p : Program α} (h : Modest Good p) : Safe Good p :=
  wp_rely_mono (fun _ _ hans => hans) (fun _ => And.left) h

theorem Still.modest {p : Program α} (h : Still p) : Modest Good p :=
  wp_rely_mono (fun _ _ _ => trivial)
    (fun _ hop => ⟨writes_of_aloof hop.plain.aloof, hop.sparesAttempts⟩) h

variable {run : RLRun} {id : String}

theorem Modest.saveRLRun (h : Fine Good run) : Modest Good (saveRLRun run) :=
  Obeys.perform ⟨h, trivial⟩

theorem Safe.saveRLRun (h : Fine Good run) : Safe Good (saveRLRun run) :=
  Obeys.perform h

theorem Modest.getRLRun {f : Except Failure RLRun → Program α}
    (hok : ∀ run, run.id = id → Fine Good run → Modest Good (f (.ok run)))
    (herror : ∀ e, Modest Good (f (.error e))) : Modest Good (getRLRun id >>= f) := by
  refine ⟨⟨trivial, trivial⟩, fun ans hans => ?_⟩
  cases ans with
  | error e => exact herror e
  | ok run =>
    obtain ⟨hid, hfine⟩ := hans run rfl
    exact hok run (by simpa using hid) hfine

theorem Modest.newRunID {digits : Nat} {f : String → Program α}
    (h : ∀ id, (∀ backend desired, Good id backend desired) → Modest Good (f id)) :
    Modest Good (Control.call (.newRunID digits) >>= f) :=
  ⟨⟨trivial, trivial⟩, fun id hid => h id hid⟩

theorem modest_saveRLCheckpoint (checkpoint : RLCheckpointRecord) :
    Modest Good (saveRLCheckpoint checkpoint) := by
  refine Obeys.call ⟨trivial, trivial⟩ fun existing => ?_
  cases existing with
  | ok existing =>
    show Modest Good (if _ then _ else _)
    split
    · exact Obeys.pure _
    · exact Obeys.pure _
  | error e =>
    cases e with
    | notFound => exact Obeys.call ⟨trivial, trivial⟩ fun _ => Obeys.pure _
    | other text => exact Obeys.pure _

/-! ## The reconciler -/

/-- A pass keeps its copy good and writes good copies. -/
theorem tame_fine :
    Tame Aloof Minor (rely (Reads Good) (Writes Good)) (fun run _ => Fine Good run) where
  leaves hm run g hrun := by
    refine wp_mono ?_ (wp_rely_mono (fun _ _ _ => trivial)
      (fun _ => writes_of_aloof) (hm run run () rfl))
    rintro ⟨r, copy⟩ _ (rfl : copy = run)
    exact hrun
  assign hf := Keeps.modify fun run _ hrun => by
    obtain ⟨hid, hbackend, hdesired, -⟩ : _ ∧ _ ∧ _ ∧ _ := by
      simpa only [kernel, Prod.mk.injEq] using hf run
    unfold Fine
    rw [hid, hbackend, hdesired]
    exact hrun
  save _ _ hrun := ⟨hrun, fun _ _ => hrun⟩

theorem safe_reconcileRecording (cfg : Config) (h : Fine Good run) :
    Safe Good (reconcileRecording cfg run) := by
  unfold reconcileRecording Safe Obeys
  rw [wp_bind]
  refine wp_mono ?_ (tame_fine.reconcile run () h)
  rintro ⟨result, run'⟩ g hrun'
  cases result with
  | ok _ => exact Obeys.pure _
  | error text => exact Obeys.bind (Safe.saveRLRun hrun') fun _ => Obeys.pure _

theorem safe_reconcileOne (cfg : Config) (h : Fine Good run) :
    Safe Good (reconcileOne cfg run) := by
  unfold reconcileOne
  split
  · exact Obeys.pure ()
  · exact Obeys.bind (safe_reconcileRecording cfg h) fun _ => Obeys.pure ()

theorem safe_reconcileAll (cfg : Config) : Safe Good (reconcileAll cfg) := by
  refine ⟨trivial, fun ans hans => ?_⟩
  cases ans with
  | error e => exact Obeys.pure ()
  | ok runs =>
    exact Obeys.forEach fun run hrun => safe_reconcileOne cfg (hans runs rfl run hrun)

/-! ## Handlers -/

theorem modest_withRLRun {next : RLRun → Handler}
    (h : ∀ run, run.id = id → Fine Good run → Modest Good (next run)) :
    Modest Good (withRLRun id next) :=
  Modest.getRLRun h fun _ => Obeys.pure _

theorem modest_savingRLRun {text : String} {next : Handler} (h : Fine Good run)
    (hnext : Modest Good next) : Modest Good (savingRLRun run text next) := by
  refine Obeys.bind (Modest.saveRLRun h) fun saved => ?_
  cases saved with
  | error e => exact Obeys.pure _
  | ok _ => exact hnext

theorem modest_rlStartSlimeRun (cfg : Config) (request : StartRequest) :
    Modest Good (rlStartSlimeRun cfg request) := by
  unfold rlStartSlimeRun
  split
  · exact Obeys.pure _
  split
  · exact Obeys.pure _
  refine Modest.newRunID fun runID hgood => ?_
  refine Obeys.call ⟨trivial, trivial⟩ fun now => ?_
  dsimp only
  split
  · exact Obeys.pure _
  refine Obeys.call ⟨trivial, trivial⟩ fun active => ?_
  split
  · exact Obeys.pure _
  split
  · exact Obeys.pure _
  refine Obeys.bind (Modest.saveRLRun (hgood _ _)) fun saved => ?_
  split
  · exact Obeys.pure _
  · exact Obeys.pure _

theorem modest_rlStartRun (cfg : Config) (request : StartRequest) :
    Modest Good (rlStartRun cfg request) := by
  unfold rlStartRun
  split
  · exact Obeys.pure _
  split
  · exact modest_rlStartSlimeRun cfg request
  · split
    · exact Obeys.pure _
    refine Modest.newRunID fun runID hgood => ?_
    refine Obeys.call ⟨trivial, trivial⟩ fun now => ?_
    refine Obeys.bind (Modest.saveRLRun (hgood _ _)) fun saved => ?_
    split
    · exact Obeys.pure _
    refine Obeys.bind (still_spawnJob _ _).modest fun _ =>
      Obeys.bind (still_spawnJob _ _).modest fun _ => ?_
    refine Obeys.bind (Obeys.forEach fun i _ => (still_spawnJob _ _).modest) fun _ => ?_
    exact Obeys.bind (Modest.saveRLRun (hgood _ _)) fun _ => Obeys.pure _

theorem modest_rlSetPolicyServer (id url : String) : Modest Good (rlSetPolicyServer id url) := by
  unfold rlSetPolicyServer
  split
  · exact Obeys.pure _
  · exact modest_withRLRun fun run _ h => modest_savingRLRun h (Obeys.pure _)

theorem modest_rlStopRun (hstop : ∀ desired, Good id .slime desired → Good id .slime .cancelled) :
    Modest Good (rlStopRun id) := by
  refine modest_withRLRun fun run hid h => ?_
  split
  · rename_i hslime
    refine modest_savingRLRun ?_ (Obeys.pure _)
    show Good run.id run.backend .cancelled
    rw [Fine, hid, hslime] at h
    rw [hid, hslime]
    exact hstop _ h
  · refine Obeys.bind (Modest.saveRLRun h) fun _ => ?_
    exact Obeys.bind (Obeys.forEach fun id _ => (still_stopExecution id).modest) fun _ =>
      Obeys.pure _

theorem modest_setSlimeDesiredState {desired : DesiredState}
    (hset : ∀ backend old, Good id backend old → Good id backend desired) :
    Modest Good (setSlimeDesiredState id desired) := by
  refine modest_withRLRun fun run hid h => ?_
  split
  · exact Obeys.pure _
  split
  · exact Obeys.pure _
  refine modest_savingRLRun ?_ (Obeys.pure _)
  show Good run.id run.backend desired
  rw [Fine, hid] at h
  rw [hid]
  exact hset _ _ h

theorem modest_rlCollect (id url : String) (body : Option CollectBody) :
    Modest Good (rlCollect id url body) := by
  refine modest_withRLRun fun run _ h => ?_
  split
  · exact Obeys.pure _
  split
  · exact Obeys.pure _
  refine Obeys.bind (still_enqueueWorkerRound _ _ _ _).modest fun enqueued => ?_
  split
  · exact Obeys.pure _
  · exact Obeys.bind (Modest.saveRLRun h) fun _ => Obeys.pure _

theorem modest_rlPolicyRedeploy (cfg : Config) (id checkpointURL url : String) :
    Modest Good (rlPolicyRedeploy cfg id checkpointURL url) := by
  unfold rlPolicyRedeploy
  split
  · exact Obeys.pure _
  refine modest_withRLRun fun run _ h => ?_
  refine Obeys.bind (still_terminatePolicy _).modest fun _ =>
    Obeys.bind (Modest.saveRLRun h) fun _ => ?_
  refine Obeys.call ⟨trivial, trivial⟩ fun now => Obeys.call ⟨trivial, trivial⟩ fun _ => ?_
  refine Obeys.call ⟨trivial, trivial⟩ fun enqueued => ?_
  split
  · exact Obeys.pure _
  · exact Obeys.pure _

theorem modest_rlGroupedSampleClaim (cfg : Config) (body : Option ClaimBody) :
    Modest Good (rlGroupedSampleClaim cfg body) := by
  unfold rlGroupedSampleClaim
  split
  · exact Obeys.pure _
  split
  · exact Obeys.pure _
  refine modest_withRLRun fun run _ h => Obeys.call ⟨trivial, trivial⟩ fun turn => ?_
  split
  · exact Obeys.pure _
  · exact Obeys.pure _
  refine Obeys.call ⟨trivial, trivial⟩ fun claimed => ?_
  split
  · exact Obeys.pure _
  · exact Obeys.pure _
  split
  · exact Obeys.call ⟨trivial, trivial⟩ fun _ => Obeys.pure _
  · refine Obeys.bind (still_admitSamples _ _ _ _).modest fun decisions => ?_
    split
    · exact Obeys.call ⟨trivial, trivial⟩ fun _ =>
        Obeys.bind (Modest.saveRLRun h) fun _ => Obeys.pure _
    · exact Obeys.call ⟨trivial, trivial⟩ fun _ => Obeys.pure _
    · exact Obeys.pure _

theorem modest_rlGroupedSampleBackpressure (cfg : Config) (runID : String) :
    Modest Good (rlGroupedSampleBackpressure cfg runID) := by
  unfold rlGroupedSampleBackpressure
  split
  · exact Obeys.pure _
  refine modest_withRLRun fun run _ h => Obeys.call ⟨trivial, trivial⟩ fun state => ?_
  split
  · exact Obeys.pure _
  · split
    · exact Obeys.bind (Modest.saveRLRun h) fun _ => Obeys.pure _
    · exact Obeys.pure _

theorem modest_rlRolloutMetrics (id : String) (body : Option MetricsBody) :
    Modest Good (rlRolloutMetrics id body) := by
  refine modest_withRLRun fun run _ h => ?_
  split
  · exact Obeys.pure _
  · exact modest_savingRLRun h (Obeys.pure _)

theorem modest_rlPublishWeights (cfg : Config) (body : Option PublishBody) :
    Modest Good (rlPublishWeights cfg body) := by
  unfold rlPublishWeights
  split
  · exact Obeys.pure _
  split
  · exact Obeys.pure _
  refine modest_withRLRun fun run _ h => Obeys.call ⟨trivial, trivial⟩ fun published => ?_
  split
  · exact Obeys.pure _
  refine Obeys.call ⟨trivial, trivial⟩ fun result => ?_
  split
  · exact Obeys.pure _
  · exact Obeys.bind (Modest.saveRLRun h) fun _ => Obeys.pure _

theorem modest_rlAcknowledgeWeights (cfg : Config) (version : String)
    (body : Option AcknowledgeBody) : Modest Good (rlAcknowledgeWeights cfg version body) := by
  unfold rlAcknowledgeWeights
  split
  · exact Obeys.pure _
  split
  · exact Obeys.pure _
  refine Obeys.call ⟨trivial, trivial⟩ fun result => ?_
  split
  · exact Obeys.pure _
  · exact Obeys.pure _
  · exact Modest.getRLRun (fun run _ h => Obeys.bind (Modest.saveRLRun h) fun _ => Obeys.pure _)
      fun _ => Obeys.pure _

theorem modest_rlRollbackWeights (cfg : Config) (body : Option RollbackBody) :
    Modest Good (rlRollbackWeights cfg body) := by
  unfold rlRollbackWeights
  split
  · exact Obeys.pure _
  split
  · exact Obeys.pure _
  refine Obeys.call ⟨trivial, trivial⟩ fun result => ?_
  split
  · exact Obeys.pure _
  · exact Modest.getRLRun (fun run _ h => Obeys.bind (Modest.saveRLRun h) fun _ => Obeys.pure _)
      fun _ => Obeys.pure _

theorem modest_rlEvaluateWeights (cfg : Config) (id version : String)
    (body : Option EvaluateBody) : Modest Good (rlEvaluateWeights cfg id version body) := by
  refine modest_withRLRun fun run _ _ => ?_
  split
  · exact Obeys.pure _
  split
  · exact Obeys.pure _
  refine Obeys.call ⟨trivial, trivial⟩ fun found => ?_
  split
  · exact Obeys.pure _
  refine Obeys.call ⟨trivial, trivial⟩ fun saved => ?_
  split
  · exact Obeys.pure _
  · split
    · exact Obeys.pure _
    · exact Obeys.pure _

theorem modest_rlCommitCheckpoint (cfg : Config) (runID : String) (body : Option CheckpointBody) :
    Modest Good (rlCommitCheckpoint cfg runID body) := by
  refine modest_withRLRun fun run _ h => ?_
  split
  · exact Obeys.pure _
  split
  · exact Obeys.pure _
  refine Obeys.bind (modest_saveRLCheckpoint _) fun saved => ?_
  split
  · exact Obeys.pure _
  refine Obeys.call ⟨trivial, trivial⟩ fun version => ?_
  split
  · exact Obeys.pure _
  dsimp only
  split
  · refine Obeys.call ⟨trivial, trivial⟩ fun evaluation => ?_
    split
    · exact Obeys.pure _
    · exact modest_savingRLRun h (Obeys.pure _)
  · exact modest_savingRLRun h (Obeys.pure _)

theorem modest_rlTrainerProgress (id : String) (body : Option ProgressBody) :
    Modest Good (rlTrainerProgress id body) := by
  refine modest_withRLRun fun run _ h => ?_
  split
  · exact Obeys.pure _
  split
  · exact Obeys.pure _
  · split
    · exact Obeys.pure _
    · exact modest_savingRLRun h (Obeys.pure _)

/-! ## Queue workers -/

theorem modest_recordPolicyServer (item : JobQueueItem) (result : DeployResult) :
    Modest Good (Scheduler.recordPolicyServer item result) := by
  unfold Scheduler.recordPolicyServer
  split
  · refine Obeys.call ⟨trivial, trivial⟩ fun found => ?_
    split
    · exact Obeys.pure ()
    split
    · exact Modest.getRLRun
        (fun run _ h => Obeys.bind (Modest.saveRLRun h) fun _ => Obeys.pure ())
        fun _ => Obeys.pure ()
    · exact Obeys.pure ()
  · exact Obeys.pure ()

theorem modest_processOne : Modest Good Scheduler.processOne := by
  refine Obeys.bind still_claimNextJob.modest fun item => ?_
  split
  · exact Obeys.pure ()
  refine Obeys.bind (still_jobRole _).modest fun role =>
    Obeys.bind (still_mustWait _ _).modest fun wait => ?_
  split
  · exact Obeys.call ⟨trivial, trivial⟩ fun _ => Obeys.pure ()
  · refine Obeys.bind (still_deploy _).modest fun result => ?_
    split
    · exact Obeys.call ⟨trivial, trivial⟩ fun _ =>
        (still_markExecFailed _ _).modest
    · refine Obeys.bind (still_recordDeployment _ _).modest fun _ => ?_
      refine Obeys.bind (modest_recordPolicyServer _ _) fun _ => ?_
      exact Obeys.call ⟨trivial, trivial⟩ fun _ => Obeys.pure ()

/-! ## Every request -/

/-- The desired state a request's handler assigns, and to which run. -/
def assignedState : Request → Option (String × DesiredState)
  | .stopRun id => some (id, .cancelled)
  | .suspendRun id => some (id, .suspended)
  | .resumeRun id => some (id, .running)
  | _ => none

/-- Every program but the reconciler's is modest, for every property that survives the
assignments of its request. -/
theorem modest_program (cfg : Config) {request : Request} (hrequest : request ≠ .reconcilePass)
    (hassign : ∀ id desired, assignedState request = some (id, desired) →
      ∀ backend old, Good id backend old → Good id backend desired) :
    Modest Good (program cfg request) := by
  have hserving : ∀ {handler : Handler}, Modest Good handler → Modest Good (serving handler) :=
    fun h => Obeys.bind h fun _ => Obeys.pure _
  cases request with
  | startRun request => exact hserving (modest_rlStartRun cfg request)
  | setPolicyServer id url => exact hserving (modest_rlSetPolicyServer id url)
  | stopRun id => exact hserving (modest_rlStopRun (hassign id _ rfl .slime))
  | suspendRun id | resumeRun id => exact hserving (modest_setSlimeDesiredState (hassign id _ rfl))
  | collect id url body => exact hserving (modest_rlCollect id url body)
  | policyRedeploy id checkpointURL url =>
    exact hserving (modest_rlPolicyRedeploy cfg id checkpointURL url)
  | claimSamples body => exact hserving (modest_rlGroupedSampleClaim cfg body)
  | queryBackpressure runID => exact hserving (modest_rlGroupedSampleBackpressure cfg runID)
  | rolloutMetrics id body => exact hserving (modest_rlRolloutMetrics id body)
  | publishWeights body => exact hserving (modest_rlPublishWeights cfg body)
  | acknowledgeWeights version body =>
    exact hserving (modest_rlAcknowledgeWeights cfg version body)
  | rollbackWeights body => exact hserving (modest_rlRollbackWeights cfg body)
  | evaluateWeights id version body =>
    exact hserving (modest_rlEvaluateWeights cfg id version body)
  | commitCheckpoint id body => exact hserving (modest_rlCommitCheckpoint cfg id body)
  | trainerProgress id body => exact hserving (modest_rlTrainerProgress id body)
  | reconcilePass => exact absurd rfl hrequest
  | queueRound => exact Obeys.bind modest_processOne fun _ => Obeys.pure _

/-- Every program of the control plane is safe for every property that survives the
assignments of its request. -/
theorem safe_program (cfg : Config) (request : Request)
    (hassign : ∀ id desired, assignedState request = some (id, desired) →
      ∀ backend old, Good id backend old → Good id backend desired) :
    Safe Good (program cfg request) := by
  by_cases hrequest : request = .reconcilePass
  · subst hrequest
    exact Obeys.bind (safe_reconcileAll cfg) fun _ => Obeys.pure _
  · exact (modest_program cfg hrequest hassign).safe

/-! ## The table of runs -/

/-- Every stored run is good, and so is every row that could be built for an unused
identifier. -/
def AllFine (Good : String → Backend → DesiredState → Prop) (w : World) : Prop :=
  (∀ id run, w.row .runs id = some run → Fine Good run) ∧
    ∀ id, w.row .runs id = none → ∀ backend desired, Good id backend desired

theorem reads_of_exec {w w' : World} {op : Op} {ans : Ans op} (hw : AllFine Good w)
    (h : exec w op ans w') : Reads Good op ans := by
  cases op with
  | sql q =>
    cases q with
    | first t p rank =>
      cases t with
      | runs =>
        rintro run rfl
        obtain ⟨hrow, hp⟩ := h.2.row_eq
        exact ⟨hp, hw.1 _ run hrow⟩
      | _ => trivial
    | find t p rank limit =>
      cases t with
      | runs =>
        rintro runs rfl run hrun
        exact hw.1 _ run (h.2.row_eq hrun).1
      | _ => trivial
    | _ => trivial
  | newRunID digits => exact hw.2 ans h.2.1
  | _ => trivial

/-- Writing good copies keeps the stored runs good. -/
theorem allFine_of_exec {w w' : World} {op : Op} {ans : Ans op} (hw : AllFine Good w)
    (hop : Writes Good op) (h : exec w op ans w') : AllFine Good w' := by
  have hsame : (∀ id, w'.row .runs id = w.row .runs id) → AllFine Good w' := by
    intro hrow
    refine ⟨fun id run hrun => hw.1 id run ?_, fun id hnone => hw.2 id ?_⟩
    · rw [← hrow id, hrun]
    · rw [← hrow id, hnone]
  cases op with
  | sql q =>
    by_cases htarget : q.target = some .runs
    · cases q with
      | save t run =>
        obtain rfl : t = Table.runs := Option.some.inj htarget
        refine ⟨fun id run' hrun' => ?_, fun id hnone => ?_⟩
        · rcases h.row_of_save id with hrow | ⟨-, hrow⟩
          · rw [hrow] at hrun'
            exact hw.1 id run' hrun'
          · rw [hrow] at hrun'
            obtain rfl := Option.some.inj hrun'
            exact hop
        · rcases h.row_of_save id with hrow | ⟨-, hrow⟩
          · rw [hrow] at hnone
            exact hw.2 id hnone
          · rw [hrow] at hnone
            cases hnone
      | insert t r onConflict | update t p set key_set | delete t p =>
        obtain rfl : t = Table.runs := Option.some.inj htarget
        exact hop.elim
      | _ => cases htarget
    · exact hsame fun id => h.row_of_target_ne htarget id
  | newRunID digits => exact hsame fun id => by rw [h.1]
  | _ => exact hsame fun id => by rw [show w' = w from h]

end RL
end Skyscale
