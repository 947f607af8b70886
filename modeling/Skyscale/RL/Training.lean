import Skyscale.RL.Attempts

/-!
# A pass and the attempt of its run

What a pass over a run keeps (`Working`): attempts stay numbered, the training jobs it applies
resume where their attempts say, and the copy of the run stands with its attempts as the
stored run does in `Settles`.  The last is claimed as long as no statement fails.

Only a few operations of a pass matter here.  Everything it does beside them (`Beside`) moves
the ledger on (`Onward`) and keeps the invariant.  A pass that trains its run holds the attempt
in its hands (`Equipped`) from `ensureAttempt` to the end.
-/

namespace Skyscale
namespace RL

open Lib State Control K8s Contracts

/-! ## Logs -/

/-- A statement failed; that a lookup finds nothing is no failure. -/
def storeError : Entry → Bool
  | .performed _ (.sql (.first _ _ _)) (.error .notFound) => false
  | .performed _ (.sql q) ans => failed (.sql q) ans
  | _ => false

/-- No statement has failed. -/
def Steady (log : List Entry) : Prop := ∀ entry ∈ log, storeError entry = false

theorem Steady.left {log log' : List Entry} (h : Steady (log ++ log')) : Steady log :=
  fun entry hentry => h entry (List.mem_append_left _ hentry)

/-- All training jobs that were applied resume where their attempts say. -/
def JobsResume (cfg : Config) (L : Ledger) : Prop :=
  ∀ w execution attemptID ans,
    Entry.performed w (.apply (renderRayJob execution attemptID)) ans ∈ L.log →
    Resumes cfg L.world execution attemptID

/-- The entries apply no training job. -/
def JobFree (entries : List Entry) : Prop :=
  ∀ w execution attemptID ans,
    Entry.performed w (.apply (renderRayJob execution attemptID)) ans ∉ entries

section Logs

variable {cfg : Config} {L L' : Ledger}

theorem JobsResume.carry {entries : List Entry} (h : JobsResume cfg L)
    (hretains : Retains L.world L'.world) (hlog : L'.log = L.log ++ entries)
    (hfree : JobFree entries) : JobsResume cfg L' := by
  intro w execution attemptID ans hmem
  rw [hlog] at hmem
  rcases List.mem_append.mp hmem with hbefore | hnew
  · exact (h w execution attemptID ans hbefore).carry hretains
  · exact absurd hnew (hfree w execution attemptID ans)

theorem jobFree_sql (w0 : World) {q : Statement schema} (ans : Ans (.sql q)) :
    JobFree [Entry.performed w0 (.sql q) ans] :=
  fun _ _ _ _ hmem => nomatch List.mem_singleton.mp hmem

theorem not_steady_of_failed {q : Statement schema} {ans : Ans (.sql q)}
    (hrec : L.Records (.sql q) ans L')
    (hfailed : storeError (.performed L.world (.sql q) ans) = true) : ¬Steady L'.log := by
  intro hsteady
  rw [hrec.2] at hsteady
  have hfine := hsteady _ (List.mem_append_right _ (List.mem_singleton_self _))
  rw [hfailed] at hfine
  cases hfine

end Logs

/-! ## The invariant of a pass -/

/-- Since `L0`, the training job of the attempt was observed, and it had failed. -/
def Noticed (L0 : Ledger) (spec : RLRunSpec) (attemptID : String) (L : Ledger) : Prop :=
  ∃ (entries : List Entry) (w : World) (job : Object), L.log = L0.log ++ entries ∧
    Entry.performed w (.getObject .rayJob (renderRayJob spec attemptID).namespace_
      (renderRayJob spec attemptID).name) (Except.ok job : Except ClientError Object) ∈ entries ∧
    jobFailed (trainingStatus job) = true

/-- That was the current attempt of the run. -/
def Seen (cfg : Config) (L0 : Ledger) (run : RLRun) (L : Ledger) : Prop :=
  ∃ (a : RLAttempt) (spec : RLRunSpec), L.world.row .attempts run.currentAttemptID = some a ∧
    a.runID = run.id ∧ snapshotSpec cfg run spec ∧ Noticed L0 spec a.id L

/-- What holds during a pass over the run that began with `L0`: of the copy of the run in place
of its stored row.  The jobs are only spoken about under a condition. -/
structure Working (cfg : Config) (C : Prop) (L0 : Ledger) (id : String) (copy : RLRun)
    (L : Ledger) : Prop where
  named : copy.id = id
  numbered : Numbered L.world
  current : Named copy
  stored : ∃ found : RLRun, L.world.row .runs id = some found ∧
    found.snapshotJSON = copy.snapshotJSON
  moves : Moves id L0.world L.world
  log : ∃ entries, L.log = L0.log ++ entries
  jobs : C → JobsResume cfg L
  settled : Steady L.log → Settles cfg L.world copy
  failed : copy.status = .failed → Seen cfg L0 copy L

/-- The runs, attempts and checkpoints are the same, and no training job was applied. -/
structure Onward (L L' : Ledger) : Prop where
  runs : L'.world.table .runs = L.world.table .runs
  attempts : L'.world.table .attempts = L.world.table .attempts
  checkpoints : L'.world.table .checkpoints = L.world.table .checkpoints
  log : ∃ entries, L'.log = L.log ++ entries ∧ JobFree entries

section Steps

variable {cfg : Config} {C : Prop} {id : String} {L0 L L1 L' : Ledger} {copy copy' : RLRun}
variable {a a' : RLAttempt} {spec : RLRunSpec}

theorem Onward.refl (L : Ledger) : Onward L L :=
  ⟨rfl, rfl, rfl, [], (List.append_nil _).symm, fun _ _ _ _ => List.not_mem_nil⟩

theorem Onward.trans (h : Onward L L1) (h' : Onward L1 L') : Onward L L' := by
  obtain ⟨entries, hlog, hfree⟩ := h.log
  obtain ⟨entries', hlog', hfree'⟩ := h'.log
  refine ⟨h'.runs.trans h.runs, h'.attempts.trans h.attempts,
    h'.checkpoints.trans h.checkpoints, entries ++ entries', ?_, fun w s a ans hmem => ?_⟩
  · rw [hlog', hlog, List.append_assoc]
  · rcases List.mem_append.mp hmem with hfirst | hlater
    · exact hfree w s a ans hfirst
    · exact hfree' w s a ans hlater

theorem onward_of_beside {op : Op} {ans : Ans op} (hrec : L.Records op ans L') (hop : Beside op) :
    Onward L L' := by
  have htable : ∀ t : Table, t = .runs ∨ t = .attempts ∨ t = .checkpoints →
      L'.world.table t = L.world.table t := by
    intro t ht
    cases op with
    | sql q =>
      refine hrec.table_of_target_ne fun htarget => ?_
      rcases ht with rfl | rfl | rfl
      all_goals simp only [Beside, htarget] at hop
    | newRunID digits => rw [hrec.1.1]
    | _ => rw [show L'.world = L.world from hrec.1]
  refine ⟨htable _ (.inl rfl), htable _ (.inr (.inl rfl)), htable _ (.inr (.inr rfl)),
    _, hrec.2, fun w s a ans' hmem => ?_⟩
  have hentry := List.mem_singleton.mp hmem
  injection hentry with _ hsame
  subst hsame
  exact hop s a rfl

theorem onward_of_error {q : Statement schema} {ans : Ans (.sql q)}
    (hrec : L.Records (.sql q) ans L') (hworld : L'.world = L.world) : Onward L L' :=
  ⟨by rw [hworld], by rw [hworld], by rw [hworld], _, hrec.2, jobFree_sql _ _⟩

variable {entries : List Entry}

theorem Noticed.later {attemptID : String} (h : Noticed L0 spec attemptID L)
    (hlog : L'.log = L.log ++ entries) : Noticed L0 spec attemptID L' := by
  obtain ⟨entries0, w, job, hlog0, hmem, hfailed⟩ := h
  refine ⟨entries0 ++ entries, w, job, ?_, List.mem_append_left _ hmem, hfailed⟩
  rw [hlog, hlog0, List.append_assoc]

theorem Seen.later (h : Seen cfg L0 copy L) (hid : copy'.id = copy.id)
    (hcurrent : copy'.currentAttemptID = copy.currentAttemptID)
    (hsnapshot : copy'.snapshotJSON = copy.snapshotJSON) (hlog : L'.log = L.log ++ entries)
    (hattempts : L'.world.table .attempts = L.world.table .attempts) : Seen cfg L0 copy' L' := by
  obtain ⟨a, spec, hrow, hrun, hspec, hnoticed⟩ := h
  refine ⟨a, spec, ?_, hrun.trans hid.symm, snapshotSpec_congr hspec hsnapshot.symm,
    hnoticed.later hlog⟩
  rw [hcurrent]
  exact (row_congr hattempts _).trans hrow

theorem Working.step (h : Working cfg C L0 id copy L) (hmoves : Moves id L.world L'.world)
    (hnumbered : Numbered L'.world) (hlog : L'.log = L.log ++ entries) (hfree : JobFree entries)
    (hid : copy'.id = copy.id) (hsnapshot : copy'.snapshotJSON = copy.snapshotJSON)
    (hnamed : Named copy') (hsettled : Steady L'.log → Settles cfg L'.world copy')
    (hfailed : copy'.status = .failed → Seen cfg L0 copy' L') : Working cfg C L0 id copy' L' := by
  obtain ⟨found, hfound, hsame⟩ := h.stored
  obtain ⟨found', hfound', hsame'⟩ := hmoves.stored found hfound
  obtain ⟨entries0, hlog0⟩ := h.log
  refine ⟨hid.trans h.named, hnumbered, hnamed,
    ⟨found', hfound', hsame'.trans (hsame.trans hsnapshot.symm)⟩, h.moves.trans hmoves,
    ⟨entries0 ++ entries, ?_⟩, fun hC => (h.jobs hC).carry hmoves.retains hlog hfree, hsettled,
    hfailed⟩
  rw [hlog, hlog0, List.append_assoc]

theorem Working.onward (h : Working cfg C L0 id copy L) (honward : Onward L L') :
    Working cfg C L0 id copy L' := by
  have hrun := fun k => row_congr honward.runs k
  obtain ⟨entries, hlog, hfree⟩ := honward.log
  refine h.step (Moves.of_tables honward.runs honward.attempts honward.checkpoints) ?_ hlog hfree
    rfl rfl h.current (fun hsteady => ?_) fun hfailed => ?_
  · exact h.numbered.frame honward.attempts (fun k run hrow => ⟨run, (hrun k).trans hrow⟩)
      fun k run hrow => h.numbered.current k run ((hrun k).symm.trans hrow)
  · rw [hlog] at hsteady
    exact (h.settled hsteady.left).frame honward.attempts
  · exact (h.failed hfailed).later rfl rfl rfl hlog honward.attempts

theorem Working.assign (h : Working cfg C L0 id copy L) (hid : copy'.id = copy.id)
    (hcurrent : copy'.currentAttemptID = copy.currentAttemptID)
    (hsnapshot : copy'.snapshotJSON = copy.snapshotJSON)
    (hstatus : copy'.status = .failed → copy.status = .failed) :
    Working cfg C L0 id copy' L := by
  refine h.step (Moves.refl _) h.numbered (List.append_nil _).symm (fun _ _ _ _ => List.not_mem_nil)
    hid hsnapshot ?_ (fun hsteady => (h.settled hsteady).congr hid hcurrent hsnapshot hstatus)
    fun hfailed => (h.failed (hstatus hfailed)).later hid hcurrent hsnapshot
      (List.append_nil _).symm rfl
  have hnamed := h.current
  unfold Named at hnamed ⊢
  rwa [hid, hcurrent]

/-- The copy is saved. -/
theorem Working.save {ans : Ans (.sql (.save .runs copy))} (h : Working cfg C L0 id copy L)
    (hrec : L.Records (.sql (.save .runs copy)) ans L') :
    Working cfg C L0 id copy L' ∧ (Steady L'.log → L'.world.row .runs id = some copy) := by
  cases ans with
  | error e =>
    -- the failed write is in the log, so nothing is claimed of the stored run
    have hbad : ¬Steady L'.log := not_steady_of_failed hrec (by cases e with | _ => rfl)
    exact ⟨h.onward (onward_of_error hrec hrec.1), fun hsteady => absurd hsteady hbad⟩
  | ok _ =>
    have hworld : L'.world = L.world.save Table.runs copy := hrec.1
    obtain ⟨found, hfound, hsame⟩ := h.stored
    have hattempts : L'.world.table .attempts = L.world.table .attempts :=
      hrec.table_of_target_ne nofun
    refine ⟨h.step ?_ ?_ hrec.2 (jobFree_sql _ _) rfl rfl h.current (fun hsteady => ?_)
      fun hfailed => (h.failed hfailed).later rfl rfl rfl hrec.2 hattempts, fun _ => ?_⟩
    · rw [hworld]
      exact Moves.saveRun hfound hsame.symm h.named
    · rw [hworld]
      exact h.numbered.saveRun h.current
    · rw [hrec.2] at hsteady
      exact (h.settled hsteady.left).frame hattempts
    · rw [hworld, ← h.named]
      exact row_save_run_self _ _

/-- The next attempt of the run is saved, and the copy names it. -/
theorem Working.next {ans : Ans (.sql (.save .attempts a))} (h : Working cfg C L0 id copy L)
    (hnext : Next L.world id a) (hempty : copy.currentAttemptID = "")
    (hid : copy'.id = copy.id) (hsnapshot : copy'.snapshotJSON = copy.snapshotJSON)
    (hcurrent : copy'.currentAttemptID = a.id) (hstatus : copy'.status ≠ .failed)
    (hrec : L.Records (.sql (.save .attempts a)) ans L') : Working cfg C L0 id copy' L' := by
  have hnamed : Named copy' := .inr ⟨_, by rw [hcurrent, hid, h.named]; exact hnext.named⟩
  cases ans with
  | error e =>
    have hworld : L'.world = L.world := hrec.1
    refine h.step ?_ ?_ hrec.2 (jobFree_sql _ _) hid hsnapshot hnamed (fun hsteady => ?_)
      fun hfailed => absurd hfailed hstatus
    · rw [hworld]
      exact Moves.refl _
    · rw [hworld]
      exact h.numbered
    · exact absurd hsteady (not_steady_of_failed hrec rfl)
  | ok _ =>
    have hworld : L'.world = L.world.save Table.attempts a := hrec.1
    obtain ⟨found, hfound, -⟩ := h.stored
    refine h.step ?_ ?_ hrec.2 (jobFree_sql _ _) hid hsnapshot hnamed (fun hsteady => ?_)
      fun hfailed => absurd hfailed hstatus
    · rw [hworld]
      exact Moves.saveNext h.numbered hnext
    · rw [hworld]
      exact h.numbered.saveNext hnext ⟨found, hfound⟩
    · rw [hrec.2] at hsteady
      rw [hworld]
      exact (h.settled hsteady.left).next h.numbered (h.named ▸ hnext) hempty hid hsnapshot
        hcurrent hstatus

/-- The attempt of the run is saved after its training job was observed. -/
theorem Working.observed {ans : Ans (.sql (.save .attempts a'))} (h : Working cfg C L0 id copy L)
    (hrewrites : Rewrites L.world a a') (hrun : a.runID = id)
    (hcurrent : copy.currentAttemptID = a.id) (hspec : snapshotSpec cfg copy spec)
    (hid : copy'.id = copy.id) (hsnapshot : copy'.snapshotJSON = copy.snapshotJSON)
    (hobserved : AfterJob (maxRetries spec) copy a' copy')
    (hnoticed : copy'.status = .failed → Noticed L0 spec a'.id L)
    (hrec : L.Records (.sql (.save .attempts a')) ans L') : Working cfg C L0 id copy' L' := by
  have hnamed : Named copy' := by
    have hbefore := h.current
    unfold Named at hbefore ⊢
    cases hobserved with
    | going hkeep _ | spent hkeep _ _ => rwa [hkeep, hid]
    | retry hempty _ _ => exact .inl hempty
  have hspec' : snapshotSpec cfg copy' spec := snapshotSpec_congr hspec hsnapshot.symm
  have hseen : copy'.status = .failed → ∀ b : RLAttempt,
      L'.world.row .attempts copy.currentAttemptID = some b → b.runID = copy.id → b.id = a'.id →
      Seen cfg L0 copy' L' := by
    intro hfailed b hrow hrun' hname
    cases hobserved with
    | going _ hstatus | retry _ hstatus _ => exact absurd hfailed hstatus
    | spent hkeep _ _ =>
      refine ⟨b, spec, hkeep ▸ hrow, hrun'.trans hid.symm, hspec', ?_⟩
      rw [hname]
      exact (hnoticed hfailed).later hrec.2
  cases ans with
  | error e =>
    have hworld : L'.world = L.world := hrec.1
    refine h.step ?_ ?_ hrec.2 (jobFree_sql _ _) hid hsnapshot hnamed (fun hsteady => ?_)
      fun hfailed => hseen hfailed a ?_ (hrun.trans h.named.symm) hrewrites.id.symm
    · rw [hworld]
      exact Moves.refl _
    · rw [hworld]
      exact h.numbered
    · exact absurd hsteady (not_steady_of_failed hrec rfl)
    · rw [hworld, hcurrent]
      exact hrewrites.stored
  | ok _ =>
    have hworld : L'.world = L.world.save Table.attempts a' := hrec.1
    refine h.step ?_ ?_ hrec.2 (jobFree_sql _ _) hid hsnapshot hnamed (fun hsteady => ?_)
      fun hfailed => hseen hfailed a' ?_
        (hrewrites.runID.trans (hrun.trans h.named.symm)) rfl
    · rw [hworld]
      exact hrewrites.moves hrun
    · rw [hworld]
      exact h.numbered.rewrite hrewrites
    · rw [hrec.2] at hsteady
      rw [hworld]
      exact (h.settled hsteady.left).observed h.numbered hrewrites (hcurrent ▸ hrewrites.stored)
        (hrun.trans h.named.symm) hspec hid hsnapshot hobserved
    · rw [hworld, hcurrent, ← hrewrites.id]
      exact row_save_attempt_self _ _

end Steps

/-! ## Cancellation, suspension and evaluation -/

/-- The copy is stored, as far as the writes succeeded. -/
structure Saved (cfg : Config) (C : Prop) (L0 : Ledger) (id : String) (copy : RLRun)
    (L : Ledger) : Prop where
  working : Working cfg C L0 id copy L
  stored : Steady L.log → L.world.row .runs id = some copy

section Parts

variable {cfg : Config} {C : Prop} {id : String} {L0 L L' : Ledger} {run copy : RLRun}
variable {spec : RLRunSpec} {α : Type}

theorem tame_working :
    Tame Beside Judging (acting Ledger.Records) (Working cfg C L0 id) where
  leaves := Leaves.keeps fun _ _ _ _ _ hop hrec h => h.onward (onward_of_beside hrec hop)
  assign hf := Keeps.modify fun run _ h => by
    obtain ⟨hkernel, hcurrent, hstatus⟩ := hf run
    obtain ⟨hid, -, -, hsnapshot⟩ : _ ∧ _ ∧ _ ∧ _ := by
      simpa only [kernel, Prod.mk.injEq] using hkernel
    exact h.assign hid hcurrent hsnapshot hstatus
  save _ _ h _ _ hrec := (h.save hrec).1

theorem Leaves.onward {β : Type} {m : Pass α} {f : α → Pass β} {Ok : β → RLRun → Ledger → Prop}
    {Err : RLRun → Ledger → Prop} (hm : Leaves Beside m) (herror : ∀ L', Onward L L' → Err copy L')
    (hf : ∀ a L', Onward L L' → Ends Ok Err (f a) copy L') : Ends Ok Err (m >>= f) copy L :=
  Leaves.then Onward.refl (fun h1 h2 => Onward.trans h1 h2)
    (fun L op ans L' (hop : Beside op) (hrec : L.Records op ans L') => onward_of_beside hrec hop)
    hm herror hf

theorem Leaves.working {m : Pass α} (hm : Leaves Beside m) :
    Keeps (acting Ledger.Records) (Working cfg C L0 id) m :=
  tame_working.leaves hm

theorem saved_saveRun (h : Working cfg C L0 id copy L) :
    Ends (fun _ copy' L' => Saved cfg C L0 id copy' L') (Working cfg C L0 id) saveRun copy L := by
  refine Act.At.get (Act.At.attempt fun ans L' hrec => ?_)
  obtain ⟨hworking, hstored⟩ := h.save hrec
  exact ⟨fun _ _ => ⟨hworking, hstored⟩, fun _ _ => hworking⟩

theorem saved_cancelBranch (h : Working cfg C L0 id copy L) :
    Ends (fun _ copy' L' => Saved cfg C L0 id copy' L') (Working cfg C L0 id)
      cancelBranch copy L := by
  refine Act.At.get ?_
  split
  · refine Act.At.seq (Act.At.of_keeps idle_suspendOwned.beside.working h) ?_
    exact fun _ _ _ h1 => Act.At.modify (saved_saveRun (h1.assign rfl rfl rfl nofun))
  · refine Act.At.modify (Act.At.get (Act.At.call fun ans L1 hrec => ?_))
    have hdeleting : Working cfg C L0 id
        { copy with status := .cancelling, observedState := "deleting" } L :=
      h.assign rfl rfl rfl nofun
    have h1 := (hdeleting.save hrec).1
    refine Act.At.seq (Act.At.of_keeps idle_deleteOwned.beside.working h1) ?_
    intro done copy2 L2 h2
    split
    · exact Act.At.modify (saved_saveRun (h2.assign rfl rfl rfl nofun))
    · exact saved_saveRun h2

theorem saved_suspendBranch (h : Working cfg C L0 id copy L) :
    Ends (fun _ copy' L' => Saved cfg C L0 id copy' L') (Working cfg C L0 id)
      suspendBranch copy L := by
  refine Act.At.seq (Act.At.of_keeps idle_suspendOwned.beside.working h) ?_
  exact fun _ _ _ h1 => Act.At.modify (saved_saveRun (h1.assign rfl rfl rfl nofun))

theorem saved_bind {β : Type} {m : Pass α} {f : α → Pass β}
    (hm : Keeps (acting Ledger.Records) (Working cfg C L0 id) m) (h : Working cfg C L0 id copy L)
    (hf : ∀ a copy' L', Working cfg C L0 id copy' L' →
      Ends (fun _ copy' L' => Saved cfg C L0 id copy' L') (Working cfg C L0 id) (f a) copy' L') :
    Ends (fun _ copy' L' => Saved cfg C L0 id copy' L') (Working cfg C L0 id) (m >>= f) copy L :=
  Act.At.seq (Act.At.of_keeps hm h) hf

theorem saved_reconcileEvaluation (h : Working cfg C L0 id copy L) :
    Ends (fun _ copy' L' => Saved cfg C L0 id copy' L') (Working cfg C L0 id)
      (reconcileEvaluation cfg spec) copy L := by
  refine Act.At.get ?_
  have hload : Leaves Beside (Act.attempt (fun e : Failure => "load evaluation: " ++ e.text)
      (getRLEvaluation copy.id copy.policyVersion)) := Leaves.attempt (Obeys.perform trivial)
  refine saved_bind hload.working h fun e copy1 L1 h1 => ?_
  have hattempt : Leaves Beside (stored (getRLAttempt copy.currentAttemptID)) :=
    Leaves.stored (Obeys.perform trivial)
  refine saved_bind hattempt.working h1 fun attempt copy2 L2 h2 => ?_
  have hrollout : Leaves Idle (Act.when (spec.topology.mode = "disaggregated")
      (applyAndTrack attempt (renderRolloutDeploymentState spec (stableVersion copy)
        spec.topology.rollout.minReplicas false))) :=
    Leaves.when (idle_applyAndTrack attempt (ne_renderRayJob_of_kind nofun))
  refine saved_bind hrollout.beside.working h2 fun _ copy3 L3 h3 => ?_
  refine saved_bind (tame_working.evaluatorStage attempt e) h3 fun e1 copy4 L4 h4 => ?_
  refine saved_bind (tame_working.canaryStage attempt e1) h4 fun e2 copy5 L5 h5 => ?_
  have hdecision : Tame Decides (fun f => Judging f ∧ Ending f) (acting Ledger.Records)
      (Working cfg C L0 id) := tame_working.mono (fun _ => Decides.beside) fun _ => And.left
  refine saved_bind (hdecision.decisionStage e2) h5 fun _ copy6 L6 h6 => ?_
  have hsave : Leaves Beside (stored (saveRLEvaluation e2)) := Leaves.stored (Obeys.perform trivial)
  exact saved_bind hsave.working h6 fun _ copy7 L7 h7 => saved_saveRun h7

end Parts

/-! ## Training -/

/-- A pass over the run trains it. -/
structure Trains (run : RLRun) : Prop where
  slime : run.backend = .slime
  live : terminal run.status = false
  desired : run.desiredState ≠ .cancelled ∧ run.desiredState ≠ .suspended
  status : run.status ≠ .cancelling ∧ run.status ≠ .evaluating ∧ run.status ≠ .canary

/-- The checkpoint a job of the run may resume from: the run's, or if it has none, the latest
committed one. -/
def NextResume (w : World) (run : RLRun) (checkpointID : String) : Prop :=
  checkpointID = run.checkpointID ∨
    run.checkpointID = "" ∧ ∃ c, LatestCheckpoint w run.id c ∧ checkpointID = c.id

/-- The resume point recorded in the run's attempt, or in the one that is about to be made. -/
def RecordedResume (w : World) (run : RLRun) (checkpointID : String) : Prop :=
  run.currentAttemptID = "" ∧ checkpointID = run.checkpointID ∨
    ∃ a : RLAttempt, w.row .attempts run.currentAttemptID = some a ∧
      checkpointID = a.resumeCheckpointID

/-- If a pass trains the run now, the checkpoint its job resumes from has the address of the
resume point recorded in its attempt. -/
def Continues (cfg : Config) (w : World) (run : RLRun) : Prop :=
  Trains run → ∀ spec, snapshotSpec cfg run spec →
    ∀ point, RecordedResume w run point → ∀ next, NextResume w run next →
      ∀ uri, resumeURI w spec next = some uri → resumeURI w spec point = some uri

/-- During a pass that trains the run: the attempt is stored, it is the run's, and the copy
names it. -/
structure Equipped (cfg : Config) (C : Prop) (L0 : Ledger) (run : RLRun) (attempt : RLAttempt)
    (copy : RLRun) (L : Ledger) : Prop where
  working : Working cfg C L0 run.id copy L
  row : L.world.row .attempts attempt.id = some attempt
  owner : attempt.runID = run.id
  current : copy.currentAttemptID = attempt.id
  snapshot : copy.snapshotJSON = run.snapshotJSON
  point : RecordedResume L0.world run attempt.resumeCheckpointID
  next : NextResume L0.world run copy.checkpointID
  live : copy.status ≠ .failed

section Train

variable {cfg : Config} {C : Prop} {L0 L L' : Ledger} {run copy copy' : RLRun}
variable {attempt attempt' : RLAttempt} {spec : RLRunSpec} {α β : Type}

theorem Equipped.onward (h : Equipped cfg C L0 run attempt copy L) (honward : Onward L L') :
    Equipped cfg C L0 run attempt copy L' where
  working := h.working.onward honward
  row := (row_congr honward.attempts _).trans h.row
  owner := h.owner
  current := h.current
  snapshot := h.snapshot
  point := h.point
  next := h.next
  live := h.live

theorem Equipped.then {m : Pass α} {f : α → Pass β} {Ok : β → RLRun → Ledger → Prop}
    (h : Equipped cfg C L0 run attempt copy L) (hm : Leaves Beside m)
    (hf : ∀ a L', Equipped cfg C L0 run attempt copy L' →
      Ends Ok (Working cfg C L0 run.id) (f a) copy L') :
    Ends Ok (Working cfg C L0 run.id) (m >>= f) copy L :=
  hm.onward (fun _ honward => h.working.onward honward) fun a L' honward =>
    hf a L' (h.onward honward)

theorem Equipped.assign (h : Equipped cfg C L0 run attempt copy L) (hid : copy'.id = copy.id)
    (hcurrent : copy'.currentAttemptID = copy.currentAttemptID)
    (hsnapshot : copy'.snapshotJSON = copy.snapshotJSON)
    (hnext : NextResume L0.world run copy'.checkpointID) (hstatus : copy'.status ≠ .failed) :
    Equipped cfg C L0 run attempt copy' L where
  working := h.working.assign hid hcurrent hsnapshot fun hfailed => absurd hfailed hstatus
  row := h.row
  owner := h.owner
  current := hcurrent.trans h.current
  snapshot := hsnapshot.trans h.snapshot
  point := h.point
  next := hnext
  live := hstatus

theorem Equipped.save (h : Equipped cfg C L0 run attempt copy L) :
    Ends (fun _ copy' L' => Equipped cfg C L0 run attempt copy' L') (Working cfg C L0 run.id)
      saveRun copy L := by
  refine Act.At.get (Act.At.attempt fun ans L' hrec => ?_)
  have hsaved := (h.working.save hrec).1
  refine ⟨fun _ _ => ?_, fun _ _ => hsaved⟩
  exact ⟨hsaved, (hrec.row_of_target_ne (t := .attempts) nofun _).trans h.row, h.owner,
    h.current, h.snapshot, h.point, h.next, h.live⟩

/-- The attempt of the pass: the current one, or the next. -/
theorem equipped_ensureAttempt (h : Working cfg C L0 run.id run L) (hlive : run.status ≠ .failed)
    (hattempts : L.world.table .attempts = L0.world.table .attempts) :
    Ends (fun attempt copy' L' => Equipped cfg C L0 run attempt copy' L') (Working cfg C L0 run.id)
      (ensureAttempt spec) run L := by
  refine Act.At.get ?_
  by_cases hempty : run.currentAttemptID = ""
  · rw [if_neg (not_not.mpr hempty)]
    refine Act.At.bind (Act.At.attempt fun ans L1 hrec => ?_)
    have honward : Onward L L1 := onward_of_beside hrec trivial
    have h1 := h.onward honward
    refine ⟨?_, fun _ _ => h1⟩
    rintro attempts rfl
    have hlength : attempts.length = attemptCount L1.world run.id := by
      rw [attemptCount_congr honward.attempts]
      exact Database.Lists.length_eq hrec.1.2
    have hnext : Next L1.world run.id (newAttempt run spec (attempts.length + 1)) := by
      rw [hlength]
      exact ⟨rfl, rfl, rfl⟩
    refine Act.At.modify (Act.At.bind (Act.At.attempt fun ans L2 hsave => ?_))
    have h2 : Working cfg C L0 run.id { run with
          currentAttemptID := (newAttempt run spec (attempts.length + 1)).id, status := .starting
          observedState := "reconciling" } L2 :=
      h1.next hnext hempty rfl rfl rfl nofun hsave
    refine ⟨?_, fun _ _ => h2⟩
    rintro _ rfl
    have hrow : L2.world.row .attempts (newAttempt run spec (attempts.length + 1)).id =
        some (newAttempt run spec (attempts.length + 1)) := by
      rw [show L2.world = _ from hsave.1]
      exact row_save_attempt_self _ _
    have hequipped : Equipped cfg C L0 run (newAttempt run spec (attempts.length + 1)) { run with
          currentAttemptID := (newAttempt run spec (attempts.length + 1)).id, status := .starting
          observedState := "reconciling" } L2 :=
      ⟨h2, hrow, rfl, rfl, rfl, .inl ⟨hempty, rfl⟩, .inl rfl, nofun⟩
    refine Act.At.seq hequipped.save ?_
    exact fun _ _ _ h3 => Act.At.pure h3
  · rw [if_pos hempty]
    refine Act.At.attempt fun ans L1 hrec => ?_
    have honward : Onward L L1 := onward_of_beside hrec trivial
    have h1 := h.onward honward
    refine ⟨?_, fun _ _ => h1⟩
    rintro attempt rfl
    have hkey : ∀ row : RLAttempt,
        decide (row.id = run.currentAttemptID) = true ↔ row.id = run.currentAttemptID :=
      fun _ => decide_eq_true_iff
    have hexec : L.world.Exec (.first .attempts (fun a : RLAttempt => a.id = run.currentAttemptID)
      unordered) (.ok attempt) L1.world := hrec.1
    obtain ⟨hworld, hrow⟩ := hexec.row_of_first hkey
    have hid : attempt.id = run.currentAttemptID := L.world.keyed .attempts _ attempt hrow
    have hbefore : L0.world.row .attempts run.currentAttemptID = some attempt :=
      (row_congr hattempts _).symm.trans hrow
    refine ⟨h1, ?_, h.numbered.runID_eq h.current hrow, hid.symm, rfl,
      .inr ⟨attempt, hbefore, rfl⟩, .inl rfl, hlive⟩
    rw [hworld, hid]
    exact hrow

theorem equipped_rolloutBranch (h : Equipped cfg C L0 run attempt copy L) :
    Ends (fun _ copy' L' => Equipped cfg C L0 run attempt copy' L') (Working cfg C L0 run.id)
      (rolloutBranch spec attempt) copy L := by
  have hservice : Leaves Idle (applyAndTrack attempt (renderRolloutService spec)) :=
    idle_applyAndTrack attempt (ne_renderRayJob_of_kind nofun)
  refine h.then hservice.beside fun _ L1 h1 => ?_
  refine Act.At.get (Act.At.modify ?_)
  refine Equipped.then (h1.assign rfl rfl rfl h1.next h1.live) (Leaves.beside ?_) fun _ L2 h2 =>
    h2.save
  exact idle_applyAndTrack attempt (ne_renderRayJob_of_kind nofun)

theorem equipped_adoptCheckpoint (h : Equipped cfg C L0 run attempt copy L) :
    Ends (fun _ copy' L' => Equipped cfg C L0 run attempt copy' L') (Working cfg C L0 run.id)
      adoptCheckpoint copy L := by
  refine Act.At.get ?_
  split
  · rename_i hempty
    refine Act.At.call fun ans L1 hrec => ?_
    have h1 := h.onward (onward_of_beside hrec trivial)
    cases ans with
    | error e => exact Act.At.pure h1
    | ok checkpoint =>
      have hlatest : LatestCheckpoint L0.world run.id checkpoint := by
        have hlatest :=
          (latestCheckpoint_of_records rfl rfl hrec).of_table h.working.moves.checkpoints
        rwa [h.working.named] at hlatest
      have hnone : run.checkpointID = "" := by
        rcases h.next with hsame | ⟨hnone, -⟩
        · exact hsame.symm.trans hempty
        · exact hnone
      refine Act.At.modify (Equipped.save (h1.assign rfl rfl rfl ?_ h1.live))
      exact .inr ⟨hnone, checkpoint, hlatest, rfl⟩
  · exact Act.At.pure h

/-- The specification of the job resumes at the copy's checkpoint. -/
theorem equipped_executionSpec (h : Equipped cfg C L0 run attempt copy L) :
    Ends (fun execution copy' L' => Equipped cfg C L0 run attempt copy' L' ∧ ∃ uri,
        resumeURI L0.world spec copy'.checkpointID = some uri ∧ execution = resumeSpec spec uri)
      (Working cfg C L0 run.id) (executionSpec spec) copy L := by
  refine Act.At.get ?_
  split
  · rename_i hpresent
    refine Act.At.bind (Act.At.attempt fun ans L1 hrec => ?_)
    have h1 := h.onward (onward_of_beside hrec trivial)
    refine ⟨?_, fun _ _ => h1.working⟩
    rintro checkpoint rfl
    have hkey : ∀ row : RLCheckpointRecord,
        decide (row.id = copy.checkpointID) = true ↔ row.id = copy.checkpointID :=
      fun _ => decide_eq_true_iff
    have hexec : L.world.Exec (.first .checkpoints
      (fun row : RLCheckpointRecord => row.id = copy.checkpointID) unordered) (.ok checkpoint)
      L1.world := hrec.1
    have hrow : L0.world.row .checkpoints copy.checkpointID = some checkpoint :=
      (row_congr h.working.moves.checkpoints _).symm.trans
        (hexec.row_of_first hkey).2
    refine Act.At.pure ⟨h1, checkpoint.resumeURI, ?_, rfl⟩
    exact (if_neg hpresent).trans (Option.map_eq_some_iff.mpr ⟨checkpoint, hrow, rfl⟩)
  · rename_i hempty
    exact Act.At.pure ⟨h, spec.checkpoint.resumeFrom, if_pos (not_not.mp hempty), rfl⟩

theorem Equipped.resumes {uri : String} (h : Equipped cfg C L0 run attempt copy L)
    (htrains : Trains run) (hspec : snapshotSpec cfg run spec)
    (hcontinues : Continues cfg L0.world run)
    (huri : resumeURI L0.world spec copy.checkpointID = some uri) :
    Resumes cfg L.world (resumeSpec spec uri) attempt.id := by
  obtain ⟨found, hfound, hfixed⟩ := h.working.stored
  refine ⟨attempt, found, spec, uri, h.row, h.owner ▸ hfound, ?_, ?_, rfl⟩
  · exact snapshotSpec_congr hspec (h.snapshot.symm.trans hfixed.symm)
  · exact resumeURI_of_retains h.working.moves.retains
      (hcontinues htrains spec hspec _ h.point _ h.next uri huri)

theorem renderRayJob_inj {spec' : RLRunSpec} {attemptID attemptID' : String}
    (h : renderRayJob spec attemptID = renderRayJob spec' attemptID') :
    spec = spec' ∧ attemptID = attemptID' := by
  have hcontent : Content.rayJob spec attemptID = .rayJob spec' attemptID' :=
    congrArg Object.content h
  injection hcontent with hspec hattempt
  exact ⟨hspec, hattempt⟩

theorem object_of_entry {w w' : World} {object object' : Object} {ans : Ans (.apply object)}
    {ans' : Ans (.apply object')}
    (h : Entry.performed w (.apply object) ans = Entry.performed w' (.apply object') ans') :
    object = object' := by
  injection h with _ hop
  exact Op.apply.inj hop

theorem Equipped.apply {execution : RLRunSpec}
    {ans : Ans (.apply (renderRayJob execution attempt.id))}
    (h : Equipped cfg C L0 run attempt copy L)
    (hresumes : C → Resumes cfg L.world execution attempt.id)
    (hrec : L.Records (.apply (renderRayJob execution attempt.id)) ans L') :
    Equipped cfg C L0 run attempt copy L' := by
  have hworld : L'.world = L.world := hrec.1
  obtain ⟨entries, hlog⟩ := h.working.log
  refine ⟨⟨h.working.named, hworld ▸ h.working.numbered, h.working.current,
    hworld ▸ h.working.stored, hworld ▸ h.working.moves,
    ⟨_, by rw [hrec.2, hlog, List.append_assoc]⟩, fun hC => ?_, fun hsteady => ?_,
    fun hfailed => absurd hfailed h.live⟩, hworld ▸ h.row, h.owner, h.current, h.snapshot, h.point,
      h.next, h.live⟩
  · intro w other attemptID ans' hmem
    rw [hrec.2] at hmem
    rw [hworld]
    rcases List.mem_append.mp hmem with hbefore | hnew
    · exact h.working.jobs hC w other attemptID ans' hbefore
    · have hobject := object_of_entry (List.mem_singleton.mp hnew)
      obtain ⟨rfl, rfl⟩ := renderRayJob_inj hobject
      exact hresumes hC
  · rw [hrec.2] at hsteady
    rw [hworld]
    exact h.working.settled hsteady.left

/-- The run after an observation, in which the attempt is written back. -/
structure Concludes (cfg : Config) (C : Prop) (L0 : Ledger) (run : RLRun) (spec : RLRunSpec)
    (attempt attempt' : RLAttempt) (before copy : RLRun) (L : Ledger) : Prop where
  equipped : Equipped cfg C L0 run attempt before L
  rewrites : Rewrites L.world attempt attempt'
  id : copy.id = before.id
  snapshot : copy.snapshotJSON = before.snapshotJSON
  outcome : AfterJob (maxRetries spec) before attempt' copy
  noticed : copy.status = .failed → Noticed L0 spec attempt'.id L

theorem Equipped.concludes (h : Equipped cfg C L0 run attempt copy L)
    (hsame : attempt'.id = attempt.id ∧ attempt'.runID = attempt.runID ∧
      attempt'.number = attempt.number ∧
      attempt'.resumeCheckpointID = attempt.resumeCheckpointID)
    (hid : copy'.id = copy.id) (hsnapshot : copy'.snapshotJSON = copy.snapshotJSON)
    (houtcome : AfterJob (maxRetries spec) copy attempt' copy')
    (hnoticed : copy'.status = .failed → Noticed L0 spec attempt'.id L) :
    Concludes cfg C L0 run spec attempt attempt' copy copy' L :=
  ⟨h, ⟨h.row, hsame.1, hsame.2.1, hsame.2.2.1, hsame.2.2.2⟩, hid, hsnapshot, houtcome, hnoticed⟩

theorem equipped_finishTraining (h : Equipped cfg C L0 run attempt copy L) :
    Ends (fun _ copy' L' => Equipped cfg C L0 run attempt copy' L') (Working cfg C L0 run.id)
      (finishTraining spec) copy L := by
  refine Act.At.get ?_
  split
  · have hsave : Leaves Beside (stored (saveRLEvaluation (finalEvaluation copy))) :=
      Leaves.stored (Obeys.perform trivial)
    refine h.then hsave fun _ L1 h1 => ?_
    show Equipped cfg C L0 run attempt { copy with
        status := .evaluating, observedState := "evaluation-pending", failureReason := "" } L1
    exact h1.assign rfl rfl rfl h1.next nofun
  · show Equipped cfg C L0 run attempt
      { copy with status := .completed, observedState := "succeeded", failureReason := "" } L
    exact h.assign rfl rfl rfl h.next nofun

theorem concludes_observeTraining {job : Object} (h : Equipped cfg C L0 run attempt copy L)
    (hnoticed : jobFailed (trainingStatus job) = true → Noticed L0 spec attempt.id L) :
    Ends (fun attempt' copy' L' => ∃ before,
        Concludes cfg C L0 run spec attempt attempt' before copy' L')
      (Working cfg C L0 run.id) (observeTraining attempt spec job) copy L := by
  unfold observeTraining
  dsimp only
  split
  · refine Act.At.seq (equipped_finishTraining h) fun _ copy1 L1 h1 => ?_
    exact Act.At.pure ⟨copy1, h1.concludes ⟨rfl, rfl, rfl, rfl⟩ rfl rfl (.going rfl h1.live)
      fun hfailed => absurd hfailed h1.live⟩
  · split
    · rename_i hjob
      unfold retryTraining
      split
      · rename_i hleft
        refine Act.At.modify (Act.At.pure ⟨copy, ?_⟩)
        exact h.concludes ⟨rfl, rfl, rfl, rfl⟩ rfl rfl (.retry rfl nofun hleft) nofun
      · rename_i hlast
        refine Act.At.modify (Act.At.pure ⟨copy, ?_⟩)
        exact h.concludes ⟨rfl, rfl, rfl, rfl⟩ rfl rfl (.spent rfl rfl (Int.not_le.mp hlast))
          fun _ => hnoticed hjob
    · refine Act.At.modify (Act.At.pure ⟨copy, ?_⟩)
      exact h.concludes ⟨rfl, rfl, rfl, rfl⟩ rfl rfl (.going rfl nofun) nofun

theorem saved_observeRayJob {job : Object} (h : Equipped cfg C L0 run attempt copy L)
    (hspec : snapshotSpec cfg run spec)
    (hnoticed : jobFailed (trainingStatus job) = true → Noticed L0 spec attempt.id L) :
    Ends (fun _ copy' L' => Saved cfg C L0 run.id copy' L') (Working cfg C L0 run.id)
      (observeRayJob attempt spec job) copy L := by
  refine Act.At.seq (concludes_observeTraining h hnoticed) ?_
  rintro attempt' copy' L1 ⟨before, hbefore⟩
  refine Act.At.bind (Act.At.attempt fun ans L2 hrec => ?_)
  have h2 : Working cfg C L0 run.id copy' L2 :=
    hbefore.equipped.working.observed hbefore.rewrites hbefore.equipped.owner
      hbefore.equipped.current (snapshotSpec_congr hspec hbefore.equipped.snapshot.symm)
      hbefore.id hbefore.snapshot hbefore.outcome hbefore.noticed hrec
  exact ⟨fun _ _ => saved_saveRun h2, fun _ _ => h2⟩

/-- A pass that trains its run. -/
theorem saved_trainBranch (h : Working cfg C L0 run.id run L) (htrains : Trains run)
    (hattempts : L.world.table .attempts = L0.world.table .attempts)
    (hspec : snapshotSpec cfg run spec) (hcontinues : C → Continues cfg L0.world run) :
    Ends (fun _ copy' L' => Saved cfg C L0 run.id copy' L') (Working cfg C L0 run.id)
      (trainBranch cfg spec) run L := by
  have hlive : run.status ≠ .failed := by
    intro hfailed
    have hterminal := htrains.live
    rw [hfailed] at hterminal
    cases hterminal
  refine (idle_ensureTenantInfrastructure cfg spec).beside.onward
    (fun _ honward => h.onward honward) fun _ L1 honward => ?_
  refine Act.At.seq
    (equipped_ensureAttempt (h.onward honward) hlive (honward.attempts.trans hattempts)) ?_
  intro attempt copy2 L2 h2
  have hrollout : Ends (fun _ copy' L' => Equipped cfg C L0 run attempt copy' L')
      (Working cfg C L0 run.id)
      (Act.when (spec.topology.mode = "disaggregated") (rolloutBranch spec attempt)) copy2 L2 := by
    unfold Act.when
    split
    · exact equipped_rolloutBranch h2
    · exact Act.At.pure h2
  refine Act.At.seq hrollout fun _ copy3 L3 h3 => ?_
  refine Act.At.seq (equipped_adoptCheckpoint h3) fun _ copy4 L4 h4 => ?_
  refine Act.At.seq (equipped_executionSpec h4) ?_
  rintro execution copy5 L5 ⟨h5, uri, huri, rfl⟩
  have hjob : Ends (fun _ copy' L' => Equipped cfg C L0 run attempt copy' L')
      (Working cfg C L0 run.id)
      (applyAndTrack attempt (renderRayJob (resumeSpec spec uri) attempt.id)) copy5 L5 := by
    refine Act.At.get (Act.At.bind (Act.At.attempt fun ans L6 hrec => ?_))
    have h6 := h5.apply (fun hC => h5.resumes htrains hspec (hcontinues hC) huri) hrec
    refine ⟨fun applied _ => ?_, fun _ _ => h6.working⟩
    refine Act.At.attempt fun ans' L7 hrec' => ?_
    have h7 := h6.onward (onward_of_beside hrec' trivial)
    exact ⟨fun _ _ => h7, fun _ _ => h7.working⟩
  refine Act.At.seq hjob fun _ copy6 L6 h6 => ?_
  refine Act.At.bind (Act.At.attempt fun ans L7 hrec => ?_)
  have h7 := h6.onward (onward_of_beside hrec trivial)
  refine ⟨?_, fun _ _ => h7.working⟩
  rintro job rfl
  refine saved_observeRayJob h7 hspec fun hfailed => ?_
  obtain ⟨entries, hlog⟩ := h6.working.log
  refine ⟨_, L6.world, job, ?_, List.mem_append_right entries (List.mem_singleton_self _), hfailed⟩
  rw [hrec.2, hlog, List.append_assoc]
  rfl

/-- `Reconcile` keeps the invariant. -/
theorem saved_reconcile (h : Working cfg C L0 run.id run L) (hslime : run.backend = .slime)
    (hlive : terminal run.status = false)
    (hattempts : L.world.table .attempts = L0.world.table .attempts)
    (hcontinues : C → Continues cfg L0.world run) :
    Ends (fun _ copy' L' => Saved cfg C L0 run.id copy' L') (Working cfg C L0 run.id)
      (reconcile cfg) run L := by
  refine Act.At.get (Act.At.call fun now L1 hrec => ?_)
  have honward : Onward L L1 := onward_of_beside hrec trivial
  have h1 := h.onward honward
  have hverified : ∀ spec, verifiedSpec cfg now run = .ok spec → snapshotSpec cfg run spec :=
    fun _ hspec => snapshotSpec_of_verifiedSpec hspec
  revert hverified
  cases verifiedSpec cfg now run with
  | error text => exact fun _ => Act.At.fail h1
  | ok spec =>
    intro hverified
    refine (idle_discoverOwned spec).beside.onward (fun _ honward2 => h1.onward honward2)
      fun _ L2 honward2 => ?_
    have h2 := h1.onward honward2
    split
    · exact saved_cancelBranch h2
    · rename_i hcancel
      split
      · exact saved_suspendBranch h2
      · rename_i hsuspend
        split
        · exact saved_reconcileEvaluation h2
        · rename_i hevaluate
          have htrains : Trains run := by
            refine ⟨hslime, hlive, ⟨fun hc => hcancel (.inl hc), hsuspend⟩,
              fun hc => hcancel (.inr hc), fun hc => hevaluate (.inl hc),
              fun hc => hevaluate (.inr hc)⟩
          exact saved_trainBranch h2 htrains
            (honward2.attempts.trans (honward.attempts.trans hattempts)) (hverified spec rfl)
            hcontinues

end Train

end RL
end Skyscale
