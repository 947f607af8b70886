import Mathlib.Data.List.Perm.Subperm
import Skyscale.RL.Training

/-!
# Attempts over the life of a control plane

Requests and reconcile passes, one after another, keep the attempts of all runs in order
(`Whole`).  A request writes no attempt, and of a run it writes neither the current attempt nor
the snapshot (`Requested`).  A pass works through the runs it has listed (`Passing`), each of them
with the invariant of `Skyscale.RL.Training`.

The results are the numbering of attempts with the bound on retries
(`attempts_numbered_and_bounded`), and the condition under which all training jobs of one attempt
are the same (`jobs_resume_as_recorded`).
-/

namespace Skyscale
namespace RL

open Lib State Control K8s Contracts

/-- What holds between requests.  The jobs are only spoken about under a condition. -/
structure Whole (cfg : Config) (C : Prop) (L : Ledger) : Prop where
  numbered : Numbered L.world
  jobs : C → JobsResume cfg L
  settled : Steady L.log → ∀ run : RLRun, L.world.row .runs run.id = some run →
    run.backend = .slime → Settles cfg L.world run

section Between

variable {cfg : Config} {C : Prop} {L L' : Ledger} {run : RLRun}

theorem whole_initial : Whole cfg C Ledger.initial := by
  have hattempts : ∀ id : String, Ledger.initial.world.row .attempts id = none := fun _ => rfl
  have hruns : ∀ id : String, Ledger.initial.world.row .runs id = none := fun _ => rfl
  refine ⟨⟨fun id a hrow => ?_, fun id a hrow => ?_, fun id run hrow => ?_⟩,
    fun _ _ _ _ _ hmem => (List.not_mem_nil hmem).elim, fun _ run hrow => ?_⟩
  · cases (hattempts id).symm.trans hrow
  · cases (hattempts id).symm.trans hrow
  · cases (hruns id).symm.trans hrow
  · cases (hruns run.id).symm.trans hrow

theorem Whole.onward (h : Whole cfg C L) (honward : Onward L L') : Whole cfg C L' := by
  have hrun := fun k => row_congr honward.runs k
  obtain ⟨entries, hlog, hfree⟩ := honward.log
  have hmoves : Moves "" L.world L'.world :=
    Moves.of_tables honward.runs honward.attempts honward.checkpoints
  refine ⟨?_, fun hC => (h.jobs hC).carry hmoves.retains hlog hfree,
    fun hsteady run hrow hslime => ?_⟩
  · exact h.numbered.frame honward.attempts (fun k run hrow => ⟨run, (hrun k).trans hrow⟩)
      fun k run hrow => h.numbered.current k run ((hrun k).symm.trans hrow)
  · rw [hlog] at hsteady
    exact (h.settled hsteady.left run ((hrun _).symm.trans hrow) hslime).frame honward.attempts

theorem onward_receive (L : Ledger) (request : Request) : Onward L (L.receive request) :=
  ⟨rfl, rfl, rfl, [.request request], rfl, fun _ _ _ _ hmem => nomatch List.mem_singleton.mp hmem⟩

end Between

/-! ## Passes -/

/-- A pass that began with `L0` still has to work through the runs. -/
structure Passing (cfg : Config) (C : Prop) (L0 : Ledger) (waiting : List RLRun) (L : Ledger) :
    Prop where
  whole : Whole cfg C L
  distinct : (waiting.map RLRun.id).Nodup
  stored : ∀ run ∈ waiting, L.world.row .runs run.id = some run
  continues : C → ∀ run ∈ waiting, Continues cfg L.world run
  log : ∃ entries, L.log = L0.log ++ entries
  failed : Steady L.log → ∀ run : RLRun, L.world.row .runs run.id = some run →
    run.status = .failed →
    (∃ before : RLRun, L0.world.row .runs run.id = some before ∧ before.status = .failed) ∨
      Seen cfg L0 run L

section Pass

variable {cfg : Config} {C : Prop} {L0 L1 L L' : Ledger} {run copy : RLRun} {rest : List RLRun}
variable {id : String} {w w' : World}

theorem resumeURI_congr (h : w'.table .checkpoints = w.table .checkpoints) (spec : RLRunSpec)
    (checkpointID : String) : resumeURI w' spec checkpointID = resumeURI w spec checkpointID := by
  unfold resumeURI
  rw [show w'.row .checkpoints checkpointID = w.row .checkpoints checkpointID from
    row_congr h checkpointID]

theorem Continues.frame (h : Continues cfg w run)
    (hattempt : ∀ a : RLAttempt, w'.row .attempts run.currentAttemptID = some a →
      w.row .attempts run.currentAttemptID = some a)
    (hcheckpoints : w'.table .checkpoints = w.table .checkpoints) : Continues cfg w' run := by
  intro htrains spec hspec point hpoint next hnext uri huri
  rw [resumeURI_congr hcheckpoints] at huri ⊢
  refine h htrains spec hspec point ?_ next ?_ uri huri
  · rcases hpoint with hempty | ⟨a, hrow, hsame⟩
    · exact .inl hempty
    · exact .inr ⟨a, hattempt a hrow, hsame⟩
  · rcases hnext with hsame | ⟨hempty, c, hlatest, hsame⟩
    · exact .inl hsame
    · exact .inr ⟨hempty, c, hlatest.of_table hcheckpoints, hsame⟩

theorem Noticed.earlier {entries : List Entry} {spec : RLRunSpec} {attemptID : String}
    (h : Noticed L1 spec attemptID L) (hlog : L1.log = L0.log ++ entries) :
    Noticed L0 spec attemptID L := by
  obtain ⟨entries1, w, job, hlog1, hmem, hfailed⟩ := h
  refine ⟨entries ++ entries1, w, job, ?_, List.mem_append_right _ hmem, hfailed⟩
  rw [hlog1, hlog, List.append_assoc]

theorem Passing.working (h : Passing cfg C L0 (run :: rest) L) (hslime : run.backend = .slime)
    (hlive : terminal run.status = false) : Working cfg C L run.id run L := by
  have hrow := h.stored run List.mem_cons_self
  refine ⟨rfl, h.whole.numbered, h.whole.numbered.current _ run hrow, ⟨run, hrow, rfl⟩,
    Moves.refl _, ⟨[], (List.append_nil _).symm⟩, h.whole.jobs,
    fun hsteady => h.whole.settled hsteady run hrow hslime, fun hfailed => ?_⟩
  rw [hfailed] at hlive
  cases hlive

/-- After the pass over the first waiting run. -/
theorem Passing.next (h : Passing cfg C L0 (run :: rest) L)
    (hsaved : Saved cfg C L run.id copy L') :
    Passing cfg C L0 rest L' := by
  obtain ⟨hworking, hstored⟩ := hsaved
  obtain ⟨entries, hlog⟩ := hworking.log
  have hmoves := hworking.moves
  have hsteady : Steady L'.log → Steady L.log := fun hsteady => by
    rw [hlog] at hsteady
    exact hsteady.left
  -- a run of the table is the one of the pass or was left alone
  have hrows : Steady L'.log → ∀ other : RLRun, L'.world.row .runs other.id = some other →
      other = copy ∨ other.id ≠ run.id ∧ L.world.row .runs other.id = some other := by
    intro hfine other hrow
    by_cases hid : other.id = run.id
    · rw [hid] at hrow
      exact .inl (Option.some.inj (hrow.symm.trans (hstored hfine)))
    · exact .inr ⟨hid, (hmoves.runs _ hid).symm.trans hrow⟩
  have hdistinct : ∀ other ∈ rest, other.id ≠ run.id := by
    intro other hother heq
    exact (List.nodup_cons.mp h.distinct).1 (List.mem_map.mpr ⟨other, hother, heq⟩)
  refine ⟨⟨hworking.numbered, hworking.jobs, fun hfine other hrow hslime => ?_⟩,
    (List.nodup_cons.mp h.distinct).2, fun other hother => ?_, fun hC other hother => ?_, ?_,
    fun hfine other hrow hfailed => ?_⟩
  · rcases hrows hfine other hrow with rfl | ⟨hne, hbefore⟩
    · exact hworking.settled hfine
    · exact (h.whole.settled (hsteady hfine) other hbefore hslime).moves hmoves hne
  · exact (hmoves.runs _ (hdistinct other hother)).trans
      (h.stored other (List.mem_cons_of_mem _ hother))
  · have hnamed := h.whole.numbered.current _ other (h.stored other (List.mem_cons_of_mem _ hother))
    refine (h.continues hC other (List.mem_cons_of_mem _ hother)).frame (fun a hrow => ?_)
      hmoves.checkpoints
    have hrun := hworking.numbered.runID_eq hnamed hrow
    exact (hmoves.attempts _ a (hrun ▸ hdistinct other hother)).mp hrow
  · obtain ⟨entries0, hlog0⟩ := h.log
    exact ⟨entries0 ++ entries, by rw [hlog, hlog0, List.append_assoc]⟩
  · obtain ⟨entries0, hlog0⟩ := h.log
    rcases hrows hfine other hrow with rfl | ⟨hne, hbefore⟩
    · obtain ⟨a, spec, hattempt, hrun, hspec, hnoticed⟩ := hworking.failed hfailed
      exact .inr ⟨a, spec, hattempt, hrun, hspec, hnoticed.earlier hlog0⟩
    · rcases h.failed (hsteady hfine) other hbefore hfailed with hold | hseen
      · exact .inl hold
      · obtain ⟨a, spec, hattempt, hrun, hspec, hnoticed⟩ := hseen
        exact .inr ⟨a, spec, (hmoves.attempts _ a (hrun ▸ hne)).mpr hattempt, hrun, hspec,
          hnoticed.later hlog⟩

theorem Passing.skip (h : Passing cfg C L0 (run :: rest) L) : Passing cfg C L0 rest L :=
  ⟨h.whole, (List.nodup_cons.mp h.distinct).2,
    fun other hother => h.stored other (List.mem_cons_of_mem _ hother),
    fun hC other hother => h.continues hC other (List.mem_cons_of_mem _ hother), h.log, h.failed⟩

theorem passing_reconcileOne (h : Passing cfg C L0 (run :: rest) L) :
    wp (acting Ledger.Records) (reconcileOne cfg run) (fun _ L' => Passing cfg C L0 rest L') L := by
  unfold reconcileOne
  split
  · exact h.skip
  · rename_i hskip
    obtain ⟨hslime, hlive⟩ := not_or.mp hskip
    have hterminal : terminal run.status = false := Bool.eq_false_of_not_eq_true hlive
    have hworking := h.working (not_not.mp hslime) hterminal
    have hends := saved_reconcile hworking (not_not.mp hslime) hterminal rfl
      fun hC => h.continues hC run List.mem_cons_self
    rw [wp_bind]
    unfold reconcileRecording
    rw [wp_bind]
    refine wp_mono ?_ hends
    rintro ⟨result, copy⟩ L1 hpost
    cases result with
    | ok _ => exact h.next hpost
    | error text =>
      intro ans L2 hrec
      have hfailing : Working cfg C L run.id { copy with failureReason := text } L1 :=
        Working.assign hpost rfl rfl rfl id
      obtain ⟨hsaved, hstored⟩ := hfailing.save hrec
      exact h.next ⟨hsaved, hstored⟩

theorem passing_forEach {waiting : List RLRun} (h : Passing cfg C L0 waiting L) :
    wp (acting Ledger.Records) (Prog.forEach (reconcileOne cfg) waiting)
      (fun _ L' => Passing cfg C L0 [] L') L := by
  induction waiting generalizing L with
  | nil => exact h
  | cons run rest ih => exact wp_seq (passing_reconcileOne h) fun _ _ => ih

/-- All runs of the pass. -/
theorem passing_reconcileAll (h : Whole cfg C L)
    (hcontinues : C → ∀ run : RLRun, L.world.row .runs run.id = some run →
      Continues cfg L.world run) :
    wp (acting Ledger.Records) (reconcileAll cfg) (fun _ L' => Passing cfg C L [] L') L := by
  intro ans L1 hrec
  have honward : Onward L L1 := onward_of_beside hrec trivial
  obtain ⟨entries, hlog, -⟩ := honward.log
  have hrun := fun k => row_congr honward.runs k
  have hstart : ∀ waiting : List RLRun, (waiting.map RLRun.id).Nodup →
      (∀ run ∈ waiting, L.world.row .runs run.id = some run) → Passing cfg C L waiting L1 := by
    intro waiting hdistinct hstored
    refine ⟨h.onward honward, hdistinct, fun run hmem => (hrun _).trans (hstored run hmem),
      fun hC run hmem => ?_, ⟨entries, hlog⟩,
      fun _ run hrow hfailed => .inl ⟨run, (hrun _).symm.trans hrow, hfailed⟩⟩
    refine (hcontinues hC run (hstored run hmem)).frame (fun a hrow => ?_) honward.checkpoints
    exact (row_congr honward.attempts _).symm.trans hrow
  cases ans with
  | error e => exact hstart [] List.nodup_nil fun _ hmem => (List.not_mem_nil hmem).elim
  | ok runs =>
    obtain ⟨-, hlists⟩ := hrec.1
    exact passing_forEach (hstart runs hlists.nodup_keys fun run hmem => (hlists.row_eq hmem).1)

theorem Whole.pass {response : Option Response} (h : Whole cfg C L)
    (hserves : Serves cfg L ⟨.reconcilePass, response⟩ L')
    (hcontinues : C → ∀ run : RLRun, L.world.row .runs run.id = some run →
      Continues cfg L.world run) :
    Passing cfg C (L.receive .reconcilePass) [] L' := by
  have hpass := passing_reconcileAll (h.onward (onward_receive L .reconcilePass)) hcontinues
  have hprogram : wp (acting Ledger.Records) (program cfg .reconcilePass)
      (fun _ L' => Passing cfg C (L.receive .reconcilePass) [] L') (L.receive .reconcilePass) :=
    wp_seq hpass fun _ _ hpassing => hpassing
  exact Prog.Runs.post (Q := fun _ L' => Passing cfg C (L.receive .reconcilePass) [] L') hserves
    hprogram

end Pass

/-! ## Requests -/

/-- The run is the same as far as its attempts are concerned. -/
structure SameAttempts (run run' : RLRun) : Prop where
  id : run'.id = run.id
  backend : run'.backend = run.backend
  current : run'.currentAttemptID = run.currentAttemptID
  snapshot : run'.snapshotJSON = run.snapshotJSON
  failed : run.backend = .slime → run'.status = .failed → run.status = .failed

/-- What a request may do to runs and checkpoints. -/
structure Requested (w w' : World) : Prop where
  runs : ∀ (k : String) (run' : RLRun), w'.row .runs k = some run' →
    (∃ run : RLRun, w.row .runs k = some run ∧ SameAttempts run run') ∨
      w.row .runs k = none ∧ run'.currentAttemptID = "" ∧
        (run'.backend = .slime → run'.status ≠ .failed)
  stored : ∀ (k : String) (run : RLRun), w.row .runs k = some run →
    ∃ run' : RLRun, w'.row .runs k = some run' ∧ run'.snapshotJSON = run.snapshotJSON
  checkpoints : ∀ (k : String) (c : RLCheckpointRecord), w.row .checkpoints k = some c →
    w'.row .checkpoints k = some c

section Request

variable {cfg : Config} {C : Prop} {L0 L L' : Ledger} {exchange : Exchange} {w w' : World}
variable {run run' run'' : RLRun} {request : Request}

theorem SameAttempts.refl (run : RLRun) : SameAttempts run run := ⟨rfl, rfl, rfl, rfl, fun _ h => h⟩

theorem SameAttempts.trans (h : SameAttempts run run') (h' : SameAttempts run' run'') :
    SameAttempts run run'' :=
  ⟨h'.id.trans h.id, h'.backend.trans h.backend, h'.current.trans h.current,
    h'.snapshot.trans h.snapshot,
    fun hslime hfailed => h.failed hslime (h'.failed (h.backend.trans hslime) hfailed)⟩

theorem SameAttempts.of_core {c : Core} (h : core run' = c) (hid : c.id = run.id)
    (hbackend : c.backend = run.backend) (hcurrent : c.currentAttemptID = run.currentAttemptID)
    (hsnapshot : c.snapshotJSON = run.snapshotJSON)
    (hfailed : run.backend = .slime → c.status = .failed → run.status = .failed) :
    SameAttempts run run' := by
  subst h
  exact ⟨hid, hbackend, hcurrent, hsnapshot, hfailed⟩

theorem Asked.sameAttempts (h : Asked cfg request w run run') : SameAttempts run run' := by
  cases h with
  | same h | suspended _ _ _ h | activated _ _ _ h | rolledBack _ _ _ h | committed _ _ _ _ h
  | progressed _ _ _ h => exact .of_core h rfl rfl rfl rfl fun _ hfailed => hfailed
  | cancelled _ _ h | resumed _ _ _ h | scheduled _ _ _ _ _ h =>
    exact .of_core h rfl rfl rfl rfl fun _ => nofun

theorem Rewritten.sameAttempts {strict : Bool} (hrequest : request ≠ .reconcilePass)
    (h : Rewritten strict cfg request L0 L run run') : SameAttempts run run' := by
  cases h with
  | kept h => exact h ▸ .refl _
  | plain hbackend _ _ h =>
    exact .of_core h rfl rfl rfl rfl fun hslime => absurd hslime hbackend
  | ask _ h => exact h.sameAttempts
  | reconcile hpass _ _ _ _ => exact absurd hpass hrequest

/-- What a request has done to runs and checkpoints. -/
theorem requested_of_serves (h : Serves cfg L exchange L')
    (hrequest : exchange.request ≠ .reconcilePass) : Requested L.world L'.world := by
  refine serves_preserves (I := fun w => Requested L.world w) h ?_ fun L1 w hI heffect => ?_
  · exact ⟨fun _ run hrow => .inl ⟨run, hrow, .refl run⟩, fun _ run hrow => ⟨run, hrow, rfl⟩,
      fun _ _ hrow => hrow⟩
  · refine ⟨fun k run' hrow => ?_, fun k run hrow => ?_, fun k c hrow => ?_⟩
    · rcases heffect.row_of_run hrow with ⟨stored, hstored, hrewritten⟩ | ⟨hnone, hcreated⟩
      · have hsame := hrewritten.sameAttempts hrequest
        rcases hI.runs k stored hstored with ⟨run, hrun, hbefore⟩ | ⟨hfresh, hempty, hstatus⟩
        · exact .inl ⟨run, hrun, hbefore.trans hsame⟩
        · refine .inr ⟨hfresh, hsame.current.trans hempty, fun hslime hfailed => ?_⟩
          have hbackend := hsame.backend.symm.trans hslime
          exact hstatus hbackend (hsame.failed hbackend hfailed)
      · refine .inr ⟨?_, ?_⟩
        · cases hbefore : L.world.row .runs k with
          | none => rfl
          | some run =>
            obtain ⟨run1, hrow1, -⟩ := hI.stored k run hbefore
            cases hnone.symm.trans hrow1
        · cases hcreated with
          | slime _ hadmitted =>
            obtain ⟨-, hstatus, hempty, -⟩ := hadmitted.columns
            exact ⟨hempty, fun _ => by rw [hstatus]; exact nofun⟩
          | plain _ hempty hstatus => exact ⟨hempty, fun _ => by rw [hstatus]; exact nofun⟩
    · obtain ⟨run1, hrow1, hsnapshot1⟩ := hI.stored k run hrow
      obtain ⟨run2, hrow2, hrewritten⟩ := heffect.run_of_row hrow1
      exact ⟨run2, hrow2, (hrewritten.sameAttempts hrequest).snapshot.trans hsnapshot1⟩
    · exact heffect.checkpoint_of_row (hI.checkpoints k c hrow)

/-- A request writes no attempt and applies no training job. -/
theorem spared_of_serves (h : Serves cfg L exchange L')
    (hrequest : exchange.request ≠ .reconcilePass) :
    L'.world.table .attempts = L.world.table .attempts ∧
      ∃ entries, L'.log = L.log ++ entries ∧ JobFree entries := by
  have hmodest : Modest (fun _ _ _ => True) (program cfg exchange.request) :=
    modest_program cfg hrequest fun _ _ _ _ _ _ => trivial
  refine Prog.Runs.invariant (I := fun L1 : Ledger =>
    L1.world.table .attempts = L.world.table .attempts ∧
      ∃ entries, L1.log = L.log ++ entries ∧ JobFree entries) ?_ h hmodest ?_
  · rintro L1 op ans L2 ⟨hattempts, entries, hlog, hfree⟩ ⟨-, hop⟩ hrec
    have hfine : AllFine (fun _ _ _ => True) L1.world :=
      ⟨fun _ _ _ => trivial, fun _ _ _ _ => trivial⟩
    refine ⟨⟨?_, entries ++ [.performed L1.world op ans], ?_, fun w s a ans' hmem => ?_⟩,
      reads_of_exec hfine hrec.1⟩
    · refine Eq.trans ?_ hattempts
      cases op with
      | sql q =>
        refine hrec.table_of_target_ne fun htarget => ?_
        simp only [SparesAttempts, htarget] at hop
      | newRunID digits => rw [hrec.1.1]
      | _ => rw [show L2.world = L1.world from hrec.1]
    · rw [hrec.2, hlog, List.append_assoc]
    · rcases List.mem_append.mp hmem with hbefore | hnew
      · exact hfree w s a ans' hbefore
      · have hentry := List.mem_singleton.mp hnew
        injection hentry with _ hsame
        subst hsame
        exact hop s a rfl
  · refine ⟨rfl, [.request exchange.request], rfl, fun _ _ _ _ hmem => ?_⟩
    cases List.mem_singleton.mp hmem

theorem Settles.fresh (hcount : attemptCount w run.id = 0) (hempty : run.currentAttemptID = "")
    (hstatus : run.status ≠ .failed) : Settles cfg w run := by
  refine ⟨fun spec _ => .between hempty ?_, fun hfailed => absurd hfailed hstatus⟩
  rw [hcount]
  exact maxRetries_nonneg spec

theorem Numbered.attemptCount_eq_zero {id : String} (h : Numbered w)
    (hnone : w.row .runs id = none) : attemptCount w id = 0 := by
  refine List.length_eq_zero_iff.mpr (List.eq_nil_iff_forall_not_mem.mpr fun a hmem => ?_)
  obtain ⟨hrow, hrun⟩ := Database.mem_matching_iff.mp hmem
  obtain ⟨run, howner⟩ := h.owner _ a hrow
  rw [of_decide_eq_true hrun, hnone] at howner
  cases howner

/-- Every other request keeps what holds between requests. -/
theorem Whole.ask (h : Whole cfg C L) (hserves : Serves cfg L exchange L')
    (hrequest : exchange.request ≠ .reconcilePass) : Whole cfg C L' := by
  have hrequested := requested_of_serves hserves hrequest
  obtain ⟨hattempts, entries, hlog, hfree⟩ := spared_of_serves hserves hrequest
  have hretains : Retains L.world L'.world :=
    ⟨fun k a hrow => ⟨a, (row_congr hattempts k).trans hrow,
      rfl, rfl⟩, hrequested.stored, hrequested.checkpoints⟩
  refine ⟨h.numbered.frame hattempts (fun k run hrow => ?_) fun k run' hrow => ?_,
    fun hC => (h.jobs hC).carry hretains hlog hfree, fun hsteady run' hrow hslime => ?_⟩
  · obtain ⟨run', hrow', -⟩ := hrequested.stored k run hrow
    exact ⟨run', hrow'⟩
  · rcases hrequested.runs k run' hrow with ⟨run, hrun, hsame⟩ | ⟨-, hempty, -⟩
    · have hnamed := h.numbered.current k run hrun
      unfold Named at hnamed ⊢
      rwa [hsame.id, hsame.current]
    · exact .inl hempty
  · rw [hlog] at hsteady
    rcases hrequested.runs _ run' hrow with ⟨run, hrun, hsame⟩ | ⟨hfresh, hempty, hstatus⟩
    · have hbackend := hsame.backend.symm.trans hslime
      have hbefore := h.settled hsteady.left run (hsame.id ▸ hrun) hbackend
      exact (hbefore.frame hattempts).congr hsame.id hsame.current hsame.snapshot
        (hsame.failed hbackend)
    · refine Settles.fresh ?_ hempty (hstatus hslime)
      rw [attemptCount_congr hattempts]
      exact h.numbered.attemptCount_eq_zero hfresh

theorem Whole.serves (h : Whole cfg C L) (hserves : Serves cfg L exchange L')
    (hcontinues : C → exchange.request = .reconcilePass →
      ∀ run : RLRun, L.world.row .runs run.id = some run → Continues cfg L.world run) :
    Whole cfg C L' := by
  obtain ⟨request, response⟩ := exchange
  by_cases hrequest : request = .reconcilePass
  · subst hrequest
    exact (h.pass hserves fun hC => hcontinues hC rfl).whole
  · exact h.ask hserves hrequest

end Request

/-! ## The numbering of attempts -/

/-- The stored attempts of a run. -/
def attemptsOf (w : World) (runID : String) : List RLAttempt :=
  w.matching .attempts fun a : RLAttempt => a.runID = runID

/-- The attempts of the run are numbered from 1 to `k`, and its current attempt is the last. -/
structure NumberedTo (w : World) (run : RLRun) (k : Nat) : Prop where
  numbers : ((attemptsOf w run.id).map RLAttempt.number).Perm
    ((List.range k).map fun i : Nat => (i + 1 : Int))
  ids : ((attemptsOf w run.id).map RLAttempt.id).Nodup
  current : run.currentAttemptID = "" ∨ ∃ a ∈ attemptsOf w run.id,
    a.id = run.currentAttemptID ∧ a.number = k

section Results

variable {cfg : Config} {C : Prop} {L L' : Ledger} {exchanges : List Exchange} {w : World}
variable {run : RLRun} {spec : RLRunSpec}

theorem mem_attemptsOf {id : String} {a : RLAttempt} :
    a ∈ attemptsOf w id ↔ w.row .attempts a.id = some a ∧ a.runID = id := by
  refine Database.mem_matching_iff.trans ?_
  exact and_congr_right fun _ => decide_eq_true_iff

theorem nodup_ids_attemptsOf (w : World) (id : String) :
    ((attemptsOf w id).map RLAttempt.id).Nodup :=
  (w.nodup_keys_rows .attempts).sublist (List.filter_sublist.map (schema.key .attempts))

/-- The numbers of the attempts of a run. -/
theorem Numbered.numbers_perm (h : Numbered w) (id : String) :
    ((attemptsOf w id).map RLAttempt.number).Perm
      ((List.range (attemptCount w id)).map fun i : Nat => (i + 1 : Int)) := by
  have hnumber : ∀ a ∈ attemptsOf w id, ∃ n : Nat, 1 ≤ n ∧ n ≤ attemptCount w id ∧
      a.number = n ∧ a.id = attemptName id n := by
    intro a hmem
    obtain ⟨hrow, rfl⟩ := mem_attemptsOf.mp hmem
    obtain ⟨n, hn⟩ := h.attempt _ a hrow
    exact ⟨n, hn.positive, hn.bounded, hn.number, hn.named⟩
  -- the name of an attempt is made of its number, so different attempts have different numbers
  have hdistinct : ((attemptsOf w id).map RLAttempt.number).Nodup := by
    refine (List.Nodup.of_map _ (nodup_ids_attemptsOf w id)).map_on fun a ha b hb heq => ?_
    obtain ⟨n, -, -, hn, hname⟩ := hnumber a ha
    obtain ⟨m, -, -, hm, hname'⟩ := hnumber b hb
    have hsame : n = m := Int.ofNat.inj (hn.symm.trans (heq.trans hm))
    subst hsame
    have hrow := (mem_attemptsOf.mp ha).1
    rw [hname.trans hname'.symm] at hrow
    exact Option.some.inj (hrow.symm.trans (mem_attemptsOf.mp hb).1)
  refine (List.subperm_of_subset hdistinct fun x hx => ?_).perm_of_length_le ?_
  · obtain ⟨a, ha, rfl⟩ := List.mem_map.mp hx
    obtain ⟨n, hpositive, hbounded, hn, -⟩ := hnumber a ha
    refine List.mem_map.mpr ⟨n - 1, List.mem_range.mpr (by omega), ?_⟩
    rw [hn]
    omega
  · rw [List.length_map, List.length_map, List.length_range]
    exact le_rfl

theorem Whole.numberedTo (h : Whole cfg C L) (hsteady : Steady L.log)
    (hrow : L.world.row .runs run.id = some run) (hslime : run.backend = .slime)
    (hspec : snapshotSpec cfg run spec) :
    NumberedTo L.world run (attemptCount L.world run.id) ∧
      (attemptCount L.world run.id : Int) ≤ maxRetries spec + 1 := by
  have hperm := h.numbered.numbers_perm run.id
  have hids := nodup_ids_attemptsOf L.world run.id
  cases (h.settled hsteady run hrow hslime).stands spec hspec with
  | between hempty hleft => exact ⟨⟨hperm, hids, .inl hempty⟩, by omega⟩
  | on a hattempt hrun hnumber hbound =>
    have hid : a.id = run.currentAttemptID := L.world.keyed .attempts _ a hattempt
    refine ⟨⟨hperm, hids, .inr ⟨a, mem_attemptsOf.mpr ⟨hid ▸ hattempt, hrun⟩, hid, hnumber⟩⟩, ?_⟩
    rw [← hnumber]
    exact hbound

theorem fixed_of_serves {exchange : Exchange} {run' : RLRun} (hserves : Serves cfg L exchange L')
    (hrow : L.world.row .runs run.id = some run) (hrow' : L'.world.row .runs run.id = some run') :
    (core run').fixed = (core run).fixed := by
  have hkept : ∃ kept : RLRun, L'.world.row .runs run.id = some kept ∧
      (core kept).fixed = (core run).fixed := by
    refine serves_preserves (I := fun w => ∃ kept : RLRun, w.row .runs run.id = some kept ∧
      (core kept).fixed = (core run).fixed) hserves ⟨run, hrow, rfl⟩ ?_
    rintro L1 w ⟨kept, hkept, hfixed⟩ heffect
    obtain ⟨kept', hkept', hrewritten⟩ := heffect.run_of_row hkept
    exact ⟨kept', hkept', hrewritten.fixed.trans hfixed⟩
  obtain ⟨kept, hkept, hfixed⟩ := hkept
  cases hkept.symm.trans hrow'
  exact hfixed

/-- Without failing statements, the attempts of a run are numbered without gaps or repetitions,
there is at most one more of them than retries, and a pass that lets the run fail has seen the
training job of its last attempt fail. -/
theorem attempts_numbered_and_bounded (hrun : Run (Serves cfg) Ledger.initial exchanges L)
    (hsteady : Steady L.log) (hrow : L.world.row .runs run.id = some run)
    (hslime : run.backend = .slime) (hspec : snapshotSpec cfg run spec) :
    (∃ k : Nat, NumberedTo L.world run k ∧ (k : Int) ≤ maxRetries spec + 1) ∧
      ∀ (response : Option Response) (L' : Ledger) (failed : RLRun),
        Serves cfg L ⟨.reconcilePass, response⟩ L' → Steady L'.log →
        L'.world.row .runs run.id = some failed → run.status ≠ .failed → failed.status = .failed →
        ∃ a : RLAttempt, L'.world.row .attempts failed.currentAttemptID = some a ∧
          a.runID = run.id ∧ a.number = maxRetries spec + 1 ∧ a.status = .failed ∧
          Noticed L spec a.id L' := by
  have hwhole : Whole cfg False L :=
    hrun.invariant whole_initial fun _ _ _ h hserves => h.serves hserves fun hC => hC.elim
  refine ⟨⟨_, hwhole.numberedTo hsteady hrow hslime hspec⟩, ?_⟩
  intro response L' failed hserves hsteady' hfailed hbefore hafter
  have hpassing := hwhole.pass hserves fun hC => hC.elim
  have hfixed := fixed_of_serves hserves hrow hfailed
  have hid := id_eq_of_fixed hfixed
  have hfailed' : L'.world.row .runs failed.id = some failed := hid ▸ hfailed
  have hspec' := snapshotSpec_congr hspec (snapshotJSON_eq_of_fixed hfixed).symm
  have hexhausted := (hpassing.whole.settled hsteady' failed hfailed'
    ((backend_eq_of_fixed hfixed).trans hslime)).failed hafter spec hspec'
  obtain ⟨a, hattempt, howner, hnumber, hstatus⟩ := hexhausted
  refine ⟨a, hattempt, howner.trans hid, hnumber, hstatus, ?_⟩
  rcases hpassing.failed hsteady' failed hfailed' hafter with ⟨old, hold, hfailing⟩ | hseen
  · rw [hid] at hold
    cases hrow.symm.trans hold
    exact absurd hfailing hbefore
  · obtain ⟨b, spec', hrow', -, hspec'', hnoticed⟩ := hseen
    obtain rfl : a = b := Option.some.inj (hattempt.symm.trans hrow')
    obtain rfl : spec' = spec := snapshotSpec_unique hspec' hspec''
    have hreceived : (L.receive .reconcilePass).log = L.log ++ [.request .reconcilePass] := rfl
    exact hnoticed.earlier hreceived

end Results

def failingPass : Visit := ⟨.reconcilePass, jobsAre "FAILED"⟩

def retriedLedger : Ledger :=
  (serveAll sampleConfig Ledger.initial (sampleStarted ++ [failingPass, failingPass])).2

def runFacts (L : Ledger) : Option (String × Backend × Bool) :=
  (L.world.row .runs sampleID).map fun run : RLRun => (run.id, run.backend, run.status = .failed)

theorem runFacts_eq_some {L : Ledger} {id : String} {backend : Backend} {b : Bool}
    (h : runFacts L = some (id, backend, b)) :
    ∃ run : RLRun, L.world.row .runs sampleID = some run ∧ run.id = id ∧ run.backend = backend ∧
      decide (run.status = .failed) = b := by
  obtain ⟨run, hrow, hfacts⟩ := Option.map_eq_some_iff.mp h
  injection hfacts with hid hfacts
  injection hfacts with hbackend hstatus
  exact ⟨run, hrow, hid, hbackend, hstatus⟩

/-- The third attempt is the last. -/
theorem attempts_numbered_and_bounded_retried :
    ∃ (run failed : RLRun) (L' : Ledger) (a : RLAttempt),
      retriedLedger.world.row .runs run.id = some run ∧
      (∃ k : Nat, NumberedTo retriedLedger.world run k ∧ (k : Int) ≤ maxRetries sampleSpec + 1) ∧
      L'.world.row .runs run.id = some failed ∧ run.status ≠ .failed ∧ failed.status = .failed ∧
      L'.world.row .attempts failed.currentAttemptID = some a ∧
      a.number = maxRetries sampleSpec + 1 ∧ Noticed retriedLedger sampleSpec a.id L' := by
  have hbefore : runFacts retriedLedger = some (sampleID, .slime, false) := by decide +kernel
  obtain ⟨run, hrow, hid, hslime, hlive⟩ := runFacts_eq_some hbefore
  have hrow' : retriedLedger.world.row .runs run.id = some run := hid ▸ hrow
  have hspec : snapshotSpec sampleConfig run sampleSpec := ⟨_, rfl, rfl⟩
  obtain ⟨hnumbered, hpass⟩ := attempts_numbered_and_bounded
    (run_serveAll sampleConfig Ledger.initial (sampleStarted ++ [failingPass, failingPass]))
    (by decide +kernel : ∀ entry ∈ retriedLedger.log, storeError entry = false) hrow' hslime hspec
  have hafter : (serve sampleConfig retriedLedger failingPass).map (fun p =>
      (runFacts p.2, p.2.log.all fun entry => !storeError entry)) =
        some (some (sampleID, .slime, true), true) := by decide +kernel
  obtain ⟨⟨exchange, L'⟩, hserve, hfacts⟩ := Option.map_eq_some_iff.mp hafter
  injection hfacts with hfacts hsteady
  obtain ⟨failed, hfailed, -, -, hstatus⟩ := runFacts_eq_some hfacts
  have hserves : Serves sampleConfig retriedLedger ⟨.reconcilePass, exchange.response⟩ L' := by
    have hserves := serves_of_serve hserve
    rwa [show exchange = ⟨.reconcilePass, exchange.response⟩ from
      congrArg (Exchange.mk · exchange.response) (request_of_serve hserve)] at hserves
  have hsteady' : Steady L'.log := fun entry hmem => by
    simpa using List.all_eq_true.mp hsteady entry hmem
  have hfailed' : L'.world.row .runs run.id = some failed := hid ▸ hfailed
  obtain ⟨a, hattempt, -, hnumber, -, hnoticed⟩ := hpass exchange.response L' failed hserves
    hsteady' hfailed' (of_decide_eq_false hlive) (of_decide_eq_true hstatus)
  exact ⟨run, failed, L', a, hrow', hnumbered, hfailed', of_decide_eq_false hlive,
    of_decide_eq_true hstatus, hattempt, hnumber, hnoticed⟩

/-! ## The training jobs of an attempt -/

/-- If before every reconcile pass, each run it trains is about to resume at the address its
attempt records, then every training job resumes where its attempt says, and all training jobs of
an attempt have one entrypoint. -/
theorem jobs_resume_as_recorded {cfg : Config} {L : Ledger} {exchanges : List Exchange}
    (hrun : Run (Guarded (Serves cfg) fun L exchange => exchange.request = .reconcilePass →
      ∀ run : RLRun, L.world.row .runs run.id = some run → Continues cfg L.world run)
      Ledger.initial exchanges L) :
    JobsResume cfg L ∧ ∀ w w' execution execution' attemptID ans ans',
      Entry.performed w (.apply (renderRayJob execution attemptID)) ans ∈ L.log →
      Entry.performed w' (.apply (renderRayJob execution' attemptID)) ans' ∈ L.log →
      (renderRayJob execution attemptID).content.entrypoint =
        (renderRayJob execution' attemptID).content.entrypoint := by
  have hwhole : Whole cfg True L := by
    refine hrun.invariant whole_initial fun _ _ _ h hstep => ?_
    obtain ⟨hserves, hguard⟩ := hstep
    exact h.serves hserves fun _ => hguard
  have hjobs := hwhole.jobs trivial
  refine ⟨hjobs, fun w w' execution execution' attemptID ans ans' hmem hmem' => ?_⟩
  obtain ⟨a, run, spec, uri, ha, hrow, hspec, huri, hentry⟩ := hjobs _ _ _ _ hmem
  obtain ⟨a', run', spec', uri', ha', hrow', hspec', huri', hentry'⟩ := hjobs _ _ _ _ hmem'
  -- both jobs go back to the one stored attempt
  cases ha.symm.trans ha'
  cases hrow.symm.trans hrow'
  obtain rfl := snapshotSpec_unique hspec hspec'
  cases huri.symm.trans huri'
  exact hentry.trans hentry'.symm

def sameFrame (o o' : Object) : Bool :=
  o.apiVersion = o'.apiVersion && o.kind = o'.kind && o.namespace_ = o'.namespace_ &&
    o.name = o'.name && o.uid = o'.uid && o.generation = o'.generation &&
    o.resourceVersion = o'.resourceVersion && o.labels = o'.labels &&
    o.annotations = o'.annotations && o.finalizers = o'.finalizers && o.suspend = o'.suspend &&
    o.replicas = o'.replicas && o.jobStatus = o'.jobStatus &&
    o.jobDeploymentStatus = o'.jobDeploymentStatus && o.deploymentStatus = o'.deploymentStatus &&
    o.message = o'.message

theorem eq_of_sameFrame {o o' : Object} (h : sameFrame o o' = true)
    (hcontent : o.content = o'.content) : o = o' := by
  cases o
  cases o'
  simp only [sameFrame, Bool.and_eq_true, decide_eq_true_eq] at h hcontent
  simp only [Object.mk.injEq]
  tauto

def trainingJobOf : Entry → Option (RLRunSpec × String)
  | .performed _ (.apply object) _ =>
    match object.content with
    | .rayJob execution attemptID =>
      if sameFrame object (renderRayJob execution attemptID) then
        some (execution, attemptID)
      else
        none
    | _ => none
  | _ => none

def trainingJobs (log : List Entry) : List (RLRunSpec × String) := log.filterMap trainingJobOf

theorem performed_of_trainingJobs {log : List Entry} {execution : RLRunSpec} {attemptID : String}
    (h : (execution, attemptID) ∈ trainingJobs log) :
    ∃ w ans, Entry.performed w (.apply (renderRayJob execution attemptID)) ans ∈ log := by
  obtain ⟨entry, hmem, hentry⟩ := List.mem_filterMap.mp h
  unfold trainingJobOf at hentry
  split at hentry
  · rename_i w object ans
    split at hentry
    · rename_i hcontent
      split at hentry
      · rename_i hframe
        cases hentry
        obtain rfl := eq_of_sameFrame hframe hcontent
        exact ⟨w, ans, hmem⟩
      · cases hentry
    · cases hentry
  · cases hentry

/-- A run that starts from an address and commits its checkpoints there. -/
def inPlaceSpec : RLRunSpec := resumeSpec sampleSpec "uri"

/-- Every checkpoint that a run or an attempt names, and every stored one, has that address. -/
def inPlace (w : World) : Bool :=
  ((w.rows .runs).map RLRun.checkpointID ++ (w.rows .attempts).map RLAttempt.resumeCheckpointID ++
    (w.rows .checkpoints).map RLCheckpointRecord.id).all
      fun id => resumeURI w inPlaceSpec id = some "uri"

theorem continues_of_inPlace {w : World} {run : RLRun} (h : inPlace w = true)
    (hrow : w.row .runs run.id = some run) : Continues (configOf inPlaceSpec) w run := by
  simp only [inPlace, List.all_eq_true, List.mem_append, decide_eq_true_eq] at h
  have hown : resumeURI w inPlaceSpec run.checkpointID = some "uri" :=
    h _ (.inl (.inl (List.mem_map_of_mem (Database.mem_rows_iff.mpr hrow))))
  intro _ spec hspec point hrecorded next hnext uri huri
  obtain rfl : spec = inPlaceSpec := snapshotSpec_unique ⟨_, rfl, rfl⟩ hspec
  have hpoint : resumeURI w inPlaceSpec point = some "uri" := by
    rcases hrecorded with ⟨-, rfl⟩ | ⟨a, ha, rfl⟩
    · exact hown
    · have hid : a.id = run.currentAttemptID := w.keyed .attempts _ a ha
      have ha' : w.row .attempts a.id = some a := hid ▸ ha
      exact h _ (.inl (.inr (List.mem_map_of_mem (Database.mem_rows_iff.mpr ha'))))
  have hnext' : resumeURI w inPlaceSpec next = some "uri" := by
    rcases hnext with rfl | ⟨-, c, hlatest, rfl⟩
    · exact hown
    · exact h _ (.inr (List.mem_map_of_mem (Database.mem_rows_iff.mpr hlatest.1)))
  rw [hpoint, ← hnext', huri]

def inPlaceHistory : List Visit :=
  [⟨startOf inPlaceSpec, agreeable⟩, ⟨.reconcilePass, jobsAre "RUNNING"⟩, sampleCommit 3 "v1",
    failingPass, ⟨.reconcilePass, jobsAre "RUNNING"⟩]

def inPlaceLedger : Ledger :=
  (serveAllWhen (configOf inPlaceSpec) (fun w _ => inPlace w) Ledger.initial inPlaceHistory).2

/-- The second attempt resumes from the checkpoint of the first. -/
theorem jobs_resume_as_recorded_inPlace :
    ((inPlaceLedger.world.rows .attempts).map RLAttempt.resumeCheckpointID).head? =
        some ("ckpt-" ++ sampleID ++ "-3") ∧
      (trainingJobs inPlaceLedger.log).length = 3 ∧
      JobsResume (configOf inPlaceSpec) inPlaceLedger := by
  have hrun := run_serveAllWhen (configOf inPlaceSpec) (fun w _ => inPlace w) Ledger.initial
    inPlaceHistory
  refine ⟨by decide +kernel, by decide +kernel, (jobs_resume_as_recorded (hrun.mono ?_)).1⟩
  rintro L exchange L' ⟨hserves, hcheck⟩
  exact ⟨hserves, fun _ run hrow => continues_of_inPlace hcheck hrow⟩

/-- A checkpoint is committed between the two passes: the attempt gets a second training job,
with another entrypoint. -/
theorem attempt_gets_two_jobs :
    ∃ exchanges L, Run (Serves sampleConfig) Ledger.initial exchanges L ∧
      ∃ w w' execution execution' attemptID ans ans',
        Entry.performed w (.apply (renderRayJob execution attemptID)) ans ∈ L.log ∧
        Entry.performed w' (.apply (renderRayJob execution' attemptID)) ans' ∈ L.log ∧
        (renderRayJob execution attemptID).content.entrypoint ≠
          (renderRayJob execution' attemptID).content.entrypoint := by
  have hjobs : ∃ job ∈ trainingJobs (serveAll sampleConfig Ledger.initial
      (sampleStarted ++ [sampleCommit 3 "v1", ⟨.reconcilePass, jobsAre "RUNNING"⟩])).2.log,
      ∃ job' ∈ trainingJobs (serveAll sampleConfig Ledger.initial
        (sampleStarted ++ [sampleCommit 3 "v1", ⟨.reconcilePass, jobsAre "RUNNING"⟩])).2.log,
        job'.2 = job.2 ∧ (renderRayJob job.1 job.2).content.entrypoint ≠
          (renderRayJob job'.1 job.2).content.entrypoint := by decide +kernel
  obtain ⟨⟨execution, attemptID⟩, hjob, ⟨execution', attemptID'⟩, hjob', hsame, hne⟩ := hjobs
  cases hsame
  obtain ⟨w, ans, hmem⟩ := performed_of_trainingJobs hjob
  obtain ⟨w', ans', hmem'⟩ := performed_of_trainingJobs hjob'
  exact ⟨_, _, run_serveAll sampleConfig Ledger.initial _, w, w', execution, execution', attemptID,
    ans, ans', hmem, hmem', hne⟩

end RL
end Skyscale
