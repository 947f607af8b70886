import Skyscale.K8s.Entrypoint
import Skyscale.RL.Copies
import Skyscale.RL.History

/-!
# The attempts of a run

A pass that trains a run works on its current attempt and creates it if there is none.  The
number of a new attempt is one more than the number of stored attempts of the run, and its
name is made of its number and the run.  The attempt records the checkpoint the run had
when it was created.

* `Numbered` says how attempts are named and numbered.  It holds whatever fails.
* `Settles` says where a run stands with its attempts, as long as writes succeed.
* `Resumes` says of a training job that it resumes where its attempt says.

`Moves` is what a pass over one run does to the database.  The writes of a pass are a write of
the run, a new attempt (`Next`) and a new version of an attempt (`Rewrites`).
-/

namespace Skyscale
namespace RL

open Lib State Control K8s Contracts

/-! ## Names of attempts -/

/-- The name of an attempt. -/
def attemptName (runID : String) (number : Int) : String :=
  "attempt-" ++ pad3 number ++ "-" ++ runID

theorem toList_pad3 (n : Nat) :
    (pad3 n).toList = List.replicate (3 - (toString (n : Int)).length) '0' ++
      Nat.toDigits 10 n := by
  unfold pad3
  dsimp only
  rw [String.toList_append, String.toList_ofList]
  congr 1
  show (Nat.repr n).toList = _
  rw [Nat.repr_eq_ofList_toDigits, String.toList_ofList]

theorem ofDigitChars_pad3 (n : Nat) : Nat.ofDigitChars 10 (pad3 n).toList 0 = n := by
  rw [toList_pad3, Nat.ofDigitChars_append, Nat.ofDigitChars_replicate_zero, Nat.mul_zero,
    Nat.ofDigitChars_ten_toDigits]

theorem dash_notMem_pad3 (n : Nat) : '-' ∉ (pad3 n).toList := by
  rw [toList_pad3]
  intro hmem
  rcases List.mem_append.mp hmem with hzero | hdigit
  · exact absurd (List.eq_of_mem_replicate hzero) (by decide)
  · exact absurd (Nat.isDigit_of_mem_toDigits (by decide) (by decide) hdigit) (by decide)

theorem attemptName_inj {runID runID' : String} {n n' : Nat}
    (h : attemptName runID n = attemptName runID' n') : runID = runID' ∧ n = n' := by
  have hlist :
      (pad3 n).toList ++ '-' :: runID.toList = (pad3 n').toList ++ '-' :: runID'.toList := by
    have hlist := congrArg String.toList h
    simp only [attemptName, String.toList_append, List.append_assoc, List.append_cancel_left_eq]
      at hlist
    exact hlist
  -- the number is what stands before the first dash
  have hbefore : ∀ (m : Nat) (rest : List Char),
      ((pad3 m).toList ++ '-' :: rest).takeWhile (· ≠ '-') = (pad3 m).toList := by
    intro m rest
    rw [List.takeWhile_append_of_pos, List.takeWhile_cons_of_neg (by decide), List.append_nil]
    exact fun c hc => decide_eq_true fun heq => dash_notMem_pad3 m (heq ▸ hc)
  have hnumber : (pad3 n).toList = (pad3 n').toList := by
    rw [← hbefore n runID.toList, hlist, hbefore]
  rw [hnumber] at hlist
  refine ⟨String.toList_injective (List.cons.inj (List.append_cancel_left hlist)).2, ?_⟩
  rw [← ofDigitChars_pad3 n, hnumber, ofDigitChars_pad3]

theorem attemptName_ne_empty (runID : String) (number : Int) : attemptName runID number ≠ "" :=
  newAttempt_id_ne { (default : RLRun) with id := runID } default number

/-! ## Numbered attempts -/

/-- The number of stored attempts of a run. -/
def attemptCount (w : World) (runID : String) : Nat :=
  (w.matching .attempts fun a : RLAttempt => a.runID = runID).length

/-- The run has no current attempt, or one that is named after it. -/
def Named (run : RLRun) : Prop :=
  run.currentAttemptID = "" ∨ ∃ n : Nat, run.currentAttemptID = attemptName run.id n

/-- The attempt is one of the run's, by its name and its number. -/
structure NumberedIn (w : World) (a : RLAttempt) (n : Nat) : Prop where
  positive : 1 ≤ n
  bounded : n ≤ attemptCount w a.runID
  number : a.number = n
  named : a.id = attemptName a.runID n

/-- Attempts are named and numbered, belong to stored runs, and runs name their own. -/
structure Numbered (w : World) : Prop where
  attempt : ∀ (id : String) (a : RLAttempt), w.row .attempts id = some a → ∃ n, NumberedIn w a n
  owner : ∀ (id : String) (a : RLAttempt), w.row .attempts id = some a →
    ∃ run : RLRun, w.row .runs a.runID = some run
  current : ∀ (id : String) (run : RLRun), w.row .runs id = some run → Named run

section Numbers

variable {w w' : World} {run : RLRun} {a : RLAttempt}

theorem Numbered.runID_eq (h : Numbered w) (hrun : Named run)
    (hrow : w.row .attempts run.currentAttemptID = some a) : a.runID = run.id := by
  obtain ⟨n, hnumbered⟩ := h.attempt _ _ hrow
  have hid : a.id = run.currentAttemptID := w.keyed .attempts _ a hrow
  rcases hrun with hempty | ⟨m, hnamed⟩
  · exact absurd (hnumbered.named.symm.trans (hid.trans hempty)) (attemptName_ne_empty _ _)
  · exact (attemptName_inj (hnumbered.named.symm.trans (hid.trans hnamed))).1

theorem Numbered.fresh (h : Numbered w) (runID : String) :
    w.row .attempts (attemptName runID (attemptCount w runID + 1 : Nat)) = none := by
  cases hrow : w.row .attempts (attemptName runID (attemptCount w runID + 1 : Nat)) with
  | none => rfl
  | some a =>
    obtain ⟨n, hnumbered⟩ := h.attempt _ _ hrow
    have hid : a.id = _ := w.keyed .attempts _ a hrow
    obtain ⟨hrun, hnumber⟩ := attemptName_inj (hnumbered.named.symm.trans hid)
    have hbounded := hnumbered.bounded
    rw [hrun, hnumber] at hbounded
    exact absurd hbounded (Nat.not_succ_le_self _)

theorem attemptCount_congr (h : w'.table .attempts = w.table .attempts) (runID : String) :
    attemptCount w' runID = attemptCount w runID :=
  congrArg List.length (Database.matching_congr (S := schema) (t := .attempts) h _)

theorem attemptCount_save_new (hfresh : w.row .attempts a.id = none) (runID : String) :
    attemptCount (w.save Table.attempts a) runID =
      if a.runID = runID then attemptCount w runID + 1 else attemptCount w runID := by
  unfold attemptCount
  have hmatching := Database.matching_save_of_none (S := schema) (t := .attempts)
    (p := fun a : RLAttempt => a.runID = runID) hfresh
  rw [show (w.save Table.attempts a).matching .attempts (fun a : RLAttempt => a.runID = runID) = _
    from hmatching]
  by_cases hrun : a.runID = runID
  · rw [if_pos hrun, if_pos (decide_eq_true hrun)]
    rfl
  · rw [if_neg hrun, if_neg (by simpa using hrun)]

theorem attemptCount_save_stored {old : RLAttempt} (hrow : w.row .attempts a.id = some old)
    (hrun : a.runID = old.runID) (runID : String) :
    attemptCount (w.save Table.attempts a) runID = attemptCount w runID := by
  refine Database.length_matching_save_of_some (S := schema) (t := .attempts) hrow ?_
  rw [hrun]

end Numbers

/-! ## Where a run stands -/

/-- Where a run stands with its attempts: between two of them, with one left to make, or on the
last one it made. -/
inductive Stands (w : World) (run : RLRun) (retries : Int) : Prop
  | between (hempty : run.currentAttemptID = "")
      (hleft : (attemptCount w run.id : Int) ≤ retries)
  | on (a : RLAttempt) (hrow : w.row .attempts run.currentAttemptID = some a)
      (hrun : a.runID = run.id) (hnumber : a.number = attemptCount w run.id)
      (hbound : a.number ≤ retries + 1)

/-- The run has used up its attempts: the last one failed. -/
def Exhausted (w : World) (run : RLRun) (retries : Int) : Prop :=
  ∃ a : RLAttempt, w.row .attempts run.currentAttemptID = some a ∧ a.runID = run.id ∧
    a.number = retries + 1 ∧ a.status = .failed

theorem maxRetries_nonneg (spec : RLRunSpec) : 0 ≤ maxRetries spec := by
  unfold maxRetries
  split
  · split
    · rename_i hrange
      exact hrange.1
    · decide
  · decide

/-- What is known of a run after passes whose writes succeeded. -/
structure Settles (cfg : Config) (w : World) (run : RLRun) : Prop where
  stands : ∀ spec, snapshotSpec cfg run spec → Stands w run (maxRetries spec)
  failed : run.status = .failed → ∀ spec, snapshotSpec cfg run spec →
    Exhausted w run (maxRetries spec)

/-! ## Where a training job resumes -/

/-- The address of a resume point: that of a stored checkpoint, or the specification's own. -/
def resumeURI (w : World) (spec : RLRunSpec) (checkpointID : String) : Option String :=
  if checkpointID = "" then some spec.checkpoint.resumeFrom
  else (w.row .checkpoints checkpointID).map fun c : RLCheckpointRecord => c.resumeURI

/-- The specification that resumes at an address. -/
def resumeSpec (spec : RLRunSpec) (uri : String) : RLRunSpec :=
  { spec with checkpoint := { spec.checkpoint with resumeFrom := uri } }

/-- The training job of the attempt has the entrypoint that resumes where the stored attempt
says. -/
def Resumes (cfg : Config) (w : World) (execution : RLRunSpec) (attemptID : String) : Prop :=
  ∃ (attempt : RLAttempt) (run : RLRun) (spec : RLRunSpec) (uri : String),
    w.row .attempts attemptID = some attempt ∧ w.row .runs attempt.runID = some run ∧
    snapshotSpec cfg run spec ∧ resumeURI w spec attempt.resumeCheckpointID = some uri ∧
    (renderRayJob execution attemptID).content.entrypoint =
      (renderRayJob (resumeSpec spec uri) attemptID).content.entrypoint

section Stand

variable {cfg : Config} {w w' : World} {run copy copy' : RLRun} {a : RLAttempt} {spec : RLRunSpec}

theorem snapshotSpec_unique {spec' : RLRunSpec} (h : snapshotSpec cfg run spec)
    (h' : snapshotSpec cfg run spec') : spec' = spec := by
  obtain ⟨snapshot, hdecoded, rfl⟩ := h
  obtain ⟨snapshot', hdecoded', rfl⟩ := h'
  cases hdecoded.symm.trans hdecoded'
  rfl

theorem snapshotSpec_congr (h : snapshotSpec cfg copy' spec)
    (hsnapshot : copy'.snapshotJSON = copy.snapshotJSON) : snapshotSpec cfg copy spec := by
  unfold snapshotSpec at h ⊢
  rwa [← hsnapshot]

theorem Numbered.id_ne_empty (h : Numbered w) (hrow : w.row .attempts "" = some a) : False := by
  obtain ⟨n, hn⟩ := h.attempt _ a hrow
  have hid : a.id = "" := w.keyed .attempts _ a hrow
  exact attemptName_ne_empty _ _ (hn.named.symm.trans hid)

theorem Stands.current {retries : Int} (h : Stands w run retries) (hnumbered : Numbered w)
    (hrow : w.row .attempts run.currentAttemptID = some a) :
    a.number = attemptCount w run.id ∧ a.number ≤ retries + 1 := by
  cases h with
  | between hempty _ => exact (hnumbered.id_ne_empty (hempty ▸ hrow)).elim
  | on b hrow' _ hnumber hbound =>
    obtain rfl : a = b := Option.some.inj (hrow.symm.trans hrow')
    exact ⟨hnumber, hbound⟩

theorem Settles.congr (h : Settles cfg w copy) (hid : copy'.id = copy.id)
    (hcurrent : copy'.currentAttemptID = copy.currentAttemptID)
    (hsnapshot : copy'.snapshotJSON = copy.snapshotJSON)
    (hstatus : copy'.status = .failed → copy.status = .failed) : Settles cfg w copy' := by
  have hspec : ∀ spec, snapshotSpec cfg copy' spec → snapshotSpec cfg copy spec :=
    fun _ hspec => snapshotSpec_congr hspec hsnapshot
  refine ⟨fun spec h' => ?_, fun hfailed spec h' => ?_⟩
  · cases h.stands spec (hspec spec h') with
    | between hempty hleft => exact .between (hcurrent.trans hempty) (hid ▸ hleft)
    | on a hrow hrun hnumber hbound =>
      exact .on a (hcurrent ▸ hrow) (hrun.trans hid.symm) (hid ▸ hnumber) hbound
  · obtain ⟨a, hrow, hrun, hnumber⟩ := h.failed (hstatus hfailed) spec (hspec spec h')
    exact ⟨a, hcurrent ▸ hrow, hrun.trans hid.symm, hnumber⟩

theorem Numbered.frame (h : Numbered w) (hattempts : w'.table .attempts = w.table .attempts)
    (hstored : ∀ (k : String) (run : RLRun), w.row .runs k = some run →
      ∃ run' : RLRun, w'.row .runs k = some run')
    (hcurrent : ∀ (k : String) (run : RLRun), w'.row .runs k = some run → Named run) :
    Numbered w' := by
  have hattempt := fun k => row_congr hattempts k
  refine ⟨fun id a ha => ?_, fun id a ha => ?_, hcurrent⟩
  · obtain ⟨n, hn⟩ := h.attempt id a ((hattempt id).symm.trans ha)
    have hcount := attemptCount_congr hattempts a.runID
    exact ⟨n, hn.positive, hcount ▸ hn.bounded, hn.number, hn.named⟩
  · obtain ⟨run, hrow⟩ := h.owner id a ((hattempt id).symm.trans ha)
    exact hstored _ run hrow

end Stand

/-! ## What a pass over a run does -/

/-- What an applied job rests on is not taken back. -/
structure Retains (w w' : World) : Prop where
  attempts : ∀ (id : String) (a : RLAttempt), w.row .attempts id = some a →
    ∃ a' : RLAttempt, w'.row .attempts id = some a' ∧ a'.runID = a.runID ∧
      a'.resumeCheckpointID = a.resumeCheckpointID
  runs : ∀ (id : String) (run : RLRun), w.row .runs id = some run →
    ∃ run' : RLRun, w'.row .runs id = some run' ∧ run'.snapshotJSON = run.snapshotJSON
  checkpoints : ∀ (id : String) (c : RLCheckpointRecord), w.row .checkpoints id = some c →
    w'.row .checkpoints id = some c

/-- A pass over the run moves the database: it leaves checkpoints, other runs and their
attempts alone. -/
structure Moves (id : String) (w w' : World) : Prop where
  runs : ∀ k : String, k ≠ id → w'.row .runs k = w.row .runs k
  stored : ∀ run : RLRun, w.row .runs id = some run →
    ∃ run' : RLRun, w'.row .runs id = some run' ∧ run'.snapshotJSON = run.snapshotJSON
  kept : ∀ (k : String) (a : RLAttempt), w.row .attempts k = some a →
    ∃ a' : RLAttempt, w'.row .attempts k = some a' ∧ a'.runID = a.runID ∧
      a'.resumeCheckpointID = a.resumeCheckpointID
  attempts : ∀ (k : String) (a : RLAttempt), a.runID ≠ id →
    (w'.row .attempts k = some a ↔ w.row .attempts k = some a)
  count : ∀ runID, runID ≠ id → attemptCount w' runID = attemptCount w runID
  checkpoints : w'.table .checkpoints = w.table .checkpoints

section Moving

variable {cfg : Config} {id : String} {w w1 w' : World} {run copy copy' : RLRun}
variable {a a' : RLAttempt} {spec : RLRunSpec}

theorem resumeURI_of_retains (h : Retains w w') {spec : RLRunSpec} {checkpointID uri : String}
    (huri : resumeURI w spec checkpointID = some uri) :
    resumeURI w' spec checkpointID = some uri := by
  unfold resumeURI at huri ⊢
  split
  · rwa [if_pos (by assumption)] at huri
  · rw [if_neg (by assumption)] at huri
    obtain ⟨c, hrow, heq⟩ := Option.map_eq_some_iff.mp huri
    exact Option.map_eq_some_iff.mpr ⟨c, h.checkpoints _ c hrow, heq⟩

theorem Resumes.carry {execution : RLRunSpec} {attemptID : String}
    (h : Resumes cfg w execution attemptID) (hretains : Retains w w') :
    Resumes cfg w' execution attemptID := by
  obtain ⟨a, run, spec, uri, ha, hrun, ⟨snapshot, hdecoded, hspec⟩, huri, hentry⟩ := h
  obtain ⟨a', ha', howner, hpoint⟩ := hretains.attempts _ a ha
  obtain ⟨run', hrun', hsnapshot⟩ := hretains.runs _ run hrun
  refine ⟨a', run', spec, uri, ha', howner ▸ hrun', ⟨snapshot, hsnapshot ▸ hdecoded, hspec⟩, ?_,
    hentry⟩
  exact resumeURI_of_retains hretains (hpoint ▸ huri)

theorem Moves.of_tables (hruns : w'.table .runs = w.table .runs)
    (hattempts : w'.table .attempts = w.table .attempts)
    (hcheckpoints : w'.table .checkpoints = w.table .checkpoints) : Moves id w w' := by
  have hattempt := fun k => row_congr hattempts k
  have hrun := fun k => row_congr hruns k
  refine ⟨fun k _ => hrun k, fun run hrow => ⟨run, (hrun id).trans hrow, rfl⟩,
    fun k a hrow => ⟨a, (hattempt k).trans hrow, rfl, rfl⟩, fun k a _ => ?_,
    fun runID _ => attemptCount_congr hattempts runID, hcheckpoints⟩
  rw [show w'.row .attempts k = w.row .attempts k from hattempt k]

theorem Moves.refl (w : World) : Moves id w w := Moves.of_tables rfl rfl rfl

theorem Moves.trans (h : Moves id w w1) (h' : Moves id w1 w') : Moves id w w' := by
  refine ⟨fun k hk => (h'.runs k hk).trans (h.runs k hk), fun run hrow => ?_, fun k a hrow => ?_,
    fun k a hne => (h'.attempts k a hne).trans (h.attempts k a hne),
    fun runID hne => (h'.count runID hne).trans (h.count runID hne),
    h'.checkpoints.trans h.checkpoints⟩
  · obtain ⟨run1, hrow1, hsnapshot1⟩ := h.stored run hrow
    obtain ⟨run2, hrow2, hsnapshot2⟩ := h'.stored run1 hrow1
    exact ⟨run2, hrow2, hsnapshot2.trans hsnapshot1⟩
  · obtain ⟨a1, hrow1, hrun1, hpoint1⟩ := h.kept k a hrow
    obtain ⟨a2, hrow2, hrun2, hpoint2⟩ := h'.kept k a1 hrow1
    exact ⟨a2, hrow2, hrun2.trans hrun1, hpoint2.trans hpoint1⟩

theorem Moves.retains (h : Moves id w w') : Retains w w' := by
  refine ⟨h.kept, fun k run hrow => ?_, fun k c hrow => ?_⟩
  · by_cases hk : k = id
    · subst hk
      exact h.stored run hrow
    · exact ⟨run, (h.runs k hk).trans hrow, rfl⟩
  · exact (row_congr h.checkpoints k).trans hrow

theorem Settles.moves (h : Settles cfg w run) (hmoves : Moves id w w') (hne : run.id ≠ id) :
    Settles cfg w' run := by
  have hcount := hmoves.count run.id hne
  have hrow : ∀ b : RLAttempt, w.row .attempts run.currentAttemptID = some b → b.runID = run.id →
      w'.row .attempts run.currentAttemptID = some b :=
    fun b hb hrun => (hmoves.attempts _ b (hrun ▸ hne)).mpr hb
  refine ⟨fun spec hspec => ?_, fun hfailed spec hspec => ?_⟩
  · cases h.stands spec hspec with
    | between hempty hleft => exact .between hempty (hcount ▸ hleft)
    | on b hb hrun hnumber hbound => exact .on b (hrow b hb hrun) hrun (hcount ▸ hnumber) hbound
  · obtain ⟨b, hb, hrun, hexhausted⟩ := h.failed hfailed spec hspec
    exact ⟨b, hrow b hb hrun, hrun, hexhausted⟩

theorem Settles.frame (h : Settles cfg w run) (hattempts : w'.table .attempts = w.table .attempts) :
    Settles cfg w' run := by
  have hrow := fun k => row_congr hattempts k
  have hcount := attemptCount_congr hattempts run.id
  refine ⟨fun spec hspec => ?_, fun hfailed spec hspec => ?_⟩
  · cases h.stands spec hspec with
    | between hempty hleft => exact .between hempty (hcount ▸ hleft)
    | on a hrow' hrun hnumber hbound =>
      exact .on a ((hrow _).trans hrow') hrun (hcount ▸ hnumber) hbound
  · obtain ⟨a, hrow', hexhausted⟩ := h.failed hfailed spec hspec
    exact ⟨a, (hrow _).trans hrow', hexhausted⟩

/-! ### A write of the run -/

theorem Moves.saveRun (hfound : w.row .runs id = some run)
    (hsnapshot : copy.snapshotJSON = run.snapshotJSON) (hid : copy.id = id) :
    Moves id w (w.save Table.runs copy) := by
  have hattempts : (w.save Table.runs copy).table .attempts = w.table .attempts :=
    table_save_of_ne (t := .runs) w copy nofun
  have hattempt := fun k => row_congr hattempts k
  refine ⟨fun k hk => row_save_run_of_ne w (hid ▸ hk), fun run' hrow => ⟨copy, ?_, ?_⟩,
    fun k a hrow => ⟨a, (hattempt k).trans hrow, rfl, rfl⟩, fun k a _ => ?_,
    fun runID _ => attemptCount_congr hattempts runID,
    table_save_of_ne (t := .runs) w copy nofun⟩
  · rw [← hid]
    exact row_save_run_self w copy
  · cases hfound.symm.trans hrow
    exact hsnapshot
  · rw [show (w.save Table.runs copy).row .attempts k = w.row .attempts k from hattempt k]

theorem Numbered.saveRun (h : Numbered w) (hnamed : Named copy) :
    Numbered (w.save Table.runs copy) := by
  have hrun : ∀ (k : String) (run : RLRun), (w.save Table.runs copy).row .runs k = some run →
      run = copy ∨ w.row .runs k = some run := by
    intro k run hrow
    by_cases hk : k = copy.id
    · subst hk
      exact .inl (Option.some.inj (hrow.symm.trans (row_save_run_self w copy)))
    · exact .inr ((row_save_run_of_ne w hk).symm.trans hrow)
  refine h.frame (table_save_of_ne (t := .runs) w copy nofun)
    (fun k run hrow => ?_) fun k run hrow => ?_
  · by_cases hk : k = copy.id
    · subst hk
      exact ⟨copy, row_save_run_self w copy⟩
    · exact ⟨run, (row_save_run_of_ne w hk).trans hrow⟩
  · rcases hrun k run hrow with rfl | hold
    · exact hnamed
    · exact h.current k run hold

/-! ### A new attempt -/

theorem row_save_attempt_self (w : World) (a : RLAttempt) :
    (w.save Table.attempts a).row .attempts a.id = some a :=
  row_save_self (t := .attempts) w a

theorem row_save_attempt_of_ne (w : World) {k : String} (h : k ≠ a.id) :
    (w.save Table.attempts a).row .attempts k = w.row .attempts k :=
  (row_save (t := .attempts) w a k).trans (if_neg h)

theorem eq_or_row_of_save_attempt {k : String}
    (h : (w.save Table.attempts a).row .attempts k = some a') :
    k = a.id ∧ a' = a ∨ k ≠ a.id ∧ w.row .attempts k = some a' := by
  by_cases hk : k = a.id
  · subst hk
    exact .inl ⟨rfl, Option.some.inj (h.symm.trans (row_save_attempt_self w a))⟩
  · exact .inr ⟨hk, (row_save_attempt_of_ne w hk).symm.trans h⟩

/-- An attempt that is numbered in the new database and belongs to a stored run may be
saved, if no run loses attempts. -/
theorem Numbered.saveAttempt {n : Nat} (h : Numbered w)
    (hnew : NumberedIn (w.save Table.attempts a) a n)
    (howner : ∃ run : RLRun, w.row .runs a.runID = some run)
    (hcount : ∀ runID, attemptCount w runID ≤ attemptCount (w.save Table.attempts a) runID) :
    Numbered (w.save Table.attempts a) := by
  have hruns : ∀ k : String, (w.save Table.attempts a).row .runs k = w.row .runs k :=
    fun k => row_save_other w (t := .attempts) a .runs nofun k
  refine ⟨fun k b hrow => ?_, fun k b hrow => ?_, fun k run hrow => ?_⟩
  · rcases eq_or_row_of_save_attempt hrow with ⟨-, rfl⟩ | ⟨-, hold⟩
    · exact ⟨n, hnew⟩
    · obtain ⟨m, hm⟩ := h.attempt k b hold
      exact ⟨m, hm.positive, hm.bounded.trans (hcount _), hm.number, hm.named⟩
  · have hbefore : ∃ run : RLRun, w.row .runs b.runID = some run := by
      rcases eq_or_row_of_save_attempt hrow with ⟨-, rfl⟩ | ⟨-, hold⟩
      · exact howner
      · exact h.owner k b hold
    obtain ⟨run, hrun⟩ := hbefore
    exact ⟨run, (hruns _).trans hrun⟩
  · exact h.current k run ((hruns k).symm.trans hrow)

/-- A new attempt of a stored run. -/
structure Next (w : World) (id : String) (a : RLAttempt) : Prop where
  runID : a.runID = id
  number : a.number = (attemptCount w id + 1 : Nat)
  named : a.id = attemptName id (attemptCount w id + 1 : Nat)

theorem Next.fresh (h : Next w id a) (hnumbered : Numbered w) : w.row .attempts a.id = none := by
  rw [h.named]
  exact hnumbered.fresh id

theorem Next.row_of_row (h : Next w id a) (hnumbered : Numbered w) {k : String}
    (hrow : w.row .attempts k = some a') : (w.save Table.attempts a).row .attempts k = some a' := by
  refine (row_save_attempt_of_ne w ?_).trans hrow
  rintro rfl
  cases (h.fresh hnumbered).symm.trans hrow

theorem Next.count (h : Next w id a) (hnumbered : Numbered w) (runID : String) :
    attemptCount (w.save Table.attempts a) runID =
      if id = runID then attemptCount w runID + 1 else attemptCount w runID := by
  rw [attemptCount_save_new (h.fresh hnumbered), h.runID]

theorem Numbered.saveNext (h : Numbered w) (hnext : Next w id a)
    (hstored : ∃ run : RLRun, w.row .runs id = some run) :
    Numbered (w.save Table.attempts a) := by
  refine h.saveAttempt (n := attemptCount w id + 1) ⟨Nat.le_add_left _ _, ?_, hnext.number, ?_⟩
    (hnext.runID ▸ hstored) fun runID => ?_
  · rw [hnext.count h, hnext.runID, if_pos rfl]
  · rw [hnext.runID]
    exact hnext.named
  · rw [hnext.count h]
    split
    · exact Nat.le_succ _
    · exact le_rfl

theorem Moves.saveNext (h : Numbered w) (hnext : Next w id a) :
    Moves id w (w.save Table.attempts a) := by
  have hfresh := hnext.fresh h
  refine ⟨fun k _ => row_save_other w (t := .attempts) a .runs nofun k,
    fun run hrow => ⟨run, (row_save_other w (t := .attempts) a .runs nofun id).trans hrow, rfl⟩,
    fun k b hrow => ⟨b, hnext.row_of_row h hrow, rfl, rfl⟩, fun k b hne => ⟨fun hrow => ?_, ?_⟩,
    fun runID hne => ?_,
    table_save_of_ne (t := .attempts) w a nofun⟩
  · rcases eq_or_row_of_save_attempt hrow with ⟨-, rfl⟩ | ⟨-, hold⟩
    · exact absurd hnext.runID hne
    · exact hold
  · exact hnext.row_of_row h
  · rw [hnext.count h, if_neg (Ne.symm hne)]

theorem Settles.next (h : Settles cfg w copy) (hnumbered : Numbered w) (hnext : Next w copy.id a)
    (hempty : copy.currentAttemptID = "") (hid : copy'.id = copy.id)
    (hsnapshot : copy'.snapshotJSON = copy.snapshotJSON) (hcurrent : copy'.currentAttemptID = a.id)
    (hstatus : copy'.status ≠ .failed) : Settles cfg (w.save Table.attempts a) copy' := by
  refine ⟨fun spec hspec => ?_, fun hfailed => absurd hfailed hstatus⟩
  have hcount : attemptCount (w.save Table.attempts a) copy'.id = attemptCount w copy.id + 1 := by
    rw [hnext.count hnumbered, hid, if_pos rfl]
  have hleft : (attemptCount w copy.id : Int) ≤ maxRetries spec := by
    cases h.stands spec (snapshotSpec_congr hspec hsnapshot) with
    | between _ hleft => exact hleft
    | on b hrow _ _ _ => exact (hnumbered.id_ne_empty (hempty ▸ hrow)).elim
  refine .on a ?_ (hnext.runID.trans hid.symm) ?_ ?_
  · rw [hcurrent]
    exact row_save_attempt_self w a
  · rw [hcount]
    exact hnext.number
  · rw [hnext.number]
    omega

/-! ### A new version of an attempt -/

/-- A stored attempt is rewritten. -/
structure Rewrites (w : World) (a a' : RLAttempt) : Prop where
  stored : w.row .attempts a.id = some a
  id : a'.id = a.id
  runID : a'.runID = a.runID
  number : a'.number = a.number
  point : a'.resumeCheckpointID = a.resumeCheckpointID

theorem Rewrites.row (h : Rewrites w a a') : w.row .attempts a'.id = some a := h.id ▸ h.stored

theorem Rewrites.count (h : Rewrites w a a') (runID : String) :
    attemptCount (w.save Table.attempts a') runID = attemptCount w runID :=
  attemptCount_save_stored h.row h.runID runID

theorem Rewrites.moves (h : Rewrites w a a') (hrun : a.runID = id) :
    Moves id w (w.save Table.attempts a') := by
  refine ⟨fun k _ => row_save_other w (t := .attempts) a' .runs nofun k,
    fun run hrow => ⟨run, (row_save_other w (t := .attempts) a' .runs nofun id).trans hrow, rfl⟩,
    fun k b hrow => ?_, fun k b hne => ⟨fun hrow => ?_, fun hrow => ?_⟩,
    fun runID _ => h.count runID,
    table_save_of_ne (t := .attempts) w a' nofun⟩
  · by_cases hk : k = a'.id
    · subst hk
      obtain rfl : a = b := Option.some.inj (h.row.symm.trans hrow)
      exact ⟨a', row_save_attempt_self w a', h.runID, h.point⟩
    · exact ⟨b, (row_save_attempt_of_ne w hk).trans hrow, rfl, rfl⟩
  · rcases eq_or_row_of_save_attempt hrow with ⟨-, rfl⟩ | ⟨-, hold⟩
    · exact absurd (h.runID.trans hrun) hne
    · exact hold
  · refine (row_save_attempt_of_ne w ?_).trans hrow
    rintro rfl
    obtain rfl : a = b := Option.some.inj (h.row.symm.trans hrow)
    exact hne hrun

theorem Numbered.rewrite (h : Numbered w) (hrewrites : Rewrites w a a') :
    Numbered (w.save Table.attempts a') := by
  obtain ⟨n, hn⟩ := h.attempt _ a hrewrites.stored
  refine h.saveAttempt ⟨hn.positive, ?_, hrewrites.number.trans hn.number, ?_⟩
    (hrewrites.runID ▸ h.owner _ a hrewrites.stored) fun runID => (hrewrites.count runID).ge
  · rw [hrewrites.count, hrewrites.runID]
    exact hn.bounded
  · rw [hrewrites.id, hrewrites.runID]
    exact hn.named

/-- What a pass does with the run when it has observed the training job of the attempt. -/
inductive AfterJob (retries : Int) (run : RLRun) (a' : RLAttempt) (run' : RLRun) : Prop
  | going (hcurrent : run'.currentAttemptID = run.currentAttemptID)
      (hstatus : run'.status ≠ .failed)
  | retry (hempty : run'.currentAttemptID = "") (hstatus : run'.status ≠ .failed)
      (hleft : a'.number ≤ retries)
  | spent (hcurrent : run'.currentAttemptID = run.currentAttemptID) (hfailed : a'.status = .failed)
      (hlast : retries < a'.number)

/-- The run stands on its attempt, is between two attempts, or has used them up. -/
theorem Settles.observed (h : Settles cfg w copy) (hnumbered : Numbered w)
    (hrewrites : Rewrites w a a') (hrow : w.row .attempts copy.currentAttemptID = some a)
    (hrun : a.runID = copy.id) (hspec : snapshotSpec cfg copy spec)
    (hid : copy'.id = copy.id) (hsnapshot : copy'.snapshotJSON = copy.snapshotJSON)
    (hobserved : AfterJob (maxRetries spec) copy a' copy') :
    Settles cfg (w.save Table.attempts a') copy' := by
  obtain ⟨hnumber, hbound⟩ := (h.stands spec hspec).current hnumbered hrow
  have hcount : attemptCount (w.save Table.attempts a') copy'.id = attemptCount w copy.id := by
    rw [hrewrites.count, hid]
  have hcurrent : copy.currentAttemptID = a'.id :=
    (w.keyed .attempts _ a hrow).symm.trans hrewrites.id.symm
  have hsame : ∀ spec', snapshotSpec cfg copy' spec' → spec' = spec :=
    fun _ hspec' => snapshotSpec_unique hspec (snapshotSpec_congr hspec' hsnapshot)
  have hnumber' : a'.number = attemptCount (w.save Table.attempts a') copy'.id := by
    rw [hcount, hrewrites.number, hnumber]
  have hbound' : a'.number ≤ maxRetries spec + 1 := hrewrites.number ▸ hbound
  have hself : (w.save Table.attempts a').row .attempts copy.currentAttemptID = some a' := by
    rw [hcurrent]
    exact row_save_attempt_self w a'
  have hrun' : a'.runID = copy'.id := hrewrites.runID.trans (hrun.trans hid.symm)
  cases hobserved with
  | going hkeep hstatus =>
    refine ⟨fun spec' hspec' => ?_, fun hfailed => absurd hfailed hstatus⟩
    rw [hsame spec' hspec']
    exact .on a' (hkeep ▸ hself) hrun' hnumber' hbound'
  | retry hempty hstatus hleft =>
    refine ⟨fun spec' hspec' => ?_, fun hfailed => absurd hfailed hstatus⟩
    rw [hsame spec' hspec']
    exact .between hempty (hnumber' ▸ hleft)
  | spent hkeep hfailed hlast =>
    refine ⟨fun spec' hspec' => ?_, fun _ spec' hspec' => ?_⟩
    · rw [hsame spec' hspec']
      exact .on a' (hkeep ▸ hself) hrun' hnumber' hbound'
    · rw [hsame spec' hspec']
      exact ⟨a', hkeep ▸ hself, hrun', Int.le_antisymm hbound' hlast, hfailed⟩

end Moving

end RL
end Skyscale
