import Skyscale.RL.Copies

/-!
# Cancellations are not lost

The handler of `DELETE /api/rl/runs/{id}` persists the desired state `cancelled` for
a slime run.  Every other program writes whole copies of run rows, so a copy that was
read before can undo the cancellation later (`lost_cancellation`).  The module proves
that nothing else can: if at the moment of the write no other running program holds a
copy that is not cancelled, and no suspend or resume request for the run is running
or issued later, the persisted row stays cancelled in every interleaving
(`cancellation_kept`).
-/

namespace Skyscale
namespace RL

open Lib State Control

/-! ## What a running program may still do -/

/-- Rows of the run are slime rows with the desired state `cancelled`. -/
def Cancelled (id : String) : String → Backend → DesiredState → Prop :=
  fun id' backend desired => id' = id → backend = .slime ∧ desired = .cancelled

/-- The program has not returned. -/
def InFlight (t : Thread Request Op Ans (Option Response)) : Prop :=
  ∃ op next, t.rest = .call op next

/-- The program holds no copy of the run's row other than a cancelled one, and will
not assign its desired state. -/
def Harmless (id : String) (t : Thread Request Op Ans (Option Response)) : Prop :=
  (∀ e ∈ t.past, Reads (Cancelled id) e.1 e.2) ∧ t.tag ≠ .suspendRun id ∧ t.tag ≠ .resumeRun id

/-- All programs in flight are harmless, the `i`-th apart. -/
def NoStaleCopy (id : String) (i : Nat) (s : Plane) : Prop :=
  ∀ j t, s.threads[j]? = some t → j ≠ i → InFlight t → Harmless id t

variable {id : String}

theorem safe_of_tag (cfg : Config) {request : Request} (hsuspend : request ≠ .suspendRun id)
    (hresume : request ≠ .resumeRun id) :
    Safe (Cancelled id) (program cfg request) := by
  refine safe_program cfg request fun id' desired hassign backend old hgood heq => ?_
  subst heq
  cases request with
  | stopRun id =>
    obtain ⟨rfl, rfl⟩ : id = id' ∧ DesiredState.cancelled = desired := by
      simpa [assignedState] using hassign
    exact ⟨(hgood rfl).1, rfl⟩
  | suspendRun id =>
    obtain ⟨rfl, -⟩ : id = id' ∧ DesiredState.suspended = desired := by
      simpa [assignedState] using hassign
    exact absurd rfl hsuspend
  | resumeRun id =>
    obtain ⟨rfl, -⟩ : id = id' ∧ DesiredState.running = desired := by
      simpa [assignedState] using hassign
    exact absurd rfl hresume
  | _ => cases hassign

/-! ## The stop handler -/

/-- Answers to a selection satisfy its condition. -/
def Selected : (op : Op) → Ans op → Prop
  | .sql (.first .runs where_ _), ans => ∀ run : RLRun, ans = Except.ok run → where_ run = true
  | _, _ => True

theorem selected_of_exec {w w' : World} {op : Op} {ans : Ans op} (h : exec w op ans w') :
    Selected op ans := by
  have hfine : AllFine (fun _ _ _ => True) w := ⟨fun _ _ _ => trivial, fun _ _ _ _ => trivial⟩
  have hreads := reads_of_exec hfine h
  cases op with
  | sql q =>
    cases q with
    | first t p rank =>
      cases t with
      | runs => exact fun run hrun => (hreads run hrun).1
      | _ => trivial
    | _ => trivial
  | _ => trivial

/-- What the stop handler writes: the row it was asked for; and a slime row is
written cancelled, as the last thing the handler does. -/
def StopsOnly (id : String) : (op : Op) → (Ans op → Program (Option Response)) → Prop
  | .sql (.save .runs run), next => run.id = id ∧ (run.backend = .slime →
      run.desiredState = .cancelled ∧ ∀ ans, ∃ response, next ans = .ret response)
  | _, _ => True

theorem stopsOnly_of_plain {op : Op} (h : Plain op) (next : Ans op → Program (Option Response)) :
    StopsOnly id op next := by
  cases op with
  | sql q =>
    cases q with
    | save t row => cases t with
      | runs => cases h
      | _ => trivial
    | _ => trivial
  | _ => trivial

theorem stopRun_calls (cfg : Config) (id : String) :
    (program cfg (.stopRun id)).Calls Selected (StopsOnly id) := by
  refine ⟨trivial, fun ans hans => ?_⟩
  cases ans with
  | error e => trivial
  | ok run =>
    have hid : run.id = id := by simpa using hans run rfl
    show ((if run.backend = .slime then _ else _ : Handler).bind _).Calls Selected (StopsOnly id)
    split
    · rename_i hslime
      refine ⟨⟨hid, fun _ => ⟨rfl, fun ans => ?_⟩⟩, fun ans _ => ?_⟩
      · rcases ans with e | _
        · exact ⟨_, rfl⟩
        · exact ⟨_, rfl⟩
      · rcases ans with e | _
        · trivial
        · trivial
    · rename_i hslime
      refine ⟨⟨hid, fun h => absurd h hslime⟩, fun ans _ => ?_⟩
      -- Behind the save of a run of the other backend only executions are touched.
      have hrest : Quiet (serving (do
          Prog.forEach stopExecution (run.workerExecIDs ++ [run.trainerExecID])
          respond 204 .empty)) :=
        Obeys.bind (Obeys.bind (Obeys.forEach fun execID _ => (still_stopExecution execID).quiet)
          fun _ => Obeys.pure _) fun _ => Obeys.pure _
      have hcalls : Obeys Selected Plain _ :=
        wp_rely_mono (fun _ _ _ => trivial) (fun _ h => h) hrest
      exact hcalls.calls fun op next h => stopsOnly_of_plain h next

/-! ## The table after the cancellation -/

theorem allFine_cancelled {w : World} {run : RLRun} (hrow : w.row .runs id = some run)
    (hslime : run.backend = .slime) (hcancelled : run.desiredState = .cancelled) :
    AllFine (Cancelled id) w := by
  refine ⟨fun id' run' hrow' hid => ?_, fun id' hnone _ _ hid => ?_⟩
  · obtain rfl : run'.id = id' := w.keyed .runs id' run' hrow'
    rw [hid, hrow] at hrow'
    obtain rfl := Option.some.inj hrow'
    exact ⟨hslime, hcancelled⟩
  · rw [hid, hrow] at hnone
    cases hnone

theorem desiredState_of_allFine {w : World} (h : AllFine (Cancelled id) w) :
    ∃ run, w.row .runs id = some run ∧ run.desiredState = .cancelled := by
  cases hrow : w.row .runs id with
  | none =>
    -- An unused identifier could be given to a row that is not cancelled.
    exact absurd (h.2 id hrow .unset .unset rfl).1 (by decide)
  | some run =>
    have hid : run.id = id := w.keyed .runs id run hrow
    exact ⟨run, rfl, (h.1 id run hrow hid).2⟩

/-! ## Every interleaving -/

/-- A suspend or resume request for the run is issued. -/
def reassigns (id : String) : Event → Bool
  | .spawn (.suspendRun id') => id' = id
  | .spawn (.resumeRun id') => id' = id
  | _ => false

/-- The table and the running programs, from the cancellation on. -/
def Kept (id : String) (s : Plane) : Prop :=
  AllFine (Cancelled id) s.world ∧ ∀ t ∈ s.threads, Safe (Cancelled id) t.rest

theorem kept_step {cfg : Config} {s s' : Plane} {event : Event} (hs : Kept id s)
    (h : Step cfg s event s') (hissued : reassigns id event = false) : Kept id s' := by
  refine Pool.rely_guarantee (I := AllFine (Cancelled id)) ?_ h hs.1 hs.2 ?_
  · intro w op ans w' hw hop hexec
    exact ⟨allFine_of_exec hw hop hexec, reads_of_exec hw hexec⟩
  · rintro request rfl
    refine safe_of_tag cfg ?_ ?_
    · rintro rfl
      simp [reassigns] at hissued
    · rintro rfl
      simp [reassigns] at hissued

/-- The write of the stop handler starts the phase, if no stale copy is around. -/
theorem kept_of_stop {cfg : Config} {w : World} {before : List Event} {s1 s2 : Plane} {i : Nat}
    {t : Thread Request Op Ans (Option Response)} {run : RLRun}
    (hbefore : Run (Step cfg) (Pool.idle w) before s1) (hthread : s1.threads[i]? = some t)
    (htag : t.tag = .stopRun id)
    (hstop : Step cfg s1 (.call i (.sql (.save .runs run)) (Except.ok () : Except Failure Unit)) s2)
    (hslime : run.backend = .slime) (hquiet : NoStaleCopy id i s1) : Kept id s2 := by
  have hresidual := Pool.residual_of_run hbefore
  have hselected := Pool.past_of_run (fun _ _ _ _ h => selected_of_exec h) hbefore
  cases hstop with
  | @call _ t' _ next _ w' hi hrest hexec =>
    obtain rfl : t' = t := Option.some.inj (hi.symm.trans hthread)
    have hmem := List.mem_of_getElem? hi
    have hleft := hresidual t' hmem
    rw [htag, hrest] at hleft
    obtain ⟨⟨hid, hwritten⟩, -⟩ := hleft.calls (stopRun_calls cfg id) (hselected t' hmem)
    obtain ⟨hcancelled, hdone⟩ := hwritten hslime
    refine ⟨?_, fun u hu => ?_⟩
    · have hw' : w' = s1.world.save .runs run := hexec
      have hrow : w'.row .runs id = some run := by
        rw [hw', ← hid]
        exact s1.world.row_save_self (t := Table.runs) run
      exact allFine_cancelled hrow hslime hcancelled
    · obtain ⟨j, hj⟩ := List.mem_iff_getElem?.mp hu
      rw [List.getElem?_set] at hj
      split at hj
      · -- The stop handler itself has nothing left to do.
        split at hj
        · obtain rfl := Option.some.inj hj
          obtain ⟨response, hret⟩ := hdone (.ok ())
          show Safe (Cancelled id) (next _)
          rw [hret]
          exact trivial
        · cases hj
      · rename_i hij
        have humem := List.mem_of_getElem? hj
        cases hu' : u.rest with
        | ret response => exact trivial
        | call op next' =>
          obtain ⟨hpast, hsuspend, hresume⟩ := hquiet j u hj (Ne.symm hij) ⟨op, next', hu'⟩
          rw [← hu']
          exact (hresidual u humem).obeys (safe_of_tag cfg hsuspend hresume) hpast

/-- No lost cancellation.  Once the stop handler of a slime run has persisted the
desired state `cancelled`, while no other program in flight held another copy of the
row or was about to assign its desired state, every later persisted row of the run is
cancelled, in every interleaving in which no suspend or resume request for the run is
issued. -/
theorem cancellation_kept {cfg : Config} {id : String} {w : World} {before after : List Event}
    {s1 s2 s3 : Plane} {i : Nat} {t : Thread Request Op Ans (Option Response)} {run : RLRun}
    (hbefore : Run (Step cfg) (Pool.idle w) before s1) (hthread : s1.threads[i]? = some t)
    (htag : t.tag = .stopRun id)
    (hstop : Step cfg s1 (.call i (.sql (.save .runs run)) (Except.ok () : Except Failure Unit)) s2)
    (hslime : run.backend = .slime) (hquiet : NoStaleCopy id i s1)
    (hafter : Run (Step cfg) s2 after s3) (hissued : ∀ e ∈ after, reassigns id e = false) :
    ∃ run', s3.world.row .runs id = some run' ∧ run'.desiredState = .cancelled := by
  have hkept : Kept id s3 := (hafter.guarded_of_labels hissued).invariant
      (kept_of_stop hbefore hthread htag hstop hslime hquiet)
      fun a event b ha hstep => kept_step ha hstep.1 hstep.2
  exact desiredState_of_allFine hkept.1

/-! ### Two interleavings -/

def plainConfig : Config :=
  { configOf default with
    decodeSnapshot := fun _ => .error "unexpected end of JSON input" }

def runningRun : RLRun :=
  { (default : RLRun) with
    id := "r", backend := .slime, status := .running, desiredState := .running }

def stoppedRun : RLRun := { runningRun with desiredState := .cancelled, status := .cancelling }

def oneRun : World := Database.empty.save Table.runs runningRun

def stopWrite (i : Nat) : Event :=
  .call i (.sql (.save .runs stoppedRun)) (Except.ok () : Except Failure Unit)

def stopRead : Plane :=
  (schedule plainConfig agreeable (Pool.idle oneRun) [.spawn (.stopRun "r"), .run 0]).2

def stopWritten : Plane := (schedule plainConfig agreeable stopRead [.run 0]).2

def laterPass : List (Pool.Choice Request) := [.spawn .reconcilePass, .run 1, .run 1, .run 1]

/-- A pass that starts after the stop handler has written keeps the cancellation. -/
theorem cancellation_kept_laterPass :
    ∃ run, (schedule plainConfig agreeable stopWritten laterPass).2.world.row .runs "r" = some run ∧
      run.desiredState = .cancelled := by
  have hbefore : Run (Step plainConfig) (Pool.idle oneRun) _ stopRead :=
    run_schedule plainConfig agreeable (Pool.idle oneRun) _
  have hadvance : Pool.advance (program plainConfig) (environment agreeable) stopRead (.run 0) =
      some (stopWrite 0, stopWritten) := rfl
  have hquiet : NoStaleCopy "r" 0 stopRead := by
    intro j t hj hne
    cases j with
    | zero => exact absurd rfl hne
    | succ j => cases hj
  have hafter := run_schedule plainConfig agreeable stopWritten laterPass
  exact cancellation_kept hbefore rfl rfl (step_of_advance hadvance) rfl hquiet hafter (by decide)

def publication : Request :=
  .publishWeights (some
    { manifest :=
        { apiVersion := "rl.skyscale.dev/v1alpha1", version := "v1", runID := "r"
          baseCheckpoint := "base", parentVersion := "", format := "full"
          checksums := FinMap.ofList [("weights", "sum")], byteSize := 1, optimizerStep := 1
          artifactURI := "uri", uploadComplete := true, manifestCommitted := true
          verified := true }
      requiredEngines := [], timeoutSeconds := 60 })

def bothRead : Plane :=
  (schedule plainConfig agreeable (Pool.idle oneRun)
    [.spawn publication, .run 0, .spawn (.stopRun "r"), .run 1]).2

def bothReadStopped : Plane := (schedule plainConfig agreeable bothRead [.run 1]).2

def publicationSaved : List Event × Plane :=
  schedule plainConfig agreeable bothReadStopped [.run 0, .run 0, .run 0]

/-- A lost cancellation: the copy of the row that the publication handler read before
the stop handler wrote is saved after it, with the desired state `running`. -/
theorem lost_cancellation :
    (∃ before, Run (Step plainConfig) (Pool.idle oneRun) before bothRead) ∧
    bothRead.threads[1]?.map (·.tag) = some (.stopRun "r") ∧ stoppedRun.backend = .slime ∧
    Step plainConfig bothRead (stopWrite 1) bothReadStopped ∧
    Run (Step plainConfig) bothReadStopped publicationSaved.1 publicationSaved.2 ∧
    (∀ e ∈ publicationSaved.1, reassigns "r" e = false) ∧
    (publicationSaved.2.world.row .runs "r").map (fun run : RLRun => run.desiredState) =
      some .running := by
  refine ⟨⟨_, run_schedule plainConfig agreeable (Pool.idle oneRun) _⟩, rfl, rfl, ?_,
    run_schedule plainConfig agreeable bothReadStopped _, by decide, rfl⟩
  have hadvance : Pool.advance (program plainConfig) (environment agreeable) bothRead (.run 1) =
      some (stopWrite 1, bothReadStopped) := rfl
  exact step_of_advance hadvance

end RL
end Skyscale
