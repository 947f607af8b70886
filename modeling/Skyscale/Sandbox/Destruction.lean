import Skyscale.Sandbox.Manager

/-!
# Destroyed sandboxes

`DestroySandbox` stores the status `destroyed` and does not take the lock that
serializes the execs of a sandbox.  An exec works on the copy of the row that it read
first and stores it twice.  So the stored status is final as long as no exec is
between its reading and its second storing when the sandbox is destroyed
(`destroyed_final`), and not otherwise (`destroyed_revived`).
-/

namespace Skyscale
namespace Sandboxes

open Lib

/-- The stored status of a sandbox. -/
def World.status (w : World) (id : String) : Option Status :=
  (w.sandboxes.get id).map Sandbox.status

/-- The call has read the row of a live sandbox and will still store it. -/
def Phase.HasCopy : Phase → Prop
  | .live | .unlisted | .chosen _ | .locked _ | .marked _ | .sent _ | .answered _ => True
  | .start | .restored _ | .over => False

/-- An exec on the sandbox is between its reading of the row and its last storing. -/
def Works (id : String) (t : Thread Request Op Ans Reply) : Prop :=
  t.tag.Execs id ∧ (phase t).HasCopy

/-- When `destroyed` is stored, no exec on the sandbox is at work. -/
def DestroysIdle (id : String) (s : System) (event : Event) : Prop :=
  ∀ i sandbox, event = .call i (.saveSandbox id sandbox) (.ok ()) →
    sandbox.status = .destroyed → ∀ t ∈ s.threads, ¬Works id t

theorem Exec.status {w w' : World} {op : Op} {ans : Ans op} (h : Exec w op ans w') (id : String) :
    w'.status id = w.status id ∨
      ∃ sandbox, (⟨op, ans⟩ : (op : Op) × Ans op) = ⟨.saveSandbox id sandbox, .ok ()⟩ ∧
        w'.status id = some sandbox.status := by
  cases h with
  | saveSandbox id' sandbox =>
    by_cases hid : id = id'
    · subst hid
      refine .inr ⟨sandbox, rfl, ?_⟩
      unfold World.status
      rw [FinMap.get_set_self]
      rfl
    · refine .inl ?_
      unfold World.status
      rw [FinMap.get_set_ne _ _ hid]
  | getSandbox | getFailed | saveFailed | listExpired | listFailed | saveExec | saveExecFailed
  | lookupLock | createLock | deleteLock | lock | contended | unlock | send | receive
  | terminateVM | newUUID | now => exact .inl rfl

/-- A call that has a copy had it before, or has just read a row that is not
destroyed. -/
theorem Phase.hasCopy_of_next {sandboxID : String} {w w' : World} {op : Op} {ans : Ans op}
    {phase : Phase} (hadmits : Phase.Admits sandboxID op phase) (hexec : Exec w op ans w')
    (h : (phase.next op ans).HasCopy) :
    phase.HasCopy ∨ w.status sandboxID ≠ some .destroyed := by
  cases hexec with
  | @getSandbox id sandbox hrow =>
    obtain ⟨rfl, rfl⟩ := hadmits
    refine .inr fun hdestroyed => ?_
    unfold World.status at hdestroyed
    rw [hrow] at hdestroyed
    have hstatus : sandbox.status = .destroyed := Option.some.inj hdestroyed
    simp only [Phase.next, hstatus, if_true] at h
    exact h
  | getFailed =>
    obtain ⟨-, rfl⟩ := hadmits
    exact h.elim
  | saveSandbox | saveFailed =>
    obtain ⟨-, lock, ⟨-, rfl⟩ | ⟨-, rfl⟩⟩ := hadmits <;> exact .inl trivial
  | lookupLock | createLock =>
    obtain ⟨-, rfl⟩ := hadmits
    exact .inl trivial
  | lock | contended =>
    obtain rfl := hadmits
    exact .inl trivial
  | send | receive | newUUID | now =>
    obtain ⟨lock, rfl⟩ := hadmits
    exact .inl trivial
  | saveExec | saveExecFailed =>
    obtain ⟨lock, rfl⟩ := hadmits
    exact h.elim
  | unlock =>
    obtain rfl := hadmits
    exact h.elim
  | listExpired | listFailed | deleteLock | terminateVM => exact hadmits.elim

/-- The storing calls of an exec are made while it works, and none stores
`destroyed`. -/
theorem Phase.Admits.save {id sandboxID : String} {sandbox : Sandbox} {phase : Phase}
    (h : Phase.Admits sandboxID (.saveSandbox id sandbox) phase) :
    id = sandboxID ∧ phase.HasCopy ∧ sandbox.status ≠ .destroyed := by
  obtain ⟨rfl, lock, ⟨hstatus, rfl⟩ | ⟨hstatus, rfl⟩⟩ := h
  · exact ⟨rfl, trivial, fun hd => by rw [hd] at hstatus; cases hstatus⟩
  · exact ⟨rfl, trivial, fun hd => by rw [hd] at hstatus; cases hstatus⟩

/-- While the sandbox is destroyed, nobody works on it. -/
def Settled (id : String) (s : System) : Prop :=
  s.world.status id = some .destroyed → ∀ t ∈ s.threads, ¬Works id t

section Runs

variable {id : String} {w : World} {events : List Event} {s s' : System} {event : Event}

/-- A storing call in a run: by an exec that works on the sandbox, or of `destroyed`
by a destruction. -/
theorem save_cases (hrun : Run Step (Pool.idle w) events s) {t : Thread Request Op Ans Reply}
    (ht : t ∈ s.threads) {sandbox : Sandbox} {next : Ans (.saveSandbox id sandbox) → Program Reply}
    (hrest : t.rest = .call (.saveSandbox id sandbox) next) :
    Works id t ∧ sandbox.status ≠ .destroyed ∨
      (∀ sandboxID, ¬t.tag.Execs sandboxID) ∧ sandbox.status = .destroyed := by
  rcases call_cases hrun ht hrest with ⟨sandboxID, hexecs, hadmits⟩ | hclears
  · obtain ⟨rfl, hcopy, hstatus⟩ := hadmits.save
    exact .inl ⟨⟨hexecs, hcopy⟩, hstatus⟩
  · exact .inr hclears

/-- A thread that works after its call worked before it, or the sandbox was not
destroyed. -/
theorem works_of_call (hrun : Run Step (Pool.idle w) events s) {t : Thread Request Op Ans Reply}
    (ht : t ∈ s.threads) {op : Op} {next : Ans op → Program Reply} {ans : Ans op} {w' : World}
    (hrest : t.rest = .call op next) (hexec : Exec s.world op ans w')
    (h : Works id ⟨t.tag, t.past ++ [⟨op, ans⟩], next ans⟩) :
    Works id t ∨ s.world.status id ≠ some .destroyed := by
  obtain ⟨hexecs, hcopy⟩ := h
  rw [phase_snoc] at hcopy
  rcases call_cases hrun ht hrest with ⟨sandboxID, hexecs', hadmits⟩ | ⟨hnone, -⟩
  · obtain rfl := hexecs'.unique hexecs
    exact (Phase.hasCopy_of_next hadmits hexec hcopy).imp_left fun hbefore => ⟨hexecs, hbefore⟩
  · exact absurd hexecs (hnone id)

/-- One step under the condition: a destroyed sandbox stays destroyed, and nobody
starts to work on it. -/
theorem Settled.step (hs : Settled id s) (hrun : Run Step (Pool.idle w) events s)
    (hstep : Step s event s') (hguard : DestroysIdle id s event) :
    Settled id s' ∧
      (s.world.status id = some .destroyed → s'.world.status id = some .destroyed) := by
  cases hstep with
  | spawn tag =>
    refine ⟨fun hdestroyed t ht => ?_, fun h => h⟩
    rcases List.mem_append.mp ht with ht | ht
    · exact hs hdestroyed t ht
    · obtain rfl := List.mem_singleton.mp ht
      exact fun hworks => hworks.2
  | @call i t op next ans w' hi hrest hexec =>
    have ht := List.mem_of_getElem? hi
    rcases hexec.status id with hsame | ⟨sandbox, heq, hstored⟩
    · -- The stored status is not touched.
      refine ⟨fun hdestroyed u hu => ?_, fun hdestroyed => hsame.trans hdestroyed⟩
      have hbefore : s.world.status id = some .destroyed := hsame.symm.trans hdestroyed
      rcases List.mem_or_eq_of_mem_set hu with hu | rfl
      · exact hs hbefore u hu
      · intro hworks
        rcases works_of_call hrun ht hrest hexec hworks with hworks | hlive
        · exact hs hbefore t ht hworks
        · exact hlive hbefore
    · cases heq
      rcases save_cases hrun ht hrest with ⟨hworks, hstatus⟩ | ⟨hnone, hstatus⟩
      · -- An exec stores another status, which it only does to a live sandbox.
        refine ⟨fun hdestroyed => ?_, fun hdestroyed => absurd hworks (hs hdestroyed t ht)⟩
        exact absurd (Option.some.inj (hstored.symm.trans hdestroyed)) hstatus
      · -- The sandbox is destroyed while nobody works on it.
        refine ⟨fun _ u hu => ?_, fun _ => hstored.trans (congrArg some hstatus)⟩
        rcases List.mem_or_eq_of_mem_set hu with hu | rfl
        · exact hguard i sandbox rfl hstatus u hu
        · exact fun hworks => hnone id hworks.1

theorem settled_of_run (hrun : Run (Guarded Step (DestroysIdle id)) (Pool.idle w) events s) :
    Settled id s := by
  induction hrun with
  | nil => exact fun _ t ht => absurd ht List.not_mem_nil
  | snoc hprev hlast ih => exact (ih.step hprev.of_guarded hlast.1 hlast.2).1

/-- In every run in which a sandbox is only stored as destroyed while no exec on it is
between its reading of the row and its last storing: once the sandbox is destroyed it
stays so, and no exec on it is about to send its request. -/
theorem destroyed_final (id : String) (w : World) (before after : List Event) (s t : System)
    (hrun : Run (Guarded Step (DestroysIdle id)) (Pool.idle w) before s)
    (hdestroyed : s.world.status id = some .destroyed)
    (hrest : Run (Guarded Step (DestroysIdle id)) s after t) :
    t.world.status id = some .destroyed ∧
      ∀ thread ∈ t.threads, thread.tag.Execs id → ∀ url request next,
        thread.rest ≠ .call (.send url request) next := by
  have hfinal : t.world.status id = some .destroyed := by
    induction hrest with
    | nil => exact hdestroyed
    | snoc hprev hlast ih =>
      have hwhole := hrun.append hprev
      exact ((settled_of_run hwhole).step hwhole.of_guarded hlast.1 hlast.2).2 ih
  have hwhole := hrun.append hrest
  refine ⟨hfinal, fun thread hthread hexecs url request next hsend => ?_⟩
  refine settled_of_run hwhole hfinal thread hthread ⟨hexecs, ?_⟩
  -- A call that is about to send works on the sandbox.
  rcases call_cases hwhole.of_guarded hthread hsend with ⟨_, -, lock, hphase⟩ | ⟨-, hclears⟩
  · rw [hphase]
    trivial
  · exact hclears.elim

end Runs

/-! ## A destruction during an exec -/

def oneSandbox : World where
  sandboxes := (∅ : FinMap String Sandbox).set "sb" idleSandbox
  execs := ∅
  busyLocks := (∅ : FinMap String Mutex).set "sb" 0
  held := []
  nextLock := 1

def destroyedIdle : List Event × System :=
  carryOut (Pool.idle oneSandbox) [.spawn (.destroy "sb"), .run 0, .run 0]

def execAfter : List Event × System :=
  carryOut destroyedIdle.2 [.spawn (.exec "sb" "1" "" 0), .run 1]

theorem destroyed_final_idle :
    execAfter.2.world.status "sb" = some .destroyed ∧
      ∀ thread ∈ execAfter.2.threads, thread.tag.Execs "sb" → ∀ url request next,
        thread.rest ≠ .call (.send url request) next := by
  have hbefore : Run (Guarded Step (DestroysIdle "sb")) (Pool.idle oneSandbox) _ _ :=
    .snoc (.snoc (.snoc .nil
      ⟨step_answering (c := .spawn (.destroy "sb")) rfl, fun _ _ h => by cases h⟩)
      ⟨step_answering (c := .run 0) rfl, fun _ _ h => by cases h⟩)
      ⟨step_answering (c := .run 0) rfl, fun _ _ _ _ t ht hworks => by
        obtain rfl := List.mem_singleton.mp ht
        exact hworks.1⟩
  have hafter : Run (Guarded Step (DestroysIdle "sb")) destroyedIdle.2 _ _ := .snoc (.snoc .nil
      ⟨step_answering (c := .spawn (.exec "sb" "1" "" 0)) rfl, fun _ _ h => by cases h⟩)
      ⟨step_answering (c := .run 1) rfl, fun _ _ h => by cases h⟩
  exact destroyed_final "sb" oneSandbox _ _ destroyedIdle.2 execAfter.2 hbefore rfl hafter

def destroyedBusy : List Event × System :=
  carryOut (Pool.idle oneSandbox)
    [.spawn (.exec "sb" "1" "" 0), .run 0, .spawn (.destroy "sb"), .run 1, .run 1]

def revived : List Event × System :=
  carryOut destroyedBusy.2 [.run 0, .run 0, .run 0, .run 0, .run 0, .run 0, .run 0, .run 0]

/-- A sandbox that is destroyed after an exec has read its row: the exec stores its
copy, sends its request to the VM and leaves the sandbox ready. -/
theorem destroyed_revived :
    Run Step (Pool.idle oneSandbox) destroyedBusy.1 destroyedBusy.2 ∧
      destroyedBusy.2.world.status "sb" = some .destroyed ∧
      Run Step destroyedBusy.2 revived.1 revived.2 ∧
      (∃ request, .call 0 (.send (daemonURL "10.0.0.2") request) () ∈ revived.1) ∧
      revived.2.world.status "sb" = some .ready := by
  refine ⟨run_carryOut _ _, rfl, run_carryOut _ _, ⟨⟨"exec-1", "1", "python3", 30⟩, ?_⟩, rfl⟩
  -- The request is the sixth call.
  exact List.mem_of_getElem? (i := 5) rfl

end Sandboxes
end Skyscale
