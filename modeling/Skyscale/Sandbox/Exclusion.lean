import Skyscale.Sandbox.Manager

/-!
# One exec at a time

The execs of a sandbox are serialized by a mutex in the table `busyLocks`.  A call
looks the mutex up and, when there is none, creates one and lists it without looking
again.  While the table has a mutex for the sandbox, all its execs try that one, and
at most one request is in flight (`Serialized`).  When it has none, as after a
restart, two calls may each create their own (`two_in_flight`).  Together:
`exec_exclusive_iff`.
-/

namespace Skyscale
namespace Sandboxes

open Lib

/-- The request of the thread to the daemon is in flight. -/
def InFlight (t : Thread Request Op Ans Reply) : Prop :=
  ∃ url next, t.rest = .call (.receive url) next

/-- Only execs on the sandbox are started. -/
def StartsExec (id : String) (_ : System) (event : Event) : Prop :=
  ∀ request, event = .spawn request → request.Execs id

/-- At most one request is in flight, and while one is, a call that tries to enter is
rejected as busy. -/
structure Exclusive (id : String) (s : System) : Prop where
  single : Pool.AtMostOne InFlight s.threads
  rejects : ∀ (i j : Nat) (t : Thread Request Op Ans Reply) (lock : Mutex)
    (free : Ans (.tryLock lock)) (s' : System), s.threads[i]? = some t → InFlight t →
    Step s (.call j (.tryLock lock) free) s' →
    ∃ u, s'.threads[j]? = some u ∧ u.rest = .ret (.exec (.error (busyError id)))

/-! ## The mutex of the sandbox -/

/-- The call holds a mutex. -/
def Phase.Holds : Phase → Prop
  | .locked _ | .marked _ | .sent _ | .answered _ | .restored _ => True
  | .start | .live | .unlisted | .chosen _ | .over => False

/-- The call uses no other mutex than the given one, and creates none. -/
def Phase.Uses (lock : Mutex) : Phase → Prop
  | .start | .live | .over => True
  | .unlisted => False
  | .chosen l | .locked l | .marked l | .sent l | .answered l | .restored l => l = lock

/-- All calls are execs on the sandbox that use its listed mutex, and at most one of
them holds it. -/
structure Serialized (id : String) (lock : Mutex) (s : System) : Prop where
  listed : s.world.busyLocks.get id = some lock
  execs : ∀ t ∈ s.threads, t.tag.Execs id
  uses : ∀ t ∈ s.threads, (phase t).Uses lock
  held : ∀ t ∈ s.threads, (phase t).Holds → lock ∈ s.world.held
  single : Pool.AtMostOne (fun t => (phase t).Holds) s.threads

section Calls

variable {id : String} {lock : Mutex} {w w' : World} {op : Op} {ans : Ans op} {phase : Phase}

theorem Phase.Uses.next (h : phase.Uses lock) (hadmits : Phase.Admits id op phase)
    (hexec : Exec w op ans w') (hlisted : w.busyLocks.get id = some lock) :
    (phase.next op ans).Uses lock ∧ w'.busyLocks.get id = some lock := by
  cases hexec with
  | @getSandbox _ sandbox _ =>
    obtain ⟨-, rfl⟩ := hadmits
    refine ⟨?_, hlisted⟩
    simp only [Phase.next]
    split <;> trivial
  | getFailed =>
    obtain ⟨-, rfl⟩ := hadmits
    exact ⟨trivial, hlisted⟩
  | saveSandbox | saveFailed =>
    obtain ⟨-, l, ⟨-, rfl⟩ | ⟨-, rfl⟩⟩ := hadmits <;> exact ⟨h, hlisted⟩
  | lookupLock =>
    obtain ⟨rfl, rfl⟩ := hadmits
    rw [hlisted]
    exact ⟨rfl, rfl⟩
  | createLock =>
    obtain ⟨-, rfl⟩ := hadmits
    exact h.elim
  | lock | contended | unlock =>
    obtain rfl := hadmits
    first
      | exact ⟨h, hlisted⟩
      | exact ⟨trivial, hlisted⟩
  | send | receive | newUUID | now | saveExec | saveExecFailed =>
    obtain ⟨l, rfl⟩ := hadmits
    exact ⟨h, hlisted⟩
  | listExpired | listFailed | deleteLock | terminateVM => exact hadmits.elim

/-- What a call does to the mutex: a call that enters finds it free, a call that is
inside keeps it, and only a call that was inside releases it. -/
theorem Phase.Uses.holds (h : phase.Uses lock) (hadmits : Phase.Admits id op phase)
    (hexec : Exec w op ans w') (hheld : phase.Holds → lock ∈ w.held) :
    ((phase.next op ans).Holds → phase.Holds ∨ lock ∉ w.held) ∧
      ((phase.next op ans).Holds → lock ∈ w'.held) ∧
      (lock ∈ w.held → lock ∈ w'.held ∨ phase.Holds) := by
  cases hexec with
  | @getSandbox id' sandbox _ =>
    obtain ⟨-, rfl⟩ := hadmits
    have hnot : ¬(Phase.next .start (.getSandbox id') (.ok sandbox)).Holds := by
      simp only [Phase.next]
      split <;> exact fun hholds => hholds
    exact ⟨fun hholds => absurd hholds hnot, fun hholds => absurd hholds hnot, .inl⟩
  | getFailed =>
    obtain ⟨-, rfl⟩ := hadmits
    exact ⟨False.elim, False.elim, .inl⟩
  | saveSandbox | saveFailed =>
    obtain ⟨-, l, ⟨-, rfl⟩ | ⟨-, rfl⟩⟩ := hadmits <;>
      exact ⟨fun _ => .inl trivial, fun _ => hheld trivial, .inl⟩
  | lookupLock =>
    obtain ⟨-, rfl⟩ := hadmits
    cases w.busyLocks.get _ <;> exact ⟨False.elim, False.elim, .inl⟩
  | createLock =>
    obtain ⟨-, rfl⟩ := hadmits
    exact h.elim
  | lock hfree =>
    obtain rfl := hadmits
    obtain rfl : _ = lock := h
    exact ⟨fun _ => .inr hfree, fun _ => List.mem_cons_self, fun _ => .inl List.mem_cons_self⟩
  | contended =>
    obtain rfl := hadmits
    exact ⟨False.elim, False.elim, .inl⟩
  | unlock =>
    obtain rfl := hadmits
    exact ⟨False.elim, False.elim, fun _ => .inr trivial⟩
  | send | receive | newUUID | now | saveExec | saveExecFailed =>
    obtain ⟨l, rfl⟩ := hadmits
    exact ⟨fun _ => .inl trivial, fun _ => hheld trivial, .inl⟩
  | listExpired | listFailed | deleteLock | terminateVM => exact hadmits.elim

end Calls

section Runs

variable {id : String} {lock : Mutex} {w : World} {events : List Event} {s s' : System}

theorem serialized_idle (hlisted : w.busyLocks.get id = some lock) :
    Serialized id lock (Pool.idle w) where
  listed := hlisted
  execs _ ht := absurd ht List.not_mem_nil
  uses _ ht := absurd ht List.not_mem_nil
  held _ ht := absurd ht List.not_mem_nil
  single := .of_none fun _ ht => absurd ht List.not_mem_nil

theorem Serialized.step {event : Event} (h : Serialized id lock s)
    (hrun : Run Step (Pool.idle w) events s) (hstep : Step s event s')
    (hguard : StartsExec id s event) : Serialized id lock s' := by
  cases hstep with
  | spawn request =>
    have hnew : ∀ (P : Thread Request Op Ans Reply → Prop), (∀ t ∈ s.threads, P t) →
        P ⟨request, [], program request⟩ →
        ∀ t ∈ s.threads ++ [⟨request, [], program request⟩], P t := by
      intro P hold hlast t ht
      rcases List.mem_append.mp ht with ht | ht
      · exact hold t ht
      · obtain rfl := List.mem_singleton.mp ht
        exact hlast
    exact ⟨h.listed, hnew _ h.execs (hguard request rfl), hnew _ h.uses trivial,
      hnew _ h.held False.elim, h.single.concat fun hholds => hholds⟩
  | @call i t op next ans w' hi hrest hexec =>
    have ht := List.mem_of_getElem? hi
    have hadmits : Phase.Admits id op (phase t) := by
      rcases call_cases hrun ht hrest with ⟨sandboxID, hexecs, hadmits⟩ | ⟨hnone, -⟩
      · obtain rfl := hexecs.unique (h.execs t ht)
        exact hadmits
      · exact absurd (h.execs t ht) (hnone id)
    obtain ⟨huses, hlisted⟩ := (h.uses t ht).next hadmits hexec h.listed
    obtain ⟨hentered, hinside, hreleased⟩ := (h.uses t ht).holds hadmits hexec (h.held t ht)
    rw [← phase_snoc t op ans (next ans)] at huses hentered hinside
    refine ⟨hlisted, fun u hu => ?_, fun u hu => ?_, fun u hu hholds => ?_, h.single.set hi ?_⟩
    · rcases List.mem_or_eq_of_mem_set hu with hu | rfl
      · exact h.execs u hu
      · exact h.execs t ht
    · rcases List.mem_or_eq_of_mem_set hu with hu | rfl
      · exact h.uses u hu
      · exact huses
    · obtain ⟨j, hj⟩ := List.getElem?_of_mem hu
      by_cases hij : i = j
      · subst hij
        rw [List.getElem?_set_self (List.getElem?_eq_some_iff.mp hi).1] at hj
        obtain rfl := Option.some.inj hj
        exact hinside hholds
      · -- Another call that holds the mutex keeps it: the one that moves is outside.
        rw [List.getElem?_set_ne hij] at hj
        rcases hreleased (h.held u (List.mem_of_getElem? hj) hholds) with hkept | hmoving
        · exact hkept
        · exact absurd (h.single i j t u hi hj hmoving hholds) hij
    · intro hholds
      refine (hentered hholds).imp_right fun hfree u hu hu' => ?_
      exact hfree (h.held u hu hu')

theorem serialized_of_run (hlisted : w.busyLocks.get id = some lock)
    (hrun : Run (Guarded Step (StartsExec id)) (Pool.idle w) events s) :
    Serialized id lock s := by
  induction hrun with
  | nil => exact serialized_idle hlisted
  | snoc hprev hlast ih => exact ih.step hprev.of_guarded hlast.1 hlast.2

theorem InFlight.holds {t : Thread Request Op Ans Reply}
    (hrun : Run Step (Pool.idle w) events s) (ht : t ∈ s.threads) (h : InFlight t) :
    (phase t).Holds := by
  obtain ⟨url, next, hrest⟩ := h
  rcases call_cases hrun ht hrest with ⟨_, -, l, hphase⟩ | ⟨-, hclears⟩
  · rw [hphase]
    trivial
  · exact hclears.elim

/-- What follows an attempt to lock that fails. -/
def Refuses (id : String) : (op : Op) → (Ans op → Program Reply) → Prop
  | .tryLock _, next => next false = .ret (.exec (.error (busyError id)))
  | .getSandbox _, _ | .saveSandbox .., _ | .listExpiredSandboxes, _ | .saveSandboxExec .., _
  | .lookupLock _, _ | .createLock _, _ | .deleteLock _, _ | .unlock _, _ | .send .., _
  | .receive _, _ | .terminateVM _, _ | .newUUID, _ | .now, _ => True

theorem obeys_execLocked (code language : String) (timeoutSeconds : Int) (sandbox : Sandbox) :
    Only (fun op => ∀ l, op ≠ .tryLock l)
      (execLocked id code language timeoutSeconds sandbox) := by
  unfold execLocked
  refine Obeys.call (fun l h => by cases h) fun now => ?_
  refine Obeys.call (fun l h => by cases h) fun _ => ?_
  refine Obeys.call (fun l h => by cases h) fun execID => ?_
  refine Obeys.call (fun l h => by cases h) fun _ => ?_
  refine Obeys.call (fun l h => by cases h) fun answer => ?_
  refine Obeys.call (fun l h => by cases h) fun _ => ?_
  rcases answer with message | body
  · exact Obeys.pure _
  · cases body with
    | unreadable | malformed => exact Obeys.pure _
    | result value => exact Obeys.call (fun l h => by cases h) fun _ => Obeys.pure _

theorem calls_execTry (code language : String) (timeoutSeconds : Int) (sandbox : Sandbox)
    (lock : Mutex) :
    (execTry id code language timeoutSeconds sandbox lock >>= fun result =>
      pure (Reply.exec result)).Calls (fun _ _ => True) (Refuses id) := by
  refine ⟨rfl, fun free _ => ?_⟩
  cases free with
  | false => trivial
  | true =>
    have hobeys : Only (fun op => ∀ l, op ≠ .tryLock l) ((do
          let result ← execLocked id code language timeoutSeconds sandbox
          call (.unlock lock)
          pure result : Program (Except String ExecResult)) >>= fun result =>
            pure (Reply.exec result)) := by
      refine Obeys.bind (Obeys.bind (obeys_execLocked ..) fun _ => ?_) fun _ => Obeys.pure _
      exact Obeys.call (fun l h => by cases h) fun _ => Obeys.pure _
    refine Obeys.calls (fun op next hop => ?_) hobeys
    cases op with
    | tryLock l => exact absurd rfl (hop l)
    | _ => trivial

theorem calls_exec (code language : String) (timeoutSeconds : Int) :
    (program (.exec id code language timeoutSeconds)).Calls (fun _ _ => True) (Refuses id) := by
  refine ⟨trivial, fun found _ => ?_⟩
  rcases found with message | sandbox
  · trivial
  show (execFound id code language timeoutSeconds sandbox >>= _).Calls _ _
  unfold execFound
  split
  · trivial
  refine ⟨trivial, fun found _ => ?_⟩
  cases found with
  | none => exact ⟨trivial, fun l _ => calls_execTry code language timeoutSeconds sandbox l⟩
  | some l => exact calls_execTry code language timeoutSeconds sandbox l

theorem refused_of_run (hrun : Run Step (Pool.idle w) events s) {t : Thread Request Op Ans Reply}
    (ht : t ∈ s.threads) (hexecs : t.tag.Execs id) {next : Ans (.tryLock lock) → Program Reply}
    (hrest : t.rest = .call (.tryLock lock) next) :
    next false = .ret (.exec (.error (busyError id))) := by
  have hresidual := Pool.residual_of_run hrun t ht
  rw [hrest] at hresidual
  cases htag : t.tag with
  | exec sandboxID code language timeoutSeconds =>
    rw [htag] at hresidual hexecs
    obtain rfl : sandboxID = id := hexecs
    exact (hresidual.calls (calls_exec code language timeoutSeconds) fun _ _ => trivial).1
  | destroy | sweep => exact absurd hexecs (by rw [htag]; exact fun h => h)

theorem Serialized.exclusive (h : Serialized id lock s) (hrun : Run Step (Pool.idle w) events s) :
    Exclusive id s where
  single i j t u hi hj ht hu :=
    h.single i j t u hi hj (ht.holds hrun (List.mem_of_getElem? hi))
      (hu.holds hrun (List.mem_of_getElem? hj))
  rejects i j t l free s' hi hflight hstep := by
    have hheld : lock ∈ s.world.held :=
      h.held t (List.mem_of_getElem? hi) (hflight.holds hrun (List.mem_of_getElem? hi))
    cases hstep with
    | @call _ u _ next _ _ hj hrest hexec =>
      have hu := List.mem_of_getElem? hj
      refine ⟨_, List.getElem?_set_self (List.getElem?_eq_some_iff.mp hj).1, ?_⟩
      -- The mutex that is tried is the one that is held.
      have hlock : l = lock := by
        rcases call_cases hrun hu hrest with ⟨_, -, hphase⟩ | ⟨-, hclears⟩
        · have huses := h.uses u hu
          rw [show phase u = .chosen l from hphase] at huses
          exact huses
        · exact hclears.elim
      subst hlock
      cases hexec with
      | lock hfree => exact absurd hheld hfree
      | contended => exact refused_of_run hrun hu (h.execs u hu) hrest

end Runs

/-! ## Two mutexes for one sandbox -/

/-- Runs of execs on one sandbox. -/
abbrev ExecRun (id : String) : System → List Event → System → Prop :=
  Run (Guarded Step (StartsExec id))

section Unlisted

variable {id : String} {sandbox : Sandbox} {w : World} {s : System}

variable {threads : List (Thread Request Op Ans Reply)}

theorem execRun_call {s0 : System} {events : List Event} {i : Nat} {t : Thread Request Op Ans Reply}
    {op : Op} {next : Ans op → Program Reply} {ans : Ans op} {w' : World}
    (hrun : ExecRun id s0 events ⟨w, threads.set i t⟩) (hi : i < threads.length)
    (hrest : t.rest = .call op next) (hexec : Exec w op ans w') :
    ExecRun id s0 (events ++ [.call i op ans])
      ⟨w', threads.set i ⟨t.tag, t.past ++ [⟨op, ans⟩], next ans⟩⟩ := by
  have hstep : Step ⟨w, threads.set i t⟩ (.call i op ans) _ :=
    .call (List.getElem?_set_self hi) hrest hexec
  rw [List.set_set] at hstep
  exact .snoc hrun ⟨hstep, fun _ h => by cases h⟩

/-- The world after a mutex was created. -/
def created (id : String) (w : World) : World :=
  { w with busyLocks := w.busyLocks.set id w.nextLock, nextLock := w.nextLock + 1 }

/-- The rest of an exec that tries a mutex. -/
def execTrying (id : String) (sandbox : Sandbox) (lock : Mutex) : Program Reply := do
  let result ← execTry id "1" "" 0 sandbox lock
  pure (.exec result)

/-- The rest of an exec that found no mutex. -/
def execUnlisted (id : String) (sandbox : Sandbox) : Program Reply := do
  let lock ← call (.createLock id)
  execTrying id sandbox lock

theorem execFound_live (hlive : sandbox.status ≠ .destroyed) :
    ((execFound id "1" "" 0 sandbox).bind fun result => pure (Reply.exec result)) =
      .call (.lookupLock id) fun found : Option Mutex =>
        found.elim (execUnlisted id sandbox) (execTrying id sandbox) := by
  unfold execFound
  rw [if_neg hlive]
  show Prog.call _ _ = _
  congr 1
  funext found
  cases found <;> rfl

/-- A new exec on a live sandbox without mutex comes to the point where it will create
one, and has changed nothing. -/
theorem exists_unlisted (hrow : w.sandboxes.get id = some sandbox)
    (hlive : sandbox.status ≠ .destroyed) (hnone : w.busyLocks.get id = none)
    (threads : List (Thread Request Op Ans Reply)) :
    ∃ events t, ExecRun id ⟨w, threads⟩ events ⟨w, threads ++ [t]⟩ ∧
      t.rest = execUnlisted id sandbox := by
  have hlookup : Exec w (.lookupLock id) (none : Option Mutex) w := by
    have hexec := Exec.lookupLock (w := w) id
    rwa [hnone] at hexec
  have hlast : ∀ t u : Thread Request Op Ans Reply,
      threads ++ [u] = (threads ++ [t]).set threads.length u := by
    intro t u
    rw [List.set_append_right _ _ le_rfl]
    simp
  let started : Thread Request Op Ans Reply :=
    ⟨.exec id "1" "" 0, [], program (.exec id "1" "" 0)⟩
  have hlength : threads.length < (threads ++ [started]).length := by simp
  have hspawn : ExecRun id ⟨w, threads⟩ ([] ++ [.spawn (.exec id "1" "" 0)])
      ⟨w, threads ++ [started]⟩ :=
    .snoc .nil ⟨.spawn (Request.exec id "1" "" 0), fun request h => by cases h; rfl⟩
  rw [hlast started started] at hspawn
  have hget := execRun_call hspawn hlength rfl (.getSandbox hrow)
  have hfound := execRun_call hget hlength (execFound_live hlive) hlookup
  rw [← hlast started] at hfound
  exact ⟨_, _, hfound, rfl⟩

theorem exists_inFlight {i : Nat} {t : Thread Request Op Ans Reply} {lock : Mutex}
    (hi : i < threads.length) (hrest : t.rest = execTrying id sandbox lock)
    (hfree : lock ∉ w.held) :
    ∃ events w' u, ExecRun id ⟨w, threads.set i t⟩ events ⟨w', threads.set i u⟩ ∧ InFlight u ∧
      w'.held = lock :: w.held := by
  have hstart : ExecRun id ⟨w, threads.set i t⟩ [] ⟨w, threads.set i t⟩ := .nil
  have hlock := execRun_call hstart hi hrest (.lock hfree)
  have hnow := execRun_call hlock hi rfl (.now 0)
  have hsave := execRun_call hnow hi rfl (.saveSandbox _ _)
  have huuid := execRun_call hsave hi rfl (.newUUID "exec-1")
  have hsend := execRun_call huuid hi rfl (.send _ _)
  exact ⟨_, _, _, hsend, ⟨_, _, rfl⟩, rfl⟩

/-- Without a mutex in the table, two execs each create one and both send their
request. -/
theorem exists_two_inFlight (hrow : w.sandboxes.get id = some sandbox)
    (hlive : sandbox.status ≠ .destroyed) (hnone : w.busyLocks.get id = none)
    (hheld : w.held = []) :
    ∃ events s, ExecRun id (Pool.idle w) events s ∧ ¬Pool.AtMostOne InFlight s.threads := by
  obtain ⟨events1, t, hrun1, ht⟩ := exists_unlisted hrow hlive hnone []
  obtain ⟨events2, u, hrun2, hu⟩ := exists_unlisted hrow hlive hnone [t]
  have hrun : ExecRun id ⟨w, []⟩ _ ⟨w, [t, u].set 0 t⟩ := hrun1.append hrun2
  -- Both lookups are over: now each call creates a mutex of its own.
  obtain ⟨events3, t1, ht1, hrun3⟩ : ∃ events t1, t1.rest = execTrying id sandbox w.nextLock ∧
      ExecRun id ⟨w, []⟩ events ⟨created id w, [t1, u].set 1 u⟩ :=
    ⟨_, _, rfl, execRun_call hrun (by simp) ht (.createLock id)⟩
  obtain ⟨events4, u1, hu1, hrun4⟩ : ∃ events u1, u1.rest = execTrying id sandbox (w.nextLock + 1) ∧
        ExecRun id ⟨w, []⟩ events ⟨created id (created id w), [t1, u1].set 0 t1⟩ :=
    ⟨_, _, rfl, execRun_call hrun3 (by simp) hu (.createLock id)⟩
  have hfree1 : w.nextLock ∉ (created id (created id w)).held := by
    show w.nextLock ∉ w.held
    rw [hheld]
    exact List.not_mem_nil
  obtain ⟨events5, w1, t2, hrun5, ht2, hheld1⟩ : ∃ events w1 t2,
      ExecRun id ⟨created id (created id w), [t1, u1].set 0 t1⟩ events ⟨w1, [t1, u1].set 0 t2⟩ ∧
        InFlight t2 ∧ w1.held = w.nextLock :: w.held :=
    exists_inFlight (by simp) ht1 hfree1
  have hfree2 : w.nextLock + 1 ∉ w1.held := by
    rw [hheld1, hheld]
    simp
  have hrun6 : ExecRun id ⟨w, []⟩ _ ⟨w1, [t2, u1].set 1 u1⟩ := hrun4.append hrun5
  obtain ⟨events7, w2, u2, hrun7, hu2, -⟩ : ∃ events w2 u2,
      ExecRun id ⟨w1, [t2, u1].set 1 u1⟩ events ⟨w2, [t2, u1].set 1 u2⟩ ∧
        InFlight u2 ∧ w2.held = (w.nextLock + 1) :: w1.held :=
    exists_inFlight (by simp) hu1 hfree2
  refine ⟨_, ⟨w2, [t2, u2]⟩, hrun6.append hrun7, fun hsingle => ?_⟩
  exact absurd (hsingle 0 1 t2 u2 rfl rfl ht2 hu2) (by simp)

end Unlisted

/-- For a live sandbox and a manager on which no call runs: at most one request of the
execs on the sandbox is ever in flight, and overlapping calls are rejected as busy,
exactly when the lock table has a mutex for the sandbox. -/
theorem exec_exclusive_iff (id : String) (w : World) (sandbox : Sandbox)
    (hrow : w.sandboxes.get id = some sandbox) (hlive : sandbox.status ≠ .destroyed)
    (hheld : w.held = []) :
    (∀ events s, Run (Guarded Step (StartsExec id)) (Pool.idle w) events s → Exclusive id s) ↔
      ∃ lock, w.busyLocks.get id = some lock := by
  constructor
  · intro h
    cases hlisted : w.busyLocks.get id with
    | some lock => exact ⟨lock, rfl⟩
    | none =>
      obtain ⟨events, s, hrun, htwo⟩ := exists_two_inFlight hrow hlive hlisted hheld
      exact absurd (h events s hrun).single htwo
  · rintro ⟨lock, hlisted⟩ events s hrun
    exact (serialized_of_run hlisted hrun).exclusive hrun.of_guarded

def restarted : World where
  sandboxes := (∅ : FinMap String Sandbox).set "sb" idleSandbox
  execs := ∅
  busyLocks := ∅
  held := []
  nextLock := 0

theorem exec_exclusive_iff_restarted :
    ¬∀ events s, Run (Guarded Step (StartsExec "sb")) (Pool.idle restarted) events s →
      Exclusive "sb" s := by
  rw [exec_exclusive_iff "sb" restarted idleSandbox rfl (by decide) rfl]
  rintro ⟨lock, hlock⟩
  cases hlock

def overlapping : List Event × System :=
  carryOut (Pool.idle restarted)
    [.spawn (.exec "sb" "1" "" 0), .spawn (.exec "sb" "2" "" 0), .run 0, .run 0, .run 1, .run 1,
      .run 0, .run 1, .run 0, .run 0, .run 0, .run 0, .run 0, .run 1, .run 1, .run 1, .run 1,
      .run 1]

/-- After a restart two requests for one sandbox are in flight. -/
theorem two_in_flight :
    Run Step (Pool.idle restarted) overlapping.1 overlapping.2 ∧
      overlapping.2.threads.map Thread.tag = [.exec "sb" "1" "" 0, .exec "sb" "2" "" 0] ∧
      ∃ t u, overlapping.2.threads[0]? = some t ∧ overlapping.2.threads[1]? = some u ∧
        InFlight t ∧ InFlight u :=
  ⟨run_carryOut _ _, rfl, _, _, rfl, rfl, ⟨_, _, rfl⟩, ⟨_, _, rfl⟩⟩

end Sandboxes
end Skyscale
