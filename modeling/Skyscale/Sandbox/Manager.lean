import Skyscale.Lib.FinMap
import Skyscale.Lib.Program

/-!
# The sandbox manager

This module embeds `ExecInSandbox`, `DestroySandbox` and one pass of `gcSweep` of
`control-plane/sandbox/sandbox.go`, at the granularity of their single calls: to the
state store, to the lock table, to a mutex, to the daemon in the sandbox, to the VM
provider and to the clock.

* Rows of the state store stand under their primary key, so `Sandbox` does not
  repeat the key.  `CreatedAt` and `Metadata` are copied along unread and are left
  out, and so are the times of an exec record.
* `busyLocks` maps a sandbox to a mutex.  A mutex is a number; `&sync.Mutex{}` is the
  next one that was never used, and the table may forget a mutex that is still held.
  What the manager does under its own lock `m.mu` is a single call here.
* A request to the daemon is sent in one call and answered in another; in between it
  is in flight.

Every call to the store, to the daemon and to the provider may fail.
-/

namespace Skyscale
namespace Sandboxes

open Lib

/-! ## Data model -/

/-- `state.Sandbox.Status`. -/
inductive Status
  | starting
  | ready
  | busy
  | destroyed
deriving DecidableEq

/-- A row of the table of sandboxes. -/
structure Sandbox where
  vmID : String
  vmIP : String
  status : Status
  runtime : String
  lastUsedAt : Int
  expiresAt : Int
deriving DecidableEq

/-- What the daemon is asked to do. -/
structure ExecRequest where
  execID : String
  code : String
  language : String
  timeout : Int

/-- What the daemon answers. -/
structure ExecResult where
  execID : String
  stdout : String
  stderr : String
  exitCode : Int
  durationMs : Int

/-- `SandboxExec.Status`, as far as the manager writes it. -/
inductive ExecStatus
  | done
  | error
deriving DecidableEq

/-- A row of the table of executions. -/
structure SandboxExec where
  sandboxID : String
  language : String
  status : ExecStatus
  stdout : String
  stderr : String
  exitCode : Int
  durationMs : Int

/-- The body of a response: it cannot be read, is not JSON, or is a result. -/
inductive Body
  | unreadable (message : String)
  | malformed (message : String)
  | result (value : ExecResult)

/-- A mutex. -/
abbrev Mutex := Nat

/-! ## Calls -/

/-- The single calls of the manager. -/
inductive Op
  | getSandbox (id : String)
  | saveSandbox (id : String) (sandbox : Sandbox)
  | listExpiredSandboxes
  | saveSandboxExec (id : String) (record : SandboxExec)
  | lookupLock (id : String)
  | createLock (id : String)
  | deleteLock (id : String)
  | tryLock (lock : Mutex)
  | unlock (lock : Mutex)
  | send (url : String) (request : ExecRequest)
  | receive (url : String)
  | terminateVM (id : String)
  | newUUID
  | now

/-- The answers to the calls. -/
def Ans : Op → Type
  | .getSandbox _ => Except String Sandbox
  | .saveSandbox .. => Except String Unit
  | .listExpiredSandboxes => Except String (List String)
  | .saveSandboxExec .. => Except String Unit
  | .lookupLock _ => Option Mutex
  | .createLock _ => Mutex
  | .deleteLock _ => Unit
  | .tryLock _ => Bool
  | .unlock _ => Unit
  | .send .. => Unit
  | .receive _ => Except String Body
  | .terminateVM _ => Except String Unit
  | .newUUID => String
  | .now => Int

/-- Programs over these calls. -/
abbrev Program (α : Type) : Type := Prog Op Ans α

/-- The program of a single call. -/
abbrev call (op : Op) : Program (Ans op) := Prog.perform op

/-- The state store and the lock table with its mutexes. -/
structure World where
  sandboxes : FinMap String Sandbox
  execs : FinMap String SandboxExec
  busyLocks : FinMap String Mutex
  held : List Mutex
  /-- The first mutex that was never used. -/
  nextLock : Mutex

/-- What a call may answer, and what it changes. -/
inductive Exec (w : World) : (op : Op) → Ans op → World → Prop
  | getSandbox {id : String} {sandbox : Sandbox} :
      w.sandboxes.get id = some sandbox → Exec w (.getSandbox id) (.ok sandbox) w
  | getFailed (id message : String) : Exec w (.getSandbox id) (.error message) w
  | saveSandbox (id : String) (sandbox : Sandbox) :
      Exec w (.saveSandbox id sandbox) (.ok ())
        { w with sandboxes := w.sandboxes.set id sandbox }
  | saveFailed (id : String) (sandbox : Sandbox) (message : String) :
      Exec w (.saveSandbox id sandbox) (.error message) w
  | listExpired (now : Int) {ids : List String} :
      (∀ id ∈ ids, ∃ sandbox, w.sandboxes.get id = some sandbox ∧ sandbox.expiresAt < now ∧
        sandbox.status ≠ .destroyed) →
      Exec w .listExpiredSandboxes (.ok ids) w
  | listFailed (message : String) : Exec w .listExpiredSandboxes (.error message) w
  | saveExec (id : String) (record : SandboxExec) :
      Exec w (.saveSandboxExec id record) (.ok ()) { w with execs := w.execs.set id record }
  | saveExecFailed (id : String) (record : SandboxExec) (message : String) :
      Exec w (.saveSandboxExec id record) (.error message) w
  | lookupLock (id : String) : Exec w (.lookupLock id) (w.busyLocks.get id) w
  | createLock (id : String) :
      Exec w (.createLock id) w.nextLock
        { w with busyLocks := w.busyLocks.set id w.nextLock, nextLock := w.nextLock + 1 }
  | deleteLock (id : String) :
      Exec w (.deleteLock id) () { w with busyLocks := w.busyLocks.del id }
  | lock {l : Mutex} : l ∉ w.held → Exec w (.tryLock l) true { w with held := l :: w.held }
  | contended {l : Mutex} : l ∈ w.held → Exec w (.tryLock l) false w
  | unlock (l : Mutex) : Exec w (.unlock l) () { w with held := w.held.erase l }
  | send (url : String) (request : ExecRequest) : Exec w (.send url request) () w
  | receive (url : String) (answer : Except String Body) : Exec w (.receive url) answer w
  | terminateVM (id : String) (answer : Except String Unit) : Exec w (.terminateVM id) answer w
  | newUUID (id : String) : Exec w .newUUID id w
  | now (time : Int) : Exec w .now time w

/-! ## The manager -/

/-- The address of the daemon in a VM. -/
def daemonURL (vmIP : String) : String := "http://" ++ vmIP ++ ":" ++ "8081" ++ "/sandbox/exec"

/-- `ExecInSandbox` while it holds the lock of the sandbox; `sandbox` is its copy of
the row. -/
def execLocked (sandboxID code language : String) (timeoutSeconds : Int) (sandbox : Sandbox) :
    Program (Except String ExecResult) := do
  let now ← call .now
  let sandbox := { sandbox with status := .busy, lastUsedAt := now }
  let _ ← call (.saveSandbox sandboxID sandbox)
  let language := if language = "" then sandbox.runtime else language
  let timeoutSeconds := if timeoutSeconds ≤ 0 then 30 else timeoutSeconds
  let execID ← call .newUUID
  let url := daemonURL sandbox.vmIP
  call (.send url ⟨execID, code, language, timeoutSeconds⟩)
  let answer ← call (.receive url)
  -- The status is restored whatever the daemon answered.
  let _ ← call (.saveSandbox sandboxID { sandbox with status := .ready })
  match answer with
  | .error message => pure (.error ("failed to call daemon exec: " ++ message))
  | .ok (.unreadable message) => pure (.error ("failed to read exec response: " ++ message))
  | .ok (.malformed message) => pure (.error ("failed to parse exec response: " ++ message))
  | .ok (.result result) =>
    let _ ← call (.saveSandboxExec execID
      { sandboxID := sandboxID, language := language,
        status := if result.exitCode ≠ 0 then .error else .done,
        stdout := result.stdout, stderr := result.stderr, exitCode := result.exitCode,
        durationMs := result.durationMs })
    pure (.ok result)

/-- The mutex of a sandbox, created when the table has none. -/
def busyLock (sandboxID : String) : Program Mutex := do
  match ← call (.lookupLock sandboxID) with
  | some lock => pure lock
  | none => call (.createLock sandboxID)

/-- The error of a call that finds the sandbox busy. -/
def busyError (sandboxID : String) : String :=
  "sandbox " ++ sandboxID ++ " is busy (concurrent exec rejected)"

/-- `ExecInSandbox` from its attempt to lock the mutex of the sandbox on. -/
def execTry (sandboxID code language : String) (timeoutSeconds : Int) (sandbox : Sandbox)
    (lock : Mutex) : Program (Except String ExecResult) := do
  match ← call (.tryLock lock) with
  | false => pure (.error (busyError sandboxID))
  | true =>
    let result ← execLocked sandboxID code language timeoutSeconds sandbox
    call (.unlock lock)
    pure result

/-- `ExecInSandbox` once the row has been read. -/
def execFound (sandboxID code language : String) (timeoutSeconds : Int) (sandbox : Sandbox) :
    Program (Except String ExecResult) :=
  if sandbox.status = .destroyed then
    pure (.error ("sandbox " ++ sandboxID ++ " has been destroyed"))
  else do
    let lock ← busyLock sandboxID
    execTry sandboxID code language timeoutSeconds sandbox lock

/-- `SandboxManager.ExecInSandbox`. -/
def execInSandbox (sandboxID code language : String) (timeoutSeconds : Int) :
    Program (Except String ExecResult) := do
  match ← call (.getSandbox sandboxID) with
  | .error message => pure (.error ("sandbox not found: " ++ message))
  | .ok sandbox => execFound sandboxID code language timeoutSeconds sandbox

/-- `SandboxManager.DestroySandbox`. -/
def destroySandbox (id : String) : Program (Except String Unit) := do
  match ← call (.getSandbox id) with
  | .error message => pure (.error ("sandbox not found: " ++ message))
  | .ok sandbox =>
    if sandbox.status = .destroyed then
      pure (.ok ())
    else do
      let _ ← call (.saveSandbox id { sandbox with status := .destroyed })
      let _ ← call (.terminateVM sandbox.vmID)
      call (.deleteLock id)
      pure (.ok ())

/-- One pass of `gcSweep`. -/
def gcSweep : Program Unit := do
  match ← call .listExpiredSandboxes with
  | .error _ => pure ()
  | .ok expired =>
    Prog.forEach (fun id => do
      let _ ← destroySandbox id
      pure ()) expired

/-! ## The system -/

/-- What is started: a call of the manager, or a pass of its sweep. -/
inductive Request
  | exec (sandboxID code language : String) (timeoutSeconds : Int)
  | destroy (id : String)
  | sweep

/-- What it returns. -/
inductive Reply
  | exec (result : Except String ExecResult)
  | destroy (result : Except String Unit)
  | swept

/-- The program of a request. -/
def program : Request → Program Reply
  | .exec sandboxID code language timeoutSeconds => do
    let result ← execInSandbox sandboxID code language timeoutSeconds
    pure (.exec result)
  | .destroy id => do
    let result ← destroySandbox id
    pure (.destroy result)
  | .sweep => do
    gcSweep
    pure .swept

/-- Any number of calls and passes, interleaved between any two of their single
calls. -/
abbrev System : Type := Pool World Request Op Ans Reply

/-- A call or pass is started, or one of them makes its next single call. -/
abbrev Event : Type := PoolEvent Request Op Ans

abbrev Step : System → Event → System → Prop := Pool.Step program Exec

/-! ## The course of an exec -/

/-- How far a call of `ExecInSandbox` has come. -/
inductive Phase
  /-- Nothing is read yet. -/
  | start
  /-- The row was read, and the sandbox was not destroyed. -/
  | live
  /-- The lock table had no mutex for the sandbox. -/
  | unlisted
  /-- The call is about to try a mutex. -/
  | chosen (lock : Mutex)
  | locked (lock : Mutex)
  /-- The row was stored as busy. -/
  | marked (lock : Mutex)
  /-- The request is in flight. -/
  | sent (lock : Mutex)
  | answered (lock : Mutex)
  /-- The row was stored as ready. -/
  | restored (lock : Mutex)
  /-- The call was refused, or has released its mutex. -/
  | over

/-- The phase after a single call. -/
def Phase.next : Phase → (op : Op) → Ans op → Phase
  | .start, .getSandbox _, .ok sandbox => if sandbox.status = .destroyed then .over else .live
  | .start, .getSandbox _, .error _ => .over
  | .live, .lookupLock _, some lock => .chosen lock
  | .live, .lookupLock _, none => .unlisted
  | .unlisted, .createLock _, lock => .chosen lock
  | .chosen lock, .tryLock _, true => .locked lock
  | .chosen _, .tryLock _, false => .over
  | .locked lock, .saveSandbox .., _ => .marked lock
  | .marked lock, .send .., _ => .sent lock
  | .sent lock, .receive _, _ => .answered lock
  | .answered lock, .saveSandbox .., _ => .restored lock
  | .restored _, .unlock _, _ => .over
  | phase, _, _ => phase

/-- The single calls an exec in a sandbox makes in a phase. -/
def Phase.Admits (sandboxID : String) : Op → Phase → Prop
  | .getSandbox id, phase => id = sandboxID ∧ phase = .start
  | .lookupLock id, phase => id = sandboxID ∧ phase = .live
  | .createLock id, phase => id = sandboxID ∧ phase = .unlisted
  | .tryLock lock, phase => phase = .chosen lock
  | .saveSandbox id sandbox, phase =>
    id = sandboxID ∧ ∃ lock, sandbox.status = .busy ∧ phase = .locked lock ∨
      sandbox.status = .ready ∧ phase = .answered lock
  | .send .., phase => ∃ lock, phase = .marked lock
  | .receive _, phase => ∃ lock, phase = .sent lock
  | .unlock lock, phase => phase = .restored lock
  | .saveSandboxExec .., phase => ∃ lock, phase = .restored lock
  | .now, phase => ∃ lock, phase = .locked lock
  | .newUUID, phase => ∃ lock, phase = .marked lock
  | .listExpiredSandboxes, _ => False
  | .deleteLock _, _ => False
  | .terminateVM _, _ => False

/-- The calls of an exec, phase by phase. -/
abbrev execSpec (sandboxID : String) : OpSpec Op Ans Phase :=
  tracking (fun _ _ => True) (Phase.Admits sandboxID) Phase.next

instance (sandboxID : String) : (execSpec sandboxID).IsMonotone :=
  inferInstanceAs (tracking _ _ _).IsMonotone

theorem wp_execLocked (sandboxID code language : String) (timeoutSeconds : Int)
    (sandbox : Sandbox) (lock : Mutex) :
    wp (execSpec sandboxID) (execLocked sandboxID code language timeoutSeconds sandbox)
      (fun _ phase => phase = .restored lock) (.locked lock) := by
  unfold execLocked
  refine wp_tracking_perform_bind ⟨lock, rfl⟩ fun now _ => ?_
  refine wp_tracking_perform_bind ⟨rfl, lock, .inl ⟨rfl, rfl⟩⟩ fun _ _ => ?_
  refine wp_tracking_perform_bind ⟨lock, rfl⟩ fun execID _ => ?_
  refine wp_tracking_perform_bind ⟨lock, rfl⟩ fun _ _ => ?_
  refine wp_tracking_perform_bind ⟨lock, rfl⟩ fun answer _ => ?_
  refine wp_tracking_perform_bind ⟨rfl, lock, .inr ⟨rfl, rfl⟩⟩ fun _ _ => ?_
  rcases answer with message | body
  · exact rfl
  · cases body with
    | unreadable | malformed => exact rfl
    | result value => exact wp_tracking_perform_bind ⟨lock, rfl⟩ fun _ _ => rfl

theorem wp_busyLock (sandboxID : String) :
    wp (execSpec sandboxID) (busyLock sandboxID) (fun lock phase => phase = .chosen lock)
      .live := by
  unfold busyLock
  refine wp_tracking_perform_bind ⟨rfl, rfl⟩ fun found _ => ?_
  cases found with
  | none => exact ⟨⟨rfl, rfl⟩, fun _ _ => rfl⟩
  | some lock => exact rfl

theorem wp_execTry (sandboxID code language : String) (timeoutSeconds : Int)
    (sandbox : Sandbox) (lock : Mutex) :
    wp (execSpec sandboxID) (execTry sandboxID code language timeoutSeconds sandbox lock)
      (fun _ phase => phase = .over) (.chosen lock) := by
  unfold execTry
  refine wp_tracking_perform_bind rfl fun free _ => ?_
  cases free with
  | false => exact rfl
  | true =>
    rw [wp_bind]
    refine wp_mono ?_ (wp_execLocked sandboxID code language timeoutSeconds sandbox lock)
    rintro result phase rfl
    exact wp_tracking_perform_bind rfl fun _ _ => rfl

theorem wp_execInSandbox (sandboxID code language : String) (timeoutSeconds : Int) :
    wp (execSpec sandboxID) (execInSandbox sandboxID code language timeoutSeconds)
      (fun _ phase => phase = .over) .start := by
  unfold execInSandbox
  refine wp_tracking_perform_bind ⟨rfl, rfl⟩ fun found _ => ?_
  rcases found with message | sandbox
  · exact rfl
  simp only [Phase.next, execFound]
  by_cases hdestroyed : sandbox.status = .destroyed
  · rw [if_pos hdestroyed, if_pos hdestroyed]
    exact rfl
  · rw [if_neg hdestroyed, if_neg hdestroyed, wp_bind]
    refine wp_mono ?_ (wp_busyLock sandboxID)
    rintro lock phase rfl
    exact wp_execTry sandboxID code language timeoutSeconds sandbox lock

/-! ## Calls of a reached system -/

/-- The single calls of a destruction. -/
def Clears : Op → Prop
  | .getSandbox _ | .listExpiredSandboxes | .terminateVM _ | .deleteLock _ => True
  | .saveSandbox _ sandbox => sandbox.status = .destroyed
  | .saveSandboxExec .. | .lookupLock _ | .createLock _ | .tryLock _ | .unlock _ | .send ..
  | .receive _ | .newUUID | .now => False

theorem obeys_destroySandbox (id : String) :
    Only Clears (destroySandbox id) := by
  unfold destroySandbox
  refine Obeys.call trivial fun found => ?_
  rcases found with message | sandbox
  · exact Obeys.pure _
  · dsimp only
    split
    · exact Obeys.pure _
    · refine Obeys.call rfl fun _ => ?_
      refine Obeys.call trivial fun _ => ?_
      exact Obeys.call trivial fun _ => Obeys.pure _

theorem obeys_gcSweep : Only Clears gcSweep := by
  unfold gcSweep
  refine Obeys.call trivial fun found => ?_
  rcases found with message | expired
  · exact Obeys.pure _
  · exact Obeys.forEach fun id _ => Obeys.bind (obeys_destroySandbox id) fun _ => Obeys.pure _

/-- The request is a call of `ExecInSandbox` on the sandbox. -/
def Request.Execs (sandboxID : String) : Request → Prop
  | .exec id .. => id = sandboxID
  | .destroy _ => False
  | .sweep => False

/-- How far the call of `ExecInSandbox` in a thread has come. -/
def phase (t : Thread Request Op Ans Reply) : Phase := recorded Phase.next .start t.past

theorem phase_snoc (t : Thread Request Op Ans Reply) (op : Op) (ans : Ans op)
    (rest : Program Reply) :
    phase ⟨t.tag, t.past ++ [⟨op, ans⟩], rest⟩ = (phase t).next op ans :=
  recorded_snoc _ _ _ _ _

theorem Request.Execs.unique {request : Request} {id id' : String} (h : request.Execs id)
    (h' : request.Execs id') : id = id' := by
  cases request with
  | exec => exact Eq.trans (Eq.symm h) h'
  | destroy | sweep => exact h.elim

theorem wp_program_exec (sandboxID code language : String) (timeoutSeconds : Int) :
    wp (execSpec sandboxID) (program (.exec sandboxID code language timeoutSeconds))
      (fun _ phase => phase = .over) .start := by
  unfold program
  rw [wp_bind]
  exact wp_execInSandbox sandboxID code language timeoutSeconds

/-- What the next call of a thread can be: one that its phase admits, or one of a
destruction. -/
theorem call_cases {w : World} {events : List Event} {s : System}
    (hrun : Run Step (Pool.idle w) events s) {t : Thread Request Op Ans Reply}
    (ht : t ∈ s.threads) {op : Op} {next : Ans op → Program Reply}
    (hrest : t.rest = .call op next) :
    (∃ sandboxID, t.tag.Execs sandboxID ∧ Phase.Admits sandboxID op (phase t)) ∨
      (∀ sandboxID, ¬t.tag.Execs sandboxID) ∧ Clears op := by
  have hresidual := Pool.residual_of_run hrun t ht
  have hpast : ∀ e ∈ t.past, (fun (op : Op) (_ : Ans op) => True) e.1 e.2 := fun _ _ => trivial
  rw [hrest] at hresidual
  cases htag : t.tag with
  | exec sandboxID code language timeoutSeconds =>
    rw [htag] at hresidual
    have hwp := hresidual.wp_recorded
      (wp_program_exec sandboxID code language timeoutSeconds) hpast
    exact .inl ⟨sandboxID, rfl, hwp.1⟩
  | destroy id =>
    rw [htag] at hresidual
    have hobeys : Only Clears (program (.destroy id)) :=
      Obeys.bind (obeys_destroySandbox id) fun _ => Obeys.pure _
    exact .inr ⟨fun _ h => h, (hresidual.obeys hobeys hpast).1⟩
  | sweep =>
    rw [htag] at hresidual
    have hobeys : Only Clears (program .sweep) :=
      Obeys.bind obeys_gcSweep fun _ => Obeys.pure _
    exact .inr ⟨fun _ h => h, (hresidual.obeys hobeys hpast).1⟩

/-! ## Computed runs -/

def idleSandbox : Sandbox where
  vmID := "vm-1"
  vmIP := "10.0.0.2"
  status := .ready
  runtime := "python3"
  lastUsedAt := 0
  expiresAt := 3600

def answering (w : World) : (op : Op) → Option (Ans op × World)
  | .getSandbox id => (w.sandboxes.get id).map fun sandbox => (.ok sandbox, w)
  | .saveSandbox id sandbox => some (.ok (), { w with sandboxes := w.sandboxes.set id sandbox })
  | .listExpiredSandboxes => some (.ok [], w)
  | .saveSandboxExec id record => some (.ok (), { w with execs := w.execs.set id record })
  | .lookupLock id => some (w.busyLocks.get id, w)
  | .createLock id =>
    some (w.nextLock,
      { w with busyLocks := w.busyLocks.set id w.nextLock, nextLock := w.nextLock + 1 })
  | .deleteLock id => some ((), { w with busyLocks := w.busyLocks.del id })
  | .tryLock l =>
    if l ∈ w.held then some (false, w) else some (true, { w with held := l :: w.held })
  | .unlock l => some ((), { w with held := w.held.erase l })
  | .send _ _ => some ((), w)
  | .receive _ => some (.ok (.result ⟨"exec-1", "hi", "", 0, 12⟩), w)
  | .terminateVM _ => some (.ok (), w)
  | .newUUID => some ("exec-1", w)
  | .now => some ((10 : Int), w)

theorem exec_answering {w w' : World} {op : Op} {ans : Ans op}
    (h : answering w op = some (ans, w')) : Exec w op ans w' := by
  cases op with
  | getSandbox id =>
    obtain ⟨sandbox, hrow, heq⟩ := Option.map_eq_some_iff.mp h
    cases heq
    exact .getSandbox hrow
  | tryLock l =>
    simp only [answering] at h
    split at h
    · rename_i hheld
      cases h
      exact .contended hheld
    · rename_i hfree
      cases h
      exact .lock hfree
  | listExpiredSandboxes =>
    cases h
    exact .listExpired 10 fun id hid => absurd hid List.not_mem_nil
  | saveSandbox | saveSandboxExec | lookupLock | createLock | deleteLock | unlock | send | receive
  | terminateVM | newUUID | now =>
    cases h
    constructor

def carryOut (s : System) (choices : List (Pool.Choice Request)) : List Event × System :=
  play (Pool.advance program answering) s choices

theorem step_answering {s s' : System} {c : Pool.Choice Request} {event : Event}
    (h : Pool.advance program answering s c = some (event, s')) : Step s event s' :=
  Pool.step_of_advance (fun _ _ _ _ henv => exec_answering henv) h

theorem run_carryOut (s : System) (choices : List (Pool.Choice Request)) :
    Run Step s (carryOut s choices).1 (carryOut s choices).2 := by
  have hadvance : ∀ s c event s', Pool.advance program answering s c = some (event, s') →
      Step s event s' := fun _ _ _ _ h => step_answering h
  exact run_play hadvance s choices

end Sandboxes
end Skyscale
