import Skyscale.Control.System

/-!
# The control plane, one request at a time

Many guarantees of the run service are about whole requests that do not overlap:
a handler call, a pass of the reconciler or a round of the queue worker runs from its
first operation to its last before the next one starts.  `Serves` is this semantics.

Its state is a `Ledger`: the database together with the log of everything that
happened, the requests as they came in and every operation with the database it was
performed on.  The log is not read by any program; results about the order of events
are results about it.

* `Prog.Runs.checked` of the library, applied to `Ledger.Records`, is how an invariant
  of single operations becomes an invariant of served requests (`Serves.checked`).
* `serveAll` computes histories of served requests, each in an environment of its own.
-/

namespace Skyscale
namespace Control

open Lib State RL

/-- What happened: a request came in, or an operation was performed on a database. -/
inductive Entry
  | request (request : Request)
  | performed (w : World) (op : Op) (ans : Ans op)

/-- The database and the log of what happened so far. -/
structure Ledger where
  world : World
  log : List Entry

namespace Ledger

/-- Nothing has happened yet. -/
def initial : Ledger := ⟨Database.empty, []⟩

/-- A request comes in. -/
def receive (L : Ledger) (request : Request) : Ledger :=
  { L with log := L.log ++ [.request request] }

/-- The effect of an operation, logged. -/
def Records (L : Ledger) (op : Op) (ans : Ans op) (L' : Ledger) : Prop :=
  exec L.world op ans L'.world ∧ L'.log = L.log ++ [.performed L.world op ans]

variable {L L' : Ledger} {q : Statement schema} {ans : Ans (.sql q)} {t : Table}

theorem Records.table_of_target_ne (h : L.Records (.sql q) ans L') (ht : q.target ≠ some t) :
    L'.world.table t = L.world.table t :=
  Database.Exec.table_of_target_ne (S := schema) (t := t)
    (show L.world.Exec q ans L'.world from h.1) ht

theorem Records.row_of_target_ne (h : L.Records (.sql q) ans L') (ht : q.target ≠ some t)
    (k : t.Key) : L'.world.row t k = L.world.row t k :=
  row_congr (h.table_of_target_ne ht) k

end Ledger

/-- A request and its response. -/
structure Exchange where
  request : Request
  response : Option Response

/-- A request is served from its first operation to its last. -/
def Serves (cfg : Config) (L : Ledger) (exchange : Exchange) (L' : Ledger) : Prop :=
  Prog.Runs Ledger.Records (L.receive exchange.request) (program cfg exchange.request)
    exchange.response L'

variable {L' : Ledger} {exchange : Exchange}

/-- If the operations of a request are admissible, serving it keeps what admissible
operations keep. -/
theorem Serves.checked {cfg : Config} {L : Ledger} {P : Ledger → Op → Prop} {I : Ledger → Prop}
    (h : Serves cfg L exchange L')
    (hprogram : wp (checking Ledger.Records P) (program cfg exchange.request) (fun _ _ => True)
      (L.receive exchange.request)) (hop : ∀ L op ans L', I L → P L op → L.Records op ans L' → I L')
    (hstart : I (L.receive exchange.request)) : I L' :=
  (Prog.Runs.checked hop h hprogram hstart).1

/-! ## Computed histories -/

structure Visit where
  request : Request
  oracle : (op : Op) → Ans op

def Ledger.environment (oracle : (op : Op) → Ans op) (L : Ledger) (op : Op) :
    Option (Ans op × Ledger) :=
  match Control.environment oracle L.world op with
  | none => none
  | some (ans, w) => some (ans, ⟨w, L.log ++ [.performed L.world op ans]⟩)

theorem Ledger.records_environment {oracle : (op : Op) → Ans op} {L : Ledger} {op : Op}
    {ans : Ans op} (h : L.environment oracle op = some (ans, L')) : L.Records op ans L' := by
  unfold Ledger.environment at h
  split at h
  · cases h
  · rename_i ans' w hans
    cases h
    exact ⟨exec_environment hans, rfl⟩

def serve (cfg : Config) (L : Ledger) (visit : Visit) : Option (Exchange × Ledger) :=
  match (program cfg visit.request).evaluate (Ledger.environment visit.oracle)
      (L.receive visit.request) with
  | none => none
  | some (response, L') => some (⟨visit.request, response⟩, L')

theorem serves_of_serve {cfg : Config} {L : Ledger} {visit : Visit}
    (h : serve cfg L visit = some (exchange, L')) : Serves cfg L exchange L' := by
  unfold serve at h
  split at h
  · cases h
  rename_i response L1 heval
  cases h
  have henv : ∀ L op ans L', Ledger.environment visit.oracle L op = some (ans, L') →
      L.Records op ans L' := fun _ _ _ _ h => Ledger.records_environment h
  exact Prog.runs_of_evaluate henv heval

theorem request_of_serve {cfg : Config} {L : Ledger} {visit : Visit}
    (h : serve cfg L visit = some (exchange, L')) : exchange.request = visit.request := by
  unfold serve at h
  split at h
  · cases h
  · cases h
    rfl

def serveAll (cfg : Config) (L : Ledger) (visits : List Visit) : List Exchange × Ledger :=
  play (serve cfg) L visits

theorem run_serveAll (cfg : Config) (L : Ledger) (visits : List Visit) :
    Run (Serves cfg) L (serveAll cfg L visits).1 (serveAll cfg L visits).2 := by
  have hserve : ∀ L visit exchange L', serve cfg L visit = some (exchange, L') →
      Serves cfg L exchange L' := fun _ _ _ _ h => serves_of_serve h
  exact run_play hserve L visits

def serveAllWhen (cfg : Config) (check : World → Request → Bool) (L : Ledger)
    (visits : List Visit) : List Exchange × Ledger :=
  play (fun L visit => if check L.world visit.request then serve cfg L visit else none) L visits

theorem run_serveAllWhen (cfg : Config) (check : World → Request → Bool) (L : Ledger)
    (visits : List Visit) :
    Run (Guarded (Serves cfg) fun L exchange => check L.world exchange.request = true) L
      (serveAllWhen cfg check L visits).1 (serveAllWhen cfg check L visits).2 := by
  refine run_play ?_ L visits
  intro L visit exchange L' h
  split at h
  · rename_i hcheck
    refine ⟨serves_of_serve h, ?_⟩
    show check L.world exchange.request = true
    rw [request_of_serve h]
    exact hcheck
  · cases h

end Control
end Skyscale
