import Skyscale.DataPlane.Records
import Skyscale.Lib.Program

/-!
# The sample store

The calls of `Store` in `control-plane/dataplane/store.go` over the in-memory stores.
Each call is a program over the operations of the two stores, the clock and the source
of lease ids.  `exec` says what an operation does: the clock never goes back, the lease
ids passed to `ClaimGroup` are fresh, and `FinishLease` visits the records in any order.

`Serves` is a whole call, run alone; a sequence of calls is a run of it.
-/

namespace Skyscale
namespace DataPlane

open Lib Contracts

/-! ## Operations -/

/-- The two stores and the clock; `issued` records the lease ids that `ClaimGroup` has
been called with. -/
structure World where
  samples : Samples
  blobs : Blobs
  clock : Int
  issued : List String

/-- Empty stores. -/
def World.initial (clock : Int) : World := ⟨∅, ⟨∅, ∅⟩, clock, []⟩

inductive Op
  | now
  | uuid
  | putIfAbsent (key : String) (value : Bytes) (checksum : String)
  | getBlob (key : String)
  | deleteBlob (key : String)
  | insertSample (record : SampleRecord)
  | countAvailableGroups (tenantID runID : String)
  | claimGroup (tenantID runID : String) (expected : Int) (leaseID owner : String) (expires : Int)
  | finishLease (leaseID owner : String) (ack : Bool) (reason : String)
  | releaseExpired (now : Int)
  | deleteExpired (now : Int)
  | listRun (tenantID runID : String)

/-- The answers; the in-memory stores leave out the errors they cannot return. -/
def Ans : Op → Type
  | .now => Int
  | .uuid => String
  | .putIfAbsent _ _ _ => Except Error Unit
  | .getBlob _ => Except Error Bytes
  | .deleteBlob _ => Unit
  | .insertSample _ => SampleRecord × Bool
  | .countAvailableGroups _ _ => Nat
  | .claimGroup _ _ _ _ _ _ => Except Error Lease
  | .finishLease _ _ _ _ => Except Error Unit
  | .releaseExpired _ => Nat
  | .deleteExpired _ => List SampleRecord
  | .listRun _ _ => List SampleRecord

/-- What an operation does, and its answer. -/
def exec (w : World) : (op : Op) → Ans op → World → Prop
  | .now, t, w' => w.clock ≤ t ∧ w' = { w with clock := t }
  | .uuid, _, w' => w' = w
  | .putIfAbsent key value checksum, ans, w' =>
    ans = (w.blobs.putIfAbsent key value checksum).1 ∧
      w' = { w with blobs := (w.blobs.putIfAbsent key value checksum).2 }
  | .getBlob key, ans, w' => ans = w.blobs.get key ∧ w' = w
  | .deleteBlob key, _, w' => w' = { w with blobs := w.blobs.delete key }
  | .insertSample record, ans, w' =>
    ans = (w.samples.insertSample record).1 ∧
      w' = { w with samples := (w.samples.insertSample record).2 }
  | .countAvailableGroups tenantID runID, ans, w' =>
    ans = w.samples.countAvailableGroups tenantID runID ∧ w' = w
  | .claimGroup tenantID runID expected leaseID owner expires, ans, w' =>
    leaseID ∉ w.issued ∧
      ans = (w.samples.claimGroup tenantID runID expected leaseID owner expires).1 ∧
      w' = { w with
        samples := (w.samples.claimGroup tenantID runID expected leaseID owner expires).2
        issued := leaseID :: w.issued }
  | .finishLease leaseID owner ack reason, ans, w' =>
    -- the order of the visits, and the clock at each of them and at the end
    ∃ (visits : List (String × Int)) (t : Int),
      (visits.map Prod.fst).Perm w.samples.keys ∧
      (w.clock :: (visits.map Prod.snd ++ [t])).Pairwise (· ≤ ·) ∧
      ans = (w.samples.finishLease visits leaseID owner ack reason).1 ∧
      w' = { w with
        samples := (w.samples.finishLease visits leaseID owner ack reason).2
        clock := t }
  | .releaseExpired now, ans, w' =>
    ans = (w.samples.releaseExpired now).1 ∧
      w' = { w with samples := (w.samples.releaseExpired now).2 }
  | .deleteExpired now, ans, w' =>
    ans.Perm (w.samples.deleteExpired now).1 ∧
      w' = { w with samples := (w.samples.deleteExpired now).2 }
  | .listRun tenantID runID, ans, w' => ans = w.samples.listRun tenantID runID ∧ w' = w

/-! ### The operations as programs -/

def timeNow : Prog Op Ans Int := Prog.perform Op.now

def newUUID : Prog Op Ans String := Prog.perform Op.uuid

def putIfAbsent (key : String) (value : Bytes) (checksum : String) :
    Prog Op Ans (Except Error Unit) :=
  Prog.perform (Op.putIfAbsent key value checksum)

def getBlob (key : String) : Prog Op Ans (Except Error Bytes) := Prog.perform (Op.getBlob key)

def deleteBlob (key : String) : Prog Op Ans Unit := Prog.perform (Op.deleteBlob key)

def insertSample (record : SampleRecord) : Prog Op Ans (SampleRecord × Bool) :=
  Prog.perform (Op.insertSample record)

def countAvailableGroups (tenantID runID : String) : Prog Op Ans Nat :=
  Prog.perform (Op.countAvailableGroups tenantID runID)

def claimGroup (tenantID runID : String) (expected : Int) (leaseID owner : String)
    (expires : Int) : Prog Op Ans (Except Error Lease) :=
  Prog.perform (Op.claimGroup tenantID runID expected leaseID owner expires)

def finishLease (leaseID owner : String) (ack : Bool) (reason : String) :
    Prog Op Ans (Except Error Unit) :=
  Prog.perform (Op.finishLease leaseID owner ack reason)

def releaseExpired (now : Int) : Prog Op Ans Nat := Prog.perform (Op.releaseExpired now)

def deleteExpired (now : Int) : Prog Op Ans (List SampleRecord) :=
  Prog.perform (Op.deleteExpired now)

def listRun (tenantID runID : String) : Prog Op Ans (List SampleRecord) :=
  Prog.perform (Op.listRun tenantID runID)

/-! ## Calls -/

/-- The encoding of samples and their checksum. -/
structure Codec where
  encode : SampleEnvelope → Except String Bytes
  decode : Bytes → Except String SampleEnvelope
  checksum : Bytes → String

structure Options where
  maxTokens : Int
  highWatermarkGroups : Int
  lowWatermarkGroups : Int
  retention : Int

/-- A store keeps limits that make sense. -/
structure Store where
  maxTokens : Int
  highWatermark : Int
  lowWatermark : Int
  ttl : Int
  positive : 0 < maxTokens
  watermarks : lowWatermark < highWatermark

/-- `New`, with both stores given. -/
def Store.new (options : Options) : Except Error Store :=
  if h : 0 < options.maxTokens ∧ options.lowWatermarkGroups < options.highWatermarkGroups then
    .ok ⟨options.maxTokens, options.highWatermarkGroups, options.lowWatermarkGroups,
      options.retention, h.1, h.2⟩
  else
    .error (.other "invalid data-plane limits")

section Calls

variable (codec : Codec) (s : Store)

/-- The last part of `Put`: the blob is there, the record is inserted. -/
def Store.putRecord (sample : SampleEnvelope) (key checksum : String) :
    Prog Op Ans (Except Error (SampleRecord × Bool)) := do
  let now ← timeNow
  let (stored, inserted) ← insertSample
    { tenantID := sample.tenantID, projectID := sample.projectID, sampleID := sample.sampleID,
      runID := sample.runID, promptGroupID := sample.promptGroupID,
      policyVersion := sample.policyVersion, blobKey := key, checksum := checksum,
      state := .available, createdAt := now, expiresAt := now + s.ttl }
  if !inserted && stored.checksum ≠ checksum then
    pure (.error .duplicateConflict)
  else
    pure (.ok (stored, inserted))

def Store.put (sample : SampleEnvelope) : Prog Op Ans (Except Error (SampleRecord × Bool)) :=
  match sample.validate s.maxTokens with
  | .error text => pure (.error (.other text))
  | .ok () => do
    let groups ← countAvailableGroups sample.tenantID sample.runID
    if s.highWatermark ≤ groups then
      pure (.error .backpressure)
    else
      match codec.encode sample with
      | .error text => pure (.error (.other text))
      | .ok raw => do
        let checksum := codec.checksum raw
        let key := putKey sample.tenantID sample.runID sample.promptGroupID checksum
        match ← putIfAbsent key raw checksum with
        | .error e => pure (.error e)
        | .ok () => s.putRecord sample key checksum

/-- Give a lease back, and end with an error. -/
def abandon {α : Type} (leaseID owner reason : String) (e : Error) :
    Prog Op Ans (Except Error α) := do
  let _ ← finishLease leaseID owner false reason
  pure (.error e)

/-- The loop of `Claim` over the records of a lease. -/
def Store.readPayloads (leaseID owner : String) :
    List SampleRecord → List SampleEnvelope → Prog Op Ans (Except Error (List SampleEnvelope))
  | [], payloads => pure (.ok payloads)
  | record :: records, payloads => do
    match ← getBlob record.blobKey with
    | .error e => abandon leaseID owner "blob read failed" e
    | .ok raw =>
      match codec.decode raw with
      | .error text =>
        abandon leaseID owner "malformed sample"
          (.other ("decode sample " ++ record.sampleID ++ ": " ++ text))
      | .ok sample =>
        match sample.validate s.maxTokens with
        | .error text =>
          abandon leaseID owner "malformed sample"
            (.other ("validate sample " ++ record.sampleID ++ ": " ++ text))
        | .ok () => readPayloads leaseID owner records (payloads ++ [sample])

def Store.claim (tenantID runID : String) (expectedGroupSize : Int) (owner : String)
    (duration : Int) : Prog Op Ans (Except Error (Lease × List SampleEnvelope)) :=
  if tenantID = "" ∨ runID = "" ∨ expectedGroupSize ≤ 0 ∨ owner = "" ∨ duration ≤ 0 then
    pure (.error (.other "tenant, run, group size, owner, and lease duration are required"))
  else do
    let uuid ← newUUID
    let leaseID := "lease-" ++ uuid
    let now ← timeNow
    match ← claimGroup tenantID runID expectedGroupSize leaseID owner (now + duration) with
    | .error e => pure (.error e)
    | .ok lease => do
      match ← s.readPayloads codec lease.id owner lease.samples [] with
      | .error e => pure (.error e)
      | .ok payloads => pure (.ok (lease, payloads))

def ack (leaseID owner : String) : Prog Op Ans (Except Error Unit) :=
  finishLease leaseID owner true ""

def nack (leaseID owner reason : String) : Prog Op Ans (Except Error Unit) :=
  finishLease leaseID owner false reason

/-- The answer says whether producers should pause, and below which number of groups they may
resume. -/
def Store.backpressure (tenantID runID : String) : Prog Op Ans (Bool × Int) := do
  let groups ← countAvailableGroups tenantID runID
  pure (decide (s.highWatermark ≤ groups), s.lowWatermark)

/-- The answer counts the records released and deleted. -/
def sweep (now : Int) : Prog Op Ans (Nat × Nat) := do
  let released ← releaseExpired now
  let records ← deleteExpired now
  Prog.forEach (fun record : SampleRecord => deleteBlob record.blobKey) records
  pure (released, records.length)

/-- The loop of `Export` over the records of a run. -/
def exportPayloads :
    List SampleRecord → List SampleEnvelope → Prog Op Ans (Except Error (List SampleEnvelope))
  | [], out => pure (.ok out)
  | record :: records, out => do
    match ← getBlob record.blobKey with
    | .error e => pure (.error e)
    | .ok raw =>
      match codec.decode raw with
      | .error text => pure (.error (.other text))
      | .ok sample => exportPayloads records (out ++ [sample])

/-- `Export`. -/
def exportRun (tenantID runID : String) : Prog Op Ans (Except Error (List SampleEnvelope)) := do
  let records ← listRun tenantID runID
  exportPayloads codec records []

inductive Call
  | put (sample : SampleEnvelope)
  | claim (tenantID runID : String) (expectedGroupSize : Int) (owner : String) (duration : Int)
  | ack (leaseID owner : String)
  | nack (leaseID owner reason : String)
  | backpressure (tenantID runID : String)
  | sweep (now : Int)
  | exportRun (tenantID runID : String)

def Call.Result : Call → Type
  | put _ => Except Error (SampleRecord × Bool)
  | claim _ _ _ _ _ => Except Error (Lease × List SampleEnvelope)
  | ack _ _ => Except Error Unit
  | nack _ _ _ => Except Error Unit
  | backpressure _ _ => Bool × Int
  | sweep _ => Nat × Nat
  | exportRun _ _ => Except Error (List SampleEnvelope)

def program : (call : Call) → Prog Op Ans call.Result
  | .put sample => s.put codec sample
  | .claim tenantID runID expectedGroupSize owner duration =>
    s.claim codec tenantID runID expectedGroupSize owner duration
  | .ack leaseID owner => ack leaseID owner
  | .nack leaseID owner reason => nack leaseID owner reason
  | .backpressure tenantID runID => s.backpressure tenantID runID
  | .sweep now => sweep now
  | .exportRun tenantID runID => exportRun codec tenantID runID

/-- A call and its result. -/
abbrev Served : Type := (call : Call) × call.Result

/-- A call is served, from its first operation to its result. -/
def Serves (w : World) (served : Served) (w' : World) : Prop :=
  Prog.Runs exec w (program codec s served.1) served.2 w'

end Calls

/-! ## Computed calls -/

def environment (w : World) : (op : Op) → Option (Ans op × World)
  | .now => some (w.clock + 1, { w with clock := w.clock + 1 })
  | .uuid => some (toString w.issued.length, w)
  | .putIfAbsent key value checksum =>
    some ((w.blobs.putIfAbsent key value checksum).1,
      { w with blobs := (w.blobs.putIfAbsent key value checksum).2 })
  | .getBlob key => some (w.blobs.get key, w)
  | .deleteBlob key => some ((), { w with blobs := w.blobs.delete key })
  | .insertSample record =>
    some ((w.samples.insertSample record).1,
      { w with samples := (w.samples.insertSample record).2 })
  | .countAvailableGroups tenantID runID =>
    some (w.samples.countAvailableGroups tenantID runID, w)
  | .claimGroup tenantID runID expected leaseID owner expires =>
    if leaseID ∈ w.issued then none
    else
      some ((w.samples.claimGroup tenantID runID expected leaseID owner expires).1,
        { w with
          samples := (w.samples.claimGroup tenantID runID expected leaseID owner expires).2
          issued := leaseID :: w.issued })
  | .finishLease leaseID owner ack reason =>
    let visits := w.samples.keys.map fun k => (k, w.clock)
    some ((w.samples.finishLease visits leaseID owner ack reason).1,
      { w with samples := (w.samples.finishLease visits leaseID owner ack reason).2 })
  | .releaseExpired now =>
    some ((w.samples.releaseExpired now).1,
      { w with samples := (w.samples.releaseExpired now).2 })
  | .deleteExpired now =>
    some ((w.samples.deleteExpired now).1,
      { w with samples := (w.samples.deleteExpired now).2 })
  | .listRun tenantID runID => some (w.samples.listRun tenantID runID, w)

theorem exec_environment (w : World) (op : Op) (ans : Ans op) (w' : World)
    (h : environment w op = some (ans, w')) : exec w op ans w' := by
  cases op with
  | now =>
    cases h
    exact ⟨by show w.clock ≤ w.clock + 1; omega, rfl⟩
  | uuid | deleteBlob =>
    cases h
    rfl
  | putIfAbsent | getBlob | insertSample | countAvailableGroups | releaseExpired | listRun =>
    cases h
    exact ⟨rfl, rfl⟩
  | claimGroup tenantID runID expected leaseID owner expires =>
    simp only [environment] at h
    split at h
    · cases h
    · rename_i hfresh
      cases h
      exact ⟨hfresh, rfl, rfl⟩
  | finishLease leaseID owner ack reason =>
    cases h
    refine ⟨_, w.clock, ?_, ?_, rfl, rfl⟩
    · rw [List.map_map]
      simp [Function.comp_def]
    · -- every reading is the same
      have hall : ∀ t ∈ w.clock :: ((w.samples.keys.map fun k => (k, w.clock)).map Prod.snd ++
          [w.clock]), t = w.clock := by
        intro t ht
        simp only [List.mem_cons, List.mem_append, List.mem_map, List.not_mem_nil,
          or_false] at ht
        obtain rfl | ⟨_, ⟨_, _, rfl⟩, rfl⟩ | rfl := ht <;> rfl
      refine List.pairwise_of_forall_mem_list fun t ht t' ht' => ?_
      rw [hall t ht, hall t' ht']
  | deleteExpired =>
    cases h
    exact ⟨List.Perm.refl _, rfl⟩

def serve (codec : Codec) (s : Store) (w : World) (call : Call) : Option (Served × World) :=
  ((program codec s call).evaluate environment w).map fun r => (⟨call, r.1⟩, r.2)

theorem serves_of_serve {codec : Codec} {s : Store} {w w' : World} {call : Call} {served : Served}
    (h : serve codec s w call = some (served, w')) : Serves codec s w served w' := by
  obtain ⟨⟨result, w1⟩, heval, heq⟩ := Option.map_eq_some_iff.mp h
  cases heq
  exact Prog.runs_of_evaluate exec_environment heval

end DataPlane
end Skyscale
