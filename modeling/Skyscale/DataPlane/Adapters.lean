import Skyscale.DataPlane.Records
import Skyscale.Lib.Mirror
import Skyscale.Lib.Run

/-!
# The two metadata stores

`SQLMetadataStore` of `control-plane/dataplane/adapters.go` keeps the records that
`MemoryMetadataStore` keeps in a map as rows of a table whose primary key is
(tenant, run, sample).  The rows have the fields of the records, so a row is modelled as its
record.  The database executes one operation at a time, compares times exactly and strings by
their bytes.  What gorm adds to a statement is part of the store: `Create` fills in a zero time of
creation, and `Delete` of a list of rows tells them apart by their ids joined with underscores.

* `SampleRows` and its operations are the SQL store;
* `StoreCall` is a call of either store, with the one reading of the clock it makes; the
  in-memory store visits its map in any order (`ServedByMemory`);
* `Alike` is the condition on `FinishLease`, `InsertSample` and `DeleteExpired` under which the
  stores agree;
* `stores_agree`: runs whose calls all meet the condition return the same results.
-/

namespace Skyscale
namespace DataPlane

open Lib Contracts

/-! ## The SQL store -/

/-- The primary key of a row. -/
def SampleRecord.identity (r : SampleRecord) : String × String × String :=
  (r.tenantID, r.runID, r.sampleID)

/-- What `Create` stores of a record: gorm fills in a zero `CreatedAt`. -/
def SampleRecord.created (r : SampleRecord) (now : Int) : SampleRecord :=
  { r with createdAt := if r.createdAt = zeroTime then now else r.createdAt }

theorem SampleRecord.created_of_ne {r : SampleRecord} (h : r.createdAt ≠ zeroTime) (now : Int) :
    r.created now = r := by
  unfold created
  rw [if_neg h]

/-- The primary key as gorm's `ToStringKey` writes it. -/
def SampleRecord.stringKey (r : SampleRecord) : String :=
  r.tenantID ++ "_" ++ r.runID ++ "_" ++ r.sampleID

/-- The table `rl_grouped_samples_v2`. -/
abbrev SampleRows : Type := FinMap (String × String × String) SampleRecord

namespace SampleRows

/-- `Create` with `OnConflict DoNothing`; the row that is there is read if none was inserted.
The record is returned as it was given, whatever `Create` has filled in. -/
def insertSample (t : SampleRows) (now : Int) (record : SampleRecord) :
    (SampleRecord × Bool) × SampleRows :=
  match t.get record.identity with
  | some row => ((row, false), t)
  | none => ((record, true), t.set record.identity (record.created now))

/-- The rows that are available in a run. -/
def available (t : SampleRows) (tenantID runID : String) : List SampleRecord :=
  t.values.filter fun r =>
    r.tenantID = tenantID && r.runID = runID && r.state = SampleState.available

/-- `COUNT(DISTINCT prompt_group_id)`. -/
def countAvailableGroups (t : SampleRows) (tenantID runID : String) : Nat :=
  ((t.available tenantID runID).map SampleRecord.promptGroupID).dedup.length

/-- `ORDER BY prompt_group_id, sample_id`. -/
def groupOrder (r r' : SampleRecord) : Prop :=
  r.promptGroupID < r'.promptGroupID ∨ r.promptGroupID = r'.promptGroupID ∧ r.sampleID ≤ r'.sampleID

instance : DecidableRel groupOrder := fun r r' =>
  inferInstanceAs (Decidable (r.promptGroupID < r'.promptGroupID ∨
    r.promptGroupID = r'.promptGroupID ∧ r.sampleID ≤ r'.sampleID))

/-- The rows of a group, in the order they were read. -/
def selected (t : SampleRows) (tenantID runID promptGroupID : String) : List SampleRecord :=
  ((t.available tenantID runID).insertionSort groupOrder).filter fun r =>
    r.promptGroupID = promptGroupID

/-- The groups with as many rows as expected, sorted. -/
def keys (t : SampleRows) (tenantID runID : String) (expected : Int) : List String :=
  ((((t.available tenantID runID).insertionSort groupOrder).map
    SampleRecord.promptGroupID).dedup.filter fun g =>
      ((t.selected tenantID runID g).length : Int) = expected).insertionSort (· ≤ ·)

/-- The condition of the update of a claim. -/
def claims (tenantID runID : String) (ids : List String) (r : SampleRecord) : Bool :=
  r.tenantID = tenantID && r.runID = runID && ids.contains r.sampleID &&
    r.state = SampleState.available

/-- The transaction is rolled back if the update has not met the expected number of rows. -/
def claimGroup (t : SampleRows) (tenantID runID : String) (expected : Int)
    (leaseID owner : String) (expires : Int) : Except Error Lease × SampleRows :=
  match t.keys tenantID runID expected with
  | [] => (.error .noCompleteGroup, t)
  | key :: _ =>
    let rows := t.selected tenantID runID key
    let hit := claims tenantID runID (rows.map SampleRecord.sampleID)
    if ((t.values.filter hit).length : Int) ≠ expected then
      (.error (.other "invalid transaction"), t)
    else
      (.ok ⟨leaseID, owner, runID, key, rows.map fun r => r.lease leaseID owner expires, expires⟩,
        t.mapVal fun _ r => if hit r then r.lease leaseID owner expires else r)

/-- The condition of the update of a finished lease. -/
def finishes (leaseID owner : String) (now : Int) (r : SampleRecord) : Bool :=
  r.leaseID = leaseID && r.leaseOwner = owner && now < r.leaseExpiresAt

def finishLease (t : SampleRows) (now : Int) (leaseID owner : String) (ack : Bool)
    (reason : String) : Except Error Unit × SampleRows :=
  (if (t.values.filter (finishes leaseID owner now)).length = 0 then .error .leaseLost else .ok (),
    t.mapVal fun _ r =>
      if finishes leaseID owner now r then r.unlease (Samples.finishedState ack reason) else r)

def releaseExpired (t : SampleRows) (now : Int) : Nat × SampleRows :=
  ((t.values.filter (Samples.leaseExpired now)).length,
    t.mapVal fun _ r => if Samples.leaseExpired now r then r.unlease .available else r)

/-- The rows whose primary keys are in the condition of `Delete(&rows)`: gorm passes over a row
that has only empty ids, and takes the first of the rows whose keys it writes alike. -/
def named : List SampleRecord → List SampleRecord
  | [] => []
  | r :: rows =>
    if r.identity = ("", "", "") then named rows
    else r :: (named rows).filter fun r' => r'.stringKey ≠ r.stringKey

/-- The expired `rows` were read, and are deleted by their keys.  Without a condition gorm refuses
to delete, and the transaction is rolled back. -/
def deleteExpired (t : SampleRows) (rows : List SampleRecord) :
    (List SampleRecord × Except Error Unit) × SampleRows :=
  if rows ≠ [] ∧ named rows = [] then ((rows, .error (.other "WHERE conditions required")), t)
  else ((rows, .ok ()), t.keep fun r => r ∉ named rows)

def listRun (t : SampleRows) (tenantID runID : String) : List SampleRecord :=
  (t.values.filter fun r => r.tenantID = tenantID && r.runID = runID).insertionSort fun r r' =>
    r.sampleID ≤ r'.sampleID

end SampleRows

/-! ## Calls -/

inductive StoreCall
  | insertSample (now : Int) (record : SampleRecord)
  | countAvailableGroups (tenantID runID : String)
  | claimGroup (tenantID runID : String) (expected : Int) (leaseID owner : String) (expires : Int)
  | finishLease (now : Int) (leaseID owner : String) (ack : Bool) (reason : String)
  | releaseExpired (now : Int)
  | deleteExpired (now : Int)
  | listRun (tenantID runID : String)

def StoreCall.Result : StoreCall → Type
  | insertSample _ _ => SampleRecord × Bool
  | countAvailableGroups _ _ => Nat
  | claimGroup _ _ _ _ _ _ => Except Error Lease
  | finishLease _ _ _ _ _ => Except Error Unit
  | releaseExpired _ => Nat
  | deleteExpired _ => List SampleRecord × Except Error Unit
  | listRun _ _ => List SampleRecord

/-- Results are the same; deleted records are compared as sets. -/
def StoreCall.SameResult : (call : StoreCall) → call.Result → call.Result → Prop
  | .insertSample _ _, a, b => a = b
  | .countAvailableGroups _ _, a, b => a = b
  | .claimGroup _ _ _ _ _ _, a, b => a = b
  | .finishLease _ _ _ _ _, a, b => a = b
  | .releaseExpired _, a, b => a = b
  | .deleteExpired _, a, b => a.1.Perm b.1 ∧ a.2 = b.2
  | .listRun _ _, a, b => a = b

/-- A call of the in-memory store, which visits the map in any order. -/
def ServedByMemory (m : Samples) : (call : StoreCall) → call.Result → Samples → Prop
  | .insertSample _ record, result, m' => (result, m') = m.insertSample record
  | .countAvailableGroups tenantID runID, result, m' =>
    result = m.countAvailableGroups tenantID runID ∧ m' = m
  | .claimGroup tenantID runID expected leaseID owner expires, result, m' =>
    (result, m') = m.claimGroup tenantID runID expected leaseID owner expires
  | .finishLease now leaseID owner ack reason, result, m' =>
    ∃ order : List String, order.Perm m.keys ∧
      (result, m') = m.finishLease (order.map fun k => (k, now)) leaseID owner ack reason
  | .releaseExpired now, result, m' => (result, m') = m.releaseExpired now
  | .deleteExpired now, result, m' =>
    result.1.Perm (m.deleteExpired now).1 ∧ result.2 = .ok () ∧ m' = (m.deleteExpired now).2
  | .listRun tenantID runID, result, m' => result = m.listRun tenantID runID ∧ m' = m

/-- A call of the SQL store.  Expired rows are read in any order. -/
def ServedBySQL (t : SampleRows) : (call : StoreCall) → call.Result → SampleRows → Prop
  | .insertSample now record, result, t' => (result, t') = t.insertSample now record
  | .countAvailableGroups tenantID runID, result, t' =>
    result = t.countAvailableGroups tenantID runID ∧ t' = t
  | .claimGroup tenantID runID expected leaseID owner expires, result, t' =>
    (result, t') = t.claimGroup tenantID runID expected leaseID owner expires
  | .finishLease now leaseID owner ack reason, result, t' =>
    (result, t') = t.finishLease now leaseID owner ack reason
  | .releaseExpired now, result, t' => (result, t') = t.releaseExpired now
  | .deleteExpired now, result, t' =>
    ∃ rows : List SampleRecord, rows.Perm (t.values.filter (Samples.retentionExpired now)) ∧
      (result, t') = t.deleteExpired rows
  | .listRun tenantID runID, result, t' => result = t.listRun tenantID runID ∧ t' = t

/-- The same call to both stores, with the two results. -/
structure Compared where
  call : StoreCall
  memory : call.Result
  sql : call.Result

/-- Both stores serve the call. -/
def Compares (s : Samples × SampleRows) (c : Compared) (s' : Samples × SampleRows) : Prop :=
  ServedByMemory s.1 c.call c.memory s'.1 ∧ ServedBySQL s.2 c.call c.sql s'.2

/-- The caller holds the record's lease: it has not expired before now. -/
def SampleRecord.HeldBy (r : SampleRecord) (owner : String) (now : Int) : Prop :=
  r.leaseOwner = owner ∧ now ≤ r.leaseExpiresAt

instance (r : SampleRecord) (owner : String) (now : Int) : Decidable (r.HeldBy owner now) :=
  inferInstanceAs (Decidable (_ ∧ _))

/-- The calls on which the stores agree.  A lease is finished only if all records with its id
are held by the caller until after now, or none is held by the caller.  A record is inserted only
if the record stored under its key has its identity or, where none is stored, if it has a time of
creation.  Expired records are deleted only if each has an id and no two have string keys that
are the same. -/
def Alike (m : Samples) : StoreCall → Prop
  | .finishLease now leaseID owner _ _ =>
    (∀ r ∈ m.values, r.leaseID = leaseID → r.leaseOwner = owner ∧ now < r.leaseExpiresAt) ∨
    ∀ r ∈ m.values, r.leaseID = leaseID → ¬r.HeldBy owner now
  | .insertSample _ record =>
    (∀ r ∈ m.get record.key, r.identity = record.identity) ∧
      ((m.get record.key).isNone → record.createdAt ≠ zeroTime)
  | .deleteExpired now =>
    ∀ r ∈ (m.deleteExpired now).1, r.identity ≠ ("", "", "") ∧
      ∀ r' ∈ (m.deleteExpired now).1, r.stringKey = r'.stringKey → r = r'
  | _ => True

instance (m : Samples) : DecidablePred (Alike m)
  | .finishLease _ _ _ _ _ => inferInstanceAs (Decidable (_ ∨ _))
  | .insertSample _ _ => inferInstanceAs (Decidable (_ ∧ _))
  | .deleteExpired _ => inferInstanceAs (Decidable (∀ r ∈ _, _))
  | .countAvailableGroups _ _ | .claimGroup _ _ _ _ _ _ | .releaseExpired _ | .listRun _ _ =>
    inferInstanceAs (Decidable True)

/-! ## The stores hold the same records -/

/-- The map and the table hold the same records. -/
def Mirrored (m : Samples) (t : SampleRows) : Prop :=
  Mirrors SampleRecord.key SampleRecord.identity m t

section Listings

variable {m : Samples} {t : SampleRows}

theorem Mirrored.unique (h : Mirrored m t) {r r' : SampleRecord} (hr : r ∈ t.values)
    (hr' : r' ∈ t.values) (htenant : r.tenantID = r'.tenantID) (hrun : r.runID = r'.runID)
    (hsample : r.sampleID = r'.sampleID) : r = r' := by
  obtain ⟨k, hk⟩ := FinMap.mem_values_iff.mp hr
  obtain ⟨k', hk'⟩ := FinMap.mem_values_iff.mp hr'
  obtain rfl := h.keyed' k r hk
  obtain rfl := h.keyed' k' r' hk'
  have hsame : r.identity = r'.identity := by
    unfold SampleRecord.identity
    rw [htenant, hrun, hsample]
  rw [hsame] at hk
  exact Option.some.inj (hk.symm.trans hk')

theorem Mirrored.available (h : Mirrored m t) (tenantID runID : String) :
    (m.available tenantID runID).Perm (t.available tenantID runID) :=
  h.perm.filter _

theorem Mirrored.countAvailableGroups (h : Mirrored m t) (tenantID runID : String) :
    m.countAvailableGroups tenantID runID = t.countAvailableGroups tenantID runID :=
  ((h.available tenantID runID).map _).dedup.length_eq

theorem Mirrored.eq_of_sorted (h : Mirrored m t) (tenantID runID : String)
    {rs rs' : List SampleRecord} (hperm : rs.Perm rs')
    (hrs : rs.Pairwise fun r r' => r.sampleID ≤ r'.sampleID)
    (hrs' : rs'.Pairwise fun r r' => r.sampleID ≤ r'.sampleID)
    (hmem : ∀ r ∈ rs', r ∈ t.values ∧ r.tenantID = tenantID ∧ r.runID = runID) : rs = rs' := by
  refine List.Perm.eq_of_pairwise ?_ hrs hrs' hperm
  intro r r' hr hr' hle hle'
  obtain ⟨hvalue, htenant, hrun⟩ := hmem r (hperm.mem_iff.mp hr)
  obtain ⟨hvalue', htenant', hrun'⟩ := hmem r' hr'
  exact h.unique hvalue hvalue' (htenant.trans htenant'.symm) (hrun.trans hrun'.symm)
    (le_antisymm hle hle')

theorem Mirrored.listRun (h : Mirrored m t) (tenantID runID : String) :
    m.listRun tenantID runID = t.listRun tenantID runID := by
  have hperm := h.perm.filter fun r => r.tenantID = tenantID && r.runID = runID
  refine h.eq_of_sorted tenantID runID
    ((List.perm_insertionSort _ _).trans (hperm.trans (List.perm_insertionSort _ _).symm))
    (pairwise_sampleID _) (pairwise_sampleID _) fun r hr => ?_
  obtain ⟨hvalue, hin⟩ := List.mem_filter.mp ((List.perm_insertionSort _ _).mem_iff.mp hr)
  rw [Bool.and_eq_true, decide_eq_true_eq, decide_eq_true_eq] at hin
  exact ⟨hvalue, hin⟩

theorem pairwise_groupOrder (rs : List SampleRecord) :
    (rs.insertionSort SampleRows.groupOrder).Pairwise SampleRows.groupOrder := by
  have : Std.Total SampleRows.groupOrder := by
    refine ⟨fun r r' => ?_⟩
    unfold SampleRows.groupOrder
    rcases lt_trichotomy r.promptGroupID r'.promptGroupID with hlt | heq | hgt
    · exact .inl (.inl hlt)
    · rcases le_total r.sampleID r'.sampleID with hle | hle
      · exact .inl (.inr ⟨heq, hle⟩)
      · exact .inr (.inr ⟨heq.symm, hle⟩)
    · exact .inr (.inl hgt)
  have : IsTrans SampleRecord SampleRows.groupOrder := by
    refine ⟨fun a b c hab hbc => ?_⟩
    unfold SampleRows.groupOrder at *
    rcases hab with hab | ⟨hab, hle⟩ <;> rcases hbc with hbc | ⟨hbc, hle'⟩
    · exact .inl (lt_trans hab hbc)
    · exact .inl (hbc ▸ hab)
    · exact .inl (hab ▸ hbc)
    · exact .inr ⟨hab.trans hbc, le_trans hle hle'⟩
  exact List.pairwise_insertionSort _ _

theorem pairwise_selected (t : SampleRows) (tenantID runID promptGroupID : String) :
    (t.selected tenantID runID promptGroupID).Pairwise fun r r' => r.sampleID ≤ r'.sampleID := by
  unfold SampleRows.selected
  refine List.Pairwise.imp_of_mem ?_ ((pairwise_groupOrder _).sublist List.filter_sublist)
  intro r r' hr hr' horder
  have hgroup := of_decide_eq_true (List.mem_filter.mp hr).2
  have hgroup' := of_decide_eq_true (List.mem_filter.mp hr').2
  rcases horder with hlt | ⟨-, hle⟩
  · rw [hgroup, hgroup'] at hlt
    exact absurd hlt (lt_irrefl _)
  · exact hle

theorem Mirrored.perm_selected (h : Mirrored m t) (tenantID runID promptGroupID : String) :
    (m.group tenantID runID promptGroupID).Perm (t.selected tenantID runID promptGroupID) := by
  unfold Samples.group SampleRows.selected
  exact ((h.available tenantID runID).trans (List.perm_insertionSort _ _).symm).filter _

theorem mem_selected (r : SampleRecord) (tenantID runID promptGroupID : String) :
    r ∈ t.selected tenantID runID promptGroupID ↔
      r ∈ t.values ∧ Samples.inGroup tenantID runID promptGroupID r = true := by
  unfold SampleRows.selected SampleRows.available Samples.inGroup
  rw [List.mem_filter, (List.perm_insertionSort _ _).mem_iff, List.mem_filter]
  simp only [Bool.and_eq_true, and_assoc]

theorem Mirrored.selected (h : Mirrored m t) (tenantID runID promptGroupID : String) :
    (m.group tenantID runID promptGroupID).insertionSort (fun r r' => r.sampleID ≤ r'.sampleID)
      = t.selected tenantID runID promptGroupID := by
  refine h.eq_of_sorted tenantID runID
    ((List.perm_insertionSort _ _).trans (h.perm_selected _ _ _)) (pairwise_sampleID _)
    (pairwise_selected _ _ _ _) fun r hr => ?_
  obtain ⟨hvalue, hin⟩ := (mem_selected r _ _ _).mp hr
  simp only [Samples.inGroup, Bool.and_eq_true, decide_eq_true_eq] at hin
  exact ⟨hvalue, hin.1.1⟩

theorem Mirrored.keys (h : Mirrored m t) (tenantID runID : String) (expected : Int) :
    m.completeGroups tenantID runID expected = t.keys tenantID runID expected := by
  unfold Samples.completeGroups SampleRows.keys
  have hsize : (fun g => decide (((m.group tenantID runID g).length : Int) = expected)) =
      fun g => decide (((t.selected tenantID runID g).length : Int) = expected) := by
    funext g
    rw [(h.perm_selected tenantID runID g).length_eq]
  have hgroups := (((h.available tenantID runID).trans
    (List.perm_insertionSort SampleRows.groupOrder _).symm).map SampleRecord.promptGroupID).dedup
  rw [hsize]
  refine List.Perm.eq_of_pairwise (fun _ _ _ _ => le_antisymm) (List.pairwise_insertionSort _ _)
    (List.pairwise_insertionSort _ _) ?_
  exact (List.perm_insertionSort _ _).trans
    ((hgroups.filter _).trans (List.perm_insertionSort _ _).symm)

end Listings

/-! ## Operations -/

section Operations

variable {m m' : Samples} {t t' : SampleRows}

theorem Mirrored.rewrite (h : Mirrored m t) {g : SampleRecord → SampleRecord}
    (hkey : ∀ r, (g r).key = r.key) (hidentity : ∀ r, (g r).identity = r.identity)
    (hm : ∀ k, m'.get k = (m.get k).map g)
    (ht : ∀ k, t'.get k = (t.get k).map g) : Mirrored m' t' :=
  Mirrors.map h hkey hidentity hm ht

theorem insertSample_agrees (h : Mirrored m t) {now : Int} {record : SampleRecord}
    (halike : Alike m (.insertSample now record)) :
    (m.insertSample record).1 = (t.insertSample now record).1 ∧
      Mirrored (m.insertSample record).2 (t.insertSample now record).2 := by
  obtain ⟨hidentity, hcreated⟩ := halike
  unfold Samples.insertSample SampleRows.insertSample
  cases hm : m.get record.key with
  | some existing =>
    -- the record that is there is the row that is there
    have hsame := hidentity existing hm
    have hkey := h.keyed _ _ hm
    rw [← hkey] at hm
    have ht := (h.same existing).mp hm
    rw [hsame] at ht
    rw [ht]
    exact ⟨rfl, h⟩
  | none =>
    cases ht : t.get record.identity with
    | some row =>
      have hidentity := h.keyed' _ _ ht
      rw [← hidentity] at ht
      have hrow := (h.same row).mpr ht
      have hkey : row.key = record.key := by
        unfold SampleRecord.identity at hidentity
        unfold SampleRecord.key
        rw [(Prod.mk.inj hidentity).1, (Prod.mk.inj (Prod.mk.inj hidentity).2).1,
          (Prod.mk.inj (Prod.mk.inj hidentity).2).2]
      rw [hkey, hm] at hrow
      cases hrow
    | none =>
      -- nothing is filled in, so both store the record as it is
      have hset : record.createdAt ≠ zeroTime := hcreated (by rw [hm]; rfl)
      rw [SampleRecord.created_of_ne hset]
      exact ⟨rfl, Mirrors.set h hm ht⟩

theorem releaseExpired_agrees (h : Mirrored m t) (now : Int) :
    (m.releaseExpired now).1 = (t.releaseExpired now).1 ∧
      Mirrored (m.releaseExpired now).2 (t.releaseExpired now).2 := by
  refine ⟨(h.perm.filter _).length_eq, ?_⟩
  refine h.rewrite (g := fun r =>
    if Samples.leaseExpired now r then r.unlease .available else r) ?_ ?_
    (fun k => FinMap.get_mapVal _ _ _) (fun k => FinMap.get_mapVal _ _ _)
  · intro r
    split <;> rfl
  · intro r
    split <;> rfl

theorem mem_of_named {r : SampleRecord} {rows : List SampleRecord}
    (h : r ∈ SampleRows.named rows) : r ∈ rows := by
  induction rows with
  | nil => cases h
  | cons first rows ih =>
    rw [SampleRows.named] at h
    split at h
    · exact List.mem_cons_of_mem first (ih h)
    · rcases List.mem_cons.mp h with rfl | hmem
      · exact List.mem_cons_self
      · exact List.mem_cons_of_mem first (ih (List.mem_of_mem_filter hmem))

/-- Rows with ids, whose keys are all written differently, are all named. -/
theorem named_eq_self {rows : List SampleRecord}
    (hid : ∀ r ∈ rows, r.identity ≠ ("", "", ""))
    (hkeys : rows.Pairwise fun r r' => r'.stringKey ≠ r.stringKey) :
    SampleRows.named rows = rows := by
  induction rows with
  | nil => rfl
  | cons r rows ih =>
    obtain ⟨hfirst, hrest⟩ := List.pairwise_cons.mp hkeys
    rw [SampleRows.named, if_neg (hid r List.mem_cons_self),
      ih (fun r' hr' => hid r' (List.mem_cons_of_mem r hr')) hrest]
    congr 1
    exact List.filter_eq_self.mpr fun r' hr' => decide_eq_true (hfirst r' hr')

theorem deleteExpired_agrees (h : Mirrored m t) {now : Int} (halike : Alike m (.deleteExpired now))
    {rows : List SampleRecord}
    (hrows : rows.Perm (t.values.filter (Samples.retentionExpired now))) :
    (m.deleteExpired now).1.Perm rows ∧ (t.deleteExpired rows).1 = (rows, .ok ()) ∧
      Mirrored (m.deleteExpired now).2 (t.deleteExpired rows).2 := by
  have hperm : (m.deleteExpired now).1.Perm rows := (h.perm.filter _).trans hrows.symm
  have hnodup : rows.Nodup := hrows.nodup_iff.mpr (h.nodup'.filter _)
  have hnamed : SampleRows.named rows = rows := by
    refine named_eq_self (fun r hr => (halike r (hperm.mem_iff.mpr hr)).1) ?_
    refine List.Pairwise.imp_of_mem ?_ hnodup
    intro r r' hr hr' hne hkey
    exact hne ((halike r (hperm.mem_iff.mpr hr)).2 r' (hperm.mem_iff.mpr hr') hkey.symm)
  have hkeep : (t.keep fun r => r ∉ rows) = t.keep fun r => !Samples.retentionExpired now r := by
    refine FinMap.keep_congr fun r hr => ?_
    rw [decide_not, Bool.eq_iff_iff, Bool.not_eq_true', Bool.not_eq_true', decide_eq_false_iff_not,
      hrows.mem_iff, List.mem_filter, and_iff_right hr, Bool.not_eq_true]
  unfold SampleRows.deleteExpired
  rw [hnamed, if_neg (fun hboth => hboth.1 hboth.2), hkeep]
  exact ⟨hperm, rfl, Mirrors.filter h fun r => !Samples.retentionExpired now r⟩

theorem Mirrored.claims_eq (h : Mirrored m t) {tenantID runID promptGroupID : String}
    {r : SampleRecord} (hr : r ∈ t.values) :
    SampleRows.claims tenantID runID
        ((t.selected tenantID runID promptGroupID).map SampleRecord.sampleID) r =
      Samples.inGroup tenantID runID promptGroupID r := by
  rw [Bool.eq_iff_iff]
  unfold SampleRows.claims
  simp only [Bool.and_eq_true, decide_eq_true_eq, List.contains_iff_mem]
  constructor
  · rintro ⟨⟨⟨htenant, hrun⟩, hid⟩, -⟩
    obtain ⟨r', hr', hsample⟩ := List.mem_map.mp hid
    obtain ⟨hvalue, hin⟩ := (mem_selected r' _ _ _).mp hr'
    have hin' := hin
    simp only [Samples.inGroup, Bool.and_eq_true, decide_eq_true_eq] at hin'
    rw [h.unique hr hvalue (htenant.trans hin'.1.1.1.symm) (hrun.trans hin'.1.1.2.symm)
      hsample.symm]
    exact hin
  · intro hin
    have hid : r.sampleID ∈ (t.selected tenantID runID promptGroupID).map SampleRecord.sampleID :=
      List.mem_map.mpr ⟨r, (mem_selected r _ _ _).mpr ⟨hr, hin⟩, rfl⟩
    simp only [Samples.inGroup, Bool.and_eq_true, decide_eq_true_eq] at hin
    exact ⟨⟨hin.1.1, hid⟩, hin.1.2⟩

theorem Mirrored.length_hit (h : Mirrored m t) (tenantID runID promptGroupID : String) :
    (t.values.filter (SampleRows.claims tenantID runID
      ((t.selected tenantID runID promptGroupID).map SampleRecord.sampleID))).length =
    (t.selected tenantID runID promptGroupID).length := by
  have hfilter : t.values.filter (SampleRows.claims tenantID runID
      ((t.selected tenantID runID promptGroupID).map SampleRecord.sampleID)) =
      t.values.filter (Samples.inGroup tenantID runID promptGroupID) :=
    List.filter_congr fun r hr => h.claims_eq hr
  have hselected : (t.selected tenantID runID promptGroupID).Perm
      (t.values.filter (Samples.inGroup tenantID runID promptGroupID)) := by
    unfold SampleRows.selected SampleRows.available
    refine ((List.perm_insertionSort _ _).filter _).trans ?_
    rw [List.filter_filter]
    refine List.Perm.of_eq (List.filter_congr fun r _ => ?_)
    unfold Samples.inGroup
    rw [Bool.and_comm]
  rw [hfilter, hselected.length_eq]

theorem claimGroup_agrees (h : Mirrored m t) (tenantID runID : String) (expected : Int)
    (leaseID owner : String) (expires : Int) :
    (m.claimGroup tenantID runID expected leaseID owner expires).1 =
        (t.claimGroup tenantID runID expected leaseID owner expires).1 ∧
      Mirrored (m.claimGroup tenantID runID expected leaseID owner expires).2
        (t.claimGroup tenantID runID expected leaseID owner expires).2 := by
  have hkeyed : m.Keyed := h.keyed
  have hgroups := h.keys tenantID runID expected
  cases hclaim : m.claimGroup tenantID runID expected leaseID owner expires with
  | mk answer m1 =>
    unfold SampleRows.claimGroup
    cases hkeys : t.keys tenantID runID expected with
    | nil =>
      unfold Samples.claimGroup at hclaim
      rw [hgroups, hkeys] at hclaim
      cases hclaim
      exact ⟨rfl, h⟩
    | cons group more =>
      have hsize : ((t.selected tenantID runID group).length : Int) = expected := by
        have hmem : group ∈ t.keys tenantID runID expected := by
          rw [hkeys]
          exact List.mem_cons_self
        unfold SampleRows.keys at hmem
        rw [List.mem_insertionSort, List.mem_filter] at hmem
        exact of_decide_eq_true hmem.2
      -- the lease that the in-memory store grants
      have hanswer : answer = .ok ⟨leaseID, owner, runID, group,
          (t.selected tenantID runID group).map fun r => r.lease leaseID owner expires,
          expires⟩ := by
        have hfirst := congrArg Prod.fst hclaim
        unfold Samples.claimGroup at hfirst
        rw [hgroups, hkeys] at hfirst
        dsimp only at hfirst
        rw [h.selected] at hfirst
        exact hfirst.symm
      subst hanswer
      have hgrants := Samples.grants_of_claimGroup hkeyed hclaim
      have hrows : ((t.values.filter (SampleRows.claims tenantID runID
          ((t.selected tenantID runID group).map SampleRecord.sampleID))).length : Int) =
          expected := by
        rw [h.length_hit]
        exact hsize
      dsimp only
      rw [if_neg (not_not.mpr hrows)]
      refine ⟨rfl, ?_⟩
      refine h.rewrite (g := fun r => if Samples.inGroup tenantID runID group r then
        r.lease leaseID owner expires else r) ?_ ?_ hgrants.stored ?_
      · intro r
        split <;> rfl
      · intro r
        split <;> rfl
      · intro k
        rw [FinMap.get_mapVal]
        refine Option.map_congr fun r hr => ?_
        rw [h.claims_eq (FinMap.mem_values_iff.mpr ⟨k, hr⟩)]

/-- What a finished lease does to a record, if the caller holds the whole lease. -/
def finished (leaseID : String) (ack : Bool) (reason : String) (r : SampleRecord) : SampleRecord :=
  if r.leaseID = leaseID then r.unlease (Samples.finishedState ack reason) else r

variable {order : List String}

/-- The loop of `FinishLease` over a lease that the caller holds goes through. -/
theorem finishLoop_of_held {leaseID owner : String} {now : Int} (ack : Bool) (reason : String)
    (found : Bool) (hnodup : order.Nodup)
    (hheld : ∀ k ∈ order, ∀ r, m.get k = some r → r.leaseID = leaseID → r.HeldBy owner now) :
    (Samples.finishLoop leaseID owner ack reason (order.map fun k => (k, now)) found m).1 =
        (if found || order.any (fun k => (m.get k).any fun r => r.leaseID = leaseID) then .ok ()
        else .error .leaseLost) ∧
      ∀ k, (Samples.finishLoop leaseID owner ack reason (order.map fun k => (k, now)) found
        m).2.get k =
          if k ∈ order then (m.get k).map (finished leaseID ack reason) else m.get k := by
  induction order generalizing found m with
  | nil =>
    refine ⟨?_, fun k => rfl⟩
    simp [Samples.finishLoop]
  | cons id order ih =>
    rw [List.nodup_cons] at hnodup
    have hrest : ∀ k ∈ order, ∀ r, m.get k = some r → r.leaseID = leaseID →
        r.HeldBy owner now := fun k hk => hheld k (List.mem_cons_of_mem id hk)
    -- a record without the lease id is passed over
    have hskip : (m.get id).any (fun r => r.leaseID = leaseID) = false → ∀ k,
        (if k ∈ order then (m.get k).map (finished leaseID ack reason) else m.get k) =
          if k ∈ id :: order then (m.get k).map (finished leaseID ack reason) else m.get k := by
      intro hnot k
      by_cases hk : k = id
      · subst hk
        rw [if_neg hnodup.1, if_pos List.mem_cons_self]
        cases hrow : m.get k with
        | none => rfl
        | some r =>
          rw [hrow, Option.any_some, decide_eq_false_iff_not] at hnot
          rw [Option.map_some, finished, if_neg hnot]
      · simp only [List.mem_cons, hk, false_or]
    rw [List.map_cons, List.any_cons]
    simp only [Samples.finishLoop]
    split
    · rename_i hnone
      have hnot : (m.get id).any (fun r => decide (r.leaseID = leaseID)) = false := by
        rw [hnone]
        rfl
      obtain ⟨hresult, hget⟩ := ih found hnodup.2 hrest
      exact ⟨by rw [hresult, hnot, Bool.false_or], fun k => (hget k).trans (hskip hnot k)⟩
    · rename_i record hrow
      split
      · rename_i hlease
        have hnot : (m.get id).any (fun r => decide (r.leaseID = leaseID)) = false := by
          rw [hrow, Option.any_some, decide_eq_false_iff_not]
          exact hlease
        obtain ⟨hresult, hget⟩ := ih found hnodup.2 hrest
        exact ⟨by rw [hresult, hnot, Bool.false_or], fun k => (hget k).trans (hskip hnot k)⟩
      · rename_i hlease
        rw [not_not] at hlease
        obtain ⟨howner, hexpiry⟩ := hheld id List.mem_cons_self record hrow hlease
        rw [if_neg (by rw [not_or, not_not]; exact ⟨howner, not_lt.mpr hexpiry⟩)]
        have hhit : (m.get id).any (fun r => decide (r.leaseID = leaseID)) = true := by
          rw [hrow, Option.any_some, decide_eq_true_eq]
          exact hlease
        have hother : ∀ k ∈ order,
            (m.set id (record.unlease (Samples.finishedState ack reason))).get k = m.get k := by
          intro k hk
          refine FinMap.get_set_ne _ _ ?_
          rintro rfl
          exact hnodup.1 hk
        have hrest' : ∀ k ∈ order, ∀ r,
            (m.set id (record.unlease (Samples.finishedState ack reason))).get k = some r →
              r.leaseID = leaseID → r.HeldBy owner now :=
          fun k hk r hr => hrest k hk r ((hother k hk).symm.trans hr)
        obtain ⟨hresult, hget⟩ := ih true hnodup.2 hrest'
        refine ⟨by rw [hresult, hhit, Bool.true_or, Bool.true_or, Bool.or_true], fun k => ?_⟩
        rw [hget k]
        by_cases hk : k = id
        · subst hk
          rw [if_neg hnodup.1, if_pos List.mem_cons_self, FinMap.get_set_self, hrow,
            Option.map_some, finished, if_pos hlease]
        · simp only [List.mem_cons, hk, false_or]
          split
          · rename_i hmem
            rw [hother k hmem]
          · exact FinMap.get_set_ne _ _ hk

/-- The loop of `FinishLease` stops at the first record of a lease that the caller does not
hold. -/
theorem finishLoop_of_not_held {leaseID owner reason : String} {ack : Bool} {now : Int}
    (hnot : ∀ k ∈ order, ∀ r, m.get k = some r → r.leaseID = leaseID → ¬r.HeldBy owner now) :
    Samples.finishLoop leaseID owner ack reason (order.map fun k => (k, now)) false m =
      (.error .leaseLost, m) := by
  induction order with
  | nil => rfl
  | cons id order ih =>
    have hrest := ih fun k hk => hnot k (List.mem_cons_of_mem id hk)
    rw [List.map_cons]
    simp only [Samples.finishLoop]
    split
    · exact hrest
    · rename_i record hrow
      split
      · exact hrest
      · rename_i hlease
        rw [not_not] at hlease
        refine if_pos ?_
        by_contra hheld
        rw [not_or, not_not, not_lt] at hheld
        exact hnot id List.mem_cons_self record hrow hlease hheld

/-- Both stores hold the same records, so they agree on whether one has a property. -/
theorem Mirrored.any_eq (h : Mirrored m t) (horder : order.Perm m.keys) (P : SampleRecord → Bool) :
    (order.any fun k => (m.get k).any P) = t.values.any P := by
  rw [Bool.eq_iff_iff, List.any_eq_true, List.any_eq_true]
  constructor
  · rintro ⟨k, -, hk⟩
    obtain ⟨r, hrow, hr⟩ := (Option.any_eq_true _ _).mp hk
    exact ⟨r, h.mem_values.mp (FinMap.mem_values_iff.mpr ⟨k, hrow⟩), hr⟩
  · rintro ⟨r, hr, hP⟩
    obtain ⟨k, hk⟩ := FinMap.mem_values_iff.mp (h.mem_values.mpr hr)
    refine ⟨k, horder.mem_iff.mpr (FinMap.mem_keys_of_get hk), ?_⟩
    rw [hk]
    exact hP

section Finish

variable {now : Int} {leaseID owner reason : String} {ack : Bool}

/-- If the caller holds the whole lease, both stores finish all of it. -/
theorem finishLease_agrees_of_held (h : Mirrored m t) (horder : order.Perm m.keys)
    (hall : ∀ r ∈ m.values, r.leaseID = leaseID → r.leaseOwner = owner ∧ now < r.leaseExpiresAt) :
    (m.finishLease (order.map fun k => (k, now)) leaseID owner ack reason).1 =
        (t.finishLease now leaseID owner ack reason).1 ∧
      Mirrored (m.finishLease (order.map fun k => (k, now)) leaseID owner ack reason).2
        (t.finishLease now leaseID owner ack reason).2 := by
  have hheld : ∀ k ∈ order, ∀ r, m.get k = some r → r.leaseID = leaseID → r.HeldBy owner now := by
    intro k _ r hrow hlease
    obtain ⟨howner, hexpiry⟩ := hall r (FinMap.mem_values_iff.mpr ⟨k, hrow⟩) hlease
    exact ⟨howner, le_of_lt hexpiry⟩
  obtain ⟨hresult, hget⟩ :=
    finishLoop_of_held ack reason false (horder.nodup_iff.mpr m.keys_nodup) hheld
  have hfinishes : ∀ r ∈ t.values,
      SampleRows.finishes leaseID owner now r = decide (r.leaseID = leaseID) := by
    intro r hr
    unfold SampleRows.finishes
    by_cases hlease : r.leaseID = leaseID
    · obtain ⟨howner, hexpiry⟩ := hall r (h.mem_values.mpr hr) hlease
      simp [hlease, howner, hexpiry]
    · simp [hlease]
  unfold Samples.finishLease SampleRows.finishLease
  refine ⟨?_, ?_⟩
  · rw [hresult, Bool.false_or, h.any_eq horder, List.filter_congr hfinishes]
    cases hany : t.values.any fun r => decide (r.leaseID = leaseID) with
    | true =>
      obtain ⟨r, hr, hlease⟩ := List.any_eq_true.mp hany
      have hhit : r ∈ t.values.filter fun r => decide (r.leaseID = leaseID) :=
        List.mem_filter.mpr ⟨hr, hlease⟩
      rw [if_pos rfl, if_neg (List.length_pos_of_mem hhit).ne']
    | false =>
      rw [List.filter_eq_nil_iff.mpr (List.any_eq_false.mp hany)]
      rfl
  · refine h.rewrite (g := finished leaseID ack reason) ?_ ?_ (fun k => ?_) (fun k => ?_)
    · intro r
      unfold finished
      split <;> rfl
    · intro r
      unfold finished
      split <;> rfl
    · rw [hget k]
      split
      · rfl
      · rename_i hnot
        cases hrow : m.get k with
        | none => rfl
        | some r => exact absurd (horder.mem_iff.mpr (FinMap.mem_keys_of_get hrow)) hnot
    · rw [FinMap.get_mapVal]
      refine Option.map_congr fun r hr => ?_
      rw [hfinishes r (FinMap.mem_values_iff.mpr ⟨k, hr⟩)]
      unfold finished
      simp only [decide_eq_true_eq]

/-- If the caller holds no record of the lease, both stores turn the call away. -/
theorem finishLease_agrees_of_not_held (h : Mirrored m t)
    (hnone : ∀ r ∈ m.values, r.leaseID = leaseID → ¬r.HeldBy owner now) :
    (m.finishLease (order.map fun k => (k, now)) leaseID owner ack reason).1 =
        (t.finishLease now leaseID owner ack reason).1 ∧
      Mirrored (m.finishLease (order.map fun k => (k, now)) leaseID owner ack reason).2
        (t.finishLease now leaseID owner ack reason).2 := by
  have hfinishes : ∀ r ∈ t.values, SampleRows.finishes leaseID owner now r = false := by
    intro r hr
    unfold SampleRows.finishes
    rw [Bool.eq_false_iff]
    intro hhit
    simp only [Bool.and_eq_true, decide_eq_true_eq] at hhit
    exact hnone r (h.mem_values.mpr hr) hhit.1.1 ⟨hhit.1.2, le_of_lt hhit.2⟩
  unfold Samples.finishLease SampleRows.finishLease
  rw [finishLoop_of_not_held fun k _ r hrow => hnone r (FinMap.mem_values_iff.mpr ⟨k, hrow⟩)]
  refine ⟨?_, ?_⟩
  · rw [List.filter_eq_nil_iff.mpr fun r hr => by rw [hfinishes r hr]; exact Bool.false_ne_true]
    rfl
  · refine h.rewrite (g := id) (fun _ => rfl) (fun _ => rfl)
      (fun k => by rw [Option.map_id]; rfl) ?_
    intro k
    rw [FinMap.get_mapVal]
    refine Option.map_congr fun r hr => ?_
    rw [hfinishes r (FinMap.mem_values_iff.mpr ⟨k, hr⟩)]
    rfl

end Finish

end Operations

/-! ## Runs -/

/-- Calls on which the stores agree keep them the same, and are answered alike. -/
theorem agree_step {s s' : Samples × SampleRows} {c : Compared} (h : Mirrored s.1 s.2)
    (hstep : Compares s c s') (halike : Alike s.1 c.call) :
    Mirrored s'.1 s'.2 ∧ c.call.SameResult c.memory c.sql := by
  obtain ⟨m, t⟩ := s
  obtain ⟨m', t'⟩ := s'
  obtain ⟨call, memory, sql⟩ := c
  obtain ⟨hmemory, hsql⟩ := hstep
  cases call with
  | insertSample now record =>
    obtain ⟨rfl, rfl⟩ := Prod.mk.inj hmemory
    obtain ⟨rfl, rfl⟩ := Prod.mk.inj hsql
    exact (insertSample_agrees h halike).symm
  | countAvailableGroups tenantID runID =>
    obtain ⟨rfl, rfl⟩ := hmemory
    obtain ⟨rfl, rfl⟩ := hsql
    exact ⟨h, h.countAvailableGroups tenantID runID⟩
  | claimGroup tenantID runID expected leaseID owner expires =>
    obtain ⟨rfl, rfl⟩ := Prod.mk.inj hmemory
    obtain ⟨rfl, rfl⟩ := Prod.mk.inj hsql
    exact (claimGroup_agrees h tenantID runID expected leaseID owner expires).symm
  | finishLease now leaseID owner ack reason =>
    obtain ⟨order, horder, hmemory⟩ := hmemory
    obtain ⟨rfl, rfl⟩ := Prod.mk.inj hmemory
    obtain ⟨rfl, rfl⟩ := Prod.mk.inj hsql
    rcases halike with hall | hnone
    · exact (finishLease_agrees_of_held h horder hall).symm
    · exact (finishLease_agrees_of_not_held h hnone).symm
  | releaseExpired now =>
    obtain ⟨rfl, rfl⟩ := Prod.mk.inj hmemory
    obtain ⟨rfl, rfl⟩ := Prod.mk.inj hsql
    exact (releaseExpired_agrees h now).symm
  | deleteExpired now =>
    obtain ⟨hperm, hok, rfl⟩ := hmemory
    obtain ⟨rows, hrows, hsql⟩ := hsql
    obtain ⟨hanswer, rfl⟩ := Prod.mk.inj hsql
    obtain ⟨hdeleted, hresult, hmirrored⟩ := deleteExpired_agrees h halike hrows
    obtain rfl : sql = (rows, .ok ()) := hanswer.trans hresult
    exact ⟨hmirrored, hperm.trans hdeleted, hok⟩
  | listRun tenantID runID =>
    obtain ⟨rfl, rfl⟩ := hmemory
    obtain ⟨rfl, rfl⟩ := hsql
    exact ⟨h, h.listRun tenantID runID⟩

/-- In every sequence of calls that all meet the condition, the two stores return the same
results. -/
theorem stores_agree (calls : List Compared) (s : Samples × SampleRows)
    (hrun : Run (Guarded Compares fun s c => Alike s.1 c.call) (∅, ∅) calls s) :
    ∀ c ∈ calls, c.call.SameResult c.memory c.sql := by
  have hall : Mirrored s.1 s.2 ∧ ∀ c ∈ calls, c.call.SameResult c.memory c.sql := by
    induction hrun with
    | nil => exact ⟨Mirrors.empty _ _, fun c hc => by cases hc⟩
    | snoc _ hlast ih =>
      obtain ⟨hmirrored, hresult⟩ := agree_step ih.1 hlast.1 hlast.2
      refine ⟨hmirrored, fun c hc => ?_⟩
      rcases List.mem_append.mp hc with hmem | hmem
      · exact ih.2 c hmem
      · cases List.mem_singleton.mp hmem
        exact hresult
  exact hall.2

def plainRecord : SampleRecord where
  tenantID := "t"
  projectID := "p"
  sampleID := "s"
  runID := "r"
  promptGroupID := "g"
  policyVersion := "v"
  blobKey := "samples/t/r/g-sum.json"
  checksum := "sum"
  state := .available
  createdAt := 1
  expiresAt := 100

def stored : Samples × SampleRows :=
  (((∅ : Samples).insertSample plainRecord).2, ((∅ : SampleRows).insertSample 1 plainRecord).2)

def leased : Samples × SampleRows :=
  ((stored.1.claimGroup "t" "r" 1 "lease-0" "owner" 10).2,
    (stored.2.claimGroup "t" "r" 1 "lease-0" "owner" 10).2)

/-- The sample is stored and claimed, by calls that meet the condition. -/
theorem run_leased :
    ∃ calls : List Compared, calls.map Compared.call =
        [.insertSample 1 plainRecord, .claimGroup "t" "r" 1 "lease-0" "owner" 10] ∧
      Run (Guarded Compares fun s c => Alike s.1 c.call) (∅, ∅) calls leased := by
  have hstored : Compares (∅, ∅) ⟨.insertSample 1 plainRecord, _, _⟩ stored := ⟨rfl, rfl⟩
  have hleased : Compares stored ⟨.claimGroup "t" "r" 1 "lease-0" "owner" 10, _, _⟩ leased :=
    ⟨rfl, rfl⟩
  exact ⟨_, rfl, .snoc (.snoc .nil ⟨hstored, by decide +kernel⟩) ⟨hleased, trivial⟩⟩

/-- What a `FinishLease` at `now` returns and leaves in the two stores. -/
def finishing (now : Int) : (Except Error Unit × Samples) × (Except Error Unit × SampleRows) :=
  (leased.1.finishLease (leased.1.keys.map fun k => (k, now)) "lease-0" "owner" true "",
    leased.2.finishLease now "lease-0" "owner" true "")

theorem compares_finishing (now : Int) :
    Compares leased ⟨.finishLease now "lease-0" "owner" true "", (finishing now).1.1,
      (finishing now).2.1⟩ ((finishing now).1.2, (finishing now).2.2) :=
  ⟨⟨leased.1.keys, List.Perm.refl _, rfl⟩, rfl⟩

def consumed : Samples × SampleRows := ((finishing 9).1.2, (finishing 9).2.2)

/-- The sample is stored, claimed, consumed in time and deleted. -/
theorem stores_agree_inTime :
    ∃ calls : List Compared, calls.map Compared.call = [.insertSample 1 plainRecord,
        .claimGroup "t" "r" 1 "lease-0" "owner" 10, .finishLease 9 "lease-0" "owner" true "",
        .deleteExpired 100] ∧
      ∀ c ∈ calls, c.call.SameResult c.memory c.sql := by
  obtain ⟨calls, hcalls, hrun⟩ := run_leased
  have hdeleted : Compares consumed ⟨.deleteExpired 100, (_, .ok ()), _⟩ (_, _) :=
    ⟨⟨.refl _, rfl, rfl⟩, ⟨_, .refl _, rfl⟩⟩
  refine ⟨_, ?_, stores_agree _ _ (.snoc (.snoc hrun ⟨compares_finishing 9, ?_⟩) ⟨hdeleted, ?_⟩)⟩
  · rw [List.map_append, List.map_append, hcalls]
    rfl
  · decide +kernel
  · decide +kernel

/-- A lease that is finished at its very expiry is finished in memory and lost in SQL. -/
theorem stores_differ :
    ∃ calls s s', Run Compares (∅, ∅) calls s ∧
      Compares s ⟨.finishLease 10 "lease-0" "owner" true "", .ok (), .error .leaseLost⟩ s' := by
  obtain ⟨calls, -, hrun⟩ := run_leased
  have hmemory : (finishing 10).1.1 = .ok () := by decide +kernel
  have hsql : (finishing 10).2.1 = .error .leaseLost := by decide +kernel
  have hfinish := compares_finishing 10
  rw [hmemory, hsql] at hfinish
  exact ⟨calls, leased, _, hrun.of_guarded, hfinish⟩

end DataPlane
end Skyscale
