import Mathlib.Data.List.Dedup
import Mathlib.Data.List.Sort
import Mathlib.Data.String.Basic
import Skyscale.Contracts.Sample
import Skyscale.Lib.Bytes

/-!
# Sample records and the in-memory stores

The metadata of grouped samples and the operations of `MemoryMetadataStore` and
`MemoryBlobStore` in `control-plane/dataplane/store.go`.  Every operation holds the
mutex of its store from its first line to its last, so each is one function.

The records of a group are sorted by their sample id, and a claim takes the first
complete group in the order of the group ids, so the iteration order of the map does not
show in a claim.  It does show in `FinishLease`, which stops at the first record that is
not held by the caller: there the order, and the clock reading at each record, are
arguments.
-/

namespace Skyscale
namespace DataPlane

open Lib Contracts

/-! ## Records -/

inductive SampleState
  | available
  | leased
  | consumed
  | quarantined
deriving DecidableEq

/-- The zero `time.Time`; every reading of the clock is later. -/
def zeroTime : Int := 0

structure SampleRecord where
  tenantID : String
  projectID : String
  sampleID : String
  runID : String
  promptGroupID : String
  policyVersion : String
  blobKey : String
  checksum : String
  state : SampleState
  createdAt : Int
  expiresAt : Int
  leaseID : String := ""
  leaseOwner : String := ""
  leaseExpiresAt : Int := zeroTime
deriving DecidableEq

structure Lease where
  id : String
  owner : String
  runID : String
  promptGroupID : String
  samples : List SampleRecord
  expiresAt : Int
deriving DecidableEq

/-- The errors of the stores; those made elsewhere carry their text. -/
inductive Error
  | duplicateConflict
  | backpressure
  | noCompleteGroup
  | leaseLost
  | blobNotFound
  | other (text : String)
deriving DecidableEq

def Error.text : Error → String
  | duplicateConflict => "sample id already exists with different content"
  | backpressure => "sample high watermark reached"
  | noCompleteGroup => "no complete sample group available"
  | leaseLost => "lease is missing, expired, or owned by another consumer"
  | blobNotFound => "blob not found"
  | other text => text

def sampleKey (tenantID runID sampleID : String) : String :=
  tenantID ++ "\x00" ++ runID ++ "\x00" ++ sampleID

namespace SampleRecord

/-- The key a record is stored under. -/
def key (r : SampleRecord) : String := sampleKey r.tenantID r.runID r.sampleID

/-- The record under a lease. -/
def lease (r : SampleRecord) (leaseID owner : String) (expires : Int) : SampleRecord :=
  { r with state := .leased, leaseID := leaseID, leaseOwner := owner, leaseExpiresAt := expires }

/-- The record in another state and without a lease. -/
def unlease (r : SampleRecord) (state : SampleState) : SampleRecord :=
  { r with state := state, leaseID := "", leaseOwner := "", leaseExpiresAt := zeroTime }

@[simp]
theorem key_lease (r : SampleRecord) (leaseID owner : String) (expires : Int) :
    (r.lease leaseID owner expires).key = r.key := rfl

@[simp]
theorem key_unlease (r : SampleRecord) (state : SampleState) : (r.unlease state).key = r.key := rfl

end SampleRecord

/-- The key format of `Put`. -/
def putKey (tenantID runID promptGroupID checksum : String) : String :=
  "samples/" ++ tenantID ++ "/" ++ runID ++ "/" ++ promptGroupID ++ "-" ++ checksum ++ ".json"

/-! ## The metadata store -/

/-- The map of `MemoryMetadataStore`. -/
abbrev Samples : Type := FinMap String SampleRecord

namespace Samples

/-- The answer says whether the record was inserted; if not, it gives the one that is
there. -/
def insertSample (m : Samples) (record : SampleRecord) : (SampleRecord × Bool) × Samples :=
  match m.get record.key with
  | some existing => ((existing, false), m)
  | none => ((record, true), m.set record.key record)

/-- The available records of a run. -/
def available (m : Samples) (tenantID runID : String) : List SampleRecord :=
  m.values.filter fun r =>
    r.tenantID = tenantID && r.runID = runID && r.state = SampleState.available

def countAvailableGroups (m : Samples) (tenantID runID : String) : Nat :=
  ((m.available tenantID runID).map SampleRecord.promptGroupID).dedup.length

/-- The available records of a prompt group. -/
def group (m : Samples) (tenantID runID promptGroupID : String) : List SampleRecord :=
  (m.available tenantID runID).filter fun r => r.promptGroupID = promptGroupID

/-- The prompt groups with as many available records as expected, sorted. -/
def completeGroups (m : Samples) (tenantID runID : String) (expected : Int) : List String :=
  (((m.available tenantID runID).map SampleRecord.promptGroupID).dedup.filter fun g =>
    ((m.group tenantID runID g).length : Int) = expected).insertionSort (· ≤ ·)

def claimGroup (m : Samples) (tenantID runID : String) (expected : Int) (leaseID owner : String)
    (expires : Int) : Except Error Lease × Samples :=
  match m.completeGroups tenantID runID expected with
  | [] => (.error .noCompleteGroup, m)
  | promptGroupID :: _ =>
    let records := (m.group tenantID runID promptGroupID).insertionSort fun r r' =>
      r.sampleID ≤ r'.sampleID
    let leased := records.map fun r => r.lease leaseID owner expires
    (.ok ⟨leaseID, owner, runID, promptGroupID, leased, expires⟩,
      leased.foldl (fun m r => m.set r.key r) m)

/-- The state a finished lease leaves a record in. -/
def finishedState (ack : Bool) (reason : String) : SampleState :=
  if ack then .consumed
  else if reason = "malformed sample" ∨ "quarantine:".toList.isPrefixOf reason.toList then
    .quarantined
  else
    .available

/-- The loop of `FinishLease`: the keys in the order they are visited, each with the
reading of the clock there. -/
def finishLoop (leaseID owner : String) (ack : Bool) (reason : String) :
    List (String × Int) → Bool → Samples → Except Error Unit × Samples
  | [], found, m => (if found then .ok () else .error .leaseLost, m)
  | (id, now) :: visits, found, m =>
    match m.get id with
    | none => finishLoop leaseID owner ack reason visits found m
    | some record =>
      if record.leaseID ≠ leaseID then finishLoop leaseID owner ack reason visits found m
      else if record.leaseOwner ≠ owner ∨ record.leaseExpiresAt < now then
        (.error .leaseLost, m)
      else
        finishLoop leaseID owner ack reason visits true
          (m.set id (record.unlease (finishedState ack reason)))

def finishLease (m : Samples) (visits : List (String × Int)) (leaseID owner : String) (ack : Bool)
    (reason : String) : Except Error Unit × Samples :=
  finishLoop leaseID owner ack reason visits false m

/-- The lease of the record has run out. -/
def leaseExpired (now : Int) (r : SampleRecord) : Bool :=
  r.state = SampleState.leased && r.leaseExpiresAt ≤ now

/-- The answer is the number of records released. -/
def releaseExpired (m : Samples) (now : Int) : Nat × Samples :=
  ((m.values.filter (leaseExpired now)).length,
    m.mapVal fun _ r => if leaseExpired now r then r.unlease .available else r)

/-- The record is past its retention and not leased. -/
def retentionExpired (now : Int) (r : SampleRecord) : Bool :=
  r.state ≠ SampleState.leased && r.expiresAt ≤ now

/-- The answer lists the records deleted. -/
def deleteExpired (m : Samples) (now : Int) : List SampleRecord × Samples :=
  (m.values.filter (retentionExpired now), m.keep fun r => !retentionExpired now r)

/-- The records of a run. -/
def listRun (m : Samples) (tenantID runID : String) : List SampleRecord :=
  (m.values.filter fun r => r.tenantID = tenantID && r.runID = runID).insertionSort fun r r' =>
    r.sampleID ≤ r'.sampleID

end Samples

/-! ## The blob store -/

/-- The maps of `MemoryBlobStore`. -/
structure Blobs where
  data : FinMap String Bytes
  checksums : FinMap String String

namespace Blobs

def putIfAbsent (b : Blobs) (key : String) (value : Bytes) (checksum : String) :
    Except Error Unit × Blobs :=
  if (b.checksums.get key).any (· ≠ checksum) then (.error .duplicateConflict, b)
  else
    match b.data.get key with
    | some _ => (.ok (), b)
    | none => (.ok (), ⟨b.data.set key value, b.checksums.set key checksum⟩)

def get (b : Blobs) (key : String) : Except Error Bytes :=
  match b.data.get key with
  | none => .error .blobNotFound
  | some value => .ok value

def delete (b : Blobs) (key : String) : Blobs := ⟨b.data.del key, b.checksums.del key⟩

end Blobs

/-! ## Records in the order of their sample ids -/

theorem pairwise_sampleID (rs : List SampleRecord) :
    (rs.insertionSort fun r r' => r.sampleID ≤ r'.sampleID).Pairwise fun r r' =>
      r.sampleID ≤ r'.sampleID := by
  have : Std.Total fun r r' : SampleRecord => r.sampleID ≤ r'.sampleID :=
    ⟨fun r r' => le_total r.sampleID r'.sampleID⟩
  have : IsTrans SampleRecord fun r r' => r.sampleID ≤ r'.sampleID := ⟨fun _ _ _ => le_trans⟩
  exact List.pairwise_insertionSort _ _

/-! ## What the operations do to the record under a key -/

namespace Samples

variable {m : Samples} {tenantID runID : String} {r : SampleRecord}

theorem mem_available_iff :
    r ∈ m.available tenantID runID ↔
      (∃ k, m.get k = some r) ∧ r.tenantID = tenantID ∧ r.runID = runID ∧ r.state = .available := by
  unfold available
  rw [List.mem_filter, FinMap.mem_values_iff]
  simp [and_assoc]

theorem mem_group_iff {promptGroupID : String} :
    r ∈ m.group tenantID runID promptGroupID ↔
      ((∃ k, m.get k = some r) ∧ r.tenantID = tenantID ∧ r.runID = runID ∧
        r.state = .available) ∧ r.promptGroupID = promptGroupID := by
  unfold group
  rw [List.mem_filter, mem_available_iff]
  simp

/-- Every record is stored under its own key. -/
def Keyed (m : Samples) : Prop := ∀ k r, m.get k = some r → r.key = k

theorem get_insertSample (m : Samples) (record : SampleRecord) (k : String) :
    (m.insertSample record).2.get k =
      if k = record.key then some ((m.get record.key).getD record) else m.get k := by
  unfold insertSample
  split
  · rename_i existing hexisting
    rw [hexisting]
    split
    · rename_i hk
      rw [hk, hexisting]
      rfl
    · rfl
  · rename_i hnone
    rw [hnone, FinMap.get_set]
    rfl

theorem Keyed.nodup_values (hkeyed : m.Keyed) :
    (m.values.map SampleRecord.key).Nodup := by
  have hkeys : m.values.map SampleRecord.key = m.keys := by
    unfold FinMap.values FinMap.keys
    show _ = (AList.entries m).map Sigma.fst
    rw [List.map_map]
    refine List.map_congr_left fun e he => ?_
    exact hkeyed e.1 e.2 (FinMap.mem_entries_iff.mp he)
  rw [hkeys]
  exact m.keys_nodup

theorem Keyed.nodup_group (hkeyed : m.Keyed) (tenantID runID promptGroupID : String) :
    ((m.group tenantID runID promptGroupID).map SampleRecord.key).Nodup := by
  refine hkeyed.nodup_values.sublist (List.Sublist.map _ ?_)
  exact List.filter_sublist.trans List.filter_sublist

theorem get_foldl_set_of_notMem {rs : List SampleRecord} {k : String}
    (h : k ∉ rs.map SampleRecord.key) :
    (rs.foldl (fun m r => m.set r.key r) m).get k = m.get k := by
  induction rs generalizing m with
  | nil => rfl
  | cons r rs ih =>
    rw [List.map_cons, List.mem_cons, not_or] at h
    rw [List.foldl_cons, ih h.2, FinMap.get_set_ne _ _ h.1]

theorem get_foldl_set_of_mem {rs : List SampleRecord} (hnodup : (rs.map SampleRecord.key).Nodup)
    (h : r ∈ rs) :
    (rs.foldl (fun m r => m.set r.key r) m).get r.key = some r := by
  induction rs generalizing m with
  | nil => cases h
  | cons r' rs ih =>
    rw [List.map_cons, List.nodup_cons] at hnodup
    rw [List.foldl_cons]
    rcases List.mem_cons.mp h with rfl | hmem
    · rw [get_foldl_set_of_notMem hnodup.1, FinMap.get_set_self]
    · exact ih hnodup.2 hmem

/-- The record under a key belongs to an available group. -/
def inGroup (tenantID runID promptGroupID : String) (r : SampleRecord) : Bool :=
  r.tenantID = tenantID && r.runID = runID && r.state = SampleState.available &&
    r.promptGroupID = promptGroupID

/-- A claim that succeeds leases the available records of one group, as many as
expected, and leaves the others. -/
structure Grants (m : Samples) (tenantID runID : String) (expected : Int) (leaseID owner : String)
    (expires : Int) (lease : Lease) (m' : Samples) : Prop where
  header : lease.id = leaseID ∧ lease.owner = owner ∧ lease.runID = runID ∧
    lease.expiresAt = expires
  size : (lease.samples.length : Int) = expected
  nodup : (lease.samples.map SampleRecord.key).Nodup
  samples : ∀ r', r' ∈ lease.samples ↔ ∃ k r, m.get k = some r ∧
    inGroup tenantID runID lease.promptGroupID r ∧ r' = r.lease leaseID owner expires
  stored : ∀ k, m'.get k = (m.get k).map fun r =>
    if inGroup tenantID runID lease.promptGroupID r then r.lease leaseID owner expires else r

theorem inGroup_iff_mem_group {promptGroupID k : String} (h : m.get k = some r) :
    inGroup tenantID runID promptGroupID r ↔ r ∈ m.group tenantID runID promptGroupID := by
  rw [mem_group_iff]
  simp only [inGroup, Bool.and_eq_true, decide_eq_true_eq]
  constructor
  · rintro ⟨⟨⟨htenant, hrun⟩, hstate⟩, hgroup⟩
    exact ⟨⟨⟨k, h⟩, htenant, hrun, hstate⟩, hgroup⟩
  · rintro ⟨⟨_, htenant, hrun, hstate⟩, hgroup⟩
    exact ⟨⟨⟨htenant, hrun⟩, hstate⟩, hgroup⟩

theorem grants_of_claimGroup {m' : Samples} {leaseID owner : String} {expected expires : Int}
    {lease : Lease} (hkeyed : m.Keyed)
    (h : m.claimGroup tenantID runID expected leaseID owner expires = (.ok lease, m')) :
    Grants m tenantID runID expected leaseID owner expires lease m' := by
  unfold claimGroup at h
  split at h
  · cases h
  rename_i promptGroupID more hgroups
  cases h
  -- the records that are leased, in the order of the source
  have hperm := List.perm_insertionSort (fun r r' : SampleRecord => r.sampleID ≤ r'.sampleID)
    (m.group tenantID runID promptGroupID)
  have hmem : ∀ r', r' ∈ ((m.group tenantID runID promptGroupID).insertionSort fun r r' =>
      r.sampleID ≤ r'.sampleID).map (fun r => r.lease leaseID owner expires) ↔
      ∃ r ∈ m.group tenantID runID promptGroupID, r' = r.lease leaseID owner expires := by
    intro r'
    rw [List.mem_map]
    exact ⟨fun ⟨r, hr, heq⟩ => ⟨r, hperm.mem_iff.mp hr, heq.symm⟩,
      fun ⟨r, hr, heq⟩ => ⟨r, hperm.mem_iff.mpr hr, heq.symm⟩⟩
  have hnodup : ((((m.group tenantID runID promptGroupID).insertionSort fun r r' =>
      r.sampleID ≤ r'.sampleID).map fun r => r.lease leaseID owner expires).map
        SampleRecord.key).Nodup := by
    rw [List.map_map]
    exact ((hperm.map _).nodup_iff).mpr (hkeyed.nodup_group tenantID runID promptGroupID)
  refine ⟨⟨rfl, rfl, rfl, rfl⟩, ?_, hnodup, ?_, ?_⟩
  · have hfirst : promptGroupID ∈ m.completeGroups tenantID runID expected := by
      rw [hgroups]
      exact List.mem_cons_self
    unfold completeGroups at hfirst
    rw [List.mem_insertionSort, List.mem_filter] at hfirst
    rw [List.length_map, hperm.length_eq]
    exact of_decide_eq_true hfirst.2
  · intro r'
    rw [hmem]
    constructor
    · rintro ⟨r, hr, heq⟩
      obtain ⟨k, hk⟩ := (mem_group_iff.mp hr).1.1
      exact ⟨k, r, hk, (inGroup_iff_mem_group hk).mpr hr, heq⟩
    · rintro ⟨k, r, hk, hr, heq⟩
      exact ⟨r, (inGroup_iff_mem_group hk).mp hr, heq⟩
  · intro k
    cases hk : m.get k with
    | none =>
      refine (get_foldl_set_of_notMem ?_).trans hk
      intro hkmem
      obtain ⟨r', hr', rfl⟩ := List.mem_map.mp hkmem
      obtain ⟨r, hr, rfl⟩ := (hmem r').mp hr'
      obtain ⟨k', hk'⟩ := (mem_group_iff.mp hr).1.1
      rw [SampleRecord.key_lease, hkeyed k' r hk', hk'] at hk
      cases hk
    | some r =>
      obtain rfl := hkeyed k r hk
      rw [Option.map_some]
      by_cases hr : r ∈ m.group tenantID runID promptGroupID
      · rw [if_pos ((inGroup_iff_mem_group hk).mpr hr)]
        exact get_foldl_set_of_mem hnodup ((hmem _).mpr ⟨r, hr, rfl⟩)
      · rw [if_neg (mt (inGroup_iff_mem_group hk).mp hr)]
        refine (get_foldl_set_of_notMem ?_).trans hk
        intro hkmem
        obtain ⟨r', hr', hkey⟩ := List.mem_map.mp hkmem
        obtain ⟨r1, hr1, rfl⟩ := (hmem r').mp hr'
        obtain ⟨k', hk'⟩ := (mem_group_iff.mp hr1).1.1
        obtain rfl := hkeyed k' r1 hk'
        rw [SampleRecord.key_lease] at hkey
        rw [hkey, hk] at hk'
        cases hk'
        exact hr hr1

/-- The loop of `FinishLease` finishes records that it visits while their lease is held
by the caller, and leaves the others. -/
theorem get_of_finishLoop {leaseID owner reason : String} {ack : Bool}
    {visits : List (String × Int)} {found : Bool} (k : String)
    (hnodup : (visits.map Prod.fst).Nodup) :
    (finishLoop leaseID owner ack reason visits found m).2.get k = m.get k ∨
      ∃ r now, (k, now) ∈ visits ∧ m.get k = some r ∧ r.leaseID = leaseID ∧
        r.leaseOwner = owner ∧ now ≤ r.leaseExpiresAt ∧
        (finishLoop leaseID owner ack reason visits found m).2.get k =
          some (r.unlease (finishedState ack reason)) := by
  induction visits generalizing found m with
  | nil => exact .inl rfl
  | cons visit visits ih =>
    obtain ⟨id, now⟩ := visit
    rw [List.map_cons, List.nodup_cons] at hnodup
    have hskip : ∀ found m', (finishLoop leaseID owner ack reason visits found m').2.get k =
        m'.get k ∨ ∃ r now', (k, now') ∈ (id, now) :: visits ∧ m'.get k = some r ∧
          r.leaseID = leaseID ∧ r.leaseOwner = owner ∧ now' ≤ r.leaseExpiresAt ∧
          (finishLoop leaseID owner ack reason visits found m').2.get k =
            some (r.unlease (finishedState ack reason)) := by
      intro found m'
      refine (ih hnodup.2).imp_right ?_
      rintro ⟨r, now', hvisit, hrest⟩
      exact ⟨r, now', List.mem_cons_of_mem _ hvisit, hrest⟩
    simp only [finishLoop]
    split
    · exact hskip found m
    · rename_i record hrecord
      split
      · exact hskip found m
      · rename_i hlease
        split
        · exact .inl rfl
        · rename_i hheld
          simp only [ne_eq, not_not] at hlease
          simp only [not_or, ne_eq, not_not, not_lt] at hheld
          by_cases hk : k = id
          · -- the record finished here is not visited again
            subst hk
            have hsame : (finishLoop leaseID owner ack reason visits true
                (m.set k (record.unlease (finishedState ack reason)))).2.get k =
                (m.set k (record.unlease (finishedState ack reason))).get k := by
              refine (ih hnodup.2).resolve_right ?_
              rintro ⟨_, now', hvisit, _⟩
              exact hnodup.1 (List.mem_map.mpr ⟨(k, now'), hvisit, rfl⟩)
            refine .inr ⟨record, now, List.mem_cons_self, hrecord, hlease, hheld.1, hheld.2, ?_⟩
            rw [hsame, FinMap.get_set_self]
          · have hlater := hskip true (m.set id (record.unlease (finishedState ack reason)))
            rw [FinMap.get_set_ne _ _ hk] at hlater
            exact hlater

theorem get_of_finishLease (m : Samples) {visits : List (String × Int)}
    (leaseID owner : String) (ack : Bool) (reason k : String)
    (hnodup : (visits.map Prod.fst).Nodup) :
    (m.finishLease visits leaseID owner ack reason).2.get k = m.get k ∨
      ∃ r now, (k, now) ∈ visits ∧ m.get k = some r ∧ r.leaseID = leaseID ∧
        r.leaseOwner = owner ∧ now ≤ r.leaseExpiresAt ∧
        (m.finishLease visits leaseID owner ack reason).2.get k =
          some (r.unlease (finishedState ack reason)) :=
  get_of_finishLoop k hnodup

end Samples

end DataPlane
end Skyscale
