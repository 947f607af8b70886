import Skyscale.DataPlane.Adapters

/-!
# The migration of legacy samples

Every time `NewSQLMetadataStore` is called, `migrateLegacySamples` copies the rows of the legacy
table into `rl_grouped_samples_v2`, in one transaction.  A row that is there already is left
alone; one that is not is inserted as the legacy table has it.  The legacy table is never
changed, so a row that the store has deleted since is inserted again.

* `migrateLegacySamples` and `newSQLMetadataStore` are the functions of `adapters.go`;
* `migrate_ok`, `migrate_added` and `exists_migrate` say what a migration does and when it
  succeeds, and `migration_all_or_nothing` puts them together;
* `Present` and `Conflicting` are the two cases in which a restart leaves the table as it is, and
  `Spares` says that a call deletes no migrated row;
* `restart_unchanged_iff`: a restart leaves the table as it is if and only if one of the cases is
  given, and a run of calls that spare the migrated rows ends in the first.
-/

namespace Skyscale
namespace DataPlane

open Lib

structure LegacySampleRow where
  sampleID : String
  runID : String
  promptGroupID : String
  policyVersion : String
  blobKey : String
  checksum : String
  state : SampleState
  createdAt : Int
  expiresAt : Int
  leaseID : String
  leaseOwner : String
  leaseExpiresAt : Int

namespace LegacySampleRow

/-- The blob key without a leading slash, split at the slashes. -/
def parts (old : LegacySampleRow) : List String :=
  ((match old.blobKey.toList with
    | '/' :: rest => rest
    | all => all).splitOn '/').map String.ofList

/-- The tenant named by the blob key. -/
def tenantID (old : LegacySampleRow) : String := old.parts.getD 1 ""

/-- The blob key names the tenant and the run. -/
def Traceable (old : LegacySampleRow) : Prop :=
  ¬(old.parts.length < 4 ∨ old.parts.getD 0 "" ≠ "samples" ∨ old.tenantID = "" ∨
    old.parts.getD 2 "" ≠ old.runID)

instance (old : LegacySampleRow) : Decidable old.Traceable := inferInstanceAs (Decidable (¬_))

/-- The primary key of the row in the new table. -/
def identity (old : LegacySampleRow) : String × String × String :=
  (old.tenantID, old.runID, old.sampleID)

/-- The row for the new table.  The legacy table has no project. -/
def row (old : LegacySampleRow) : SampleRecord where
  tenantID := old.tenantID
  projectID := ""
  sampleID := old.sampleID
  runID := old.runID
  promptGroupID := old.promptGroupID
  policyVersion := old.policyVersion
  blobKey := old.blobKey
  checksum := old.checksum
  state := old.state
  createdAt := old.createdAt
  expiresAt := old.expiresAt
  leaseID := old.leaseID
  leaseOwner := old.leaseOwner
  leaseExpiresAt := old.leaseExpiresAt

end LegacySampleRow

/-- The rows of the table `sample_rows`, in some order.  `sample_id` is its primary key. -/
structure LegacyTable where
  rows : List LegacySampleRow
  distinct : (rows.map LegacySampleRow.sampleID).Nodup

/-- The transaction; an error rolls it back.  `clock` is read when the row of a sample is
created. -/
def migrateLegacySamples (clock : String → Int) (t : SampleRows) :
    List LegacySampleRow → Except String SampleRows
  | [] => .ok t
  | old :: rest =>
    if old.Traceable then
      let t' := (t.insertSample (clock old.sampleID) old.row).2
      match t'.get old.row.identity with
      | none => .error "record not found"
      | some migrated =>
        if migrated.checksum ≠ old.row.checksum then
          .error ("legacy sample " ++ old.sampleID ++ " conflicts with scoped migration target")
        else migrateLegacySamples clock t' rest
    else
      .error ("cannot safely migrate legacy sample " ++ old.sampleID ++
        ": blob key lacks tenant/run lineage")

/-- The store on a database with the two tables, and the new table afterwards. -/
def newSQLMetadataStore (clock : String → Int) (t : SampleRows) (legacy : LegacyTable) :
    Except String Unit × SampleRows :=
  match migrateLegacySamples clock t legacy.rows with
  | .ok t' => (.ok (), t')
  | .error text => (.error text, t)

/-! ## What a migration does -/

section Migrate

variable {clock : String → Int} {t t' : SampleRows} {old : LegacySampleRow}
variable {rows : List LegacySampleRow}

theorem get_insertRow (t : SampleRows) (now : Int) (record : SampleRecord)
    (x : String × String × String) :
    (t.insertSample now record).2.get x =
      if x = record.identity then some ((t.get record.identity).getD (record.created now))
      else t.get x := by
  unfold SampleRows.insertSample
  cases hrow : t.get record.identity with
  | some row =>
    by_cases hx : x = record.identity
    · rw [if_pos hx, hx, hrow]
      rfl
    · rw [if_neg hx]
  | none =>
    rw [FinMap.get_set]
    rfl

theorem get_insertLegacy (t : SampleRows) (old : LegacySampleRow) (now : Int)
    (x : String × String × String) :
    (t.insertSample now old.row).2.get x =
      if x = old.identity then some ((t.get old.identity).getD (old.row.created now))
      else t.get x :=
  get_insertRow t now old.row x

theorem migrate_cons (hold : old.Traceable) :
    migrateLegacySamples clock t (old :: rows) =
      if ((t.get old.identity).getD (old.row.created (clock old.sampleID))).checksum ≠
          old.checksum then
        .error ("legacy sample " ++ old.sampleID ++ " conflicts with scoped migration target")
      else migrateLegacySamples clock (t.insertSample (clock old.sampleID) old.row).2 rows := by
  rw [migrateLegacySamples, if_pos hold]
  dsimp only
  rw [get_insertRow, if_pos rfl]
  rfl

/-- A migration that succeeds keeps the rows that are there, and leaves every legacy row
migrated. -/
theorem migrate_ok (h : migrateLegacySamples clock t rows = .ok t') :
    (∀ x r, t.get x = some r → t'.get x = some r) ∧
      ∀ old ∈ rows, old.Traceable ∧
        ∃ r, t'.get old.identity = some r ∧ r.checksum = old.checksum := by
  induction rows generalizing t with
  | nil =>
    cases h
    exact ⟨fun _ _ h => h, fun _ h => by cases h⟩
  | cons old rows ih =>
    have htraceable : old.Traceable := by
      by_contra hnot
      rw [migrateLegacySamples, if_neg hnot] at h
      cases h
    rw [migrate_cons htraceable] at h
    split at h
    · cases h
    rename_i hsame
    obtain ⟨hkeep, hrest⟩ := ih h
    have hinserted : (t.insertSample (clock old.sampleID) old.row).2.get old.identity =
        some ((t.get old.identity).getD (old.row.created (clock old.sampleID))) := by
      rw [get_insertLegacy, if_pos rfl]
    refine ⟨fun x r hr => hkeep x r ?_, fun other hother => ?_⟩
    · rw [get_insertLegacy]
      split
      · rename_i hx
        rw [← hx, hr]
        rfl
      · exact hr
    · rcases List.mem_cons.mp hother with rfl | hmem
      · exact ⟨htraceable, _, hkeep _ _ hinserted, not_not.mp hsame⟩
      · exact hrest other hmem

theorem migrate_present
    (h : ∀ old ∈ rows, old.Traceable ∧
      ∃ r, t.get old.identity = some r ∧ r.checksum = old.checksum) :
    migrateLegacySamples clock t rows = .ok t := by
  induction rows with
  | nil => rfl
  | cons old rows ih =>
    obtain ⟨htraceable, r, hr, hsum⟩ := h old List.mem_cons_self
    have hsame : (t.insertSample (clock old.sampleID) old.row).2 = t := by
      unfold SampleRows.insertSample
      rw [show t.get old.row.identity = some r from hr]
    rw [migrate_cons htraceable, hsame, if_neg (by rw [hr, not_not]; exact hsum)]
    exact ih fun other hother => h other (List.mem_cons_of_mem old hother)

/-- A migration succeeds unless a row with another checksum is in the place of a legacy row. -/
theorem exists_migrate (htraceable : ∀ old ∈ rows, old.Traceable)
    (hdistinct : (rows.map LegacySampleRow.sampleID).Nodup)
    (h : ∀ old ∈ rows, ∀ r, t.get old.identity = some r → r.checksum = old.checksum) :
    ∃ t', migrateLegacySamples clock t rows = .ok t' := by
  induction rows generalizing t with
  | nil => exact ⟨t, rfl⟩
  | cons old rows ih =>
    rw [List.map_cons, List.nodup_cons] at hdistinct
    have hsum : ((t.get old.identity).getD (old.row.created (clock old.sampleID))).checksum =
        old.checksum := by
      cases hrow : t.get old.identity with
      | none => rfl
      | some r => exact h old List.mem_cons_self r hrow
    rw [migrate_cons (htraceable old List.mem_cons_self), if_neg (not_not.mpr hsum)]
    refine ih (fun other hother => htraceable other (List.mem_cons_of_mem old hother))
      hdistinct.2 fun other hother r hr => ?_
    -- the places of the other legacy rows are as before
    have hne : other.identity ≠ old.identity := by
      intro hsame
      have hid : other.sampleID = old.sampleID := congrArg (fun x => x.2.2) hsame
      exact hdistinct.1 (hid ▸ List.mem_map_of_mem hother)
    rw [get_insertLegacy, if_neg hne] at hr
    exact h other (List.mem_cons_of_mem old hother) r hr

theorem migrate_added (h : migrateLegacySamples clock t rows = .ok t')
    {x : String × String × String} {r : SampleRecord} (hr : t'.get x = some r) :
    t.get x = some r ∨
      t.get x = none ∧
        ∃ old ∈ rows, x = old.identity ∧ r = old.row.created (clock old.sampleID) := by
  induction rows generalizing t with
  | nil =>
    cases h
    exact .inl hr
  | cons old rows ih =>
    have htraceable := ((migrate_ok h).2 old List.mem_cons_self).1
    rw [migrate_cons htraceable] at h
    split at h
    · cases h
    rcases ih h with hinserted | ⟨hnone, other, hother, hcopy⟩
    · rw [get_insertLegacy] at hinserted
      split at hinserted
      · rename_i hx
        cases hrow : t.get old.identity with
        | some existing =>
          rw [hrow] at hinserted
          exact .inl (by rw [hx, hrow]; exact hinserted)
        | none =>
          rw [hrow] at hinserted
          refine .inr ⟨by rw [hx, hrow], old, List.mem_cons_self, hx, ?_⟩
          exact (Option.some.inj hinserted).symm
      · exact .inl hinserted
    · rw [get_insertLegacy] at hnone
      split at hnone
      · cases hnone
      · exact .inr ⟨hnone, other, List.mem_cons_of_mem old hother, hcopy⟩

end Migrate

/-! ## One migration -/

/-- Rows are stored under their primary keys. -/
def SampleRows.Keyed (t : SampleRows) : Prop := ∀ x r, t.get x = some r → r.identity = x

/-- A row carries what the legacy table says of a sample; where that has no time of
creation, it is the one of the row. -/
structure LegacySampleRow.CopiedTo (old : LegacySampleRow) (now : Int) (r : SampleRecord) :
    Prop where
  identity : r.identity = old.identity
  promptGroupID : r.promptGroupID = old.promptGroupID
  policyVersion : r.policyVersion = old.policyVersion
  blobKey : r.blobKey = old.blobKey
  checksum : r.checksum = old.checksum
  state : r.state = old.state
  createdAt : old.createdAt ≠ zeroTime → r.createdAt = old.createdAt
  created : old.createdAt = zeroTime → r.createdAt = now
  expiresAt : r.expiresAt = old.expiresAt
  lease : r.leaseID = old.leaseID ∧ r.leaseOwner = old.leaseOwner ∧
    r.leaseExpiresAt = old.leaseExpiresAt

theorem LegacySampleRow.copiedTo_row (old : LegacySampleRow) (now : Int) :
    old.CopiedTo now (old.row.created now) where
  identity := rfl
  promptGroupID := rfl
  policyVersion := rfl
  blobKey := rfl
  checksum := rfl
  state := rfl
  createdAt hset := if_neg hset
  created hzero := if_pos hzero
  expiresAt := rfl
  lease := ⟨rfl, rfl, rfl⟩

/-- What a migration that succeeds leaves: the rows that were there, a row for every
legacy sample, and no row that is not a copy of one. -/
structure Migrated (clock : String → Int) (legacy : LegacyTable) (t t' : SampleRows) : Prop where
  kept : ∀ x r, t.get x = some r → t'.get x = some r
  added : ∀ x r, t.get x = none → t'.get x = some r →
    ∃ old ∈ legacy.rows, x = old.identity ∧ old.CopiedTo (clock old.sampleID) r
  present : ∀ old ∈ legacy.rows, ∃ r, t'.get old.identity = some r ∧ r.runID = old.runID ∧
    r.sampleID = old.sampleID ∧ r.checksum = old.checksum

/-- `Put` stored the sample for a tenant; tenant and run are names without slashes. -/
def LegacySampleRow.PutBy (old : LegacySampleRow) (tenantID : String) : Prop :=
  tenantID ≠ "" ∧ '/' ∉ tenantID.toList ∧ old.runID ≠ "" ∧ '/' ∉ old.runID.toList ∧
    ∃ promptGroupID checksum, old.blobKey = putKey tenantID old.runID promptGroupID checksum

section Lineage

variable {clock : String → Int} {t t' : SampleRows} {legacy : LegacyTable}

theorem splitOn_first {xs ys : List Char} (h : '/' ∉ xs) :
    (xs ++ '/' :: ys).splitOn '/' = xs :: ys.splitOn '/' := by
  refine List.splitOnP_append_cons_of_forall_mem ?_ '/' (by simp) ys
  intro x hx
  rw [beq_eq_false_iff_ne]
  rintro rfl
  exact h hx

variable {old : LegacySampleRow} {tenantID : String}

/-- The parts of a key that `Put` has built. -/
theorem parts_of_putBy (h : old.PutBy tenantID) :
    ∃ rest, rest ≠ [] ∧ old.parts = "samples" :: tenantID :: old.runID :: rest := by
  obtain ⟨-, htenant, -, hrun, promptGroupID, checksum, hkey⟩ := h
  have hlist : old.blobKey.toList = "samples".toList ++ '/' :: (tenantID.toList ++ '/' ::
      (old.runID.toList ++ '/' :: (promptGroupID ++ "-" ++ checksum ++ ".json").toList)) := by
    have hslash : "/".toList = ['/'] := rfl
    have hfirst : "samples/".toList = "samples".toList ++ ['/'] := rfl
    rw [hkey]
    show ("samples/" ++ tenantID ++ "/" ++ old.runID ++ "/" ++ promptGroupID ++ "-" ++ checksum ++
      ".json").toList = _
    simp only [String.toList_append, hslash, hfirst, List.append_assoc, List.cons_append,
      List.nil_append]
  have hsamples : '/' ∉ "samples".toList := by decide
  refine ⟨((promptGroupID ++ "-" ++ checksum ++ ".json").toList.splitOn '/').map String.ofList, ?_,
    ?_⟩
  · rw [ne_eq, List.map_eq_nil_iff]
    exact List.splitOn_ne_nil _ _
  · unfold LegacySampleRow.parts
    rw [hlist]
    -- The key starts with a letter, so no slash is trimmed.
    show (("samples".toList ++ '/' :: _).splitOn '/').map String.ofList = _
    rw [splitOn_first hsamples, splitOn_first htenant, splitOn_first hrun]
    rw [List.map_cons, List.map_cons, List.map_cons, String.ofList_toList, String.ofList_toList,
      String.ofList_toList]

theorem tenantID_of_putBy (h : old.PutBy tenantID) :
    old.tenantID = tenantID := by
  obtain ⟨rest, -, hparts⟩ := parts_of_putBy h
  unfold LegacySampleRow.tenantID
  rw [hparts]
  rfl

theorem traceable_of_putBy (h : old.PutBy tenantID) :
    old.Traceable := by
  have htenant := tenantID_of_putBy h
  obtain ⟨rest, hrest, hparts⟩ := parts_of_putBy h
  unfold LegacySampleRow.Traceable
  rw [htenant, hparts]
  rintro (hshort | hsamples | hblank | hrun)
  · have hpos := List.length_pos_iff.mpr hrest
    rw [List.length_cons, List.length_cons, List.length_cons] at hshort
    omega
  · exact hsamples rfl
  · exact h.1 hblank
  · exact hrun rfl

theorem migrated_of_migrate (hkeyed : t.Keyed)
    (h : migrateLegacySamples clock t legacy.rows = .ok t') : Migrated clock legacy t t' := by
  obtain ⟨hkept, hpresent⟩ := migrate_ok h
  refine ⟨hkept, ?_, ?_⟩
  · intro x r hnone hr
    rcases migrate_added h hr with hsome | ⟨-, old, hold, hx, hcopy⟩
    · rw [hnone] at hsome
      cases hsome
    · refine ⟨old, hold, hx, ?_⟩
      rw [hcopy]
      exact old.copiedTo_row _
  · intro old hold
    obtain ⟨-, r, hr, hsum⟩ := hpresent old hold
    -- A row that was there has the key columns it is stored under; a new one is a copy.
    have hidentity : r.runID = old.runID ∧ r.sampleID = old.sampleID := by
      rcases migrate_added h hr with hsome | ⟨-, other, -, hx, rfl⟩
      · have hsame := hkeyed _ _ hsome
        exact ⟨congrArg (fun x => x.2.1) hsame, congrArg (fun x => x.2.2) hsame⟩
      · exact ⟨(congrArg (fun x => x.2.1) hx).symm, (congrArg (fun x => x.2.2) hx).symm⟩
    exact ⟨r, hr, hidentity.1, hidentity.2, hsum⟩

end Lineage

/-- A migration leaves the table as it was, with an error, or it has migrated every legacy
sample.  Where every blob key is one that `Put` has built, the samples are migrated to the
tenants that `Put` was given, and the migration fails only where a row with another
checksum is in the place of a sample. -/
theorem migration_all_or_nothing (clock : String → Int) (t : SampleRows) (hkeyed : t.Keyed)
    (legacy : LegacyTable) :
    ((∃ text, newSQLMetadataStore clock t legacy = (.error text, t)) ∨
      ∃ t', newSQLMetadataStore clock t legacy = (.ok (), t') ∧ Migrated clock legacy t t') ∧
    ∀ tenant : LegacySampleRow → String, (∀ old ∈ legacy.rows, old.PutBy (tenant old)) →
      (∀ old ∈ legacy.rows, old.identity = (tenant old, old.runID, old.sampleID)) ∧
      ((∃ text, newSQLMetadataStore clock t legacy = (.error text, t)) →
        ∃ old ∈ legacy.rows, ∃ r, t.get (tenant old, old.runID, old.sampleID) = some r ∧
          r.checksum ≠ old.checksum) := by
  constructor
  · unfold newSQLMetadataStore
    cases hmigrate : migrateLegacySamples clock t legacy.rows with
    | error text => exact .inl ⟨text, rfl⟩
    | ok t' => exact .inr ⟨t', rfl, migrated_of_migrate hkeyed hmigrate⟩
  · intro tenant hput
    have hidentity : ∀ old ∈ legacy.rows,
        old.identity = (tenant old, old.runID, old.sampleID) := by
      intro old hold
      unfold LegacySampleRow.identity
      rw [tenantID_of_putBy (hput old hold)]
    refine ⟨hidentity, ?_⟩
    rintro ⟨text, herror⟩
    by_contra hnone
    push Not at hnone
    -- Without a conflict the migration goes through.
    have hfree : ∀ old ∈ legacy.rows, ∀ r, t.get old.identity = some r →
        r.checksum = old.checksum := by
      intro old hold r hr
      rw [hidentity old hold] at hr
      exact hnone old hold r hr
    have hexists : ∃ t', migrateLegacySamples clock t legacy.rows = .ok t' :=
      exists_migrate (fun old hold => traceable_of_putBy (hput old hold)) legacy.distinct hfree
    obtain ⟨t', hok⟩ := hexists
    unfold newSQLMetadataStore at herror
    rw [hok] at herror
    cases herror

def undatedSample : LegacySampleRow where
  sampleID := "sample"
  runID := "run"
  promptGroupID := "group"
  policyVersion := "version"
  blobKey := putKey "tenant" "run" "a/b" "hash"
  checksum := "hash"
  state := .available
  createdAt := zeroTime
  expiresAt := 5
  leaseID := ""
  leaseOwner := ""
  leaseExpiresAt := zeroTime

def undatedTable : LegacyTable := ⟨[undatedSample], List.nodup_singleton _⟩

theorem migration_all_or_nothing_undated :
    ∃ t', newSQLMetadataStore (fun _ => 2) ∅ undatedTable = (.ok (), t') ∧
      Migrated (fun _ => 2) undatedTable ∅ t' ∧
      undatedSample.identity = ("tenant", "run", "sample") := by
  obtain ⟨hcases, hlineage⟩ := migration_all_or_nothing (fun _ => 2) ∅ (fun _ _ h => by cases h)
    undatedTable
  have hput : ∀ old ∈ undatedTable.rows, old.PutBy "tenant" := by
    intro old hold
    obtain rfl := List.mem_singleton.mp hold
    exact ⟨by decide, by decide, by decide, by decide, "a/b", "hash", rfl⟩
  obtain ⟨hidentity, hfails⟩ := hlineage (fun _ => "tenant") hput
  rcases hcases with herror | ⟨t', hok, hmigrated⟩
  · obtain ⟨old, -, r, hr, -⟩ := hfails herror
    cases hr
  · exact ⟨t', hok, hmigrated, hidentity undatedSample List.mem_cons_self⟩

/-- The copy of a legacy sample without a time of creation has one. -/
theorem migration_dates_sample :
    ∃ t' r, newSQLMetadataStore (fun _ => 2) ∅ undatedTable = (.ok (), t') ∧
      t'.get undatedSample.identity = some r ∧ r.createdAt ≠ undatedSample.createdAt := by
  refine ⟨_, _, Prod.ext (by decide +kernel) rfl, by with_unfolding_all rfl, by decide⟩

/-! ## Restarts -/

/-- The row of every legacy sample is in the table. -/
def Present (legacy : LegacyTable) (t : SampleRows) : Prop :=
  ∀ old ∈ legacy.rows, ∃ r, t.get old.identity = some r

/-- In the place of a legacy sample there is a row with another checksum. -/
def Conflicting (legacy : LegacyTable) (t : SampleRows) : Prop :=
  ∃ old ∈ legacy.rows, ∃ r, t.get old.identity = some r ∧ r.checksum ≠ old.checksum

/-- A call of the store, and its result. -/
structure Answered where
  call : StoreCall
  result : call.Result

/-- The SQL store serves the call. -/
def ServesSQL (t : SampleRows) (a : Answered) (t' : SampleRows) : Prop :=
  ServedBySQL t a.call a.result t'

/-- No row of a legacy sample is past its retention when expired rows are deleted. -/
def Spares (legacy : LegacyTable) (t : SampleRows) (a : Answered) : Prop :=
  ∀ now, a.call = .deleteExpired now → ∀ old ∈ legacy.rows, ∀ r,
    t.get old.identity = some r → Samples.retentionExpired now r = false

section Restart

variable {clock : String → Int} {t t' : SampleRows} {legacy legacy' : LegacyTable}

/-- A call deletes no row but those past their retention. -/
theorem present_of_serves {a : Answered} {x : String × String × String} {r : SampleRecord}
    (hserves : ServesSQL t a t') (hrow : t.get x = some r)
    (hspared : ∀ now, a.call = .deleteExpired now → Samples.retentionExpired now r = false) :
    ∃ r', t'.get x = some r' := by
  obtain ⟨call, result⟩ := a
  cases call with
  | insertSample now record =>
    have ht' : t' = (t.insertSample now record).2 := congrArg Prod.snd hserves
    rw [ht', get_insertRow]
    split
    · exact ⟨_, rfl⟩
    · exact ⟨r, hrow⟩
  | countAvailableGroups tenantID runID =>
    obtain ⟨-, rfl⟩ := hserves
    exact ⟨r, hrow⟩
  | claimGroup tenantID runID expected leaseID owner expires =>
    have ht' : t' = (t.claimGroup tenantID runID expected leaseID owner expires).2 :=
      congrArg Prod.snd hserves
    unfold SampleRows.claimGroup at ht'
    split at ht'
    · exact ⟨r, ht' ▸ hrow⟩
    · dsimp only at ht'
      split at ht'
      · exact ⟨r, ht' ▸ hrow⟩
      · rw [ht', FinMap.get_mapVal, hrow]
        exact ⟨_, rfl⟩
  | finishLease now leaseID owner ack reason =>
    have ht' : t' = (t.finishLease now leaseID owner ack reason).2 := congrArg Prod.snd hserves
    rw [ht', SampleRows.finishLease, FinMap.get_mapVal, hrow]
    exact ⟨_, rfl⟩
  | releaseExpired now =>
    have ht' : t' = (t.releaseExpired now).2 := congrArg Prod.snd hserves
    rw [ht', SampleRows.releaseExpired, FinMap.get_mapVal, hrow]
    exact ⟨_, rfl⟩
  | deleteExpired now =>
    obtain ⟨rows, hrows, hserves⟩ := hserves
    have ht' : t' = (t.deleteExpired rows).2 := congrArg Prod.snd hserves
    have hnot : r ∉ SampleRows.named rows := by
      intro hnamed
      have hexpired := (List.mem_filter.mp (hrows.mem_iff.mp (mem_of_named hnamed))).2
      rw [hspared now rfl] at hexpired
      cases hexpired
    unfold SampleRows.deleteExpired at ht'
    refine ⟨r, ?_⟩
    split at ht'
    · exact ht' ▸ hrow
    · rw [ht', FinMap.get_keep, hrow, Option.filter_some, if_pos (decide_eq_true hnot)]
  | listRun tenantID runID =>
    obtain ⟨-, rfl⟩ := hserves
    exact ⟨r, hrow⟩

theorem Present.of_run {t1 : SampleRows} {calls : List Answered} (h : Present legacy t1)
    (hrun : Run (Guarded ServesSQL (Spares legacy)) t1 calls t) : Present legacy t := by
  refine hrun.invariant h ?_
  rintro t a t' hpresent ⟨hserves, hspares⟩ old hold
  obtain ⟨r, hrow⟩ := hpresent old hold
  exact present_of_serves hserves hrow fun now hcall => hspares now hcall old hold r hrow

theorem migrated_of_ok {t0 t1 : SampleRows}
    (h : newSQLMetadataStore clock t0 legacy = (.ok (), t1)) :
    migrateLegacySamples clock t0 legacy.rows = .ok t1 := by
  unfold newSQLMetadataStore at h
  split at h
  · rename_i t' hok
    rw [hok, (Prod.mk.inj h).2]
  · cases h

/-- A legacy table that was migrated once can be migrated unless there is a conflict. -/
theorem unchanged_iff (htraceable : ∀ old ∈ legacy.rows, old.Traceable) :
    (newSQLMetadataStore clock t legacy).2 = t ↔ Present legacy t ∨ Conflicting legacy t := by
  unfold newSQLMetadataStore
  constructor
  · intro hunchanged
    by_cases hconflict : Conflicting legacy t
    · exact .inr hconflict
    · have hfree : ∀ old ∈ legacy.rows, ∀ r, t.get old.identity = some r →
          r.checksum = old.checksum := by
        intro old hold r hr
        by_contra hne
        exact hconflict ⟨old, hold, r, hr, hne⟩
      obtain ⟨t', ht'⟩ := exists_migrate htraceable legacy.distinct hfree
      rw [ht'] at hunchanged
      obtain rfl : t' = t := hunchanged
      refine .inl fun old hold => ?_
      obtain ⟨-, r, hr, -⟩ := (migrate_ok ht').2 old hold
      exact ⟨r, hr⟩
  · intro hcases
    cases hmigrate : migrateLegacySamples clock t legacy.rows with
    | error text => rfl
    | ok t' =>
      obtain ⟨hkeep, hall⟩ := migrate_ok hmigrate
      rcases hcases with hpresent | ⟨old, hold, r, hr, hne⟩
      · -- rows that are all there have the checksums the migration has compared
        have hsums : ∀ old ∈ legacy.rows, old.Traceable ∧
            ∃ r, t.get old.identity = some r ∧ r.checksum = old.checksum := by
          intro old hold
          obtain ⟨r, hr⟩ := hpresent old hold
          obtain ⟨-, r', hr', hsum⟩ := hall old hold
          cases (hkeep _ _ hr).symm.trans hr'
          exact ⟨htraceable old hold, r, hr, hsum⟩
        rw [migrate_present hsums] at hmigrate
        cases hmigrate
        rfl
      · obtain ⟨-, r', hr', hsum⟩ := hall old hold
        cases (hkeep _ _ hr).symm.trans hr'
        exact absurd hsum hne

end Restart

/-- After a successful migration and any calls of the store, a restart leaves the table as it is
if and only if the row of every legacy sample is still there, or one is replaced by a row with
another checksum, so that the migration is rolled back.  If no call has deleted the row of a
legacy sample, the rows are all there.  The legacy rows may be read in another order. -/
theorem restart_unchanged_iff (clock clock' : String → Int) (t0 t1 : SampleRows)
    (legacy legacy' : LegacyTable) (hmigrated : newSQLMetadataStore clock t0 legacy = (.ok (), t1))
    (hsame : legacy'.rows.Perm legacy.rows) :
    (∀ t, (newSQLMetadataStore clock' t legacy').2 = t ↔
        Present legacy t ∨ Conflicting legacy t) ∧
      ∀ calls t, Run (Guarded ServesSQL (Spares legacy)) t1 calls t → Present legacy t := by
  obtain ⟨-, hall⟩ := migrate_ok (migrated_of_ok hmigrated)
  constructor
  · intro t
    have htraceable : ∀ old ∈ legacy'.rows, old.Traceable := fun old hold =>
      (hall old (hsame.mem_iff.mp hold)).1
    rw [unchanged_iff htraceable]
    simp only [Present, Conflicting, hsame.mem_iff]
  · intro calls t hrun
    have hpresent : Present legacy t1 := fun old hold => by
      obtain ⟨-, r, hr, -⟩ := hall old hold
      exact ⟨r, hr⟩
    exact hpresent.of_run hrun

def spentSample : LegacySampleRow where
  sampleID := "sample"
  runID := "run"
  promptGroupID := "group"
  policyVersion := "version"
  blobKey := "samples/tenant/run/group/hash.json"
  checksum := "hash"
  state := .available
  createdAt := 1
  expiresAt := 5
  leaseID := ""
  leaseOwner := ""
  leaseExpiresAt := 0

def spentTable : LegacyTable := ⟨[spentSample], List.nodup_singleton _⟩

def firstStart : SampleRows := (newSQLMetadataStore (fun _ => 2) ∅ spentTable).2

theorem migrated_firstStart :
    newSQLMetadataStore (fun _ => 2) ∅ spentTable = (.ok (), firstStart) :=
  Prod.ext (by decide +kernel) rfl

def afterClaim : SampleRows := (firstStart.claimGroup "tenant" "run" 1 "lease-0" "owner" 4).2

def afterAck : SampleRows := (afterClaim.finishLease 3 "lease-0" "owner" true "").2

/-- The sample is claimed and consumed; neither call deletes a row. -/
theorem run_afterAck :
    ∃ calls, Run (Guarded ServesSQL (Spares spentTable)) firstStart calls afterAck ∧
      ⟨.finishLease 3 "lease-0" "owner" true "", .ok ()⟩ ∈ calls := by
  have hclaim : ServesSQL firstStart ⟨.claimGroup "tenant" "run" 1 "lease-0" "owner" 4, _⟩
      afterClaim := rfl
  have hconsumed : (Except.ok () : Except Error Unit) =
      (afterClaim.finishLease 3 "lease-0" "owner" true "").1 := by decide +kernel
  have hack : ServesSQL afterClaim ⟨.finishLease 3 "lease-0" "owner" true "", .ok ()⟩ afterAck :=
    Prod.ext hconsumed rfl
  refine ⟨_, .snoc (.snoc .nil ⟨hclaim, ?_⟩) ⟨hack, ?_⟩, List.mem_append_right _ List.mem_cons_self⟩
  · intro now hcall
    cases hcall
  · intro now hcall
    cases hcall

def beforeExpiry : SampleRows := (afterAck.deleteExpired []).2

/-- A restart after the sample was consumed, and after a deletion before its retention ends. -/
theorem restart_unchanged_iff_consumed :
    (newSQLMetadataStore (fun _ => 3) beforeExpiry spentTable).2 = beforeExpiry := by
  obtain ⟨hiff, hpresent⟩ := restart_unchanged_iff _ (fun _ => 3) ∅ firstStart spentTable
    spentTable migrated_firstStart (.refl _)
  obtain ⟨calls, hrun, -⟩ := run_afterAck
  have hnone : afterAck.values.filter (Samples.retentionExpired 4) = [] := by decide +kernel
  have hdelete : ServesSQL afterAck ⟨.deleteExpired 4, ([], .ok ())⟩ beforeExpiry :=
    ⟨[], .of_eq hnone.symm, rfl⟩
  have hspares : Spares spentTable afterAck ⟨.deleteExpired 4, ([], .ok ())⟩ := by
    intro now hcall old hold r hr
    cases hcall
    rw [← Bool.not_eq_true]
    exact List.filter_eq_nil_iff.mp hnone r (FinMap.mem_values_iff.mpr ⟨_, hr⟩)
  exact (hiff beforeExpiry).mpr (.inl (hpresent _ _ (.snoc hrun ⟨hdelete, hspares⟩)))

def afterSweep : SampleRows := (afterAck.deleteExpired afterAck.values).2

/-- A legacy sample that was consumed and deleted is claimed again after a restart. -/
theorem legacy_sample_resurrected :
    newSQLMetadataStore (fun _ => 2) ∅ spentTable = (.ok (), firstStart) ∧
      ∃ calls t', Run ServesSQL firstStart calls afterSweep ∧
        ⟨.finishLease 3 "lease-0" "owner" true "", .ok ()⟩ ∈ calls ∧
        newSQLMetadataStore (fun _ => 2) afterSweep spentTable = (.ok (), t') ∧ t' ≠ afterSweep ∧
        (t'.claimGroup "tenant" "run" 1 "lease-1" "owner" 20).1.map
          (fun lease => lease.samples.map SampleRecord.sampleID) = .ok ["sample"] := by
  obtain ⟨calls, hrun, hconsumed⟩ := run_afterAck
  have hexpired : afterAck.values.filter (Samples.retentionExpired 5) = afterAck.values := by
    decide +kernel
  have hsweep : ServesSQL afterAck ⟨.deleteExpired 5, _⟩ afterSweep :=
    ⟨afterAck.values, .of_eq hexpired.symm, rfl⟩
  refine ⟨migrated_firstStart, _, (newSQLMetadataStore (fun _ => 2) afterSweep spentTable).2,
    .snoc hrun.of_guarded hsweep, List.mem_append_left _ hconsumed,
    Prod.ext (by decide +kernel) rfl, ?_, by decide +kernel⟩
  intro hsame
  have hrow := congrArg (fun t => (t.get spentSample.identity).isSome) hsame
  revert hrow
  decide +kernel

end DataPlane
end Skyscale
