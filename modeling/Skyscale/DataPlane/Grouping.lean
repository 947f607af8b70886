import Skyscale.DataPlane.Records

/-!
# Claims in any iteration order

`ClaimGroup` of the in-memory store walks over the map of the samples and then over the
map of the groups, and Go may walk over a map in any order.  `claimGroupIn` is the claim
with both orders as arguments.

* `claimGroupIn_eq` says that the orders do not show: every claim is
  `Samples.claimGroup`, which walks over the entries as they are stored.
* `claim_exact` is the specification of a claim, over groups as sets of samples: it
  leases the least group that has exactly as many available samples as asked for, in the
  order of their ids, and changes nothing else; without such a group it changes nothing.
-/

namespace Skyscale
namespace DataPlane

open Lib

/-! ## The claim, with its orders -/

/-- The orders in which a claim walks over the samples and over the groups. -/
structure ClaimOrder where
  samples : List SampleRecord
  groups : List String

namespace Samples

/-- The map `byGroup` of `ClaimGroup`. -/
def byGroup (samples : List SampleRecord) (tenantID runID : String) :
    FinMap String (List SampleRecord) :=
  FinMap.collect SampleRecord.promptGroupID (samples.filter fun r =>
    r.tenantID = tenantID && r.runID = runID && r.state = SampleState.available)

/-- The orders are orders of the two maps. -/
def Walks (m : Samples) (tenantID runID : String) (order : ClaimOrder) : Prop :=
  order.samples.Perm m.values ∧
    order.groups.Perm (byGroup order.samples tenantID runID).keys

/-- `ClaimGroup`. -/
def claimGroupIn (m : Samples) (order : ClaimOrder) (tenantID runID : String) (expected : Int)
    (leaseID owner : String) (expires : Int) : Except Error Lease × Samples :=
  let groups := byGroup order.samples tenantID runID
  let keys := (order.groups.filter fun g =>
    ((groups.getD g []).length : Int) = expected).insertionSort (· ≤ ·)
  match keys with
  | [] => (.error .noCompleteGroup, m)
  | promptGroupID :: _ =>
    let records := (groups.getD promptGroupID []).insertionSort fun r r' =>
      r.sampleID ≤ r'.sampleID
    let leased := records.map fun r => r.lease leaseID owner expires
    (.ok ⟨leaseID, owner, runID, promptGroupID, leased, expires⟩,
      leased.foldl (fun m r => m.set r.key r) m)

/-! ## The orders do not show -/

section Orders

variable {m : Samples} {tenantID runID : String} {order : ClaimOrder}

theorem Walks.perm_available (h : m.Walks tenantID runID order) :
    (order.samples.filter fun r => r.tenantID = tenantID && r.runID = runID &&
      r.state = SampleState.available).Perm (m.available tenantID runID) :=
  h.1.filter _

theorem Walks.perm_group (h : m.Walks tenantID runID order) (g : String) :
    ((byGroup order.samples tenantID runID).getD g []).Perm (m.group tenantID runID g) := by
  unfold byGroup
  rw [FinMap.getD_collect]
  exact h.perm_available.filter _

theorem Walks.perm_groups (h : m.Walks tenantID runID order) :
    order.groups.Perm ((m.available tenantID runID).map SampleRecord.promptGroupID).dedup := by
  refine h.2.trans ((List.perm_ext_iff_of_nodup (FinMap.keys_nodup _) (List.nodup_dedup _)).mpr ?_)
  intro g
  unfold byGroup
  rw [FinMap.mem_keys_collect, List.mem_dedup, List.mem_map]
  exact exists_congr fun r => and_congr_left fun _ => h.perm_available.mem_iff

theorem Keyed.eq_of_sampleID (hkeyed : m.Keyed) {r r' : SampleRecord}
    (hr : r ∈ m.available tenantID runID) (hr' : r' ∈ m.available tenantID runID)
    (hsample : r.sampleID = r'.sampleID) : r = r' := by
  obtain ⟨⟨k, hk⟩, htenant, hrun, -⟩ := mem_available_iff.mp hr
  obtain ⟨⟨k', hk'⟩, htenant', hrun', -⟩ := mem_available_iff.mp hr'
  have hsame : k = k' := by
    rw [← hkeyed k r hk, ← hkeyed k' r' hk']
    unfold SampleRecord.key
    rw [htenant, htenant', hrun, hrun', hsample]
  rw [hsame] at hk
  exact Option.some.inj (hk.symm.trans hk')

theorem sort_eq_of_perm (tenantID runID : String) (hkeyed : m.Keyed) {rs rs' : List SampleRecord}
    (hperm : rs.Perm rs') (hrs : ∀ r ∈ rs', r ∈ m.available tenantID runID) :
    (rs.insertionSort fun r r' => r.sampleID ≤ r'.sampleID) =
      rs'.insertionSort fun r r' => r.sampleID ≤ r'.sampleID := by
  have hsort := (List.perm_insertionSort (fun r r' : SampleRecord => r.sampleID ≤ r'.sampleID) rs)
  have hsort' := (List.perm_insertionSort (fun r r' : SampleRecord => r.sampleID ≤ r'.sampleID) rs')
  refine List.Perm.eq_of_pairwise ?_ (pairwise_sampleID rs) (pairwise_sampleID rs')
    (hsort.trans (hperm.trans hsort'.symm))
  intro r r' hr hr' hle hle'
  exact hkeyed.eq_of_sampleID (hrs r (hperm.mem_iff.mp (hsort.mem_iff.mp hr)))
    (hrs r' (hsort'.mem_iff.mp hr')) (le_antisymm hle hle')

/-- A claim is the same for every iteration order. -/
theorem claimGroupIn_eq (hkeyed : m.Keyed) (h : m.Walks tenantID runID order) (expected : Int)
    (leaseID owner : String) (expires : Int) :
    m.claimGroupIn order tenantID runID expected leaseID owner expires =
      m.claimGroup tenantID runID expected leaseID owner expires := by
  have hkeys : ((order.groups.filter fun g => decide ((((byGroup order.samples tenantID
      runID).getD g []).length : Int) = expected)).insertionSort (· ≤ ·)) =
      m.completeGroups tenantID runID expected := by
    unfold completeGroups
    refine List.Perm.eq_of_pairwise (fun _ _ _ _ => le_antisymm) (List.pairwise_insertionSort _ _)
      (List.pairwise_insertionSort _ _) ?_
    refine (List.perm_insertionSort _ _).trans
      (List.Perm.trans ?_ (List.perm_insertionSort _ _).symm)
    have hsize : (fun g => decide ((((byGroup order.samples tenantID runID).getD g []).length :
        Int) = expected)) = fun g => decide (((m.group tenantID runID g).length : Int) =
        expected) := by
      funext g
      rw [(h.perm_group g).length_eq]
    rw [hsize]
    exact h.perm_groups.filter _
  unfold claimGroupIn claimGroup
  simp only [hkeys]
  cases m.completeGroups tenantID runID expected with
  | nil => rfl
  | cons promptGroupID more =>
    have hrecords := sort_eq_of_perm tenantID runID hkeyed (h.perm_group promptGroupID)
      fun r hr => (List.mem_filter.mp hr).1
    simp only [hrecords]

end Orders

/-! ## The specification -/

/-- The number of available samples of a group. -/
def groupSize (m : Samples) (tenantID runID promptGroupID : String) : Nat :=
  (m.keep (inGroup tenantID runID promptGroupID)).size

/-- The group has exactly as many available samples as asked for, and no lesser group
has. -/
def LeastComplete (m : Samples) (tenantID runID : String) (expected : Int)
    (promptGroupID : String) : Prop :=
  (m.groupSize tenantID runID promptGroupID : Int) = expected ∧
    ∀ g, (m.groupSize tenantID runID g : Int) = expected → promptGroupID ≤ g

/-- The lease of a group: its available samples, in the order of their ids and under the
lease, and a table that differs from the old one in these samples only. -/
structure LeasesGroup (m : Samples) (tenantID runID promptGroupID leaseID owner : String)
    (expires : Int) (lease : Lease) (m' : Samples) : Prop where
  header : lease.id = leaseID ∧ lease.owner = owner ∧ lease.runID = runID ∧
    lease.promptGroupID = promptGroupID ∧ lease.expiresAt = expires
  sorted : lease.samples.Pairwise fun r r' => r.sampleID < r'.sampleID
  samples : ∀ r', r' ∈ lease.samples ↔ ∃ k r, m.get k = some r ∧
    inGroup tenantID runID promptGroupID r = true ∧ r' = r.lease leaseID owner expires
  stored : ∀ k, m'.get k = (m.get k).map fun r =>
    if inGroup tenantID runID promptGroupID r then r.lease leaseID owner expires else r

section Specification

variable {m : Samples} {tenantID runID : String}

theorem groupSize_eq (m : Samples) (tenantID runID promptGroupID : String) :
    m.groupSize tenantID runID promptGroupID =
      (m.group tenantID runID promptGroupID).length := by
  unfold groupSize group available
  rw [FinMap.size_keep, List.filter_filter]
  refine congrArg List.length (List.filter_congr fun r _ => ?_)
  exact Bool.and_comm _ _

theorem mem_completeGroups {expected : Int} (hpos : 1 ≤ expected) (g : String) :
    g ∈ m.completeGroups tenantID runID expected ↔
      (m.groupSize tenantID runID g : Int) = expected := by
  unfold completeGroups
  rw [List.mem_insertionSort, List.mem_filter, List.mem_dedup, List.mem_map, groupSize_eq,
    decide_eq_true_eq]
  constructor
  · exact fun h => h.2
  · intro hsize
    refine ⟨?_, hsize⟩
    -- A group of positive size has a record.
    have hne : m.group tenantID runID g ≠ [] := by
      intro hnil
      rw [hnil, List.length_nil] at hsize
      omega
    obtain ⟨r, hr⟩ := List.exists_mem_of_ne_nil _ hne
    exact ⟨r, (List.mem_filter.mp hr).1, of_decide_eq_true (List.mem_filter.mp hr).2⟩

/-- The samples of a lease on a group. -/
def leasedGroup (m : Samples) (tenantID runID promptGroupID leaseID owner : String)
    (expires : Int) : List SampleRecord :=
  ((m.group tenantID runID promptGroupID).insertionSort fun r r' =>
    r.sampleID ≤ r'.sampleID).map fun r => r.lease leaseID owner expires

theorem pairwise_leasedGroup (hkeyed : m.Keyed) (promptGroupID leaseID owner : String)
    (expires : Int) :
    (m.leasedGroup tenantID runID promptGroupID leaseID owner expires).Pairwise
      fun r r' => r.sampleID < r'.sampleID := by
  have hperm := List.perm_insertionSort (fun r r' : SampleRecord => r.sampleID ≤ r'.sampleID)
    (m.group tenantID runID promptGroupID)
  have hnodup : ((m.group tenantID runID promptGroupID).insertionSort fun r r' =>
      r.sampleID ≤ r'.sampleID).Nodup :=
    hperm.nodup_iff.mpr (List.Nodup.of_map _ (hkeyed.nodup_group tenantID runID promptGroupID))
  unfold leasedGroup
  rw [List.pairwise_map]
  refine List.Pairwise.imp_of_mem ?_ ((pairwise_sampleID _).and hnodup)
  intro r r' hr hr' hboth
  refine lt_of_le_of_ne hboth.1 fun hsample => hboth.2 ?_
  exact hkeyed.eq_of_sampleID (List.mem_filter.mp (hperm.mem_iff.mp hr)).1
    (List.mem_filter.mp (hperm.mem_iff.mp hr')).1 hsample

end Specification

/-- For every table and every iteration order, a claim leases exactly the least complete
group, and where there is none it fails and changes nothing. -/
theorem claim_exact (m : Samples) (hkeyed : m.Keyed) (tenantID runID : String)
    (order : ClaimOrder) (horder : m.Walks tenantID runID order) (expected : Int)
    (hpos : 1 ≤ expected) (leaseID owner : String) (expires : Int) :
    (∃ g, m.LeastComplete tenantID runID expected g ∧ ∃ lease m',
      m.claimGroupIn order tenantID runID expected leaseID owner expires = (.ok lease, m') ∧
        m.LeasesGroup tenantID runID g leaseID owner expires lease m') ∨
    (∀ g, (m.groupSize tenantID runID g : Int) ≠ expected) ∧
      m.claimGroupIn order tenantID runID expected leaseID owner expires =
        (.error .noCompleteGroup, m) := by
  rw [claimGroupIn_eq hkeyed horder]
  cases hgroups : m.completeGroups tenantID runID expected with
  | nil =>
    refine .inr ⟨fun g hsize => ?_, ?_⟩
    · have hmem := (mem_completeGroups hpos g).mpr hsize
      rw [hgroups] at hmem
      cases hmem
    · simp only [claimGroup, hgroups]
  | cons g more =>
    have hclaim : m.claimGroup tenantID runID expected leaseID owner expires =
        (.ok ⟨leaseID, owner, runID, g, m.leasedGroup tenantID runID g leaseID owner expires,
            expires⟩,
          (m.leasedGroup tenantID runID g leaseID owner expires).foldl
            (fun m r => m.set r.key r) m) := by
      simp only [claimGroup, hgroups, leasedGroup]
    have hgrants := grants_of_claimGroup hkeyed hclaim
    refine .inl ⟨g, ⟨?_, ?_⟩, _, _, hclaim, ⟨rfl, rfl, rfl, rfl, rfl⟩,
      pairwise_leasedGroup hkeyed g leaseID owner expires, hgrants.samples, hgrants.stored⟩
    · refine (mem_completeGroups hpos g).mp ?_
      rw [hgroups]
      exact List.mem_cons_self
    · -- The complete groups are sorted, so the first one is the least.
      intro g' hsize
      have hmem := (mem_completeGroups hpos g').mpr hsize
      have hsorted : (m.completeGroups tenantID runID expected).Pairwise (· ≤ ·) :=
        List.pairwise_insertionSort _ _
      rw [hgroups] at hmem hsorted
      rcases List.mem_cons.mp hmem with rfl | hlater
      · exact le_refl _
      · exact (List.pairwise_cons.mp hsorted).1 g' hlater

def sampleIn (promptGroupID sampleID : String) : SampleRecord where
  tenantID := "tenant"
  projectID := "project"
  sampleID := sampleID
  runID := "run"
  promptGroupID := promptGroupID
  policyVersion := "v1"
  blobKey := "blob"
  checksum := "sum"
  state := .available
  createdAt := 1
  expiresAt := 9

def partialFirst : Samples :=
  [sampleIn "a" "s1", sampleIn "b" "s3", sampleIn "b" "s2"].foldl
    (fun m r => (m.insertSample r).2) ∅

def backwards : ClaimOrder :=
  ⟨[sampleIn "a" "s1", sampleIn "b" "s3", sampleIn "b" "s2"], ["b", "a"]⟩

theorem claim_exact_partialFirst :
    ∃ lease m', partialFirst.claimGroupIn backwards "tenant" "run" 2 "lease" "owner" 5 =
        (.ok lease, m') ∧
      partialFirst.LeasesGroup "tenant" "run" "b" "lease" "owner" 5 lease m' := by
  have hkeyed : partialFirst.Keyed := by
    intro k r hr
    have hmem := FinMap.mem_keys_of_get hr
    have hkeys : partialFirst.keys = [(sampleIn "b" "s2").key, (sampleIn "b" "s3").key,
        (sampleIn "a" "s1").key] := by with_unfolding_all rfl
    rw [hkeys] at hmem
    simp only [List.mem_cons, List.not_mem_nil, or_false] at hmem
    rcases hmem with rfl | rfl | rfl <;> cases hr <;> rfl
  rcases claim_exact partialFirst hkeyed "tenant" "run" backwards
    ⟨by decide, by decide⟩ 2 (by decide) "lease" "owner" 5 with
    ⟨g, ⟨hsize, hleast⟩, lease, m', hclaim, hleases⟩ | ⟨hnone, -⟩
  · have hg : g = "b" := by
      have hlease : (partialFirst.claimGroupIn backwards "tenant" "run" 2 "lease" "owner" 5).1 =
          .ok lease := by rw [hclaim]
      have hgroup := hleases.header.2.2.2.1
      cases hlease
      exact hgroup.symm
    subst hg
    exact ⟨lease, m', hclaim, hleases⟩
  · exact absurd (by decide) (hnone "b")

end Samples

end DataPlane
end Skyscale
