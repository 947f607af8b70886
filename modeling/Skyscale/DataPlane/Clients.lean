import Mathlib.Data.List.Infix
import Skyscale.DataPlane.Contents

/-!
# What a client sees of the stores

The records of all tenants and runs are in one map, their blobs in another, and the lease ids are
shared too.  A client is a pair of a tenant and a run.

* `Agrees` is what a client can see of the stores: its records, and the blobs below its prefix;
* `Own` says what the operations of a client's calls are about, and `Held` that a lease id leads
  to records of one client only;
* `follows_of_own`: a client's operation goes the same way without the records of the others;
* `hidden_of_own`: a client does not see the operations of the others;
* the operations of a sweep act on each client's records alone.
-/

namespace Skyscale
namespace DataPlane

open Lib Contracts

/-! ## Clients -/

/-- A tenant and a run. -/
abbrev Client : Type := String × String

def SampleRecord.client (r : SampleRecord) : Client := (r.tenantID, r.runID)

/-- The ids do not contain the separator of record keys. -/
def NulFree (c : Client) : Prop := '\x00' ∉ c.1.toList ∧ '\x00' ∉ c.2.toList

instance (c : Client) : Decidable (NulFree c) := inferInstanceAs (Decidable (_ ∧ _))

/-- The ids contain no separator of a record key or a blob key. -/
def Clean (c : Client) : Prop := NulFree c ∧ '/' ∉ c.1.toList ∧ '/' ∉ c.2.toList

instance (c : Client) : Decidable (Clean c) := inferInstanceAs (Decidable (_ ∧ _))

/-- The blob key lies below the client's tenant and run. -/
def Below (c : Client) (key : String) : Prop :=
  ("samples/" ++ c.1 ++ "/" ++ c.2 ++ "/").toList <+: key.toList

instance (c : Client) (key : String) : Decidable (Below c key) :=
  inferInstanceAs (Decidable (List.IsPrefix _ _))

/-! ## Keys -/

section Keys

theorem cut_unique {β : Type} {x : β} {a a' b b' : List β} (ha : x ∉ a) (ha' : x ∉ a')
    (h : a ++ x :: b = a' ++ x :: b') : a = a' ∧ b = b' := by
  induction a generalizing a' with
  | nil =>
    cases a' with
    | nil => exact ⟨rfl, (List.cons.inj h).2⟩
    | cons y a' =>
      cases (List.cons.inj h).1
      exact absurd List.mem_cons_self ha'
  | cons y a ih =>
    cases a' with
    | nil =>
      cases (List.cons.inj h).1
      exact absurd List.mem_cons_self ha
    | cons z a' =>
      obtain ⟨rfl, hrest⟩ := List.cons.inj h
      obtain ⟨rfl, rfl⟩ := ih (fun hx => ha (List.mem_cons_of_mem _ hx))
        (fun hx => ha' (List.mem_cons_of_mem _ hx)) hrest
      exact ⟨rfl, rfl⟩

theorem sampleKey_inj {c c' : Client} {sampleID sampleID' : String} (hc : NulFree c)
    (hc' : NulFree c') (h : sampleKey c.1 c.2 sampleID = sampleKey c'.1 c'.2 sampleID') :
    c = c' ∧ sampleID = sampleID' := by
  have hlist := congrArg String.toList h
  simp only [sampleKey, String.toList_append, List.append_assoc] at hlist
  obtain ⟨htenant, hrest⟩ := cut_unique hc.1 hc'.1 hlist
  obtain ⟨hrun, hsample⟩ := cut_unique hc.2 hc'.2 hrest
  exact ⟨Prod.ext (String.toList_inj.mp htenant) (String.toList_inj.mp hrun),
    String.toList_inj.mp hsample⟩

theorem Below.unique {c c' : Client} {key : String} (hc : Clean c) (hc' : Clean c')
    (h : Below c key) (h' : Below c' key) : c = c' := by
  obtain ⟨rest, hrest⟩ := h
  obtain ⟨rest', hrest'⟩ := h'
  have hlist := hrest.trans hrest'.symm
  simp only [String.toList_append, List.append_assoc, List.append_cancel_left_eq] at hlist
  obtain ⟨htenant, htail⟩ := cut_unique hc.2.1 hc'.2.1 hlist
  obtain ⟨hrun, -⟩ := cut_unique hc.2.2 hc'.2.2 htail
  exact Prod.ext (String.toList_inj.mp htenant) (String.toList_inj.mp hrun)

end Keys

/-! ## The records of a client -/

/-- The record is the client's. -/
def mine (c : Client) (r : SampleRecord) : Bool := r.client = c

theorem mine_iff {c : Client} {r : SampleRecord} : mine c r = true ↔ r.client = c :=
  decide_eq_true_iff

theorem mine_of_ne {c : Client} {r : SampleRecord} (h : r.client ≠ c) : mine c r = false :=
  decide_eq_false h

@[simp]
theorem mine_unlease (c : Client) (r : SampleRecord) (state : SampleState) :
    mine c (r.unlease state) = mine c r := rfl

namespace Samples

variable {m : Samples} {c p : Client}

theorem available_keep : Samples.available (m.keep (mine p)) p.1 p.2 = m.available p.1 p.2 := by
  unfold Samples.available
  rw [FinMap.values_keep, List.filter_filter]
  refine List.filter_congr fun r _ => ?_
  by_cases hr : r.client = p
  · simp [mine, hr]
  · have hother : ¬(r.tenantID = p.1 ∧ r.runID = p.2) := fun h => hr (Prod.ext h.1 h.2)
    simp only [mine, hr, decide_false, Bool.and_false]
    rw [eq_comm, Bool.and_eq_false_iff, Bool.and_eq_false_iff, decide_eq_false_iff_not,
      decide_eq_false_iff_not]
    exact .inl (not_and_or.mp hother)

theorem group_keep (promptGroupID : String) :
    Samples.group (m.keep (mine p)) p.1 p.2 promptGroupID = m.group p.1 p.2 promptGroupID := by
  unfold Samples.group
  rw [available_keep]

theorem listRun_keep : Samples.listRun (m.keep (mine p)) p.1 p.2 = m.listRun p.1 p.2 := by
  unfold Samples.listRun
  rw [FinMap.values_keep, List.filter_filter]
  congr 1
  refine List.filter_congr fun r _ => ?_
  simp only [mine, SampleRecord.client, Prod.ext_iff, Bool.decide_and, Bool.and_self]

theorem foldl_set_keep {rs : List SampleRecord} (hrs : ∀ r ∈ rs, mine p r = true) :
    (rs.foldl (fun m r => m.set r.key r) m).keep (mine p) =
      rs.foldl (fun m r => m.set r.key r) (m.keep (mine p)) := by
  induction rs generalizing m with
  | nil => rfl
  | cons r rs ih =>
    rw [List.foldl_cons, List.foldl_cons, ih fun r' hr' => hrs r' (List.mem_cons_of_mem r hr'),
      FinMap.keep_set (hrs r List.mem_cons_self)]

theorem foldl_set_hidden {rs : List SampleRecord} (hrs : ∀ r ∈ rs, mine p r = false)
    (hold : ∀ r ∈ rs, ∀ u, m.get r.key = some u → mine p u = false) :
    (rs.foldl (fun m r => m.set r.key r) m).keep (mine p) = m.keep (mine p) := by
  induction rs generalizing m with
  | nil => rfl
  | cons r rs ih =>
    have hr := hrs r List.mem_cons_self
    rw [List.foldl_cons, ih fun r' hr' => hrs r' (List.mem_cons_of_mem r hr'),
      FinMap.keep_set_of_not hr (hold r List.mem_cons_self)]
    intro r' hr' u hu
    obtain ⟨_, rfl⟩ | ⟨_, hu⟩ := FinMap.get_set_cases hu
    · exact hr
    · exact hold r' (List.mem_cons_of_mem r hr') u hu

theorem claimGroup_keep (expected : Int) (leaseID owner : String) (expires : Int) :
    Samples.claimGroup (m.keep (mine p)) p.1 p.2 expected leaseID owner expires =
      ((m.claimGroup p.1 p.2 expected leaseID owner expires).1,
        (m.claimGroup p.1 p.2 expected leaseID owner expires).2.keep (mine p)) := by
  have hgroups : Samples.completeGroups (m.keep (mine p)) p.1 p.2 expected =
      m.completeGroups p.1 p.2 expected := by
    unfold Samples.completeGroups
    rw [available_keep]
    simp only [group_keep]
  unfold Samples.claimGroup
  rw [hgroups]
  split
  · rfl
  · rename_i promptGroupID _ _
    rw [group_keep]
    refine Prod.ext rfl (foldl_set_keep fun r hr => ?_).symm
    obtain ⟨r0, hr0, rfl⟩ := List.mem_map.mp hr
    have hgroup := (List.perm_insertionSort _ _).mem_iff.mp hr0
    rw [mem_group_iff] at hgroup
    exact mine_iff.mpr (Prod.ext hgroup.1.2.1 hgroup.1.2.2.1)

theorem claimGroup_hidden (hkeyed : m.Keyed) (hne : c ≠ p) (expected : Int)
    (leaseID owner : String) (expires : Int) :
    (m.claimGroup c.1 c.2 expected leaseID owner expires).2.keep (mine p) = m.keep (mine p) := by
  unfold Samples.claimGroup
  split
  · rfl
  · rename_i promptGroupID _ _
    have hleased : ∀ r ∈ ((m.group c.1 c.2 promptGroupID).insertionSort fun r r' =>
        r.sampleID ≤ r'.sampleID).map (fun r => r.lease leaseID owner expires),
        ∃ r0, m.get r.key = some r0 ∧ r0.client = c ∧ r.client = c := by
      intro r hr
      obtain ⟨r0, hr0, rfl⟩ := List.mem_map.mp hr
      have hgroup := (List.perm_insertionSort _ _).mem_iff.mp hr0
      rw [mem_group_iff] at hgroup
      obtain ⟨⟨⟨k, hk⟩, htenant, hrun, -⟩, -⟩ := hgroup
      have hclient : r0.client = c := Prod.ext htenant hrun
      refine ⟨r0, ?_, hclient, hclient⟩
      rw [SampleRecord.key_lease, hkeyed k r0 hk]
      exact hk
    refine foldl_set_hidden (fun r hr => ?_) fun r hr u hu => ?_
    · obtain ⟨_, -, -, hclient⟩ := hleased r hr
      exact mine_of_ne (hclient ▸ hne)
    · obtain ⟨r0, hrow, hclient, -⟩ := hleased r hr
      cases hrow.symm.trans hu
      exact mine_of_ne (hclient ▸ hne)

/-- The visits of the client's records. -/
def ownVisits (p : Client) (m : Samples) (visits : List (String × Int)) : List (String × Int) :=
  visits.filter fun visit => (m.get visit.1).any (mine p)

theorem ownVisits_set {k : String} {r r' : SampleRecord} (hrow : m.get k = some r)
    (hsame : mine p r' = mine p r) (visits : List (String × Int)) :
    ownVisits p (m.set k r') visits = ownVisits p m visits := by
  refine List.filter_congr fun visit _ => ?_
  rw [FinMap.get_set]
  split
  · rename_i hk
    rw [hk, hrow, Option.any_some, Option.any_some, hsame]
  · rfl

/-- Finishing a lease of the client's records: the visits of other records do nothing. -/
theorem finishLoop_keep {leaseID : String}
    (h : ∀ k r, m.get k = some r → r.leaseID = leaseID → r.client = p) (owner : String)
    (ack : Bool) (reason : String) (visits : List (String × Int)) (found : Bool) :
    finishLoop leaseID owner ack reason (ownVisits p m visits) found (m.keep (mine p)) =
      ((finishLoop leaseID owner ack reason visits found m).1,
        (finishLoop leaseID owner ack reason visits found m).2.keep (mine p)) := by
  induction visits generalizing found m with
  | nil => rfl
  | cons visit visits ih =>
    obtain ⟨k, now⟩ := visit
    cases hrow : m.get k with
    | none =>
      have hskip : ownVisits p m ((k, now) :: visits) = ownVisits p m visits :=
        List.filter_cons_of_neg (by rw [hrow]; nofun)
      rw [hskip, ih h, finishLoop, hrow]
    | some r =>
      by_cases hmine : mine p r = true
      · have hvisit : ownVisits p m ((k, now) :: visits) = (k, now) :: ownVisits p m visits :=
          List.filter_cons_of_pos (by rw [hrow]; exact hmine)
        have hkept : (m.keep (mine p)).get k = some r := by
          rw [FinMap.get_keep, hrow, Option.filter_some, if_pos hmine]
        have hset : ∀ state, (m.keep (mine p)).set k (r.unlease state) =
            (m.set k (r.unlease state)).keep (mine p) := fun state =>
          (FinMap.keep_set ((mine_unlease p r state).trans hmine)).symm
        rw [hvisit]
        simp only [finishLoop, hkept, hrow, hset]
        split
        · exact ih h found
        · split
          · rfl
          · -- the record is free now; the others are as before
            have hvisits : ownVisits p (m.set k (r.unlease (finishedState ack reason))) visits =
                ownVisits p m visits :=
              ownVisits_set hrow (mine_unlease _ _ _) visits
            rw [← hvisits]
            refine ih (fun k' r' hrow' hlease => ?_) true
            obtain ⟨_, rfl⟩ | ⟨_, hrow'⟩ := FinMap.get_set_cases hrow'
            · exact mine_iff.mp hmine
            · exact h k' r' hrow' hlease
      · have hskip : ownVisits p m ((k, now) :: visits) = ownVisits p m visits :=
          List.filter_cons_of_neg (by rw [hrow]; exact hmine)
        have hother : r.leaseID ≠ leaseID := fun hlease =>
          hmine (mine_iff.mpr (h k r hrow hlease))
        rw [hskip, ih h]
        simp only [finishLoop, hrow, if_pos hother]

theorem finishLoop_hidden {leaseID : String} (hne : c ≠ p)
    (h : ∀ k r, m.get k = some r → r.leaseID = leaseID → r.client = c) (owner : String)
    (ack : Bool) (reason : String) (visits : List (String × Int)) (found : Bool) :
    (finishLoop leaseID owner ack reason visits found m).2.keep (mine p) = m.keep (mine p) := by
  induction visits generalizing found m with
  | nil => rfl
  | cons visit visits ih =>
    obtain ⟨k, now⟩ := visit
    simp only [finishLoop]
    split
    · exact ih h found
    · rename_i r hrow
      split
      · exact ih h found
      · rename_i hlease
        split
        · rfl
        · have hclient : r.client = c := h k r hrow (not_not.mp hlease)
          have hother : mine p r = false := mine_of_ne (hclient ▸ hne)
          rw [ih]
          · refine FinMap.keep_set_of_not hother fun u hu => ?_
            cases hrow.symm.trans hu
            exact hother
          · intro k' r' hrow' hlease'
            obtain ⟨_, rfl⟩ | ⟨_, hrow'⟩ := FinMap.get_set_cases hrow'
            · exact hclient
            · exact h k' r' hrow' hlease'

end Samples

/-! ## What a client sees -/

/-- The stores as the client sees them: its records, the blobs below it, clock readings and lease
ids that are possible. -/
structure Agrees (p : Client) (w v : World) : Prop where
  samples : v.samples = w.samples.keep (mine p)
  blobs : ∀ key, Below p key → v.blobs.data.get key = w.blobs.data.get key ∧
    v.blobs.checksums.get key = w.blobs.checksums.get key
  clock : v.clock ≤ w.clock
  issued : ∀ id ∈ v.issued, id ∈ w.issued

/-- Every record belongs to a client with clean ids, and its blob lies below that client. -/
def Placed (w : World) : Prop :=
  ∀ k r, w.samples.get k = some r → Clean r.client ∧ Below r.client r.blobKey

/-- The lease id was issued, and leads to records of the client only. -/
structure Held (w : World) (c : Client) (leaseID : String) : Prop where
  issued : leaseID ∈ w.issued
  nonempty : leaseID ≠ ""
  records : ∀ k r, w.samples.get k = some r → r.leaseID = leaseID → r.client = c

/-- The operations of a client's calls are about the client: its tenant and run, blobs below it,
and leases it holds. -/
def Own (c : Client) : Op → List String → Prop
  | .now, _ => True
  | .uuid, _ => True
  | .putIfAbsent key _ _, _ => Below c key
  | .getBlob key, _ => Below c key
  | .insertSample r, _ => (r.client = c ∧ Below c r.blobKey) ∧ r.state = .available ∧ r.Unleased
  | .countAvailableGroups tenantID runID, _ => (tenantID, runID) = c
  | .claimGroup tenantID runID _ leaseID _ _, _ => (tenantID, runID) = c ∧ leaseID ≠ ""
  | .finishLease leaseID _ _ _, ids => leaseID ∈ ids
  | .listRun tenantID runID, _ => (tenantID, runID) = c
  | .deleteBlob _, _ => False
  | .releaseExpired _, _ => False
  | .deleteExpired _, _ => False

section Blobs

variable {b b' : Blobs} {key key' checksum : String} {value : Bytes}

theorem Blobs.putIfAbsent_congr (hdata : b'.data.get key = b.data.get key)
    (hsum : b'.checksums.get key = b.checksums.get key)
    (hdata' : b'.data.get key' = b.data.get key')
    (hsum' : b'.checksums.get key' = b.checksums.get key') :
    (b'.putIfAbsent key value checksum).1 = (b.putIfAbsent key value checksum).1 ∧
      (b'.putIfAbsent key value checksum).2.data.get key' =
        (b.putIfAbsent key value checksum).2.data.get key' ∧
      (b'.putIfAbsent key value checksum).2.checksums.get key' =
        (b.putIfAbsent key value checksum).2.checksums.get key' := by
  unfold Blobs.putIfAbsent
  rw [hdata, hsum]
  split
  · exact ⟨rfl, hdata', hsum'⟩
  · split
    · exact ⟨rfl, hdata', hsum'⟩
    · dsimp only
      rw [FinMap.get_set, FinMap.get_set, FinMap.get_set, FinMap.get_set, hdata', hsum']
      exact ⟨rfl, rfl, rfl⟩

theorem Blobs.get_putIfAbsent_ne (hne : key' ≠ key) :
    (b.putIfAbsent key value checksum).2.data.get key' = b.data.get key' ∧
      (b.putIfAbsent key value checksum).2.checksums.get key' = b.checksums.get key' := by
  unfold Blobs.putIfAbsent
  split
  · exact ⟨rfl, rfl⟩
  · split
    · exact ⟨rfl, rfl⟩
    · exact ⟨FinMap.get_set_ne _ _ hne, FinMap.get_set_ne _ _ hne⟩

end Blobs

section Operations

variable {p c : Client} {w w' v : World} {op : Op} {ans : Ans op} {ids : List String}

theorem Agrees.get_key (h : Agrees p w v) (hp : Clean p) (hkeyed : w.samples.Keyed)
    (hplaced : Placed w) {r : SampleRecord} (hr : r.client = p) :
    v.samples.get r.key = w.samples.get r.key := by
  rw [h.samples, FinMap.get_keep]
  cases hrow : w.samples.get r.key with
  | none => rfl
  | some r' =>
    have hkey : sampleKey r'.client.1 r'.client.2 r'.sampleID =
        sampleKey r.client.1 r.client.2 r.sampleID := hkeyed _ _ hrow
    have hclean : NulFree r.client := hr ▸ hp.1
    obtain ⟨hclient, -⟩ := sampleKey_inj (hplaced _ _ hrow).1.1 hclean hkey
    rw [Option.filter_some, if_pos (mine_iff.mpr (hclient.trans hr))]

/-- A client's lease can be finished without the records of others. -/
theorem Agrees.finishLease (h : Agrees p w v) {leaseID owner reason : String} {ack : Bool}
    {ans : Ans (.finishLease leaseID owner ack reason)} (hheld : Held w p leaseID)
    (hexec : exec w (.finishLease leaseID owner ack reason) ans w') :
    ∃ v', exec v (.finishLease leaseID owner ack reason) ans v' ∧ Agrees p w' v' := by
  obtain ⟨visits, t, hperm, hclock, rfl, rfl⟩ := hexec
  have hloop := Samples.finishLoop_keep hheld.records owner ack reason visits false
  obtain ⟨hfirst, hsorted⟩ := List.pairwise_cons.mp hclock
  have hsub : (Samples.ownVisits p w.samples visits).Sublist visits := List.filter_sublist
  refine ⟨{ v with
      samples := (v.samples.finishLease (Samples.ownVisits p w.samples visits) leaseID owner ack
        reason).2
      clock := t }, ⟨Samples.ownVisits p w.samples visits, t, ?_, ?_, ?_, rfl⟩, ?_⟩
  · -- the client's keys are visited, in the same order
    rw [h.samples, FinMap.keys_keep, Samples.ownVisits]
    have hmap : (visits.filter fun visit => (w.samples.get visit.1).any (mine p)).map Prod.fst =
        (visits.map Prod.fst).filter fun k => (w.samples.get k).any (mine p) := by
      rw [List.filter_map]
      rfl
    rw [hmap]
    exact hperm.filter _
  · have hsublist := (hsub.map Prod.snd).append (List.Sublist.refl [t])
    refine List.pairwise_cons.mpr ⟨fun x hx => ?_, hsorted.sublist hsublist⟩
    exact le_trans h.clock (hfirst x (hsublist.subset hx))
  · rw [h.samples]
    exact (congrArg Prod.fst hloop).symm
  · refine ⟨?_, h.blobs, le_refl _, h.issued⟩
    rw [h.samples]
    exact congrArg Prod.snd hloop

/-- A client's operation has the same answer and effect for the client without the others. -/
theorem follows_of_own (h : Agrees p w v) (hp : Clean p) (hkeyed : w.samples.Keyed)
    (hplaced : Placed w) (hown : Own p op ids) (hheld : ∀ id ∈ ids, Held w p id)
    (hexec : exec w op ans w') : ∃ v', exec v op ans v' ∧ Agrees p w' v' := by
  cases op with
  | now =>
    obtain ⟨hlater, rfl⟩ := hexec
    exact ⟨{ v with clock := ans }, ⟨le_trans h.clock hlater, rfl⟩, h.samples, h.blobs,
      le_refl _, h.issued⟩
  | uuid =>
    obtain rfl : w' = w := hexec
    exact ⟨v, rfl, h⟩
  | putIfAbsent key value checksum =>
    obtain ⟨rfl, rfl⟩ := hexec
    obtain ⟨hdata, hsum⟩ := h.blobs key hown
    refine ⟨{ v with blobs := (v.blobs.putIfAbsent key value checksum).2 }, ⟨?_, rfl⟩, h.samples,
      fun key' hkey' => ?_, h.clock, h.issued⟩
    · exact (Blobs.putIfAbsent_congr hdata hsum hdata hsum).1.symm
    · obtain ⟨hdata', hsum'⟩ := h.blobs key' hkey'
      exact (Blobs.putIfAbsent_congr hdata hsum hdata' hsum').2
  | getBlob key =>
    obtain ⟨rfl, rfl⟩ := hexec
    refine ⟨v, ⟨?_, rfl⟩, h⟩
    unfold Blobs.get
    rw [(h.blobs key hown).1]
  | deleteBlob | releaseExpired | deleteExpired => exact hown.elim
  | insertSample r =>
    obtain ⟨rfl, rfl⟩ := hexec
    have hkey := h.get_key hp hkeyed hplaced hown.1.1
    refine ⟨{ v with samples := (v.samples.insertSample r).2 }, ⟨?_, rfl⟩, ?_, h.blobs, h.clock,
      h.issued⟩
    · unfold Samples.insertSample
      rw [hkey]
      cases w.samples.get r.key <;> rfl
    · show (v.samples.insertSample r).2 = (w.samples.insertSample r).2.keep (mine p)
      unfold Samples.insertSample
      rw [hkey]
      cases w.samples.get r.key with
      | some existing => exact h.samples
      | none =>
        show v.samples.set r.key r = (w.samples.set r.key r).keep (mine p)
        rw [FinMap.keep_set (mine_iff.mpr hown.1.1), h.samples]
  | countAvailableGroups tenantID runID =>
    obtain ⟨rfl, rfl⟩ := hexec
    obtain rfl := hown
    refine ⟨v, ⟨?_, rfl⟩, h⟩
    rw [h.samples]
    unfold Samples.countAvailableGroups
    rw [Samples.available_keep (p := (tenantID, runID))]
  | claimGroup tenantID runID expected leaseID owner expires =>
    obtain ⟨hfresh, rfl, rfl⟩ := hexec
    obtain ⟨rfl, -⟩ := hown
    have hclaim := Samples.claimGroup_keep (m := w.samples) (p := (tenantID, runID)) expected
      leaseID owner expires
    rw [← h.samples] at hclaim
    refine ⟨{ v with
        samples := (v.samples.claimGroup tenantID runID expected leaseID owner expires).2
        issued := leaseID :: v.issued }, ⟨fun hid => hfresh (h.issued _ hid), ?_, rfl⟩, ?_,
      h.blobs, h.clock, ?_⟩
    · exact (congrArg Prod.fst hclaim).symm
    · exact congrArg Prod.snd hclaim
    · intro id hid
      rcases List.mem_cons.mp hid with rfl | hid
      · exact List.mem_cons_self
      · exact List.mem_cons_of_mem _ (h.issued id hid)
  | finishLease leaseID owner ack reason => exact h.finishLease (hheld leaseID hown) hexec
  | listRun tenantID runID =>
    obtain ⟨rfl, rfl⟩ := hexec
    obtain rfl := hown
    refine ⟨v, ⟨?_, rfl⟩, h⟩
    rw [h.samples, Samples.listRun_keep (p := (tenantID, runID))]

/-- Others' operations are not seen. -/
theorem hidden_of_own (h : Agrees p w v) (hp : Clean p) (hc : Clean c) (hne : c ≠ p)
    (hkeyed : w.samples.Keyed) (hown : Own c op ids) (hheld : ∀ id ∈ ids, Held w c id)
    (hexec : exec w op ans w') : Agrees p w' v := by
  cases op with
  | now =>
    obtain ⟨hlater, rfl⟩ := hexec
    exact ⟨h.samples, h.blobs, le_trans h.clock hlater, h.issued⟩
  | uuid =>
    obtain rfl : w' = w := hexec
    exact h
  | getBlob | countAvailableGroups | listRun =>
    obtain ⟨-, rfl⟩ := hexec
    exact h
  | putIfAbsent key value checksum =>
    obtain ⟨-, rfl⟩ := hexec
    refine ⟨h.samples, fun key' hkey' => ?_, h.clock, h.issued⟩
    have hother : key' ≠ key := by
      rintro rfl
      exact hne (Below.unique hc hp hown hkey')
    have hsame : (w.blobs.putIfAbsent key value checksum).2.data.get key' =
          w.blobs.data.get key' ∧
        (w.blobs.putIfAbsent key value checksum).2.checksums.get key' =
          w.blobs.checksums.get key' := Blobs.get_putIfAbsent_ne hother
    obtain ⟨hdata, hsum⟩ := hsame
    exact ⟨(h.blobs key' hkey').1.trans hdata.symm, (h.blobs key' hkey').2.trans hsum.symm⟩
  | deleteBlob | releaseExpired | deleteExpired => exact hown.elim
  | insertSample r =>
    obtain ⟨-, rfl⟩ := hexec
    refine ⟨?_, h.blobs, h.clock, h.issued⟩
    show v.samples = (w.samples.insertSample r).2.keep (mine p)
    unfold Samples.insertSample
    split
    · exact h.samples
    · rename_i hnone
      have hother : mine p r = false := mine_of_ne (hown.1.1 ▸ hne)
      show v.samples = (w.samples.set r.key r).keep (mine p)
      rw [FinMap.keep_set_of_not hother fun u hu => by cases hnone.symm.trans hu]
      exact h.samples
  | claimGroup tenantID runID expected leaseID owner expires =>
    obtain ⟨-, -, rfl⟩ := hexec
    obtain ⟨rfl, -⟩ := hown
    refine ⟨?_, h.blobs, h.clock, fun id hid => List.mem_cons_of_mem _ (h.issued id hid)⟩
    exact h.samples.trans
      (Samples.claimGroup_hidden hkeyed hne expected leaseID owner expires).symm
  | finishLease leaseID owner ack reason =>
    have hclock := clock_of_exec hexec
    obtain ⟨visits, t, -, -, -, rfl⟩ := hexec
    refine ⟨?_, h.blobs, le_trans h.clock hclock, h.issued⟩
    exact h.samples.trans
      (Samples.finishLoop_hidden hne (hheld leaseID hown).records owner ack reason visits
        false).symm

end Operations

/-! ### Sweeps -/

section Sweeps

variable {p : Client} {w w' v : World} {now : Int}

theorem Agrees.releaseExpired (h : Agrees p w v) {released : Ans (.releaseExpired now)}
    (hexec : exec w (.releaseExpired now) released w') :
    ∃ released' v', exec v (.releaseExpired now) released' v' ∧ Agrees p w' v' := by
  obtain ⟨-, rfl⟩ := hexec
  refine ⟨_, { v with samples := (v.samples.releaseExpired now).2 }, ⟨rfl, rfl⟩, ?_, h.blobs,
    h.clock, h.issued⟩
  show (v.samples.releaseExpired now).2 = (w.samples.releaseExpired now).2.keep (mine p)
  rw [h.samples]
  refine (FinMap.keep_mapVal fun r => ?_).symm
  split
  · exact mine_unlease p r _
  · rfl

theorem Agrees.deleteExpired (h : Agrees p w v) {records : Ans (.deleteExpired now)}
    (hexec : exec w (.deleteExpired now) records w') :
    ∃ v', exec v (.deleteExpired now) (List.filter (mine p) records) v' ∧ Agrees p w' v' := by
  obtain ⟨hperm, rfl⟩ := hexec
  refine ⟨{ v with samples := (v.samples.deleteExpired now).2 }, ⟨?_, rfl⟩, ?_, h.blobs, h.clock,
    h.issued⟩
  · have hdeleted : (v.samples.deleteExpired now).1 =
        (w.samples.deleteExpired now).1.filter (mine p) := by
      unfold Samples.deleteExpired
      rw [h.samples, FinMap.values_keep, List.filter_comm]
    rw [hdeleted]
    exact hperm.filter _
  · show (v.samples.deleteExpired now).2 = (w.samples.deleteExpired now).2.keep (mine p)
    unfold Samples.deleteExpired
    rw [h.samples, FinMap.keep_comm]

theorem Agrees.deleteBlob (h : Agrees p w v) {key : String} {ans : Ans (.deleteBlob key)}
    (hexec : exec w (.deleteBlob key) ans w') :
    ∃ v', exec v (.deleteBlob key) ans v' ∧ Agrees p w' v' := by
  obtain rfl : w' = { w with blobs := w.blobs.delete key } := hexec
  refine ⟨{ v with blobs := v.blobs.delete key }, rfl, h.samples, fun key' hkey' => ?_, h.clock,
    h.issued⟩
  obtain ⟨hdata, hsum⟩ := h.blobs key' hkey'
  show (v.blobs.data.del key).get key' = (w.blobs.data.del key).get key' ∧
    (v.blobs.checksums.del key).get key' = (w.blobs.checksums.del key).get key'
  rw [FinMap.get_del, FinMap.get_del, FinMap.get_del, FinMap.get_del, hdata, hsum]
  exact ⟨rfl, rfl⟩

theorem Agrees.deleteBlob_hidden (h : Agrees p w v) {key : String} {ans : Ans (.deleteBlob key)}
    (hexec : exec w (.deleteBlob key) ans w') (hkey : ¬Below p key) : Agrees p w' v := by
  obtain rfl : w' = { w with blobs := w.blobs.delete key } := hexec
  refine ⟨h.samples, fun key' hkey' => ?_, h.clock, h.issued⟩
  have hne : key' ≠ key := by
    rintro rfl
    exact hkey hkey'
  obtain ⟨hdata, hsum⟩ := h.blobs key' hkey'
  exact ⟨hdata.trans (FinMap.get_del_ne _ hne).symm, hsum.trans (FinMap.get_del_ne _ hne).symm⟩

end Sweeps

end DataPlane
end Skyscale
