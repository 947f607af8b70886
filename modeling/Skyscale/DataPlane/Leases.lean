import Skyscale.DataPlane.Store
import Skyscale.Lib.Run

/-!
# Leases of grouped samples

A lease is nothing but three fields that the records of a group share, and five calls set
and clear them.  This module proves that the fields always say what they should:

* `Change` lists what an operation can do to the record under one key;
* `Sound` is the invariant: exactly the leased records carry a lease id, the id was issued,
  and records with one id agree on everything a lease is about;
* `grants_of_claim` says what a successful `Claim` leases;
* `Serves.settled` says that a consumed or quarantined record stays as it is until `Sweep`
  deletes it.

The empty lease id is shared by all free records, so `Ack` and `Nack` with it would match
them.  They are turned away by the expiry: a free record carries the zero time, which lies
before every reading of the clock.
-/

namespace Skyscale
namespace DataPlane

open Lib Contracts

/-! ## What operations may do -/

/-- A record without a lease. -/
def SampleRecord.Unleased (r : SampleRecord) : Prop :=
  r.leaseID = "" ∧ r.leaseExpiresAt = zeroTime

/-- The operations of the calls: records are inserted available and free, and lease ids are
not empty.  Only `Sweep` deletes records, and it inserts none. -/
def Allowed (sweeps : Bool) : Op → Prop
  | .insertSample record => sweeps = false ∧ record.state = .available ∧ record.Unleased
  | .claimGroup _ _ _ leaseID _ _ => leaseID ≠ ""
  | .deleteExpired _ => sweeps = true
  | _ => True

def Call.sweeps : Call → Bool
  | .sweep _ => true
  | _ => false

section Programs

variable {codec : Codec} {s : Store}

theorem obeys_readPayloads {P : Op → Prop} (hget : ∀ key, P (.getBlob key))
    (hfinish : ∀ leaseID owner ack reason, P (.finishLease leaseID owner ack reason))
    (leaseID owner : String) (records : List SampleRecord) (payloads : List SampleEnvelope) :
    Only P (s.readPayloads codec leaseID owner records payloads) := by
  induction records generalizing payloads with
  | nil => exact Obeys.pure _
  | cons record records ih =>
    have habandon : ∀ (reason : String) (e : Error), Only P
        (abandon leaseID owner reason e : Prog Op Ans (Except Error (List SampleEnvelope))) :=
      fun reason e => Obeys.call (hfinish _ _ _ _) fun _ => Obeys.pure _
    refine Obeys.call (hget _) fun found => ?_
    split
    · exact habandon _ _
    · split
      · exact habandon _ _
      · split
        · exact habandon _ _
        · exact ih _

theorem obeys_claim {P : Op → Prop} (huuid : P .uuid) (hnow : P .now)
    (hclaim : ∀ tenantID runID expected uuid owner expires,
      P (.claimGroup tenantID runID expected ("lease-" ++ uuid) owner expires))
    (hget : ∀ key, P (.getBlob key))
    (hfinish : ∀ leaseID owner ack reason, P (.finishLease leaseID owner ack reason))
    (tenantID runID : String) (expectedGroupSize : Int) (owner : String) (duration : Int) :
    Only P
      (s.claim codec tenantID runID expectedGroupSize owner duration) := by
  unfold Store.claim
  split
  · exact Obeys.pure _
  refine Obeys.call huuid fun uuid => ?_
  refine Obeys.call hnow fun now => ?_
  refine Obeys.call (hclaim _ _ _ uuid _ _) fun granted => ?_
  split
  · exact Obeys.pure _
  · refine Obeys.bind (obeys_readPayloads hget hfinish _ _ _ _) fun payloads => ?_
    split <;> exact Obeys.pure _

theorem obeys_exportRun {P : Op → Prop} {tenantID runID : String}
    (hlist : P (.listRun tenantID runID)) (hget : ∀ key, P (.getBlob key)) :
    Only P (exportRun codec tenantID runID) := by
  have hloop : ∀ (records : List SampleRecord) (out : List SampleEnvelope),
      Only P (exportPayloads codec records out) := by
    intro records
    induction records with
    | nil => exact fun out => Obeys.pure _
    | cons record records ih =>
      intro out
      refine Obeys.call (hget _) fun found => ?_
      split
      · exact Obeys.pure _
      · split
        · exact Obeys.pure _
        · exact ih _
  exact Obeys.call hlist fun records => hloop records []

theorem allowed_put (sample : SampleEnvelope) :
    Only (Allowed false) (s.put codec sample) := by
  unfold Store.put
  split
  · exact Obeys.pure _
  refine Obeys.call trivial fun groups => ?_
  split
  · exact Obeys.pure _
  split
  · exact Obeys.pure _
  refine Obeys.call trivial fun stored => ?_
  split
  · exact Obeys.pure _
  refine Obeys.call trivial fun now => ?_
  refine Obeys.call ⟨rfl, rfl, rfl, rfl⟩ fun inserted => ?_
  dsimp only
  split <;> exact Obeys.pure _

theorem lease_ne_empty (uuid : String) : "lease-" ++ uuid ≠ "" := by
  intro h
  have hlist := congrArg String.toList h
  rw [String.toList_append] at hlist
  cases (List.append_eq_nil_iff.mp hlist).1

theorem allowed_program (call : Call) :
    Only (Allowed call.sweeps) (program codec s call) := by
  cases call with
  | put sample => exact allowed_put sample
  | claim tenantID runID expectedGroupSize owner duration =>
    exact obeys_claim trivial trivial (fun _ _ _ uuid _ _ => lease_ne_empty uuid)
      (fun _ => trivial) (fun _ _ _ _ => trivial) tenantID runID expectedGroupSize owner duration
  | ack leaseID owner | nack leaseID owner reason => exact Obeys.perform trivial
  | backpressure tenantID runID => exact Obeys.call trivial fun _ => Obeys.pure _
  | exportRun tenantID runID => exact obeys_exportRun trivial (fun _ => trivial)
  | sweep now =>
    refine Obeys.call trivial fun released => ?_
    refine Obeys.call rfl fun records => ?_
    refine Obeys.bind (Obeys.forEach fun record _ => Obeys.perform trivial) fun _ => ?_
    exact Obeys.pure _

end Programs

/-! ## The record under one key -/

/-- What an operation does to the record under a key; `group` is the prompt group a claim
takes. -/
inductive Change (op : Op) (group k : String) : Option SampleRecord → Option SampleRecord → Prop
  | same (stored : Option SampleRecord) : Change op group k stored stored
  | insert {r : SampleRecord} (hop : op = .insertSample r) (hkey : r.key = k) :
      Change op group k none (some r)
  | lease {r : SampleRecord} {tenantID runID : String} {expected : Int} {leaseID owner : String}
      {expires : Int} (hop : op = .claimGroup tenantID runID expected leaseID owner expires)
      (hgroup : Samples.inGroup tenantID runID group r = true) :
      Change op group k (some r) (some (r.lease leaseID owner expires))
  | unlease {r : SampleRecord} {state : SampleState} (hleased : r.state = .leased)
      (hstate : state ≠ .leased) : Change op group k (some r) (some (r.unlease state))
  | delete {r : SampleRecord} {now : Int} (hop : op = .deleteExpired now)
      (hfree : r.state ≠ .leased) : Change op group k (some r) none

/-- Records under one lease agree on what the lease is about. -/
structure SameLease (r r' : SampleRecord) : Prop where
  tenantID : r.tenantID = r'.tenantID
  runID : r.runID = r'.runID
  promptGroupID : r.promptGroupID = r'.promptGroupID
  owner : r.leaseOwner = r'.leaseOwner
  expiresAt : r.leaseExpiresAt = r'.leaseExpiresAt

/-- The invariant of the metadata. -/
structure Sound (w : World) : Prop where
  clock : zeroTime < w.clock
  keyed : w.samples.Keyed
  leased : ∀ k r, w.samples.get k = some r → r.state = .leased →
    r.leaseID ≠ "" ∧ r.leaseID ∈ w.issued
  free : ∀ k r, w.samples.get k = some r → r.state ≠ .leased → r.Unleased
  alike : ∀ k k' r r', w.samples.get k = some r → w.samples.get k' = some r' →
    r.leaseID ≠ "" → r.leaseID = r'.leaseID → SameLease r r'

section Operations

variable {sweeps : Bool} {w w' : World} {op : Op} {ans : Ans op} {k : String} {r : SampleRecord}

theorem finishedState_ne_leased (ack : Bool) (reason : String) :
    Samples.finishedState ack reason ≠ .leased := by
  unfold Samples.finishedState
  split
  · nofun
  · split <;> nofun

theorem Sound.leased_of_unexpired (h : Sound w) (hrow : w.samples.get k = some r) {now : Int}
    (hclock : w.clock ≤ now) (hexpiry : now ≤ r.leaseExpiresAt) : r.state = .leased := by
  by_contra hstate
  have hzero := (h.free k r hrow hstate).2
  have hpast := h.clock
  omega

/-- What an operation does, key by key. -/
theorem changes_of_exec (h : Sound w) (hexec : exec w op ans w') :
    ∃ group, ∀ k, Change op group k (w.samples.get k) (w'.samples.get k) := by
  cases op with
  | now | uuid | putIfAbsent | getBlob | deleteBlob | countAvailableGroups | listRun =>
    refine ⟨"", fun k => ?_⟩
    have hsamples : w'.samples = w.samples := by
      first
      | rw [hexec.2]
      | rw [show w' = _ from hexec]
    rw [hsamples]
    exact .same _
  | insertSample record =>
    refine ⟨"", fun k => ?_⟩
    rw [hexec.2, Samples.get_insertSample]
    split
    · rename_i hk
      subst hk
      cases hstored : w.samples.get record.key with
      | none => exact .insert rfl rfl
      | some existing => exact .same _
    · exact .same _
  | claimGroup tenantID runID expected leaseID owner expires =>
    obtain ⟨-, -, hw'⟩ := hexec
    cases hclaim : w.samples.claimGroup tenantID runID expected leaseID owner expires with
    | mk answer m' =>
      rw [hclaim] at hw'
      cases answer with
      | error e =>
        -- only a missing group makes a claim fail
        refine ⟨"", fun k => ?_⟩
        have hm' : m' = w.samples := by
          unfold Samples.claimGroup at hclaim
          split at hclaim
          · cases hclaim
            rfl
          · cases hclaim
        rw [hw', hm']
        exact .same _
      | ok lease =>
        have hgrants := Samples.grants_of_claimGroup h.keyed hclaim
        refine ⟨lease.promptGroupID, fun k => ?_⟩
        rw [hw', hgrants.stored k]
        cases hrow : w.samples.get k with
        | none => exact .same _
        | some r =>
          rw [Option.map_some]
          split
          · rename_i hgroup
            exact .lease rfl hgroup
          · exact .same _
  | finishLease leaseID owner ack reason =>
    obtain ⟨visits, t, hperm, hclock, -, hw'⟩ := hexec
    refine ⟨"", fun k => ?_⟩
    rw [hw']
    have hnodup : (visits.map Prod.fst).Nodup := hperm.nodup_iff.mpr w.samples.keys_nodup
    rcases w.samples.get_of_finishLease leaseID owner ack reason k hnodup with
      hsame | ⟨r, now, hvisit, hrow, -, -, hexpiry, hfinished⟩
    · rw [hsame]
      exact .same _
    · have hlater : w.clock ≤ now := by
        refine (List.pairwise_cons.mp hclock).1 now (List.mem_append_left _ ?_)
        exact List.mem_map_of_mem (f := Prod.snd) hvisit
      rw [hfinished, hrow]
      exact .unlease (h.leased_of_unexpired hrow hlater hexpiry)
        (finishedState_ne_leased ack reason)
  | releaseExpired now =>
    refine ⟨"", fun k => ?_⟩
    rw [hexec.2]
    show Change _ _ _ _ ((w.samples.releaseExpired now).2.get k)
    rw [Samples.releaseExpired, FinMap.get_mapVal]
    cases hrow : w.samples.get k with
    | none => exact .same _
    | some r =>
      rw [Option.map_some]
      split
      · rename_i hexpired
        simp only [Samples.leaseExpired, Bool.and_eq_true, decide_eq_true_eq] at hexpired
        exact .unlease hexpired.1 nofun
      · exact .same _
  | deleteExpired now =>
    refine ⟨"", fun k => ?_⟩
    rw [hexec.2]
    show Change _ _ _ _ ((w.samples.deleteExpired now).2.get k)
    rw [Samples.deleteExpired, FinMap.get_keep]
    cases hrow : w.samples.get k with
    | none => exact .same _
    | some r =>
      cases hretention : Samples.retentionExpired now r with
      | false =>
        rw [Option.filter_some, if_pos (by rw [hretention]; rfl)]
        exact .same _
      | true =>
        rw [Option.filter_some, if_neg (by rw [hretention]; nofun)]
        simp only [Samples.retentionExpired, Bool.and_eq_true, decide_eq_true_eq] at hretention
        exact .delete rfl hretention.1

/-- Where a record of the new state comes from. -/
theorem change_of_row {k : String} {r : SampleRecord} (h : Sound w) (hexec : exec w op ans w')
    (hrow : w'.samples.get k = some r) :
    ∃ group old, w.samples.get k = old ∧ Change op group k old (some r) := by
  obtain ⟨group, hchanges⟩ := changes_of_exec h hexec
  exact ⟨group, _, rfl, hrow ▸ hchanges k⟩

theorem issued_of_exec (hexec : exec w op ans w') :
    w'.issued = w.issued ∨ ∃ tenantID runID expected leaseID owner expires,
      op = .claimGroup tenantID runID expected leaseID owner expires ∧ leaseID ∉ w.issued ∧
        w'.issued = leaseID :: w.issued := by
  cases op with
  | claimGroup tenantID runID expected leaseID owner expires =>
    obtain ⟨hfresh, -, hw'⟩ := hexec
    exact .inr ⟨_, _, _, _, _, _, rfl, hfresh, by rw [hw']⟩
  | finishLease leaseID owner ack reason =>
    obtain ⟨_, _, _, _, _, hw'⟩ := hexec
    exact .inl (by rw [hw'])
  | now | putIfAbsent | getBlob | insertSample | countAvailableGroups | releaseExpired
  | deleteExpired | listRun => exact .inl (by rw [hexec.2])
  | uuid | deleteBlob => exact .inl (by rw [show w' = _ from hexec])

theorem clock_of_exec (hexec : exec w op ans w') : w.clock ≤ w'.clock := by
  cases op with
  | now =>
    rw [hexec.2]
    exact hexec.1
  | finishLease leaseID owner ack reason =>
    obtain ⟨visits, t, -, hclock, -, hw'⟩ := hexec
    rw [hw']
    refine (List.pairwise_cons.mp hclock).1 t (List.mem_append_right _ List.mem_cons_self)
  | claimGroup tenantID runID expected leaseID owner expires => rw [hexec.2.2]
  | putIfAbsent | getBlob | insertSample | countAvailableGroups | releaseExpired | deleteExpired
  | listRun => rw [hexec.2]
  | uuid | deleteBlob => rw [show w' = _ from hexec]

/-- A record with a lease id was there before, or the operation is the claim that has
leased it. -/
theorem Change.leased {group : String} {old : Option SampleRecord}
    (h : Change op group k old (some r)) (hallowed : Allowed sweeps op) (hid : r.leaseID ≠ "") :
    old = some r ∨ ∃ r0 tenantID runID expected leaseID owner expires,
      old = some r0 ∧ op = .claimGroup tenantID runID expected leaseID owner expires ∧
        Samples.inGroup tenantID runID group r0 = true ∧ r = r0.lease leaseID owner expires := by
  cases h with
  | same => exact .inl rfl
  | insert hop _ =>
    subst hop
    exact absurd hallowed.2.2.1 hid
  | lease hop hgroup => exact .inr ⟨_, _, _, _, _, _, _, rfl, hop, hgroup, rfl⟩
  | unlease _ _ => exact absurd rfl hid

theorem issued_subset (hexec : exec w op ans w') : ∀ id ∈ w.issued, id ∈ w'.issued := by
  intro id hid
  rcases issued_of_exec hexec with hsame | ⟨_, _, _, _, _, _, _, _, hnew⟩
  · rwa [hsame]
  · rw [hnew]
    exact List.mem_cons_of_mem _ hid

/-- The invariant is kept. -/
theorem Sound.step (h : Sound w) (hallowed : Allowed sweeps op) (hexec : exec w op ans w') :
    Sound w' := by
  obtain ⟨group, hchanges⟩ := changes_of_exec h hexec
  have hchange : ∀ {k : String} {r : SampleRecord}, w'.samples.get k = some r →
      ∃ old, w.samples.get k = old ∧ Change op group k old (some r) := by
    intro k r hrow
    exact ⟨_, rfl, hrow ▸ hchanges k⟩
  refine ⟨lt_of_lt_of_le h.clock (clock_of_exec hexec), ?_, ?_, ?_, ?_⟩
  · intro k r hrow
    obtain ⟨old, hold, hc⟩ := hchange hrow
    cases hc with
    | same => exact h.keyed k r hold
    | insert _ hkey => exact hkey
    | lease => exact (SampleRecord.key_lease _ _ _ _).trans (h.keyed k _ hold)
    | unlease => exact (SampleRecord.key_unlease _ _).trans (h.keyed k _ hold)
  · intro k r hrow hleased
    obtain ⟨old, hold, hc⟩ := hchange hrow
    cases hc with
    | same =>
      obtain ⟨hid, hissued⟩ := h.leased k r hold hleased
      exact ⟨hid, issued_subset hexec _ hissued⟩
    | insert hop _ =>
      subst hop
      cases hallowed.2.1.symm.trans hleased
    | lease hop _ =>
      subst hop
      refine ⟨hallowed, ?_⟩
      rw [hexec.2.2]
      exact List.mem_cons_self
    | unlease _ hstate => exact absurd hleased hstate
  · intro k r hrow hfree
    obtain ⟨old, hold, hc⟩ := hchange hrow
    cases hc with
    | same => exact h.free k r hold hfree
    | insert hop _ =>
      subst hop
      exact hallowed.2.2
    | lease => exact absurd rfl hfree
    | unlease => exact ⟨rfl, rfl⟩
  · intro k k' r r' hrow hrow' hid heq
    obtain ⟨old, hold, hc⟩ := hchange hrow
    obtain ⟨old', hold', hc'⟩ := hchange hrow'
    -- an old record carries an issued id, a new one an id that was not issued
    have hissued : ∀ {k : String} {r : SampleRecord}, w.samples.get k = some r → r.leaseID ≠ "" →
        r.leaseID ∈ w.issued := by
      intro k r hrow hid
      by_cases hstate : r.state = .leased
      · exact (h.leased k r hrow hstate).2
      · exact absurd (h.free k r hrow hstate).1 hid
    rcases hc.leased hallowed hid with hsame | ⟨r0, _, _, _, _, _, _, -, hop, hgroup, rfl⟩
    · rcases hc'.leased hallowed (heq ▸ hid) with hsame' | ⟨_, _, _, _, _, _, _, -, hop', -, rfl⟩
      · exact h.alike k k' r r' (hold.trans hsame) (hold'.trans hsame') hid heq
      · subst hop'
        refine absurd (hissued (hold.trans hsame) hid) ?_
        rw [heq]
        exact hexec.1
    · subst hop
      rcases hc'.leased hallowed (heq ▸ hid)
        with hsame' | ⟨r1, _, _, _, _, _, _, -, hop', hgroup', rfl⟩
      · refine absurd (hissued (hold'.trans hsame') (heq ▸ hid)) ?_
        rw [← heq]
        exact hexec.1
      · cases hop'
        simp only [Samples.inGroup, Bool.and_eq_true, decide_eq_true_eq] at hgroup hgroup'
        obtain ⟨⟨⟨htenant, hrun⟩, -⟩, hprompt⟩ := hgroup
        obtain ⟨⟨⟨htenant', hrun'⟩, -⟩, hprompt'⟩ := hgroup'
        exact ⟨htenant.trans htenant'.symm, hrun.trans hrun'.symm, hprompt.trans hprompt'.symm,
          rfl, rfl⟩

/-- A sample that is consumed or quarantined. -/
def SampleRecord.Settled (r : SampleRecord) : Prop :=
  r.state = .consumed ∨ r.state = .quarantined

theorem Sound.settled (h : Sound w) (hallowed : Allowed sweeps op) (hexec : exec w op ans w')
    (hrow : w.samples.get k = some r) (hsettled : r.Settled) :
    w'.samples.get k = some r ∨ sweeps = true ∧ w'.samples.get k = none := by
  obtain ⟨group, hchanges⟩ := changes_of_exec h hexec
  have hchange := hchanges k
  rw [hrow] at hchange
  generalize w'.samples.get k = new at hchange
  cases hchange with
  | same => exact .inl rfl
  | lease _ hgroup =>
    simp only [Samples.inGroup, Bool.and_eq_true, decide_eq_true_eq] at hgroup
    rcases hsettled with hstate | hstate <;> cases hgroup.1.2.symm.trans hstate
  | unlease hleased _ => rcases hsettled with hstate | hstate <;> cases hleased.symm.trans hstate
  | delete hop _ =>
    subst hop
    exact .inr ⟨hallowed, rfl⟩

theorem Sound.present (h : Sound w) (hallowed : Allowed sweeps op) (hexec : exec w op ans w') :
    (sweeps = false → w.samples.get k ≠ none → w'.samples.get k ≠ none) ∧
      (sweeps = true → w.samples.get k = none → w'.samples.get k = none) := by
  obtain ⟨group, hchanges⟩ := changes_of_exec h hexec
  have hchange := hchanges k
  generalize w.samples.get k = old at hchange ⊢
  generalize w'.samples.get k = new at hchange ⊢
  cases hchange with
  | same => exact ⟨fun _ h => h, fun _ h => h⟩
  | insert hop _ =>
    subst hop
    refine ⟨nofun, fun hsweeps _ => ?_⟩
    cases hsweeps.symm.trans hallowed.1
  | lease | unlease => exact ⟨nofun, nofun⟩
  | delete hop _ =>
    subst hop
    refine ⟨fun hsweeps _ => ?_, nofun⟩
    cases hsweeps.symm.trans hallowed

end Operations

/-! ## Whole calls -/

section Calls

variable {codec : Codec} {s : Store} {w w' : World} {served : Served} {k : String}
  {r : SampleRecord}

theorem Serves.keeps {I : World → Prop} (h : Serves codec s w served w') (hsound : Sound w)
    (hstart : I w)
    (hstep : ∀ w op ans w', Sound w → I w → Allowed served.1.sweeps op → exec w op ans w' → I w') :
    Sound w' ∧ I w' :=
  Prog.Runs.invariant (I := fun w => Sound w ∧ I w) (A := fun _ _ => True)
    (fun _ _ _ _ hw hallowed hexec =>
      ⟨⟨hw.1.step hallowed hexec, hstep _ _ _ _ hw.1 hw.2 hallowed hexec⟩, trivial⟩)
    h (allowed_program served.1) ⟨hsound, hstart⟩

theorem Serves.sound (h : Serves codec s w served w') (hsound : Sound w) : Sound w' :=
  (h.keeps (I := fun _ => True) hsound trivial fun _ _ _ _ _ _ _ _ => trivial).1

theorem Serves.issued (h : Serves codec s w served w') (hsound : Sound w) :
    ∀ id ∈ w.issued, id ∈ w'.issued :=
  (h.keeps (I := fun w' => ∀ id ∈ w.issued, id ∈ w'.issued) hsound (fun _ hid => hid)
    fun _ _ _ _ _ hissued _ hexec id hid => issued_subset hexec id (hissued id hid)).2

theorem Serves.settled (h : Serves codec s w served w') (hsound : Sound w)
    (hrow : w.samples.get k = some r) (hsettled : r.Settled) :
    w'.samples.get k = some r ∨ served.1.sweeps = true ∧ w'.samples.get k = none := by
  refine (h.keeps (I := fun w' => w'.samples.get k = some r ∨
    served.1.sweeps = true ∧ w'.samples.get k = none) hsound (.inl hrow) ?_).2
  rintro w1 op ans w2 hsound1 (hrow1 | ⟨hsweeps, hnone⟩) hallowed hexec
  · exact hsound1.settled hallowed hexec hrow1 hsettled
  · exact .inr ⟨hsweeps, (hsound1.present hallowed hexec).2 hsweeps hnone⟩

theorem Serves.present (h : Serves codec s w served w') (hsound : Sound w)
    (hsweeps : served.1.sweeps = false) (hrow : w.samples.get k ≠ none) :
    w'.samples.get k ≠ none :=
  (h.keeps (I := fun w' => w'.samples.get k ≠ none) hsound hrow
    fun _ _ _ _ hsound1 hrow1 hallowed hexec =>
      (hsound1.present hallowed hexec).1 hsweeps hrow1).2

/-! ### Claims -/

theorem runs_readPayloads {leaseID owner : String} {records : List SampleRecord}
    {payloads result : List SampleEnvelope}
    (h : Prog.Runs exec w (s.readPayloads codec leaseID owner records payloads) (.ok result) w') :
    w' = w := by
  induction records generalizing payloads with
  | nil =>
    cases h
    rfl
  | cons record records ih =>
    -- giving the lease back ends with an error
    have habandon : ∀ (reason : String) (e : Error),
        ¬Prog.Runs exec w (abandon leaseID owner reason e) (Except.ok result) w' := by
      intro reason e habandon
      obtain ⟨_, _, _, hreturn⟩ := Prog.Runs.of_bind habandon
      cases hreturn
    obtain ⟨found, w1, hget, hrest⟩ := Prog.Runs.of_bind h
    obtain rfl := hget.of_perform.2
    split at hrest
    · exact absurd hrest (habandon _ _)
    split at hrest
    · exact absurd hrest (habandon _ _)
    · split at hrest
      · exact absurd hrest (habandon _ _)
      · exact ih hrest

theorem grants_of_exec {tenantID runID leaseID owner : String} {expected expires : Int}
    {lease : Lease} (hkeyed : w.samples.Keyed)
    (h : exec w (.claimGroup tenantID runID expected leaseID owner expires)
      (Except.ok lease : Except Error Lease) w') :
    lease.id ∉ w.issued ∧ lease.id ∈ w'.issued ∧
      Samples.Grants w.samples tenantID runID expected lease.id owner lease.expiresAt lease
        w'.samples := by
  obtain ⟨hfresh, hanswer, hw'⟩ := h
  have hgrants : Samples.Grants w.samples tenantID runID expected leaseID owner expires lease
      w'.samples := by
    refine Samples.grants_of_claimGroup hkeyed (Prod.ext hanswer.symm ?_)
    rw [hw']
  obtain ⟨hid, -, -, hexpires⟩ := hgrants.header
  rw [hid, hexpires]
  refine ⟨hfresh, ?_, hgrants⟩
  rw [hw']
  exact List.mem_cons_self

/-- The arguments that `Claim` requires. -/
def Claimable (tenantID runID : String) (n : Int) (owner : String) (duration : Int) : Prop :=
  ¬(tenantID = "" ∨ runID = "" ∨ n ≤ 0 ∨ owner = "" ∨ duration ≤ 0)

/-- A claim with the arguments it requires asks for a group and reads the payloads of the
lease it gets. -/
theorem claim_cases {tenantID runID owner : String} {n duration : Int}
    {result : Except Error (Lease × List SampleEnvelope)}
    (hargs : Claimable tenantID runID n owner duration)
    (h : Serves codec s w ⟨.claim tenantID runID n owner duration, result⟩ w') :
    ∃ uuid now, ∃ answer : Except Error Lease, ∃ w1, w.clock ≤ now ∧
      exec { w with clock := now }
        (.claimGroup tenantID runID n ("lease-" ++ uuid) owner (now + duration)) answer w1 ∧
      ((∃ e, answer = .error e ∧ result = .error e ∧ w' = w1) ∨
        ∃ lease read, answer = .ok lease ∧
          Prog.Runs exec w1 (s.readPayloads codec lease.id owner lease.samples []) read w' ∧
          result = read.map fun payloads => (lease, payloads)) := by
  unfold Serves program Store.claim at h
  dsimp only at h
  rw [if_neg hargs] at h
  obtain ⟨uuid, w1, huuid, h1⟩ := Prog.Runs.of_bind h
  obtain ⟨now, w2, hnow, h2⟩ := Prog.Runs.of_bind h1
  obtain ⟨answer, w3, hclaim, h3⟩ := Prog.Runs.of_bind h2
  obtain rfl : w1 = w := huuid.of_perform
  obtain ⟨hclock, rfl⟩ := hnow.of_perform
  refine ⟨uuid, now, answer, w3, hclock, hclaim.of_perform, ?_⟩
  cases answer with
  | error e =>
    cases h3
    exact .inl ⟨e, rfl, rfl, rfl⟩
  | ok lease =>
    obtain ⟨read, w4, hread, h4⟩ := Prog.Runs.of_bind h3
    refine .inr ⟨lease, read, rfl, ?_⟩
    cases read with
    | error e | ok payloads =>
      cases h4
      exact ⟨hread, rfl⟩

/-- A successful claim leases, under a new id, the available records of one group, as many
as asked for. -/
theorem grants_of_claim {tenantID runID owner : String} {n duration : Int} {lease : Lease}
    {payloads : List SampleEnvelope} (hsound : Sound w)
    (h : Serves codec s w ⟨.claim tenantID runID n owner duration, .ok (lease, payloads)⟩ w') :
    lease.id ∉ w.issued ∧ lease.id ∈ w'.issued ∧
      Samples.Grants w.samples tenantID runID n lease.id owner lease.expiresAt lease
        w'.samples := by
  have hargs : Claimable tenantID runID n owner duration := by
    intro hmissing
    unfold Serves program Store.claim at h
    dsimp only at h
    rw [if_pos hmissing] at h
    cases h
  obtain ⟨uuid, now, answer, w1, -, hexec,
      ⟨e, -, hresult, -⟩ | ⟨lease', read, rfl, hread, hresult⟩⟩ :=
    claim_cases hargs h
  · cases hresult
  · cases read with
    | error e => cases hresult
    | ok _ =>
      cases hresult
      obtain rfl := runs_readPayloads hread
      -- reading the clock leaves the records
      have hkeyed : ({ w with clock := now } : World).samples.Keyed := hsound.keyed
      have hgranted := grants_of_exec hkeyed hexec
      exact hgranted

end Calls

/-! ## Sequences of calls -/

/-- The lease a call has returned. -/
def Served.lease : Served → Option Lease
  | ⟨.claim _ _ _ _ _, result⟩ =>
    match result with
    | .ok (lease, _) => some lease
    | .error _ => none
  | _ => none

/-- The leases that calls have returned. -/
def granted (calls : List Served) : List Lease := calls.filterMap Served.lease

/-- The sample is part of the lease: it is stored as it was leased. -/
def PartOf (w : World) (k : String) (lease : Lease) : Prop :=
  ∃ r, w.samples.get k = some r ∧ r ∈ lease.samples

/-- Leases are exclusive, and samples are consumed at most once. -/
structure Exclusive (codec : Codec) (s : Store) (calls : List Served) (w : World) : Prop where
  leased_iff : ∀ k r, w.samples.get k = some r → (r.state = .leased ↔ r.leaseID ≠ "")
  alike : ∀ k k' r r', w.samples.get k = some r → w.samples.get k' = some r' →
    r.leaseID ≠ "" → r.leaseID = r'.leaseID → SameLease r r'
  disjoint : (granted calls).Pairwise fun lease lease' =>
    lease.id ≠ lease'.id ∧ ∀ k, ¬(PartOf w k lease ∧ PartOf w k lease')
  claim : ∀ tenantID runID n owner duration lease payloads w',
    Serves codec s w ⟨.claim tenantID runID n owner duration, .ok (lease, payloads)⟩ w' →
    Samples.Grants w.samples tenantID runID n lease.id owner lease.expiresAt lease w'.samples
  deleted : ∀ k served w', Serves codec s w served w' → w.samples.get k ≠ none →
    w'.samples.get k = none → ∃ now, served.1 = .sweep now
  settled : ∀ k r later w', w.samples.get k = some r → r.Settled →
    Run (Throughout (Serves codec s) fun w => w.samples.get k ≠ none) w later w' →
    w'.samples.get k = some r ∧ ∀ lease ∈ granted later, ∀ r' ∈ lease.samples, r'.key ≠ k

section Runs

variable {codec : Codec} {s : Store} {w w' : World} {calls : List Served}

theorem sound_initial {clock : Int} (h : zeroTime < clock) : Sound (World.initial clock) where
  clock := h
  keyed k r hrow := by cases hrow
  leased k r hrow := by cases hrow
  free k r hrow := by cases hrow
  alike k k' r r' hrow := by cases hrow

theorem Served.eq_claim_of_lease {served : Served} {lease : Lease}
    (h : served.lease = some lease) : ∃ tenantID runID n owner duration payloads,
      served = ⟨.claim tenantID runID n owner duration, .ok (lease, payloads)⟩ := by
  obtain ⟨call, result⟩ := served
  cases call with
  | claim tenantID runID n owner duration =>
    cases result with
    | error e => cases h
    | ok granted =>
      cases h
      exact ⟨tenantID, runID, n, owner, duration, granted.2, rfl⟩
  | put | ack | nack | backpressure | sweep | exportRun => cases h

theorem samples_of_lease {served : Served} {lease : Lease} {r' : SampleRecord} (hsound : Sound w)
    (h : Serves codec s w served w') (hlease : served.lease = some lease)
    (hmem : r' ∈ lease.samples) :
    r'.leaseID = lease.id ∧ ∃ r, w.samples.get r'.key = some r ∧ r.state = .available := by
  obtain ⟨_, _, _, _, _, _, rfl⟩ := Served.eq_claim_of_lease hlease
  obtain ⟨-, -, hgrants⟩ := grants_of_claim hsound h
  obtain ⟨k, r, hrow, hgroup, rfl⟩ := (hgrants.samples r').mp hmem
  simp only [Samples.inGroup, Bool.and_eq_true, decide_eq_true_eq] at hgroup
  refine ⟨rfl, r, ?_, hgroup.1.2⟩
  rw [SampleRecord.key_lease, hsound.keyed k r hrow]
  exact hrow

/-- The leases returned so far: their ids are issued and different, and their samples
carry them. -/
structure Accounted (calls : List Served) (w : World) : Prop where
  issued : ∀ lease ∈ granted calls, lease.id ∈ w.issued
  samples : ∀ lease ∈ granted calls, ∀ r ∈ lease.samples, r.leaseID = lease.id
  distinct : (granted calls).Pairwise fun lease lease' => lease.id ≠ lease'.id

theorem granted_append (calls : List Served) (served : Served) :
    granted (calls ++ [served]) = granted calls ++ served.lease.toList := by
  unfold granted
  rw [List.filterMap_append]
  cases h : served.lease with
  | none => simp [h]
  | some lease => simp [h]

theorem Accounted.serves {served : Served} (h : Accounted calls w) (hsound : Sound w)
    (hserves : Serves codec s w served w') : Accounted (calls ++ [served]) w' := by
  have hold : ∀ lease ∈ granted calls, lease.id ∈ w'.issued := fun lease hmem =>
    hserves.issued hsound lease.id (h.issued lease hmem)
  cases hlease : served.lease with
  | none =>
    have hsame : granted (calls ++ [served]) = granted calls := by
      rw [granted_append, hlease, Option.toList_none, List.append_nil]
    exact ⟨by rw [hsame]; exact hold, by rw [hsame]; exact h.samples,
      by rw [hsame]; exact h.distinct⟩
  | some lease =>
    have hmore : granted (calls ++ [served]) = granted calls ++ [lease] := by
      rw [granted_append, hlease, Option.toList_some]
    have hnew : lease.id ∉ w.issued ∧ lease.id ∈ w'.issued := by
      obtain ⟨_, _, _, _, _, _, rfl⟩ := Served.eq_claim_of_lease hlease
      obtain ⟨hfresh, hissued, -⟩ := grants_of_claim hsound hserves
      exact ⟨hfresh, hissued⟩
    refine ⟨?_, ?_, ?_⟩
    · rw [hmore]
      intro lease' hmem
      rcases List.mem_append.mp hmem with hmem | hmem
      · exact hold lease' hmem
      · cases List.mem_singleton.mp hmem
        exact hnew.2
    · rw [hmore]
      intro lease' hmem r hr
      rcases List.mem_append.mp hmem with hmem | hmem
      · exact h.samples lease' hmem r hr
      · cases List.mem_singleton.mp hmem
        exact (samples_of_lease hsound hserves hlease hr).1
    · rw [hmore, List.pairwise_append]
      refine ⟨h.distinct, List.pairwise_singleton _ _, fun lease' hmem lease'' hmem' heq => ?_⟩
      cases List.mem_singleton.mp hmem'
      exact hnew.1 (heq ▸ h.issued lease' hmem)

theorem accounted_nil (w : World) : Accounted [] w where
  issued lease hmem := by cases hmem
  samples lease hmem := by cases hmem
  distinct := List.Pairwise.nil

theorem accounted_of_run {clock : Int} (hclock : zeroTime < clock)
    (h : Run (Serves codec s) (World.initial clock) calls w) : Sound w ∧ Accounted calls w := by
  induction h with
  | nil => exact ⟨sound_initial hclock, accounted_nil _⟩
  | snoc _ hserves ih => exact ⟨hserves.sound ih.1, ih.2.serves ih.1 hserves⟩

theorem settled_of_run {k : String} {r : SampleRecord} {later : List Served} (hsound : Sound w)
    (hrow : w.samples.get k = some r) (hsettled : r.Settled)
    (h : Run (Throughout (Serves codec s) fun w => w.samples.get k ≠ none) w later w') :
    Sound w' ∧ w'.samples.get k = some r ∧
      ∀ lease ∈ granted later, ∀ r' ∈ lease.samples, r'.key ≠ k := by
  induction h with
  | nil => exact ⟨hsound, hrow, fun _ h => by cases h⟩
  | @snoc later w1 w2 served _ hstep ih =>
    obtain ⟨hserves, hpresent⟩ := hstep
    obtain ⟨hsound1, hrow1, hnone⟩ := ih
    refine ⟨hserves.sound hsound1, ?_, fun lease hmem r' hr' hkey => ?_⟩
    · exact (hserves.settled hsound1 hrow1 hsettled).resolve_right fun h => hpresent h.2
    · rw [granted_append] at hmem
      rcases List.mem_append.mp hmem with hmem | hmem
      · exact hnone lease hmem r' hr' hkey
      · -- what a claim returns was available
        have hlease : served.lease = some lease := Option.mem_toList.mp hmem
        obtain ⟨-, r0, hrow0, hstate⟩ := samples_of_lease hsound1 hserves hlease hr'
        rw [hkey, hrow1] at hrow0
        cases hrow0
        rcases hsettled with hs | hs <;> cases hstate.symm.trans hs

end Runs

/-- In every sequence of calls, leases are exclusive and samples are consumed at most
once. -/
theorem leases_exclusive (codec : Codec) (s : Store) {clock : Int} (hclock : zeroTime < clock)
    {calls : List Served} {w : World} (h : Run (Serves codec s) (World.initial clock) calls w) :
    Exclusive codec s calls w := by
  obtain ⟨hsound, haccounted⟩ := accounted_of_run hclock h
  refine ⟨fun k r hrow => ?_, hsound.alike, ?_, ?_, ?_, ?_⟩
  · constructor
    · exact fun hleased => (hsound.leased k r hrow hleased).1
    · intro hid
      by_contra hfree
      exact hid (hsound.free k r hrow hfree).1
  · refine haccounted.distinct.imp_of_mem fun hmem hmem' hne => ⟨hne, ?_⟩
    rintro k ⟨⟨r, hrow, hr⟩, ⟨r', hrow', hr'⟩⟩
    cases hrow.symm.trans hrow'
    exact hne ((haccounted.samples _ hmem r hr).symm.trans (haccounted.samples _ hmem' r hr'))
  · exact fun _ _ _ _ _ _ _ _ hclaim => (grants_of_claim hsound hclaim).2.2
  · intro k served w' hserves hrow hnone
    cases hcall : served.1 with
    | sweep now => exact ⟨now, rfl⟩
    | put | claim | ack | nack | backpressure | exportRun =>
      exact absurd hnone (hserves.present hsound (by rw [hcall]; rfl) hrow)
  · intro k r later w' hrow hsettled hlater
    exact (settled_of_run hsound hrow hsettled hlater).2

/-! ## A computed sequence -/

def sampleOf (tenantID runID promptGroupID sampleID : String) : SampleEnvelope :=
  { (default : SampleEnvelope) with
    apiVersion := Contracts.apiVersion, tenantID := tenantID, projectID := "p", runID := runID
    attemptID := "a", rolloutID := "r", promptGroupID := promptGroupID, sampleID := sampleID
    policyVersion := "v", environmentVersion := "e", generatedAt := 1, promptTokenIDs := [1]
    responseStart := 1 }

def sampleCodec : Codec where
  encode _ := .ok []
  decode _ := .ok (sampleOf "t" "r" "g" "s")
  checksum _ := "sum"

def sampleStore : Store := ⟨10, 4, 2, 100, by decide, by decide⟩

def consumption : List Call :=
  [.put (sampleOf "t" "r" "g" "s"), .claim "t" "r" 1 "owner" 5, .ack "lease-0" "owner"]

def serveAll (codec : Codec) (s : Store) (w : World) (calls : List Call) : List Served × World :=
  play (serve codec s) w calls

theorem run_serveAll (codec : Codec) (s : Store) (w : World) (calls : List Call) :
    Run (Serves codec s) w (serveAll codec s w calls).1 (serveAll codec s w calls).2 := by
  have hserve : ∀ w call served w', serve codec s w call = some (served, w') →
      Serves codec s w served w' := fun _ _ _ _ h => serves_of_serve h
  exact run_play hserve w calls

theorem leases_exclusive_consumption :
    ((serveAll sampleCodec sampleStore (World.initial 1) consumption).2.samples.get
      (sampleKey "t" "r" "s")).map SampleRecord.state = some .consumed ∧
    (granted (serveAll sampleCodec sampleStore (World.initial 1) consumption).1).length = 1 ∧
    Exclusive sampleCodec sampleStore
      (serveAll sampleCodec sampleStore (World.initial 1) consumption).1
      (serveAll sampleCodec sampleStore (World.initial 1) consumption).2 :=
  ⟨by decide +kernel, by decide +kernel,
    leases_exclusive sampleCodec sampleStore (by decide) (run_serveAll _ _ _ _)⟩

end DataPlane
end Skyscale
