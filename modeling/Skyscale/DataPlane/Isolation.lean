import Skyscale.DataPlane.Clients
import Skyscale.Lib.Projection

/-!
# Tenants and runs do not interfere

Clients and sweeps run side by side, interleaved at the operations of the stores.

* `Proper` says that clients call for themselves, with lease ids they were given;
* `Orderly` is the invariant: the calls of a client keep to what is the client's;
* `unwinds_of_orderly`: operations of other clients are not seen, those of the client and of
  sweeps can be followed without them;
* `clients_isolated`: the calls of a client go as they go in the run without the other clients.
-/

namespace Skyscale
namespace DataPlane

open Lib Contracts

/-! ## Requests -/

/-- A call of a client, or a sweep. -/
inductive Request
  | of (c : Client) (call : Call)
  | sweep (now : Int)

def Request.call : Request → Call
  | of _ call => call
  | sweep now => .sweep now

/-- The stores and the requests running on them. -/
abbrev Requests : Type := Pool World Request Op Ans Served

/-- A request is made, or performs its next operation. -/
def Requested (codec : Codec) (s : Store) :
    Requests → Pool.Action Request Op Ans → Requests → Prop :=
  Pool.Acts (fun request : Request => thread codec s request.call) exec

/-- The lease id was returned to the client. -/
def Given (p : Requests) (c : Client) (leaseID : String) : Prop :=
  ∃ t ∈ p.threads, ∃ call served lease, t.tag = .of c call ∧ t.rest = .ret served ∧
    served.lease = some lease ∧ lease.id = leaseID

/-- The call is about the client's own tenant and run, or a lease it was given. -/
def Belongs (p : Requests) (c : Client) : Call → Prop
  | .put sample => (sample.tenantID, sample.runID) = c
  | .claim tenantID runID _ _ _ => (tenantID, runID) = c
  | .ack leaseID _ => Given p c leaseID
  | .nack leaseID _ _ => Given p c leaseID
  | .backpressure tenantID runID => (tenantID, runID) = c
  | .sweep _ => False
  | .exportRun tenantID runID => (tenantID, runID) = c

/-- Clients with clean ids call for themselves; anybody may sweep. -/
def Proper (p : Requests) : Pool.Action Request Op Ans → Prop
  | .start (.of c call) => Clean c ∧ Belongs p c call
  | _ => True

/-! ## What clients do -/

/-- The blobs of the records lie below the client. -/
def AllBelow (c : Client) (records : List SampleRecord) : Prop := ∀ r ∈ records, Below c r.blobKey

/-- What a client learns from an answer: its lease has the id it asked for, and the blobs of the
records it is given lie below it. -/
def Sees : (op : Op) → Ans op → Prop
  | .claimGroup tenantID runID _ leaseID _ _, granted => ∀ lease, granted = .ok lease →
      lease.id = leaseID ∧ AllBelow (tenantID, runID) lease.samples
  | .listRun tenantID runID, records => AllBelow (tenantID, runID) records
  | _, _ => True

/-- The lease ids a call has claimed. -/
def claimed (ids : List String) : (op : Op) → Ans op → List String
  | .claimGroup _ _ _ leaseID _ _, _ => leaseID :: ids
  | _, _ => ids

/-- A lease that is returned was claimed. -/
def Returns (served : Served) (ids : List String) : Prop :=
  ∀ lease, served.lease = some lease → lease.id ∈ ids

section Programs

variable {codec : Codec} {s : Store} {c : Client} {ids : List String}

theorem below_put (sample : SampleEnvelope) (rest : String) :
    Below (sample.tenantID, sample.runID)
      ("samples/" ++ sample.tenantID ++ "/" ++ sample.runID ++ "/" ++ rest) := by
  unfold Below
  simp only [String.toList_append, List.append_assoc]
  exact ⟨rest.toList, by simp only [List.append_assoc]⟩

theorem own_put {sample : SampleEnvelope} (hc : (sample.tenantID, sample.runID) = c) :
    wp (tracking Sees (Own c) claimed) (s.put codec sample) (fun _ _ => True) ids := by
  subst hc
  unfold Store.put
  split
  · trivial
  refine wp_tracking_perform_bind rfl fun groups _ => ?_
  split
  · trivial
  split
  · trivial
  rename_i raw _
  have hbelow :=
    below_put sample (sample.promptGroupID ++ "-" ++ codec.checksum raw ++ ".json")
  simp only [← String.append_assoc] at hbelow
  refine wp_tracking_perform_bind hbelow fun stored _ => ?_
  split
  · trivial
  refine wp_tracking_perform_bind trivial fun now _ => ?_
  refine wp_tracking_perform_bind ⟨⟨rfl, hbelow⟩, rfl, rfl, rfl⟩ fun inserted _ => ?_
  dsimp only
  split <;> trivial

theorem own_readPayloads {leaseID : String} (owner : String) {records : List SampleRecord}
    (payloads : List SampleEnvelope) (hid : leaseID ∈ ids)
    (hrecords : AllBelow c records) :
    wp (tracking Sees (Own c) claimed) (s.readPayloads codec leaseID owner records payloads)
      (fun _ ids => leaseID ∈ ids) ids := by
  induction records generalizing payloads with
  | nil => exact hid
  | cons record records ih =>
    have habandon : ∀ (reason : String) (e : Error), wp (tracking Sees (Own c) claimed)
          (abandon leaseID owner reason e : Prog Op Ans (Except Error (List SampleEnvelope)))
          (fun _ ids => leaseID ∈ ids) ids :=
      fun reason e => wp_tracking_perform_bind hid fun _ _ => hid
    refine wp_tracking_perform_bind (hrecords record List.mem_cons_self) fun found _ => ?_
    split
    · exact habandon _ _
    · split
      · exact habandon _ _
      · split
        · exact habandon _ _
        · exact ih _ fun r hr => hrecords r (List.mem_cons_of_mem record hr)

theorem own_claim (n : Int) (owner : String) (duration : Int) :
    wp (tracking Sees (Own c) claimed) (s.claim codec c.1 c.2 n owner duration)
      (fun result ids => ∀ lease payloads, result = .ok (lease, payloads) → lease.id ∈ ids)
        ids := by
  unfold Store.claim
  split
  · exact fun _ _ h => by cases h
  · refine wp_tracking_perform_bind trivial fun uuid _ => ?_
    refine wp_tracking_perform_bind trivial fun now _ => ?_
    refine wp_tracking_perform_bind ⟨rfl, lease_ne_empty uuid⟩ fun granted hgranted => ?_
    split
    · exact fun _ _ h => by cases h
    · rename_i lease
      obtain ⟨hid, hsamples⟩ := hgranted lease rfl
      rw [wp_bind]
      refine wp_mono ?_ (own_readPayloads owner [] (hid ▸ List.mem_cons_self) hsamples)
      intro read ids hmem
      split
      · exact fun _ _ h => by cases h
      · intro lease' payloads' h
        cases h
        exact hmem

theorem own_exportRun :
    wp (tracking Sees (Own c) claimed) (exportRun codec c.1 c.2) (fun _ _ => True) ids := by
  refine wp_tracking_perform_bind rfl fun records hrecords => ?_
  have hloop : ∀ (records : List SampleRecord) (out : List SampleEnvelope), AllBelow c records →
        wp (tracking Sees (Own c) claimed) (exportPayloads codec records out) (fun _ _ => True)
          ids := by
    intro records
    induction records with
    | nil => exact fun _ _ => trivial
    | cons record records ih =>
      intro out hbelow
      refine wp_tracking_perform_bind (hbelow record List.mem_cons_self) fun found _ => ?_
      split
      · trivial
      · split
        · trivial
        · exact ih _ fun r hr => hbelow r (List.mem_cons_of_mem record hr)
  exact hloop records [] hrecords

end Programs

/-! ## The invariant -/

/-- Clients keep to what is theirs, and the records are where they belong. -/
structure Orderly (p : Requests) : Prop where
  sound : Sound p.world
  placed : Placed p.world
  clients : ∀ t ∈ p.threads, ∀ c call, t.tag = .of c call → Clean c ∧
    ∃ ids, (∀ id ∈ ids, Held p.world c id) ∧
      wp (tracking Sees (Own c) claimed) t.rest Returns ids
  sweeps : ∀ t ∈ p.threads, ∀ now, t.tag = .sweep now →
    Only (Allowed true) t.rest

section Worlds

variable {sweeps : Bool} {c : Client} {w w' : World} {op : Op} {ans : Ans op} {ids : List String}

theorem allowed_of_own (h : Own c op ids) : Allowed false op := by
  cases op with
  | insertSample r => exact ⟨rfl, h.2⟩
  | claimGroup => exact h.2
  | deleteExpired => exact h.elim
  | _ => trivial

theorem Placed.step (h : Placed w) (hsound : Sound w)
    (hinsert : ∀ r, op = .insertSample r → Clean r.client ∧ Below r.client r.blobKey)
    (hexec : exec w op ans w') : Placed w' := by
  intro k r hrow
  obtain ⟨group, old, hold, hchange⟩ := change_of_row hsound hexec hrow
  cases hchange with
  | same => exact h k r hold
  | insert hop _ => exact hinsert r hop
  | @lease r0 | @unlease r0 => exact h k r0 hold

theorem Sound.issued_of_leaseID (h : Sound w) {k : String} {r : SampleRecord}
    (hrow : w.samples.get k = some r) (hid : r.leaseID ≠ "") : r.leaseID ∈ w.issued := by
  by_cases hstate : r.state = .leased
  · exact (h.leased k r hrow hstate).2
  · exact absurd (h.free k r hrow hstate).1 hid

theorem Held.step {id : String} (h : Held w c id) (hsound : Sound w)
    (hallowed : Allowed sweeps op) (hexec : exec w op ans w') : Held w' c id := by
  refine ⟨issued_subset hexec id h.issued, h.nonempty, fun k r hrow hid => ?_⟩
  obtain ⟨group, _, rfl, hchange⟩ := change_of_row hsound hexec hrow
  rcases hchange.leased hallowed (hid ▸ h.nonempty)
    with hsame | ⟨_, _, _, _, _, _, _, -, hop, -, rfl⟩
  · exact h.records k r hsame hid
  · subst hop
    obtain rfl := hid
    exact absurd h.issued hexec.1

theorem held_of_claimGroup {tenantID runID id owner : String} {expected expires : Int}
    {ans : Ans (.claimGroup tenantID runID expected id owner expires)} (hsound : Sound w)
    (hid : id ≠ "") (hexec : exec w (.claimGroup tenantID runID expected id owner expires) ans w') :
    Held w' (tenantID, runID) id := by
  refine ⟨?_, hid, fun k r hrow hlease => ?_⟩
  · rw [hexec.2.2]
    exact List.mem_cons_self
  · obtain ⟨group, _, rfl, hchange⟩ := change_of_row hsound hexec hrow
    have hallowed : Allowed false (.claimGroup tenantID runID expected id owner expires) := hid
    rcases hchange.leased hallowed (hlease ▸ hid) with
      hsame | ⟨_, _, _, _, _, _, _, -, hop, hgroup, rfl⟩
    · refine absurd ?_ hexec.1
      rw [← hlease]
      exact hsound.issued_of_leaseID hsame (hlease ▸ hid)
    · cases hop
      simp only [Samples.inGroup, Bool.and_eq_true, decide_eq_true_eq] at hgroup
      exact Prod.ext hgroup.1.1.1 hgroup.1.1.2

theorem sees_of_exec (hsound : Sound w) (hplaced : Placed w) (hexec : exec w op ans w') :
    Sees op ans := by
  cases op with
  | claimGroup tenantID runID expected leaseID owner expires =>
    rintro lease rfl
    obtain ⟨-, hlease, -⟩ := hexec
    have hgrants := Samples.grants_of_claimGroup hsound.keyed
      (Prod.ext hlease.symm rfl : w.samples.claimGroup tenantID runID expected leaseID owner
        expires = (.ok lease, _))
    refine ⟨hgrants.header.1, fun r hr => ?_⟩
    obtain ⟨k, r0, hrow, hgroup, rfl⟩ := (hgrants.samples r).mp hr
    simp only [Samples.inGroup, Bool.and_eq_true, decide_eq_true_eq] at hgroup
    have hbelow := (hplaced k r0 hrow).2
    rw [SampleRecord.client, hgroup.1.1.1, hgroup.1.1.2] at hbelow
    exact hbelow
  | listRun tenantID runID =>
    obtain ⟨rfl, -⟩ := hexec
    intro r hr
    obtain ⟨hvalue, hrun⟩ := List.mem_filter.mp ((List.perm_insertionSort _ _).mem_iff.mp hr)
    rw [Bool.and_eq_true, decide_eq_true_eq, decide_eq_true_eq] at hrun
    obtain ⟨k, hrow⟩ := FinMap.mem_values_iff.mp hvalue
    have hbelow := (hplaced k r hrow).2
    rw [SampleRecord.client, hrun.1, hrun.2] at hbelow
    exact hbelow
  | _ => trivial

theorem held_claimed (hsound : Sound w) (hown : Own c op ids) (hheld : ∀ id ∈ ids, Held w c id)
    (hexec : exec w op ans w') : ∀ id ∈ claimed ids op ans, Held w' c id := by
  have hkeep : ∀ id ∈ ids, Held w' c id := fun id hid =>
    (hheld id hid).step hsound (allowed_of_own hown) hexec
  cases op with
  | claimGroup tenantID runID expected leaseID owner expires =>
    intro id hid
    rcases List.mem_cons.mp hid with rfl | hid
    · obtain ⟨rfl, hnonempty⟩ := hown
      exact held_of_claimGroup hsound hnonempty hexec
    · exact hkeep id hid
  | _ => exact hkeep

end Worlds

section Steps

variable {codec : Codec} {s : Store} {p p' : Requests} {a : Pool.Action Request Op Ans}

/-- A client that calls for itself keeps to what is its own. -/
theorem Orderly.own_thread (h : Orderly p) {c : Client} {call : Call}
    (hbelongs : Belongs p c call) :
    ∃ ids, (∀ id ∈ ids, Held p.world c id) ∧
      wp (tracking Sees (Own c) claimed) (thread codec s call) Returns ids := by
  have hgiven : ∀ leaseID, Given p c leaseID → Held p.world c leaseID := by
    rintro leaseID ⟨t, ht, call, served, lease, htag, hrest, hlease, rfl⟩
    obtain ⟨-, ids, hheld, hwp⟩ := h.clients t ht c call htag
    rw [hrest] at hwp
    exact hheld _ (hwp lease hlease)
  have hnone : ∀ id ∈ ([] : List String), Held p.world c id := fun _ hid => by cases hid
  cases call with
  | put sample =>
    refine ⟨[], hnone, ?_⟩
    unfold thread
    rw [wp_bind]
    exact wp_mono (fun _ _ _ lease hlease => by cases hlease) (own_put hbelongs)
  | claim tenantID runID n owner duration =>
    obtain rfl := hbelongs
    refine ⟨[], hnone, ?_⟩
    unfold thread
    rw [wp_bind]
    refine wp_mono (fun result ids hresult lease hlease => ?_) (own_claim n owner duration)
    cases result with
    | error e => cases hlease
    | ok granted =>
      cases hlease
      exact hresult _ granted.2 rfl
  | ack leaseID owner | nack leaseID owner reason =>
    refine ⟨[leaseID], fun id hid => ?_, List.mem_cons_self,
      fun _ _ lease hlease => by cases hlease⟩
    rw [List.mem_singleton.mp hid]
    exact hgiven leaseID hbelongs
  | backpressure tenantID runID =>
    exact ⟨[], hnone, hbelongs, fun _ _ lease hlease => by cases hlease⟩
  | sweep => exact hbelongs.elim
  | exportRun tenantID runID =>
    obtain rfl := hbelongs
    refine ⟨[], hnone, ?_⟩
    unfold thread
    rw [wp_bind]
    exact wp_mono (fun _ _ _ lease hlease => by cases hlease) own_exportRun

theorem Orderly.start (h : Orderly p) {request : Request}
    (hproper : Proper p (.start request)) :
    Orderly ⟨p.world, p.threads ++ [⟨request, [], thread codec s request.call⟩]⟩ := by
  refine ⟨h.sound, h.placed, fun t ht c call htag => ?_, fun t ht now htag => ?_⟩
  · rcases List.mem_append.mp ht with hold | hnew
    · exact h.clients t hold c call htag
    · obtain rfl := List.mem_singleton.mp hnew
      obtain rfl : request = .of c call := htag
      exact ⟨hproper.1, h.own_thread hproper.2⟩
  · rcases List.mem_append.mp ht with hold | hnew
    · exact h.sweeps t hold now htag
    · obtain rfl := List.mem_singleton.mp hnew
      obtain rfl : request = .sweep now := htag
      exact Obeys.bind (allowed_program (.sweep now)) fun _ => Obeys.pure _

theorem Orderly.next (h : Orderly p) {t : Thread Request Op Ans Served} (ht : t ∈ p.threads)
    {op : Op} {next : Ans op → Prog Op Ans Served} (hrest : t.rest = .call op next) :
    (∃ sweeps, Allowed sweeps op) ∧
      ∀ r, op = .insertSample r → Clean r.client ∧ Below r.client r.blobKey := by
  cases htag : t.tag with
  | of c call =>
    obtain ⟨hclean, ids, -, hwp⟩ := h.clients t ht c call htag
    rw [hrest] at hwp
    refine ⟨⟨false, allowed_of_own hwp.1⟩, ?_⟩
    rintro r rfl
    obtain ⟨⟨hclient, hbelow⟩, -⟩ := hwp.1
    rw [hclient]
    exact ⟨hclean, hbelow⟩
  | sweep now =>
    have hobeys := h.sweeps t ht now htag
    rw [hrest] at hobeys
    refine ⟨⟨true, hobeys.1⟩, ?_⟩
    rintro r rfl
    cases hobeys.1.1

theorem Orderly.perform (h : Orderly p) {earlier later : List (Thread Request Op Ans Served)}
    {t : Thread Request Op Ans Served} {op : Op} {next : Ans op → Prog Op Ans Served}
    {ans : Ans op} {w' : World} (hthreads : p.threads = earlier ++ t :: later)
    (hrest : t.rest = .call op next) (hexec : exec p.world op ans w') :
    Orderly ⟨w', earlier ++ t.after op ans (next ans) :: later⟩ := by
  have ht : t ∈ p.threads := by
    rw [hthreads]
    exact List.mem_append_right _ List.mem_cons_self
  obtain ⟨⟨sweeps, hallowed⟩, hinsert⟩ := h.next ht hrest
  have hmem : ∀ t' ∈ earlier ++ t.after op ans (next ans) :: later,
      t' ∈ p.threads ∨ t' = t.after op ans (next ans) := by
    intro t' ht'
    rw [hthreads]
    rcases List.mem_append.mp ht' with hfirst | hrest
    · exact .inl (List.mem_append_left _ hfirst)
    · rcases List.mem_cons.mp hrest with rfl | hlast
      · exact .inr rfl
      · exact .inl (List.mem_append_right _ (List.mem_cons_of_mem _ hlast))
  refine ⟨h.sound.step hallowed hexec, h.placed.step h.sound hinsert hexec,
    fun t' ht' c call htag => ?_, fun t' ht' now htag => ?_⟩
  · rcases hmem t' ht' with hold | rfl
    · obtain ⟨hclean, ids, hheld, hwp⟩ := h.clients t' hold c call htag
      exact ⟨hclean, ids, fun id hid => (hheld id hid).step h.sound hallowed hexec, hwp⟩
    · obtain ⟨hclean, ids, hheld, hwp⟩ := h.clients t ht c call htag
      rw [hrest] at hwp
      exact ⟨hclean, _, held_claimed h.sound hwp.1 hheld hexec,
        hwp.2 ans (sees_of_exec h.sound h.placed hexec)⟩
  · rcases hmem t' ht' with hold | rfl
    · exact h.sweeps t' hold now htag
    · have hobeys := h.sweeps t ht now htag
      rw [hrest] at hobeys
      exact hobeys.2 ans trivial

theorem Orderly.step (h : Orderly p) (hstep : Guarded (Requested codec s) Proper p a p') :
    Orderly p' := by
  obtain ⟨hacts, hproper⟩ := hstep
  cases a with
  | start request =>
    obtain ⟨⟨⟩⟩ | ⟨⟩ := hacts
    exact h.start hproper
  | perform request op ans =>
    obtain ⟨earlier, t, later, next, w', hthreads, -, hrest, hexec, rfl⟩ := hacts.split
    exact h.perform hthreads hrest hexec

end Steps

theorem orderly_idle {clock : Int} (h : zeroTime < clock) :
    Orderly (Pool.idle (World.initial clock)) where
  sound := sound_initial h
  placed k r hrow := by cases hrow
  clients t ht := by cases ht
  sweeps t ht := by cases ht

/-! ## Runs without the other clients -/

/-- What is left of a sweep once the records are deleted. -/
def sweepBlobs (now : Int) (result : Nat × Nat) (records : List SampleRecord) :
    Prog Op Ans Served :=
  ((Prog.forEach (fun record : SampleRecord => deleteBlob record.blobKey) records).bind
    fun _ => pure result).bind fun result => pure ⟨.sweep now, result⟩

/-- What is left of a sweep once leases are released. -/
def sweepRecords (now : Int) (released : Nat) : Prog Op Ans Served :=
  .call (.deleteExpired now) fun records => sweepBlobs now (released, records.length) records

theorem thread_sweep (codec : Codec) (s : Store) (now : Int) :
    thread codec s (.sweep now) = .call (.releaseExpired now) (sweepRecords now) := rfl

theorem sweepBlobs_cons (now : Int) (result : Nat × Nat) (r : SampleRecord)
    (records : List SampleRecord) :
    sweepBlobs now result (r :: records) =
      .call (.deleteBlob r.blobKey) fun _ => sweepBlobs now result records := rfl

/-- Two sweeps, of which the second finds the client's records only. -/
inductive Abreast (codec : Codec) (s : Store) (p : Client) (now : Int) :
    Prog Op Ans Served → Prog Op Ans Served → Prop
  | start : Abreast codec s p now (thread codec s (.sweep now)) (thread codec s (.sweep now))
  | records (released released' : Nat) :
      Abreast codec s p now (sweepRecords now released) (sweepRecords now released')
  | blobs {records : List SampleRecord} (result result' : Nat × Nat) :
      (∀ r ∈ records, Clean r.client ∧ Below r.client r.blobKey) →
      Abreast codec s p now (sweepBlobs now result records)
        (sweepBlobs now result' (records.filter (mine p)))

/-- What is compared of an action: a client's own actions as a whole, and of sweeps the
operations on what is the client's, without their answers. -/
inductive Seen
  | own (a : Pool.Action Request Op Ans)
  | swept (now : Int) (op : Op)

def seen (p : Client) : Pool.Action Request Op Ans → Option Seen
  | .start (.of c call) => if c = p then some (.own (.start (.of c call))) else none
  | .start (.sweep now) => some (.own (.start (.sweep now)))
  | .perform (.of c call) op ans =>
    if c = p then some (.own (.perform (.of c call) op ans)) else none
  | .perform (.sweep now) (.deleteBlob key) _ =>
    if Below p key then some (.swept now (.deleteBlob key)) else none
  | .perform (.sweep now) op _ => some (.swept now op)

/-- The requests that stay when the other clients are left out. -/
def Request.concerns (p : Client) : Request → Bool
  | .of c _ => c = p
  | .sweep _ => true

/-- The request is a call of the client. -/
def Request.ofClient (p : Client) : Request → Bool
  | .of c _ => c = p
  | .sweep _ => false

/-- Threads that correspond: a client's are the same, and sweeps are abreast. -/
inductive Matched (codec : Codec) (s : Store) (p : Client) :
    Thread Request Op Ans Served → Thread Request Op Ans Served → Prop
  | own {c : Client} {call : Call} {past : List ((op : Op) × Ans op)} {rest : Prog Op Ans Served} :
      Matched codec s p ⟨.of c call, past, rest⟩ ⟨.of c call, past, rest⟩
  | sweep {now : Int} {past past' : List ((op : Op) × Ans op)} {rest rest' : Prog Op Ans Served} :
      Abreast codec s p now rest rest' →
      Matched codec s p ⟨.sweep now, past, rest⟩ ⟨.sweep now, past', rest'⟩

section Projection

variable {codec : Codec} {s : Store} {p : Client} {w w' v : World} {now : Int}

/-- A sweep is followed by the sweep of the client's records. -/
theorem Abreast.step {rest rest' : Prog Op Ans Served} {op : Op}
    {next : Ans op → Prog Op Ans Served} {ans : Ans op} (h : Abreast codec s p now rest rest')
    (hp : Clean p) (hplaced : Placed w) (hagrees : Agrees p w v) (hrest : rest = .call op next)
    (hexec : exec w op ans w') :
    (Agrees p w' v ∧ Abreast codec s p now (next ans) rest' ∧
      seen p (.perform (.sweep now) op ans) = none) ∨
    ∃ op' next' ans' v', rest' = .call op' next' ∧ exec v op' ans' v' ∧ Agrees p w' v' ∧
      Abreast codec s p now (next ans) (next' ans') ∧
      seen p (.perform (.sweep now) op' ans') = seen p (.perform (.sweep now) op ans) := by
  cases h with
  | start =>
    rw [thread_sweep] at hrest
    cases hrest
    obtain ⟨released', v', hexec', hagrees'⟩ := hagrees.releaseExpired hexec
    exact .inr ⟨_, _, released', v', thread_sweep codec s now, hexec', hagrees', .records _ _, rfl⟩
  | records released released' =>
    cases hrest
    obtain ⟨v', hexec', hagrees'⟩ := hagrees.deleteExpired hexec
    refine .inr ⟨_, _, _, v', rfl, hexec', hagrees', .blobs _ _ fun r hr => ?_, rfl⟩
    have hdeleted := List.mem_filter.mp (hexec.1.mem_iff.mp hr)
    obtain ⟨k, hrow⟩ := FinMap.mem_values_iff.mp hdeleted.1
    exact hplaced k r hrow
  | @blobs records result result' hrecords =>
    cases records with
    | nil => cases hrest
    | cons r records =>
      cases hrest
      have hlater : ∀ r' ∈ records, Clean r'.client ∧ Below r'.client r'.blobKey :=
        fun r' hr' => hrecords r' (List.mem_cons_of_mem r hr')
      obtain ⟨hclean, hbelow⟩ := hrecords r List.mem_cons_self
      by_cases hmine : mine p r = true
      · -- both sweeps delete the blob
        obtain ⟨v', hexec', hagrees'⟩ := hagrees.deleteBlob hexec
        rw [List.filter_cons_of_pos hmine]
        exact .inr ⟨_, _, ans, v', sweepBlobs_cons _ _ _ _, hexec', hagrees', .blobs _ _ hlater,
          rfl⟩
      · -- the blob lies below another client
        have hother : ¬Below p r.blobKey := fun hp' =>
          hmine (mine_iff.mpr (Below.unique hclean hp hbelow hp'))
        rw [List.filter_cons_of_neg hmine]
        exact .inl ⟨hagrees.deleteBlob_hidden hexec hother, .blobs _ _ hlater, if_neg hother⟩

theorem Matched.tag {t t' : Thread Request Op Ans Served} (h : Matched codec s p t t') :
    t'.tag = t.tag := by
  cases h <;> rfl

/-- Operations of other clients are not seen, and those of the client and of sweeps can be
followed without them. -/
theorem unwinds_of_orderly {r : Requests} (h : Orderly r) (hp : Clean p) :
    Pool.Unwinds exec (Request.concerns p) (Agrees p) (Matched codec s p) (seen p) r := by
  constructor
  · intro t ht hkeep op next ans w' v hrest hexec hagrees
    cases htag : t.tag with
    | sweep now =>
      rw [htag] at hkeep
      cases hkeep
    | of c call =>
      rw [htag] at hkeep
      obtain ⟨hclean, ids, hheld, hwp⟩ := h.clients t ht c call htag
      rw [hrest] at hwp
      exact hidden_of_own hagrees hp hclean (of_decide_eq_false hkeep) h.sound.keyed hwp.1 hheld
        hexec
  · intro t ht hkeep t' op next ans w' v hmatched hrest hexec hagrees
    cases hmatched with
    | @own c call past rest =>
      obtain ⟨hclean, ids, hheld, hwp⟩ := h.clients _ ht c call rfl
      rw [hrest] at hwp
      obtain rfl : c = p := of_decide_eq_true hkeep
      obtain ⟨v', hexec', hagrees'⟩ :=
        follows_of_own hagrees hp h.sound.keyed h.placed hwp.1 hheld hexec
      exact .inr ⟨op, next, ans, v', hrest, hexec', hagrees', .own, rfl⟩
    | @sweep now past past' rest rest' habreast =>
      rcases habreast.step hp h.placed hagrees hrest hexec with
        ⟨hagrees', habreast', hunseen⟩ |
        ⟨op', next', ans', v', hrest', hexec', hagrees', habreast', hseen⟩
      · exact .inl ⟨hagrees', .sweep habreast', hunseen⟩
      · exact .inr ⟨op', next', ans', v', hrest', hexec', hagrees', .sweep habreast', hseen⟩

theorem agrees_initial (p : Client) (clock : Int) :
    Agrees p (World.initial clock) (World.initial clock) where
  samples := rfl
  blobs _ _ := ⟨rfl, rfl⟩
  clock := le_refl _
  issued _ h := h

theorem own_threads {ts ts' : List (Thread Request Op Ans Served)}
    (h : List.Forall₂ (Matched codec s p) ts ts') :
    ts'.filter (fun t => t.tag.ofClient p) = ts.filter fun t => t.tag.ofClient p := by
  induction h with
  | nil => rfl
  | @cons t t' _ _ hmatched _ ih =>
    cases hmatched with
    | own => rw [List.filter_cons, List.filter_cons, ih]
    | sweep =>
      rw [List.filter_cons_of_neg Bool.false_ne_true,
        List.filter_cons_of_neg Bool.false_ne_true]
      exact ih

end Projection

/-- The calls of a client go as they go in the run without the calls of the other clients: there
is a run of the client's calls and the sweeps alone in which the client's calls perform the same
operations with the same answers, clock readings and lease ids included, in the same order among
themselves and with the sweeps, and return the same results. -/
theorem clients_isolated (codec : Codec) (s : Store) {p : Client} (hp : Clean p) {clock : Int}
    (hclock : zeroTime < clock) {actions : List (Pool.Action Request Op Ans)} {r : Requests}
    (hrun : Run (Guarded (Requested codec s) Proper) (Pool.idle (World.initial clock)) actions r) :
    ∃ actions' r', Run (Requested codec s) (Pool.idle (World.initial clock)) actions' r' ∧
      (∀ a ∈ actions', a.tag.concerns p = true) ∧
      actions'.filterMap (seen p) = actions.filterMap (seen p) ∧
      r'.threads.filter (fun t => t.tag.ofClient p) =
        r.threads.filter fun t => t.tag.ofClient p := by
  have hstart : ∀ request : Request, request.concerns p = true →
      Matched codec s p ⟨request, [], thread codec s request.call⟩
        ⟨request, [], thread codec s request.call⟩ := by
    intro request _
    cases request with
    | of c call => exact .own
    | sweep now => exact .sweep .start
  have hview : ∀ a : Pool.Action Request Op Ans, a.tag.concerns p = false → seen p a = none := by
    intro a ha
    cases a with
    | start request | perform request op ans =>
      cases request with
      | of c call => exact if_neg (of_decide_eq_false ha)
      | sweep now => cases ha
  obtain ⟨actions', r', hrun', hprojects, hseen, hkept⟩ :=
    Pool.projects_of_run hrun (fun _ _ _ h => h.1) (orderly_idle hclock)
      (fun _ _ _ h hstep => h.step hstep) (fun _ h => unwinds_of_orderly h hp)
      (agrees_initial p clock) (fun _ _ h => h.tag) hstart hview
  refine ⟨actions', r', hrun', hkept, hseen, (own_threads hprojects.threads).trans ?_⟩
  rw [List.filter_filter]
  refine List.filter_congr fun t _ => ?_
  cases t.tag with
  | of c call => exact Bool.and_self _
  | sweep now => rfl

/-! ## A computed run -/

def givenNow (p : Requests) (c : Client) (leaseID : String) : Bool :=
  p.threads.any fun t =>
    match t.tag, t.rest with
    | .of c' _, .ret served => c' = c && served.lease.any fun lease => lease.id = leaseID
    | _, _ => false

theorem given_of_givenNow {p : Requests} {c : Client} {leaseID : String}
    (h : givenNow p c leaseID = true) : Given p c leaseID := by
  obtain ⟨t, ht, hcheck⟩ := List.any_eq_true.mp h
  split at hcheck
  · rename_i c' call served htag hrest
    rw [Bool.and_eq_true, decide_eq_true_eq, Option.any_eq_true] at hcheck
    obtain ⟨rfl, lease, hlease, hid⟩ := hcheck
    exact ⟨t, ht, call, served, lease, htag, hrest, hlease, of_decide_eq_true hid⟩
  · cases hcheck

def belongsNow (p : Requests) (c : Client) : Call → Bool
  | .put sample => (sample.tenantID, sample.runID) = c
  | .claim tenantID runID _ _ _ => (tenantID, runID) = c
  | .ack leaseID _ => givenNow p c leaseID
  | .nack leaseID _ _ => givenNow p c leaseID
  | .backpressure tenantID runID => (tenantID, runID) = c
  | .sweep _ => false
  | .exportRun tenantID runID => (tenantID, runID) = c

def properNow (p : Requests) : Pool.Action Request Op Ans → Bool
  | .start (.of c call) => decide (Clean c) && belongsNow p c call
  | _ => true

theorem proper_of_properNow {p : Requests} {a : Pool.Action Request Op Ans}
    (h : properNow p a = true) : Proper p a := by
  cases a with
  | perform => trivial
  | start request =>
    cases request with
    | sweep => trivial
    | of c call =>
      obtain ⟨hclean, hbelongs⟩ := Bool.and_eq_true_iff.mp h
      refine ⟨of_decide_eq_true hclean, ?_⟩
      cases call with
      | put sample =>
        have hown : (sample.tenantID, sample.runID) = c := of_decide_eq_true hbelongs
        exact hown
      | claim tenantID runID | backpressure tenantID runID | exportRun tenantID runID =>
        have hown : (tenantID, runID) = c := of_decide_eq_true hbelongs
        exact hown
      | ack | nack => exact given_of_givenNow hbelongs
      | sweep => cases hbelongs

def request (codec : Codec) (s : Store) (p : Requests) (choice : Pool.Choice Request) :
    Option (Pool.Action Request Op Ans × Requests) :=
  (Pool.act (fun request : Request => thread codec s request.call) environment p choice).filter
    fun acted => properNow p acted.1

theorem requested_of_request (codec : Codec) (s : Store) (p : Requests)
    (choice : Pool.Choice Request) (a : Pool.Action Request Op Ans) (p' : Requests)
    (h : request codec s p choice = some (a, p')) :
    Guarded (Requested codec s) Proper p a p' := by
  obtain ⟨hact, hproper⟩ := (Option.filter_eq_some_iff).mp h
  exact ⟨Pool.acts_of_act exec_environment hact, proper_of_properNow hproper⟩

def sideBySide : List (Pool.Choice Request) :=
  [.spawn (.of ("t", "r") (.put (sampleOf "t" "r" "g" "s"))),
    .spawn (.of ("t", "q") (.put (sampleOf "t" "q" "g" "s"))),
    .run 0, .run 1, .run 0, .run 1, .run 0, .run 1, .run 0, .run 1,
    .spawn (.of ("t", "r") (.claim "t" "r" 1 "owner" 50)), .run 2, .run 2, .run 2, .run 2,
    .spawn (.of ("t", "r") (.ack "lease-0" "owner")), .run 3,
    .spawn (.sweep 1000), .run 4, .run 4, .run 4, .run 4]

theorem clients_isolated_sideBySide :
    (play (request sampleCodec sampleStore) (Pool.idle (World.initial 1)) sideBySide).1.length =
        22 ∧
      ∃ actions' r', Run (Requested sampleCodec sampleStore) (Pool.idle (World.initial 1)) actions'
          r' ∧
        (∀ a ∈ actions', a.tag.concerns ("t", "r") = true) ∧
        actions'.filterMap (seen ("t", "r")) =
          (play (request sampleCodec sampleStore) (Pool.idle (World.initial 1))
            sideBySide).1.filterMap (seen ("t", "r")) ∧
        r'.threads.filter (fun t => t.tag.ofClient ("t", "r")) =
          (play (request sampleCodec sampleStore) (Pool.idle (World.initial 1))
            sideBySide).2.threads.filter fun t => t.tag.ofClient ("t", "r") := by
  have hrun := run_play (requested_of_request sampleCodec sampleStore)
    (Pool.idle (World.initial 1)) sideBySide
  have hclean : Clean ("t", "r") := by decide
  have hclock : zeroTime < 1 := by decide
  exact ⟨by decide +kernel, clients_isolated sampleCodec sampleStore hclean hclock hrun⟩

end DataPlane
end Skyscale
