import Skyscale.DataPlane.Contents

/-!
# Backpressure and consumption

`Put` turns samples away once `highWatermark` prompt groups of a run have available samples,
whether the groups are complete or not.  `Claim` only takes complete groups.  So producers can
be held up while consumers have nothing to take.

* `Codec.Faithful` collects what is assumed of `encoding/json` and of the checksum;
* `Filled` is the invariant of calls made one after the other: every record has the blob its
  sample was encoded to, so no two records share one;
* `drains_iff`: a claim succeeds if and only if some group has the size asked for;
* `backpressure_drains_iff` says when a rejected `Put` leaves consumers something to take.
-/

namespace Skyscale
namespace DataPlane

open Lib Contracts

/-- Encoded samples can be read and validated again, and they, and so their checksums, tell
samples of different identity apart. -/
structure Codec.Faithful (codec : Codec) : Prop where
  reads : ∀ sample raw, codec.encode sample = .ok raw → ∃ read, codec.decode raw = .ok read ∧
    ∀ maxTokens, read.validate maxTokens = sample.validate maxTokens
  identifies : ∀ a b raw, codec.encode a = .ok raw → codec.encode b = .ok raw →
    a.tenantID = b.tenantID ∧ a.runID = b.runID ∧ a.sampleID = b.sampleID
  collisionFree : ∀ a b raw raw', codec.encode a = .ok raw → codec.encode b = .ok raw' →
    codec.checksum raw = codec.checksum raw' → raw = raw'

/-! ## Calls one after the other -/

/-- The blob holds a valid sample with the identity of the record. -/
structure Holds (codec : Codec) (s : Store) (b : Blobs) (r : SampleRecord)
    (sample : SampleEnvelope) (raw : Bytes) : Prop where
  stored : b.data.get r.blobKey = some raw
  encoded : codec.encode sample = .ok raw
  valid : sample.validate s.maxTokens = .ok ()
  identity : sampleKey sample.tenantID sample.runID sample.sampleID = r.key

/-- Every record has the blob of its sample. -/
structure Filled (codec : Codec) (s : Store) (w : World) : Prop where
  sound : Sound w
  recorded : w.blobs.Recorded codec
  encoded : ∀ key raw, w.blobs.data.get key = some raw → ∃ sample, codec.encode sample = .ok raw
  holds : ∀ k r, w.samples.get k = some r → ∃ sample raw, Holds codec s w.blobs r sample raw

section Filled

variable {codec : Codec} {s : Store} {w w' : World} {op : Op} {ans : Ans op}

theorem filled_initial (codec : Codec) (s : Store) {clock : Int} (h : zeroTime < clock) :
    Filled codec s (World.initial clock) where
  sound := sound_initial h
  recorded key raw hraw := by cases hraw
  encoded key raw hraw := by cases hraw
  holds k r hrow := by cases hrow

theorem Filled.key_of_blobKey (h : Filled codec s w) (hcodec : codec.Faithful) {k k' : String}
    {r r' : SampleRecord} (hrow : w.samples.get k = some r) (hrow' : w.samples.get k' = some r')
    (hblob : r.blobKey = r'.blobKey) : k = k' := by
  obtain ⟨sample, raw, hholds⟩ := h.holds k r hrow
  obtain ⟨sample', raw', hholds'⟩ := h.holds k' r' hrow'
  have hraw : raw = raw' := by
    have hstored := hholds.stored
    rw [hblob, hholds'.stored] at hstored
    exact (Option.some.inj hstored).symm
  subst hraw
  obtain ⟨htenant, hrun, hsample⟩ :=
    hcodec.identifies sample sample' raw hholds.encoded hholds'.encoded
  have hkey : r.key = r'.key := by
    rw [← hholds.identity, ← hholds'.identity, htenant, hrun, hsample]
  rw [← h.sound.keyed k r hrow, ← h.sound.keyed k' r' hrow', hkey]

theorem Filled.reads (h : Filled codec s w) (hexec : exec w op ans w') (hallowed : Admissible op)
    (hreads : Reads op) (hdelete : ∀ key, op ≠ .deleteBlob key) : Filled codec s w' := by
  have hblobs : w'.blobs = w.blobs := by
    rcases blobs_of_exec hexec with hsame | ⟨_, _, _, rfl, _⟩ | ⟨key, hop, _⟩
    · exact hsame
    · exact hreads.elim
    · exact absurd hop (hdelete key)
  obtain ⟨sweeps, hallowed⟩ := hallowed
  refine ⟨h.sound.step hallowed hexec, by rw [hblobs]; exact h.recorded,
    by rw [hblobs]; exact h.encoded, fun k r hrow => ?_⟩
  rw [hblobs]
  obtain ⟨group, old, hold, hchange⟩ := change_of_row h.sound hexec hrow
  -- a lease does not touch the blob key and the identity
  cases hchange with
  | same => exact h.holds k r hold
  | insert hop _ =>
    subst hop
    exact hreads.elim
  | @lease r0 | @unlease r0 =>
    obtain ⟨sample, raw, hholds⟩ := h.holds k r0 hold
    exact ⟨sample, raw, hholds.stored, hholds.encoded, hholds.valid, hholds.identity⟩

end Filled

/-! ### Put -/

/-- The key of a sample's blob. -/
def blobKey (sample : SampleEnvelope) (checksum : String) : String :=
  putKey sample.tenantID sample.runID sample.promptGroupID checksum

/-- The record that `Put` inserts. -/
def Store.record (s : Store) (sample : SampleEnvelope) (checksum : String) (now : Int) :
    SampleRecord :=
  { tenantID := sample.tenantID, projectID := sample.projectID, sampleID := sample.sampleID,
    runID := sample.runID, promptGroupID := sample.promptGroupID,
    policyVersion := sample.policyVersion, blobKey := blobKey sample checksum,
    checksum := checksum, state := .available, createdAt := now, expiresAt := now + s.ttl }

/-- The ways a `Put` can go. -/
inductive PutOutcome (codec : Codec) (s : Store) (w : World) (sample : SampleEnvelope) :
    Except Error (SampleRecord × Bool) → World → Prop
  | invalid {text : String} : sample.validate s.maxTokens = .error text →
      PutOutcome codec s w sample (.error (.other text)) w
  | paused : sample.validate s.maxTokens = .ok () →
      s.highWatermark ≤ w.samples.countAvailableGroups sample.tenantID sample.runID →
      PutOutcome codec s w sample (.error .backpressure) w
  | unencodable {text : String} : codec.encode sample = .error text →
      PutOutcome codec s w sample (.error (.other text)) w
  | conflicting {raw : Bytes} {b : Blobs} : codec.encode sample = .ok raw →
      w.blobs.putIfAbsent (blobKey sample (codec.checksum raw)) raw (codec.checksum raw) =
        (.error .duplicateConflict, b) → b = w.blobs →
      PutOutcome codec s w sample (.error .duplicateConflict) w
  | stored {raw : Bytes} {b : Blobs} {now : Int} {result : Except Error (SampleRecord × Bool)} :
      sample.validate s.maxTokens = .ok () →
      w.samples.countAvailableGroups sample.tenantID sample.runID < s.highWatermark →
      codec.encode sample = .ok raw →
      w.blobs.putIfAbsent (blobKey sample (codec.checksum raw)) raw (codec.checksum raw) =
        (.ok (), b) → w.clock ≤ now →
      result =
        (if !(w.samples.insertSample (s.record sample (codec.checksum raw) now)).1.2 &&
            (w.samples.insertSample (s.record sample (codec.checksum raw) now)).1.1.checksum ≠
              codec.checksum raw then
          .error .duplicateConflict
        else .ok (w.samples.insertSample (s.record sample (codec.checksum raw) now)).1) →
      PutOutcome codec s w sample result
        { w with
          samples := (w.samples.insertSample (s.record sample (codec.checksum raw) now)).2
          blobs := b, clock := now }

theorem putIfAbsent_error {b b' : Blobs} {key checksum : String} {value : Bytes} {e : Error}
    (h : b.putIfAbsent key value checksum = (.error e, b')) : e = .duplicateConflict ∧ b' = b := by
  unfold Blobs.putIfAbsent at h
  split at h
  · cases h
    exact ⟨rfl, rfl⟩
  · split at h <;> cases h

section Put

variable {codec : Codec} {s : Store} {w w' : World} {sample : SampleEnvelope}
  {result : Except Error (SampleRecord × Bool)}

theorem put_cases (h : Serves codec s w ⟨.put sample, result⟩ w') :
    PutOutcome codec s w sample result w' := by
  unfold Serves program Store.put at h
  dsimp only at h
  split at h
  · rename_i text hinvalid
    cases h
    exact .invalid hinvalid
  · rename_i hvalid
    obtain ⟨groups, w1, hcount, h1⟩ := Prog.Runs.of_bind h
    obtain ⟨rfl, rfl⟩ := hcount.of_perform
    split at h1
    · rename_i hhigh
      cases h1
      exact .paused hvalid hhigh
    · rename_i hlow
      split at h1
      · rename_i text hencode
        cases h1
        exact .unencodable hencode
      · rename_i raw hencode
        obtain ⟨stored, w2, hput, h2⟩ := Prog.Runs.of_bind h1
        obtain ⟨hanswer, hw2⟩ := hput.of_perform
        cases hblobs : w1.blobs.putIfAbsent (blobKey sample (codec.checksum raw)) raw
            (codec.checksum raw) with
        | mk answer b =>
          have hanswer' : stored = answer := hanswer.trans (congrArg Prod.fst hblobs)
          have hw2' : w2 = { w1 with blobs := b } := by
            rw [hw2]
            exact congrArg (fun b => ({ w1 with blobs := b } : World)) (congrArg Prod.snd hblobs)
          subst hanswer' hw2'
          cases stored with
          | error e =>
            obtain ⟨rfl, hb⟩ := putIfAbsent_error hblobs
            cases h2
            subst hb
            exact .conflicting hencode hblobs rfl
          | ok =>
            obtain ⟨now, w3, hnow, h3⟩ := Prog.Runs.of_bind h2
            obtain ⟨inserted, w4, hinsert, h4⟩ := Prog.Runs.of_bind h3
            obtain ⟨hclock, rfl⟩ := hnow.of_perform
            obtain ⟨rfl, rfl⟩ := hinsert.of_perform
            dsimp only at h4
            split at h4
            · rename_i hconflict
              cases h4
              exact .stored hvalid (not_le.mp hlow) hencode hblobs hclock (if_pos hconflict).symm
            · rename_i hfine
              cases h4
              exact .stored hvalid (not_le.mp hlow) hencode hblobs hclock (if_neg hfine).symm

end Put

section Calls

variable {codec : Codec} {s : Store} {w w' : World} {served : Served}

theorem data_of_putIfAbsent {b b' : Blobs} {key : String} {raw : Bytes} {checksum : String}
    {answer : Except Error Unit} (h : b.putIfAbsent key raw checksum = (answer, b'))
    (key' : String) :
    b'.data.get key' = b.data.get key' ∨
      key' = key ∧ b.data.get key' = none ∧ b'.data.get key' = some raw := by
  unfold Blobs.putIfAbsent at h
  split at h
  · cases h
    exact .inl rfl
  · split at h
    · cases h
      exact .inl rfl
    · rename_i hnone
      cases h
      by_cases hkey : key' = key
      · subst hkey
        exact .inr ⟨rfl, hnone, FinMap.get_set_self _ _ _⟩
      · exact .inl (FinMap.get_set_ne _ _ hkey)

theorem Holds.putIfAbsent {b b' : Blobs} {key : String} {raw raw' : Bytes} {checksum : String}
    {answer : Except Error Unit} {r : SampleRecord} {sample : SampleEnvelope}
    (h : Holds codec s b r sample raw) (hput : b.putIfAbsent key raw' checksum = (answer, b')) :
    Holds codec s b' r sample raw := by
  refine { h with stored := ?_ }
  rcases data_of_putIfAbsent hput r.blobKey with hsame | ⟨-, hnone, -⟩
  · exact hsame.trans h.stored
  · cases h.stored.symm.trans hnone

theorem Filled.put (h : Filled codec s w) (hcodec : codec.Faithful) {sample : SampleEnvelope}
    {result : Except Error (SampleRecord × Bool)}
    (hserves : Serves codec s w ⟨.put sample, result⟩ w') : Filled codec s w' := by
  have hsound : Sound w' := hserves.sound h.sound
  cases put_cases hserves with
  | invalid | paused | unencodable | conflicting => exact h
  | @stored raw b now _ hvalid _ hencode hput _ _ =>
    have hdata := data_of_putIfAbsent hput
    have hencoded : ∀ key raw, b.data.get key = some raw →
        ∃ sample, codec.encode sample = .ok raw := by
      intro key raw1 hraw1
      rcases hdata key with hsame | ⟨-, -, hnew⟩
      · exact h.encoded key raw1 (hsame.symm.trans hraw1)
      · cases hnew.symm.trans hraw1
        exact ⟨sample, hencode⟩
    refine ⟨hsound, ?_, hencoded, fun k r hrow => ?_⟩
    · have hrecorded : (w.blobs.putIfAbsent (blobKey sample (codec.checksum raw)) raw
          (codec.checksum raw)).2.Recorded codec := h.recorded.putIfAbsent
      rw [hput] at hrecorded
      exact hrecorded
    · have hget : (w.samples.insertSample (s.record sample (codec.checksum raw) now)).2.get k =
          some r := hrow
      rw [Samples.get_insertSample] at hget
      by_cases hk : k = (s.record sample (codec.checksum raw) now).key
      · rw [if_pos hk] at hget
        cases hold : w.samples.get (s.record sample (codec.checksum raw) now).key with
        | some existing =>
          rw [hold] at hget
          cases hget
          obtain ⟨sample', raw', hholds⟩ := h.holds _ _ hold
          exact ⟨sample', raw', hholds.putIfAbsent hput⟩
        | none =>
          rw [hold] at hget
          cases hget
          -- what is under the key has the checksum, so it is this encoding
          obtain ⟨raw', hraw', hsum⟩ := stored_of_putIfAbsent h.recorded hput
          obtain ⟨sample', hencode'⟩ := hencoded _ _ hraw'
          cases hcodec.collisionFree sample' sample raw' raw hencode' hencode hsum
          exact ⟨sample, raw, hraw', hencode, hvalid, rfl⟩
      · rw [if_neg hk] at hget
        obtain ⟨sample', raw', hholds⟩ := h.holds k r hget
        exact ⟨sample', raw', hholds.putIfAbsent hput⟩

/-- Deleting blobs that no record has. -/
theorem Filled.deleteBlobs {records : List SampleRecord}
    (h : Filled codec s w)
    (hfree : ∀ d ∈ records, ∀ k r, w.samples.get k = some r → r.blobKey ≠ d.blobKey)
    (hruns : Prog.Runs exec w
      (Prog.forEach (fun record : SampleRecord => deleteBlob record.blobKey) records) () w') :
    Filled codec s w' := by
  induction records generalizing w with
  | nil =>
    cases hruns
    exact h
  | cons d records ih =>
    obtain ⟨_, w1, hdelete, hrest⟩ := Prog.Runs.of_bind hruns
    have hw1 : w1 = { w with blobs := w.blobs.delete d.blobKey } := hdelete.of_perform
    subst hw1
    refine ih ⟨?_, h.recorded.delete, ?_, ?_⟩ ?_ hrest
    · exact ⟨h.sound.clock, h.sound.keyed, h.sound.leased, h.sound.free, h.sound.alike⟩
    · intro key raw hraw
      have hne : key ≠ d.blobKey := by
        rintro rfl
        cases (FinMap.get_del_self _ _).symm.trans hraw
      exact h.encoded key raw ((FinMap.get_del_ne _ hne).symm.trans hraw)
    · intro k r hrow
      obtain ⟨sample, raw, hholds⟩ := h.holds k r hrow
      have hne := hfree d List.mem_cons_self k r hrow
      exact ⟨sample, raw, { hholds with stored := (FinMap.get_del_ne _ hne).trans hholds.stored }⟩
    · exact fun d' hd' => hfree d' (List.mem_cons_of_mem d hd')

theorem Filled.deleteExpired (h : Filled codec s w) (hcodec : codec.Faithful) {now : Int}
    {d r : SampleRecord} {k : String} (hd : d ∈ (w.samples.deleteExpired now).1)
    (hrow : (w.samples.deleteExpired now).2.get k = some r) : r.blobKey ≠ d.blobKey := by
  unfold Samples.deleteExpired at hd hrow
  obtain ⟨hmem, hexpired⟩ := List.mem_filter.mp hd
  obtain ⟨k', hrow'⟩ := FinMap.mem_values_iff.mp hmem
  dsimp only at hrow
  rw [FinMap.get_keep, Option.filter_eq_some_iff] at hrow
  intro hblob
  cases h.key_of_blobKey hcodec hrow.1 hrow' hblob
  cases hrow.1.symm.trans hrow'
  rw [hexpired] at hrow
  cases hrow.2

theorem Filled.sweep (h : Filled codec s w) (hcodec : codec.Faithful) {now : Int}
    {result : Nat × Nat} (hserves : Serves codec s w ⟨.sweep now, result⟩ w') :
    Filled codec s w' := by
  obtain ⟨released, w1, hrelease, h1⟩ := Prog.Runs.of_bind hserves
  obtain ⟨records, w2, hdelete, h2⟩ := Prog.Runs.of_bind h1
  obtain ⟨_, w3, hblobs, hreturn⟩ := Prog.Runs.of_bind h2
  cases hreturn
  have hexec1 : exec w (.releaseExpired now) released w1 := hrelease.of_perform
  have hexec2 : exec w1 (.deleteExpired now) records w2 := hdelete.of_perform
  have hfilled1 : Filled codec s w1 := h.reads hexec1 ⟨true, trivial⟩ trivial nofun
  have hfilled2 : Filled codec s w2 := hfilled1.reads hexec2 ⟨true, rfl⟩ trivial nofun
  obtain ⟨hperm, hw2⟩ := hexec2
  refine hfilled2.deleteBlobs (fun d hd k r hrow => ?_) hblobs
  rw [hw2] at hrow
  exact hfilled1.deleteExpired hcodec (hperm.mem_iff.mp hd) hrow

/-- The operations of the calls that store and delete no blob. -/
def Handles (op : Op) : Prop :=
  Admissible op ∧ Reads op ∧ ∀ key, op ≠ .deleteBlob key

theorem Filled.handles (h : Filled codec s w)
    (hprogram : Only Handles (program codec s served.1))
    (hserves : Serves codec s w served w') : Filled codec s w' :=
  Prog.Runs.invariant (I := Filled codec s) (A := fun _ _ => True)
    (fun _ _ _ _ hw hop hexec => ⟨hw.reads hexec hop.1 hop.2.1 hop.2.2, trivial⟩)
    hserves hprogram h

theorem Filled.serves (h : Filled codec s w) (hcodec : codec.Faithful)
    (hserves : Serves codec s w served w') : Filled codec s w' := by
  obtain ⟨call, result⟩ := served
  have hfinish : ∀ leaseID owner ack reason, Handles (.finishLease leaseID owner ack reason) :=
    fun _ _ _ _ => ⟨⟨false, trivial⟩, trivial, nofun⟩
  cases call with
  | put sample => exact h.put hcodec hserves
  | claim tenantID runID n owner duration =>
    refine h.handles ?_ hserves
    exact obeys_claim ⟨⟨false, trivial⟩, trivial, nofun⟩ ⟨⟨false, trivial⟩, trivial, nofun⟩
      (fun _ _ _ uuid _ _ => ⟨⟨false, lease_ne_empty uuid⟩, trivial, nofun⟩)
      (fun _ => ⟨⟨false, trivial⟩, trivial, nofun⟩) hfinish tenantID runID n owner duration
  | ack leaseID owner | nack leaseID owner reason =>
    refine h.handles ?_ hserves
    exact Obeys.perform (hfinish _ _ _ _)
  | backpressure tenantID runID =>
    refine h.handles ?_ hserves
    exact Obeys.call ⟨⟨false, trivial⟩, trivial, nofun⟩ fun _ => Obeys.pure _
  | exportRun tenantID runID =>
    refine h.handles ?_ hserves
    exact obeys_exportRun ⟨⟨false, trivial⟩, trivial, nofun⟩
      fun _ => ⟨⟨false, trivial⟩, trivial, nofun⟩
  | sweep now => exact h.sweep hcodec hserves

theorem filled_of_run {clock : Int} {calls : List Served} (hcodec : codec.Faithful)
    (hclock : zeroTime < clock) (hrun : Run (Serves codec s) (World.initial clock) calls w) :
    Filled codec s w :=
  hrun.invariant (I := Filled codec s) (filled_initial codec s hclock)
    fun _ _ _ h hserves => h.serves hcodec hserves

end Calls

/-! ## Claims -/

section Claims

variable {codec : Codec} {s : Store} {w w' : World} {tenantID runID owner : String}
  {n duration : Int}

/-- A payload that can be read, decoded and validated. -/
def Readable (codec : Codec) (s : Store) (b : Blobs) (r : SampleRecord) : Prop :=
  ∃ raw sample, b.get r.blobKey = .ok raw ∧ codec.decode raw = .ok sample ∧
    sample.validate s.maxTokens = .ok ()

theorem Filled.readable (h : Filled codec s w) (hcodec : codec.Faithful) {k : String}
    {r : SampleRecord} (hrow : w.samples.get k = some r) : Readable codec s w.blobs r := by
  obtain ⟨sample, raw, hholds⟩ := h.holds k r hrow
  obtain ⟨read, hdecode, hvalidate⟩ := hcodec.reads sample raw hholds.encoded
  refine ⟨raw, read, ?_, hdecode, (hvalidate _).trans hholds.valid⟩
  unfold Blobs.get
  rw [hholds.stored]

/-- Readable payloads are all read. -/
theorem readPayloads_of_readable {leaseID : String} {records : List SampleRecord}
    (h : ∀ r ∈ records, Readable codec s w.blobs r) (payloads : List SampleEnvelope) :
    (∃ result, Prog.Runs exec w (s.readPayloads codec leaseID owner records payloads)
      (.ok result) w) ∧
    ∀ result w', Prog.Runs exec w (s.readPayloads codec leaseID owner records payloads) result w' →
      ∃ all, result = .ok all := by
  induction records generalizing payloads with
  | nil =>
    refine ⟨⟨payloads, .ret _ _⟩, fun result w' hruns => ?_⟩
    cases hruns
    exact ⟨payloads, rfl⟩
  | cons r records ih =>
    obtain ⟨raw, sample, hget, hdecode, hvalid⟩ := h r List.mem_cons_self
    obtain ⟨⟨all, hall⟩, honly⟩ :=
      ih (fun r' hr' => h r' (List.mem_cons_of_mem r hr')) (payloads ++ [sample])
    have hexec : exec w (.getBlob r.blobKey) (w.blobs.get r.blobKey) w := ⟨rfl, rfl⟩
    refine ⟨⟨all, ?_⟩, fun result w' hruns => ?_⟩
    · refine Prog.Runs.bind (Prog.Runs.perform hexec) ?_
      rw [hget]
      dsimp only
      rw [hdecode]
      dsimp only
      rw [hvalid]
      exact hall
    · obtain ⟨found, w1, hfound, hrest⟩ := Prog.Runs.of_bind hruns
      obtain ⟨hfound', rfl⟩ := hfound.of_perform
      rw [hget] at hfound'
      subst hfound'
      dsimp only at hrest
      rw [hdecode] at hrest
      dsimp only at hrest
      rw [hvalid] at hrest
      exact honly result w' hrest

/-- Some prompt group of the run has exactly as many available samples. -/
def Consumable (m : Samples) (tenantID runID : String) (n : Int) : Prop :=
  ∃ group, ((m.group tenantID runID group).length : Int) = n

/-- A claim of groups of this size comes to an end, and returns a complete group. -/
def Drains (codec : Codec) (s : Store) (w : World) (tenantID runID : String) (n : Int) : Prop :=
  ∀ owner duration, owner ≠ "" → 0 < duration →
    (∃ result w', Serves codec s w ⟨.claim tenantID runID n owner duration, result⟩ w') ∧
    ∀ result w', Serves codec s w ⟨.claim tenantID runID n owner duration, result⟩ w' →
      ∃ lease payloads, result = .ok (lease, payloads) ∧ (lease.samples.length : Int) = n

theorem completeGroups_ne_nil_iff {m : Samples} (hn : 1 ≤ n) :
    m.completeGroups tenantID runID n ≠ [] ↔ Consumable m tenantID runID n := by
  have hmem : ∀ group, group ∈ m.completeGroups tenantID runID n ↔
      group ∈ (m.available tenantID runID).map SampleRecord.promptGroupID ∧
        ((m.group tenantID runID group).length : Int) = n := by
    intro group
    unfold Samples.completeGroups
    rw [List.mem_insertionSort, List.mem_filter, List.mem_dedup, decide_eq_true_eq]
  constructor
  · intro hne
    obtain ⟨group, hgroup⟩ := List.exists_mem_of_ne_nil _ hne
    exact ⟨group, ((hmem group).mp hgroup).2⟩
  · rintro ⟨group, hsize⟩
    refine List.ne_nil_of_mem ((hmem group).mpr ⟨?_, hsize⟩)
    -- a group with samples has one that names it
    have hne : m.group tenantID runID group ≠ [] := by
      intro hnil
      rw [hnil] at hsize
      simp only [List.length_nil, Int.natCast_zero] at hsize
      omega
    obtain ⟨r, hr⟩ := List.exists_mem_of_ne_nil _ hne
    obtain ⟨havailable, hname⟩ := List.mem_filter.mp hr
    exact List.mem_map.mpr ⟨r, havailable, of_decide_eq_true hname⟩

theorem claimGroup_cases (m : Samples) (leaseID : String) (expires : Int) (hn : 1 ≤ n) :
    (¬Consumable m tenantID runID n ∧
      (m.claimGroup tenantID runID n leaseID owner expires).1 = .error .noCompleteGroup) ∨
    Consumable m tenantID runID n ∧
      ∃ lease, (m.claimGroup tenantID runID n leaseID owner expires).1 = .ok lease := by
  rw [← completeGroups_ne_nil_iff hn]
  unfold Samples.claimGroup
  split
  · rename_i hnil
    exact .inl ⟨not_not.mpr hnil, rfl⟩
  · rename_i hcons
    exact .inr ⟨by rw [hcons]; exact List.cons_ne_nil _ _, _, rfl⟩

theorem exists_longer (ids : List String) : ∃ n, ∀ id ∈ ids, id.length ≤ n := by
  induction ids with
  | nil => exact ⟨0, fun _ h => by cases h⟩
  | cons id ids ih =>
    obtain ⟨n, hn⟩ := ih
    refine ⟨max id.length n, fun id' hid' => ?_⟩
    rcases List.mem_cons.mp hid' with rfl | hmem
    · exact le_max_left _ _
    · exact le_trans (hn id' hmem) (le_max_right _ _)

theorem exists_fresh (ids : List String) : ∃ uuid, "lease-" ++ uuid ∉ ids := by
  obtain ⟨n, hn⟩ := exists_longer ids
  refine ⟨String.ofList (List.replicate n 'a'), fun hmem => ?_⟩
  have hlength := hn _ hmem
  have huuid : (String.ofList (List.replicate n 'a')).length = n := by
    rw [String.length_ofList, List.length_replicate]
  have hstart : "lease-".length = 6 := by decide
  rw [String.length_append, huuid, hstart] at hlength
  omega

theorem serves_claim_error {uuid : String} {now : Int} {e : Error} {w1 : World}
    (hargs : Claimable tenantID runID n owner duration) (hclock : w.clock ≤ now)
    (hexec : exec { w with clock := now }
      (.claimGroup tenantID runID n ("lease-" ++ uuid) owner (now + duration))
      (Except.error e : Except Error Lease) w1) :
    Serves codec s w ⟨.claim tenantID runID n owner duration, .error e⟩ w1 := by
  have huuid : exec w .uuid uuid w := rfl
  have hnow : exec w .now now { w with clock := now } := ⟨hclock, rfl⟩
  unfold Serves program Store.claim
  dsimp only
  rw [if_neg hargs]
  refine Prog.Runs.bind (Prog.Runs.perform huuid) ?_
  refine Prog.Runs.bind (Prog.Runs.perform hnow) ?_
  exact Prog.Runs.bind (Prog.Runs.perform hexec) (.ret _ _)

theorem serves_claim_ok {uuid : String} {now : Int} {lease : Lease} {w1 : World}
    {payloads : List SampleEnvelope} (hargs : Claimable tenantID runID n owner duration)
    (hclock : w.clock ≤ now)
    (hexec : exec { w with clock := now }
      (.claimGroup tenantID runID n ("lease-" ++ uuid) owner (now + duration))
      (Except.ok lease : Except Error Lease) w1)
    (hread : Prog.Runs exec w1 (s.readPayloads codec lease.id owner lease.samples [])
      (.ok payloads) w') :
    Serves codec s w ⟨.claim tenantID runID n owner duration, .ok (lease, payloads)⟩ w' := by
  have huuid : exec w .uuid uuid w := rfl
  have hnow : exec w .now now { w with clock := now } := ⟨hclock, rfl⟩
  unfold Serves program Store.claim
  dsimp only
  rw [if_neg hargs]
  refine Prog.Runs.bind (Prog.Runs.perform huuid) ?_
  refine Prog.Runs.bind (Prog.Runs.perform hnow) ?_
  refine Prog.Runs.bind (Prog.Runs.perform hexec) ?_
  exact Prog.Runs.bind hread (.ret _ _)

theorem Filled.readable_lease (h : Filled codec s w) (hcodec : codec.Faithful) {now : Int}
    {leaseID : String} {expires : Int} {lease : Lease} {w1 : World}
    (hexec : exec { w with clock := now }
      (.claimGroup tenantID runID n leaseID owner expires)
        (Except.ok lease : Except Error Lease) w1) :
    (∀ r ∈ lease.samples, Readable codec s w1.blobs r) ∧ (lease.samples.length : Int) = n := by
  have hkeyed : ({ w with clock := now } : World).samples.Keyed := h.sound.keyed
  obtain ⟨-, -, hgrants⟩ := grants_of_exec hkeyed hexec
  refine ⟨fun r' hr' => ?_, hgrants.size⟩
  obtain ⟨k, r, hrow, -, rfl⟩ := (hgrants.samples r').mp hr'
  rw [hexec.2.2]
  have hread : Readable codec s w.blobs r := h.readable hcodec hrow
  exact hread

/-- Consumers can take something if and only if some group has the size they ask for. -/
theorem drains_iff (h : Filled codec s w) (hcodec : codec.Faithful) (htenant : tenantID ≠ "")
    (hrun : runID ≠ "") (hn : 1 ≤ n) :
    Drains codec s w tenantID runID n ↔ Consumable w.samples tenantID runID n := by
  obtain ⟨uuid, hfresh⟩ := exists_fresh w.issued
  have hexec : ∀ owner duration, exec { w with clock := w.clock }
      (.claimGroup tenantID runID n ("lease-" ++ uuid) owner (w.clock + duration))
      (w.samples.claimGroup tenantID runID n ("lease-" ++ uuid) owner (w.clock + duration)).1 _ :=
    fun owner duration => ⟨hfresh, rfl, rfl⟩
  have hargs : ∀ owner duration, owner ≠ "" → 0 < duration →
      Claimable tenantID runID n owner duration := by
    rintro owner duration howner hduration (h | h | h | h | h)
    · exact htenant h
    · exact hrun h
    · omega
    · exact howner h
    · omega
  constructor
  · intro hdrains
    -- a claim that finds no group would end with an error
    rcases claimGroup_cases w.samples ("lease-" ++ uuid) (w.clock + 1) hn with
      ⟨-, herror⟩ | ⟨hgroup, -⟩
    · have hclaimable := hargs "owner" 1 (by decide) (by decide)
      have hanswer := hexec "owner" 1
      rw [herror] at hanswer
      obtain ⟨_, _, hok, _⟩ := (hdrains "owner" 1 (by decide) (by decide)).2 _ _
        (serves_claim_error hclaimable (le_refl w.clock) hanswer)
      cases hok
    · exact hgroup
  · intro hgroup owner duration howner hduration
    have hclaimable := hargs owner duration howner hduration
    refine ⟨?_, fun result w' hserves => ?_⟩
    · rcases claimGroup_cases w.samples ("lease-" ++ uuid) (w.clock + duration) hn with
        ⟨hnone, -⟩ | ⟨-, lease, hlease⟩
      · exact absurd hgroup hnone
      · have hanswer := hexec owner duration
        rw [hlease] at hanswer
        obtain ⟨hreadable, -⟩ := h.readable_lease hcodec hanswer
        obtain ⟨⟨payloads, hread⟩, -⟩ := readPayloads_of_readable hreadable []
        exact ⟨_, _, serves_claim_ok hclaimable (le_refl w.clock) hanswer hread⟩
    · obtain ⟨uuid', now, answer, w1, -, hexec', hcases⟩ := claim_cases hclaimable hserves
      rcases hcases with ⟨e, rfl, -, -⟩ | ⟨lease, read, rfl, hread, hresult⟩
      · -- the group is there, so the claim is not turned away
        rcases claimGroup_cases w.samples ("lease-" ++ uuid') (now + duration) hn with
          ⟨hnone, -⟩ | ⟨-, lease, hlease⟩
        · exact absurd hgroup hnone
        · have hanswer : Except.error e = (w.samples.claimGroup tenantID runID n
              ("lease-" ++ uuid') owner (now + duration)).1 := hexec'.2.1
          rw [hlease] at hanswer
          cases hanswer
      · obtain ⟨hreadable, hsize⟩ := h.readable_lease hcodec hexec'
        obtain ⟨payloads, rfl⟩ := (readPayloads_of_readable hreadable []).2 read w' hread
        exact ⟨lease, payloads, hresult, hsize⟩

end Claims

/-! ## Backpressure -/

/-- The sample is turned away with `ErrBackpressure`. -/
def Rejected (codec : Codec) (s : Store) (w : World) (sample : SampleEnvelope) : Prop :=
  ∃ w', Serves codec s w ⟨.put sample, .error .backpressure⟩ w'

variable {sample : SampleEnvelope}

theorem rejected_iff {codec : Codec} {s : Store} {w : World}
    (hvalid : sample.validate s.maxTokens = .ok ()) :
    Rejected codec s w sample ↔
      s.highWatermark ≤ w.samples.countAvailableGroups sample.tenantID sample.runID := by
  constructor
  · rintro ⟨w', hserves⟩
    generalize hresult : (Except.error Error.backpressure : Except Error (SampleRecord × Bool)) =
      result at hserves
    cases put_cases hserves with
    | paused _ hhigh => exact hhigh
    | invalid | unencodable | conflicting => cases hresult
    | stored _ _ _ _ _ hanswer =>
      rw [← hresult] at hanswer
      split at hanswer <;> cases hanswer
  · intro hhigh
    refine ⟨w, ?_⟩
    have hcount : exec w (.countAvailableGroups sample.tenantID sample.runID)
        (w.samples.countAvailableGroups sample.tenantID sample.runID) w := ⟨rfl, rfl⟩
    unfold Serves program Store.put
    dsimp only
    rw [hvalid]
    refine Prog.Runs.bind (Prog.Runs.perform hcount) ?_
    rw [if_pos hhigh]
    exact .ret _ _

theorem ids_of_validate {maxTokens : Int} (h : sample.validate maxTokens = .ok ()) :
    sample.tenantID ≠ "" ∧ sample.runID ≠ "" := by
  unfold SampleEnvelope.validate at h
  dsimp only at h
  split at h
  · cases h
  · rename_i hids
    simp only [not_or] at hids
    exact ⟨hids.2.1, hids.2.2.2.1⟩

/-- In every state that calls reach one after the other, a `Put` that is held up leaves
consumers something to take if and only if the watermark is not reached or some group is
complete. -/
theorem backpressure_drains_iff (codec : Codec) (hcodec : codec.Faithful) (s : Store) (clock : Int)
    (hclock : zeroTime < clock) (calls : List Served) (w : World)
    (hrun : Run (Serves codec s) (World.initial clock) calls w) (n : Int) (hn : 1 ≤ n)
    (sample : SampleEnvelope) (hvalid : sample.validate s.maxTokens = .ok ()) :
    (Rejected codec s w sample → Drains codec s w sample.tenantID sample.runID n) ↔
      w.samples.countAvailableGroups sample.tenantID sample.runID < s.highWatermark ∨
        Consumable w.samples sample.tenantID sample.runID n := by
  obtain ⟨htenant, hrunID⟩ := ids_of_validate hvalid
  rw [rejected_iff hvalid, drains_iff (filled_of_run hcodec hclock hrun) hcodec htenant hrunID hn,
    imp_iff_not_or, not_le]

/-! ### One prompt group of two samples -/

def firstOfPair : SampleEnvelope := sampleOf "t" "r" "g" "s1"

def secondOfPair : SampleEnvelope := sampleOf "t" "r" "g" "s2"

def pairCodec : Codec where
  encode sample :=
    if sample = firstOfPair then .ok [1]
    else if sample = secondOfPair then .ok [2]
    else .error "unsupported value"
  decode raw := if raw = [1] then .ok firstOfPair else .ok secondOfPair
  checksum raw := if raw = [1] then "one" else "two"

theorem encode_pairCodec {raw : Bytes} (h : pairCodec.encode sample = .ok raw) :
    sample = firstOfPair ∧ raw = [1] ∨ sample = secondOfPair ∧ raw = [2] := by
  unfold pairCodec at h
  dsimp only at h
  split at h
  · rename_i hfirst
    cases h
    exact .inl ⟨hfirst, rfl⟩
  · split at h
    · rename_i hsecond
      cases h
      exact .inr ⟨hsecond, rfl⟩
    · cases h

theorem faithful_pairCodec : pairCodec.Faithful where
  reads sample raw h := by
    rcases encode_pairCodec h with ⟨rfl, rfl⟩ | ⟨rfl, rfl⟩
    · exact ⟨firstOfPair, rfl, fun _ => rfl⟩
    · exact ⟨secondOfPair, rfl, fun _ => rfl⟩
  identifies a b raw ha hb := by
    rcases encode_pairCodec ha with ⟨rfl, rfl⟩ | ⟨rfl, rfl⟩ <;>
      rcases encode_pairCodec hb with ⟨rfl, hraw⟩ | ⟨rfl, hraw⟩
    · exact ⟨rfl, rfl, rfl⟩
    · cases hraw
    · cases hraw
    · exact ⟨rfl, rfl, rfl⟩
  collisionFree a b raw raw' ha hb hsum := by
    rcases encode_pairCodec ha with ⟨-, rfl⟩ | ⟨-, rfl⟩ <;>
      rcases encode_pairCodec hb with ⟨-, rfl⟩ | ⟨-, rfl⟩
    · rfl
    · exact absurd hsum (by decide)
    · exact absurd hsum (by decide)
    · rfl

def narrowStore : Store := ⟨12, 1, 0, 100, by decide, by decide⟩

def halfPair : List Served × World :=
  serveAll pairCodec narrowStore (World.initial 1) [.put firstOfPair]

/-- Consumers that take samples one by one are not held up. -/
theorem backpressure_drains_iff_single :
    Rejected pairCodec narrowStore halfPair.2 secondOfPair ∧
      Drains pairCodec narrowStore halfPair.2 "t" "r" 1 := by
  have hvalid : secondOfPair.validate narrowStore.maxTokens = .ok () := by decide
  have hrejected : Rejected pairCodec narrowStore halfPair.2 secondOfPair :=
    (rejected_iff hvalid).mpr (by decide +kernel)
  have hgroup : Consumable halfPair.2.samples "t" "r" 1 := ⟨"g", by decide +kernel⟩
  exact ⟨hrejected, (backpressure_drains_iff pairCodec faithful_pairCodec narrowStore 1 (by decide)
    halfPair.1 halfPair.2 (run_serveAll _ _ _ _) 1 (by decide) secondOfPair hvalid).mpr
    (.inr hgroup) hrejected⟩

/-- Consumers that take pairs and the producer of the second sample wait for each other: no
lease is outstanding, the group has one available sample, the second is valid and new, its `Put`
is turned away, and no group is complete. -/
theorem backpressure_deadlock :
    Run (Serves pairCodec narrowStore) (World.initial 1) halfPair.1 halfPair.2 ∧
    (∀ r ∈ halfPair.2.samples.values, r.state ≠ .leased) ∧
    secondOfPair.validate narrowStore.maxTokens = .ok () ∧
    halfPair.2.samples.get (sampleKey "t" "r" "s2") = none ∧
    (halfPair.2.samples.group "t" "r" "g").length = 1 ∧
    (∃ w', Serves pairCodec narrowStore halfPair.2 ⟨.put secondOfPair, .error .backpressure⟩ w') ∧
    ∃ w', Serves pairCodec narrowStore halfPair.2
      ⟨.claim "t" "r" 2 "owner" 5, .error .noCompleteGroup⟩ w' := by
  have hvalid : secondOfPair.validate narrowStore.maxTokens = .ok () := by decide
  refine ⟨run_serveAll _ _ _ _, by decide +kernel, hvalid, by decide +kernel, by decide +kernel,
    (rejected_iff hvalid).mpr (by decide +kernel), ?_⟩
  have hargs : Claimable "t" "r" 2 "owner" 5 := by
    unfold Claimable
    decide
  have hanswer : Except.error Error.noCompleteGroup = (halfPair.2.samples.claimGroup "t" "r" 2
      ("lease-" ++ "0") "owner" (halfPair.2.clock + 5)).1 := by
    decide +kernel
  have hfresh : "lease-" ++ "0" ∉ halfPair.2.issued := by decide +kernel
  exact ⟨_, serves_claim_error hargs (le_refl _) ⟨hfresh, hanswer, rfl⟩⟩

end DataPlane
end Skyscale
