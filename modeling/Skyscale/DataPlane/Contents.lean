import Skyscale.DataPlane.Leases

/-!
# Records and their blobs

`Put` stores the blob first and inserts the record second; `Sweep` deletes the record first and
the blob second.  Calls run side by side, interleaved at their operations, and a sample that is
put again finds the blob of the first time.  So a sweep can delete a blob that a `Put` has
already relied on.

* `Awaits` says that a call has stored or found a blob and has yet to insert its record;
* `Careful` is the condition under which a blob may be deleted;
* `blobs_present`: if all deletions are careful, every available or leased record has its blob;
* `blob_lost`: a sweep beside a repeated `Put` leaves a record without one;
* `samples_survive`: the records themselves are only lost to a sweep.
-/

namespace Skyscale
namespace DataPlane

open Lib Contracts

/-! ## Calls side by side -/

/-- A call as a thread, which ends with the call and its result. -/
def thread (codec : Codec) (s : Store) (call : Call) : Prog Op Ans Served := do
  let result ← program codec s call
  pure ⟨call, result⟩

/-- The stores and the calls running on them. -/
abbrev Calls : Type := Pool World Call Op Ans Served

/-- One call is started, or one call performs its next operation. -/
def Interleaves (codec : Codec) (s : Store) : Calls → PoolEvent Call Op Ans → Calls → Prop :=
  Pool.Step (thread codec s) exec

/-- The blob is stored, and its content has the checksum. -/
def Stored (codec : Codec) (b : Blobs) (key checksum : String) : Prop :=
  ∃ raw, b.data.get key = some raw ∧ codec.checksum raw = checksum

/-- A record a consumer can still come to. -/
def SampleRecord.Live (r : SampleRecord) : Prop := r.state = .available ∨ r.state = .leased

/-- The rest of a call comes to the insertion of a record with this blob key and checksum, and
does not store the blob before. -/
inductive Awaits {α : Type} (key checksum : String) : Prog Op Ans α → Prop
  | insert {r : SampleRecord} {next : Ans (.insertSample r) → Prog Op Ans α} :
      r.blobKey = key → r.checksum = checksum → Awaits key checksum (.call (.insertSample r) next)
  | later {op : Op} {next : Ans op → Prog Op Ans α} (ans : Ans op) :
      (∀ value sum, op ≠ .putIfAbsent key value sum) → Awaits key checksum (next ans) →
      Awaits key checksum (.call op next)

/-- A blob is only deleted if no live record has its key and no call is about to insert one. -/
def Careful (p : Calls) : PoolEvent Call Op Ans → Prop
  | .call _ (.deleteBlob key) _ =>
    (∀ k r, p.world.samples.get k = some r → r.Live → r.blobKey ≠ key) ∧
      ∀ t ∈ p.threads, ∀ checksum, ¬Awaits key checksum t.rest
  | _ => True

/-! ## What a call awaits -/

section Awaits

variable {α β : Type} {key checksum : String}

theorem not_awaits_pure (a : α) : ¬Awaits key checksum (pure a : Prog Op Ans α) := by
  intro h
  cases h

theorem Awaits.of_bind {p : Prog Op Ans α} {f : α → Prog Op Ans β}
    (h : Awaits key checksum (p >>= f)) :
    Awaits key checksum p ∨ ∃ a, Awaits key checksum (f a) := by
  induction p with
  | ret a => exact .inr ⟨a, h⟩
  | call op next ih =>
    have hcall : Awaits key checksum (Prog.call op fun ans => (next ans).bind f) := h
    cases hcall with
    | insert hkey hsum => exact .inl (.insert hkey hsum)
    | later ans hop hrest =>
      rcases ih ans hrest with hfirst | hsecond
      · exact .inl (.later ans hop hfirst)
      · exact .inr hsecond

theorem Awaits.of_perform_bind {op : Op} {f : Ans op → Prog Op Ans β}
    (h : Awaits key checksum (Prog.perform op >>= f)) :
    (∃ r, op = .insertSample r ∧ r.blobKey = key ∧ r.checksum = checksum) ∨
      (∀ value sum, op ≠ .putIfAbsent key value sum) ∧ ∃ ans, Awaits key checksum (f ans) := by
  have hcall : Awaits key checksum (Prog.call op f) := h
  cases hcall with
  | insert hkey hsum => exact .inl ⟨_, rfl, hkey, hsum⟩
  | later ans hop hrest => exact .inr ⟨hop, ans, hrest⟩

end Awaits

/-- The operations that neither store a blob nor insert a record. -/
def Reads : Op → Prop
  | .putIfAbsent _ _ _ => False
  | .insertSample _ => False
  | _ => True

theorem not_awaits_of_reads {α : Type} {key checksum : String} {p : Prog Op Ans α}
    (h : Only Reads p) : ¬Awaits key checksum p := by
  intro hawaits
  induction hawaits with
  | insert _ _ => exact h.1
  | later ans _ _ ih => exact ih (h.2 ans trivial)

/-- What follows the storing of a blob: nothing is inserted if it fails, and otherwise only a
record with the checksum of the content. -/
def Backs (codec : Codec) {α : Type} : (op : Op) → (Ans op → Prog Op Ans α) → Prop
  | .putIfAbsent key value checksum, next =>
    checksum = codec.checksum value ∧
      (∀ e sum, ¬Awaits key sum (next (.error e))) ∧
      ∀ sum, Awaits key sum (next (.ok ())) → sum = checksum
  | _, _ => True

theorem backs_of_reads {codec : Codec} {α : Type} {op : Op} {next : Ans op → Prog Op Ans α}
    (h : Reads op) : Backs codec op next := by
  cases op with
  | putIfAbsent => exact h.elim
  | _ => trivial

theorem Backs.map {codec : Codec} {α β : Type} (f : α → β) {op : Op}
    {next : Ans op → Prog Op Ans α} (h : Backs codec op next) :
    Backs codec op fun ans => next ans >>= fun a => pure (f a) := by
  have hsame : ∀ {key sum : String} {p : Prog Op Ans α},
      Awaits key sum (p >>= fun a => pure (f a)) → Awaits key sum p := by
    intro key sum p hawaits
    rcases hawaits.of_bind with hfirst | ⟨a, hpure⟩
    · exact hfirst
    · exact absurd hpure (not_awaits_pure _)
  cases op with
  | putIfAbsent key value checksum =>
    exact ⟨h.1, fun e sum hawaits => h.2.1 e sum (hsame hawaits),
      fun sum hawaits => h.2.2 sum (hsame hawaits)⟩
  | _ => trivial

section Programs

variable {codec : Codec} {s : Store}

theorem awaits_putRecord {sample : SampleEnvelope} {key key' checksum checksum' : String}
    (h : Awaits key' checksum' (s.putRecord sample key checksum)) :
    key' = key ∧ checksum' = checksum := by
  rcases Awaits.of_perform_bind h with ⟨r, hop, -, -⟩ | ⟨-, now, hinsert⟩
  · cases hop
  · rcases Awaits.of_perform_bind hinsert with ⟨r, hop, hkey, hsum⟩ | ⟨-, inserted, hlast⟩
    · cases hop
      exact ⟨hkey.symm, hsum.symm⟩
    · split at hlast
      split at hlast <;> exact absurd hlast (not_awaits_pure _)

theorem backs_putRecord (sample : SampleEnvelope) (key checksum : String) :
    (s.putRecord sample key checksum).Calls (fun _ _ => True) (Backs codec) := by
  refine Prog.Calls.perform_bind trivial fun now _ => ?_
  refine Prog.Calls.perform_bind trivial fun inserted _ => ?_
  dsimp only
  split <;> trivial

theorem not_awaits_put (sample : SampleEnvelope) (key checksum : String) :
    ¬Awaits key checksum (s.put codec sample) := by
  unfold Store.put
  split
  · exact not_awaits_pure _
  · intro h
    rcases Awaits.of_perform_bind h with ⟨r, hop, -, -⟩ | ⟨-, groups, hrest⟩
    · cases hop
    · split at hrest
      · exact not_awaits_pure _ hrest
      · split at hrest
        · exact not_awaits_pure _ hrest
        · rcases Awaits.of_perform_bind hrest with ⟨r, hop, -, -⟩ | ⟨hother, stored, hlast⟩
          · cases hop
          · split at hlast
            · exact not_awaits_pure _ hlast
            · -- the record has the key of the blob just stored
              obtain ⟨rfl, -⟩ := awaits_putRecord hlast
              exact hother _ _ rfl

theorem backs_put (sample : SampleEnvelope) :
    (s.put codec sample).Calls (fun _ _ => True) (Backs codec) := by
  unfold Store.put
  split
  · trivial
  refine Prog.Calls.perform_bind trivial fun groups _ => ?_
  split
  · trivial
  split
  · trivial
  refine Prog.Calls.perform_bind ⟨rfl, ?_, ?_⟩ fun stored _ => ?_
  · exact fun e sum => not_awaits_pure _
  · exact fun sum h => (awaits_putRecord h).2
  · cases stored with
    | error e => trivial
    | ok => exact backs_putRecord _ _ _

theorem reads_program {call : Call} (h : ∀ sample, call ≠ .put sample) :
    Only Reads (program codec s call) := by
  cases call with
  | put sample => exact absurd rfl (h sample)
  | claim tenantID runID expectedGroupSize owner duration =>
    exact obeys_claim trivial trivial (fun _ _ _ _ _ _ => trivial) (fun _ => trivial)
      (fun _ _ _ _ => trivial) tenantID runID expectedGroupSize owner duration
  | ack leaseID owner | nack leaseID owner reason => exact Obeys.perform trivial
  | backpressure tenantID runID => exact Obeys.call trivial fun _ => Obeys.pure _
  | exportRun tenantID runID => exact obeys_exportRun trivial (fun _ => trivial)
  | sweep now =>
    refine Obeys.call trivial fun released => ?_
    refine Obeys.call trivial fun records => ?_
    refine Obeys.bind (Obeys.forEach fun record _ => Obeys.perform trivial) fun _ => ?_
    exact Obeys.pure _

theorem backs_thread (call : Call) :
    (thread codec s call).Calls (fun _ _ => True) (Backs codec) ∧
      ∀ key checksum, ¬Awaits key checksum (thread codec s call) := by
  have hprogram : (program codec s call).Calls (fun _ _ => True) (Backs codec) ∧
      ∀ key checksum, ¬Awaits key checksum (program codec s call) := by
    by_cases hput : ∃ sample, call = .put sample
    · obtain ⟨sample, rfl⟩ := hput
      exact ⟨backs_put sample, not_awaits_put sample⟩
    · have hreads : Only Reads (program codec s call) :=
        reads_program fun sample hcall => hput ⟨sample, hcall⟩
      exact ⟨hreads.calls fun _ _ hop => backs_of_reads hop, fun _ _ => not_awaits_of_reads hreads⟩
  refine ⟨hprogram.1.map _ fun _ _ h => h.map _, fun key checksum h => ?_⟩
  rcases h.of_bind with hfirst | ⟨result, hpure⟩
  · exact hprogram.2 key checksum hfirst
  · exact not_awaits_pure _ hpure

/-- The operations of all calls. -/
def Admissible (op : Op) : Prop := ∃ sweeps, Allowed sweeps op

theorem admissible_thread (call : Call) :
    Only Admissible (thread codec s call) := by
  refine Obeys.bind ?_ fun _ => Obeys.pure _
  exact wp_rely_mono (fun _ _ h => h) (fun _ h => ⟨_, h⟩) (allowed_program call)

end Programs

/-! ## Blobs -/

/-- The recorded checksums are those of the contents. -/
def Blobs.Recorded (codec : Codec) (b : Blobs) : Prop :=
  ∀ key raw, b.data.get key = some raw → b.checksums.get key = some (codec.checksum raw)

section Blobs

variable {codec : Codec} {b b' : Blobs} {key checksum : String} {value : Bytes}

theorem stored_of_putIfAbsent (h : b.Recorded codec)
    (hput : b.putIfAbsent key value (codec.checksum value) = (.ok (), b')) :
    Stored codec b' key (codec.checksum value) := by
  unfold Blobs.putIfAbsent at hput
  split at hput
  · cases hput
  rename_i hsame
  split at hput
  · rename_i raw hraw
    cases hput
    refine ⟨raw, hraw, ?_⟩
    rw [h key raw hraw, Option.any_some, Bool.not_eq_true, decide_eq_false_iff_not,
      not_not] at hsame
    exact hsame
  · cases hput
    exact ⟨value, FinMap.get_set_self _ _ _, rfl⟩

theorem Stored.putIfAbsent {key' checksum' : String} (h : Stored codec b key' checksum') :
    Stored codec (b.putIfAbsent key value checksum).2 key' checksum' := by
  obtain ⟨raw, hraw, hsum⟩ := h
  refine ⟨raw, ?_, hsum⟩
  unfold Blobs.putIfAbsent
  split
  · exact hraw
  · split
    · exact hraw
    · rename_i hnone
      have hne : key' ≠ key := by
        rintro rfl
        cases hraw.symm.trans hnone
      exact (FinMap.get_set_ne _ _ hne).trans hraw

theorem Stored.delete {key' : String} (h : Stored codec b key' checksum) (hne : key' ≠ key) :
    Stored codec (b.delete key) key' checksum := by
  obtain ⟨raw, hraw, hsum⟩ := h
  exact ⟨raw, (FinMap.get_del_ne _ hne).trans hraw, hsum⟩

theorem Blobs.Recorded.putIfAbsent (h : b.Recorded codec) :
    (b.putIfAbsent key value (codec.checksum value)).2.Recorded codec := by
  unfold Blobs.putIfAbsent
  split
  · exact h
  · split
    · exact h
    · intro key' raw hraw
      by_cases hkey : key' = key
      · subst hkey
        rw [FinMap.get_set_self] at hraw ⊢
        rw [Option.some.inj hraw]
      · rw [FinMap.get_set_ne _ _ hkey] at hraw ⊢
        exact h key' raw hraw

theorem Blobs.Recorded.delete (h : b.Recorded codec) : (b.delete key).Recorded codec := by
  intro key' raw hraw
  have hne : key' ≠ key := by
    rintro rfl
    cases (FinMap.get_del_self _ _).symm.trans hraw
  have hraw' : b.data.get key' = some raw := (FinMap.get_del_ne _ hne).symm.trans hraw
  exact (FinMap.get_del_ne _ hne).trans (h key' raw hraw')

end Blobs

section Operations

variable {codec : Codec} {w w' : World} {op : Op} {ans : Ans op} {key checksum : String}

theorem blobs_of_exec (hexec : exec w op ans w') :
    w'.blobs = w.blobs ∨
      (∃ key value checksum, op = .putIfAbsent key value checksum ∧
        w'.blobs = (w.blobs.putIfAbsent key value checksum).2) ∨
      ∃ key, op = .deleteBlob key ∧ w'.blobs = w.blobs.delete key := by
  cases op with
  | putIfAbsent key value checksum =>
    exact .inr (.inl ⟨key, value, checksum, rfl, by rw [hexec.2]⟩)
  | deleteBlob key => exact .inr (.inr ⟨key, rfl, by rw [show w' = _ from hexec]⟩)
  | uuid => exact .inl (by rw [show w' = _ from hexec])
  | claimGroup => exact .inl (by rw [hexec.2.2])
  | finishLease =>
    obtain ⟨_, _, _, _, _, hw'⟩ := hexec
    exact .inl (by rw [hw'])
  | now | getBlob | insertSample | countAvailableGroups | releaseExpired
  | deleteExpired | listRun =>
    exact .inl (by rw [hexec.2])

theorem Stored.exec (h : Stored codec w.blobs key checksum) (hexec : exec w op ans w')
    (hop : op ≠ .deleteBlob key) : Stored codec w'.blobs key checksum := by
  rcases blobs_of_exec hexec with hsame | ⟨_, _, _, _, hput⟩ | ⟨key', hdelete, hdeleted⟩
  · rwa [hsame]
  · rw [hput]
    exact h.putIfAbsent
  · rw [hdeleted]
    refine h.delete ?_
    rintro rfl
    exact hop hdelete

theorem Blobs.Recorded.exec {α : Type} {next : Ans op → Prog Op Ans α}
    (h : w.blobs.Recorded codec) (hbacks : Backs codec op next) (hexec : exec w op ans w') :
    w'.blobs.Recorded codec := by
  rcases blobs_of_exec hexec with hsame | ⟨_, _, _, rfl, hput⟩ | ⟨_, _, hdeleted⟩
  · rwa [hsame]
  · rw [hput, hbacks.1]
    exact h.putIfAbsent
  · rw [hdeleted]
    exact h.delete

end Operations

/-! ## The invariant -/

/-- A thread relies only on blobs that are stored. -/
structure Steady (codec : Codec) (b : Blobs) (p : Prog Op Ans Served) : Prop where
  awaits : ∀ key checksum, Awaits key checksum p → Stored codec b key checksum
  backs : p.Calls (fun _ _ => True) (Backs codec)
  admissible : Only Admissible p

/-- Live records, and the records calls are about to insert, have their blobs. -/
structure Intact (codec : Codec) (p : Calls) : Prop where
  sound : Sound p.world
  recorded : p.world.blobs.Recorded codec
  live : ∀ k r, p.world.samples.get k = some r → r.Live →
    Stored codec p.world.blobs r.blobKey r.checksum
  threads : ∀ t ∈ p.threads, Steady codec p.world.blobs t.rest

section Step

variable {codec : Codec} {s : Store} {w w' : World} {op : Op} {ans : Ans op}

theorem steady_thread (b : Blobs) (call : Call) : Steady codec b (thread codec s call) :=
  ⟨fun key checksum h => absurd h ((backs_thread call).2 key checksum), (backs_thread call).1,
    admissible_thread call⟩

variable {next : Ans op → Prog Op Ans Served}

theorem Steady.step (h : Steady codec w.blobs (.call op next)) (hrecorded : w.blobs.Recorded codec)
    (hexec : exec w op ans w')
    (hdelete : ∀ key, op = .deleteBlob key → ∀ sum, ¬Awaits key sum (.call op next)) :
    Steady codec w'.blobs (next ans) := by
  refine ⟨fun key checksum hawaits => ?_, h.backs.2 ans trivial, h.admissible.2 ans trivial⟩
  by_cases hput : ∃ value sum, op = .putIfAbsent key value sum
  · obtain ⟨value, sum, rfl⟩ := hput
    obtain ⟨hsum, herror, hok⟩ := h.backs.1
    cases ans with
    | error e => exact absurd hawaits (herror e checksum)
    | ok =>
      obtain ⟨hanswer, hw'⟩ := hexec
      cases hok checksum hawaits
      rw [hw', hsum]
      rw [hsum] at hanswer
      exact stored_of_putIfAbsent hrecorded (Prod.ext hanswer.symm rfl)
  · have hlater : Awaits key checksum (Prog.call op next) :=
      .later ans (fun value sum hop => hput ⟨value, sum, hop⟩) hawaits
    refine (h.awaits key checksum hlater).exec hexec ?_
    exact fun hop => hdelete key hop checksum hlater

/-- Live records keep their blobs, and new ones have theirs. -/
theorem live_of_exec (hsound : Sound w)
    (hlive : ∀ k r, w.samples.get k = some r → r.Live → Stored codec w.blobs r.blobKey r.checksum)
    (hsteady : Steady codec w.blobs (.call op next)) (hexec : exec w op ans w')
    (hdelete : ∀ key, op = .deleteBlob key → ∀ k r, w.samples.get k = some r → r.Live → r.blobKey ≠
      key) :
    ∀ k r, w'.samples.get k = some r → r.Live → Stored codec w'.blobs r.blobKey r.checksum := by
  intro k r hrow hr
  obtain ⟨group, _, rfl, hchange⟩ := change_of_row hsound hexec hrow
  -- a record that was live has its blob, and nobody deletes it
  have hkeep : ∀ r0, w.samples.get k = some r0 → r0.Live →
      Stored codec w'.blobs r0.blobKey r0.checksum := by
    intro r0 hrow0 hr0
    refine (hlive k r0 hrow0 hr0).exec hexec ?_
    exact fun hop => hdelete _ hop k r0 hrow0 hr0 rfl
  generalize hold : w.samples.get k = old at hchange
  cases hchange with
  | same => exact hkeep r hold hr
  | insert hop _ =>
    subst hop
    have hawaits : Awaits r.blobKey r.checksum (Prog.call (.insertSample r) next) :=
      .insert rfl rfl
    exact (hsteady.awaits _ _ hawaits).exec hexec nofun
  | @lease r0 _ _ _ _ _ _ _ hgroup =>
    simp only [Samples.inGroup, Bool.and_eq_true, decide_eq_true_eq] at hgroup
    exact hkeep r0 hold (.inl hgroup.1.2)
  | @unlease r0 _ hleased _ => exact hkeep r0 hold (.inr hleased)

theorem Intact.step {p p' : Calls} {event : PoolEvent Call Op Ans} (h : Intact codec p)
    (hstep : Interleaves codec s p event p') (hcareful : Careful p event) : Intact codec p' := by
  cases hstep with
  | spawn call =>
    refine ⟨h.sound, h.recorded, h.live, fun t ht => ?_⟩
    rcases List.mem_append.mp ht with hold | hnew
    · exact h.threads t hold
    · cases List.mem_singleton.mp hnew
      exact steady_thread _ call
  | @call i t op next ans w' hi hrest hexec =>
    have hmem := List.mem_of_getElem? hi
    have hsteady := h.threads t hmem
    rw [hrest] at hsteady
    have hdelete : ∀ key, op = .deleteBlob key →
        (∀ k r, p.world.samples.get k = some r → r.Live → r.blobKey ≠ key) ∧
          ∀ t ∈ p.threads, ∀ checksum, ¬Awaits key checksum t.rest := by
      rintro key rfl
      exact hcareful
    obtain ⟨sweeps, hallowed⟩ := hsteady.admissible.1
    refine ⟨h.sound.step hallowed hexec, h.recorded.exec hsteady.backs.1 hexec,
      live_of_exec h.sound h.live hsteady hexec fun key hop => (hdelete key hop).1, ?_⟩
    intro t' ht'
    rcases List.mem_or_eq_of_mem_set ht' with hold | rfl
    · have hsteady' := h.threads t' hold
      refine ⟨fun key checksum hawaits => ?_, hsteady'.backs, hsteady'.admissible⟩
      refine (hsteady'.awaits key checksum hawaits).exec hexec ?_
      exact fun hop => (hdelete key hop).2 t' hold checksum hawaits
    · refine hsteady.step h.recorded hexec fun key hop sum hawaits => ?_
      exact (hdelete key hop).2 t hmem sum (hrest ▸ hawaits)

end Step

theorem intact_idle (codec : Codec) {clock : Int} (h : zeroTime < clock) :
    Intact codec (Pool.idle (World.initial clock)) where
  sound := sound_initial h
  recorded key raw hraw := by cases hraw
  live k r hrow := by cases hrow
  threads t ht := by cases ht

/-- If blobs are only deleted carefully, every live record has its blob, with the content its
checksum was taken from. -/
theorem blobs_present (codec : Codec) (s : Store) {clock : Int} (hclock : zeroTime < clock)
    {events : List (PoolEvent Call Op Ans)} {p : Calls}
    (hrun : Run (Guarded (Interleaves codec s) Careful) (Pool.idle (World.initial clock)) events
      p) :
    ∀ k r, p.world.samples.get k = some r → r.state = .available ∨ r.state = .leased →
      ∃ raw, p.world.blobs.data.get r.blobKey = some raw ∧ codec.checksum raw = r.checksum :=
  (hrun.invariant (I := Intact codec) (intact_idle codec hclock)
    fun _ _ _ h hstep => h.step hstep.1 hstep.2).live

/-! ## Computed interleavings -/

def schedule (codec : Codec) (s : Store) (p : Calls) (choices : List (Pool.Choice Call)) :
    List (PoolEvent Call Op Ans) × Calls :=
  play (Pool.advance (thread codec s) environment) p choices

theorem run_schedule (codec : Codec) (s : Store) (p : Calls) (choices : List (Pool.Choice Call)) :
    Run (Interleaves codec s) p (schedule codec s p choices).1 (schedule codec s p choices).2 := by
  have hadvance : ∀ p c event p', Pool.advance (thread codec s) environment p c = some (event, p') →
        Interleaves codec s p event p' :=
    fun _ _ _ _ h => Pool.step_of_advance exec_environment h
  exact run_play hadvance _ _

def deletesBlob : PoolEvent Call Op Ans → Bool
  | .call _ (.deleteBlob _) _ => true
  | _ => false

theorem careful_of_not_deletesBlob (p : Calls) {event : PoolEvent Call Op Ans}
    (h : deletesBlob event = false) : Careful p event := by
  cases event with
  | spawn call => trivial
  | call i op ans =>
    cases op with
    | deleteBlob key => cases h
    | _ => trivial

/-- A schedule without a deletion of a blob is careful. -/
theorem careful_schedule (codec : Codec) (s : Store) (p : Calls) (choices : List (Pool.Choice Call))
    (h : ((schedule codec s p choices).1.all fun e => !deletesBlob e) = true) :
    Run (Guarded (Interleaves codec s) Careful) p (schedule codec s p choices).1
      (schedule codec s p choices).2 := by
  have hlabels : ∀ event ∈ (schedule codec s p choices).1, deletesBlob event = false := by
    intro event hmem
    simpa using List.all_eq_true.mp h event hmem
  exact ((run_schedule codec s p choices).guarded_of_labels hlabels).mono
    fun p _ _ hstep => ⟨hstep.1, careful_of_not_deletesBlob p hstep.2⟩

def started : Calls := Pool.idle (World.initial 1)

/-- A sample is stored, and a sweep deletes its record. -/
def expiry : List (Pool.Choice Call) :=
  [.spawn (.put (sampleOf "t" "r" "g" "s")), .run 0, .run 0, .run 0, .run 0,
    .spawn (.sweep 1000), .run 1, .run 1]

/-- The sweep comes to the blob. -/
def swept : Calls := (schedule sampleCodec sampleStore started expiry).2

def cleared : Calls := (schedule sampleCodec sampleStore swept [.run 1]).2

/-- The sample is stored and claimed, by calls that overlap. -/
def overlap (i j : Nat) : List (Pool.Choice Call) :=
  [.spawn (.put (sampleOf "t" "r" "g" "s")), .spawn (.claim "t" "r" 1 "owner" 5),
    .run i, .run j, .run i, .run j, .run i, .run i, .run j, .run j]

theorem swept_rests :
    ∃ stored done, swept.threads.map Thread.rest =
      [.ret stored, .call (.deleteBlob "samples/t/r/g-sum.json") fun _ => .ret done] :=
  ⟨_, _, by with_unfolding_all rfl⟩

theorem careful_swept : Careful swept (.call 1 (.deleteBlob "samples/t/r/g-sum.json") ()) := by
  obtain ⟨stored, done, hrests⟩ := swept_rests
  have hnone : swept.world.samples.keys = [] := by decide +kernel
  refine ⟨fun k r hrow => ?_, fun t ht checksum hawaits => ?_⟩
  · have hkey := FinMap.mem_keys_of_get hrow
    rw [hnone] at hkey
    cases hkey
  · have hrest := List.mem_map_of_mem (f := Thread.rest) ht
    rw [hrests, List.mem_cons, List.mem_singleton] at hrest
    rcases hrest with hrest | hrest
    · rw [hrest] at hawaits
      cases hawaits
    · rw [hrest] at hawaits
      cases hawaits with
      | later _ _ hlater => cases hlater

theorem swept_step : Interleaves sampleCodec sampleStore swept
    (.call 1 (.deleteBlob "samples/t/r/g-sum.json") ()) cleared :=
  Pool.step_of_advance exec_environment (c := .run 1) (by with_unfolding_all rfl)

/-- The blob of an expired sample is deleted, and the sample is stored and claimed again. -/
theorem blobs_present_overlap :
    ((schedule sampleCodec sampleStore cleared (overlap 2 3)).2.world.samples.get
        (sampleKey "t" "r" "s")).map SampleRecord.state = some .leased ∧
      cleared.world.blobs.data.keys = [] ∧
      ∀ k r, (schedule sampleCodec sampleStore cleared (overlap 2 3)).2.world.samples.get k =
          some r → r.state = .available ∨ r.state = .leased →
        ∃ raw, (schedule sampleCodec sampleStore cleared (overlap 2 3)).2.world.blobs.data.get
          r.blobKey = some raw ∧ sampleCodec.checksum raw = r.checksum := by
  have hbefore := careful_schedule sampleCodec sampleStore started expiry (by decide +kernel)
  have hafter := careful_schedule sampleCodec sampleStore cleared (overlap 2 3) (by decide +kernel)
  refine ⟨by decide +kernel, by decide +kernel, ?_⟩
  exact blobs_present sampleCodec sampleStore (by decide)
    ((Run.snoc hbefore ⟨swept_step, careful_swept⟩).append hafter)

/-- The sample is stored again before the sweep deletes the blob. -/
def resurrection : List (Pool.Choice Call) :=
  [.spawn (.put (sampleOf "t" "r" "g" "s")), .run 2, .run 2, .run 2, .run 2, .run 1]

/-- The record is available and its blob is gone. -/
theorem blob_lost :
    ∃ events p, Run (Interleaves sampleCodec sampleStore) (Pool.idle (World.initial 1)) events p ∧
      ∃ k r, p.world.samples.get k = some r ∧ r.state = .available ∧
        p.world.blobs.data.get r.blobKey = none := by
  refine ⟨_, _, (run_schedule sampleCodec sampleStore started expiry).append
    (run_schedule sampleCodec sampleStore swept resurrection), sampleKey "t" "r" "s", ?_⟩
  have hfinal : ((schedule sampleCodec sampleStore swept resurrection).2.world.samples.get
      (sampleKey "t" "r" "s")).map (fun r => (r.state,
        (schedule sampleCodec sampleStore swept resurrection).2.world.blobs.data.get r.blobKey)) =
      some (.available, none) := by
    decide +kernel
  obtain ⟨r, hrow, hr⟩ := Option.map_eq_some_iff.mp hfinal
  exact ⟨r, hrow, congrArg Prod.fst hr, congrArg Prod.snd hr⟩

/-! ## The life of a record -/

/-- A record has become another: only its state and its lease differ, and not even those once it
is consumed or quarantined. -/
def SampleRecord.Became (r r' : SampleRecord) : Prop :=
  r'.unlease r.state = r.unlease r.state ∧ (r.Settled → r' = r)

/-- The metadata is sound, and the calls go on as they may. -/
def Regular (p : Calls) : Prop :=
  Sound p.world ∧ ∀ t ∈ p.threads, Only Admissible t.rest

section Life

variable {codec : Codec} {s : Store} {p p' : Calls} {k : String} {r : SampleRecord}

theorem Regular.step {event : PoolEvent Call Op Ans} (h : Regular p)
    (hstep : Interleaves codec s p event p') : Regular p' := by
  refine ⟨?_, Pool.Step.threads hstep h.2 (fun call _ => admissible_thread call) ?_⟩
  · cases hstep with
    | spawn => exact h.1
    | call hi hrest hexec =>
      have hobeys := h.2 _ (List.mem_of_getElem? hi)
      rw [hrest] at hobeys
      obtain ⟨sweeps, hallowed⟩ := hobeys.1
      exact h.1.step hallowed hexec
  · intro t _ op next ans _ hobeys hrest _
    rw [hrest] at hobeys
    exact hobeys.2 ans trivial

theorem SampleRecord.Became.exec {r' : SampleRecord} {w w' : World} {op : Op} {ans : Ans op}
    (h : r.Became r') (hsound : Sound w) (hexec : exec w op ans w')
    (hrow : w.samples.get k = some r') :
    (∃ r'', w'.samples.get k = some r'' ∧ r.Became r'') ∨ ∃ now, op = .deleteExpired now := by
  obtain ⟨group, hchanges⟩ := changes_of_exec hsound hexec
  have hchange := hchanges k
  rw [hrow] at hchange
  generalize w'.samples.get k = new at hchange ⊢
  cases hchange with
  | same => exact .inl ⟨r', rfl, h⟩
  | lease _ hgroup =>
    simp only [Samples.inGroup, Bool.and_eq_true, decide_eq_true_eq] at hgroup
    refine .inl ⟨_, rfl, h.1, fun hsettled => ?_⟩
    obtain rfl := h.2 hsettled
    rcases hsettled with hstate | hstate <;> cases hgroup.1.2.symm.trans hstate
  | unlease hleased _ =>
    refine .inl ⟨_, rfl, h.1, fun hsettled => ?_⟩
    obtain rfl := h.2 hsettled
    rcases hsettled with hstate | hstate <;> cases hleased.symm.trans hstate
  | delete hop _ => exact .inr ⟨_, hop⟩

/-- Whatever calls run side by side, and however their operations interleave: a stored sample
stays stored as the same sample, and exactly as it is once it is consumed or quarantined, unless
a sweep deletes expired records. -/
theorem samples_survive (codec : Codec) (s : Store) {clock : Int} (hclock : zeroTime < clock)
    {events later : List (PoolEvent Call Op Ans)}
    (hrun : Run (Interleaves codec s) (Pool.idle (World.initial clock)) events p)
    (hlater : Run (Interleaves codec s) p later p') (hrow : p.world.samples.get k = some r) :
    (∃ r', p'.world.samples.get k = some r' ∧ r.Became r') ∨
      ∃ i now ans, PoolEvent.call i (.deleteExpired now) ans ∈ later := by
  have hregular : Regular p := by
    refine hrun.invariant (I := Regular) ⟨sound_initial hclock, fun t ht => by cases ht⟩ ?_
    exact fun _ _ _ h hstep => h.step hstep
  suffices h : Regular p' ∧ ((∃ r', p'.world.samples.get k = some r' ∧ r.Became r') ∨
      ∃ i now ans, PoolEvent.call i (.deleteExpired now) ans ∈ later) from h.2
  induction hlater with
  | nil => exact ⟨hregular, .inl ⟨r, hrow, rfl, fun _ => rfl⟩⟩
  | snoc _ hstep ih =>
    obtain ⟨hregular1, ⟨r1, hrow1, hbecame⟩ | ⟨i, now, ans, hmem⟩⟩ := ih
    · refine ⟨hregular1.step hstep, ?_⟩
      cases hstep with
      | spawn => exact .inl ⟨r1, hrow1, hbecame⟩
      | call _ _ hexec =>
        rcases hbecame.exec hregular1.1 hexec hrow1 with hkept | ⟨now, rfl⟩
        · exact .inl hkept
        · exact .inr ⟨_, now, _, List.mem_append_right _ List.mem_cons_self⟩
    · exact ⟨hregular1.step hstep, .inr ⟨i, now, ans, List.mem_append_left _ hmem⟩⟩

end Life

def deletesExpired : PoolEvent Call Op Ans → Bool
  | .call _ (.deleteExpired _) _ => true
  | _ => false

/-- The schedule up to the end of `Put`. -/
def putDone : Calls := (schedule sampleCodec sampleStore started ((overlap 0 1).take 8)).2

/-- The rest of `Claim` leases the sample that was stored meanwhile. -/
theorem samples_survive_overlap :
    ∃ r r', putDone.world.samples.get (sampleKey "t" "r" "s") = some r ∧ r.state = .available ∧
      (schedule sampleCodec sampleStore putDone ((overlap 0 1).drop 8)).2.world.samples.get
        (sampleKey "t" "r" "s") = some r' ∧ r'.state = .leased ∧ r.Became r' := by
  have havailable : (putDone.world.samples.get (sampleKey "t" "r" "s")).map SampleRecord.state =
      some .available := by decide +kernel
  have hleased : ((schedule sampleCodec sampleStore putDone
      ((overlap 0 1).drop 8)).2.world.samples.get (sampleKey "t" "r" "s")).map SampleRecord.state =
      some .leased := by decide +kernel
  have hkeeps : ((schedule sampleCodec sampleStore putDone ((overlap 0 1).drop 8)).1.all
      fun e => !deletesExpired e) = true := by decide +kernel
  obtain ⟨r, hrow, hstate⟩ := Option.map_eq_some_iff.mp havailable
  obtain ⟨r', hrow', hstate'⟩ := Option.map_eq_some_iff.mp hleased
  refine ⟨r, r', hrow, hstate, hrow', hstate', ?_⟩
  rcases samples_survive sampleCodec sampleStore (by decide)
    (run_schedule _ _ started ((overlap 0 1).take 8))
    (run_schedule _ _ putDone ((overlap 0 1).drop 8)) hrow
    with ⟨r1, hrow1, hbecame⟩ | ⟨_, _, _, hmem⟩
  · cases hrow1.symm.trans hrow'
    exact hbecame
  · cases List.all_eq_true.mp hkeeps _ hmem

end DataPlane
end Skyscale
