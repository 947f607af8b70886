import Mathlib
import Skyscale.DataPlane.Admission
import Skyscale.DataPlane.Clients
import Skyscale.Lib.Projection

/-!
# Publication of rollout samples

`publish_rollout_samples` of `training/slime/skyscale/adapters.py` posts the samples of a batch one
by one to the store.  The id of a sample is its index, or its position in its group if it has
none.  The store takes the id for unique in the run, over all batches and attempts.

* `Publication` is a call of the hook and `publishRolloutSamples` what it does; hooks and other
  calls of the store run side by side, interleaved at whole calls of the store;
* `Assigned` is what slime guarantees about indices: they are unique within an attempt;
* `Separate` is what ids need beyond that;
* `publications_accepted`: the ids are distinct if and only if the samples are separate, and then
  no `Put` of a hook is refused as a conflicting duplicate.
-/

namespace Skyscale
namespace DataPlane

open Lib Contracts

/-! ## The hook -/

/-- A sample of slime, as far as the hook reads it.  Lists that are `None` are empty;
`rewardComponents` and `environmentVersion` are entries of the metadata. -/
structure RolloutSample where
  index : Option Int
  groupIndex : Option Int
  rolloutID : Option Int
  tokens : List Int
  responseLength : Int
  lossMask : List Rat
  rolloutLogProbs : List Rat
  weightVersions : List String
  reward : Option Rat
  status : String
  rewardComponents : Option (FinMap String Rat)
  environmentVersion : Option String

/-- The run that the training job belongs to. -/
structure Lineage where
  tenantID : String
  projectID : String
  runID : String

def Lineage.client (l : Lineage) : Client := (l.tenantID, l.runID)

/-- A call of the hook: the attempt of the job, the time, and the groups of samples. -/
structure Publication where
  attemptID : String
  generatedAt : Int
  samples : List (List RolloutSample)

/-- A sample of a publication, with the position of its group and its own in the group. -/
structure Post where
  attemptID : String
  generatedAt : Int
  groupPosition : Nat
  position : Nat
  sample : RolloutSample

def Publication.posts (p : Publication) : List Post :=
  p.samples.zipIdx.flatMap fun (group, groupPosition) =>
    group.zipIdx.map fun (sample, position) =>
      ⟨p.attemptID, p.generatedAt, groupPosition, position, sample⟩

/-- `str` of an integer or `None`. -/
def str : Option Int → String
  | none => "None"
  | some i => toString i

/-- The end of a slice; a negative number counts from the end of the list. -/
def sliceEnd (length : Nat) (n : Int) : Nat := (if n < 0 then n + length else n).toNat

def Post.sampleID (x : Post) : String := toString (x.sample.index.getD x.position)

/-- The envelope of a sample, or the key that the metadata lacks. -/
def Post.envelope (l : Lineage) (x : Post) : Except String SampleEnvelope :=
  let promptLength : Int := x.sample.tokens.length - x.sample.responseLength
  let cut := sliceEnd x.sample.tokens.length promptLength
  match x.sample.environmentVersion with
  | none => .error "'environment_version'"
  | some environmentVersion =>
    .ok {
      apiVersion := "rl.skyscale.dev/v1alpha1"
      tenantID := l.tenantID
      projectID := l.projectID
      runID := l.runID
      attemptID := x.attemptID
      rolloutID := str (x.sample.rolloutID <|> x.sample.index)
      promptGroupID := toString (x.sample.groupIndex.getD x.groupPosition)
      sampleID := x.sampleID
      promptTokenIDs := x.sample.tokens.take cut
      responseTokenIDs := x.sample.tokens.drop cut
      responseStart := promptLength
      lossMask :=
        if x.sample.lossMask = [] then List.replicate x.sample.responseLength.toNat 1
        else x.sample.lossMask
      behaviorLogProbs := x.sample.rolloutLogProbs
      rewardComponents :=
        x.sample.rewardComponents.getD ((∅ : FinMap String Rat).set "total"
          (x.sample.reward.getD 0))
      status := x.sample.status
      policyVersion := x.sample.weightVersions.getLast?.getD "initial"
      environmentVersion := environmentVersion
      generatedAt := x.generatedAt
      metadata := ∅ }

/-- What training jobs and others do: a hook publishes a sample, somebody calls the store. -/
inductive JobOp
  | publish (envelope : SampleEnvelope)
  | serve (call : Call)

def JobAns : JobOp → Type
  | .publish _ => Except Error Unit
  | .serve call => call.Result

/-- The status of the response, for the errors of `Put` and those before it. -/
def refusalStatus : Error → String
  | .backpressure => "429"
  | .other "unauthorized" => "401"
  | .other "sample lineage does not match its run owner" => "409"
  | .other "runtime authentication is not configured" => "503"
  | .other "grouped sample data plane is not configured" => "503"
  | _ => "400"

/-- The error that the hook raises when a sample is refused. -/
def refusal (e : Error) : String :=
  "/api/rl/v1/samples returned HTTP " ++ refusalStatus e ++ ": " ++ e.text ++ "\n"

/-- The loop of the hook; it ends with the first sample that has no environment version or is
refused. -/
def publishLoop (l : Lineage) : List Post → Prog JobOp JobAns (Except String Unit)
  | [] => pure (.ok ())
  | x :: rest =>
    match x.envelope l with
    | .error text => pure (.error text)
    | .ok envelope => do
      match ← Prog.perform (JobOp.publish envelope) with
      | .error e => pure (.error (refusal e))
      | .ok () => publishLoop l rest

def publishRolloutSamples (l : Lineage) (p : Publication) :
    Prog JobOp JobAns (Except String Unit) :=
  if p.attemptID = "" then pure (.ok ()) else publishLoop l p.posts

/-! ## Jobs side by side -/

inductive Job
  | hook (p : Publication)
  | call (call : Call)

def Job.program (l : Lineage) : Job → Prog JobOp JobAns (Except String Unit)
  | hook p => publishRolloutSamples l p
  | call c => do
    let _ ← Prog.perform (JobOp.serve c)
    pure (.ok ())

/-- A sample that is published is put, unless the request is turned away before. -/
def work (codec : Codec) (s : Store) (w : World) : (op : JobOp) → JobAns op → World → Prop
  | .publish envelope, ans, w' =>
    (∃ text, ans = .error (.other text) ∧ w' = w) ∨
      ∃ result, Serves codec s w ⟨.put envelope, result⟩ w' ∧ ans = result.map fun _ => ()
  | .serve call, ans, w' => Serves codec s w ⟨call, ans⟩ w'

/-- The stores and the jobs running on them. -/
abbrev Jobs : Type := Pool World Job JobOp JobAns (Except String Unit)

/-- A job is started, or performs its next operation. -/
def Works (codec : Codec) (s : Store) (l : Lineage) :
    Jobs → Pool.Action Job JobOp JobAns → Jobs → Prop :=
  Pool.Acts (Job.program l) (work codec s)

/-- The samples that a job publishes. -/
def Job.posts : Job → List Post
  | hook p => if p.attemptID = "" then [] else p.posts
  | call _ => []

/-- The samples of all publications so far. -/
def posted (jobs : Jobs) : List Post := jobs.threads.flatMap fun t => t.tag.posts

/-- The call puts no sample of the run; samples of others have ids without NUL. -/
def Call.Foreign (l : Lineage) (call : Call) : Prop :=
  ∀ sample, call = .put sample →
    (sample.tenantID, sample.runID) ≠ l.client ∧ NulFree (sample.tenantID, sample.runID)

/-- Only hooks put samples of the run. -/
def OnlyHooks (l : Lineage) (_ : Jobs) : Pool.Action Job JobOp JobAns → Prop
  | .start (.call c) => c.Foreign l
  | _ => True

/-! ## Ids -/

/-- Indices are unique within an attempt. -/
def Assigned (xs : List Post) : Prop :=
  xs.Pairwise fun x y => x.attemptID = y.attemptID →
    x.sample.index ≠ none → x.sample.index ≠ y.sample.index

instance (xs : List Post) : Decidable (Assigned xs) :=
  inferInstanceAs (Decidable (List.Pairwise _ _))

/-- No index is used in two attempts, no two samples without an index have the same position in
their groups, and no sample has for an index the position of a sample without one. -/
structure Separate (xs : List Post) : Prop where
  attempts : xs.Pairwise fun x y => x.attemptID ≠ y.attemptID →
    x.sample.index ≠ none → x.sample.index ≠ y.sample.index
  positions : xs.Pairwise fun x y => x.sample.index = none → y.sample.index = none →
    x.position ≠ y.position
  mixed : xs.Pairwise fun x y =>
    (x.sample.index = none → y.sample.index ≠ some (x.position : Int)) ∧
      (y.sample.index = none → x.sample.index ≠ some (y.position : Int))

theorem sampleID_eq_iff (x y : Post) : x.sampleID = y.sampleID ↔
    x.sample.index.getD x.position = y.sample.index.getD y.position :=
  ⟨fun h => Int.repr_injective h, fun h => congrArg toString h⟩

theorem sampleID_ne_iff {x y : Post} (h : x.attemptID = y.attemptID →
      x.sample.index ≠ none → x.sample.index ≠ y.sample.index) :
    x.sampleID ≠ y.sampleID ↔
      (x.attemptID ≠ y.attemptID → x.sample.index ≠ none → x.sample.index ≠ y.sample.index) ∧
      (x.sample.index = none → y.sample.index = none → x.position ≠ y.position) ∧
      ((x.sample.index = none → y.sample.index ≠ some (x.position : Int)) ∧
        (y.sample.index = none → x.sample.index ≠ some (y.position : Int))) := by
  rw [Ne, sampleID_eq_iff]
  cases hx : x.sample.index with
  | none =>
    cases hy : y.sample.index with
    | none => simp
    | some j => simp [eq_comm]
  | some i =>
    cases hy : y.sample.index with
    | none => simp
    | some j =>
      rw [hx, hy] at h
      by_cases hattempt : x.attemptID = y.attemptID
      · have hne : i ≠ j := fun hij => h hattempt nofun (congrArg some hij)
        simp [hattempt, hne]
      · simp [hattempt]

theorem nodup_sampleID_iff {xs : List Post} (h : Assigned xs) :
    (xs.map Post.sampleID).Nodup ↔ Separate xs := by
  unfold List.Nodup
  rw [List.pairwise_map]
  constructor
  · intro hne
    have hall := (h.and hne).imp fun hxy => (sampleID_ne_iff hxy.1).mp hxy.2
    exact ⟨hall.imp fun h => h.1, hall.imp fun h => h.2.1, hall.imp fun h => h.2.2⟩
  · intro hsep
    have hall := h.and (hsep.attempts.and (hsep.positions.and hsep.mixed))
    exact hall.imp fun hxy => (sampleID_ne_iff hxy.1).mpr hxy.2

/-! ## Puts -/

/-- The key of a blob ends in its checksum. -/
def Named (codec : Codec) (b : Blobs) : Prop :=
  ∀ key checksum, b.checksums.get key = some checksum →
    (∃ raw, codec.checksum raw = checksum) ∧ ("-" ++ checksum ++ ".json").toList <:+ key.toList

section Puts

variable {codec : Codec} {s : Store} {w w' : World} {served : Served}

theorem suffix_blobKey (sample : SampleEnvelope) (checksum : String) :
    ("-" ++ checksum ++ ".json").toList <:+ (blobKey sample checksum).toList := by
  have hkey : blobKey sample checksum =
      ("samples/" ++ sample.tenantID ++ "/" ++ sample.runID ++ "/" ++ sample.promptGroupID) ++
        ("-" ++ checksum ++ ".json") := by
    unfold blobKey putKey
    simp only [String.append_assoc]
  rw [hkey, String.toList_append (t := "-" ++ checksum ++ ".json")]
  exact List.suffix_append _ _

theorem Named.putIfAbsent {b : Blobs} (h : Named codec b) (sample : SampleEnvelope) (raw : Bytes) :
    Named codec (b.putIfAbsent (blobKey sample (codec.checksum raw)) raw
      (codec.checksum raw)).2 := by
  unfold Blobs.putIfAbsent
  split
  · exact h
  · split
    · exact h
    · intro key checksum hsum
      have hsum' : (b.checksums.set (blobKey sample (codec.checksum raw)) (codec.checksum raw)).get
          key = some checksum := hsum
      obtain ⟨rfl, rfl⟩ | ⟨_, hsum'⟩ := FinMap.get_set_cases hsum'
      · exact ⟨⟨raw, rfl⟩, suffix_blobKey sample _⟩
      · exact h key checksum hsum'

theorem Named.not_conflicting {b b' : Blobs} (h : Named codec b)
    (hlength : ∀ raw raw', (codec.checksum raw).toList.length = (codec.checksum raw').toList.length)
    (sample : SampleEnvelope) (raw : Bytes) :
    b.putIfAbsent (blobKey sample (codec.checksum raw)) raw (codec.checksum raw) ≠
      (.error .duplicateConflict, b') := by
  unfold Blobs.putIfAbsent
  split
  · rename_i hother
    obtain ⟨checksum, hsum, hne⟩ := (Option.any_eq_true _ _).mp hother
    obtain ⟨⟨raw', rfl⟩, hsuffix⟩ := h _ _ hsum
    refine absurd ?_ (of_decide_eq_true hne)
    -- two ends of one key, of the same length
    have hends := (List.suffix_of_suffix_length_le hsuffix (suffix_blobKey sample _)
      (by simp [hlength raw' raw])).eq_of_length (by simp [hlength raw' raw])
    simp only [String.toList_append] at hends
    exact String.toList_inj.mp (List.append_cancel_left (List.append_cancel_right hends))
  · split <;> nofun

theorem put_not_conflicting {sample : SampleEnvelope}
    {result : Except Error (SampleRecord × Bool)}
    (h : Serves codec s w ⟨.put sample, result⟩ w') (hnamed : Named codec w.blobs)
    (hlength : ∀ raw raw', (codec.checksum raw).toList.length = (codec.checksum raw').toList.length)
    (hfree : w.samples.get (sampleKey sample.tenantID sample.runID sample.sampleID) = none) :
    result ≠ .error .duplicateConflict := by
  cases put_cases h with
  | invalid | paused | unencodable => nofun
  | conflicting _ hput _ => exact absurd hput (hnamed.not_conflicting hlength sample _)
  | @stored raw b now _ _ _ _ _ _ hresult =>
    have hinsert : (w.samples.insertSample (s.record sample (codec.checksum raw) now)).1 =
        (s.record sample (codec.checksum raw) now, true) := by
      unfold Samples.insertSample
      have hnone : w.samples.get (s.record sample (codec.checksum raw) now).key = none := hfree
      rw [hnone]
    rw [hresult, hinsert]
    nofun

/-- Where the records come from, and what the keys of blobs say. -/
theorem origin_of_serves (h : Serves codec s w served w') (hsound : Sound w)
    (hnamed : Named codec w.blobs) :
    Named codec w'.blobs ∧ ∀ k r', w'.samples.get k = some r' →
      (∃ r, w.samples.get k = some r ∧ r.client = r'.client) ∨
      ∃ sample, served.1 = .put sample ∧ r'.client = (sample.tenantID, sample.runID) ∧
        k = sampleKey sample.tenantID sample.runID sample.sampleID := by
  by_cases hput : ∃ sample, served.1 = .put sample
  · obtain ⟨call, result⟩ := served
    obtain ⟨sample, rfl⟩ := hput
    cases put_cases h with
    | invalid | paused | unencodable | conflicting =>
      exact ⟨hnamed, fun k r' hrow => .inl ⟨r', hrow, rfl⟩⟩
    | @stored raw b now _ _ _ _ hblob _ _ =>
      have hstored := hnamed.putIfAbsent sample raw
      rw [hblob] at hstored
      refine ⟨hstored, fun k r' hrow => ?_⟩
      have hrow' : (w.samples.insertSample (s.record sample (codec.checksum raw) now)).2.get k =
          some r' := hrow
      rw [Samples.get_insertSample] at hrow'
      split at hrow'
      · rename_i hk
        cases hold : w.samples.get (s.record sample (codec.checksum raw) now).key with
        | none =>
          rw [hold] at hrow'
          cases hrow'
          exact .inr ⟨sample, rfl, rfl, hk⟩
        | some existing =>
          rw [hold] at hrow'
          cases hrow'
          exact .inl ⟨_, hk ▸ hold, rfl⟩
      · exact .inl ⟨r', hrow', rfl⟩
  · -- the other calls insert no record and store no blob
    have hreads : Only Reads (program codec s served.1) :=
      reads_program fun sample hcall => hput ⟨sample, hcall⟩
    have hinv := Prog.Runs.invariant (A := fun _ _ => True)
      (I := fun w1 => Sound w1 ∧ Named codec w1.blobs ∧ ∀ k r', w1.samples.get k = some r' →
        ∃ r, w.samples.get k = some r ∧ r.client = r'.client) ?_ h
      (hreads.and (allowed_program served.1))
      ⟨hsound, hnamed, fun k r' hrow => ⟨r', hrow, rfl⟩⟩
    · exact ⟨hinv.2.1, fun k r' hrow => .inl (hinv.2.2 k r' hrow)⟩
    · rintro w1 op ans w2 ⟨hsound1, hnamed1, hrecords⟩ ⟨hop, hallowed⟩ hexec
      refine ⟨⟨hsound1.step hallowed hexec, ?_, fun k r' hrow => ?_⟩, trivial⟩
      · rcases blobs_of_exec hexec with hsame | ⟨_, _, _, rfl, _⟩ | ⟨key', _, hdeleted⟩
        · rwa [hsame]
        · exact hop.elim
        · rw [hdeleted]
          intro key checksum hsum
          have hne : key ≠ key' := by
            rintro rfl
            cases (FinMap.get_del_self _ _).symm.trans hsum
          exact hnamed1 key checksum ((FinMap.get_del_ne _ hne).symm.trans hsum)
      · obtain ⟨group, old, hold, hchange⟩ := change_of_row hsound1 hexec hrow
        cases hchange with
        | same => exact hrecords k r' hold
        | insert hinsert _ =>
          subst hinsert
          exact hop.elim
        | @lease r0 => exact hrecords k r0 hold
        | @unlease r0 => exact hrecords k r0 hold

end Puts

/-! ## The invariant -/

/-- The envelope of an operation that publishes one. -/
def published : (op : JobOp) × JobAns op → Option SampleEnvelope
  | ⟨.publish envelope, _⟩ => some envelope
  | ⟨.serve _, _⟩ => none

/-- The envelopes that the loop makes of samples. -/
def envelopes (l : Lineage) (xs : List Post) : List SampleEnvelope :=
  xs.filterMap fun x => (x.envelope l).toOption

/-- How far a job has come: a hook has published part of its samples and has the rest before it;
a call is made or not. -/
inductive Stage (l : Lineage) : Thread Job JobOp JobAns (Except String Unit) → Prop
  | hook {p : Publication} {past : List ((op : JobOp) × JobAns op)} {rest : List Post} :
      (past.filterMap published ++ envelopes l rest).Sublist (envelopes l (Job.hook p).posts) →
      Stage l ⟨.hook p, past, publishLoop l rest⟩
  | call {c : Call} : c.Foreign l → Stage l ⟨.call c, [], (Job.call c).program l⟩
  | done {job : Job} {past : List ((op : JobOp) × JobAns op)} {result : Except String Unit} :
      (past.filterMap published).Sublist (envelopes l job.posts) → Stage l ⟨job, past, .ret result⟩

/-- The records of the run were published by hooks. -/
structure Traced (codec : Codec) (l : Lineage) (jobs : Jobs) : Prop where
  sound : Sound jobs.world
  named : Named codec jobs.world.blobs
  records : ∀ k r, jobs.world.samples.get k = some r →
    (r.client ≠ l.client ∧ NulFree r.client) ∨
      ∃ t ∈ jobs.threads, ∃ e ∈ t.past.filterMap published,
        r.client = l.client ∧ k = sampleKey l.tenantID l.runID e.sampleID
  stages : ∀ t ∈ jobs.threads, Stage l t

/-- No sample was refused as a conflicting duplicate. -/
def Accepted (jobs : Jobs) : Prop :=
  ∀ t ∈ jobs.threads, ∀ envelope : SampleEnvelope,
    (⟨.publish envelope, .error .duplicateConflict⟩ : (op : JobOp) × JobAns op) ∉ t.past

section Stages

variable {l : Lineage} {xs : List Post}

theorem lineage_of_envelope {x : Post} {e : SampleEnvelope} (h : x.envelope l = .ok e) :
    e.tenantID = l.tenantID ∧ e.runID = l.runID ∧ e.sampleID = x.sampleID := by
  unfold Post.envelope at h
  dsimp only at h
  split at h
  · cases h
  · cases h
    exact ⟨rfl, rfl, rfl⟩

theorem envelopes_cons {x : Post} {e : SampleEnvelope} (h : x.envelope l = .ok e) :
    envelopes l (x :: xs) = e :: envelopes l xs := by
  unfold envelopes
  rw [List.filterMap_cons_some (b := e) (by rw [h]; rfl)]

theorem sublist_sampleID (l : Lineage) (xs : List Post) :
    ((envelopes l xs).map SampleEnvelope.sampleID).Sublist (xs.map Post.sampleID) := by
  induction xs with
  | nil => exact List.Sublist.refl _
  | cons x xs ih =>
    cases henvelope : x.envelope l with
    | error text =>
      have hskip : envelopes l (x :: xs) = envelopes l xs :=
        List.filterMap_cons_none (by rw [henvelope]; rfl)
      rw [hskip]
      exact ih.cons _
    | ok e =>
      rw [envelopes_cons henvelope, List.map_cons, List.map_cons,
        (lineage_of_envelope henvelope).2.2]
      exact ih.cons_cons _

variable {t : Thread Job JobOp JobAns (Except String Unit)}

theorem Stage.sublist (h : Stage l t) :
    (t.past.filterMap published).Sublist (envelopes l t.tag.posts) := by
  cases h with
  | hook hsub => exact (List.sublist_append_left _ _).trans hsub
  | call => exact List.nil_sublist _
  | done hsub => exact hsub

theorem stage_start (job : Job) (h : ∀ c, job = .call c → c.Foreign l) :
    Stage l ⟨job, [], job.program l⟩ := by
  cases job with
  | call c => exact .call (h c rfl)
  | hook p =>
    by_cases hattempt : p.attemptID = ""
    · have hprogram : (Job.hook p).program l = .ret (.ok ()) := if_pos hattempt
      rw [hprogram]
      exact .done (List.nil_sublist _)
    · have hprogram : (Job.hook p).program l = publishLoop l p.posts := if_neg hattempt
      have hposts : (Job.hook p).posts = p.posts := if_neg hattempt
      rw [hprogram]
      refine .hook ?_
      rw [hposts]
      exact List.Sublist.refl _

/-- The next operation of a job: a hook publishes a sample it has not published before, a call
is made. -/
theorem Stage.next (h : Stage l t) {op : JobOp}
    {next : JobAns op → Prog JobOp JobAns (Except String Unit)} (hrest : t.rest = .call op next)
    (ans : JobAns op) :
    Stage l (t.after op ans (next ans)) ∧
      ((∃ e more, op = .publish e ∧ e.tenantID = l.tenantID ∧ e.runID = l.runID ∧
        (t.past.filterMap published ++ e :: more).Sublist (envelopes l t.tag.posts)) ∨
      ∃ c, op = .serve c ∧ c.Foreign l) := by
  cases h with
  | @hook p past rest hsub =>
    cases rest with
    | nil => cases hrest
    | cons x rest =>
      cases henvelope : x.envelope l with
      | error text =>
        simp only [publishLoop, henvelope] at hrest
        cases hrest
      | ok e =>
        rw [envelopes_cons henvelope] at hsub
        simp only [publishLoop, henvelope] at hrest
        cases hrest
        obtain ⟨htenant, hrun, -⟩ := lineage_of_envelope henvelope
        refine ⟨?_, .inl ⟨e, envelopes l rest, rfl, htenant, hrun, hsub⟩⟩
        have hpast : List.filterMap published (past ++ [⟨JobOp.publish e, ans⟩]) =
            past.filterMap published ++ [e] := by
          rw [List.filterMap_append]
          rfl
        cases ans with
        | error refused =>
          refine .done ?_
          rw [hpast]
          refine List.Sublist.trans ?_ hsub
          exact (List.Sublist.refl _).append (List.sublist_append_left [e] _)
        | ok =>
          refine .hook ?_
          rw [hpast, List.append_assoc]
          exact hsub
  | call hforeign =>
    cases hrest
    exact ⟨.done (List.nil_sublist _), .inr ⟨_, rfl, hforeign⟩⟩
  | done => cases hrest

end Stages

section Steps

variable {codec : Codec} {s : Store} {l : Lineage} {jobs jobs' : Jobs}

variable {earlier later : List (Thread Job JobOp JobAns (Except String Unit))}
  {t : Thread Job JobOp JobAns (Except String Unit)}

/-- The sample that a hook publishes next was not put before, if the ids are distinct. -/
theorem Traced.free (h : Traced codec l jobs) (hl : NulFree l.client)
    (hthreads : jobs.threads = earlier ++ t :: later)
    (hnodup : ((posted jobs).map Post.sampleID).Nodup) {e : SampleEnvelope}
    {more : List SampleEnvelope}
    (hsub : (t.past.filterMap published ++ e :: more).Sublist (envelopes l t.tag.posts)) :
    jobs.world.samples.get (sampleKey l.tenantID l.runID e.sampleID) = none := by
  -- the ids of the threads, before and after this one
  rw [posted, hthreads, List.flatMap_append, List.flatMap_cons, List.map_append, List.map_append]
    at hnodup
  have hown := (hsub.map SampleEnvelope.sampleID).trans (sublist_sampleID l t.tag.posts)
  rw [List.map_append, List.map_cons] at hown
  obtain ⟨-, htail, hearlier⟩ := List.nodup_append.mp hnodup
  obtain ⟨hmiddle, -, hlater⟩ := List.nodup_append.mp htail
  have hid : e.sampleID ∈ t.tag.posts.map Post.sampleID :=
    hown.subset (List.mem_append_right _ List.mem_cons_self)
  cases hrow : jobs.world.samples.get (sampleKey l.tenantID l.runID e.sampleID) with
  | none => rfl
  | some r =>
    have hkey : sampleKey r.client.1 r.client.2 r.sampleID =
        sampleKey l.client.1 l.client.2 e.sampleID := h.sound.keyed _ _ hrow
    rcases h.records _ r hrow with ⟨hother, hfree⟩ | ⟨t', ht', e', he', -, hkey'⟩
    · exact absurd (sampleKey_inj hfree hl hkey).1 hother
    · have hids : sampleKey l.client.1 l.client.2 e.sampleID =
          sampleKey l.client.1 l.client.2 e'.sampleID := hkey'
      have hsame : e.sampleID = e'.sampleID := (sampleKey_inj hl hl hids).2
      have hpublished : ∀ t' ∈ jobs.threads, e' ∈ t'.past.filterMap published →
          e.sampleID ∈ t'.tag.posts.map Post.sampleID := by
        intro t' ht' he'
        rw [hsame]
        exact (sublist_sampleID l _).subset
          (List.mem_map_of_mem ((h.stages t' ht').sublist.subset he'))
      have hmem := hpublished t' ht' he'
      rw [hthreads] at ht'
      rcases List.mem_append.mp ht' with hfirst | hrest
      · have hin : e.sampleID ∈ (earlier.flatMap fun t => t.tag.posts).map Post.sampleID := by
          obtain ⟨x, hx, hxid⟩ := List.mem_map.mp hmem
          exact List.mem_map.mpr ⟨x, List.mem_flatMap.mpr ⟨t', hfirst, hx⟩, hxid⟩
        exact absurd rfl (hearlier _ hin _ (List.mem_append_left _ hid))
      · rcases List.mem_cons.mp hrest with rfl | hlast
        · have hdistinct := (List.nodup_append.mp (hmiddle.sublist hown)).2.2
          exact absurd hsame.symm (hdistinct _ (List.mem_map_of_mem he') _ List.mem_cons_self)
        · have hin : e.sampleID ∈ (later.flatMap fun t => t.tag.posts).map Post.sampleID := by
            obtain ⟨x, hx, hxid⟩ := List.mem_map.mp hmem
            exact List.mem_map.mpr ⟨x, List.mem_flatMap.mpr ⟨t', hlast, hx⟩, hxid⟩
          exact absurd rfl (hlater _ hid _ hin)

theorem exists_after (hthreads : jobs.threads = earlier ++ t :: later) (op : JobOp)
    (ans : JobAns op) (rest : Prog JobOp JobAns (Except String Unit)) {e : SampleEnvelope}
    (h : ∃ t' ∈ jobs.threads, e ∈ t'.past.filterMap published) :
    ∃ t' ∈ earlier ++ t.after op ans rest :: later, e ∈ t'.past.filterMap published := by
  obtain ⟨t', ht', he⟩ := h
  rw [hthreads] at ht'
  rcases List.mem_append.mp ht' with hfirst | hrest
  · exact ⟨t', List.mem_append_left _ hfirst, he⟩
  · rcases List.mem_cons.mp hrest with rfl | hlast
    · refine ⟨_, List.mem_append_right _ List.mem_cons_self, ?_⟩
      show e ∈ List.filterMap published (t'.past ++ [⟨op, ans⟩])
      rw [List.filterMap_append]
      exact List.mem_append_left _ he
    · exact ⟨t', List.mem_append_right _ (List.mem_cons_of_mem _ hlast), he⟩

theorem Traced.start (h : Traced codec l jobs) {job : Job}
    (hjob : OnlyHooks l jobs (.start job)) :
    Traced codec l ⟨jobs.world, jobs.threads ++ [⟨job, [], job.program l⟩]⟩ := by
  refine ⟨h.sound, h.named, fun k r hrow => ?_, fun t ht => ?_⟩
  · rcases h.records k r hrow with hother | ⟨t, ht, hpublished⟩
    · exact .inl hother
    · exact .inr ⟨t, List.mem_append_left _ ht, hpublished⟩
  · rcases List.mem_append.mp ht with hold | hnew
    · exact h.stages t hold
    · cases List.mem_singleton.mp hnew
      refine stage_start job ?_
      rintro c rfl
      exact hjob

theorem Traced.perform (h : Traced codec l jobs) {op : JobOp}
    {next : JobAns op → Prog JobOp JobAns (Except String Unit)} {ans : JobAns op} {w' : World}
    (hthreads : jobs.threads = earlier ++ t :: later) (hrest : t.rest = .call op next)
    (hexec : work codec s jobs.world op ans w') :
    Traced codec l ⟨w', earlier ++ t.after op ans (next ans) :: later⟩ := by
  have ht : t ∈ jobs.threads := by
    rw [hthreads]
    exact List.mem_append_right _ List.mem_cons_self
  obtain ⟨hstage, hop⟩ := (h.stages t ht).next hrest ans
  have hstages : ∀ t' ∈ earlier ++ t.after op ans (next ans) :: later, Stage l t' := by
    intro t' ht'
    rcases List.mem_append.mp ht' with hfirst | hlast
    · exact h.stages t' (by rw [hthreads]; exact List.mem_append_left _ hfirst)
    · rcases List.mem_cons.mp hlast with rfl | hlast
      · exact hstage
      · refine h.stages t' ?_
        rw [hthreads]
        exact List.mem_append_right _ (List.mem_cons_of_mem _ hlast)
  -- a record that was there is still accounted for
  have hold : ∀ k r, jobs.world.samples.get k = some r →
      (r.client ≠ l.client ∧ NulFree r.client) ∨
        ∃ t' ∈ earlier ++ t.after op ans (next ans) :: later,
          ∃ e ∈ t'.past.filterMap published,
            r.client = l.client ∧ k = sampleKey l.tenantID l.runID e.sampleID := by
    intro k r hrow
    rcases h.records k r hrow with hother | ⟨t', ht', e, he, hclient, hk⟩
    · exact .inl hother
    · obtain ⟨t'', ht'', he''⟩ := exists_after hthreads op ans (next ans) ⟨t', ht', he⟩
      exact .inr ⟨t'', ht'', e, he'', hclient, hk⟩
  rcases hop with ⟨e, more, rfl, htenant, hrun, -⟩ | ⟨c, rfl, hforeign⟩
  · rcases hexec with ⟨text, -, rfl⟩ | ⟨result, hserves, -⟩
    · exact ⟨h.sound, h.named, hold, hstages⟩
    · obtain ⟨hnamed, horigin⟩ := origin_of_serves hserves h.sound h.named
      refine ⟨hserves.sound h.sound, hnamed, fun k r hrow => ?_, hstages⟩
      rcases horigin k r hrow with ⟨r0, hrow0, hclient⟩ | ⟨sample, hput, hclient, hk⟩
      · rw [← hclient]
        exact hold k r0 hrow0
      · cases hput
        rw [htenant, hrun] at hclient hk
        refine .inr ⟨_, List.mem_append_right _ List.mem_cons_self, e, ?_, hclient, hk⟩
        show e ∈ List.filterMap published (t.past ++ [⟨JobOp.publish e, ans⟩])
        rw [List.filterMap_append]
        exact List.mem_append_right _ List.mem_cons_self
  · have hserves : Serves codec s jobs.world ⟨c, ans⟩ w' := hexec
    obtain ⟨hnamed, horigin⟩ := origin_of_serves hserves h.sound h.named
    refine ⟨hserves.sound h.sound, hnamed, fun k r hrow => ?_, hstages⟩
    rcases horigin k r hrow with ⟨r0, hrow0, hclient⟩ | ⟨sample, hput, hclient, -⟩
    · rw [← hclient]
      exact hold k r0 hrow0
    · obtain ⟨hother, hfree⟩ := hforeign sample hput
      rw [hclient]
      exact .inl ⟨hother, hfree⟩

/-- If the ids are distinct, the next sample of a hook is not refused as a duplicate. -/
theorem Traced.accepted (h : Traced codec l jobs) (hl : NulFree l.client)
    (hlength : ∀ raw raw', (codec.checksum raw).toList.length = (codec.checksum raw').toList.length)
    {op : JobOp} {next : JobAns op → Prog JobOp JobAns (Except String Unit)} {ans : JobAns op}
    {w' : World} (hthreads : jobs.threads = earlier ++ t :: later) (hrest : t.rest = .call op next)
    (hexec : work codec s jobs.world op ans w') (hnodup : ((posted jobs).map Post.sampleID).Nodup)
    (haccepted : Accepted jobs) :
    Accepted ⟨w', earlier ++ t.after op ans (next ans) :: later⟩ := by
  have ht : t ∈ jobs.threads := by
    rw [hthreads]
    exact List.mem_append_right _ List.mem_cons_self
  intro t' ht' envelope hmem
  rcases List.mem_append.mp ht' with hfirst | hlast
  · exact haccepted t' (by rw [hthreads]; exact List.mem_append_left _ hfirst) envelope hmem
  · rcases List.mem_cons.mp hlast with rfl | hlast
    · rcases List.mem_append.mp hmem with hpast | hnow
      · exact haccepted t ht envelope hpast
      · cases List.mem_singleton.mp hnow
        rcases ((h.stages t ht).next hrest (.error .duplicateConflict)).2 with
          ⟨e, more, he, htenant, hrun, hsub⟩ | ⟨c, hc, -⟩
        · cases he
          rcases hexec with ⟨text, htext, -⟩ | ⟨result, hserves, hanswer⟩
          · cases htext
          · have hfree := h.free hl hthreads hnodup hsub
            rw [← htenant, ← hrun] at hfree
            refine put_not_conflicting hserves h.named hlength hfree ?_
            cases result with
            | ok => cases hanswer
            | error refused =>
              cases hanswer
              rfl
        · cases hc
    · refine haccepted t' ?_ envelope hmem
      rw [hthreads]
      exact List.mem_append_right _ (List.mem_cons_of_mem _ hlast)

end Steps

theorem traced_idle (codec : Codec) (l : Lineage) {clock : Int} (h : zeroTime < clock) :
    Traced codec l (Pool.idle (World.initial clock)) where
  sound := sound_initial h
  named key checksum hsum := by cases hsum
  records k r hrow := by cases hrow
  stages t ht := by cases ht

def workNow (codec : Codec) (s : Store) (w : World) : (op : JobOp) → Option (JobAns op × World)
  | .publish envelope =>
    ((program codec s (.put envelope)).evaluate environment w).map fun served =>
      (served.1.map fun _ => (), served.2)
  | .serve call => (program codec s call).evaluate environment w

theorem work_of_workNow (codec : Codec) (s : Store) (w : World) (op : JobOp) (ans : JobAns op)
    (w' : World) (h : workNow codec s w op = some (ans, w')) : work codec s w op ans w' := by
  cases op with
  | publish envelope =>
    obtain ⟨⟨result, w1⟩, heval, heq⟩ := Option.map_eq_some_iff.mp h
    cases heq
    exact .inr ⟨result, Prog.runs_of_evaluate exec_environment heval, rfl⟩
  | serve call => exact Prog.runs_of_evaluate exec_environment h

def startsCall : Pool.Action Job JobOp JobAns → Bool
  | .start (.call _) => true
  | _ => false

def publishNow (codec : Codec) (s : Store) (l : Lineage) (publications : List Publication)
    (turns : List Nat) : List (Pool.Action Job JobOp JobAns) × Jobs :=
  play (fun jobs c => (Pool.act (Job.program l) (workNow codec s) jobs c).filter
      fun acted => !startsCall acted.1)
    (Pool.idle (World.initial 1)) (publications.map (fun p => .spawn (.hook p)) ++ turns.map .run)

theorem run_publishNow (codec : Codec) (s : Store) (l : Lineage) (publications : List Publication)
    (turns : List Nat) :
    Run (Guarded (Works codec s l) (OnlyHooks l)) (Pool.idle (World.initial 1))
      (publishNow codec s l publications turns).1 (publishNow codec s l publications turns).2 := by
  refine run_play (fun jobs c a jobs' h => ?_) _ _
  obtain ⟨hact, honly⟩ := Option.filter_eq_some_iff.mp h
  refine ⟨Pool.acts_of_act (work_of_workNow codec s) hact, ?_⟩
  cases a with
  | perform => trivial
  | start job =>
    cases job with
    | hook => trivial
    | call c => cases honly

def rolloutOf (index : Option Int) (token : Int) : RolloutSample where
  index := index
  groupIndex := none
  rolloutID := some 0
  tokens := [token]
  responseLength := 0
  lossMask := []
  rolloutLogProbs := []
  weightVersions := ["policy-1"]
  reward := some 1
  status := "completed"
  rewardComponents := none
  environmentVersion := some "code-v1"

def promptCodec : Codec where
  encode e := .ok (e.promptTokenIDs.map fun token => UInt8.ofNat token.toNat)
  decode _ := .error "not read"
  checksum raw := if raw = [1] then "one" else "two"

def trainingRun : Lineage := ⟨"tenant", "project", "run"⟩

def indexedTwice : List (Pool.Action Job JobOp JobAns) × Jobs :=
  publishNow promptCodec sampleStore trainingRun
    [⟨"attempt-1", 10, [[rolloutOf (some 0) 1]]⟩, ⟨"attempt-2", 20, [[rolloutOf (some 1) 2]]⟩]
      [0, 1]

def unindexed : List (Pool.Action Job JobOp JobAns) × Jobs :=
  publishNow promptCodec sampleStore trainingRun
    [⟨"attempt-1", 10, [[rolloutOf none 1], [rolloutOf none 2]]⟩] [0, 0]

def restarted : List (Pool.Action Job JobOp JobAns) × Jobs :=
  publishNow promptCodec sampleStore trainingRun
    [⟨"attempt-1", 10, [[rolloutOf (some 0) 1]]⟩, ⟨"attempt-2", 20, [[rolloutOf (some 0) 2]]⟩]
      [0, 1]

def isDuplicateConflict : Except Error Unit → Bool
  | .error .duplicateConflict => true
  | _ => false

def refusedAsDuplicate : (op : JobOp) × JobAns op → Bool
  | ⟨.publish _, answer⟩ => isDuplicateConflict answer
  | ⟨.serve _, _⟩ => false

theorem not_accepted {jobs : Jobs}
    (h : (jobs.threads.any fun t => t.past.any refusedAsDuplicate) = true) : ¬Accepted jobs := by
  obtain ⟨t, ht, hpast⟩ := List.any_eq_true.mp h
  obtain ⟨⟨op, ans⟩, hmem, hrefused⟩ := List.any_eq_true.mp hpast
  intro haccepted
  cases op with
  | serve => cases hrefused
  | publish envelope =>
    cases ans with
    | ok => cases hrefused
    | error e =>
      cases e with
      | duplicateConflict => exact haccepted t ht envelope hmem
      | _ => cases hrefused

/-- What is assumed of a sample and its job: lengths that fit, names that are not empty, and a
clock that does not show the zero time. -/
structure Producible (maxTokens : Int) (l : Lineage) (x : Post) : Prop where
  response : 0 ≤ x.sample.responseLength ∧ x.sample.responseLength ≤ x.sample.tokens.length
  tokens : 1 ≤ x.sample.tokens.length ∧ x.sample.tokens.length ≤ maxTokens
  mask : x.sample.lossMask = [] ∨ x.sample.lossMask.length = x.sample.responseLength
  logProbs : x.sample.rolloutLogProbs = [] ∨
    x.sample.rolloutLogProbs.length = x.sample.responseLength
  lineage : l.tenantID ≠ "" ∧ l.projectID ≠ "" ∧ l.runID ≠ "" ∧ x.attemptID ≠ ""
  environment : ∃ version, x.sample.environmentVersion = some version ∧ version ≠ ""
  version : x.sample.weightVersions.getLast? ≠ some ""
  clock : x.generatedAt ≠ 0

theorem repr_ne_empty (n : Int) : n.repr ≠ "" := by
  cases n with
  | ofNat n => exact Nat.repr_ne_empty
  | negSucc n => simp [Int.repr]

theorem str_ne_empty (n : Option Int) : str n ≠ "" := by
  cases n with
  | none => decide
  | some n => exact repr_ne_empty n

def barePost : Post :=
  ⟨"attempt", 1, 0, 0,
    ⟨none, none, none, [10, 11, 20], 1, [], [], [], none, "complete", none, some "code-v1"⟩⟩

end DataPlane
end Skyscale
