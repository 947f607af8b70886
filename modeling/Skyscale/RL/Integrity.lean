import Mathlib.Data.Countable.Basic
import Mathlib.Data.String.Basic
import Mathlib.Data.Rat.Encodable
import Mathlib.Data.Setoid.Basic
import Mathlib.Logic.Equiv.List
import Mathlib.Tactic.DeriveCountable
import Skyscale.RL.Reconciler

/-!
# Integrity of run snapshots

A run keeps the specification it was created with as a JSON document and, beside it,
the hash of the normalized specification.  Every pass of the reconciler decodes the
document, takes its snapshot again and compares the hashes.  This module shows what
that comparison decides.

The maps of a specification have no order in the source, while `FinMap` keeps its
entries in one; two specifications are the same value of the source when their
`content` is the same.
-/

namespace Skyscale
namespace Contracts

open Lib

/-! ## The value of a specification -/

/-- A specification up to the order of its maps: the specification without them, and
what each of them holds. -/
structure SpecContent where
  rest : RLRunSpec
  labels : String → Option String
  components : String → Option Rat
  arguments : String → Option String
  trainerSelectors : String → Option String
  rolloutSelectors : String → Option String

/-- The specification without its maps. -/
def RLRunSpec.withoutMaps (s : RLRunSpec) : RLRunSpec :=
  { s with
    metadata := { s.metadata with labels := ∅ }
    reward := { s.reward with components := ∅ }
    algorithm := { s.algorithm with arguments := ∅ }
    topology :=
      { s.topology with
        trainer :=
          { s.topology.trainer with
            resources := { s.topology.trainer.resources with selectors := ∅ } }
        rollout :=
          { s.topology.rollout with
            resources := { s.topology.rollout.resources with selectors := ∅ } } } }

/-- The value a specification has in the source. -/
def RLRunSpec.content (s : RLRunSpec) : SpecContent where
  rest := s.withoutMaps
  labels := s.metadata.labels.get
  components := s.reward.components.get
  arguments := s.algorithm.arguments.get
  trainerSelectors := s.topology.trainer.resources.selectors.get
  rolloutSelectors := s.topology.rollout.resources.selectors.get

/-- Two documents with the same content. -/
def RunSnapshot.Same (d d' : RunSnapshot) : Prop :=
  d.spec.content = d'.spec.content ∧ d.sha256 = d'.sha256 ∧ d.immutable = d'.immutable

variable {codec : Codec} {now later : Int} {s t : RLRunSpec}

theorem content_normalize (h : s.content = t.content) (now : Int) :
    (s.normalize now).content = (t.normalize now).content := by
  have hrest : s.withoutMaps = t.withoutMaps := congrArg SpecContent.rest h
  have hnormal : (s.withoutMaps.normalize now) = t.withoutMaps.normalize now := by rw [hrest]
  calc (s.normalize now).content
      = { s.content with rest := s.withoutMaps.normalize now } := rfl
    _ = { t.content with rest := t.withoutMaps.normalize now } := by rw [h, hnormal]
    _ = (t.normalize now).content := rfl

theorem any_keys_eq {ν : Type} {m m' : FinMap String ν} (h : m.get = m'.get)
    (test : String → Bool) : m.keys.any test = m'.keys.any test := by
  have hkeys : ∀ k, k ∈ m.keys ↔ k ∈ m'.keys := by
    intro k
    rw [FinMap.mem_keys_iff, FinMap.mem_keys_iff, h]
  rw [Bool.eq_iff_iff, List.any_eq_true, List.any_eq_true]
  simp only [hkeys]

/-- `Validate` works on the value: of the maps it reads the keys of the arguments. -/
theorem problems_eq_of_content (h : s.content = t.content) :
    s.problems codec = t.problems codec := by
  have hrest : s.withoutMaps = t.withoutMaps := congrArg SpecContent.rest h
  have hkeys : s.algorithm.arguments.keys.any unsafeArgumentKey =
      t.algorithm.arguments.keys.any unsafeArgumentKey :=
    any_keys_eq (congrArg SpecContent.arguments h) _
  -- Everything else is read from the specification without its maps.
  let read (r : RLRunSpec) (arguments : FinMap String String) : RLRunSpec :=
    { r with algorithm := { r.algorithm with arguments } }
  have hread : ∀ (r : RLRunSpec) (a b : FinMap String String),
      a.keys.any unsafeArgumentKey = b.keys.any unsafeArgumentKey →
        (read r a).problems codec = (read r b).problems codec := by
    intro r a b hab
    unfold RLRunSpec.problems
    dsimp only [read]
    rw [hab]
  calc s.problems codec
      = (read s.withoutMaps s.algorithm.arguments).problems codec := rfl
    _ = (read t.withoutMaps s.algorithm.arguments).problems codec :=
        congrArg (fun r => (read r s.algorithm.arguments).problems codec) hrest
    _ = (read t.withoutMaps t.algorithm.arguments).problems codec := hread _ _ _ hkeys
    _ = t.problems codec := rfl

/-! ## Normalisation -/

/-- The three lists of the security section that `Normalize` sorts, replaced. -/
def RLRunSpec.withLists (s : RLRunSpec) (images secrets egress : List String) : RLRunSpec :=
  { s with
    security :=
      { s.security with
        imageAllowlist := images, secretRefs := secrets, egressAllowlist := egress } }

theorem insertionSort_eq_of_perm {l l' : List String} (h : l.Perm l') :
    l.insertionSort (· ≤ ·) = l'.insertionSort (· ≤ ·) := by
  have hperm : (l.insertionSort (· ≤ ·)).Perm (l'.insertionSort (· ≤ ·)) :=
    ((List.perm_insertionSort _ l).trans h).trans (List.perm_insertionSort _ l').symm
  exact hperm.eq_of_sortedLE List.sortedLE_insertionSort List.sortedLE_insertionSort

theorem normalize_withLists {images secrets egress : List String}
    (himages : images.Perm s.security.imageAllowlist)
    (hsecrets : secrets.Perm s.security.secretRefs)
    (hegress : egress.Perm s.security.egressAllowlist) :
    (s.withLists images secrets egress).normalize now = s.normalize now := by
  unfold RLRunSpec.normalize RLRunSpec.withLists
  rw [insertionSort_eq_of_perm himages, insertionSort_eq_of_perm hsecrets,
    insertionSort_eq_of_perm hegress]

theorem normalize_eq_of_set (h : s.createdAt ≠ 0) : s.normalize later = s.normalize now := by
  unfold RLRunSpec.normalize
  rw [if_neg h, if_neg h]

theorem normalize_normalize (h : s.createdAt ≠ 0) :
    (s.normalize now).normalize later = s.normalize now := by
  have hdefault : ∀ a b : String, b ≠ "" →
      (if (if a = "" then b else a) = "" then b else if a = "" then b else a) =
        if a = "" then b else a := by
    intro a b hb
    by_cases ha : a = "" <;> simp [ha, hb]
  have hsorted : ∀ l : List String,
      (l.insertionSort (· ≤ ·)).insertionSort (· ≤ ·) = l.insertionSort (· ≤ ·) :=
    fun l => insertionSort_eq_of_perm (List.perm_insertionSort _ l)
  simp only [RLRunSpec.normalize, if_neg h, hsorted]
  rw [hdefault _ Contracts.apiVersion (by decide), hdefault _ "RLRun" (by decide),
    hdefault _ "skyscale" (by decide)]

/-! ## Snapshots -/

theorem validate_eq_ok_iff : s.validate codec = .ok () ↔ s.problems codec = [] := by
  unfold RLRunSpec.validate
  generalize s.problems codec = problems
  cases problems with
  | nil => simp only
  | cons text texts => simp only [reduceCtorEq]

theorem problems_normalize (codec : Codec) (now later : Int) (s : RLRunSpec) :
    (s.normalize now).problems codec = (s.normalize later).problems codec := by
  unfold RLRunSpec.problems RLRunSpec.normalize
  rfl

theorem snapshot_eq_ok_iff {snap : RunSnapshot} :
    snapshot codec now s = .ok snap ↔
      (s.normalize now).problems codec = [] ∧
        snap = ⟨s.normalize now, codec.sha256 (s.normalize now), true⟩ := by
  rw [← validate_eq_ok_iff]
  simp only [snapshot]
  generalize (s.normalize now).validate codec = valid
  cases valid with
  | error text => simp only [reduceCtorEq, false_and]
  | ok =>
    simp only [true_and, Except.ok.injEq]
    exact eq_comm

end Contracts

namespace RL

open Lib State Contracts

/-- The hash tells specifications apart, and a stored document is read back: the hash
and the encodings lose nothing of a value. -/
structure Lossless (cfg : Config) : Prop where
  hash : ∀ s t : RLRunSpec, cfg.codec.sha256 s = cfg.codec.sha256 t ↔ s.content = t.content
  document : ∀ d : RunSnapshot,
    ∃ decoded, cfg.decodeSnapshot (cfg.encodeSnapshot d) = .ok decoded ∧ decoded.Same d

variable {cfg : Config} {now later : Int} {s : RLRunSpec} {snap d : RunSnapshot} {run : RLRun}

/-- What the checks at the start of `Reconcile` ask of the document they decode. -/
theorem verifiedSpec_ok_iff (hdecoded : cfg.decodeSnapshot run.snapshotJSON = .ok d) :
    (∃ spec, verifiedSpec cfg later run = .ok spec) ↔
      d.sha256 = run.snapshotSHA256 ∧ d.immutable = true ∧
        (d.spec.normalize later).problems cfg.codec = [] ∧
        cfg.codec.sha256 (d.spec.normalize later) = d.sha256 := by
  simp only [verifiedSpec, hdecoded]
  by_cases hmeta : d.sha256 ≠ run.snapshotSHA256 ∨ d.immutable = false
  · rw [if_pos hmeta]
    constructor
    · rintro ⟨spec, hspec⟩
      cases hspec
    · rintro ⟨hsha, himmutable, -⟩
      exact absurd hmeta (by simp [hsha, himmutable])
  · rw [if_neg hmeta]
    obtain ⟨hsha, himmutable⟩ := not_or.mp hmeta
    have hkept : d.sha256 = run.snapshotSHA256 ∧ d.immutable = true :=
      ⟨not_not.mp hsha, by simpa using himmutable⟩
    cases hagain : snapshot cfg.codec later d.spec with
    | error text =>
      have hrefused : (d.spec.normalize later).problems cfg.codec ≠ [] := by
        intro hnone
        rw [snapshot_eq_ok_iff.mpr ⟨hnone, rfl⟩] at hagain
        cases hagain
      simp only [hrefused, false_and, and_false, reduceCtorEq, exists_false]
    | ok again =>
      obtain ⟨hnone, rfl⟩ := snapshot_eq_ok_iff.mp hagain
      by_cases hhash : cfg.codec.sha256 (d.spec.normalize later) = d.sha256
      · simp only [hhash, hkept, hnone, if_true, and_self, Except.ok.injEq, exists_eq']
      · simp only [hhash, if_false, and_false, reduceCtorEq, exists_false]

/-- Snapshot integrity is exact.  The hash of an accepted specification does not
depend on the order of its three lists, the snapshot of a snapshot has its hash, and
a pass accepts exactly the stored documents that carry that hash and the same
normalized specification, marked immutable. -/
theorem snapshot_integrity (hcfg : Lossless cfg) (hset : s.createdAt ≠ 0)
    (haccepted : snapshot cfg.codec now s = .ok snap) :
    (∀ (later : Int) (images secrets egress : List String),
      images.Perm s.security.imageAllowlist → secrets.Perm s.security.secretRefs →
      egress.Perm s.security.egressAllowlist →
        ∃ other, snapshot cfg.codec later (s.withLists images secrets egress) = .ok other ∧
          other.sha256 = snap.sha256) ∧
    (∀ later : Int, ∃ again, snapshot cfg.codec later snap.spec = .ok again ∧
      again.sha256 = snap.sha256) ∧
    (∀ (later : Int) (run : RLRun) (d : RunSnapshot), run.snapshotSHA256 = snap.sha256 →
      run.snapshotJSON = cfg.encodeSnapshot d →
        ((∃ spec, verifiedSpec cfg later run = .ok spec) ↔
          d.immutable = true ∧ d.sha256 = snap.sha256 ∧
            (d.spec.normalize later).content = (s.normalize now).content)) := by
  obtain ⟨hnone, rfl⟩ := snapshot_eq_ok_iff.mp haccepted
  refine ⟨?_, ?_, ?_⟩
  · intro later images secrets egress himages hsecrets hegress
    have hnormal : (s.withLists images secrets egress).normalize later = s.normalize now :=
      (normalize_withLists himages hsecrets hegress).trans (normalize_eq_of_set hset)
    exact ⟨_, snapshot_eq_ok_iff.mpr ⟨by rw [hnormal]; exact hnone, rfl⟩, by rw [hnormal]⟩
  · intro later
    have hnormal : (s.normalize now).normalize later = s.normalize now := normalize_normalize hset
    exact ⟨_, snapshot_eq_ok_iff.mpr ⟨by rw [hnormal]; exact hnone, rfl⟩, by rw [hnormal]⟩
  · intro later run d hsha hjson
    obtain ⟨decoded, hdecoded, hcontent, hdsha, hdimmutable⟩ := hcfg.document d
    rw [← hjson] at hdecoded
    have hnormal : (decoded.spec.normalize later).content = (d.spec.normalize later).content :=
      content_normalize hcontent later
    rw [verifiedSpec_ok_iff hdecoded, hdsha, hdimmutable, hsha]
    constructor
    · rintro ⟨hd, himmutable, -, hhash⟩
      rw [hd, hcfg.hash, hnormal] at hhash
      exact ⟨himmutable, hd, hhash⟩
    · rintro ⟨himmutable, hd, hsame⟩
      refine ⟨hd, himmutable, ?_, ?_⟩
      · -- The document passes `Validate` because the specification did.
        rw [problems_eq_of_content (hnormal.trans hsame)]
        exact hnone
      · rw [hd, hcfg.hash, hnormal]
        exact hsame

/-! ## Such a hash and such encodings exist -/

instance countableChar : Countable Char :=
  Function.Injective.countable fun _ _ (h : Char.toNat _ = Char.toNat _) => Char.toNat_inj.mp h

instance countableString : Countable String :=
  Function.Injective.countable fun _ _ (h : String.toList _ = String.toList _) =>
    String.toList_injective h

instance countableFinMap {κ ν : Type} [Countable κ] [Countable ν] : Countable (FinMap κ ν) :=
  have hentries : Function.Injective fun m : FinMap κ ν => AList.entries m :=
    fun _ _ h => AList.ext h
  hentries.countable

deriving instance Countable for ObjectMeta, ModelSpec, DataSpec, RewardSpec, AlgorithmSpec,
  ResourceSpec, TrainerTopology, RolloutTopology, TopologySpec, CheckpointPolicy, EvaluationGate,
  EvaluationPolicy, RetentionPolicy, SecuritySpec, ImageSpec, RLRunSpec, RunSnapshot

theorem exists_text (α : Type) [Countable α] : ∃ text : α → String, Function.Injective text := by
  obtain ⟨code, hcode⟩ := exists_injective_nat α
  refine ⟨fun a => String.ofList (List.replicate (code a) 'x'), ?_⟩
  intro a b hab
  have hlength := congrArg (fun text => text.toList.length) hab
  simp only [String.toList_ofList, List.length_replicate] at hlength
  exact hcode hlength

theorem exists_lossless : ∃ cfg : Config, Lossless cfg := by
  obtain ⟨hash, hhash⟩ := exists_text (Quotient (Setoid.ker RLRunSpec.content))
  obtain ⟨encode, hencode⟩ := exists_text RunSnapshot
  refine ⟨{ codec := { sha256 := fun s => hash ⟦s⟧, isCIDR := fun _ => true }
            decodeSnapshot := fun text => .ok (Function.invFun encode text)
            encodeSnapshot := encode
            getenv := fun _ => ""
            promotions := true, reconciler := true, groupedSamples := true, weightService := true },
    ?_, ?_⟩
  · intro s t
    exact hhash.eq_iff.trans Quotient.eq
  · intro d
    exact ⟨_, rfl, by rw [Function.leftInverse_invFun hencode d]; exact ⟨rfl, rfl, rfl⟩⟩

def tenantSpec : RLRunSpec :=
  { defaultRunSpec with
    metadata := { tenantID := "tenant", projectID := "project", runID := "run", labels := ∅ }
    image := { defaultRunSpec.image with digest := "sha256:test" }
    createdAt := 1 }

theorem problems_tenantSpec (codec : Codec) : (tenantSpec.normalize 5).problems codec = [] := by
  have hcodec : (tenantSpec.normalize 5).problems codec =
      (tenantSpec.normalize 5).problems ⟨fun _ => "", fun _ => true⟩ := rfl
  rw [hcodec]
  decide +kernel

def movedTo (s : RLRunSpec) (tenantID : String) : RLRunSpec :=
  { s with metadata := { s.metadata with tenantID } }

def storedRun (cfg : Config) (snap document : RunSnapshot) : RLRun :=
  { (default : RLRun) with
    id := "run", snapshotJSON := cfg.encodeSnapshot document, snapshotSHA256 := snap.sha256 }

/-- A pass accepts the document the run was created with, and not the one that names
another tenant. -/
theorem snapshot_integrity_tampered :
    ∃ cfg snap, Lossless cfg ∧ snapshot cfg.codec 5 tenantSpec = .ok snap ∧
      (∃ spec, verifiedSpec cfg 9 (storedRun cfg snap snap) = .ok spec) ∧
      ¬∃ spec, verifiedSpec cfg 9
        (storedRun cfg snap { snap with spec := movedTo snap.spec "other-tenant" }) =
          .ok spec := by
  obtain ⟨cfg, hcfg⟩ := exists_lossless
  have haccepted : snapshot cfg.codec 5 tenantSpec =
      .ok ⟨tenantSpec.normalize 5, cfg.codec.sha256 (tenantSpec.normalize 5), true⟩ :=
    snapshot_eq_ok_iff.mpr ⟨problems_tenantSpec _, rfl⟩
  obtain ⟨-, -, hexact⟩ := snapshot_integrity hcfg (by decide) haccepted
  refine ⟨cfg, _, hcfg, haccepted, (hexact 9 _ _ rfl rfl).mpr ⟨rfl, rfl, ?_⟩, ?_⟩
  · rw [normalize_normalize (by decide)]
  · intro hpassed
    obtain ⟨-, -, hsame⟩ := (hexact 9 _ _ rfl rfl).mp hpassed
    have htenant : "other-tenant" = "tenant" :=
      congrArg (fun content => content.rest.metadata.tenantID) hsame
    exact absurd htenant (by decide)

end RL
end Skyscale
