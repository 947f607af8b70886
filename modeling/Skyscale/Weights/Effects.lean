import Mathlib.Logic.Relation
import Skyscale.Weights.Model

/-!
# What the calls of the weight service do to a run

Each call of the service is inverted once, into elementary effects on the durable
state of a run:

* `Effect` lists the elementary changes that record no acknowledgement and remove
  no publication, and `Effects` is a finite sequence of them: `Materialize` readies
  a chain of parents, `Expire` fails any number of publications;
* `Recorded` is a recorded acknowledgement, with or without the activation it may
  complete;
* `Collected` is a garbage collection.

The lemmas named `effects_of_saved_…`, `acknowledge_cases` and
`collected_of_saved_garbageCollect` say that what a call hands to `save` arises in
one of these ways.  Invariants are proved against them and never look at the calls
again.
-/

namespace Skyscale
namespace Weights

open Lib

namespace RunState

/-- Replace one publication. -/
def withPublication (s : RunState) (version : String) (p : DurablePublication) : RunState :=
  { s with publications := s.publications.set version p }

/-- Replace one engine. -/
def withEngine (s : RunState) (engineID : String) (engine : EngineState) : RunState :=
  { s with engines := s.engines.set engineID engine }

/-- The manifest published under a version. -/
def manifestOf (s : RunState) (version : String) : Option Manifest :=
  (s.publications.get version).map DurablePublication.manifest

end RunState

/-- What `Publish` guarantees of a new publication `p` of version `v`. -/
structure Fresh (s : RunState) (v : String) (p : DurablePublication) : Prop where
  absent : s.publications.get v = none
  named : v ≠ ""
  format : p.manifest.format = "full" ∨ p.manifest.format = "delta"
  parent : p.manifest.format = "delta" →
    ∃ parent, s.manifestOf p.manifest.parentVersion = some parent
  unacked : p.acks = ∅
  published : p.state = .published
  registered : ∀ e ∈ p.required.keys, e ∈ s.engines.keys

/-- The elementary changes of a run that record no acknowledgement and remove no
publication. -/
inductive Effect (s : RunState) : RunState → Prop
  | registered {e : String} {engine : EngineState} :
      s.engines.get e = none → engine.desiredVersion = "" → Effect s (s.withEngine e engine)
  | introduced {e : String} {engine : EngineState} (c : String) :
      s.engines.get e = some engine → engine.currentVersion = "" →
      Effect s (s.withEngine e { engine with currentVersion := c, lastGoodVersion := c })
  | published {p : DurablePublication} {engines : FinMap String EngineState} :
      Fresh s p.manifest.version p →
      (∀ e, engines.get e = (s.engines.get e).map fun engine =>
        if e ∈ p.required.keys then
          { engine with desiredVersion := p.manifest.version, draining := true }
        else engine) →
      Effect s
        { s with publications := s.publications.set p.manifest.version p, engines := engines }
  | readied {v : String} {p : DurablePublication} :
      s.publications.get v = some p → Effect s (s.withPublication v (p.readied s.runID v))
  | failed {v : String} {p : DurablePublication} :
      s.publications.get v = some p → Effect s (s.withPublication v { p with state := .failed })
  | flagged {e : String} {engine : EngineState} (message : String) :
      s.engines.get e = some engine →
      Effect s (s.withEngine e { engine with draining := true, error := message })
  | confirmed {e : String} {engine : EngineState} (now : Time) :
      s.engines.get e = some engine → engine.desiredVersion = s.active →
      Effect s (s.withEngine e
        { engine with currentVersion := s.active, draining := false, error := "",
                      acknowledgedAt := now })
  | promoted :
      Effect s
        { s with
          lastGood := s.active
          engines := s.engines.mapVal fun _ engine =>
            if engine.currentVersion = s.active then { engine with lastGoodVersion := s.active }
            else engine }
  | rolledBack (reason : String) :
      s.lastGood ≠ "" →
      Effect s
        { s with
          publications := rollBackActive s
          active := s.lastGood
          engines := s.engines.mapVal fun _ engine =>
            { engine with desiredVersion := s.lastGood, error := reason, draining := true } }
  | expired {v : String} {p : DurablePublication} {engines : FinMap String EngineState} :
      s.publications.get v = some p →
      (∀ e, engines.get e = (s.engines.get e).map fun engine =>
        if e ∈ p.required.keys ∧ e ∉ p.acks.keys then
          { engine with draining := true, error := "weight acknowledgement timeout",
                        desiredVersion := s.fallback }
        else engine) →
      Effect s
        { s with
          publications := s.publications.set v { p with state := .failed }, engines := engines }

/-- A finite sequence of elementary effects. -/
abbrev Effects : RunState → RunState → Prop := Relation.ReflTransGen Effect

variable {s : RunState}

/-- What every effect preserves, a sequence of effects preserves. -/
theorem Effects.invariant {I : RunState → Prop} {s' : RunState} (h : Effects s s') (hs : I s)
    (hstep : ∀ a b, I a → Effect a b → I b) : I s' := by
  induction h with
  | refl => exact hs
  | tail _ hlast ih => exact hstep _ _ ih hlast

/-! ## Effects seen from one publication and from one engine -/

/-- How an effect changes an existing publication. -/
inductive Rewrite (p : DurablePublication) : DurablePublication → Prop
  | same : Rewrite p p
  | readied (runID v : String) : Rewrite p (p.readied runID v)
  | retired (state : PublicationState) :
      state.inFlight = false → Rewrite p { p with state := state }

/-- How an effect of a run `s` changes an existing engine. -/
inductive Redirect (s : RunState) (old new : EngineState) : Prop
  | kept :
      new.desiredVersion = old.desiredVersion → new.currentVersion = old.currentVersion →
      new.draining = old.draining → Redirect s old new
  | introduced :
      old.currentVersion = "" → new.desiredVersion = old.desiredVersion →
      new.draining = old.draining → Redirect s old new
  | drained :
      new.draining = true → new.currentVersion = old.currentVersion →
      (new.desiredVersion = old.desiredVersion ∨ s.publications.get new.desiredVersion = none ∨
        new.desiredVersion = s.active ∨ new.desiredVersion = s.lastGood) →
      Redirect s old new
  | confirmed : new.currentVersion = new.desiredVersion → Redirect s old new

namespace Rewrite

variable {p p' : DurablePublication}

theorem manifest (h : Rewrite p p') : p'.manifest = p.manifest := by
  cases h <;> rfl

theorem required (h : Rewrite p p') : p'.required = p.required := by
  cases h <;> rfl

theorem acks (h : Rewrite p p') : p'.acks = p.acks := by
  cases h <;> rfl

end Rewrite

section Frames

variable {publications : FinMap String DurablePublication} {p q p' : DurablePublication}
variable {u v : String}

/-- Replacing a publication by a rewrite of it rewrites publications only. -/
theorem exists_rewrite_of_get_set (hu : publications.get u = some p) (hpq : Rewrite p q)
    (h : (publications.set u q).get v = some p') :
    ∃ p0, publications.get v = some p0 ∧ Rewrite p0 p' := by
  obtain ⟨rfl, rfl⟩ | ⟨_, h⟩ := FinMap.get_set_cases h
  · exact ⟨p, hu, hpq⟩
  · exact ⟨p', h, .same⟩

variable {s : RunState}

theorem exists_rewrite_of_rollBackActive (h : (rollBackActive s).get v = some p') :
    ∃ p0, s.publications.get v = some p0 ∧ Rewrite p0 p' := by
  unfold rollBackActive at h
  split at h
  · exact ⟨p', h, .same⟩
  · rename_i active hactive
    exact exists_rewrite_of_get_set hactive (.retired _ rfl) h

theorem exists_rewrite_of_supersedePrevious {w : String}
    (h : (supersedePrevious s w).get v = some p') :
    ∃ p0, s.publications.get v = some p0 ∧ Rewrite p0 p' := by
  unfold supersedePrevious at h
  split at h
  · exact ⟨p', h, .same⟩
  · rename_i previous hprevious
    split at h
    · exact exists_rewrite_of_get_set hprevious (.retired _ rfl) h
    · exact ⟨p', h, .same⟩

theorem exists_get_set (h : publications.get v = some p) :
    ∃ p', (publications.set u q).get v = some p' := by
  rw [FinMap.get_set]
  split
  · exact ⟨q, rfl⟩
  · exact ⟨p, h⟩

theorem exists_get_rollBackActive (h : s.publications.get v = some p) :
    ∃ p', (rollBackActive s).get v = some p' := by
  unfold rollBackActive
  split
  · exact ⟨p, h⟩
  · exact exists_get_set h

theorem exists_get_supersedePrevious {w : String} (h : s.publications.get v = some p) :
    ∃ p', (supersedePrevious s w).get v = some p' := by
  unfold supersedePrevious
  split
  · exact ⟨p, h⟩
  · split
    · exact exists_get_set h
    · exact ⟨p, h⟩

end Frames

namespace Effect

variable {s s' : RunState} {v e : String} {p p' : DurablePublication}

theorem runID (h : Effect s s') : s'.runID = s.runID := by
  cases h <;> rfl

/-- After an effect every publication is a rewritten one or a fresh one. -/
theorem publication (h : Effect s s') (hp' : s'.publications.get v = some p') :
    (∃ p, s.publications.get v = some p ∧ Rewrite p p') ∨ Fresh s v p' := by
  cases h with
  | registered | introduced | flagged | confirmed | promoted => exact .inl ⟨p', hp', .same⟩
  | published hfresh _ =>
    obtain ⟨rfl, rfl⟩ | ⟨_, hp'⟩ := FinMap.get_set_cases hp'
    · exact .inr hfresh
    · exact .inl ⟨p', hp', .same⟩
  | readied hp => exact .inl (exists_rewrite_of_get_set hp (.readied _ _) hp')
  | failed hp => exact .inl (exists_rewrite_of_get_set hp (.retired _ rfl) hp')
  | rolledBack => exact .inl (exists_rewrite_of_rollBackActive hp')
  | expired hp _ => exact .inl (exists_rewrite_of_get_set hp (.retired _ rfl) hp')

/-- No effect removes a publication. -/
theorem present (h : Effect s s') (hp : s.publications.get v = some p) :
    ∃ p', s'.publications.get v = some p' ∧ Rewrite p p' := by
  have hpresent : ∃ p', s'.publications.get v = some p' := by
    cases h with
    | registered | introduced | flagged | confirmed | promoted => exact ⟨p, hp⟩
    | published | readied | failed | expired => exact exists_get_set hp
    | rolledBack => exact exists_get_rollBackActive hp
  obtain ⟨p', hp'⟩ := hpresent
  rcases h.publication hp' with ⟨q, hq, hrewrite⟩ | hfresh
  · obtain rfl := Option.some.inj (hp.symm.trans hq)
    exact ⟨p', hp', hrewrite⟩
  · rw [hfresh.absent] at hp
    cases hp

/-- The active version and the last good one are only ever replaced by each other. -/
theorem roots (h : Effect s s') :
    (s'.active = s.active ∨ s'.active = s.lastGood) ∧
      (s'.lastGood = s.lastGood ∨ s'.lastGood = s.active) := by
  cases h with
  | registered | introduced | published | readied | failed | flagged | confirmed | expired =>
    exact ⟨.inl rfl, .inl rfl⟩
  | promoted => exact ⟨.inl rfl, .inr rfl⟩
  | rolledBack => exact ⟨.inr rfl, .inl rfl⟩

/-- After an effect every engine is an old one, redirected, or it is new and not
directed anywhere. -/
theorem engine (h : Effect s s') {new : EngineState} (hnew : s'.engines.get e = some new) :
    (∃ old, s.engines.get e = some old ∧ Redirect s old new) ∨
      (s.engines.get e = none ∧ new.desiredVersion = "") := by
  have hmap : ∀ {f : EngineState → EngineState} {engines : FinMap String EngineState},
      engines.get e = (s.engines.get e).map f → engines.get e = some new →
      (∀ old, Redirect s old (f old)) →
      ∃ old, s.engines.get e = some old ∧ Redirect s old new := by
    intro f engines hget hnew hf
    rw [hget] at hnew
    obtain ⟨old, hold, rfl⟩ := Option.map_eq_some_iff.mp hnew
    exact ⟨old, hold, hf old⟩
  have hsame : s.engines.get e = some new →
      ∃ old, s.engines.get e = some old ∧ Redirect s old new :=
    fun hold => ⟨new, hold, .kept rfl rfl rfl⟩
  have hset : ∀ {u : String} {old eng : EngineState}, s.engines.get u = some old →
      (s.engines.set u eng).get e = some new → Redirect s old eng →
      ∃ old, s.engines.get e = some old ∧ Redirect s old new := by
    intro u old eng hold hget hre
    obtain ⟨rfl, rfl⟩ | ⟨_, hget⟩ := FinMap.get_set_cases hget
    · exact ⟨old, hold, hre⟩
    · exact hsame hget
  cases h with
  | readied | failed => exact .inl (hsame hnew)
  | registered hnone hdesired =>
    obtain ⟨rfl, rfl⟩ | ⟨_, hnew⟩ := FinMap.get_set_cases hnew
    · exact .inr ⟨hnone, hdesired⟩
    · exact .inl (hsame hnew)
  | introduced c hold hblank => exact .inl (hset hold hnew (.introduced hblank rfl rfl))
  | flagged message hold => exact .inl (hset hold hnew (.drained rfl rfl (.inl rfl)))
  | confirmed now hold hdesired => exact .inl (hset hold hnew (.confirmed hdesired.symm))
  | published hfresh hget =>
    refine .inl (hmap (hget e) hnew ?_)
    intro old
    split
    · exact .drained rfl rfl (.inr (.inl hfresh.absent))
    · exact .kept rfl rfl rfl
  | promoted =>
    refine .inl (hmap (FinMap.get_mapVal _ _ e) hnew ?_)
    intro old
    split <;> exact .kept rfl rfl rfl
  | rolledBack =>
    refine .inl (hmap (FinMap.get_mapVal _ _ e) hnew ?_)
    exact fun old => .drained rfl rfl (.inr (.inr (.inr rfl)))
  | expired _ hget =>
    refine .inl (hmap (hget e) hnew ?_)
    intro old
    split
    · refine .drained rfl rfl (.inr (.inr ?_))
      change s.fallback = s.active ∨ s.fallback = s.lastGood
      unfold RunState.fallback
      split
      · exact .inl rfl
      · exact .inr rfl
    · exact .kept rfl rfl rfl

theorem engines_mono (h : Effect s s') (he : e ∈ s.engines.keys) : e ∈ s'.engines.keys := by
  have hmap : ∀ {f : EngineState → EngineState} {engines : FinMap String EngineState},
      engines.get e = (s.engines.get e).map f → e ∈ engines.keys := by
    intro f engines hget
    obtain ⟨old, hold⟩ := FinMap.mem_keys_iff.mp he
    rw [hold] at hget
    exact FinMap.mem_keys_of_get hget
  cases h with
  | readied | failed => exact he
  | registered | introduced | flagged | confirmed =>
    exact (FinMap.mem_keys_set _ _ _ _).mpr (.inr he)
  | published _ hget | expired _ hget => exact hmap (hget e)
  | promoted | rolledBack => exact hmap (FinMap.get_mapVal _ _ e)

end Effect

/-! ## Registration and publication -/

section Registration

variable {s s' : RunState} {e c : String}

/-- A new engine is registered; one that is there is introduced again only while it has no
version. -/
theorem effects_of_saved_registerEngine (h : (registerEngine s e c).saved = some s') :
    Effects s s' := by
  unfold registerEngine at h
  split at h
  · rename_i engine hengine
    split at h
    · rename_i hblank
      obtain rfl := Option.some.inj h
      exact .single (.introduced c hengine hblank.1)
    · obtain rfl := Option.some.inj h
      exact .refl
  · rename_i hnone
    obtain rfl := Option.some.inj h
    exact .single (.registered hnone rfl)

end Registration

/-- The loop of `Publish` collects the listed engines, all of them registered, and
redirects exactly those. -/
theorem requireEngines_spec {version : String} {ids : List String}
    {required required' : FinMap String Bool} {engines engines' : FinMap String EngineState}
    (h : requireEngines version ids required engines = .ok (required', engines')) :
    (∀ e, e ∈ required'.keys ↔ e ∈ required.keys ∨ e ∈ ids) ∧
    (∀ e ∈ ids, e ∈ engines.keys) ∧
    (∀ e, engines'.get e = (engines.get e).map fun engine =>
      if e ∈ ids then { engine with desiredVersion := version, draining := true }
      else engine) := by
  induction ids generalizing required engines with
  | nil =>
    simp only [requireEngines, Except.ok.injEq, Prod.mk.injEq] at h
    obtain ⟨rfl, rfl⟩ := h
    simp
  | cons id ids ih =>
    unfold requireEngines at h
    split at h
    · cases h
    rename_i engine hengine
    obtain ⟨hreq, hreg, hget⟩ := ih h
    refine ⟨?_, ?_, ?_⟩
    · intro e
      rw [hreq, FinMap.mem_keys_set, List.mem_cons]
      tauto
    · intro e he
      rcases List.mem_cons.mp he with rfl | he
      · exact FinMap.mem_keys_of_get hengine
      · rcases (FinMap.mem_keys_set _ _ _ _).mp (hreg e he) with rfl | hmem
        · exact FinMap.mem_keys_of_get hengine
        · exact hmem
    · intro e
      rw [hget, FinMap.get_set]
      by_cases he : e = id
      · subst he
        simp [hengine]
      · simp [he]

theorem Manifest.format_of_validate {m : Manifest} (h : m.validate = .ok ()) :
    m.version ≠ "" ∧ (m.format = "full" ∨ m.format = "delta") := by
  unfold Manifest.validate at h
  split at h
  · cases h
  rename_i hnames
  split at h
  · cases h
  rename_i hformat
  push Not at hnames
  refine ⟨hnames.2.1, ?_⟩
  by_contra hcontra
  push Not at hcontra
  exact hformat hcontra

/-- A new version becomes a fresh publication that its engines are directed to; a repeated
one saves nothing. -/
theorem effects_of_saved_publishLocked {s' : RunState} {m : Manifest} {ids : List String}
    {timeout : Int} {hash : String} {now : Time} (hversion : m.version ≠ "")
    (hformat : m.format = "full" ∨ m.format = "delta")
    (h : (publishLocked s m ids timeout hash now).saved = some s') : Effects s s' := by
  unfold publishLocked at h
  split at h
  · split at h <;> cases h
  · rename_i hnew
    split at h
    · cases h
    rename_i hparent
    split at h
    · cases h
    split at h
    · cases h
    rename_i required engines hreq
    obtain rfl := Option.some.inj h
    obtain ⟨hkeys, hreg, hget⟩ := requireEngines_spec hreq
    have hmem : ∀ e, e ∈ required.keys ↔ e ∈ ids := by
      intro e
      rw [hkeys]
      simp
    have hparent' : m.format = "delta" → ∃ parent, s.manifestOf m.parentVersion = some parent := by
      intro hdelta
      unfold RunState.manifestOf
      cases hp : s.publications.get m.parentVersion with
      | none => exact absurd ⟨hdelta, by simp [parentAvailable, hp]⟩ hparent
      | some parent => exact ⟨parent.manifest, rfl⟩
    refine .single (.published (s := s)
      (p := { manifest := m, required := required, acks := ∅, state := .published,
              deadline := now + timeout.toNat, materializedURI := "", artifactSHA256 := hash,
              resultSHA256 := m.checksums.getD "result" "" })
      ⟨hnew, hversion, hformat, hparent', rfl, rfl, ?_⟩ ?_)
    · intro e he
      exact hreg e ((hmem e).mp he)
    · intro e
      rw [hget]
      simp only [hmem]

/-! ## Materialization -/

/-- One publication outside `visiting` is readied. -/
def ReadyOne (visiting : List String) (s s' : RunState) : Prop :=
  ∃ v p, v ∉ visiting ∧ s.publications.get v = some p ∧
    s' = s.withPublication v (p.readied s.runID v)

/-- Some publications outside `visiting` are readied. -/
abbrev ReadyMany (visiting : List String) : RunState → RunState → Prop :=
  Relation.ReflTransGen (ReadyOne visiting)

section Materialization

variable {σ : Type} (A : ArtifactStore σ) (checksum : Bytes → String)

variable {visiting : List String} {s s' : RunState}

theorem ReadyMany.effects (h : ReadyMany visiting s s') : Effects s s' := by
  refine Relation.ReflTransGen.mono ?_ _ _ h
  rintro a b ⟨v, p, -, hp, rfl⟩
  exact .readied hp

/-- The versions on the way from the requested one to its ancestors stay as they are. -/
theorem ReadyMany.get_visiting (h : ReadyMany visiting s s') {u : String} (hu : u ∈ visiting) :
    s'.publications.get u = s.publications.get u := by
  induction h with
  | refl => rfl
  | tail _ hlast ih =>
    obtain ⟨v, p, hv, -, rfl⟩ := hlast
    have hne : u ≠ v := fun heq => hv (heq ▸ hu)
    rw [← ih]
    exact FinMap.get_set_ne _ _ hne

theorem ReadyMany.of_cons {v : String} (h : ReadyMany (v :: visiting) s s') :
    ReadyMany visiting s s' := by
  refine Relation.ReflTransGen.mono ?_ _ _ h
  rintro a b ⟨u, p, hu, hp, rfl⟩
  exact ⟨u, p, fun hmem => hu (List.mem_cons_of_mem v hmem), hp, rfl⟩

theorem readyMany_storeMaterialized {version : String} {p : DurablePublication} (result : Bytes)
    (a : σ) (hv : version ∉ visiting) (hp : s.publications.get version = some p) :
    ReadyMany visiting s (storeMaterialized A checksum version p result s a).2.1 := by
  unfold storeMaterialized
  split
  · exact .refl
  · split
    · exact .refl
    · exact .single ⟨version, p, hv, hp, rfl⟩

/-- `materializeLocked` readies publications and changes nothing else, whether it
succeeds or not. -/
theorem readyMany_materializeLocked (fuel : Nat) (version : String) (visiting : List String)
    (s : RunState) (a : σ) :
    ReadyMany visiting s (materializeLocked A checksum fuel version visiting s a).2.1 := by
  induction fuel generalizing version visiting s a with
  | zero => exact .refl
  | succ fuel ih =>
    unfold materializeLocked
    split
    · exact .refl
    rename_i hvisiting
    split
    · exact .refl
    rename_i p hp
    split
    · exact .refl
    split
    · exact .refl
    split
    · exact .refl
    split
    · -- The parent's chain is readied first; it cannot touch `version`, which is
      -- being visited, so the record read before the recursion is still current.
      rename_i a' _ _ _
      have hchain := ih p.manifest.parentVersion (version :: visiting) s a'
      split
      · rename_i hrec
        rw [hrec] at hchain
        exact hchain.of_cons
      · rename_i parent s1 a1 hrec
        rw [hrec] at hchain
        split
        · exact hchain.of_cons
        · rename_i result _
          have hp1 : s1.publications.get version = some p := by
            rw [← hp]
            exact hchain.get_visiting List.mem_cons_self
          exact hchain.of_cons.trans
            (readyMany_storeMaterialized A checksum result a1 hvisiting hp1)
    · exact readyMany_storeMaterialized A checksum _ _ hvisiting hp

theorem effects_failPublication (s : RunState) (version : String) :
    Effects s (failPublication s version) := by
  unfold failPublication
  split
  · exact .refl
  · rename_i p hp
    exact .single (.failed hp)

/-- Parents that were readied stay so when the version itself fails. -/
theorem effects_of_saved_materialize {version : String} {a : σ}
    (h : (materialize A checksum s version a).1.saved = some s') : Effects s s' := by
  have hready := (readyMany_materializeLocked A checksum (s.publications.size + 1) version [] s
    a).effects
  unfold materialize at h
  split at h
  · rename_i s1 a1 hrun
    obtain rfl := Option.some.inj h
    rw [hrun] at hready
    exact hready.trans (effects_failPublication s1 version)
  · rename_i s1 a1 hrun
    rw [hrun] at hready
    split at h
    · cases h
    · obtain rfl := Option.some.inj h
      exact hready

end Materialization

/-! ## Acknowledgement -/

/-- The branch of `Acknowledge` that records an acknowledgement: the publication
and the engine exist, the call is not the confirmation of the active version, and
all its checks pass. -/
structure Recording (s : RunState) (e v c : String) (now : Time) (p : DurablePublication)
    (engine : EngineState) : Prop where
  publication : s.publications.get v = some p
  registered : s.engines.get e = some engine
  notConfirming : ¬(s.active = v ∧ engine.desiredVersion = v)
  required : e ∈ p.required.keys
  materialized : p.state = .ready ∨ p.state = .activating
  inTime : now ≤ p.deadline
  checksum : c = p.resultSHA256

/-- The publication after the acknowledgement. -/
def DurablePublication.acknowledged (p : DurablePublication) (e : String) (now : Time) :
    DurablePublication :=
  { p with state := .activating, acks := p.acks.set e now }

/-- The engine after the acknowledgement. -/
def EngineState.applied (engine : EngineState) (v : String) (now : Time) : EngineState :=
  { engine with currentVersion := v, acknowledgedAt := now, error := "" }

/-- The run after the acknowledgement, before a possible activation. -/
def RunState.recordAck (s : RunState) (e v : String) (now : Time) (p : DurablePublication)
    (engine : EngineState) : RunState :=
  (s.withPublication v (p.acknowledged e now)).withEngine e (engine.applied v now)

/-- The activation of `v`, whose record is `p`, in a run `s`: `engines` are the
engines afterwards. -/
def RunState.activated (s : RunState) (v : String) (p : DurablePublication)
    (engines : FinMap String EngineState) : RunState :=
  { s with
    publications := (supersedePrevious s v).set v { p with state := .active }
    engines := engines
    active := v
    lastGood := if s.lastGood = "" then v else s.lastGood }

theorem required_mem_of_getD {m : FinMap String Bool} {e : String}
    (h : ¬m.getD e false = false) : e ∈ m.keys := by
  by_contra hnot
  apply h
  unfold FinMap.getD
  rw [FinMap.get_eq_none_iff.mpr hnot]
  rfl

/-- The two ways a recorded acknowledgement ends: others are still missing, or the
number of acknowledgements has reached the number of required engines and the
version is activated. -/
inductive Recorded (s : RunState) (e v c : String) (now : Time) : RunState → Prop
  | pending {p : DurablePublication} {engine : EngineState} :
      Recording s e v c now p engine →
      (p.acknowledged e now).acks.size ≠ p.required.size →
      Recorded s e v c now (s.recordAck e v now p engine)
  | completed {p : DurablePublication} {engine : EngineState}
      {engines : FinMap String EngineState} :
      Recording s e v c now p engine →
      (p.acknowledged e now).acks.size = p.required.size →
      p.required.keys.foldlM (undrain v) (s.recordAck e v now p engine).engines = some engines →
      Recorded s e v c now
        ((s.recordAck e v now p engine).activated v (p.acknowledged e now) engines)

/-- What `Acknowledge` hands to `save`. -/
theorem acknowledge_cases {s' : RunState} {e v c : String} {now : Time}
    (h : (acknowledge s e v c now).saved = some s') :
    Effects s s' ∨ Recorded s e v c now s' := by
  unfold acknowledge at h
  split at h
  · rename_i p engine hp hengine
    split at h
    · rename_i hconfirming
      split at h
      · obtain rfl := Option.some.inj h
        exact .inl (.single (.flagged _ hengine))
      · obtain rfl := Option.some.inj h
        obtain ⟨rfl, hdesired⟩ := hconfirming
        exact .inl (.single (.confirmed now hengine hdesired))
    rename_i hconfirming
    split at h
    · cases h
    rename_i hrequired
    split at h
    · cases h
    rename_i hstate
    split at h
    · obtain rfl := Option.some.inj h
      exact .inl (.tail (.single (.failed hp)) (.flagged (s := s.withPublication v _) _ hengine))
    rename_i hdeadline
    split at h
    · obtain rfl := Option.some.inj h
      exact .inl (.single (.flagged _ hengine))
    rename_i hchecksum
    have hready : p.state = .ready ∨ p.state = .activating := by
      by_contra hcontra
      push Not at hcontra
      exact hstate hcontra
    have hrecording : Recording s e v c now p engine :=
      ⟨hp, hengine, hconfirming, required_mem_of_getD hrequired, hready, not_lt.mp hdeadline,
        not_not.mp hchecksum⟩
    simp only [] at h
    split at h
    · rename_i hsize
      obtain rfl := Option.some.inj h
      exact .inr (.pending hrecording hsize)
    · rename_i hsize
      unfold activate at h
      split at h
      · cases h
      · rename_i engines hfold
        obtain rfl := Option.some.inj h
        exact .inr (.completed hrecording (not_not.mp hsize) hfold)
  · cases h

/-! ## Promotion, rollback and expiry -/

section Fallback

variable {s s' : RunState} {acc acc' : RunState × List String} {now : Time} {v : String}
  {order : List String}

theorem effects_of_saved_markGood (h : (markGood s v).saved = some s') : Effects s s' := by
  unfold markGood at h
  split at h
  · cases h
  rename_i hactive
  obtain rfl := not_not.mp hactive
  obtain rfl := Option.some.inj h
  exact .single .promoted

theorem effects_of_saved_rollback {reason : String} (h : (rollback s reason).saved = some s') :
    Effects s s' := by
  unfold rollback at h
  split at h
  · cases h
  · rename_i hgood
    obtain rfl := Option.some.inj h
    exact .single (.rolledBack reason hgood)

/-- A publication past its deadline fails, and the engines that owe it an acknowledgement
fall back. -/
theorem effects_expireOne (h : expireOne now acc v = some acc') : Effects acc.1 acc'.1 := by
  unfold expireOne at h
  split at h
  · obtain rfl := Option.some.inj h
    exact .refl
  · rename_i p hp
    split at h
    · split at h
      · cases h
      rename_i engines hfold
      obtain rfl := Option.some.inj h
      refine .single (.expired hp ?_)
      intro e
      rw [FinMap.get_of_foldlM_modifyWhere p.required.keys_nodup hfold]
      simp only [Option.isNone_iff_eq_none, FinMap.get_eq_none_iff]
    · obtain rfl := Option.some.inj h
      exact .refl

theorem effects_foldlM_expireOne (h : order.foldlM (expireOne now) acc = some acc') :
    Effects acc.1 acc'.1 := by
  induction order generalizing acc with
  | nil =>
    obtain rfl : acc = acc' := by simpa using h
    exact .refl
  | cons v order ih =>
    rw [List.foldlM_cons] at h
    obtain ⟨acc1, hfirst, hrest⟩ := Option.bind_eq_some_iff.mp h
    exact (effects_expireOne hfirst).trans (ih hrest)

theorem effects_of_saved_expire (h : (expire s now order).saved = some s') : Effects s s' := by
  unfold expire at h
  split at h
  · cases h
  · rename_i s1 expired hfold
    obtain rfl := Option.some.inj h
    exact effects_foldlM_expireOne hfold

end Fallback

/-! ## Garbage collection -/

theorem subset_retainChain (publications : FinMap String DurablePublication) (fuel : Nat)
    (version : String) (keep : List String) :
    keep ⊆ retainChain publications fuel version keep := by
  induction fuel generalizing version keep with
  | zero => exact List.Subset.refl keep
  | succ fuel ih =>
    unfold retainChain
    split
    · exact List.Subset.refl keep
    split
    · exact List.subset_cons_self version keep
    · exact List.Subset.trans (List.subset_cons_self version keep) (ih _ _)

theorem mem_retainChain_self (publications : FinMap String DurablePublication) (fuel : Nat)
    {version : String} (hversion : version ≠ "") (keep : List String) :
    version ∈ retainChain publications (fuel + 1) version keep := by
  unfold retainChain
  split
  · rename_i h
    exact h.resolve_left hversion
  split
  · exact List.mem_cons_self
  · exact subset_retainChain _ _ _ _ List.mem_cons_self

/-- Every root is retained, whatever chains are retained before and after it. -/
theorem mem_retained_of_mem_roots {n : Int} {orders : CollectOrders} {version : String}
    (hversion : version ≠ "") (hroot : version ∈ retainRoots s n orders) :
    version ∈ retained s n orders := by
  unfold retained
  -- Induction on the roots; the accumulator only grows.
  generalize hroots : retainRoots s n orders = roots at hroot
  clear hroots
  have hgrow : ∀ (rs keep : List String), keep ⊆ rs.foldl (fun keep version =>
      retainChain s.publications (s.publications.size + 1) version keep) keep := by
    intro rs
    induction rs with
    | nil => exact fun keep => List.Subset.refl keep
    | cons r rs ih =>
      exact fun keep => List.Subset.trans (subset_retainChain _ _ r keep) (ih _)
  generalize ([] : List String) = keep
  induction roots generalizing keep with
  | nil => cases hroot
  | cons r rs ih =>
    rcases List.mem_cons.mp hroot with rfl | hroot
    · exact hgrow rs _ (mem_retainChain_self _ _ hversion keep)
    · exact ih hroot _

section Collection

variable {σ : Type} (A : ArtifactStore σ)

/-- The removal loop deletes exactly the listed publications that are neither kept
nor in flight. -/
theorem get_of_removeUnkept {keep order : List String}
    {publications publications' : FinMap String DurablePublication}
    {removed removed' : List Manifest} {a a' : σ}
    (h : removeUnkept A keep order publications removed a =
      (.ok (publications', removed'), a')) (v : String) (p : DurablePublication) :
    publications'.get v = some p ↔
      publications.get v = some p ∧ (v ∉ order ∨ v ∈ keep ∨ p.state.inFlight) := by
  induction order generalizing publications removed a with
  | nil =>
    simp only [removeUnkept, Prod.mk.injEq, Except.ok.injEq] at h
    obtain ⟨⟨rfl, -⟩, -⟩ := h
    simp
  | cons u order ih =>
    unfold removeUnkept at h
    split at h
    · rename_i hnone
      rw [ih h]
      by_cases huv : v = u
      · subst huv
        simp [hnone]
      · simp [huv]
    · rename_i q hq
      split at h
      · rename_i hkept
        rw [ih h]
        by_cases huv : v = u
        · subst huv
          rw [hq]
          constructor
          · rintro ⟨hqp, -⟩
            obtain rfl := Option.some.inj hqp
            exact ⟨rfl, .inr hkept⟩
          · rintro ⟨hqp, -⟩
            obtain rfl := Option.some.inj hqp
            exact ⟨rfl, .inr hkept⟩
        · simp [huv]
      · rename_i hkept
        split at h
        · simp at h
        · rw [ih h, FinMap.get_del]
          by_cases huv : v = u
          · subst huv
            rw [hq]
            simp only [if_true, reduceCtorEq, false_and, List.mem_cons_self, not_true_eq_false,
              false_or, false_iff, not_and]
            intro hqp
            obtain rfl := Option.some.inj hqp
            exact hkept
          · simp [huv]

/-- A collection keeps exactly the publications that are retained or in flight. -/
def Collected (s : RunState) (n : Int) (orders : CollectOrders) (s' : RunState) : Prop :=
  ∃ publications, s' = { s with publications := publications } ∧
    ∀ v p, publications.get v = some p ↔
      s.publications.get v = some p ∧ (v ∈ retained s n orders ∨ p.state.inFlight)

/-- `GarbageCollect` visits every publication, so what it saves is a collection. -/
theorem collected_of_saved_garbageCollect {s s' : RunState} {n : Int} {orders : CollectOrders}
    {a : σ} (horder : orders.remove.Perm s.publications.keys)
    (h : (garbageCollect A s n orders a).1.saved = some s') : Collected s n orders s' := by
  unfold garbageCollect at h
  split at h
  · cases h
  rename_i publications removed a' hloop
  obtain rfl := Option.some.inj h
  refine ⟨publications, rfl, ?_⟩
  intro v p
  rw [get_of_removeUnkept A hloop]
  refine and_congr_right fun hp => ?_
  have hmem : v ∈ orders.remove := horder.mem_iff.mpr (FinMap.mem_keys_of_get hp)
  simp [hmem]

namespace Collected

variable {s s' : RunState} {n : Int} {orders : CollectOrders} {v : String}
  {p : DurablePublication}

theorem publication (h : Collected s n orders s')
    (hp : s'.publications.get v = some p) : s.publications.get v = some p := by
  obtain ⟨publications, rfl, hget⟩ := h
  exact ((hget v p).mp hp).1

theorem present (h : Collected s n orders s') (hv : v ≠ "") (hp : s.publications.get v = some p)
    (hroot : v = s.active ∨ v = s.lastGood) : s'.publications.get v = some p := by
  obtain ⟨publications, rfl, hget⟩ := h
  have hmem : v ∈ retainRoots s n orders := by
    rcases hroot with rfl | rfl <;> simp [retainRoots]
  exact (hget v p).mpr ⟨hp, .inl (mem_retained_of_mem_roots hv hmem)⟩

end Collected

end Collection

end Weights
end Skyscale
