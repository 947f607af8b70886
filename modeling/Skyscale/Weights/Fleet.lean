import Skyscale.Weights.Soundness

/-!
# Fleet agreement at activation

Acknowledgements are remembered per publication, while the version an engine runs
and the version it is directed to are remembered per engine.  When publications
overlap, the two records can disagree: an engine acknowledges `v1`, is directed to
`v2` by a second publication and acknowledges that, and the last missing
acknowledgement of `v1` by another engine then activates `v1` although the first
engine runs `v2` (`split_fleet_activation`).

`Directed` is the condition under which this cannot happen: an acknowledgement is
recorded only while its engine is directed to the version, and the acknowledgement
that completes a version is not a repetition and finds all required engines
directed to it.  In every history whose requests meet it, the fleet agrees at every
activation and every engine that is not draining runs the version it is directed
to (`fleet_agrees_at_activation`).
-/

namespace Skyscale
namespace Weights

open Lib

/-- Some required engine has not acknowledged the publication. -/
def DurablePublication.Missing (p : DurablePublication) : Prop :=
  ∃ e ∈ p.required.keys, e ∉ p.acks.keys

/-- No engine is done draining without running the version it is directed to. -/
def Settled (s : RunState) : Prop :=
  ∀ e engine, s.engines.get e = some engine → engine.draining = false →
    engine.desiredVersion ≠ "" → engine.currentVersion = engine.desiredVersion

/-- The step from `s` to `s'` supplies the last missing acknowledgement of `v` and
makes `v` active. -/
def CompletesActivation (s s' : RunState) (v : String) : Prop :=
  (∃ p, s.publications.get v = some p ∧ p.Missing) ∧ s'.FullyAcked v ∧ s'.active = v

/-- Every engine that `v` requires runs `v`. -/
def FleetRuns (s : RunState) (v : String) : Prop :=
  ∀ p, s.publications.get v = some p →
    ∀ e ∈ p.required.keys, ∃ engine, s.engines.get e = some engine ∧ engine.currentVersion = v

/-- The condition on requests: an acknowledgement of `v` by `e` that will be
recorded comes while `e` is directed to `v`; and if no other acknowledgement is
missing, it is the first one by `e` and all required engines are directed to `v`. -/
def Directed {σ : Type} (runID : String) (s : RunState) : Call σ → Prop
  | .acknowledge r e v c now =>
    r = runID → ∀ p engine, Recording s e v c now p engine →
      engine.desiredVersion = v ∧
      ((∀ x ∈ p.required.keys, x = e ∨ x ∈ p.acks.keys) →
        e ∉ p.acks.keys ∧
        ∀ x ∈ p.required.keys, ∀ other, s.engines.get x = some other →
          other.desiredVersion = v)
  | _ => True

/-- The invariant behind fleet agreement: an engine that acknowledged a version
which still misses acknowledgements, and that is still directed to it, runs it. -/
structure Aligned (s : RunState) : Prop where
  sound : Sound s
  applied : ∀ {v p e engine}, s.publications.get v = some p → p.Missing → e ∈ p.acks.keys →
    s.engines.get e = some engine → engine.desiredVersion = v → engine.currentVersion = v
  settled : Settled s

theorem aligned_empty (runID : String) : Aligned (RunState.empty runID) where
  sound := sound_empty runID
  applied h := by cases h
  settled _ _ h := by cases h

theorem RunState.FullyAcked.not_missing {s : RunState} {v : String} {p : DurablePublication}
    (h : s.FullyAcked v) (hp : s.publications.get v = some p) : ¬p.Missing := by
  rintro ⟨e, hreq, hack⟩
  obtain ⟨q, hq, -, hkeys⟩ := h
  obtain rfl := Option.some.inj (hp.symm.trans hq)
  exact hack ((hkeys e).mpr hreq)

theorem Rewrite.missing {p p' : DurablePublication} (h : Rewrite p p') :
    p'.Missing ↔ p.Missing := by
  unfold DurablePublication.Missing
  rw [h.required, h.acks]

/-! ## Effects keep the fleet aligned -/

theorem Redirect.settled {s : RunState} {old new : EngineState} (h : Redirect s old new)
    (hold : old.draining = false → old.desiredVersion ≠ "" →
      old.currentVersion = old.desiredVersion)
    (hdraining : new.draining = false) (hdesired : new.desiredVersion ≠ "") :
    new.currentVersion = new.desiredVersion := by
  cases h with
  | kept hdes hcur hdrain =>
    rw [hdrain] at hdraining
    rw [hdes] at hdesired
    rw [hcur, hdes]
    exact hold hdraining hdesired
  | introduced hblank hdes hdrain =>
    -- A settled engine runs a named version, so it is not introduced again.
    rw [hdrain] at hdraining
    rw [hdes] at hdesired
    have hcur := hold hdraining hdesired
    rw [hblank] at hcur
    exact absurd hcur.symm hdesired
  | drained hdrain => rw [hdrain] at hdraining; cases hdraining
  | confirmed hcur => exact hcur

theorem Effect.aligned {s s' : RunState} (h : Effect s s') (hs : Aligned s) : Aligned s' where
  sound := h.sound hs.sound
  applied := by
    intro v p' e new hp' hmissing hack hnew hdesired
    rcases h.publication hp' with ⟨p, hp, hrewrite⟩ | hfresh
    · rw [hrewrite.missing] at hmissing
      rw [hrewrite.acks] at hack
      have hroot : ∀ {u}, u = v → u = s.active ∨ u = s.lastGood → False := by
        rintro u rfl hu
        exact (hs.sound.root (hs.sound.ne_blank hp) hu).not_missing hp hmissing
      rcases h.engine hnew with ⟨old, hold, hredirect⟩ | ⟨hnone, -⟩
      · cases hredirect with
        | kept hdes hcur _ =>
          rw [hcur]
          exact hs.applied hp hmissing hack hold (hdes.symm.trans hdesired)
        | introduced hblank hdes _ =>
          have hcur := hs.applied hp hmissing hack hold (hdes.symm.trans hdesired)
          rw [hblank] at hcur
          exact absurd hcur.symm (hs.sound.ne_blank hp)
        | drained _ hcur hdes =>
          rcases hdes with hdes | hdes | hdes | hdes
          · rw [hcur]
            exact hs.applied hp hmissing hack hold (hdes.symm.trans hdesired)
          · rw [hdesired, hp] at hdes
            cases hdes
          · exact (hroot hdesired (.inl hdes)).elim
          · exact (hroot hdesired (.inr hdes)).elim
        | confirmed hcur => exact hcur.trans hdesired
      · -- An acknowledging engine is required, hence registered.
        have hmem := hs.sound.registered hp e ((hs.sound.publication hp).acked e hack)
        exact absurd hmem (FinMap.get_eq_none_iff.mp hnone)
    · rw [hfresh.unacked] at hack
      cases hack
  settled := by
    intro e new hnew hdraining hdesired
    rcases h.engine hnew with ⟨old, hold, hredirect⟩ | ⟨-, hblank⟩
    · exact hredirect.settled (hs.settled e old hold) hdraining hdesired
    · exact absurd hblank hdesired

theorem Collected.aligned {s s' : RunState} {n : Int} {orders : CollectOrders}
    (h : Collected s n orders s') (hs : Aligned s) : Aligned s' := by
  have hsound := h.sound hs.sound
  have hget : ∀ {v p}, s'.publications.get v = some p → s.publications.get v = some p :=
    h.publication
  obtain ⟨publications, rfl, -⟩ := h
  exact ⟨hsound, fun hp => hs.applied (hget hp), hs.settled⟩

/-! ## Recorded acknowledgements -/

section Recording

variable {s : RunState} {e v c : String} {now : Time} {p : DurablePublication}
variable {engine : EngineState}

theorem engine_of_recordAck {x : String} {new : EngineState}
    (hnew : (s.recordAck e v now p engine).engines.get x = some new) :
    x = e ∧ new = engine.applied v now ∨ x ≠ e ∧ s.engines.get x = some new := by
  exact FinMap.get_set_cases hnew

theorem Recording.aligned_recordAck (h : Recording s e v c now p engine) (hs : Aligned s)
    (hdirected : engine.desiredVersion = v) : Aligned (s.recordAck e v now p engine) where
  sound := h.sound_recordAck hs.sound
  applied := by
    intro u q x new hq hmissing hack hnew hdesired
    rcases engine_of_recordAck hnew with ⟨rfl, rfl⟩ | ⟨hx, hold⟩
    · exact hdirected.symm.trans hdesired
    · obtain ⟨rfl, rfl⟩ | ⟨_, hq⟩ := FinMap.get_set_cases hq
      · -- Acknowledgements still missing were missing before, and `x` was not the
        -- engine that has just acknowledged.
        obtain ⟨y, hyreq, hyack⟩ := hmissing
        have hmissing : p.Missing :=
          ⟨y, hyreq, fun hy => hyack ((FinMap.mem_keys_set _ _ _ _).mpr (.inr hy))⟩
        have hack : x ∈ p.acks.keys := ((FinMap.mem_keys_set _ _ _ _).mp hack).resolve_left hx
        exact hs.applied h.publication hmissing hack hold hdesired
      · exact hs.applied hq hmissing hack hold hdesired
  settled := by
    intro x new hnew hdraining hdesired
    rcases engine_of_recordAck hnew with ⟨rfl, rfl⟩ | ⟨-, hold⟩
    · exact hdirected.symm
    · exact hs.settled x new hold hdraining hdesired

/-- When the last missing acknowledgement comes in while all required engines are
directed to the version, all of them run it. -/
theorem Recording.fleetRuns (h : Recording s e v c now p engine) (hs : Aligned s)
    (hmissing : e ∉ p.acks.keys)
    (hkeys : ∀ x, x ∈ (p.acknowledged e now).acks.keys ↔ x ∈ p.required.keys)
    (hdirected : ∀ x ∈ p.required.keys, ∀ other, s.engines.get x = some other →
      other.desiredVersion = v) :
    FleetRuns (s.recordAck e v now p engine) v := by
  intro q hq x hx
  obtain rfl := Option.some.inj ((FinMap.get_set_self _ _ _).symm.trans hq)
  by_cases hxe : x = e
  · subst hxe
    exact ⟨engine.applied v now, FinMap.get_set_self _ _ _, rfl⟩
  · have hack : x ∈ p.acks.keys :=
      ((FinMap.mem_keys_set _ _ _ _).mp ((hkeys x).mpr hx)).resolve_left hxe
    obtain ⟨other, hother⟩ := FinMap.mem_keys_iff.mp (hs.sound.registered h.publication x hx)
    refine ⟨other, (FinMap.get_set_ne _ _ hxe).trans hother, ?_⟩
    exact hs.applied h.publication ⟨e, h.required, hmissing⟩ hack hother
      (hdirected x hx other hother)

end Recording

section Activation

variable {s : RunState} {v : String} {p : DurablePublication}
variable {engines : FinMap String EngineState}

theorem engine_of_foldlM_undrain
    (hfold : p.required.keys.foldlM (undrain v) s.engines = some engines) {x : String}
    {new : EngineState} (hnew : engines.get x = some new) :
    ∃ old, s.engines.get x = some old ∧ new.currentVersion = old.currentVersion ∧
      (x ∈ p.required.keys ∧ new.desiredVersion = v ∨ x ∉ p.required.keys ∧ new = old) := by
  rw [get_of_foldlM_undrain hfold] at hnew
  obtain ⟨old, hold, rfl⟩ := Option.map_eq_some_iff.mp hnew
  refine ⟨old, hold, ?_⟩
  split
  · rename_i hx
    exact ⟨rfl, .inl ⟨hx, rfl⟩⟩
  · rename_i hx
    exact ⟨rfl, .inr ⟨hx, rfl⟩⟩

theorem FleetRuns.activated (hruns : FleetRuns s v) (hp : s.publications.get v = some p)
    (hfold : p.required.keys.foldlM (undrain v) s.engines = some engines) :
    FleetRuns (s.activated v p engines) v := by
  intro q hq x hx
  obtain ⟨q0, hq0, hrewrite⟩ := exists_rewrite_of_activated hp hq
  rw [hrewrite.required] at hx
  obtain ⟨old, hold, hcur⟩ := hruns q0 hq0 x hx
  have hget := get_of_foldlM_undrain hfold x
  rw [hold] at hget
  refine ⟨_, hget, ?_⟩
  split <;> exact hcur

theorem Aligned.activated (hs : Aligned s) (hp : s.publications.get v = some p)
    (hacked : s.FullyAcked v) (hruns : FleetRuns s v)
    (hfold : p.required.keys.foldlM (undrain v) s.engines = some engines)
    (hsound : Sound (s.activated v p engines)) : Aligned (s.activated v p engines) where
  sound := hsound
  applied := by
    intro u q x new hq hmissing hack hnew hdesired
    obtain ⟨q0, hq0, hrewrite⟩ := exists_rewrite_of_activated hp hq
    rw [hrewrite.missing] at hmissing
    rw [hrewrite.acks] at hack
    obtain ⟨old, hold, hcur, ⟨-, hdes⟩ | ⟨-, rfl⟩⟩ := engine_of_foldlM_undrain hfold hnew
    · -- The activated version misses nothing.
      obtain rfl : v = u := hdes.symm.trans hdesired
      exact absurd hmissing (hacked.not_missing hq0)
    · exact hs.applied hq0 hmissing hack hold hdesired
  settled := by
    intro x new hnew hdraining hdesired
    obtain ⟨old, hold, hcur, ⟨hx, hdes⟩ | ⟨-, rfl⟩⟩ := engine_of_foldlM_undrain hfold hnew
    · obtain ⟨other, hother, hother_cur⟩ := hruns p hp x hx
      obtain rfl := Option.some.inj (hold.symm.trans hother)
      rw [hcur, hdes, hother_cur]
    · exact hs.settled x new hold hdraining hdesired

end Activation

section Histories

variable {σ : Type} {A : ArtifactStore σ} {checksum : Bytes → String}

/-- A recorded acknowledgement that meets the condition keeps the fleet aligned,
and if it completes the version the fleet runs it. -/
theorem Recorded.aligned {runID : String} {s s' : RunState} {e v c : String} {now : Time}
    (h : Recorded s e v c now s') (hs : Aligned s)
    (hdirected : Directed (σ := σ) runID s (.acknowledge runID e v c now)) :
    Aligned s' ∧ (s'.FullyAcked v → FleetRuns s' v) := by
  have hsound := h.sound hs.sound
  cases h with
  | pending hrec hsize =>
    obtain ⟨hdes, -⟩ := hdirected rfl _ _ hrec
    refine ⟨hrec.aligned_recordAck hs hdes, ?_⟩
    -- The version cannot be complete, since the sizes differ.
    rintro ⟨q, hq, -, hkeys⟩
    obtain rfl := Option.some.inj ((FinMap.get_set_self _ _ _).symm.trans hq)
    have hperm := (List.perm_ext_iff_of_nodup (FinMap.keys_nodup _) (FinMap.keys_nodup _)).mpr
      hkeys
    exact absurd hperm.length_eq hsize
  | completed hrec hsize hfold =>
    obtain ⟨hdes, hlast⟩ := hdirected rfl _ _ hrec
    have hacked := hrec.fullyAcked_of_size hs.sound hsize
    have hkeys := FinMap.mem_keys_iff_of_size_eq (hrec.sound_acknowledged hs.sound).acked hsize
    obtain ⟨hnew, hall⟩ := hlast fun x hx =>
      (FinMap.mem_keys_set _ _ _ _).mp ((hkeys x).mpr hx)
    have hruns := hrec.fleetRuns hs hnew hkeys hall
    refine ⟨(hrec.aligned_recordAck hs hdes).activated (FinMap.get_set_self _ _ _) hacked hruns
      hfold hsound, fun _ => hruns.activated (FinMap.get_set_self _ _ _) hfold⟩

theorem Saves.aligned {runID : String} {s s' : RunState} {call : Call σ}
    (h : Saves A checksum runID s call s') (hs : Aligned s) (hdirected : Directed runID s call) :
    Aligned s' := by
  rcases h.cases with h | ⟨n, orders, -, h⟩ | ⟨e, v, c, now, hcall, h⟩
  · exact h.invariant hs fun _ _ ha hab => hab.aligned ha
  · exact h.aligned hs
  · rw [hcall] at hdirected
    exact (h.aligned hs hdirected).1

theorem aligned_of_run {artifacts : σ} {requests : List (Request σ)} {w : World σ}
    (hrun : Run (Guarded (Step A checksum) (OnRuns Directed)) (World.initial artifacts)
      requests w) (runID : String) : Aligned (w.run runID) :=
  run_invariant Directed aligned_empty
    (fun _ _ _ _ hs _ hguard hsaves => hsaves.aligned hs hguard) hrun runID

/-- In every history of the service whose acknowledgements find the fleet directed
at their version: no engine is done draining without running the version it is
directed to; and whenever an acknowledgement completes a version and makes it
active, every engine the version requires runs it. -/
theorem fleet_agrees_at_activation (A : ArtifactStore σ) (checksum : Bytes → String)
    (artifacts : σ) (requests : List (Request σ)) (w : World σ)
    (hrun : Run (Guarded (Step A checksum) (OnRuns Directed)) (World.initial artifacts)
      requests w) (runID : String) :
    Settled (w.run runID) ∧
    ∀ e v c now outage w',
      Guarded (Step A checksum) (OnRuns Directed) w
        ⟨.acknowledge runID e v c now, outage⟩ w' →
      CompletesActivation (w.run runID) (w'.run runID) v → FleetRuns (w'.run runID) v := by
  have hs := aligned_of_run hrun runID
  refine ⟨hs.settled, ?_⟩
  rintro e v c now outage w' ⟨hstep, hdirected⟩ ⟨⟨p, hp, hmissing⟩, hacked, hactive⟩
  rcases hstep.touches runID with hsame | ⟨-, hsaves⟩
  · rw [hsame] at hacked
    exact absurd hmissing (hacked.not_missing hp)
  · cases hsaves with
    | acknowledge hsaved =>
      rcases acknowledge_cases hsaved with heffects | hrecorded
      · -- Without a recorded acknowledgement the version still misses one.
        have hstill := heffects.invariant
          (I := fun b => ∃ q, b.publications.get v = some q ∧ q.Missing) ⟨p, hp, hmissing⟩ ?_
        · obtain ⟨q, hq, hq_missing⟩ := hstill
          exact absurd hq_missing (hacked.not_missing hq)
        · rintro a b ⟨q, hq, hq_missing⟩ hab
          obtain ⟨q', hq', hrewrite⟩ := hab.present hq
          exact ⟨q', hq', hrewrite.missing.mpr hq_missing⟩
      · exact (hrecorded.aligned hs (hdirected runID)).2 hacked

end Histories

namespace Trial

/-- Two versions, one after the other, on two engines; the second still waits for `b`. -/
def twoRollouts : Calls :=
  [.registerEngine "run" "a" "", .registerEngine "run" "b" "",
    .publish (manifest "v1" "full" "") ["a", "b"] 100 0, .materialize "run" "v1",
    .acknowledge "run" "b" "v1" digest 1, .acknowledge "run" "a" "v1" digest 2,
    .publish (manifest "v2" "full" "") ["a", "b"] 100 3, .materialize "run" "v2",
    .acknowledge "run" "a" "v2" digest 4]

def lastAck : Call (FinMap String Bytes) := .acknowledge "run" "b" "v2" digest 5

/-- The acknowledgement is the first one by its engine, and the engines that its version requires
are directed to the version. -/
def onTarget (w : World (FinMap String Bytes)) : Call (FinMap String Bytes) → Bool
  | .acknowledge r e v _ _ =>
    ((w.run r).publications.get v).all fun p => e ∉ p.acks.keys && p.required.keys.all fun x =>
      ((w.run r).engines.get x).all fun other => other.desiredVersion = v
  | _ => true

theorem directed_of_onTarget (w : World (FinMap String Bytes)) (call : Call (FinMap String Bytes))
    (h : onTarget w call) (runID : String) : Directed runID (w.run runID) call := by
  cases call with
  | acknowledge r e v c now =>
    rintro rfl p engine hrec
    simp only [onTarget, hrec.publication, Option.all_some, Bool.and_eq_true, decide_eq_true_eq,
      List.all_eq_true, Option.all_eq_true_iff_get] at h
    obtain ⟨hfirst, hall⟩ := h
    have hdirected : ∀ x ∈ p.required.keys, ∀ other, (w.run r).engines.get x = some other →
        other.desiredVersion = v := by
      intro x hx other hother
      simpa [hother] using hall x hx
    exact ⟨hdirected e hrec.required engine hrec.registered, fun _ => ⟨hfirst, hdirected⟩⟩
  | _ => trivial

theorem publication_twoRollouts :
    (((after twoRollouts).run "run").publications.get "v2").map
      (fun p => (p.required.keys, p.acks.keys)) = some (["b", "a"], ["a"]) := by decide

theorem publication_lastAck :
    (((after (twoRollouts ++ [lastAck])).run "run").publications.get "v2").map
      (fun p => (p.required.keys, p.acks.keys)) = some (["b", "a"], ["b", "a"]) := by
  decide +kernel

end Trial

theorem fleet_agrees_at_activation_lastAck :
    CompletesActivation ((Trial.after Trial.twoRollouts).run "run")
      ((Trial.after (Trial.twoRollouts ++ [Trial.lastAck])).run "run") "v2" ∧
    FleetRuns ((Trial.after (Trial.twoRollouts ++ [Trial.lastAck])).run "run") "v2" := by
  have hcompletes : CompletesActivation ((Trial.after Trial.twoRollouts).run "run")
      ((Trial.after (Trial.twoRollouts ++ [Trial.lastAck])).run "run") "v2" := by
    obtain ⟨p, hp, hkeys⟩ := Option.map_eq_some_iff.mp Trial.publication_twoRollouts
    obtain ⟨q, hq, hkeys'⟩ := Option.map_eq_some_iff.mp Trial.publication_lastAck
    rw [Prod.mk.injEq] at hkeys hkeys'
    refine ⟨⟨p, hp, "b", ?_, ?_⟩, ⟨q, hq, ?_, ?_⟩, by decide +kernel⟩
    · simp [hkeys.1]
    · simp [hkeys.2]
    · simp [hkeys'.1]
    · simp [hkeys'.1, hkeys'.2]
  have hrun := Trial.guarded_after Trial.directed_of_onTarget
    (show Trial.Passes Trial.onTarget Trial.twoRollouts by decide +kernel)
  exact ⟨hcompletes, (fleet_agrees_at_activation _ _ _ _ _ hrun "run").2 "b" "v2" Trial.digest 5
    .none _ ⟨⟨trivial, rfl⟩, Trial.directed_of_onTarget _ _ (by decide +kernel)⟩ hcompletes⟩

namespace Trial

def overlap : Calls :=
  [.registerEngine "run" "a" "", .registerEngine "run" "b" "",
    .publish (manifest "v1" "full" "") ["a", "b"] 100 0, .materialize "run" "v1",
    .acknowledge "run" "a" "v1" digest 1,
    .publish (manifest "v2" "full" "") ["a"] 100 2, .materialize "run" "v2",
    .acknowledge "run" "a" "v2" digest 3]

def lateAck : Call (FinMap String Bytes) := .acknowledge "run" "b" "v1" digest 4

theorem publication_overlap :
    (((after overlap).run "run").publications.get "v1").map
      (fun p => (p.required.keys, p.acks.keys)) = some (["b", "a"], ["a"]) := by decide

theorem publication_lateAck :
    (((after (overlap ++ [lateAck])).run "run").publications.get "v1").map
      (fun p => (p.required.keys, p.acks.keys)) = some (["b", "a"], ["b", "a"]) := by decide

theorem engine_lateAck :
    (((after (overlap ++ [lateAck])).run "run").engines.get "a").map
      (fun engine => (engine.desiredVersion, engine.currentVersion, engine.draining)) =
        some ("v1", "v2", false) := by decide

end Trial

/-- The late acknowledgement activates `v1` while engine `a`, which `v1` requires,
runs `v2`, and leaves `a` directed to `v1` without draining it. -/
theorem split_fleet_activation :
    ∃ w w', Run (Step Trial.store fun _ => Trial.digest)
        (World.initial Trial.artifacts) (Trial.overlap.map Trial.request) w ∧
      Step Trial.store (fun _ => Trial.digest) w
        (Trial.request Trial.lateAck) w' ∧
      CompletesActivation (w.run "run") (w'.run "run") "v1" ∧
      ¬FleetRuns (w'.run "run") "v1" ∧ ¬Settled (w'.run "run") := by
  obtain ⟨p, hp, hkeys⟩ := Option.map_eq_some_iff.mp Trial.publication_overlap
  obtain ⟨q, hq, hkeys'⟩ := Option.map_eq_some_iff.mp Trial.publication_lateAck
  obtain ⟨engine, hengine, hfields⟩ := Option.map_eq_some_iff.mp Trial.engine_lateAck
  simp only [Prod.mk.injEq] at hkeys hkeys' hfields
  obtain ⟨hdesired, hcurrent, hdraining⟩ := hfields
  refine ⟨Trial.after Trial.overlap,
    Trial.after (Trial.overlap ++ [Trial.lateAck]),
    Trial.run_after (by decide), ⟨trivial, rfl⟩, ⟨⟨p, hp, "b", ?_, ?_⟩, ⟨q, hq, ?_, ?_⟩, ?_⟩,
    ?_, ?_⟩
  · simp [hkeys.1]
  · simp [hkeys.2]
  · simp [hkeys'.1]
  · simp [hkeys'.1, hkeys'.2]
  · decide
  · intro hruns
    obtain ⟨other, hother, hcur⟩ := hruns q hq "a" (by simp [hkeys'.1])
    obtain rfl := Option.some.inj (hengine.symm.trans hother)
    rw [hcurrent] at hcur
    exact absurd hcur (by decide)
  · intro hsettled
    have hcur := hsettled "a" engine hengine hdraining (by rw [hdesired]; decide)
    rw [hcurrent, hdesired] at hcur
    exact absurd hcur (by decide)

end Weights
end Skyscale
