import Skyscale.Weights.Soundness

/-!
# Which engines an expiry retargets

`Expire` walks over the publications.  For one that is due it redirects the required
engines without acknowledgement to the fallback version, whatever version they are
directed to at that moment.

* `expireOne_spec` is one publication and `foldlM_expireOne_spec` the loop, in any order:
  an engine is redirected exactly when it missed a due publication.
* `expiry_retargets_iff` compares this with the engines whose desired version expired.
  The two sets differ in two ways: an engine that acknowledged stays directed to the
  expired version, and an engine that missed an old publication is taken off a newer one.
-/

namespace Skyscale
namespace Weights

open Lib

/-! ## Due publications -/

/-- `Expire` fails the publication. -/
def DurablePublication.due (now : Time) (p : DurablePublication) : Bool :=
  p.state.inFlight && decide (p.deadline ≤ now)

/-- The engine is required by the publication and has not acknowledged it. -/
def DurablePublication.missing (p : DurablePublication) (e : String) : Bool :=
  decide (e ∈ p.required.keys ∧ e ∉ p.acks.keys)

/-- The version is due. -/
def RunState.dueAt (s : RunState) (now : Time) (v : String) : Bool :=
  (s.publications.get v).any (DurablePublication.due now)

/-- The engine missed the version, which is due. -/
def RunState.missedAt (s : RunState) (now : Time) (e v : String) : Bool :=
  (s.publications.get v).any fun p => p.due now && p.missing e

/-- The engine after a timeout. -/
def EngineState.timedOut (fallback : String) (engine : EngineState) : EngineState :=
  { engine with draining := true, error := "weight acknowledgement timeout",
                desiredVersion := fallback }

/-- The engine after a loop that found a missed publication or did not. -/
def EngineState.after (fallback : String) (missed : Bool) (engine : EngineState) : EngineState :=
  if missed then engine.timedOut fallback else engine

theorem EngineState.after_or (fallback : String) (b b' : Bool) (engine : EngineState) :
    (engine.after fallback b).after fallback b' = engine.after fallback (b || b') := by
  cases b <;> cases b' <;> rfl

/-! ## The loop -/

section

variable {s s' : RunState} {expired expired' : List String} {now : Time}

/-- One publication of `Expire`. -/
theorem expireOne_spec {v : String} (h : expireOne now (s, expired) v = some (s', expired')) :
    s'.runID = s.runID ∧ s'.fallback = s.fallback ∧
      (∀ u, u ≠ v → s'.publications.get u = s.publications.get u) ∧
      (∀ u, u ∈ expired' ↔ u ∈ expired ∨ u = v ∧ s.dueAt now v = true) ∧
      ∀ e, s'.engines.get e =
        (s.engines.get e).map (EngineState.after s.fallback (s.missedAt now e v)) := by
  have hsame : ∀ {missed : String → Bool}, (∀ e, missed e = false) → ∀ e,
      s.engines.get e = (s.engines.get e).map (EngineState.after s.fallback (missed e)) := by
    intro missed hmissed e
    rw [hmissed e]
    exact Option.map_id'.symm
  unfold expireOne at h
  cases hp : s.publications.get v with
  | none =>
    simp only [hp, Option.some.injEq, Prod.mk.injEq] at h
    obtain ⟨rfl, rfl⟩ := h
    refine ⟨rfl, rfl, fun _ _ => rfl, ?_, hsame fun e => by simp [RunState.missedAt, hp]⟩
    intro u
    simp [RunState.dueAt, hp]
  | some p =>
    simp only [hp] at h
    split at h
    · rename_i hdue
      split at h
      · cases h
      rename_i engines hfold
      simp only [Option.some.injEq, Prod.mk.injEq] at h
      obtain ⟨rfl, rfl⟩ := h
      refine ⟨rfl, rfl, fun u hu => FinMap.get_set_ne _ _ hu, ?_, ?_⟩
      · intro u
        simp [RunState.dueAt, hp, DurablePublication.due, hdue]
      · intro e
        -- The inner loop writes each missing engine once.
        rw [FinMap.get_of_foldlM_modifyWhere p.required.keys_nodup hfold]
        congr 1
        funext engine
        by_cases hmiss : e ∈ p.required.keys ∧ e ∉ p.acks.keys
        · simp [RunState.missedAt, hp, DurablePublication.due, DurablePublication.missing, hdue,
            hmiss, EngineState.after, EngineState.timedOut, FinMap.get_eq_none_iff]
        · have htouch : ¬(e ∈ p.required.keys ∧ (p.acks.get e).isNone = true) := by
            rwa [Option.isNone_iff_eq_none, FinMap.get_eq_none_iff]
          rw [if_neg htouch]
          simp [RunState.missedAt, hp, DurablePublication.missing, hmiss, EngineState.after]
    · rename_i hdue
      simp only [Option.some.injEq, Prod.mk.injEq] at h
      obtain ⟨rfl, rfl⟩ := h
      have hnot : p.due now = false := by
        simpa [DurablePublication.due] using hdue
      refine ⟨rfl, rfl, fun _ _ => rfl, ?_, hsame fun e => by simp [RunState.missedAt, hp, hnot]⟩
      intro u
      simp [RunState.dueAt, hp, hnot]

/-- The loop of `Expire` over distinct versions. -/
theorem foldlM_expireOne_spec {order : List String} (hnodup : order.Nodup)
    (h : order.foldlM (expireOne now) (s, expired) = some (s', expired')) :
    s'.runID = s.runID ∧ s'.fallback = s.fallback ∧
      (∀ u, u ∈ expired' ↔ u ∈ expired ∨ u ∈ order ∧ s.dueAt now u = true) ∧
      ∀ e, s'.engines.get e =
        (s.engines.get e).map (EngineState.after s.fallback (order.any (s.missedAt now e))) := by
  induction order generalizing s expired with
  | nil =>
    simp only [List.foldlM_nil, Option.pure_def, Option.some.injEq, Prod.mk.injEq] at h
    obtain ⟨rfl, rfl⟩ := h
    refine ⟨rfl, rfl, fun u => by simp, fun e => ?_⟩
    exact Option.map_id'.symm
  | cons v order ih =>
    obtain ⟨hnotmem, hnodup⟩ := List.nodup_cons.mp hnodup
    rw [List.foldlM_cons] at h
    obtain ⟨⟨s1, expired1⟩, hfirst, hrest⟩ := Option.bind_eq_some_iff.mp h
    obtain ⟨hid1, hfallback1, hother, hexpired1, hengines1⟩ := expireOne_spec hfirst
    obtain ⟨hid, hfallback, hexpired, hengines⟩ := ih hnodup hrest
    -- The rest of the loop reads records the first publication did not touch.
    have hget : ∀ u ∈ order, s1.publications.get u = s.publications.get u := by
      intro u hu
      refine hother u ?_
      rintro rfl
      exact hnotmem hu
    have hdue : ∀ u ∈ order, s1.dueAt now u = s.dueAt now u := by
      intro u hu
      rw [RunState.dueAt, RunState.dueAt, hget u hu]
    have hmissed : ∀ e, order.any (s1.missedAt now e) = order.any (s.missedAt now e) := by
      intro e
      rw [Bool.eq_iff_iff, List.any_eq_true, List.any_eq_true]
      refine exists_congr fun u => and_congr_right fun hu => ?_
      rw [RunState.missedAt, RunState.missedAt, hget u hu]
    refine ⟨hid.trans hid1, hfallback.trans hfallback1, ?_, ?_⟩
    · intro u
      rw [hexpired, hexpired1, List.mem_cons]
      constructor
      · rintro ((hu | ⟨rfl, hv⟩) | ⟨hu, hd⟩)
        · exact .inl hu
        · exact .inr ⟨.inl rfl, hv⟩
        · exact .inr ⟨.inr hu, by rwa [← hdue u hu]⟩
      · rintro (hu | ⟨rfl | hu, hd⟩)
        · exact .inl (.inl hu)
        · exact .inl (.inr ⟨rfl, hd⟩)
        · exact .inr ⟨hu, by rwa [hdue u hu]⟩
    · intro e
      rw [hengines, hengines1, hfallback1, hmissed, Option.map_map, List.any_cons]
      congr 1
      funext engine
      exact EngineState.after_or _ _ _ _

end

/-! ## Exactly the affected engines -/

/-- The engine missed a due publication. -/
def RunState.missed (s : RunState) (now : Time) (e : String) : Bool :=
  s.publications.keys.any (s.missedAt now e)

/-- Between two states of a run, the engines directed to an expired version are
redirected to the fallback and the others keep their direction and their flag. -/
def Retargets (s s' : RunState) (expired : List String) : Prop :=
  ∀ e engine, s.engines.get e = some engine → ∃ engine', s'.engines.get e = some engine' ∧
    (engine.desiredVersion ∈ expired → engine'.desiredVersion = s'.fallback) ∧
    (engine.desiredVersion ∉ expired →
      engine'.desiredVersion = engine.desiredVersion ∧ engine'.draining = engine.draining)

/-- An engine missed a due publication exactly when its desired version is due, except
where the timeout makes no difference to it. -/
def MissesWhatItAwaits (s : RunState) (now : Time) : Prop :=
  ∀ e engine, s.engines.get e = some engine →
    (s.dueAt now engine.desiredVersion = true →
      s.missed now e = true ∨ engine.desiredVersion = s.fallback) ∧
    (s.dueAt now engine.desiredVersion = false →
      s.missed now e = false ∨ engine.desiredVersion = s.fallback ∧ engine.draining = true)

theorem expire_spec {s s' : RunState} {now : Time} {order expired : List String}
    (horder : order.Perm s.publications.keys)
    (h : expire s now order = .commit s' expired) :
    s'.runID = s.runID ∧ s'.fallback = s.fallback ∧
      (∀ v, v ∈ expired ↔ s.dueAt now v = true) ∧
      ∀ e, s'.engines.get e =
        (s.engines.get e).map (EngineState.after s.fallback (s.missed now e)) := by
  unfold expire at h
  split at h
  · cases h
  rename_i s1 expired1 hfold
  obtain ⟨rfl, rfl⟩ := Outcome.commit.inj h
  have hnodup : order.Nodup := horder.nodup_iff.mpr s.publications.keys_nodup
  obtain ⟨hid, hfallback, hexpired, hengines⟩ := foldlM_expireOne_spec hnodup hfold
  refine ⟨hid, hfallback, ?_, ?_⟩
  · intro v
    rw [List.mem_insertionSort, hexpired]
    constructor
    · rintro (hv | ⟨-, hv⟩)
      · cases hv
      · exact hv
    · intro hv
      obtain ⟨p, hp, -⟩ := (Option.any_eq_true _ _).mp hv
      exact .inr ⟨horder.mem_iff.mpr (FinMap.mem_keys_of_get hp), hv⟩
  · intro e
    rw [hengines e, RunState.missed, horder.any_eq]

theorem retargets_iff {s s' : RunState} {now : Time} {expired : List String}
    (hfallback : s'.fallback = s.fallback)
    (hexpired : ∀ v, v ∈ expired ↔ s.dueAt now v = true)
    (hengines : ∀ e, s'.engines.get e =
      (s.engines.get e).map (EngineState.after s.fallback (s.missed now e))) :
    Retargets s s' expired ↔ MissesWhatItAwaits s now := by
  refine forall_congr' fun e => forall_congr' fun engine => imp_congr_right fun hengine => ?_
  rw [hengines e, hengine, Option.map_some, hfallback, hexpired]
  -- Both sides speak about the one engine after the loop.
  cases hmissed : s.missed now e with
  | true =>
    simp only [EngineState.after, EngineState.timedOut, if_true, Option.some.injEq,
      exists_eq_left', Bool.not_eq_true]
    constructor
    · rintro ⟨-, hkept⟩
      refine ⟨fun _ => .inl trivial, fun hd => .inr ?_⟩
      obtain ⟨hversion, hdraining⟩ := hkept hd
      exact ⟨hversion.symm, hdraining.symm⟩
    · rintro ⟨-, hkept⟩
      refine ⟨fun _ => trivial, fun hd => ?_⟩
      rcases hkept hd with hfalse | ⟨hversion, hdraining⟩
      · cases hfalse
      · exact ⟨hversion.symm, hdraining.symm⟩
  | false =>
    simp only [EngineState.after, if_false, Option.some.injEq, exists_eq_left',
      Bool.not_eq_true, Bool.false_eq_true]
    constructor
    · rintro ⟨hdue, -⟩
      exact ⟨fun hd => .inr (hdue hd), fun _ => .inl trivial⟩
    · rintro ⟨hdue, -⟩
      refine ⟨fun hd => ?_, fun _ => ⟨trivial, trivial⟩⟩
      rcases hdue hd with hfalse | hversion
      · cases hfalse
      · exact hversion

section

variable {σ : Type}

/-- In every history and for every iteration order, `Expire` succeeds and fails the due
versions; it retargets exactly the engines directed to them when every engine misses what
it awaits and nothing else. -/
theorem expiry_retargets_iff (A : ArtifactStore σ) (checksum : Bytes → String) (artifacts : σ)
    (requests : List (Request σ)) (w : World σ)
    (hrun : Run (Step A checksum) (World.initial artifacts) requests w) (runID : String)
    (now : Time) (order : List String) (horder : order.Perm (w.run runID).publications.keys) :
    ∃ expired w', Service.expire w .none runID now order = (.ok expired, w') ∧
      (∀ v, v ∈ expired ↔ (w.run runID).dueAt now v = true) ∧
      (Retargets (w.run runID) (w'.run runID) expired ↔
        MissesWhatItAwaits (w.run runID) now) := by
  have hid := runID_of_run hrun runID
  have hsome : ∃ acc, order.foldlM (expireOne now) (w.run runID, []) = some acc :=
    Sound.foldlM_expireOne_isSome (sound_of_run hrun runID) now order
  obtain ⟨⟨s', expired⟩, hfold⟩ := hsome
  have hcommit : expire (w.run runID) now order = .commit s' (expired.insertionSort (· ≤ ·)) := by
    unfold expire
    rw [hfold]
  obtain ⟨hsame, hfallback, hexpired, hengines⟩ := expire_spec horder hcommit
  refine ⟨_, w.store s' w.artifacts, ?_, hexpired, ?_⟩
  · unfold Service.expire
    rw [World.withRun_eq Outage.load_none hid, hcommit]
    rfl
  · rw [World.run_store_of_eq w w.artifacts (hsame.trans hid)]
    exact retargets_iff hfallback hexpired hengines

end

namespace Trial

def unanswered : Calls :=
  [.registerEngine "run" "a" "", .publish (manifest "v1" "full" "") ["a"] 60 0,
    .materialize "run" "v1"]

def halfAcknowledged : Calls :=
  [.registerEngine "run" "a" "", .registerEngine "run" "b" "",
    .publish (manifest "v1" "full" "") ["a", "b"] 60 0, .materialize "run" "v1",
    .acknowledge "run" "a" "v1" digest 1]

def overtaken : Calls :=
  [.registerEngine "run" "a" "", .publish (manifest "v1" "full" "") ["a"] 60 0,
    .publish (manifest "v2" "full" "") ["a"] 600 1]

end Trial

open Trial in
theorem expiry_retargets_iff_unanswered :
    ∃ expired w', Service.expire (after unanswered) .none "run" 60 ["v1"] = (.ok expired, w') ∧
      Retargets ((after unanswered).run "run") (w'.run "run") expired := by
  obtain ⟨expired, w', hok, -, hiff⟩ := expiry_retargets_iff store (fun _ => digest) artifacts _ _
    (run_after (by decide : Valid unanswered)) "run" 60 ["v1"] (by decide)
  refine ⟨expired, w', hok, hiff.mpr ?_⟩
  intro e engine hengine
  have hmem : e ∈ ((after unanswered).run "run").engines.keys := FinMap.mem_keys_of_get hengine
  have hkeys : ((after unanswered).run "run").engines.keys = ["a"] := by with_unfolding_all rfl
  rw [hkeys, List.mem_singleton] at hmem
  subst hmem
  have hmissed : ((after unanswered).run "run").missed 60 "a" = true := by decide
  have hdesired : ((after unanswered).run "run").engines.get "a" =
      some ⟨"a", "v1", "", "", 0, "", true⟩ := by with_unfolding_all rfl
  obtain rfl := Option.some.inj (hdesired.symm.trans hengine)
  exact ⟨fun _ => .inl hmissed, fun hnot => absurd hnot (by decide)⟩

open Trial in
/-- An engine that acknowledged stays directed to the version that expired, and an engine
directed to a newer version is taken off it. -/
theorem expiry_misdirects :
    (∃ w' engine, Run (Step store fun _ => digest) (World.initial artifacts)
        (halfAcknowledged.map request) (after halfAcknowledged) ∧
      Service.expire (after halfAcknowledged) .none "run" 60 ["v1"] = (.ok ["v1"], w') ∧
      (w'.run "run").engines.get "a" = some engine ∧ engine.desiredVersion = "v1" ∧
      (w'.run "run").fallback = "") ∧
    ∃ w' engine, Run (Step store fun _ => digest) (World.initial artifacts)
        (overtaken.map request) (after overtaken) ∧
      (((after overtaken).run "run").engines.get "a").map EngineState.desiredVersion =
        some "v2" ∧
      Service.expire (after overtaken) .none "run" 60 ["v2", "v1"] = (.ok ["v1"], w') ∧
      (w'.run "run").engines.get "a" = some engine ∧ engine.desiredVersion = "" := by
  refine ⟨⟨_, _, run_after (by decide), Prod.ext (by with_unfolding_all rfl) rfl,
    by with_unfolding_all rfl, by with_unfolding_all rfl, by with_unfolding_all rfl⟩, ?_⟩
  refine ⟨_, _, run_after (by decide), by with_unfolding_all rfl,
    Prod.ext (by with_unfolding_all rfl) rfl, by with_unfolding_all rfl,
    by with_unfolding_all rfl⟩

end Weights
end Skyscale
