import Skyscale.Weights.Soundness

/-!
# Rollbacks and late acknowledgements

`Rollback` makes the last good version active and directs every engine to it.  It
does not touch the publications that were still being rolled out: they stay ready or
activating, with the acknowledgements they have.  The acknowledgement that completes
such a publication activates it after the rollback (`rollback_undone`).

`NotCompleting` is the condition on acknowledgements that excludes this case.  In
every continuation that meets it, also one with further publications and rollbacks,
the version the rollback returned stays active (`rollback_final`).

At most one version is in state `active` (`one_active_version`).
-/

namespace Skyscale
namespace Weights

open Lib

/-- The condition on acknowledgements: one that `Acknowledge` records (in time, by a required
engine, with the checksum of the publication) for a version other than the active one is not the
last that this version misses. -/
def NotCompleting {σ : Type} (runID : String) (s : RunState) : Call σ → Prop
  | .acknowledge r e v c now =>
    r = runID → ∀ p engine, Recording s e v c now p engine → v ≠ s.active →
      ∃ x ∈ p.required.keys, x ≠ e ∧ x ∉ p.acks.keys
  | _ => True

/-- The run has been rolled back to `r` and is still there. -/
structure RolledBackTo (r : String) (s : RunState) : Prop where
  sound : Sound s
  active : s.active = r
  lastGood : s.lastGood = r

theorem Effect.rolledBackTo {r : String} {s s' : RunState} (h : Effect s s')
    (hs : s.active = r ∧ s.lastGood = r) : s'.active = r ∧ s'.lastGood = r := by
  obtain ⟨hactive, hlast⟩ := h.roots
  constructor
  · rcases hactive with hactive | hactive
    · exact hactive.trans hs.1
    · exact hactive.trans hs.2
  · rcases hlast with hlast | hlast
    · exact hlast.trans hs.2
    · exact hlast.trans hs.1

theorem Recorded.rolledBackTo {σ : Type} {runID r : String} {s s' : RunState} {e v c : String}
    {now : Time} (h : Recorded s e v c now s') (hs : RolledBackTo r s) (hr : r ≠ "")
    (hguard : NotCompleting (σ := σ) runID s (.acknowledge runID e v c now)) :
    s'.active = r ∧ s'.lastGood = r := by
  cases h with
  | pending => exact ⟨hs.active, hs.lastGood⟩
  | @completed p engine engines hrec hsize hfold =>
    have hlast : (if s.lastGood = "" then v else s.lastGood) = r := by
      rw [hs.lastGood, if_neg hr]
    by_cases hv : v = s.active
    · exact ⟨hv.trans hs.active, hlast⟩
    · -- All required engines have acknowledged, so none is missing.
      obtain ⟨x, hx, hne, hmissing⟩ := hguard rfl p engine hrec hv
      have hkeys := FinMap.mem_keys_iff_of_size_eq (hrec.sound_acknowledged hs.sound).acked hsize
      rcases (FinMap.mem_keys_set _ _ _ _).mp ((hkeys x).mpr hx) with heq | hmem
      · exact absurd heq hne
      · exact absurd hmem hmissing

section Histories

variable {σ : Type} {A : ArtifactStore σ} {checksum : Bytes → String}

theorem Saves.rolledBackTo {runID r : String} {s s' : RunState} {call : Call σ}
    (h : Saves A checksum runID s call s') (hs : RolledBackTo r s) (hr : r ≠ "")
    (hguard : NotCompleting runID s call) : RolledBackTo r s' := by
  have hroots : s'.active = r ∧ s'.lastGood = r := by
    rcases h.cases with h | ⟨n, orders, -, publications, rfl, -⟩ | ⟨e, v, c, now, hcall, h⟩
    · exact h.invariant (I := fun s => s.active = r ∧ s.lastGood = r) ⟨hs.active, hs.lastGood⟩
        fun _ _ ha hab => hab.rolledBackTo ha
    · exact ⟨hs.active, hs.lastGood⟩
    · rw [hcall] at hguard
      exact h.rolledBackTo hs hr hguard
  exact ⟨h.sound hs.sound, hroots.1, hroots.2⟩

theorem rollback_ok {w w' : World σ} {outage : Outage} {runID reason r : String}
    (hsound : Sound (w'.run runID))
    (h : Service.rollback w outage runID reason = (.ok r, w')) :
    r ≠ "" ∧ RolledBackTo r (w'.run runID) := by
  obtain ⟨-, hid, ⟨hout, -⟩ | ⟨state, hout, rfl⟩⟩ := World.withRun_ok h
  · simp only [rollback] at hout
    split at hout <;> cases hout
  · simp only [rollback] at hout
    split at hout
    · cases hout
    rename_i hlast
    obtain ⟨rfl, rfl⟩ := Outcome.commit.inj hout
    refine ⟨hlast, hsound, ?_, ?_⟩
    · rw [World.run_store, if_pos hid.symm]
    · rw [World.run_store, if_pos hid.symm]

/-- After every history of the service and a rollback of a run that returns `r`: in
every continuation in which no acknowledgement completes a version of the run, other
than the active one, that is still being rolled out, `r` stays active. -/
theorem rollback_final (A : ArtifactStore σ) (checksum : Bytes → String) (artifacts : σ)
    (requests continuation : List (Request σ)) (w w1 w2 : World σ) (outage : Outage)
    (runID reason r : String)
    (hrun : Run (Step A checksum) (World.initial artifacts) requests w)
    (hrollback : Service.rollback w outage runID reason = (.ok r, w1))
    (hrest : Run (Guarded (Step A checksum) fun w request =>
      NotCompleting runID (w.run runID) request.call) w1 continuation w2) :
    (w2.run runID).active = r := by
  have hstep : Step A checksum w ⟨.rollback runID reason, outage⟩ w1 :=
    ⟨trivial, by simp only [serve, hrollback]⟩
  have hsound : Sound (w1.run runID) := sound_of_run (hrun.snoc hstep) runID
  obtain ⟨hr, hstart⟩ := rollback_ok hsound hrollback
  have hend : RolledBackTo r (w2.run runID) := by
    refine hrest.invariant (I := fun w => RolledBackTo r (w.run runID)) hstart ?_
    rintro a request b ha ⟨hstep, hguard⟩
    rcases hstep.touches runID with hsame | ⟨-, hsaves⟩
    · rw [hsame]
      exact ha
    · exact hsaves.rolledBackTo ha hr hguard
  exact hend.active

end Histories

namespace Trial

def rollout : Calls :=
  [.registerEngine "run" "a" "", .publish (manifest "v1" "full" "") ["a"] 100 0,
    .materialize "run" "v1", .acknowledge "run" "a" "v1" digest 1,
    .publish (manifest "v2" "full" "") ["a"] 100 2, .materialize "run" "v2"]

def rolledBack : World (FinMap String Bytes) :=
  serve store (fun _ => digest) (after rollout) (request (.rollback "run" "bad canary"))

theorem rollback_rollout :
    Service.rollback (after rollout) .none "run" "bad canary" = (.ok "v1", rolledBack) :=
  Prod.ext rfl rfl

end Trial

theorem rollback_final_confirmed :
    ((serve Trial.store (fun _ => Trial.digest) Trial.rolledBack
      (Trial.request (.acknowledge "run" "a" "v1" Trial.digest 3))).run "run").active =
        "v1" := by
  have hrun := Trial.run_after (show Trial.Valid Trial.rollout by decide)
  refine rollback_final _ _ _ _ [Trial.request (.acknowledge "run" "a" "v1" Trial.digest 3)]
    _ _ _ _ "run" _ "v1" hrun Trial.rollback_rollout (.snoc .nil ⟨⟨trivial, rfl⟩, ?_⟩)
  intro _ p _ _ hv
  exact absurd rfl hv

/-- A late acknowledgement undoes a rollback: `v2` was ready when the run was rolled
back to `v1`, and its last acknowledgement, which arrives afterwards, activates it. -/
theorem rollback_undone :
    Run (Step Trial.store fun _ => Trial.digest) (World.initial Trial.artifacts)
        (Trial.rollout.map Trial.request) (Trial.after Trial.rollout) ∧
      Service.rollback (Trial.after Trial.rollout) .none "run" "bad canary" =
        (.ok "v1", Trial.rolledBack) ∧
      ∃ w, Step Trial.store (fun _ => Trial.digest) Trial.rolledBack
          (Trial.request (.acknowledge "run" "a" "v2" Trial.digest 3)) w ∧
        (w.run "run").active = "v2" :=
  ⟨Trial.run_after (by decide), Trial.rollback_rollout, _, ⟨trivial, rfl⟩, rfl⟩

/-! ## One version at a time -/

/-- No version but the active one is in state `active`, and an active version comes with a last
good one. -/
structure RunState.Sole (s : RunState) : Prop where
  only : ∀ v p, s.publications.get v = some p → p.state = .active → v = s.active
  rooted : s.active = "" ↔ s.lastGood = ""

section Sole

variable {s s' : RunState} {v : String} {p : DurablePublication}

/-- A rollback leaves no version in state `active`. -/
theorem RunState.Sole.rollBackActive (hs : s.Sole)
    (hp : (rollBackActive s).get v = some p) : p.state ≠ .active := by
  have honly := hs.only
  unfold Weights.rollBackActive at hp
  split at hp <;> grind

theorem Effect.sole (h : Effect s s') (hs : s.Sole) : s'.Sole where
  only v p hp hactive := by
    have honly := hs.only
    cases h with
    | registered | introduced | flagged | confirmed | promoted => exact honly v p hp hactive
    | published hfresh _ =>
      have hstate := hfresh.published
      grind
    | readied | failed | expired =>
      grind [RunState.withPublication, DurablePublication.readied]
    | rolledBack => exact absurd hactive (hs.rollBackActive hp)
  rooted := by
    cases h with
    | promoted | rolledBack => exact Iff.rfl
    | _ => exact hs.rooted

theorem Recorded.sole {e c : String} {now : Time} (h : Recorded s e v c now s')
    (hsound : Sound s) (hs : s.Sole) : s'.Sole := by
  have hrecord : ∀ p engine u q,
      (s.recordAck e v now p engine).publications.get u = some q → q.state = .active →
      u = s.active := by
    have honly := hs.only
    grind [RunState.recordAck, RunState.withPublication, RunState.withEngine,
      DurablePublication.acknowledged]
  cases h with
  | pending => exact ⟨hrecord _ _, hs.rooted⟩
  | @completed p engine engines hrec _ _ =>
    have hv := hsound.ne_blank hrec.publication
    have honly := hrecord p engine
    refine ⟨fun u q hq hactive => ?_, ?_⟩
    · -- what was active before is superseded
      change ((supersedePrevious _ v).set v _).get u = some q at hq
      show u = v
      unfold supersedePrevious at hq
      grind [RunState.recordAck, RunState.withPublication, RunState.withEngine]
    · change v = "" ↔ (if s.lastGood = "" then v else s.lastGood) = ""
      split <;> simp [*]

end Sole

/-- In every history at most one version of a run is in state `active`, namely its active one;
there is a version to roll back to as soon as there is an active one; and right after a rollback
no version is in state `active`. -/
theorem one_active_version {σ : Type} (A : ArtifactStore σ) (checksum : Bytes → String)
    (artifacts : σ) (requests : List (Request σ)) (w : World σ)
    (hrun : Run (Step A checksum) (World.initial artifacts) requests w) (runID : String) :
    (∀ v p, (w.run runID).publications.get v = some p → p.state = .active →
      v = (w.run runID).active) ∧
    ((w.run runID).active = "" ↔ (w.run runID).lastGood = "") ∧
    ∀ reason s', (rollback (w.run runID) reason).saved = some s' →
      ∀ v p, s'.publications.get v = some p → p.state ≠ .active := by
  have hsole : Sound (w.run runID) ∧ (w.run runID).Sole := by
    refine run_invariant (I := fun s => Sound s ∧ s.Sole) (fun _ _ _ => True)
      (fun id => ⟨sound_empty id, fun _ _ hp => (by cases hp), Iff.rfl⟩) ?_
      (hrun.to_guarded fun _ _ _ => trivial) runID
    rintro _ s _ s' ⟨hsound, hs⟩ _ _ hsaves
    refine ⟨hsaves.sound hsound, ?_⟩
    rcases hsaves.cases with h | ⟨_, _, -, h⟩ | ⟨_, _, _, _, -, h⟩
    · exact h.invariant hs fun _ _ ha hab => hab.sole ha
    · have hkept := fun v p => h.publication (v := v) (p := p)
      obtain ⟨publications, rfl, -⟩ := h
      exact ⟨fun v p hp => hs.only v p (hkept v p hp), hs.rooted⟩
    · exact h.sole hsound hs
  refine ⟨hsole.2.only, hsole.2.rooted, fun reason s' hsaved v p hp => ?_⟩
  unfold rollback at hsaved
  split at hsaved
  · cases hsaved
  · cases hsaved
    exact hsole.2.rollBackActive hp

theorem one_active_version_activation :
    ((Trial.after Trial.activation).run "run").active = "v1" ∧
    (((Trial.after Trial.activation).run "run").active = "" ↔
      ((Trial.after Trial.activation).run "run").lastGood = "") :=
  ⟨by decide, (one_active_version _ _ _ _ _ (Trial.run_after (by decide)) "run").2.1⟩

end Weights
end Skyscale
