import Skyscale.Weights.Service

/-!
# Active and last good versions are fully acknowledged

`Sound` is the inductive invariant of a run:

* acknowledgements come from required engines, and required engines are
  registered, so no call dereferences a missing engine;
* the recorded result checksum of an acknowledged publication is the one its
  manifest determines, so materializing it again cannot change it;
* the active and the last good version are published, require at least one engine
  and are acknowledged by all of them.

`Acknowledge` only compares the number of acknowledgements with the number of
required engines.  That comparison is right because of the first clause
(`FinMap.mem_keys_iff_of_size_eq`).

The second half traces an acknowledgement back to the request that recorded it.
-/

namespace Skyscale
namespace Weights

open Lib

/-! ## The invariant -/

/-- The clauses of the invariant about one publication. -/
structure DurablePublication.Sound (p : DurablePublication) : Prop where
  acked : ∀ e ∈ p.acks.keys, e ∈ p.required.keys
  resolved : p.state = .ready ∨ p.state = .activating ∨ p.acks.keys ≠ [] →
    p.resultSHA256 = p.expected

/-- A version that is published, requires some engine and is acknowledged by
exactly the engines it requires. -/
def RunState.FullyAcked (s : RunState) (v : String) : Prop :=
  ∃ p, s.publications.get v = some p ∧ p.required.keys ≠ [] ∧
    ∀ e, e ∈ p.acks.keys ↔ e ∈ p.required.keys

/-- The invariant of a run. -/
structure Sound (s : RunState) : Prop where
  named : s.publications.get "" = none
  publication : ∀ {v p}, s.publications.get v = some p → p.Sound
  registered : ∀ {v p}, s.publications.get v = some p → ∀ e ∈ p.required.keys, e ∈ s.engines.keys
  active : s.active ≠ "" → s.FullyAcked s.active
  lastGood : s.lastGood ≠ "" → s.FullyAcked s.lastGood

theorem sound_empty (runID : String) : Sound (RunState.empty runID) where
  named := rfl
  publication h := by cases h
  registered h := by cases h
  active h := absurd rfl h
  lastGood h := absurd rfl h

variable {s : RunState} {v : String} {p : DurablePublication} {s' : RunState} {e : String}

theorem Sound.ne_blank (hs : Sound s) (hp : s.publications.get v = some p) : v ≠ "" := by
  rintro rfl
  rw [hs.named] at hp
  cases hp

theorem Sound.root (hs : Sound s) (hv : v ≠ "") (hroot : v = s.active ∨ v = s.lastGood) :
    s.FullyAcked v := by
  rcases hroot with rfl | rfl
  · exact hs.active hv
  · exact hs.lastGood hv

theorem Rewrite.expected {p' : DurablePublication} (h : Rewrite p p') :
    p'.expected = p.expected := by
  cases h <;> rfl

theorem Rewrite.sound {p' : DurablePublication} (h : Rewrite p p') (hp : p.Sound) :
    p'.Sound where
  acked e he := by
    rw [h.acks] at he
    rw [h.required]
    exact hp.acked e he
  resolved hcase := by
    cases h with
    | same => exact hp.resolved hcase
    | readied => rfl
    | retired state hstate =>
      apply hp.resolved
      rcases hcase with hcase | hcase | hcase
      · change state = .ready at hcase
        subst hcase
        cases hstate
      · change state = .activating at hcase
        subst hcase
        cases hstate
      · exact .inr (.inr hcase)

/-! ## Preservation -/

theorem Effect.fullyAcked (h : Effect s s') (hacked : s.FullyAcked v) : s'.FullyAcked v := by
  obtain ⟨p, hp, hnonempty, hkeys⟩ := hacked
  obtain ⟨p', hp', hrewrite⟩ := h.present hp
  refine ⟨p', hp', ?_, ?_⟩
  · rw [hrewrite.required]
    exact hnonempty
  · rw [hrewrite.required, hrewrite.acks]
    exact hkeys

theorem Effect.sound (h : Effect s s') (hs : Sound s) : Sound s' where
  named := by
    cases hp : s'.publications.get "" with
    | none => rfl
    | some p =>
      rcases h.publication hp with ⟨q, hq, -⟩ | hfresh
      · exact absurd rfl (hs.ne_blank hq)
      · exact absurd rfl hfresh.named
  publication := by
    intro v p' hp'
    rcases h.publication hp' with ⟨p, hp, hrewrite⟩ | hfresh
    · exact hrewrite.sound (hs.publication hp)
    · refine ⟨?_, ?_⟩
      · simp [hfresh.unacked]
      · simp [hfresh.unacked, hfresh.published]
  registered := by
    intro v p' hp' e he
    rcases h.publication hp' with ⟨p, hp, hrewrite⟩ | hfresh
    · rw [hrewrite.required] at he
      exact h.engines_mono (hs.registered hp e he)
    · exact h.engines_mono (hfresh.registered e he)
  active hv := h.fullyAcked (hs.root hv h.roots.1)
  lastGood hv := h.fullyAcked (hs.root hv h.roots.2.symm)

theorem Collected.sound {n : Int} {orders : CollectOrders} (h : Collected s n orders s')
    (hs : Sound s) : Sound s' := by
  have hroot : ∀ {v}, v ≠ "" → v = s.active ∨ v = s.lastGood → s'.FullyAcked v := by
    intro v hv hroot
    obtain ⟨p, hp, hacked⟩ := hs.root hv hroot
    exact ⟨p, h.present hv hp hroot, hacked⟩
  have hget : ∀ {v p}, s'.publications.get v = some p → s.publications.get v = some p :=
    h.publication
  obtain ⟨publications, rfl, -⟩ := h
  refine ⟨?_, fun hp => hs.publication (hget hp), fun hp => hs.registered (hget hp),
    fun hv => hroot hv (.inl rfl), fun hv => hroot hv (.inr rfl)⟩
  cases hp : publications.get "" with
  | none => rfl
  | some p => exact absurd rfl (hs.ne_blank (hget hp))

section Recording

variable {s : RunState} {e v c : String} {now : Time} {p : DurablePublication}
variable {engine : EngineState}

/-- The acknowledged publication is sound, and its result checksum is the expected
one. -/
theorem Recording.sound_acknowledged (h : Recording s e v c now p engine) (hs : Sound s) :
    (p.acknowledged e now).Sound where
  acked u hu := by
    rcases (FinMap.mem_keys_set _ _ _ _).mp hu with rfl | hu
    · exact h.required
    · exact (hs.publication h.publication).acked u hu
  resolved _ := by
    apply (hs.publication h.publication).resolved
    rcases h.materialized with hstate | hstate
    · exact .inl hstate
    · exact .inr (.inl hstate)

/-- Recording an acknowledgement keeps fully acknowledged versions so: a further
acknowledgement by a required engine changes nothing about them. -/
theorem Recording.fullyAcked (h : Recording s e v c now p engine) {u : String}
    (hu : s.FullyAcked u) : (s.recordAck e v now p engine).FullyAcked u := by
  obtain ⟨q, hq, hnonempty, hkeys⟩ := hu
  by_cases huv : u = v
  · subst huv
    obtain rfl := Option.some.inj (h.publication.symm.trans hq)
    refine ⟨p.acknowledged e now, FinMap.get_set_self _ _ _, hnonempty, ?_⟩
    intro x
    change x ∈ (p.acks.set e now).keys ↔ x ∈ p.required.keys
    rw [FinMap.mem_keys_set, hkeys]
    constructor
    · rintro (rfl | hx)
      · exact h.required
      · exact hx
    · exact .inr
  · exact ⟨q, (FinMap.get_set_ne _ _ huv).trans hq, hnonempty, hkeys⟩

theorem Recording.sound_recordAck (h : Recording s e v c now p engine) (hs : Sound s) :
    Sound (s.recordAck e v now p engine) where
  named := by
    have hv := hs.ne_blank h.publication
    exact (FinMap.get_set_ne _ _ hv.symm).trans hs.named
  publication := by
    intro u q hq
    obtain ⟨_, rfl⟩ | ⟨_, hq⟩ := FinMap.get_set_cases hq
    · exact h.sound_acknowledged hs
    · exact hs.publication hq
  registered := by
    intro u q hq x hx
    have hmem : x ∈ s.engines.keys := by
      obtain ⟨_, rfl⟩ | ⟨_, hq⟩ := FinMap.get_set_cases hq
      · exact hs.registered h.publication x hx
      · exact hs.registered hq x hx
    exact (FinMap.mem_keys_set _ _ _ _).mpr (.inr hmem)
  active hv := h.fullyAcked (hs.active hv)
  lastGood hv := h.fullyAcked (hs.lastGood hv)

end Recording

section Activation

variable {s : RunState} {v : String} {p : DurablePublication}
variable {engines : FinMap String EngineState}

theorem exists_rewrite_of_activated (hp : s.publications.get v = some p) {u : String}
    {q' : DurablePublication} (hq' : (s.activated v p engines).publications.get u = some q') :
    ∃ q, s.publications.get u = some q ∧ Rewrite q q' := by
  obtain ⟨rfl, rfl⟩ | ⟨_, hq'⟩ := FinMap.get_set_cases hq'
  · exact ⟨p, hp, .retired _ rfl⟩
  · exact exists_rewrite_of_supersedePrevious hq'

theorem RunState.FullyAcked.activated (hp : s.publications.get v = some p) {u : String}
    (hu : s.FullyAcked u) : (s.activated v p engines).FullyAcked u := by
  obtain ⟨q, hq, hnonempty, hkeys⟩ := hu
  obtain ⟨q1, hq1⟩ := exists_get_supersedePrevious (w := v) hq
  obtain ⟨q', hq'⟩ : ∃ q', (s.activated v p engines).publications.get u = some q' :=
    exists_get_set hq1
  obtain ⟨q0, hq0, hrewrite⟩ := exists_rewrite_of_activated hp hq'
  obtain rfl := Option.some.inj (hq.symm.trans hq0)
  refine ⟨q', hq', ?_, ?_⟩
  · rw [hrewrite.required]
    exact hnonempty
  · rw [hrewrite.required, hrewrite.acks]
    exact hkeys

theorem Sound.activated (hs : Sound s) (hp : s.publications.get v = some p)
    (hacked : s.FullyAcked v)
    (hengines : ∀ e ∈ s.engines.keys, e ∈ engines.keys) :
    Sound (s.activated v p engines) where
  named := by
    cases hq : (s.activated v p engines).publications.get "" with
    | none => rfl
    | some q =>
      obtain ⟨q0, hq0, -⟩ := exists_rewrite_of_activated hp hq
      exact absurd rfl (hs.ne_blank hq0)
  publication := by
    intro u q hq
    obtain ⟨q0, hq0, hrewrite⟩ := exists_rewrite_of_activated hp hq
    exact hrewrite.sound (hs.publication hq0)
  registered := by
    intro u q hq e he
    obtain ⟨q0, hq0, hrewrite⟩ := exists_rewrite_of_activated hp hq
    rw [hrewrite.required] at he
    exact hengines e (hs.registered hq0 e he)
  active _ := hacked.activated hp
  lastGood hv := by
    change (if s.lastGood = "" then v else s.lastGood) ≠ "" at hv
    change (s.activated v p engines).FullyAcked (if s.lastGood = "" then v else s.lastGood)
    split
    · exact hacked.activated hp
    · rename_i hgood
      exact (hs.lastGood hgood).activated hp

end Activation

/-- The engines after an activation are the engines before it, those required
redirected to the version. -/
theorem get_of_foldlM_undrain {required : FinMap String Bool}
    {engines engines' : FinMap String EngineState}
    (h : required.keys.foldlM (undrain v) engines = some engines') (e : String) :
    engines'.get e = (engines.get e).map fun engine =>
      if e ∈ required.keys then { engine with desiredVersion := v, draining := false }
      else engine := by
  rw [FinMap.get_of_foldlM_modifyWhere required.keys_nodup h]
  simp

/-- A recorded acknowledgement that brings the number of acknowledgements to the
number of required engines makes the version fully acknowledged. -/
theorem Recording.fullyAcked_of_size {c : String} {now : Time} {engine : EngineState}
    (h : Recording s e v c now p engine) (hs : Sound s)
    (hsize : (p.acknowledged e now).acks.size = p.required.size) :
    (s.recordAck e v now p engine).FullyAcked v := by
  refine ⟨p.acknowledged e now, FinMap.get_set_self _ _ _, List.ne_nil_of_mem h.required, ?_⟩
  exact FinMap.mem_keys_iff_of_size_eq (h.sound_acknowledged hs).acked hsize

theorem Recorded.sound {c : String} {now : Time} (h : Recorded s e v c now s') (hs : Sound s) :
    Sound s' := by
  cases h with
  | pending hrec _ => exact hrec.sound_recordAck hs
  | completed hrec hsize hfold =>
    refine (hrec.sound_recordAck hs).activated (FinMap.get_set_self _ _ _)
      (hrec.fullyAcked_of_size hs hsize) ?_
    intro x hx
    obtain ⟨old, hold⟩ := FinMap.mem_keys_iff.mp hx
    rw [FinMap.mem_keys_iff, get_of_foldlM_undrain hfold, hold]
    exact ⟨_, rfl⟩

section Histories

variable {σ : Type} {A : ArtifactStore σ} {checksum : Bytes → String}

theorem Saves.sound {runID : String} {s s' : RunState} {call : Call σ}
    (h : Saves A checksum runID s call s') (hs : Sound s) : Sound s' := by
  rcases h.cases with h | ⟨n, orders, -, h⟩ | ⟨e, v, c, now, -, h⟩
  · exact h.invariant hs fun _ _ ha hab => hab.sound ha
  · exact h.sound hs
  · exact h.sound hs

theorem sound_of_run {artifacts : σ} {requests : List (Request σ)} {w : World σ}
    (hrun : Run (Step A checksum) (World.initial artifacts) requests w) (runID : String) :
    Sound (w.run runID) :=
  run_invariant (fun _ _ _ => True) sound_empty
    (fun _ _ _ _ hs _ _ hsaves => hsaves.sound hs)
    (hrun.to_guarded fun _ _ _ => trivial) runID

end Histories

/-! ## No missing engine is dereferenced -/

theorem activate_ne_crash (hreg : ∀ e ∈ p.required.keys, e ∈ s.engines.keys) :
    activate s v p ≠ .crash := by
  have hsome : ∃ engines, p.required.keys.foldlM (undrain v) s.engines = some engines :=
    FinMap.foldlM_modifyWhere_isSome _ _ hreg
  obtain ⟨engines, hfold⟩ := hsome
  unfold activate
  rw [hfold]
  exact fun h => by cases h

theorem Sound.acknowledge_ne_crash (hs : Sound s) (e v c : String) (now : Time) :
    acknowledge s e v c now ≠ .crash := by
  have hcommit : ∀ {t : RunState} {b : Bool}, (Outcome.commit t b) ≠ .crash := fun h => by cases h
  have hreject : ∀ {t : RunState} {m : String}, (Outcome.reject t m : Outcome Bool) ≠ .crash :=
    fun h => by cases h
  have hrefuse : ∀ {m : String}, (Outcome.refuse m : Outcome Bool) ≠ .crash := fun h => by cases h
  unfold acknowledge
  split
  · rename_i p engine hp _
    split
    · split
      · exact hreject
      · exact hcommit
    split
    · exact hrefuse
    split
    · exact hrefuse
    split
    · exact hreject
    split
    · exact hreject
    simp only []
    split
    · exact hcommit
    · apply activate_ne_crash
      intro x hx
      exact (FinMap.mem_keys_set _ _ _ _).mpr (.inr (hs.registered hp x hx))
  · exact hrefuse

theorem Sound.expireOne_isSome {acc : RunState × List String} (hs : Sound acc.1) (now : Time)
    (v : String) : ∃ acc', expireOne now acc v = some acc' := by
  unfold expireOne
  split
  · exact ⟨acc, rfl⟩
  · rename_i p hp
    split
    · have hsome : ∃ engines, p.required.keys.foldlM (recoverEngine acc.1.fallback p)
          acc.1.engines = some engines :=
        FinMap.foldlM_modifyWhere_isSome _ _ (hs.registered hp)
      obtain ⟨engines, hfold⟩ := hsome
      rw [hfold]
      exact ⟨_, rfl⟩
    · exact ⟨acc, rfl⟩

theorem Sound.foldlM_expireOne_isSome {acc : RunState × List String} (hs : Sound acc.1)
    (now : Time) (order : List String) :
    ∃ acc', order.foldlM (expireOne now) acc = some acc' := by
  induction order generalizing acc with
  | nil => exact ⟨acc, rfl⟩
  | cons v order ih =>
    obtain ⟨acc1, hfirst⟩ := hs.expireOne_isSome now v
    have hs1 : Sound acc1.1 :=
      (effects_expireOne hfirst).invariant hs fun _ _ ha hab => hab.sound ha
    obtain ⟨acc', hrest⟩ := ih hs1
    refine ⟨acc', ?_⟩
    rw [List.foldlM_cons, hfirst]
    exact hrest

theorem Sound.expire_ne_crash (hs : Sound s) (now : Time) (order : List String) :
    expire s now order ≠ .crash := by
  have hsome : ∃ acc, order.foldlM (expireOne now) (s, []) = some acc :=
    Sound.foldlM_expireOne_isSome hs now order
  obtain ⟨acc, hfold⟩ := hsome
  unfold expire
  rw [hfold]
  exact fun h => by cases h

/-! ## Where an acknowledgement comes from -/

/-- Engine `e` has acknowledged version `v` of a run at time `t`. -/
def RunState.Acked (s : RunState) (v e : String) (t : Time) : Prop :=
  ∃ p, s.publications.get v = some p ∧ p.acks.get e = some t

theorem Effect.acked (h : Effect s s') {t : Time} (hacked : s'.Acked v e t) : s.Acked v e t := by
  obtain ⟨p', hp', hget⟩ := hacked
  rcases h.publication hp' with ⟨p, hp, hrewrite⟩ | hfresh
  · rw [hrewrite.acks] at hget
    exact ⟨p, hp, hget⟩
  · rw [hfresh.unacked] at hget
    cases hget

/-- Every publication after a recorded acknowledgement is an old one with the same
manifest and expected checksum, and with the same acknowledgements except for the
recorded one. -/
theorem Recorded.publication {c : String} {now : Time} (h : Recorded s e v c now s') {u : String}
    {q' : DurablePublication} (hq' : s'.publications.get u = some q') :
    ∃ q, s.publications.get u = some q ∧ q'.manifest = q.manifest ∧ q'.expected = q.expected ∧
      (q'.acks = q.acks ∨ u = v ∧ c = q.resultSHA256 ∧ q'.acks = q.acks.set e now ∧
        (q.state = .ready ∨ q.state = .activating)) := by
  have hpending : ∀ {p engine q1}, Recording s e v c now p engine →
      (s.recordAck e v now p engine).publications.get u = some q1 →
      ∃ q, s.publications.get u = some q ∧ q1.manifest = q.manifest ∧
        q1.expected = q.expected ∧
        (q1.acks = q.acks ∨ u = v ∧ c = q.resultSHA256 ∧ q1.acks = q.acks.set e now ∧
          (q.state = .ready ∨ q.state = .activating)) := by
    intro p engine q1 hrec hq1
    obtain ⟨rfl, rfl⟩ | ⟨_, hq1⟩ := FinMap.get_set_cases hq1
    · exact ⟨p, hrec.publication, rfl, rfl, .inr ⟨rfl, hrec.checksum, rfl, hrec.materialized⟩⟩
    · exact ⟨q1, hq1, rfl, rfl, .inl rfl⟩
  cases h with
  | pending hrec _ => exact hpending hrec hq'
  | completed hrec _ _ =>
    obtain ⟨q1, hq1, hrewrite⟩ := exists_rewrite_of_activated (FinMap.get_set_self _ _ _) hq'
    rw [hrewrite.manifest, hrewrite.expected, hrewrite.acks]
    exact hpending hrec hq1

theorem Recorded.present {c : String} {now : Time} (h : Recorded s e v c now s') {u : String}
    {q : DurablePublication} (hq : s.publications.get u = some q) :
    ∃ q', s'.publications.get u = some q' := by
  cases h with
  | pending => exact exists_get_set hq
  | @completed p engine engines =>
    have hq1 : ∃ q1, (s.recordAck e v now p engine).publications.get u = some q1 :=
      exists_get_set hq
    obtain ⟨q2, hq2⟩ := exists_get_supersedePrevious (w := v) hq1.choose_spec
    exact exists_get_set hq2

section Provenance

variable {σ : Type} {A : ArtifactStore σ} {checksum : Bytes → String}

variable {runID : String} {p : DurablePublication}

theorem Saves.expected_eq {s s' : RunState} {call : Call σ} (h : Saves A checksum runID s call s')
    {v : String} {p' : DurablePublication} (hp : s.publications.get v = some p)
    (hp' : s'.publications.get v = some p') :
    p'.expected = p.expected := by
  rcases h.cases with h | ⟨n, orders, -, h⟩ | ⟨e, u, c, now, -, h⟩
  · have hkept := h.invariant
      (I := fun b => ∃ q, b.publications.get v = some q ∧ q.expected = p.expected)
      ⟨p, hp, rfl⟩ ?_
    · obtain ⟨q, hq, hexpected⟩ := hkept
      obtain rfl := Option.some.inj (hp'.symm.trans hq)
      exact hexpected
    · rintro a b ⟨q, hq, hexpected⟩ hab
      obtain ⟨q', hq', hrewrite⟩ := hab.present hq
      exact ⟨q', hq', hrewrite.expected.trans hexpected⟩
  · obtain rfl := Option.some.inj (hp.symm.trans (h.publication hp'))
    rfl
  · obtain ⟨q, hq, -, hexpected, -⟩ := h.publication hp'
    obtain rfl := Option.some.inj (hp.symm.trans hq)
    exact hexpected

/-- A save that makes an acknowledgement appear is the call that records it, with
the checksum the publication is expected to have. -/
theorem Saves.origin_of_acked {s s' : RunState} {call : Call σ}
    (h : Saves A checksum runID s call s') (hs : Sound s) {v e : String} {t : Time}
    (hbefore : ¬s.Acked v e t) {p' : DurablePublication} (hp' : s'.publications.get v = some p')
    (hget : p'.acks.get e = some t) :
    call = .acknowledge runID e v p'.expected t := by
  rcases h.cases with h | ⟨n, orders, -, h⟩ | ⟨e', v', c, now, hcall, h⟩
  · refine absurd ?_ hbefore
    exact h.invariant (I := fun b => b.Acked v e t → s.Acked v e t) id
      (fun a b ha hab hb => ha (hab.acked hb)) ⟨p', hp', hget⟩
  · exact absurd ⟨p', h.publication hp', hget⟩ hbefore
  · obtain ⟨p, hp, -, hexpected, hacks | ⟨rfl, hc, hacks, hstate⟩⟩ := h.publication hp'
    · rw [hacks] at hget
      exact absurd ⟨p, hp, hget⟩ hbefore
    · rw [hacks] at hget
      obtain ⟨rfl, rfl⟩ | ⟨_, hget⟩ := FinMap.get_set_cases hget
      · have hresolved : p.resultSHA256 = p.expected := by
          apply (hs.publication hp).resolved
          rcases hstate with hstate | hstate
          · exact .inl hstate
          · exact .inr (.inl hstate)
        rw [hcall, hc, hresolved, hexpected]
      · exact absurd ⟨p, hp, hget⟩ hbefore

/-- The request that recorded an acknowledgement: `Acknowledge` of the engine with
checksum `c`, after which the acknowledgement has been there ever since. -/
def RecordedBy (A : ArtifactStore σ) (checksum : Bytes → String) (artifacts : σ)
    (requests : List (Request σ)) (w : World σ) (runID v e c : String) : Prop :=
  ∃ pre outage post before after t,
    requests = pre ++ ⟨.acknowledge runID e v c t, outage⟩ :: post ∧
    Run (Step A checksum) (World.initial artifacts) pre before ∧
    Step A checksum before ⟨.acknowledge runID e v c t, outage⟩ after ∧
    ¬(before.run runID).Acked v e t ∧ (after.run runID).Acked v e t ∧
    Run (Throughout (Step A checksum) fun w => (w.run runID).Acked v e t) after post w

/-- While an acknowledgement stands, the expected checksum of its publication does
not change. -/
theorem expected_of_throughout {v e : String} {t : Time} {a w : World σ}
    {requests : List (Request σ)}
    (hrun : Run (Throughout (Step A checksum) fun w => (w.run runID).Acked v e t) a requests w)
    (hp : (a.run runID).publications.get v = some p) :
    ∃ q, (w.run runID).publications.get v = some q ∧ q.expected = p.expected := by
  refine hrun.invariant (I := fun w => ∃ q, (w.run runID).publications.get v = some q ∧
    q.expected = p.expected) ⟨p, hp, rfl⟩ ?_
  rintro b request b' ⟨q, hq, hexpected⟩ ⟨hstep, q', hq', -⟩
  rcases hstep.touches runID with hsame | ⟨-, hsaves⟩
  · rw [hsame] at hq' ⊢
    exact ⟨q, hq, hexpected⟩
  · exact ⟨q', hq', (hsaves.expected_eq hq hq').trans hexpected⟩

/-- Every acknowledgement that stands was recorded by a request whose checksum is
the current result checksum of the publication. -/
theorem recordedBy_of_acked {artifacts : σ} {requests : List (Request σ)} {w : World σ}
    (hrun : Run (Step A checksum) (World.initial artifacts) requests w) {v e : String}
    (hp : (w.run runID).publications.get v = some p) (he : e ∈ p.acks.keys) :
    RecordedBy A checksum artifacts requests w runID v e p.resultSHA256 := by
  obtain ⟨t, ht⟩ := FinMap.mem_keys_iff.mp he
  have hinit : ¬((World.initial artifacts).run runID).Acked v e t := by
    rintro ⟨q, hq, -⟩
    cases hq
  obtain ⟨pre, request, post, a, b, rfl, hpre, hstep, hbefore, hafter, hpost⟩ :=
    hrun.origin (P := fun w => (w.run runID).Acked v e t) hinit ⟨p, hp, ht⟩
  obtain ⟨p1, hp1, hget⟩ := hafter
  rcases hstep.touches runID with hsame | ⟨-, hsaves⟩
  · rw [hsame] at hp1
    exact absurd ⟨p1, hp1, hget⟩ hbefore
  · have hcall := hsaves.origin_of_acked (sound_of_run hpre runID) hbefore hp1 hget
    have hresult : p1.expected = p.resultSHA256 := by
      obtain ⟨q, hq, hexpected⟩ := expected_of_throughout hpost hp1
      obtain rfl := Option.some.inj (hp.symm.trans hq)
      rw [← hexpected]
      exact ((sound_of_run hrun runID).publication hp).resolved
        (.inr (.inr (List.ne_nil_of_mem he))) |>.symm
    rw [hresult] at hcall
    obtain ⟨call, outage⟩ := request
    obtain rfl : call = _ := hcall
    exact ⟨pre, outage, post, a, b, t, rfl, hpre, hstep, hbefore, ⟨p1, hp1, hget⟩, hpost⟩

end Provenance

/-! ## Soundness of every history -/

/-- In every state of every history of the service, for every run: acknowledgements
come from required engines and required engines are registered; `Acknowledge` and
`Expire` never dereference a missing engine; and the active version and the last
good version, where there is one, are published, require some engine, are
acknowledged by exactly the engines they require, and every one of these
acknowledgements was recorded by an `Acknowledge` with the checksum the publication
records now. -/
theorem active_and_lastGood_sound {σ : Type} (A : ArtifactStore σ) (checksum : Bytes → String)
    (artifacts : σ) (requests : List (Request σ)) (w : World σ)
    (hrun : Run (Step A checksum) (World.initial artifacts) requests w) (runID : String) :
    (∀ v p, (w.run runID).publications.get v = some p →
      (∀ e ∈ p.acks.keys, e ∈ p.required.keys) ∧
      (∀ e ∈ p.required.keys, e ∈ (w.run runID).engines.keys)) ∧
    (∀ e v c now, acknowledge (w.run runID) e v c now ≠ .crash) ∧
    (∀ now order, expire (w.run runID) now order ≠ .crash) ∧
    (∀ v, v ≠ "" → (w.run runID).active = v ∨ (w.run runID).lastGood = v →
      ∃ p, (w.run runID).publications.get v = some p ∧ p.required.keys ≠ [] ∧
        (∀ e, e ∈ p.acks.keys ↔ e ∈ p.required.keys) ∧
        ∀ e ∈ p.acks.keys,
          RecordedBy A checksum artifacts requests w runID v e p.resultSHA256) := by
  have hs := sound_of_run hrun runID
  refine ⟨?_, hs.acknowledge_ne_crash, hs.expire_ne_crash, ?_⟩
  · intro v p hp
    exact ⟨(hs.publication hp).acked, hs.registered hp⟩
  · intro v hv hroot
    obtain ⟨p, hp, hnonempty, hkeys⟩ := hs.root hv (hroot.imp Eq.symm Eq.symm)
    exact ⟨p, hp, hnonempty, hkeys, fun e he => recordedBy_of_acked hrun hp he⟩

namespace Trial

def activation : Calls :=
  [.registerEngine "run" "a" "", .publish (manifest "v1" "full" "") ["a"] 100 0,
    .materialize "run" "v1", .acknowledge "run" "a" "v1" digest 1]

end Trial

theorem active_and_lastGood_sound_activation :
    ((Trial.after Trial.activation).run "run").active = "v1" ∧
    ∃ p, ((Trial.after Trial.activation).run "run").publications.get "v1" = some p ∧
      p.required.keys ≠ [] ∧ (∀ e, e ∈ p.acks.keys ↔ e ∈ p.required.keys) ∧
      ∀ e ∈ p.acks.keys, RecordedBy Trial.store (fun _ => Trial.digest)
        Trial.artifacts (Trial.activation.map Trial.request)
        (Trial.after Trial.activation) "run" "v1" e p.resultSHA256 := by
  have hactive : ((Trial.after Trial.activation).run "run").active = "v1" := by decide
  have hrun := Trial.run_after (show Trial.Valid Trial.activation by decide)
  exact ⟨hactive, (active_and_lastGood_sound _ _ _ _ _ hrun "run").2.2.2 "v1" (by decide)
    (.inl hactive)⟩

end Weights
end Skyscale
