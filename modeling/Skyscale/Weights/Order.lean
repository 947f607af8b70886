import Mathlib.Data.List.Induction
import Skyscale.Weights.Service

/-!
# The order of acknowledgements

A rollout ends when every required engine has acknowledged the version.  This
module follows `Acknowledge` through any sequence of calls for one version, in any
order and with repetitions.

* `RunState.untimed` is the state of a run with its time stamps removed.  Maps are
  compared by their lookups, since the order in which a map was filled is not part
  of its value.
* `Reached` describes the state after some acknowledgements by the set of engines
  that sent them.  One call of `Acknowledge` carries it to the enlarged set
  (`Reached.acknowledge`); before the last missing engine it records, with the last
  one it activates, and afterwards it confirms.
* Two states that are reached with the same set of engines agree
  (`Reached.untimed_eq`).
-/

namespace Skyscale
namespace Weights

open Lib

/-! ## States without time stamps -/

/-- An engine without the time of its last acknowledgement. -/
def EngineState.untimed (engine : EngineState) : EngineState :=
  { engine with acknowledgedAt := 0 }

/-- A publication without the times of its acknowledgements: of `acks` only the set
of engines is left. -/
def DurablePublication.untimed (p : DurablePublication) : DurablePublication × Set String :=
  ({ p with acks := ∅ }, { e | e ∈ p.acks.keys })

/-- What is left of the state of a run when time stamps are put aside. -/
structure UntimedRun where
  runID : String
  active : String
  lastGood : String
  publication : String → Option (DurablePublication × Set String)
  engine : String → Option EngineState

/-- The state of a run, time stamps aside. -/
def RunState.untimed (s : RunState) : UntimedRun where
  runID := s.runID
  active := s.active
  lastGood := s.lastGood
  publication u := (s.publications.get u).map DurablePublication.untimed
  engine e := (s.engines.get e).map EngineState.untimed

/-! ## What a set of acknowledgements leads to -/

/-- Every required engine is among those that acknowledged. -/
def DurablePublication.AckedBy (p : DurablePublication) (acked : List String) : Prop :=
  ∀ e ∈ p.required.keys, e ∈ acked

instance (p : DurablePublication) (acked : List String) : Decidable (p.AckedBy acked) :=
  inferInstanceAs (Decidable (∀ e ∈ p.required.keys, e ∈ acked))

theorem DurablePublication.ackedBy_congr {p : DurablePublication} {acked acked' : List String}
    (h : ∀ e, e ∈ acked ↔ e ∈ acked') : p.AckedBy acked ↔ p.AckedBy acked' := by
  unfold AckedBy
  simp only [h]

/-- The state of the publication once the engines in `acked` have acknowledged. -/
def DurablePublication.stage (p : DurablePublication) (acked : List String) : PublicationState :=
  if p.AckedBy acked then .active else if acked = [] then p.state else .activating

theorem DurablePublication.stage_congr {p : DurablePublication} {acked acked' : List String}
    (h : ∀ e, e ∈ acked ↔ e ∈ acked') : p.stage acked = p.stage acked' := by
  have hnil : acked = [] ↔ acked' = [] := by
    rw [List.eq_nil_iff_forall_not_mem, List.eq_nil_iff_forall_not_mem]
    simp only [h]
  unfold stage
  simp only [ackedBy_congr h, hnil]

/-- An engine that has acknowledged `v`, before and after the activation. -/
def EngineState.reached (engine : EngineState) (v : String) (complete : Bool) : EngineState :=
  { engine with
    currentVersion := v
    error := ""
    acknowledgedAt := 0
    desiredVersion := if complete then v else engine.desiredVersion
    draining := if complete then false else engine.draining }

/-- A rollout of version `v`, about to receive its first acknowledgement. -/
structure Rollout (v : String) (p : DurablePublication) (s : RunState) : Prop where
  publication : s.publications.get v = some p
  ready : p.state = .ready
  unacknowledged : p.acks = ∅
  nonempty : p.required ≠ ∅
  /-- `Required` is a set: no engine is listed as not required. -/
  required : ∀ e ∈ p.required.keys, p.required.getD e false = true
  registered : ∀ e ∈ p.required.keys, e ∈ s.engines.keys
  inactive : s.active ≠ v

/-- The state `s` is reached from `s0` when exactly the engines in `acked` have
acknowledged `v`. -/
structure Reached (v : String) (p : DurablePublication) (s0 : RunState) (acked : List String)
    (s : RunState) : Prop where
  runID : s.runID = s0.runID
  active : s.active = if p.AckedBy acked then v else s0.active
  lastGood : s.lastGood = if p.AckedBy acked ∧ s0.lastGood = "" then v else s0.lastGood
  record : ∃ q, s.publications.get v = some q ∧
    q.untimed = ({ p with state := p.stage acked, acks := ∅ }, { e | e ∈ acked })
  others : ∀ u, u ≠ v → s.publications.get u =
    if p.AckedBy acked ∧ u = s0.active then
      (s0.publications.get u).map fun q => { q with state := .superseded }
    else s0.publications.get u
  engines : ∀ e, (s.engines.get e).map EngineState.untimed =
    (s0.engines.get e).map fun engine =>
      if e ∈ acked then engine.reached v (p.AckedBy acked) else engine.untimed

section

variable {v : String} {p : DurablePublication} {s0 s s' : RunState} {acked acked' : List String}

theorem Reached.congr (h : Reached v p s0 acked s) (hsame : ∀ e, e ∈ acked ↔ e ∈ acked') :
    Reached v p s0 acked' s := by
  have hcomplete : p.AckedBy acked ↔ p.AckedBy acked' := DurablePublication.ackedBy_congr hsame
  obtain ⟨hrunID, hactive, hlastGood, hrecord, hothers, hengines⟩ := h
  rw [DurablePublication.stage_congr hsame, show { e | e ∈ acked } = { e | e ∈ acked' } from
    Set.ext hsame] at hrecord
  simp only [hcomplete] at hactive hlastGood hothers
  simp only [hcomplete, hsame] at hengines
  exact ⟨hrunID, hactive, hlastGood, hrecord, hothers, hengines⟩

theorem Reached.untimed_eq (h : Reached v p s0 acked s) (h' : Reached v p s0 acked' s')
    (hsame : ∀ e, e ∈ acked ↔ e ∈ acked') : s.untimed = s'.untimed := by
  replace h := h.congr hsame
  unfold RunState.untimed
  congr 1
  · rw [h.runID, h'.runID]
  · rw [h.active, h'.active]
  · rw [h.lastGood, h'.lastGood]
  · funext u
    by_cases hu : u = v
    · subst hu
      obtain ⟨q, hq, hview⟩ := h.record
      obtain ⟨q', hq', hview'⟩ := h'.record
      rw [hq, hq', Option.map_some, Option.map_some, hview, hview']
    · rw [h.others u hu, h'.others u hu]
  · funext e
    rw [h.engines e, h'.engines e]

theorem Rollout.not_ackedBy_nil (h : Rollout v p s0) : ¬p.AckedBy [] := by
  intro hacked
  apply h.nonempty
  have hkeys : p.required.keys = [] :=
    List.eq_nil_iff_forall_not_mem.mpr fun e he => List.not_mem_nil (hacked e he)
  exact AList.ext (List.map_eq_nil_iff.mp hkeys)

theorem Rollout.reached (h : Rollout v p s0) : Reached v p s0 [] s0 where
  runID := rfl
  active := by rw [if_neg h.not_ackedBy_nil]
  lastGood := by rw [if_neg fun hand => h.not_ackedBy_nil hand.1]
  record := by
    refine ⟨p, h.publication, ?_⟩
    unfold DurablePublication.untimed DurablePublication.stage
    rw [if_neg h.not_ackedBy_nil, if_pos rfl, h.unacknowledged]
    rfl
  others u _ := by rw [if_neg fun hand => h.not_ackedBy_nil hand.1]
  engines e := by simp

theorem Reached.publication (h : Reached v p s0 acked s) :
    ∃ acks, s.publications.get v = some { p with state := p.stage acked, acks := acks } ∧
      ∀ e, e ∈ acks.keys ↔ e ∈ acked := by
  obtain ⟨q, hq, hview⟩ := h.record
  obtain ⟨hrecord, hacked⟩ := Prod.mk.inj hview
  refine ⟨q.acks, ?_, fun e => by rw [Set.ext_iff] at hacked; exact hacked e⟩
  rw [hq]
  congr 1
  calc q = { ({ q with acks := ∅ } : DurablePublication) with acks := q.acks } := rfl
    _ = { p with state := p.stage acked, acks := q.acks } := by rw [hrecord]

variable {e : String} {now : Time} {engines : FinMap String EngineState} {q : DurablePublication}
  {engine0 : EngineState}

theorem Reached.engine (h : Reached v p s0 acked s) (he : e ∈ s0.engines.keys) :
    ∃ engine0 engine, s0.engines.get e = some engine0 ∧ s.engines.get e = some engine ∧
      engine.untimed =
        if e ∈ acked then engine0.reached v (p.AckedBy acked) else engine0.untimed := by
  obtain ⟨engine0, hengine0⟩ := FinMap.mem_keys_iff.mp he
  have hview := h.engines e
  rw [hengine0, Option.map_some] at hview
  obtain ⟨engine, hengine, huntimed⟩ := Option.map_eq_some_iff.mp hview
  exact ⟨engine0, engine, hengine0, hengine, huntimed⟩

/-! ## One acknowledgement -/

variable {c : String} {engine : EngineState}

theorem acknowledge_confirming (hp : s.publications.get v = some p)
    (hengine : s.engines.get e = some engine) (hactive : s.active = v)
    (hdesired : engine.desiredVersion = v) (hc : c = p.resultSHA256) :
    acknowledge s e v c now =
      .commit (s.withEngine e
        { engine with currentVersion := v, draining := false, error := "",
                      acknowledgedAt := now }) true := by
  unfold acknowledge
  rw [hp, hengine]
  dsimp only
  rw [if_pos ⟨hactive, hdesired⟩, if_neg (not_not.mpr hc)]
  rfl

theorem acknowledge_recording (h : Recording s e v c now p engine)
    (hrequired : p.required.getD e false = true) :
    acknowledge s e v c now =
      if (p.acks.set e now).size ≠ p.required.size then
        .commit (s.recordAck e v now p engine) false
      else activate (s.recordAck e v now p engine) v (p.acknowledged e now) := by
  have hstate : ¬(p.state ≠ .ready ∧ p.state ≠ .activating) := by
    rintro ⟨hready, hactivating⟩
    exact h.materialized.elim hready hactivating
  unfold acknowledge
  rw [h.publication, h.registered]
  dsimp only
  rw [if_neg h.notConfirming, if_neg (by rw [hrequired]; exact Bool.noConfusion), if_neg hstate,
    if_neg (not_lt.mpr h.inTime), if_neg (not_not.mpr h.checksum)]
  rfl

theorem activate_eq (h : p.required.keys.foldlM (undrain v) s.engines = some engines) :
    activate s v p = .commit (s.activated v p engines) true := by
  unfold activate
  rw [h]
  rfl

/-- Once the version is active, its engines only confirm what they run. -/
theorem Reached.confirm (h : Reached v p s0 acked s) (hrollout : Rollout v p s0)
    (hcomplete : p.AckedBy acked) (he : e ∈ p.required.keys) (now : Time) :
    ∃ s', acknowledge s e v p.resultSHA256 now = .commit s' true ∧ Reached v p s0 acked s' := by
  obtain ⟨acks, hp, -⟩ := h.publication
  obtain ⟨engine0, engine, hengine0, hengine, huntimed⟩ := h.engine (hrollout.registered e he)
  rw [if_pos (hcomplete e he), decide_eq_true hcomplete] at huntimed
  have hactive : s.active = v := by rw [h.active, if_pos hcomplete]
  have hdesired : engine.desiredVersion = v := by
    have := congrArg EngineState.desiredVersion huntimed
    exact this
  refine ⟨_, acknowledge_confirming hp hengine hactive hdesired rfl, ?_⟩
  refine ⟨h.runID, h.active, h.lastGood, h.record, h.others, fun x => ?_⟩
  show ((s.engines.set e _).get x).map EngineState.untimed = _
  rw [FinMap.get_set]
  by_cases hx : x = e
  · subst hx
    rw [if_pos rfl, hengine0, Option.map_some, Option.map_some, if_pos (hcomplete x he),
      decide_eq_true hcomplete]
    -- The engine already runs `v` and is not draining.
    congr 1
    calc _ = { engine.untimed with currentVersion := v, draining := false, error := "" } := rfl
      _ = _ := by rw [huntimed]; rfl
  · rw [if_neg hx]
    exact h.engines x

theorem size_acks_eq_iff {acks : FinMap String Time} (hacks : ∀ x, x ∈ acks.keys ↔ x ∈ acked)
    (hsub : ∀ x ∈ acked, x ∈ p.required.keys) :
    acks.size = p.required.size ↔ p.AckedBy acked := by
  constructor
  · intro hsize x hx
    have hmem := FinMap.mem_keys_iff_of_size_eq (fun k hk => hsub k ((hacks k).mp hk)) hsize
    exact (hacks x).mp ((hmem x).mpr hx)
  · intro hacked
    exact FinMap.size_eq_of_mem_keys_iff fun k =>
      ⟨fun hk => hsub k ((hacks k).mp hk), fun hk => (hacks k).mpr (hacked k hk)⟩

/-- An acknowledgement before the activation is recorded. -/
theorem Reached.recording (h : Reached v p s0 acked s) (hrollout : Rollout v p s0)
    (hpending : ¬p.AckedBy acked) (he : e ∈ p.required.keys) (hnow : now ≤ p.deadline) :
    ∃ q engine0 engine, Recording s e v p.resultSHA256 now q engine ∧
      q = { p with state := p.stage acked, acks := q.acks } ∧
      (∀ x, x ∈ q.acks.keys ↔ x ∈ acked) ∧
      s0.engines.get e = some engine0 ∧
      (engine.applied v now).untimed = engine0.reached v false := by
  obtain ⟨acks, hp, hacks⟩ := h.publication
  obtain ⟨engine0, engine, hengine0, hengine, huntimed⟩ := h.engine (hrollout.registered e he)
  have hstage : p.stage acked = .ready ∨ p.stage acked = .activating := by
    unfold DurablePublication.stage
    rw [if_neg hpending]
    by_cases hnil : acked = []
    · rw [if_pos hnil]
      exact .inl hrollout.ready
    · rw [if_neg hnil]
      exact .inr rfl
  have hinactive : s.active ≠ v := by
    rw [h.active, if_neg hpending]
    exact hrollout.inactive
  have happlied : (engine.applied v now).untimed =
      { engine.untimed with currentVersion := v, error := "" } := rfl
  refine ⟨_, engine0, engine,
    ⟨hp, hengine, fun hconfirming => hinactive hconfirming.1, he, hstage, hnow, rfl⟩, rfl, hacks,
    hengine0, ?_⟩
  rw [happlied, huntimed, decide_eq_false hpending]
  split <;> rfl

theorem mem_keys_acknowledged (hacks : ∀ x, x ∈ q.acks.keys ↔ x ∈ acked) (e : String) (now : Time)
    (x : String) :
    x ∈ (q.acknowledged e now).acks.keys ↔ x ∈ acked ++ [e] := by
  show x ∈ (q.acks.set e now).keys ↔ _
  rw [FinMap.mem_keys_set, hacks, List.mem_append, List.mem_singleton, or_comm]

theorem Reached.engines_recordAck (h : Reached v p s0 acked s) (hpending : ¬p.AckedBy acked)
    (hengine0 : s0.engines.get e = some engine0)
    (hengine : (engine.applied v now).untimed = engine0.reached v false) (x : String) :
    ((s.recordAck e v now q engine).engines.get x).map EngineState.untimed =
      (s0.engines.get x).map fun engine =>
        if x ∈ acked ++ [e] then engine.reached v false else engine.untimed := by
  show ((s.engines.set e _).get x).map EngineState.untimed = _
  by_cases hx : x = e
  · subst hx
    rw [FinMap.get_set_self, hengine0, Option.map_some, Option.map_some, hengine, if_pos (by simp)]
  · rw [FinMap.get_set_ne _ _ hx, h.engines x, decide_eq_false hpending]
    simp only [List.mem_append, List.mem_singleton, hx, or_false]

theorem Reached.others_recordAck (h : Reached v p s0 acked s) (hpending : ¬p.AckedBy acked)
    {u : String} (hu : u ≠ v) :
    (s.recordAck e v now q engine).publications.get u = s0.publications.get u := by
  show (s.publications.set v _).get u = _
  rw [FinMap.get_set_ne _ _ hu, h.others u hu, if_neg fun hand => hpending hand.1]

theorem Reached.pending (h : Reached v p s0 acked s) (hpending : ¬p.AckedBy acked)
    (hstill : ¬p.AckedBy (acked ++ [e]))
    (hq : q = { p with state := p.stage acked, acks := q.acks })
    (hacks : ∀ x, x ∈ q.acks.keys ↔ x ∈ acked) (hengine0 : s0.engines.get e = some engine0)
    (hengine : (engine.applied v now).untimed = engine0.reached v false) :
    Reached v p s0 (acked ++ [e]) (s.recordAck e v now q engine) where
  runID := h.runID
  active := by
    rw [if_neg hstill]
    exact h.active.trans (if_neg hpending)
  lastGood := by
    rw [if_neg fun hand => hstill hand.1]
    exact h.lastGood.trans (if_neg fun hand => hpending hand.1)
  record := by
    refine ⟨q.acknowledged e now, FinMap.get_set_self _ _ _, ?_⟩
    refine Prod.ext ?_ (Set.ext (mem_keys_acknowledged hacks e now))
    unfold DurablePublication.stage
    rw [if_neg hstill, if_neg (by simp), hq]
    rfl
  others u hu := by
    rw [if_neg fun hand => hstill hand.1]
    exact h.others_recordAck hpending hu
  engines x := by
    rw [decide_eq_false hstill]
    exact h.engines_recordAck hpending hengine0 hengine x

theorem get_supersedePrevious (hactive : s.active ≠ v) (u : String) :
    (supersedePrevious s v).get u =
      if u = s.active then
        (s.publications.get u).map fun q => { q with state := .superseded }
      else s.publications.get u := by
  unfold supersedePrevious
  by_cases hu : u = s.active
  · subst hu
    rw [if_pos rfl]
    cases hprevious : s.publications.get s.active with
    | none =>
      dsimp only
      rw [hprevious]
      rfl
    | some previous =>
      dsimp only
      rw [if_pos hactive, FinMap.get_set_self]
      rfl
  · rw [if_neg hu]
    split
    · rfl
    · rw [if_pos hactive, FinMap.get_set_ne _ _ hu]

/-- The last missing engine acknowledges, and the version is activated. -/
theorem Reached.activated (h : Reached v p s0 acked s)
    (hrollout : Rollout v p s0) (hpending : ¬p.AckedBy acked)
    (hsub : ∀ x ∈ acked ++ [e], x ∈ p.required.keys) (hlast : p.AckedBy (acked ++ [e]))
    (hq : q = { p with state := p.stage acked, acks := q.acks })
    (hacks : ∀ x, x ∈ q.acks.keys ↔ x ∈ acked) (hengine0 : s0.engines.get e = some engine0)
    (hengine : (engine.applied v now).untimed = engine0.reached v false)
    (hfold : p.required.keys.foldlM (undrain v) (s.recordAck e v now q engine).engines = some
      engines) :
    Reached v p s0 (acked ++ [e])
      ((s.recordAck e v now q engine).activated v (q.acknowledged e now) engines) := by
  have hactive0 : (s.recordAck e v now q engine).active = s0.active :=
    h.active.trans (if_neg hpending)
  have hlastGood : s.lastGood = s0.lastGood := h.lastGood.trans (if_neg fun hand => hpending hand.1)
  refine ⟨h.runID, by rw [if_pos hlast]; rfl, ?_, ?_, fun u hu => ?_, fun x => ?_⟩
  · show (if s.lastGood = "" then v else s.lastGood) = _
    rw [hlastGood]
    simp only [hlast, true_and]
  · refine ⟨_, FinMap.get_set_self _ _ _, ?_⟩
    refine Prod.ext ?_ (Set.ext (mem_keys_acknowledged hacks e now))
    unfold DurablePublication.stage
    rw [if_pos hlast, hq]
    rfl
  · show ((supersedePrevious (s.recordAck e v now q engine) v).set v _).get u = _
    rw [FinMap.get_set_ne _ _ hu, get_supersedePrevious (hactive0 ▸ hrollout.inactive),
      h.others_recordAck hpending hu, hactive0]
    simp only [hlast, true_and]
  · have hundrained := FinMap.get_of_foldlM_modifyWhere p.required.keys_nodup hfold x
    have hrecorded := h.engines_recordAck hpending hengine0 hengine (q := q) x
    show (engines.get x).map EngineState.untimed = _
    rw [hundrained, decide_eq_true hlast]
    by_cases hx : x ∈ p.required.keys
    · have hmem : x ∈ acked ++ [e] := hlast x hx
      simp only [hmem, if_true] at hrecorded
      simp only [hx, hmem, and_self, if_true]
      -- Taking an engine out of draining commutes with dropping its time stamp.
      rw [Option.map_map, show EngineState.untimed ∘ _ =
        (fun engine : EngineState => { engine with desiredVersion := v, draining := false }) ∘
          EngineState.untimed from rfl, ← Option.map_map, hrecorded, Option.map_map]
      rfl
    · have hmem : x ∉ acked ++ [e] := fun hmem => hx (hsub x hmem)
      simp only [hmem, if_false] at hrecorded
      simp only [hx, hmem, false_and, if_false, Option.map_id']
      exact hrecorded

/-- One acknowledgement by a required engine, in time and with the right checksum. -/
theorem Reached.acknowledge (h : Reached v p s0 acked s) (hrollout : Rollout v p s0)
    (hsub : ∀ x ∈ acked ++ [e], x ∈ p.required.keys) (hnow : now ≤ p.deadline) :
    ∃ s', acknowledge s e v p.resultSHA256 now = .commit s' (decide (p.AckedBy (acked ++ [e]))) ∧
      Reached v p s0 (acked ++ [e]) s' := by
  have he : e ∈ p.required.keys := hsub e (by simp)
  by_cases hcomplete : p.AckedBy acked
  · have hsame : ∀ x, x ∈ acked ↔ x ∈ acked ++ [e] := by
      intro x
      refine ⟨fun hx => List.mem_append_left _ hx, fun hx => hcomplete x (hsub x hx)⟩
    obtain ⟨s', hcommit, hs'⟩ := h.confirm hrollout hcomplete he now
    refine ⟨s', ?_, hs'.congr hsame⟩
    rw [hcommit, decide_eq_true ((DurablePublication.ackedBy_congr hsame).mp hcomplete)]
  · obtain ⟨q, engine0, engine, hrecording, hq, hacks, hengine0, hengine⟩ :=
      h.recording hrollout hcomplete he hnow
    have hrequired : q.required = p.required := by rw [hq]
    have hsize : (q.acks.set e now).size = q.required.size ↔ p.AckedBy (acked ++ [e]) := by
      rw [hrequired]
      exact size_acks_eq_iff (mem_keys_acknowledged hacks e now) hsub
    rw [acknowledge_recording hrecording (by rw [hrequired]; exact hrollout.required e he)]
    by_cases hlast : p.AckedBy (acked ++ [e])
    · rw [if_neg (not_not.mpr (hsize.mpr hlast)), decide_eq_true hlast]
      have hregistered : ∀ x ∈ p.required.keys,
          x ∈ (s.recordAck e v now q engine).engines.keys := by
        intro x hx
        obtain ⟨engine', hengine'⟩ := FinMap.mem_keys_iff.mp (hrollout.registered x hx)
        have hview := h.engines_recordAck hcomplete hengine0 hengine (q := q) x
        rw [hengine', Option.map_some] at hview
        obtain ⟨_, hget, -⟩ := Option.map_eq_some_iff.mp hview
        exact FinMap.mem_keys_of_get hget
      obtain ⟨engines, hfold⟩ := FinMap.foldlM_modifyWhere_isSome (fun _ => true)
        (fun engine : EngineState => { engine with desiredVersion := v, draining := false })
        hregistered
      refine ⟨_, activate_eq ?_,
        h.activated hrollout hcomplete hsub hlast hq hacks hengine0 hengine hfold⟩
      show q.required.keys.foldlM _ _ = _
      rw [hrequired]
      exact hfold
    · rw [if_pos fun heq => hlast (hsize.mp heq), decide_eq_false hlast]
      exact ⟨_, rfl, h.pending hcomplete hlast hq hacks hengine0 hengine⟩

end

/-! ## Sequences of acknowledgements -/

/-- A call of `Acknowledge` for the version: who makes it and when. -/
structure Acknowledgement where
  engineID : String
  now : Time

/-- The calls are by required engines and before the deadline. -/
def DurablePublication.Admits (p : DurablePublication) (calls : List Acknowledgement) : Prop :=
  ∀ call ∈ calls, call.engineID ∈ p.required.keys ∧ call.now ≤ p.deadline

section Sequences

variable {σ : Type}

/-- The world after a sequence of acknowledgements of one version, all with the same
checksum and with a working repository. -/
def acknowledgeAll (w : World σ) (runID v c : String) (calls : List Acknowledgement) : World σ :=
  calls.foldl
    (fun w call => (Service.acknowledge w .none runID call.engineID v c call.now).2) w

theorem acknowledge_of_commit {w : World σ} {runID e v c : String} {now : Time} {s' : RunState}
    {b : Bool} (hrun : (w.run runID).runID = runID)
    (h : acknowledge (w.run runID) e v c now = .commit s' b) :
    Service.acknowledge w .none runID e v c now = (.ok b, w.store s' w.artifacts) := by
  unfold Service.acknowledge World.withRun World.load
  rw [Outage.load_none]
  dsimp only
  rw [if_neg (not_not.mpr hrun)]
  dsimp only
  rw [h]
  rfl

/-- One more call: its reply, and the state it leads to. -/
theorem Reached.call {w w0 : World σ} {runID v : String} {p : DurablePublication}
    {calls : List Acknowledgement} {call : Acknowledgement}
    (h : Reached v p (w0.run runID) (calls.map Acknowledgement.engineID) (w.run runID))
    (hrun : (w0.run runID).runID = runID) (hrollout : Rollout v p (w0.run runID))
    (hcalls : p.Admits (calls ++ [call])) :
    ∃ w', Service.acknowledge w .none runID call.engineID v p.resultSHA256 call.now =
        (.ok (decide (p.AckedBy ((calls ++ [call]).map Acknowledgement.engineID))), w') ∧
      Reached v p (w0.run runID) ((calls ++ [call]).map Acknowledgement.engineID)
        (w'.run runID) := by
  have hsub : ∀ x ∈ calls.map Acknowledgement.engineID ++ [call.engineID], x ∈ p.required.keys := by
    intro x hx
    rw [← List.map_singleton, ← List.map_append] at hx
    obtain ⟨call', hcall', rfl⟩ := List.mem_map.mp hx
    exact (hcalls call' hcall').1
  have hnow : call.now ≤ p.deadline := (hcalls call (by simp)).2
  obtain ⟨s', hcommit, hs'⟩ := h.acknowledge hrollout hsub hnow
  rw [List.map_append, List.map_singleton]
  refine ⟨_, acknowledge_of_commit (h.runID.trans hrun) hcommit, ?_⟩
  rw [World.run_store, if_pos (hs'.runID.trans hrun).symm]
  exact hs'

theorem acknowledgeAll_append (w : World σ) (runID v c : String) (calls : List Acknowledgement)
    (call : Acknowledgement) :
    acknowledgeAll w runID v c (calls ++ [call]) =
      (Service.acknowledge (acknowledgeAll w runID v c calls) .none runID call.engineID v c
        call.now).2 := by
  unfold acknowledgeAll
  rw [List.foldl_append]
  rfl

theorem reached_acknowledgeAll {w : World σ} {runID v : String} {p : DurablePublication}
    (hrun : (w.run runID).runID = runID) (hrollout : Rollout v p (w.run runID))
    {calls : List Acknowledgement} (hcalls : p.Admits calls) :
    Reached v p (w.run runID) (calls.map Acknowledgement.engineID)
      ((acknowledgeAll w runID v p.resultSHA256 calls).run runID) := by
  induction calls using List.reverseRecOn with
  | nil => exact hrollout.reached
  | append_singleton calls call ih =>
    have hearlier := ih fun call' hcall' => hcalls call' (List.mem_append_left _ hcall')
    obtain ⟨w', hw', hreached⟩ := hearlier.call hrun hrollout hcalls
    rw [acknowledgeAll_append, hw']
    exact hreached

/-- From a ready version that nobody has acknowledged, every sequence of
acknowledgements by required engines, in time and with the recorded checksum: each
call succeeds and reports the version active exactly when every required engine has
acknowledged by then, and two sequences by the same engines lead to the same state of
the run, time stamps aside. -/
theorem acknowledgement_order_irrelevant (w : World σ) (runID v : String) (p : DurablePublication)
    (hrun : (w.run runID).runID = runID) (hrollout : Rollout v p (w.run runID)) :
    (∀ (earlier : List Acknowledgement) (call : Acknowledgement), p.Admits (earlier ++ [call]) →
      (Service.acknowledge (acknowledgeAll w runID v p.resultSHA256 earlier) .none runID
          call.engineID v p.resultSHA256 call.now).1 =
        .ok (decide (∀ e ∈ p.required.keys,
          e ∈ (earlier ++ [call]).map Acknowledgement.engineID))) ∧
    ∀ calls calls' : List Acknowledgement, p.Admits calls → p.Admits calls' →
      (∀ e, e ∈ calls.map Acknowledgement.engineID ↔
        e ∈ calls'.map Acknowledgement.engineID) →
      ((acknowledgeAll w runID v p.resultSHA256 calls).run runID).untimed =
        ((acknowledgeAll w runID v p.resultSHA256 calls').run runID).untimed := by
  refine ⟨fun earlier call hcalls => ?_, fun calls calls' hcalls hcalls' hsame => ?_⟩
  · have hearlier := reached_acknowledgeAll hrun hrollout
      fun call' hcall' => hcalls call' (List.mem_append_left _ hcall')
    obtain ⟨w', hw', -⟩ := hearlier.call hrun hrollout hcalls
    rw [hw']
    rfl
  · exact (reached_acknowledgeAll hrun hrollout hcalls).untimed_eq
      (reached_acknowledgeAll hrun hrollout hcalls') hsame

end Sequences

namespace Trial

def pairRollout : Calls :=
  [.registerEngine "run" "a" "", .registerEngine "run" "b" "",
    .publish (manifest "v1" "full" "") ["a", "b"] 100 0, .materialize "run" "v1"]

theorem rollout_pairRollout :
    ∃ p, Rollout "v1" p ((after pairRollout).run "run") ∧ p.required.keys = ["b", "a"] ∧
      p.deadline = 100 :=
  ⟨_, ⟨rfl, rfl, rfl, by decide, by decide, by decide, by decide⟩, rfl, rfl⟩

end Trial

theorem acknowledgement_order_irrelevant_pair :
    ∃ p, Rollout "v1" p ((Trial.after Trial.pairRollout).run "run") ∧
      (Service.acknowledge (acknowledgeAll (Trial.after Trial.pairRollout) "run" "v1"
        p.resultSHA256 [⟨"b", 1⟩, ⟨"b", 2⟩]) .none "run" "a" "v1" p.resultSHA256 3).1 = .ok true ∧
      ((acknowledgeAll (Trial.after Trial.pairRollout) "run" "v1" p.resultSHA256
          [⟨"b", 1⟩, ⟨"b", 2⟩, ⟨"a", 3⟩]).run "run").untimed =
        ((acknowledgeAll (Trial.after Trial.pairRollout) "run" "v1" p.resultSHA256
          [⟨"a", 1⟩, ⟨"b", 2⟩, ⟨"a", 3⟩]).run "run").untimed := by
  obtain ⟨p, hrollout, hkeys, hdeadline⟩ := Trial.rollout_pairRollout
  have hadmits : ∀ calls : List Acknowledgement,
      (∀ call ∈ calls, call.engineID ∈ ["b", "a"] ∧ call.now ≤ 100) → p.Admits calls := by
    intro calls hcalls call hcall
    rw [hkeys, hdeadline]
    exact hcalls call hcall
  obtain ⟨hreply, hstate⟩ := acknowledgement_order_irrelevant _ "run" "v1" p rfl hrollout
  refine ⟨p, hrollout, ?_, hstate _ _ (hadmits _ (by decide)) (hadmits _ (by decide)) ?_⟩
  · rw [hreply [⟨"b", 1⟩, ⟨"b", 2⟩] ⟨"a", 3⟩ (hadmits _ (by decide)), hkeys]
    rfl
  · intro e
    simp only [List.map_cons, List.map_nil, List.mem_cons, List.not_mem_nil, or_false]
    tauto

end Weights
end Skyscale
