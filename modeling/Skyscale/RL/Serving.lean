import Skyscale.RL.Changes

/-!
# Handlers are lawful

Every operation a handler or a queue round performs, served alone, is `Lawful`.  A
handler reads a row, decides, and writes the changed row, with only plain operations in
between; so up to its write the ledger extends the one it started in (`Extends L0`), and
after it only plain operations follow.

`Lawfully p L` says that `p` performs lawful operations only when it is started in `L`.
-/

namespace Skyscale
namespace RL

open Lib State Control K8s Contracts

section Rules

variable (strict : Bool) (cfg : Config) (request : Request) (L0 : Ledger)

/-- Operations are performed on a ledger, and each is lawful. -/
abbrev supervised : OpSpec Op Ans Ledger :=
  checking Ledger.Records (Lawful strict cfg request L0)

/-- Started in this ledger, the program performs lawful operations only. -/
def Lawfully {α : Type} (p : Program α) (L : Ledger) : Prop :=
  wp (supervised strict cfg request L0) p (fun _ _ => True) L

end Rules

variable {strict : Bool} {cfg : Config} {request : Request} {L0 L : Ledger} {α β : Type}

variable {p : Program α} {id : String} {run : RLRun} {body : CheckpointBody}

theorem supervised_of_plain {Q : α → Unit → Prop} (h : wp (rely (fun _ _ => True) Plain) p Q ())
    (L : Ledger) :
    wp (supervised strict cfg request L0) p (fun a L' => Q a () ∧ Extends L L') L := by
  have hlawful : ∀ L op, Plain op → Lawful strict cfg request L0 L op := fun _ _ hop => .plain hop
  have hextends : ∀ L op ans L', Plain op → Ledger.Records L op ans L' → Extends L L' :=
    fun _ _ _ _ hop hrec => extends_of_plain hrec hop
  exact wp_checking_of_rely Extends.refl (fun h1 h2 => Extends.trans h1 h2) hlawful hextends h L

theorem Quiet.supervised (h : Quiet p) (L : Ledger) :
    wp (supervised strict cfg request L0) p (fun _ L' => Extends L L') L :=
  wp_mono (fun _ _ hpost => hpost.2) (supervised_of_plain h L)

theorem Quiet.lawfully (h : Quiet p) : Lawfully strict cfg request L0 p L :=
  wp_mono (fun _ _ _ => trivial) (h.supervised L)

theorem Lawfully.pure (a : α) : Lawfully strict cfg request L0 (pure a) L := trivial

theorem Lawfully.bind {f : α → Program β} {Q : α → Ledger → Prop}
    (hp : wp (supervised strict cfg request L0) p Q L)
    (hf : ∀ a L', Q a L' → Lawfully strict cfg request L0 (f a) L') :
    Lawfully strict cfg request L0 (p >>= f) L := by
  unfold Lawfully
  rw [wp_bind]
  exact wp_mono hf hp

theorem Lawfully.call {op : Op} {f : Ans op → Program β}
    (hop : Lawful strict cfg request L0 L op)
    (hf : ∀ ans L', L.Records op ans L' → Lawfully strict cfg request L0 (f ans) L') :
    Lawfully strict cfg request L0 (Control.call op >>= f) L :=
  ⟨hop, hf⟩

theorem Lawfully.skip {f : α → Program β} (hp : Quiet p) (h : Extends L0 L)
    (hf : ∀ a L', Extends L0 L' → Lawfully strict cfg request L0 (f a) L') :
    Lawfully strict cfg request L0 (p >>= f) L :=
  Lawfully.bind (hp.supervised L) fun a L' hL' => hf a L' (h.trans hL')

theorem Lawfully.write {op : Op} {f : Ans op → Program β}
    (hop : Lawful strict cfg request L0 L op) (hf : ∀ ans, Quiet (f ans)) :
    Lawfully strict cfg request L0 (Control.call op >>= f) L :=
  Lawfully.call hop fun ans _ _ => (hf ans).lawfully

theorem Lawfully.getRLRun {f : Except Failure RLRun → Program α} (h : Extends L0 L)
    (hok : ∀ run L', run.id = id → L0.world.row .runs run.id = some run → Extends L0 L' → Lawfully
      strict cfg request L0 (f (.ok run)) L') (herror : ∀ e, Quiet (f (.error e))) :
    Lawfully strict cfg request L0 (State.getRLRun id >>= f) L := by
  refine ⟨.plain trivial, fun ans L' hrec => ?_⟩
  have hext : Extends L L' := extends_of_plain hrec trivial
  cases ans with
  | error e => exact (herror e).lawfully
  | ok run =>
    obtain ⟨hrow, hid⟩ := Database.Selects.row_eq hrec.1.2
    exact hok run L' (by simpa using hid) ((h.runs run.id).symm.trans hrow) (h.trans hext)

theorem lawfully_withRLRun {next : RLRun → Handler} (h : Extends L0 L)
    (hnext : ∀ run L', run.id = id → L0.world.row .runs run.id = some run → Extends L0 L' →
      Lawfully strict cfg request L0 (next run) L') :
    Lawfully strict cfg request L0 (withRLRun id next) L :=
  Lawfully.getRLRun h hnext fun _ => Obeys.pure _

theorem Lawfully.saveRLRun {f : Except Failure Unit → Program α}
    (hop : RunWrite strict cfg request L0 L run)
    (hf : ∀ ans L', L.Records (.sql (.save .runs run)) ans L' → Lawfully strict cfg request L0 (f
      ans) L') :
    Lawfully strict cfg request L0 (State.saveRLRun run >>= f) L :=
  Lawfully.call (.run hop) hf

theorem lawfully_saveRLRun {f : Except Failure Unit → Program α}
    (hop : RunWrite strict cfg request L0 L run) (hf : ∀ ans, Quiet (f ans)) :
    Lawfully strict cfg request L0 (saveRLRun run >>= f) L :=
  Lawfully.write (.run hop) hf

theorem lawfully_savingRLRun {text : String} {next : Handler}
    (hop : RunWrite strict cfg request L0 L run) (hnext : Quiet next) :
    Lawfully strict cfg request L0 (savingRLRun run text next) L := by
  refine lawfully_saveRLRun hop fun saved => ?_
  cases saved with
  | error e => exact Obeys.pure _
  | ok _ => exact hnext

theorem Extends.ask {stored : RLRun} (h : Extends L0 L)
    (horigin : L0.world.row .runs stored.id = some stored)
    (hasked : Asked cfg request L.world stored run) :
    RunWrite strict cfg request L0 L run :=
  .change ((h.runs stored.id).trans horigin) (.ask horigin hasked)

theorem Extends.askSame {stored : RLRun} (h : Extends L0 L)
    (horigin : L0.world.row .runs stored.id = some stored) (hcore : core run = core stored) :
    RunWrite strict cfg request L0 L run :=
  h.ask horigin (.same hcore)

/-! ## Starting runs -/

theorem wp_countActiveTenantRLRuns (tenantID : String) (L : Ledger) :
    wp (supervised strict cfg request L0) (countActiveTenantRLRuns tenantID) (fun r L' =>
      Extends L L' ∧ ∀ n, r = .ok n → n = activeRuns L'.world tenantID) L := by
  refine ⟨.plain trivial, fun ans L' hrec => ⟨extends_of_plain hrec trivial, ?_⟩⟩
  rintro n rfl
  obtain ⟨hworld, hn⟩ := hrec.1
  rw [hn, activeRuns, hworld]

/-- A slime run is written only if the quota admits it beside the runs stored then. -/
theorem lawfully_rlStartSlimeRun {start : StartRequest} (h : Extends L0 L)
    (hrequest : request = .startRun start) :
    Lawfully strict cfg request L0 (rlStartSlimeRun cfg start) L := by
  unfold rlStartSlimeRun
  split
  · exact Lawfully.pure _
  split
  · exact Lawfully.pure _
  rename_i requested hrequested
  refine Lawfully.call (.plain trivial) fun runID L1 hid => ?_
  obtain ⟨hworld, hfresh, hgenerated⟩ := hid.1
  have hfresh1 : L1.world.row .runs runID = none := by rw [hworld]; exact hfresh
  have hext1 : Extends L0 L1 := h.trans (extends_of_plain hid trivial)
  refine Lawfully.call (.plain trivial) fun now L2 hnow => ?_
  have hext2 : Extends L1 L2 := extends_of_plain hnow trivial
  dsimp only
  split
  · exact Lawfully.pure _
  rename_i accepted haccepted
  refine Lawfully.bind (wp_countActiveTenantRLRuns _ L2) fun active L3 hactive => ?_
  cases active with
  | error e => exact Lawfully.pure _
  | ok n =>
    have hn : n = _ := hactive.2 n rfl
    dsimp only
    split
    · exact Lawfully.pure _
    rename_i hquota
    have hext3 := hext1.trans (hext2.trans hactive.1)
    refine lawfully_saveRLRun (.create ?_ (.slime (hext3.table .runs rfl fun h => by cases h)
      ⟨⟨rfl, rfl, rfl, rfl, rfl, hgenerated⟩, start, requested, accepted, hrequest,
        hrequested, rfl, ?_, rfl, ?_⟩)) fun saved => ?_
    · exact ((hext2.trans hactive.1).runs runID).trans hfresh1
    · -- The snapshot is of the normalized specification.
      unfold snapshot at haccepted
      dsimp only at haccepted
      split at haccepted
      · cases haccepted
      · cases haccepted
        rfl
    · rw [hn] at hquota
      exact hquota
    · cases saved with
      | error e | ok _ => exact Obeys.pure _

theorem lawfully_rlStartRun {start : StartRequest} (h : Extends L0 L)
    (hrequest : request = .startRun start) :
    Lawfully strict cfg request L0 (rlStartRun cfg start) L := by
  unfold rlStartRun
  split
  · exact Lawfully.pure _
  split
  · exact lawfully_rlStartSlimeRun h hrequest
  · split
    · exact Lawfully.pure _
    rename_i body _
    refine Lawfully.call (.plain trivial) fun runID L1 hid => ?_
    obtain ⟨hworld, hfresh, -⟩ := hid.1
    have hfresh1 : L1.world.row .runs runID = none := by rw [hworld]; exact hfresh
    refine Lawfully.call (.plain trivial) fun now L2 hnow => ?_
    have hext2 : Extends L1 L2 := extends_of_plain hnow trivial
    refine Lawfully.saveRLRun (.create ((hext2.runs runID).trans hfresh1) (.plain rfl rfl rfl))
      fun saved L3 hsaved => ?_
    cases saved with
    | error e => exact Lawfully.pure _
    | ok _ =>
      -- The new row stays as it was saved until the second save.
      have hstored : L3.world.row Table.runs runID =
          some (newRun (body.withDefaults cfg start) runID) := by
        rw [show L3.world = _ from hsaved.1]
        exact row_save_self (t := .runs) _
          (newRun (body.withDefaults cfg start) runID)
      refine Lawfully.bind ((still_spawnJob _ _).quiet.supervised L3) fun _ L4 h4 => ?_
      refine Lawfully.bind ((still_spawnJob _ _).quiet.supervised L4) fun _ L5 h5 => ?_
      refine Lawfully.bind
        (Quiet.supervised (Obeys.forEach fun i _ => (still_spawnJob _ _).quiet) L5)
        fun _ L6 h6 => ?_
      refine lawfully_saveRLRun (.change
        (((h4.trans (h5.trans h6)).runs runID).trans hstored)
        (.plain (fun h => by cases h) .running nofun rfl))
        fun _ => Obeys.pure _

/-! ## Handlers that change a run -/

theorem lawfully_rlSetPolicyServer (h : Extends L0 L) (id url : String) :
    Lawfully strict cfg request L0 (rlSetPolicyServer id url) L := by
  unfold rlSetPolicyServer
  split
  · exact Lawfully.pure _
  · exact lawfully_withRLRun h fun run L' _ hrow h' =>
      lawfully_savingRLRun (h'.askSame hrow rfl) (Obeys.pure _)

theorem lawfully_rlStopRun (h : Extends L0 L) (hrequest : request = .stopRun id) :
    Lawfully strict cfg request L0 (rlStopRun id) L := by
  refine lawfully_withRLRun h fun run L' hid hrow h' => ?_
  split
  · rename_i hslime
    refine lawfully_savingRLRun (h'.ask hrow (.cancelled ?_ hslime rfl)) (Obeys.pure _)
    rw [hrequest, hid]
  · rename_i hbackend
    refine lawfully_saveRLRun (.change ((h'.runs run.id).trans hrow)
      (.plain hbackend .stopped nofun rfl)) fun _ => ?_
    exact Obeys.bind (Obeys.forEach fun execID _ => (still_stopExecution execID).quiet) fun _ =>
      Obeys.pure _

theorem lawfully_setSlimeDesiredState {desired : DesiredState} (h : Extends L0 L)
    (hasked : ∀ (run : RLRun) (w : World), run.id = id → run.backend = .slime →
      terminal run.status = false → Asked cfg request w run
        { run with
          desiredState := desired
          status := if desired = .running then .starting else run.status }) :
    Lawfully strict cfg request L0 (setSlimeDesiredState id desired) L := by
  refine lawfully_withRLRun h fun run L' hid hrow h' => ?_
  split
  · exact Lawfully.pure _
  rename_i hslime
  split
  · exact Lawfully.pure _
  · rename_i hlive
    have hask := hasked run L'.world hid (not_not.mp hslime) (Bool.eq_false_of_not_eq_true hlive)
    exact lawfully_savingRLRun (h'.ask hrow hask) (Obeys.pure _)

theorem lawfully_rlSuspendRun (h : Extends L0 L) (hrequest : request = .suspendRun id) :
    Lawfully strict cfg request L0 (rlSuspendRun id) L :=
  lawfully_setSlimeDesiredState h fun _ _ hid hslime hlive =>
    .suspended (hid ▸ hrequest) hslime hlive rfl

theorem lawfully_rlResumeRun (h : Extends L0 L) (hrequest : request = .resumeRun id) :
    Lawfully strict cfg request L0 (rlResumeRun id) L :=
  lawfully_setSlimeDesiredState h fun _ _ hid hslime hlive =>
    .resumed (hid ▸ hrequest) hslime hlive rfl

theorem lawfully_rlCollect (h : Extends L0 L) (id url : String) (body : Option CollectBody) :
    Lawfully strict cfg request L0 (rlCollect id url body) L := by
  refine lawfully_withRLRun h fun run L' _ hrow h' => ?_
  split
  · exact Lawfully.pure _
  split
  · exact Lawfully.pure _
  refine Lawfully.skip (still_enqueueWorkerRound _ _ _ _).quiet h' fun enqueued L1 h1 => ?_
  split
  · exact Lawfully.pure _
  · exact lawfully_saveRLRun (h1.askSame hrow rfl) fun _ => Obeys.pure _

theorem lawfully_rlPolicyRedeploy (h : Extends L0 L) (id checkpointURL url : String) :
    Lawfully strict cfg request L0 (rlPolicyRedeploy cfg id checkpointURL url) L := by
  unfold rlPolicyRedeploy
  split
  · exact Lawfully.pure _
  refine lawfully_withRLRun h fun run L' _ hrow h' => ?_
  refine Lawfully.skip (still_terminatePolicy _).quiet h' fun _ L1 h1 => ?_
  refine lawfully_saveRLRun (h1.askSame hrow rfl) fun _ => ?_
  refine Obeys.call trivial fun now => ?_
  refine Obeys.bind (still_saveExecution _).quiet fun _ => ?_
  refine Obeys.bind (still_enqueueJob _).quiet fun enqueued => ?_
  split
  · exact Obeys.pure _
  · exact Obeys.pure _

theorem lawfully_rlGroupedSampleClaim (h : Extends L0 L) (body : Option ClaimBody) :
    Lawfully strict cfg request L0 (rlGroupedSampleClaim cfg body) L := by
  unfold rlGroupedSampleClaim
  split
  · exact Lawfully.pure _
  split
  · exact Lawfully.pure _
  refine lawfully_withRLRun h fun run L' _ hrow h' => ?_
  refine Lawfully.skip (Obeys.perform trivial) h' fun turn L1 h1 => ?_
  split
  · exact Lawfully.pure _
  · exact Lawfully.pure _
  refine Lawfully.skip (Obeys.perform trivial) h1 fun claimed L2 h2 => ?_
  split
  · exact Lawfully.pure _
  · exact Lawfully.pure _
  split
  · exact Quiet.lawfully (Obeys.call trivial fun _ => Obeys.pure _)
  · refine Lawfully.skip (still_admitSamples _ _ _ _).quiet h2 fun decisions L3 h3 => ?_
    split
    · refine Lawfully.skip (Obeys.perform trivial) h3 fun _ L4 h4 => ?_
      exact lawfully_saveRLRun (h4.askSame hrow rfl) fun _ => Obeys.pure _
    · exact Quiet.lawfully (Obeys.call trivial fun _ => Obeys.pure _)
    · exact Lawfully.pure _

theorem lawfully_rlGroupedSampleBackpressure (h : Extends L0 L) (runID : String) :
    Lawfully strict cfg request L0 (rlGroupedSampleBackpressure cfg runID) L := by
  unfold rlGroupedSampleBackpressure
  split
  · exact Lawfully.pure _
  refine lawfully_withRLRun h fun run L' _ hrow h' => ?_
  refine Lawfully.skip (Obeys.perform trivial) h' fun state L1 h1 => ?_
  split
  · exact Lawfully.pure _
  · split
    · exact lawfully_saveRLRun (h1.askSame hrow rfl) fun _ => Obeys.pure _
    · exact Lawfully.pure _

theorem lawfully_rlRolloutMetrics (h : Extends L0 L) (id : String) (body : Option MetricsBody) :
    Lawfully strict cfg request L0 (rlRolloutMetrics id body) L := by
  refine lawfully_withRLRun h fun run L' _ hrow h' => ?_
  split
  · exact Lawfully.pure _
  · exact lawfully_savingRLRun (h'.askSame hrow rfl) (Obeys.pure _)

/-! ## Weights -/

theorem lawfully_rlPublishWeights (h : Extends L0 L) (body : Option PublishBody) :
    Lawfully strict cfg request L0 (rlPublishWeights cfg body) L := by
  unfold rlPublishWeights
  split
  · exact Lawfully.pure _
  split
  · exact Lawfully.pure _
  refine lawfully_withRLRun h fun run L' _ hrow h' => ?_
  refine Lawfully.skip (Obeys.perform trivial) h' fun published L1 h1 => ?_
  split
  · exact Lawfully.pure _
  refine Lawfully.skip (Obeys.perform trivial) h1 fun result L2 h2 => ?_
  split
  · exact Lawfully.pure _
  · exact lawfully_saveRLRun (h2.askSame hrow rfl) fun _ => Obeys.pure _

theorem lawfully_rlAcknowledgeWeights (h : Extends L0 L) {version : String}
    {body : Option AcknowledgeBody} (hrequest : request = .acknowledgeWeights version body) :
    Lawfully strict cfg request L0 (rlAcknowledgeWeights cfg version body) L := by
  unfold rlAcknowledgeWeights
  split
  · exact Lawfully.pure _
  split
  · exact Lawfully.pure _
  rename_i ack hack
  obtain rfl : body = some ack := (Option.filter_eq_some_iff.mp hack).1
  refine Lawfully.skip (Obeys.perform trivial) h fun result L1 h1 => ?_
  split
  · exact Lawfully.pure _
  · exact Lawfully.pure _
  · refine Lawfully.getRLRun h1 (fun run L2 hid hrow h2 => ?_) fun _ => Obeys.pure _
    exact lawfully_saveRLRun (h2.ask hrow (.activated ack hrequest hid.symm rfl))
      fun _ => Obeys.pure _

theorem lawfully_rlRollbackWeights (h : Extends L0 L) {body : Option RollbackBody}
    (hrequest : request = .rollbackWeights body) :
    Lawfully strict cfg request L0 (rlRollbackWeights cfg body) L := by
  unfold rlRollbackWeights
  split
  · exact Lawfully.pure _
  split
  · exact Lawfully.pure _
  rename_i back hback
  obtain rfl : body = some back := (Option.filter_eq_some_iff.mp hback).1
  refine Lawfully.skip (Obeys.perform trivial) h fun result L1 h1 => ?_
  split
  · exact Lawfully.pure _
  · refine Lawfully.getRLRun h1 (fun run L2 hid hrow h2 => ?_) fun _ => Obeys.pure _
    exact lawfully_saveRLRun (h2.ask hrow (.rolledBack back hrequest hid.symm rfl))
      fun _ => Obeys.pure _

/-! ## Evaluations, checkpoints, progress -/

theorem wp_getRLEvaluation (runID version : String) (L : Ledger) :
    wp (supervised strict cfg request L0) (getRLEvaluation runID version) (fun r L' =>
      Extends L L' ∧ ∀ e : RLEvaluationRecord, r = .ok e →
        L'.world.row .evaluations e.id = some e ∧ e.runID = runID ∧ e.policyVersion = version)
          L := by
  refine ⟨.plain trivial, fun ans L' hrec => ⟨extends_of_plain hrec trivial, ?_⟩⟩
  rintro e rfl
  obtain ⟨hrow, hwhere⟩ := Database.Selects.row_eq hrec.1.2
  rw [hrec.1.1]
  exact ⟨hrow, by simpa using hwhere⟩

theorem lawfully_rlEvaluateWeights (h : Extends L0 L) {version : String}
    {body : Option EvaluateBody} (hrequest : request = .evaluateWeights id version body) :
    Lawfully strict cfg request L0 (rlEvaluateWeights cfg id version body) L := by
  refine lawfully_withRLRun h fun run L' hid hrow h' => ?_
  split
  · exact Lawfully.pure _
  rename_i snapshot hsnapshot
  split
  · exact Lawfully.pure _
  rename_i report
  refine Lawfully.bind (wp_getRLEvaluation run.id version L') fun found L1 hfound => ?_
  split
  · exact Lawfully.pure _
  rename_i e
  obtain ⟨hstored, hrun, hversion⟩ := hfound.2 e rfl
  have h1 : Extends L0 L1 := h'.trans hfound.1
  refine Lawfully.call (.evaluation <| .judge ?_ hrow ((h1.runs run.id).trans hrow)
    hsnapshot hstored hrun) fun saved L2 _ => ?_
  · rw [hrequest, hid, hversion]
  · split
    · exact Lawfully.pure _
    · split
      · exact Lawfully.pure _
      · exact Lawfully.pure _

/-- Committing a checkpoint leaves the runs alone; the identifier it returns is that of
a checkpoint at the step, and no other checkpoint is new. -/
structure Checkpointed (L0 L : Ledger) (stored : RLRun) (body : CheckpointBody)
    (saved : Except Failure String) : Prop where
  run : L.world.row .runs stored.id = some stored
  checkpoint : ∀ id, saved = .ok id → CheckpointAt L.world id stored.id body.optimizerStep
  others : ∀ other : RLCheckpointRecord, L.world.row .checkpoints other.id = some other →
    L0.world.row .checkpoints other.id = some other ∨ other = committed stored.id body

theorem Checkpointed.extend {L' : Ledger} {stored : RLRun} {saved : Except Failure String}
    (h : Checkpointed L0 L stored body saved) (hruns : L'.world.table .runs = L.world.table .runs)
    (hcheckpoints : L'.world.table .checkpoints = L.world.table .checkpoints) :
    Checkpointed L0 L' stored body saved := by
  have hrow : ∀ id, L'.world.row .checkpoints id = L.world.row .checkpoints id :=
    row_congr hcheckpoints
  refine ⟨?_, fun id hid => ?_, fun other hother => ?_⟩
  · exact (row_congr hruns stored.id).trans h.run
  · obtain ⟨checkpoint, hstored, hfacts⟩ := h.checkpoint id hid
    exact ⟨checkpoint, (hrow id).trans hstored, hfacts⟩
  · exact h.others other ((hrow other.id).symm.trans hother)

theorem wp_saveRLCheckpoint {stored : RLRun} (h : Extends L0 L)
    (horigin : L0.world.row .runs stored.id = some stored) (hcommit : Commits request stored body) :
    wp (supervised strict cfg request L0) (saveRLCheckpoint (committed stored.id body))
      (fun saved L' => Checkpointed L0 L' stored body saved) L := by
  refine ⟨.plain trivial, fun existing L1 hrec => ?_⟩
  have hext : Extends L L1 := extends_of_plain hrec trivial
  have hrow1 : L1.world.row .runs stored.id = some stored :=
    ((h.trans hext).runs stored.id).trans horigin
  have hsame : ∀ id, L1.world.row .checkpoints id = L0.world.row .checkpoints id :=
    row_congr
      ((h.trans hext).table .checkpoints rfl nofun)
  -- without an insertion the checkpoints are those of the first ledger
  have hnothing : ∀ saved, (∀ id, saved = .ok id →
      CheckpointAt L1.world id stored.id body.optimizerStep) →
      Checkpointed L0 L1 stored body saved := fun saved hsaved =>
    ⟨hrow1, hsaved, fun other hother => .inl ((hsame other.id).symm.trans hother)⟩
  cases existing with
  | ok existing =>
    obtain ⟨hexisting, hwhere⟩ := Database.Selects.row_eq hrec.1.2
    show wp _ (if _ then _ else _) _ L1
    split
    · refine hnothing _ fun id hid => ⟨existing, ?_, by simpa [committed] using hwhere⟩
      cases hid
      rw [hrec.1.1]
      exact hexisting
    · exact hnothing _ nofun
  | error e =>
    cases e with
    | other text => exact hnothing _ nofun
    | notFound =>
      refine ⟨.commit horigin hcommit, fun created L2 hinsert => ?_⟩
      have hrow2 : L2.world.row .runs stored.id = some stored :=
        (hinsert.row_of_target_ne (t := .runs) nofun stored.id).trans hrow1
      cases created with
      | error e =>
        have hworld : L2.world = L1.world := hinsert.1
        refine ⟨hrow2, nofun, fun other hother => .inl ?_⟩
        rw [hworld] at hother
        exact (hsame other.id).symm.trans hother
      | ok _ =>
        obtain ⟨-, hworld⟩ := save_of_insert_checkpoint hinsert rfl
        refine ⟨hrow2, fun id hid => ⟨committed stored.id body, ?_, rfl, rfl⟩,
          fun other hother => ?_⟩
        · cases hid
          rw [hworld]
          exact row_save_self (t := .checkpoints) _
            (committed stored.id body)
        · rw [hworld] at hother
          by_cases hid : other.id = (committed stored.id body).id
          · rw [hid] at hother
            have hself := row_save_self (t := .checkpoints)
              L1.world (committed stored.id body)
            exact .inr (Option.some.inj (hother.symm.trans hself))
          · have hother1 := (row_save (t := .checkpoints)
              L1.world (committed stored.id body) other.id).trans (if_neg hid)
            exact .inl ((hsame other.id).symm.trans (hother1.symm.trans hother))

/-- What an accepted commit leaves. -/
structure Accepted (request : Request) (L0 L : Ledger) (stored : RLRun) (body : CheckpointBody) :
    Prop where
  origin : L0.world.row .runs stored.id = some stored
  commits : Commits request stored body
  run : ∃ run : RLRun, L.world.row .runs stored.id = some run ∧
    CheckpointAt L.world run.checkpointID stored.id body.optimizerStep
  others : ∀ other : RLCheckpointRecord, L.world.row .checkpoints other.id = some other →
    L0.world.row .checkpoints other.id = some other ∨ other = committed stored.id body

/-- The end of a commit: the run is saved with the checkpoint. -/
theorem wp_savingCheckpoint {stored : RLRun} {checkpointID : String} {text : String}
    {payload : Body} (hcommits : Commits request stored body)
    (horigin : L0.world.row .runs stored.id = some stored)
    (h : Checkpointed L0 L stored body (.ok checkpointID))
    (hwrite : RunWrite strict cfg request L0 L run) (hid : run.id = stored.id)
    (hcheckpoint : run.checkpointID = checkpointID) :
    wp (supervised strict cfg request L0) (savingRLRun run text (respond 201 payload))
      (fun response L' => response.code = 201 → Accepted request L0 L' stored body) L := by
  refine ⟨.run hwrite, fun saved L' hrec => ?_⟩
  cases saved with
  | error e =>
    intro hcode
    cases hcode
  | ok _ =>
    intro _
    have hcheckpoints := hrec.table_of_target_ne (t := .checkpoints) nofun
    have hrow : ∀ id, L'.world.row .checkpoints id = L.world.row .checkpoints id :=
      row_congr hcheckpoints
    refine ⟨horigin, hcommits, ⟨run, ?_, ?_⟩, fun other hother => ?_⟩
    · rw [← hid, show L'.world = L.world.save Table.runs run from hrec.1]
      exact row_save_self (t := .runs) _ run
    · obtain ⟨checkpoint, hstored, hfacts⟩ := h.checkpoint checkpointID rfl
      exact ⟨checkpoint, by rw [hcheckpoint]; exact (hrow checkpointID).trans hstored, hfacts⟩
    · exact h.others other ((hrow other.id).symm.trans hother)

/-- A commit that answers 201 has stored its checkpoint, and the run names it. -/
theorem wp_rlCommitCheckpoint (h : Extends L0 L) {body : Option CheckpointBody}
    (hrequest : request = .commitCheckpoint id body) :
    wp (supervised strict cfg request L0) (rlCommitCheckpoint cfg id body)
      (fun response L' => response.code = 201 →
        ∃ stored commit, Accepted request L0 L' stored commit) L := by
  have hrejected : ∀ {code : Nat} {text : String} {L' : Ledger}, code ≠ 201 →
      wp (supervised strict cfg request L0) (respondError text code)
        (fun response L' => response.code = 201 →
          ∃ stored commit, Accepted request L0 L' stored commit) L' :=
    fun hcode hcreated => absurd hcreated hcode
  refine ⟨.plain trivial, fun found L' hrec => ?_⟩
  have h' : Extends L0 L' := h.trans (extends_of_plain hrec trivial)
  cases found with
  | error e => exact hrejected (by decide)
  | ok run =>
    obtain ⟨hselected, hwhere⟩ := Database.Selects.row_eq hrec.1.2
    have hid : run.id = id := by simpa using hwhere
    have hrow : L0.world.row .runs run.id = some run := (h.runs run.id).symm.trans hselected
    dsimp only
    split
    · exact hrejected (by decide)
    · rename_i commit hfilter
      obtain ⟨rfl, hcomplete⟩ := Option.filter_eq_some_iff.mp hfilter
      show wp _ (if commit.attemptID ≠ run.currentAttemptID then _ else _) _ L'
      split
      · exact hrejected (by decide)
      · rename_i hattempt
        have hcommit : Commits request run commit :=
          ⟨by rw [hrequest, hid], hcomplete, not_not.mp hattempt⟩
        subst hid
        rw [wp_bind]
        refine wp_mono ?_ (wp_saveRLCheckpoint h' hrow hcommit)
        intro saved L1 h1
        split
        · exact hrejected (by decide)
        · rename_i checkpointID
          refine ⟨.plain rfl, fun version L2 hversion => ?_⟩
          have h2 := h1.extend (hversion.table_of_target_ne (t := .runs) nofun)
            (hversion.table_of_target_ne (t := .checkpoints) nofun)
          cases version with
          | error e => exact hrejected (by decide)
          | ok _ =>
            show wp _ (if periodicEvaluation cfg run commit.optimizerStep then _ else _) _ L2
            split
            · rename_i hperiodic
              have hschedule : EvaluationWrite cfg request L0 L2
                  (periodicRecord run.id checkpointID commit) :=
                .schedule hrow h2.run hcommit hperiodic
              refine ⟨.evaluation hschedule, fun scheduled L3 hscheduled => ?_⟩
              have h3 := h2.extend (hscheduled.table_of_target_ne (t := .runs) nofun)
                (hscheduled.table_of_target_ne (t := .checkpoints) nofun)
              cases scheduled with
              | error e => exact hrejected (by decide)
              | ok _ =>
                have hevaluated : Evaluated L3.world run.id commit.policyVersion := by
                  refine ⟨periodicRecord run.id checkpointID commit, ?_, rfl, rfl⟩
                  rw [show L3.world = _ from hscheduled.1]
                  exact row_save_self (t := .evaluations) _
                    (periodicRecord run.id checkpointID commit)
                refine wp_mono (fun response L' haccepted hcode =>
                  ⟨run, commit, haccepted hcode⟩) (wp_savingCheckpoint hcommit hrow h3
                    (.change h3.run (.ask hrow (.scheduled commit hcommit hperiodic hevaluated
                      (h3.checkpoint checkpointID rfl) rfl))) rfl rfl)
            · rename_i hperiodic
              refine wp_mono (fun response L' haccepted hcode =>
                ⟨run, commit, haccepted hcode⟩) (wp_savingCheckpoint hcommit hrow h2
                  (.change h2.run (.ask hrow (.committed commit hcommit
                    (Bool.eq_false_of_not_eq_true hperiodic) (h2.checkpoint checkpointID rfl)
                    rfl))) rfl rfl)

theorem lawfully_rlCommitCheckpoint (h : Extends L0 L) {body : Option CheckpointBody}
    (hrequest : request = .commitCheckpoint id body) :
    Lawfully strict cfg request L0 (rlCommitCheckpoint cfg id body) L :=
  wp_mono (fun _ _ _ => trivial) (wp_rlCommitCheckpoint h hrequest)

theorem lawfully_rlTrainerProgress (h : Extends L0 L) {body : Option ProgressBody}
    (hrequest : request = .trainerProgress id body) :
    Lawfully strict cfg request L0 (rlTrainerProgress id body) L := by
  refine lawfully_withRLRun h fun run L' hid hrow h' => ?_
  split
  · exact Lawfully.pure _
  rename_i report hreport
  obtain rfl : body = some report := (Option.filter_eq_some_iff.mp hreport).1
  split
  · exact Lawfully.pure _
  split
  · exact Lawfully.pure _
  rename_i hstep
  refine lawfully_savingRLRun (h'.ask hrow (.progressed report ?_ (not_lt.mp hstep) rfl))
    (Obeys.pure _)
  rw [hrequest, hid]

/-! ## Queue rounds -/

theorem lawfully_recordPolicyServer (h : Extends L0 L) (item : JobQueueItem)
    (result : DeployResult) {f : Unit → Program α} (hf : ∀ u, Quiet (f u)) :
    Lawfully strict cfg request L0 (Scheduler.recordPolicyServer item result >>= f) L := by
  refine Lawfully.bind (Q := fun _ _ => True) ?_ fun u L' _ => (hf u).lawfully
  show Lawfully strict cfg request L0 (Scheduler.recordPolicyServer item result) L
  unfold Scheduler.recordPolicyServer
  split
  · refine Lawfully.skip (Obeys.perform trivial) h fun found L1 h1 => ?_
    split
    · exact Lawfully.pure _
    split
    · refine Lawfully.getRLRun h1 (fun run L2 _ hrow h2 => ?_) fun _ => Obeys.pure _
      exact lawfully_saveRLRun (h2.askSame hrow rfl) fun _ => Obeys.pure _
    · exact Lawfully.pure _
  · exact Lawfully.pure _

theorem lawfully_processOne (h : Extends L0 L) :
    Lawfully strict cfg request L0 Scheduler.processOne L := by
  refine Lawfully.skip still_claimNextJob.quiet h fun item L1 h1 => ?_
  split
  · exact Lawfully.pure _
  refine Lawfully.skip (still_jobRole _).quiet h1 fun role L2 h2 => ?_
  refine Lawfully.skip (still_mustWait _ _).quiet h2 fun wait L3 h3 => ?_
  split
  · exact Quiet.lawfully (Obeys.bind (still_updateJobStatus _ _ _).quiet fun _ => Obeys.pure _)
  · refine Lawfully.skip (still_deploy _).quiet h3 fun result L4 h4 => ?_
    split
    · exact Quiet.lawfully (Obeys.bind (still_updateJobStatus _ _ _).quiet fun _ =>
        (still_markExecFailed _ _).quiet)
    · refine Lawfully.skip (still_recordDeployment _ _).quiet h4 fun _ L5 h5 => ?_
      exact lawfully_recordPolicyServer h5 _ _ fun _ =>
        Obeys.bind (still_updateJobStatus _ _ _).quiet fun _ => Obeys.pure _

end RL
end Skyscale
