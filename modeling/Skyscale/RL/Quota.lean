import Skyscale.RL.Terminal

/-!
# Tenant quotas

A start request is admitted after a count of the tenant's active runs and a bound on the
GPUs it asks for.  The count leaves out runs in `evaluating` and `canary`, the GPUs of
other runs are always taken to be zero, the products are machine integers, and ended runs
can come back.  Each of these breaks a quota (`run_quota_exceeded`, `gpu_quota_exceeded`).

`run_quota` and `gpu_quota` say that the quotas hold while no request does one of these
things.  Both rest on `Effect.length_liveRuns`: an operation adds a run that has not ended only by
admitting it.
-/

namespace Skyscale
namespace RL

open Lib State Control K8s Contracts

/-- A slime run of the tenant that has not ended. -/
def live (tenantID : String) (run : RLRun) : Bool :=
  run.tenantID = tenantID && run.backend = .slime && !terminal run.status

/-- The tenant's slime runs that have not ended. -/
def liveRuns (w : World) (tenantID : String) : List RLRun := w.matching .runs (live tenantID)

/-- The request brings back a slime run that has ended. -/
def Revives (cfg : Config) (w : World) (request : Request) : Prop :=
  ∃ run : RLRun, w.row .runs run.id = some run ∧ run.backend = .slime ∧
    terminal run.status = true ∧
    (request = .stopRun run.id ∨ PeriodicCommit cfg w run.id request)

section Count

variable {strict : Bool} {cfg : Config} {request : Request} {L0 L : Ledger} {w : World}
  {stored run : RLRun} {tenantID : String}

theorem live_iff : live tenantID run = true ↔
    run.tenantID = tenantID ∧ run.backend = .slime ∧ terminal run.status = false := by
  simp [live, and_assoc]

theorem mem_liveRuns_iff :
    run ∈ liveRuns w tenantID ↔ w.row .runs run.id = some run ∧ live tenantID run = true :=
  Database.mem_matching_iff (S := schema) (t := Table.runs)

theorem liveRuns_congr {w' : World} (h : w'.table .runs = w.table .runs) :
    liveRuns w' tenantID = liveRuns w tenantID :=
  Database.matching_congr (S := schema) (t := Table.runs) h (live tenantID)

theorem Rewritten.live (h : Rewritten strict cfg request L0 L stored run)
    (hrevives : ¬Revives cfg L0.world request) (hlive : live tenantID run = true) :
    live tenantID stored = true := by
  obtain ⟨htenant, hslime, hopen⟩ := live_iff.mp hlive
  have hstoredSlime := (backend_eq_of_fixed h.fixed).symm.trans hslime
  refine live_iff.mpr ⟨(tenantID_eq_of_fixed h.fixed).symm.trans htenant, hstoredSlime, ?_⟩
  cases h with
  | kept h =>
    rw [← h]
    exact hopen
  | plain hbackend _ _ _ => exact absurd hstoredSlime hbackend
  | ask horigin h =>
    by_contra hended
    rw [Bool.not_eq_false] at hended
    have hstatus : run.status = stored.status := by
      refine h.status_of_terminal hended (fun hdelete => ?_) fun body hcommits => ?_
      · exact hrevives ⟨stored, horigin, hstoredSlime, hended, .inl hdelete⟩
      · exact Bool.eq_false_of_not_eq_true fun hperiodic => hrevives ⟨stored, horigin,
          hstoredSlime, hended, .inr ⟨stored, body, horigin, hcommits, hperiodic⟩⟩
    rw [hstatus, hended] at hopen
    cases hopen
  | reconcile _ _ hlive _ _ => exact hlive

/-- An operation adds a run that has not ended only by admitting it. -/
theorem Effect.length_liveRuns (h : Effect strict cfg request L0 L w)
    (hrevives : ¬Revives cfg L0.world request) (tenantID : String) :
    (liveRuns w tenantID).length ≤ (liveRuns L.world tenantID).length ∨
      ∃ run : RLRun, run.tenantID = tenantID ∧ Admitted cfg request L.world run ∧
        L.world.table .runs = L0.world.table .runs ∧
        (liveRuns w tenantID).length = (liveRuns L.world tenantID).length + 1 := by
  rcases h.runs with htable | ⟨run, hwrite, rfl⟩
  · exact .inl (by rw [liveRuns_congr htable])
  · rcases hwrite.cases with ⟨hfresh, hcreated⟩ | ⟨stored, hstored, hrewritten⟩
    · have hsave : liveRuns (L.world.save Table.runs run) tenantID =
          if live tenantID run then run :: liveRuns L.world tenantID
          else liveRuns L.world tenantID :=
        Database.matching_save_of_none (S := schema) (t := Table.runs) hfresh
      by_cases hlive : live tenantID run = true
      · rw [if_pos hlive] at hsave
        cases hcreated with
        | slime hruns hadmitted =>
          exact .inr ⟨run, (live_iff.mp hlive).1, hadmitted, hruns, by rw [hsave]; rfl⟩
        | plain hbackend _ _ =>
          have hslime := (live_iff.mp hlive).2.1
          rw [hbackend] at hslime
          cases hslime
      · rw [if_neg hlive] at hsave
        exact .inl (by rw [hsave])
    · exact .inl (Database.length_matching_save_le (S := schema) (t := Table.runs) hstored
        fun hlive => hrewritten.live hrevives hlive)

end Count

/-! ## The number of runs -/

/-- The request starts a run for a tenant with a run that the count leaves out. -/
def Overlooks (cfg : Config) (w : World) (request : Request) : Prop :=
  ∃ (start : StartRequest) (spec : RLRunSpec) (run : RLRun), request = .startRun start ∧
    requestedSpec cfg start = some spec ∧ w.row .runs run.id = some run ∧
    run.tenantID = spec.metadata.tenantID ∧ run.backend = .slime ∧
    (run.status = .evaluating ∨ run.status = .canary)

/-- Slime runs are never stopped. -/
def NeverStopped (w : World) : Prop :=
  ∀ (id : String) (run : RLRun), w.row .runs id = some run → run.backend = .slime →
    run.status ≠ .stopped

section Runs

variable {strict : Bool} {cfg : Config} {request : Request} {L0 L : Ledger} {w : World}
  {stored run : RLRun} {tenantID : String}

theorem Asked.ne_stopped (h : Asked cfg request w stored run) (hstored : stored.status ≠ .stopped) :
    run.status ≠ .stopped := by
  have hstatus : ∀ {c : Core}, core run = c → c.status ≠ .stopped → run.status ≠ .stopped :=
    fun h hne => by rw [status_eq_of_core h]; exact hne
  cases h with
  | same h | suspended _ _ _ h | activated _ _ _ h | rolledBack _ _ _ h | committed _ _ _ _ h
  | progressed _ _ _ h => exact hstatus h hstored
  | cancelled _ _ h | resumed _ _ _ h | scheduled _ _ _ _ _ h =>
    exact hstatus h (fun h => by cases h)

theorem Reconciled.ne_stopped (h : Reconciled cfg L0 L stored (core run))
    (hstored : stored.status ≠ .stopped) : run.status ≠ .stopped := by
  have hstatus : ∀ {c : Core}, core run = c → c.status ≠ .stopped → run.status ≠ .stopped :=
    fun h hne => by rw [status_eq_of_core h]; exact hne
  cases h with
  | same h => exact hstatus h hstored
  | adopted _ _ _ _ h => exact hstatus h hstored
  | cancelling h | cancelled _ h | suspended _ h | attempted _ _ h | running _ h | completed _ h
  | failed _ h | retried _ h | evaluating _ _ _ h | canary _ _ _ h =>
    exact hstatus h (fun h => by cases h)
  | rolledBack _ final h | promoted _ final h =>
    refine hstatus h ?_
    cases final with
    | false => exact fun h => by cases h
    | true => exact fun h => by cases h

theorem NeverStopped.effect (h : NeverStopped L.world)
    (heffect : Effect strict cfg request L0 L w) : NeverStopped w := by
  intro id run hrun hslime
  rcases heffect.row_of_run hrun with ⟨stored, hstored, hrewritten⟩ | ⟨_, hcreated⟩
  · have hstoredSlime := (backend_eq_of_fixed hrewritten.fixed).symm.trans hslime
    have hne := h id stored hstored hstoredSlime
    cases hrewritten with
    | kept h => rwa [h]
    | plain hbackend _ _ _ => exact absurd hstoredSlime hbackend
    | ask _ h | reconcile _ _ _ h _ => exact h.ne_stopped hne
  · cases hcreated with
    | slime _ hadmitted =>
      rw [hadmitted.columns.2.1]
      nofun
    | plain hbackend _ _ =>
      rw [hbackend] at hslime
      cases hslime

theorem active_of_live {status : RunStatus} (hlive : terminal status = false)
    (hstopped : status ≠ .stopped) (hevaluating : status ≠ .evaluating)
    (hcanary : status ≠ .canary) : status.active = true := by
  cases status with
  | starting | running | suspended | cancelling => rfl
  | stopped => exact absurd rfl hstopped
  | evaluating => exact absurd rfl hevaluating
  | canary => exact absurd rfl hcanary
  | completed | failed | cancelled => cases hlive

/-- If the count leaves out none of the tenant's runs, it counts all that have not
ended. -/
theorem length_liveRuns_le_activeRuns (hstopped : NeverStopped w)
    (hcounted : ∀ run : RLRun, w.row .runs run.id = some run → run.tenantID = tenantID →
      run.backend = .slime → run.status ≠ .evaluating ∧ run.status ≠ .canary) :
    (liveRuns w tenantID).length ≤ activeRuns w tenantID := by
  refine Database.length_matching_le (S := schema) (t := Table.runs) fun run hrow hlive => ?_
  obtain ⟨htenant, hslime, hopen⟩ := live_iff.mp hlive
  obtain ⟨hevaluating, hcanary⟩ := hcounted run hrow htenant hslime
  have hactive := active_of_live hopen (hstopped _ run hrow hslime) hevaluating hcanary
  simp [htenant, hactive]

theorem Admitted.activeRuns_lt (h : Admitted cfg request w run)
    (hquota : 0 < (tenantQuota cfg).maxConcurrentRuns) :
    (activeRuns w run.tenantID : Int) < (tenantQuota cfg).maxConcurrentRuns := by
  obtain ⟨_, _, _, _, _, htenant, _, _, hadmit⟩ := h.requested
  rw [htenant]
  by_contra hfull
  rw [validateQuota, if_pos ⟨hquota, not_lt.mp hfull⟩] at hadmit
  cases hadmit

end Runs

/-- The tenant's slime runs that have not ended stay within the quota, while no run is
started beside one that the count leaves out and no ended run is brought back. -/
theorem run_quota (cfg : Config) (hquota : 0 < (tenantQuota cfg).maxConcurrentRuns)
    {exchanges : List Exchange} {L : Ledger}
    (hrun : Run (Guarded (Serves cfg) fun L exchange =>
      ¬Overlooks cfg L.world exchange.request ∧ ¬Revives cfg L.world exchange.request)
      Ledger.initial exchanges L) (tenantID : String) :
    ((liveRuns L.world tenantID).length : Int) ≤ (tenantQuota cfg).maxConcurrentRuns := by
  suffices hinvariant : NeverStopped L.world ∧ ∀ tenantID,
      ((liveRuns L.world tenantID).length : Int) ≤ (tenantQuota cfg).maxConcurrentRuns from
    hinvariant.2 tenantID
  refine hrun.invariant (I := fun L => NeverStopped L.world ∧ ∀ tenantID,
    ((liveRuns L.world tenantID).length : Int) ≤ (tenantQuota cfg).maxConcurrentRuns) ?_ ?_
  · exact ⟨fun _ _ h => absurd h row_empty_ne,
      fun _ => hquota.le⟩
  · rintro L exchange L' hbefore ⟨hserves, hoverlooks, hrevives⟩
    refine serves_preserves (I := fun w => NeverStopped w ∧ ∀ tenantID,
      ((liveRuns w tenantID).length : Int) ≤ (tenantQuota cfg).maxConcurrentRuns)
      hserves hbefore fun L1 w ⟨hstopped, hbound⟩ heffect => ⟨hstopped.effect heffect, ?_⟩
    intro tenantID
    have hrevives0 : ¬Revives cfg (L.receive exchange.request).world exchange.request := hrevives
    rcases heffect.length_liveRuns hrevives0 tenantID with
      hle | ⟨run, rfl, hadmitted, hruns, hlength⟩
    · exact (Int.ofNat_le.mpr hle).trans (hbound tenantID)
    · -- the run is admitted on a database in which the count leaves out nothing
      obtain ⟨start, spec, _, hrequest, hspec, htenant, _⟩ := hadmitted.requested
      have hcounted : (liveRuns L1.world run.tenantID).length ≤
          activeRuns L1.world run.tenantID := by
        refine length_liveRuns_le_activeRuns hstopped fun other hother hsame hslime => ?_
        have hother0 : L.world.row .runs other.id = some other :=
          (row_congr hruns other.id).symm.trans hother
        have htenant' := hsame.trans htenant
        exact ⟨fun h => hoverlooks ⟨start, spec, other, hrequest, hspec, hother0, htenant', hslime,
          .inl h⟩, fun h => hoverlooks ⟨start, spec, other, hrequest, hspec, hother0, htenant',
          hslime, .inr h⟩⟩
      have hlt := hadmitted.activeRuns_lt hquota
      omega

/-! ## Computed histories -/

def countedCheck (w : World) (request : Request) : Bool :=
  offPeriod request &&
    match request with
    | .startRun _ => (w.rows .runs).all fun run : RLRun =>
      run.status ≠ .evaluating && run.status ≠ .canary
    | _ => true

variable {request : Request}

theorem not_revives_of_offPeriod {w : World} (h : offPeriod request = true) :
    ¬Revives sampleConfig w request := by
  rintro ⟨_, _, _, _, hdelete | ⟨run, body, _, hcommits, hperiodic⟩⟩
  · rw [hdelete] at h
    cases h
  · rw [offPeriod_of_commits hcommits h] at hperiodic
    cases hperiodic

theorem not_overlooks_of_check {w : World} (h : countedCheck w request = true) :
    ¬Overlooks sampleConfig w request := by
  rintro ⟨start, spec, run, rfl, _, hrow, _, _, hstatus⟩
  rw [countedCheck, Bool.and_eq_true] at h
  have hmem := (mem_rows_iff (t := .runs)).mpr hrow
  have hrun := List.all_eq_true.mp h.2 run hmem
  rcases hstatus with hstatus | hstatus
  · simp [hstatus] at hrun
  · simp [hstatus] at hrun

def threeStarts : List Visit :=
  [⟨startSample, runIs "rl-000000000000"⟩, ⟨startSample, runIs "rl-000000000001"⟩,
    ⟨startSample, runIs "rl-000000000002"⟩]

theorem run_quota_threeStarts :
    (liveRuns (serveAllWhen sampleConfig countedCheck Ledger.initial threeStarts).2.world
        "t").length = 2 ∧
      ((liveRuns (serveAllWhen sampleConfig countedCheck Ledger.initial threeStarts).2.world
        "t").length : Int) ≤ (tenantQuota sampleConfig).maxConcurrentRuns := by
  have hrun := run_serveAllWhen sampleConfig countedCheck Ledger.initial threeStarts
  refine ⟨by decide +kernel, run_quota sampleConfig (by decide +kernel)
    (hrun.mono fun L exchange L' h => ⟨h.1, not_overlooks_of_check h.2, ?_⟩) "t"⟩
  exact not_revives_of_offPeriod (Bool.and_eq_true_iff.mp h.2).1

def overlookedHistory : List Visit :=
  sampleStarted ++ [sampleCommit 5 "v1", ⟨startSample, runIs "rl-000000000001"⟩,
    ⟨startSample, runIs "rl-000000000002"⟩]

theorem run_quota_exceeded :
    0 < (tenantQuota sampleConfig).maxConcurrentRuns ∧
      ∃ exchanges L, Run (Serves sampleConfig) Ledger.initial exchanges L ∧
        (tenantQuota sampleConfig).maxConcurrentRuns < (liveRuns L.world "t").length := by
  refine ⟨by decide +kernel, _, _, run_serveAll sampleConfig Ledger.initial overlookedHistory, ?_⟩
  decide +kernel

/-! ## The number of GPUs -/

/-- The GPUs a topology asks for, as an integer without bounds. -/
def requestedGPUs (topology : TopologySpec) : Int :=
  topology.trainer.nodes * topology.trainer.resources.gpus +
    if topology.mode = "disaggregated" then
      topology.rollout.replicas * topology.rollout.resources.gpus
    else 0

/-- The GPUs a run asks for. -/
def runGPUs (cfg : Config) (run : RLRun) : Int :=
  match cfg.decodeSnapshot run.snapshotJSON with
  | .ok snapshot => requestedGPUs snapshot.spec.topology
  | .error _ => 0

/-- The GPUs the tenant's slime runs that have not ended ask for. -/
def liveGPUs (cfg : Config) (w : World) (tenantID : String) : Int :=
  ((liveRuns w tenantID).map (runGPUs cfg)).sum

/-- The number is an `int`. -/
def Fits (n : Int) : Prop := -2 ^ 63 ≤ n ∧ n < 2 ^ 63

/-- The products and the sum of the quota check are computed without overflow. -/
def GPUsFit (topology : TopologySpec) : Prop :=
  Fits (topology.trainer.nodes * topology.trainer.resources.gpus) ∧
    (topology.mode = "disaggregated" →
      Fits (topology.rollout.replicas * topology.rollout.resources.gpus)) ∧
    Fits (requestedGPUs topology)

/-- The request starts a run for a tenant with a run that has not ended, or one whose GPUs
overflow. -/
def Overcommits (cfg : Config) (w : World) (request : Request) : Prop :=
  ∃ (start : StartRequest) (spec : RLRunSpec), request = .startRun start ∧
    requestedSpec cfg start = some spec ∧
    (liveRuns w spec.metadata.tenantID ≠ [] ∨ ¬GPUsFit spec.topology)

/-- Stored snapshots keep the number of GPUs. -/
def KeepsGPUs (cfg : Config) : Prop :=
  ∀ snapshot : RunSnapshot, ∃ decoded : RunSnapshot,
    cfg.decodeSnapshot (cfg.encodeSnapshot snapshot) = .ok decoded ∧
      requestedGPUs decoded.spec.topology = requestedGPUs snapshot.spec.topology

/-- Every tenant has at most one run that has not ended, and it is within the quota. -/
structure OneWithin (cfg : Config) (w : World) : Prop where
  one : ∀ tenantID, (liveRuns w tenantID).length ≤ 1
  within : ∀ (id : String) (run : RLRun), w.row .runs id = some run →
    live run.tenantID run = true → runGPUs cfg run ≤ (tenantQuota cfg).maxGPUs

section GPUs

variable {strict : Bool} {cfg : Config} {request : Request} {L0 L : Ledger} {w : World}
  {stored run : RLRun} {tenantID : String}

theorem wrap_of_fits {n : Int} (h : Fits n) : wrap n = n := by
  obtain ⟨hlow, hhigh⟩ := h
  exact Int.bmod_eq_of_le (by omega) (by omega)

/-- Without overflow, the quota check compares the GPUs of the request with the quota. -/
theorem requestedGPUs_le_of_validateQuota {activeRuns : Int} {topology : TopologySpec}
    {quota : TenantQuota} (h : validateQuota activeRuns 0 topology quota = .ok ())
    (hquota : 0 < quota.maxGPUs) (hfit : GPUsFit topology) :
    requestedGPUs topology ≤ quota.maxGPUs := by
  obtain ⟨htrainer, hrollout, hsum⟩ := hfit
  -- what the machine computes is the number itself
  have hmachine : wrap (0 + if topology.mode = "disaggregated" then
      wrap (wrap (topology.trainer.nodes * topology.trainer.resources.gpus) +
        wrap (topology.rollout.replicas * topology.rollout.resources.gpus))
      else wrap (topology.trainer.nodes * topology.trainer.resources.gpus)) =
      requestedGPUs topology := by
    rw [Int.zero_add]
    by_cases hmode : topology.mode = "disaggregated"
    · rw [requestedGPUs, if_pos hmode] at hsum ⊢
      rw [if_pos hmode, wrap_of_fits htrainer, wrap_of_fits (hrollout hmode), wrap_of_fits hsum,
        wrap_of_fits hsum]
    · rw [requestedGPUs, if_neg hmode, if_neg hmode, wrap_of_fits htrainer, wrap_of_fits htrainer,
        Int.add_zero]
  unfold validateQuota at h
  split at h
  · cases h
  dsimp only at h
  rw [hmachine] at h
  by_contra hover
  rw [if_pos ⟨hquota, not_le.mp hover⟩] at h
  cases h

theorem Admitted.runGPUs_le (h : Admitted cfg request w run) (hcodec : KeepsGPUs cfg)
    (hquota : 0 < (tenantQuota cfg).maxGPUs)
    (hfit : ∀ start spec, request = .startRun start → requestedSpec cfg start = some spec →
      GPUsFit spec.topology) : runGPUs cfg run ≤ (tenantQuota cfg).maxGPUs := by
  obtain ⟨start, spec, snapshot, hrequest, hspec, _, htopology, hjson, hadmit⟩ := h.requested
  obtain ⟨decoded, hdecode, hgpus⟩ := hcodec snapshot
  have hrun : runGPUs cfg run = requestedGPUs spec.topology := by
    rw [runGPUs, hjson, hdecode]
    exact hgpus.trans (by rw [htopology])
  rw [hrun]
  exact requestedGPUs_le_of_validateQuota hadmit hquota (hfit start spec hrequest hspec)

theorem OneWithin.effect (h : OneWithin cfg L.world) (hcodec : KeepsGPUs cfg)
    (hquota : 0 < (tenantQuota cfg).maxGPUs)
    (hovercommits : ¬Overcommits cfg L0.world request) (hrevives : ¬Revives cfg L0.world request)
    (heffect : Effect strict cfg request L0 L w) : OneWithin cfg w where
  one tenantID := by
    rcases heffect.length_liveRuns hrevives tenantID with
      hle | ⟨run, rfl, hadmitted, hruns, hlength⟩
    · exact hle.trans (h.one tenantID)
    · obtain ⟨start, spec, _, hrequest, hspec, htenant, _⟩ := hadmitted.requested
      have hnone : liveRuns L.world run.tenantID = [] := by
        rw [liveRuns_congr hruns, htenant]
        by_contra hsome
        exact hovercommits ⟨start, spec, hrequest, hspec, .inl hsome⟩
      rw [hlength, hnone]
      rfl
  within id run hrun hlive := by
    rcases heffect.row_of_run hrun with ⟨stored, hstored, hrewritten⟩ | ⟨_, hcreated⟩
    · have hgpus : runGPUs cfg run = runGPUs cfg stored := by
        rw [runGPUs, runGPUs, snapshotJSON_eq_of_fixed hrewritten.fixed]
      rw [hgpus]
      refine h.within id stored hstored ?_
      rw [← tenantID_eq_of_fixed hrewritten.fixed]
      exact hrewritten.live hrevives hlive
    · cases hcreated with
      | slime _ hadmitted =>
        refine hadmitted.runGPUs_le hcodec hquota fun start spec hrequest hspec => ?_
        by_contra hoverflow
        exact hovercommits ⟨start, spec, hrequest, hspec, .inr hoverflow⟩
      | plain hbackend _ _ =>
        have hslime := (live_iff.mp hlive).2.1
        rw [hbackend] at hslime
        cases hslime

theorem OneWithin.liveGPUs_le (h : OneWithin cfg w) (hquota : 0 < (tenantQuota cfg).maxGPUs)
    (tenantID : String) : liveGPUs cfg w tenantID ≤ (tenantQuota cfg).maxGPUs := by
  have hone := h.one tenantID
  unfold liveGPUs
  match hruns : liveRuns w tenantID with
  | [] => exact hquota.le
  | [run] =>
    obtain ⟨hrow, hlive⟩ := mem_liveRuns_iff.mp (hruns ▸ List.mem_singleton_self run)
    rw [List.map_singleton, List.sum_singleton]
    refine h.within run.id run hrow ?_
    rw [(live_iff.mp hlive).1]
    exact hlive
  | _ :: _ :: _ =>
    rw [hruns] at hone
    simp at hone

end GPUs

/-- The GPUs of the tenant's slime runs that have not ended stay within the quota, while
runs are started one at a time and without overflow, and no ended run is brought back. -/
theorem gpu_quota (cfg : Config) (hquota : 0 < (tenantQuota cfg).maxGPUs)
    (hcodec : KeepsGPUs cfg) {exchanges : List Exchange} {L : Ledger}
    (hrun : Run (Guarded (Serves cfg) fun L exchange =>
      ¬Overcommits cfg L.world exchange.request ∧ ¬Revives cfg L.world exchange.request)
      Ledger.initial exchanges L) (tenantID : String) :
    liveGPUs cfg L.world tenantID ≤ (tenantQuota cfg).maxGPUs := by
  suffices hinvariant : OneWithin cfg L.world from hinvariant.liveGPUs_le hquota tenantID
  refine hrun.invariant (I := fun L => OneWithin cfg L.world) ?_ ?_
  · exact ⟨fun _ => Nat.zero_le _,
      fun _ _ h => absurd h row_empty_ne⟩
  · rintro L exchange L' hbefore ⟨hserves, hovercommits, hrevives⟩
    have hovercommits0 : ¬Overcommits cfg (L.receive exchange.request).world exchange.request :=
      hovercommits
    have hrevives0 : ¬Revives cfg (L.receive exchange.request).world exchange.request := hrevives
    exact serves_preserves (I := OneWithin cfg) hserves hbefore fun _ _ h heffect =>
      h.effect hcodec hquota hovercommits0 hrevives0 heffect

def specOf (nodes gpus : Int) : RLRunSpec :=
  { sampleSpec with
    topology :=
      { sampleSpec.topology with
        trainer :=
          { sampleSpec.topology.trainer with
            nodes
            resources := { sampleSpec.topology.trainer.resources with gpus } } } }

def unary (n : Int) : String :=
  String.ofList (if 0 ≤ n then List.replicate n.toNat '+' else List.replicate (-n).toNat '-')

def ofUnary (text : String) : Int :=
  if text.toList.head? = some '-' then -text.toList.length else text.toList.length

theorem ofUnary_unary (n : Int) : ofUnary (unary n) = n := by
  rw [ofUnary, unary, String.toList_ofList]
  by_cases hsign : 0 ≤ n
  · rw [if_pos hsign, List.length_replicate, if_neg, Int.toNat_of_nonneg hsign]
    rw [List.head?_replicate]
    split
    · nofun
    · decide
  · rw [if_neg hsign, List.length_replicate, if_pos]
    · omega
    · rw [List.head?_replicate, if_neg (by omega)]

def unaryConfig : Config :=
  { sampleConfig with
    encodeSnapshot := fun snapshot => unary (requestedGPUs snapshot.spec.topology)
    decodeSnapshot := fun text => .ok ⟨specOf 1 (ofUnary text), "sha", true⟩ }

theorem requestedGPUs_specOf (nodes gpus : Int) :
    requestedGPUs (specOf nodes gpus).topology = nodes * gpus := by
  show nodes * gpus + (if sampleSpec.topology.mode = "disaggregated" then _ else 0) = nodes * gpus
  rw [if_neg (by decide), Int.add_zero]

theorem keepsGPUs_unaryConfig : KeepsGPUs unaryConfig := by
  intro snapshot
  refine ⟨_, rfl, ?_⟩
  rw [requestedGPUs_specOf, Int.one_mul]
  exact ofUnary_unary _

instance (n : Int) : Decidable (Fits n) := inferInstanceAs (Decidable (_ ∧ _))

instance (topology : TopologySpec) : Decidable (GPUsFit topology) :=
  inferInstanceAs (Decidable (_ ∧ _))

def aloneCheck (w : World) : Request → Bool
  | .stopRun _ => false
  | .commitCheckpoint _ _ => false
  | .startRun start =>
    (requestedSpec unaryConfig start).all fun spec =>
      (liveRuns w spec.metadata.tenantID).isEmpty && decide (GPUsFit spec.topology)
  | _ => true

theorem not_overcommits_of_check {w : World} (h : aloneCheck w request = true) :
    ¬Overcommits unaryConfig w request ∧ ¬Revives unaryConfig w request := by
  constructor
  · rintro ⟨start, spec, rfl, hspec, hbad⟩
    rw [aloneCheck, hspec, Option.all_some, Bool.and_eq_true, List.isEmpty_iff,
      decide_eq_true_eq] at h
    exact hbad.elim (fun hsome => hsome h.1) fun hoverflow => hoverflow h.2
  · rintro ⟨_, _, _, _, rfl | ⟨_, body, _, hcommits, _⟩⟩
    · cases h
    · rw [hcommits.request] at h
      cases h

def twoLargeStarts : List Visit :=
  [⟨startOf (specOf 1 8), runIs "rl-000000000000"⟩,
    ⟨startOf (specOf 1 8), runIs "rl-000000000001"⟩]

theorem gpu_quota_twoLargeStarts :
    liveGPUs unaryConfig
        (serveAllWhen unaryConfig aloneCheck Ledger.initial twoLargeStarts).2.world "t" = 8 ∧
      liveGPUs unaryConfig
        (serveAllWhen unaryConfig aloneCheck Ledger.initial twoLargeStarts).2.world "t" ≤
          (tenantQuota unaryConfig).maxGPUs := by
  have hrun := run_serveAllWhen unaryConfig aloneCheck Ledger.initial twoLargeStarts
  refine ⟨by decide +kernel, gpu_quota unaryConfig (by decide +kernel) keepsGPUs_unaryConfig
    (hrun.mono fun L exchange L' h => ⟨h.1, not_overcommits_of_check h.2⟩) "t"⟩

/-- Both runs are admitted, and so is a run whose number of GPUs overflows to zero. -/
theorem gpu_quota_exceeded :
    (∃ exchanges L, Run (Serves (configOf (specOf 1 8))) Ledger.initial exchanges L ∧
      (tenantQuota (configOf (specOf 1 8))).maxGPUs = 8 ∧
      liveGPUs (configOf (specOf 1 8)) L.world "t" = 16) ∧
    ∃ exchanges L,
      Run (Serves (configOf (specOf (2 ^ 32) (2 ^ 32)))) Ledger.initial exchanges L ∧
      (tenantQuota (configOf (specOf (2 ^ 32) (2 ^ 32)))).maxGPUs = 8 ∧
      liveGPUs (configOf (specOf (2 ^ 32) (2 ^ 32))) L.world "t" = 2 ^ 64 := by
  constructor
  · exact ⟨_, _, run_serveAll (configOf (specOf 1 8)) Ledger.initial twoLargeStarts,
      by decide +kernel, by decide +kernel⟩
  · exact ⟨_, _, run_serveAll (configOf (specOf (2 ^ 32) (2 ^ 32))) Ledger.initial
      [⟨startOf (specOf (2 ^ 32) (2 ^ 32)), agreeable⟩], by decide +kernel, by decide +kernel⟩

end RL
end Skyscale
