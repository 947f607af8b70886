import Skyscale.RL.Cleanup

/-!
# Suspension reaches every owned workload

A pass over a run that is to be suspended records every labelled object of the cluster
(`discoverOwned`), suspends the object of every tracked resource that is a job or a
deployment (`suspendOwned`), and saves the run as suspended.

The pass is the program of `RL.Reconciler`, served by the database and by a cluster whose
`Apply` stores the object it is given.  `Halting` is the invariant of the loop of
`suspendOwned`: a labelled job or deployment is suspended, or the loop still has to visit
the resource that tracks it.
-/

namespace Skyscale
namespace RL

open Lib State Control K8s Contracts

/-! ## A cluster that stores what it is given -/

/-- The stored object is the given one, up to the fields the server fills in. -/
def StoredAs (object stored : Object) : Prop :=
  { stored with
    uid := object.uid
    generation := object.generation
    resourceVersion := object.resourceVersion } = object

/-- `Apply` stores the given object. -/
def Faithful : (op : Op) → Ans op → Prop
  | .apply object, .ok stored => StoredAs object stored
  | _, _ => True

/-- What an operation may answer at a site with such a cluster. -/
def Site.serve (s : Site) (op : Op) (ans : Ans op) (s' : Site) : Prop :=
  s.exec op ans s' ∧ Faithful op ans

/-- The object is suspended, as far as objects of its kind can be. -/
def Halted : Kind → Object → Prop
  | .rayJob, object => object.suspend = some true
  | .deployment, object =>
    object.replicas = some 0 ∧ object.annotations.get "rl.skyscale.dev/draining" = some "true"
  | _, _ => True

/-- Every labelled object in the namespace is suspended. -/
def Site.Halted (s : Site) (id namespace_ : String) : Prop :=
  ∀ kind name e, s.cluster.entry (kind, namespace_, name) = some e → Carries id e.object →
    RL.Halted kind e.object

section Objects

variable {object object' stored : Object} {kind : Kind}

theorem halted_of_suspended (h : suspended object kind = some object') : Halted kind object' := by
  cases kind with
  | rayJob =>
    cases h
    rfl
  | deployment =>
    cases h
    refine ⟨rfl, ?_⟩
    show FinMap.get (FinMap.set (FinMap.set _ _ _) _ _) _ = _
    rw [FinMap.get_set, if_neg (by decide), FinMap.get_set, if_pos rfl]
  | _ => cases h

theorem halted_of_suspended_eq_none (h : suspended object kind = none) (other : Object) :
    Halted kind other := by
  cases kind with
  | rayJob | deployment => cases h
  | _ => trivial

theorem halted_of_untracked (h : kind ∉ runResourceTypes) (other : Object) :
    Halted kind other := by
  cases kind with
  | rayJob | deployment => exact absurd (by decide) h
  | _ => trivial

theorem halted_of_not_gvrForKind (h : ¬gvrForKind kind = true) (other : Object) :
    Halted kind other := by
  cases kind with
  | rayJob | deployment => exact absurd rfl h
  | _ => trivial

theorem StoredAs.halted (h : StoredAs object stored) (hobject : Halted kind object) :
    Halted kind stored := by
  rw [← h] at hobject
  cases kind with
  | _ => exact hobject

end Objects

/-! ## The loop of `suspendOwned` -/

/-- The part of a pass ends with `Ok` unless it ends with an error. -/
def Served {α : Type} (Ok : α → RLRun → Site → Prop) (m : Pass α) (run : RLRun) (s : Site) : Prop :=
  Act.At (acting Site.serve) Ok (fun _ _ => True) m run s

section Loop

variable {id namespace_ : String} {run run0 : RLRun} {s s' : Site} {r : BackendResource}
variable {left : List BackendResource} {α : Type} {Ok : α → RLRun → Site → Prop}

theorem Cleans.served {m : Pass α} (h : Cleans id namespace_ Ok m run s) : Served Ok m run s :=
  wp_acting_of_checking (fun _ _ _ _ hcall => hcall.1) h

theorem Served.seq {β : Type} {Mid : β → RLRun → Site → Prop} {m : Pass β} {f : β → Pass α}
    (hm : Served Mid m run s) (hf : ∀ b run' s', Mid b run' s' → Served Ok (f b) run' s') :
    Served Ok (m >>= f) run s :=
  Act.At.seq hm hf

theorem Served.attempt {δ : Type} {text : δ → String} {p : Program (Except δ α)}
    (h : wp (acting Site.serve) p (fun result s' => ∀ a, result = .ok a → Ok a run s') s) :
    Served Ok (Act.attempt text p) run s :=
  Act.At.attempt <|
    wp_mono (fun _ _ hok => ⟨hok, fun _ _ => trivial⟩) h

/-- Every labelled job and deployment is suspended, or one of the resources that are left
tracks it. -/
structure Halting (id namespace_ : String) (run0 : RLRun) (left : List BackendResource)
    (run : RLRun) (s : Site) : Prop where
  copy : run0 = run
  objects : ∀ kind name e, s.cluster.entry (kind, namespace_, name) = some e →
    Carries id e.object →
      Halted kind e.object ∨ ∃ r ∈ left, resourceAddress r = (kind, namespace_, name)

/-- A resource is done when the object at its address is suspended, or gone; the others
may go. -/
theorem Halting.next (h : Halting id namespace_ run0 (r :: left) run s)
    (hself : ∀ e, s'.cluster.entry (resourceAddress r) = some e → Halted r.kind e.object)
    (hothers : Cluster.Shrinks (resourceAddress r) s.cluster s'.cluster) :
    Halting id namespace_ run0 left run s' where
  copy := h.copy
  objects := by
    intro kind name e he hcarries
    by_cases haddress : (kind, namespace_, name) = resourceAddress r
    · have hkind : kind = r.kind := congrArg Prod.fst haddress
      rw [hkind]
      exact .inl (hself e (haddress ▸ he))
    · rcases hothers _ haddress with hsame | hgone
      · refine (h.objects kind name e (hsame.symm.trans he) hcarries).imp_right ?_
        rintro ⟨other, hother, hat⟩
        rcases List.mem_cons.mp hother with rfl | hother
        · exact absurd hat.symm haddress
        · exact ⟨other, hother, hat⟩
      · rw [hgone] at he
        cases he

theorem address_of_suspended {object object' : Object} {kind : Kind}
    (h : suspended object kind = some object') : object'.address = object.address := by
  cases kind with
  | rayJob | deployment =>
    cases h
    rfl
  | _ => cases h

theorem Halting.apply {object stored : Object} {c c' : Cluster}
    (h : Halting id namespace_ run0 (r :: left) run s) (hat : object.address = resourceAddress r)
    (hobject : Halted r.kind object) (hstored : StoredAs object stored)
    (hbefore : s.cluster.Settles c) (hsettles : c.Settles c')
    (happlies : c'.Applies object stored s'.cluster) :
    Halting id namespace_ run0 left run s' := by
  obtain ⟨-, -, -, hwrites⟩ := happlies
  rw [hat] at hwrites
  refine h.next (fun e he => ?_) (((hbefore.trans hsettles).shrinks _).trans hwrites.shrinks)
  have hself := hwrites (resourceAddress r)
  rw [if_pos rfl, he] at hself
  obtain rfl := Option.some.inj hself
  exact hstored.halted hobject

theorem served_suspendResource (h : Halting id namespace_ run0 (r :: left) run s) :
    Served (fun _ run' s' => Halting id namespace_ run0 left run' s') (suspendResource r)
      run s := by
  unfold suspendResource
  split
  · refine Act.At.call ?_
    rintro ((text | text) | found) s1 ⟨⟨-, hfound⟩, -⟩
    · obtain ⟨hsettles, hnone⟩ := hfound
      refine h.next (fun e he => ?_) (hsettles.shrinks _)
      exact absurd (hnone.symm.trans he) (Option.some_ne_none e).symm
    · trivial
    · obtain ⟨hsettles, e, he, rfl⟩ := hfound
      have haddress : e.object.address = resourceAddress r := s1.cluster.addressed _ e he
      dsimp only
      split
      · rename_i hkept
        exact h.next (fun e _ => halted_of_suspended_eq_none hkept e.object) (hsettles.shrinks _)
      · rename_i object hobject
        refine Act.At.bind (Served.attempt ?_)
        rintro ans s2 ⟨⟨-, happlied⟩, hstored⟩ stored rfl
        obtain ⟨c, hsettles2, happlies⟩ := happlied
        have hhalting : Halting id namespace_ run0 left run s2 :=
          h.apply ((address_of_suspended hobject).trans haddress) (halted_of_suspended hobject)
            hstored hsettles hsettles2 happlies
        refine Served.attempt ?_
        rintro ans s3 ⟨⟨-, hcluster⟩, -⟩ ⟨⟩ -
        have hcluster : s3.cluster = s2.cluster := hcluster
        exact ⟨hhalting.copy, by rw [hcluster]; exact hhalting.objects⟩
  · rename_i hunknown
    exact h.next (fun e _ => halted_of_not_gvrForKind hunknown e.object) fun _ _ => .inl rfl

theorem served_suspendOwned (hrun : run.id = id)
    (hfound : ∀ kind ∈ runResourceTypes, Found id namespace_ s kind) :
    Served (fun _ run' s' => Halting id namespace_ run [] run' s') suspendOwned run s := by
  subst hrun
  have hlisted : Served (fun resources run' s' => Halting run.id namespace_ run resources run' s')
      (stored (listBackendResources run.id)) run s := by
    have hcleans : Cleans run.id namespace_
        (fun resources run' s' => Halting run.id namespace_ run resources run' s')
        (stored (listBackendResources run.id)) run s := by
      refine cleans_listResources fun resources hresources => ⟨rfl, ?_⟩
      intro kind name e he hcarries
      by_cases hkind : kind ∈ runResourceTypes
      · exact .inr ((hfound kind hkind).listed hresources he hcarries)
      · exact .inl (halted_of_untracked hkind e.object)
    exact hcleans.served
  refine Act.At.get (Served.seq hlisted fun resources run' s' h => ?_)
  refine Act.At.forEach ?_ h
  exact fun r left run s hleft => served_suspendResource hleft

end Loop

/-! ## The pass -/

section Pass

variable {cfg : Config} {id namespace_ : String} {spec : RLRunSpec} {run : RLRun} {s : Site}

/-- What a pass leaves when it succeeds: everything is suspended, and so is the run. -/
def Site.Suspended (s : Site) (id namespace_ : String) : Prop :=
  s.Halted id namespace_ ∧ ∃ saved : RLRun, s.db.row .runs id = some saved ∧
    saved.status = .suspended

theorem served_suspendBranch (hrun : run.id = id)
    (hfound : ∀ kind ∈ runResourceTypes, Found id namespace_ s kind) :
    Served (fun _ _ s' => s'.Suspended id namespace_) suspendBranch run s := by
  refine Served.seq (served_suspendOwned hrun hfound) ?_
  rintro ⟨⟩ _ s1 ⟨rfl, hobjects⟩
  refine Act.At.modify (Act.At.get (Served.attempt ?_))
  rintro ans s2 ⟨⟨hdb, hcluster⟩, -⟩ ⟨⟩ rfl
  have hcluster : s2.cluster = s1.cluster := hcluster
  refine ⟨fun kind name e he hcarries => ?_, ?_⟩
  · rw [hcluster] at he
    rcases hobjects kind name e he hcarries with hhalted | ⟨r, hr, -⟩
    · exact hhalted
    · cases hr
  · have hsaved : s2.db = s1.db.save .runs
        { run with status := .suspended, observedState := "resources-suspended" } := hdb
    refine ⟨{ run with status := .suspended, observedState := "resources-suspended" }, ?_, rfl⟩
    rw [hsaved, ← hrun]
    exact Database.row_save_self (t := .runs) s1.db _

/-- Suspension reaches every owned workload.  Whatever the cluster holds and whichever
resources are tracked: if a pass over a run that is to be suspended succeeds, then every
job in the namespace of the run that carries both labels is suspended, every such
deployment is scaled to zero and draining, and the run is stored as suspended. -/
theorem suspension_complete {cfg : Config} {run run' : RLRun} {s s' : Site}
    (hdesired : run.desiredState = .suspended) (hstatus : run.status ≠ .cancelling)
    (hpass : Prog.Runs Site.serve s (reconcile cfg run) (.ok (), run') s') :
    ∃ stored : RunSnapshot, cfg.decodeSnapshot run.snapshotJSON = .ok stored ∧
      s'.Suspended run.id (specNamespace stored.spec) := by
  have hserved : Served (fun _ _ s' => ∃ stored : RunSnapshot,
      cfg.decodeSnapshot run.snapshotJSON = .ok stored ∧
        s'.Suspended run.id (specNamespace stored.spec)) (reconcile cfg) run s := by
    refine Act.At.get (Act.At.call fun now s1 _ => ?_)
    cases hverified : verifiedSpec cfg now run with
    | error text => trivial
    | ok spec =>
      obtain ⟨document, hdocument, rfl⟩ := document_of_verifiedSpec hverified
      refine Served.seq (cleans_discoverOwned rfl).served ?_
      rintro ⟨⟩ _ s2 ⟨rfl, -, -, hleft⟩
      have hnot : ¬(run.desiredState = .cancelled ∨ run.status = .cancelling) := by
        rintro (hcancelled | hcancelling)
        · rw [hdesired] at hcancelled
          cases hcancelled
        · exact hstatus hcancelling
      rw [if_neg hnot, if_pos hdesired]
      refine Act.At.mono (served_suspendBranch rfl fun kind hkind => ?_)
        (fun _ _ s' hsuspended => ⟨document, hdocument, hsuspended⟩) fun _ _ _ => trivial
      exact (hleft kind hkind).resolve_left List.not_mem_nil
  exact hpass.post hserved

end Pass

/-! ### A canary that is suspended -/

theorem Site.serve_answer (settle : Bool) (s : Site) (op : Op) (ans : Ans op) (s' : Site)
    (h : s.answer settle op = some (ans, s')) : s.serve op ans s' := by
  refine ⟨s.exec_answer settle op ans s' h, ?_⟩
  cases op with
  | apply object =>
    obtain ⟨⟨ans', cluster⟩, heval, hsame⟩ := Option.map_eq_some_iff.mp h
    cases hsame
    simp only [Cluster.eval] at heval
    split at heval
    · cases heval
      rfl
    · cases heval
      trivial
  | _ => trivial

def suspendingRun : RLRun :=
  { (default : RLRun) with
    id := "run", backend := .slime, status := .canary, desiredState := .suspended
    snapshotSHA256 := "sha" }

def ownedFleet : Object := renderRolloutDeploymentState tenantSpec "v1" 2 false

def staleResource : BackendResource := discovered "run" "elsewhere" .rayJob ownedJob

def canarySite : Site where
  db := Database.empty.save .resources staleResource
  cluster := lingeringSite.cluster.put ⟨ownedFleet, false⟩
    (show ownedFleet.Labelled by decide +kernel)

def suspendingPass : Option ((Except String Unit × RLRun) × Site) :=
  Prog.evaluate (Site.answer false) (reconcile tenantConfig suspendingRun) canarySite

theorem suspendingPass_succeeds :
    (suspendingPass.any fun result => result.1.1.toBool) = true := by decide +kernel

/-- The pass succeeds, and leaves the job and the fleet suspended. -/
theorem suspension_complete_canary :
    ∃ (run' : RLRun) (s' : Site),
      Prog.Runs Site.serve canarySite (reconcile tenantConfig suspendingRun) (.ok (), run') s' ∧
        s'.Suspended "run" (specNamespace tenantSpec) := by
  obtain ⟨⟨⟨result, run'⟩, s'⟩, heval, hok⟩ := (Option.any_eq_true _ _).mp suspendingPass_succeeds
  cases result with
  | error text => cases hok
  | ok =>
    have hruns : Prog.Runs Site.serve canarySite (reconcile tenantConfig suspendingRun)
        (.ok (), run') s' := Prog.runs_of_evaluate (Site.serve_answer false) heval
    obtain ⟨stored, hstored, hsuspended⟩ :=
      suspension_complete (show suspendingRun.desiredState = .suspended from rfl)
        (show suspendingRun.status ≠ .cancelling by decide) hruns
    obtain rfl : stored = ⟨tenantSpec, "sha", true⟩ := (Except.ok.inj hstored).symm
    exact ⟨run', s', hruns, hsuspended⟩

end RL
end Skyscale
