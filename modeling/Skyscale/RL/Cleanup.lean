import Skyscale.K8s.Cluster
import Skyscale.Lib.Solo
import Skyscale.RL.Integrity

/-!
# Cancelled runs are cleaned up

A pass over a run that is to be cancelled first records every labelled object of the
cluster in the table of tracked resources (`discoverOwned`), and in a later pass deletes
the object of every tracked resource and waits until it is gone (`deleteOwned`).

The passes are the programs of `RL.Reconciler`, served by a faithful cluster and the
database of the control plane, with no other actor.  `Proper` says what each of their
operations has to satisfy: a deletion only meets objects of the run, and when the run is
saved as cancelled nothing of it is left.
-/

namespace Skyscale
namespace RL

open Lib State Control K8s Contracts

/-! ## The site of a run -/

/-- The database of the control plane and the cluster it manages. -/
structure Site where
  db : World
  cluster : Cluster

/-- What an operation may answer, and the site it leaves. -/
def Site.exec (s : Site) (op : Op) (ans : Ans op) (s' : Site) : Prop :=
  Control.exec s.db op ans s'.db ∧ s.cluster.exec op ans s'.cluster

/-- The object carries the manager's label and the label of the run. -/
def Carries (id : String) (object : Object) : Prop :=
  object.labels.get "app.kubernetes.io/managed-by" = some "skyscale" ∧
    object.labels.get "rl.skyscale.dev/run" = some id

/-- Every labelled object of the tracked kinds in the namespace is at an address that
satisfies `P`. -/
def Site.OwnedAt (s : Site) (id namespace_ : String) (P : Kind → String → Prop) : Prop :=
  ∀ kind ∈ runResourceTypes, ∀ name e,
    s.cluster.entry (kind, namespace_, name) = some e → Carries id e.object → P kind name

/-- Every tracked resource of the run satisfies `P`. -/
def Site.Rows (s : Site) (id : String) (P : BackendResource → Prop) : Prop :=
  ∀ key r, s.db.row .resources key = some r → r.runID = id → P r

/-- Nothing is left of the run: no labelled object of the tracked kinds in its namespace
and no tracked resource. -/
def Site.Clean (s : Site) (id namespace_ : String) : Prop :=
  s.OwnedAt id namespace_ (fun _ _ => False) ∧ s.Rows id fun _ => False

/-- The tracked resources of the run are of the tracked kinds. -/
def Site.Kinds (s : Site) (id : String) : Prop := s.Rows id (·.kind ∈ runResourceTypes)

/-- The statements of a pass over a run that is to be cancelled. -/
inductive Issues (id namespace_ : String) (s : Site) : Statement schema → Prop
  | saveRun (run : RLRun) (h : run.status = .cancelled → s.Clean id namespace_) :
      Issues id namespace_ s (.save .runs run)
  | listResources :
      Issues id namespace_ s
        (.find .resources (fun r : BackendResource => r.runID = id) unordered none)
  | track (r : BackendResource) (h : r.kind ∈ runResourceTypes) :
      Issues id namespace_ s
        (.insert .resources (fun n => { r with id := if r.id = 0 then n else r.id })
          (some ⟨r.overwrite, fun _ => rfl⟩))
  | untrack (n : Nat) :
      Issues id namespace_ s (.delete .resources fun r : BackendResource => r.id = n)

/-- What the operations of such a pass have to satisfy where they are performed. -/
def Proper (id namespace_ : String) (s : Site) : Op → Prop
  | .sql q => Issues id namespace_ s q
  | .deleteObject kind namespace' name =>
    ∀ e, s.cluster.entry (kind, namespace', name) = some e → Carries id e.object
  | _ => True

/-! ## Labels -/

section Labels

variable {id : String} {object : Object}

theorem label_eq_iff {key value : String} (hvalue : value ≠ "") :
    object.label key = value ↔ object.labels.get key = some value := by
  unfold Object.label FinMap.getD
  cases hget : object.labels.get key with
  | none => simpa using hvalue.symm
  | some found => simp

theorem ownedBy_iff (hid : id ≠ "") : ownedBy id object = true ↔ Carries id object := by
  simp only [ownedBy, Bool.and_eq_true, decide_eq_true_eq, label_eq_iff hid,
    label_eq_iff (show "skyscale" ≠ "" by decide)]
  exact and_comm

theorem ownedBy_of_carries (h : Carries id object) : ownedBy id object = true := by
  simp [ownedBy, Object.label, FinMap.getD, h.1, h.2]

theorem satisfies_of_carries (hlabelled : object.Labelled) (h : Carries id object) :
    ∃ needed,
      requirements ("app.kubernetes.io/managed-by=skyscale,rl.skyscale.dev/run=" ++ id) =
        some needed ∧ object.satisfies needed = true := by
  let needed := [("app.kubernetes.io/managed-by", "skyscale"), ("rl.skyscale.dev/run", id)]
  have htext : "app.kubernetes.io/managed-by=skyscale,rl.skyscale.dev/run=" ++ id =
      selectorText needed := by
    rw [← String.toList_inj, String.toList_append]
    simp [selectorText, needed, List.intercalate]
  have hplain : ∀ label ∈ needed, plainLabel label = true := by
    intro label hlabel
    rcases List.mem_cons.mp hlabel with rfl | hlabel
    · decide
    · obtain rfl := List.mem_singleton.mp hlabel
      have hkey : "rl.skyscale.dev/run".toList.all isSelectorChar = true := by decide
      have hvalue : id.toList.all isSelectorChar = true := hlabelled _ _ h.2
      exact Bool.and_eq_true_iff.mpr ⟨hkey, hvalue⟩
  refine ⟨needed, ?_, ?_⟩
  · rw [htext]
    exact requirements_selectorText (List.cons_ne_nil _ _) hplain
  · simp [needed, Object.satisfies, h.1, h.2]

end Labels

/-! ## What a statement leaves -/

section Statements

variable {id namespace_ : String} {s s' : Site} {r : BackendResource}

/-- What discovery leaves of a site: objects may be gone, tracked resources stay tracked. -/
structure Grows (id : String) (s s' : Site) : Prop where
  cluster : ∀ a, s'.cluster.entry a = s.cluster.entry a ∨ s'.cluster.entry a = none
  tracked : ∀ key r, s.db.row .resources key = some r → ∃ r', s'.db.row .resources key = some r'
  kinds : s.Kinds id → s'.Kinds id

theorem Grows.refl (s : Site) : Grows id s s where
  cluster := fun _ => .inl rfl
  tracked := fun _ r hr => ⟨r, hr⟩
  kinds := fun hkinds => hkinds

theorem Grows.trans {s1 : Site} (h : Grows id s s1) (h' : Grows id s1 s') : Grows id s s' where
  cluster := by
    intro a
    rcases h'.cluster a with hsame | hgone
    · rw [hsame]
      exact h.cluster a
    · exact .inr hgone
  tracked := by
    intro key r hr
    obtain ⟨r1, hr1⟩ := h.tracked key r hr
    exact h'.tracked key r1 hr1
  kinds := fun hkinds => h'.kinds (h.kinds hkinds)

theorem Grows.of_settles (hdb : s'.db = s.db) (h : s.cluster.Settles s'.cluster) :
    Grows id s s' where
  cluster := fun a => (h a).imp_right And.left
  tracked := fun key r hr => ⟨r, by rw [hdb]; exact hr⟩
  kinds := fun hkinds key r hr => hkinds key r (by rw [← hdb]; exact hr)

theorem exists_save_of_track {db db' : World}
    (h : db.Exec (.insert .resources (fun n => { r with id := if r.id = 0 then n else r.id })
      (some ⟨r.overwrite, fun _ => rfl⟩)) (.ok ()) db') :
    ∃ row : BackendResource, db' = db.save .resources row ∧
      (row.runID, row.kind, row.namespace_, row.name) =
        (r.runID, r.kind, r.namespace_, r.name) := by
  obtain ⟨n, -, hstored⟩ := h
  have hkey : schema.key .resources ({ r with id := if r.id = 0 then n else r.id } :
    BackendResource) =
      (r.runID, r.kind, r.namespace_, r.name) := rfl
  rw [hkey] at hstored
  cases hrow : db.row .resources (r.runID, r.kind, r.namespace_, r.name) with
  | none =>
    rw [hrow] at hstored
    exact ⟨_, hstored, rfl⟩
  | some old =>
    rw [hrow] at hstored
    have hold : schema.key .resources old = (r.runID, r.kind, r.namespace_, r.name) :=
      db.keyed .resources _ old hrow
    exact ⟨r.overwrite old, hstored, hold⟩

theorem Grows.of_track (hkind : r.kind ∈ runResourceTypes) {ans : Except Failure Unit}
    (h : s.exec (.sql (.insert .resources
      (fun n => { r with id := if r.id = 0 then n else r.id })
      (some ⟨r.overwrite, fun _ => rfl⟩))) ans s') :
    Grows id s s' ∧ (ans = .ok () →
      ∃ r', s'.db.row .resources (r.runID, r.kind, r.namespace_, r.name) = some r') := by
  obtain ⟨hdb, hcluster⟩ := h
  have hsame : s'.cluster = s.cluster := hcluster
  cases ans with
  | error e =>
    have hdb : s'.db = s.db := hdb
    refine ⟨⟨fun a => .inl (by rw [hsame]), ?_, ?_⟩, fun h => by cases h⟩
    · exact fun key r hr => ⟨r, by rw [hdb]; exact hr⟩
    · exact fun hkinds key r hr => hkinds key r (by rw [← hdb]; exact hr)
  | ok =>
    obtain ⟨row, hdb, hkey⟩ := exists_save_of_track hdb
    have hself : s'.db.row .resources (schema.key .resources row) = some row := by
      rw [hdb]
      exact Database.row_save_self (t := .resources) s.db row
    have hother : ∀ key, key ≠ schema.key .resources row →
        s'.db.row .resources key = s.db.row .resources key := by
      intro key hk
      rw [hdb]
      exact (Database.row_save (t := .resources) s.db row key).trans (if_neg hk)
    refine ⟨⟨fun a => .inl (by rw [hsame]), ?_, ?_⟩, fun _ => ⟨row, hkey ▸ hself⟩⟩
    · intro key old hold
      by_cases hk : key = schema.key .resources row
      · exact ⟨row, hk ▸ hself⟩
      · exact ⟨old, (hother key hk).trans hold⟩
    · intro hkinds key found hfound
      by_cases hk : key = schema.key .resources row
      · obtain rfl : row = found := Option.some.inj (hself.symm.trans (hk ▸ hfound))
        have hsamekind : row.kind = r.kind := congrArg (fun key => key.2.1) hkey
        intro _
        rw [hsamekind]
        exact hkind
      · exact hkinds key found ((hother key hk).symm.trans hfound)

end Statements

/-! ## Parts of a pass -/

/-- Served alone at a site, the part of a pass performs proper operations, and ends with
`Ok` unless it ends with an error. -/
def Cleans (id namespace_ : String) {α : Type} (Ok : α → RLRun → Site → Prop) (m : Pass α)
    (run : RLRun) (s : Site) : Prop :=
  Act.At (checking Site.exec (Proper id namespace_)) Ok (fun _ _ => True) m run s

section Parts

variable {id namespace_ : String} {run : RLRun} {s : Site} {α β : Type}
variable {Ok : α → RLRun → Site → Prop}

theorem Cleans.seq {Mid : β → RLRun → Site → Prop} {m : Pass β} {f : β → Pass α}
    (hm : Cleans id namespace_ Mid m run s)
    (hf : ∀ b run' s', Mid b run' s' → Cleans id namespace_ Ok (f b) run' s') :
    Cleans id namespace_ Ok (m >>= f) run s :=
  Act.At.seq hm hf

theorem Cleans.attempt {δ : Type} {text : δ → String} {p : Program (Except δ α)}
    (h : wp (checking Site.exec (Proper id namespace_)) p
      (fun result s' => ∀ a, result = .ok a → Ok a run s') s) :
    Cleans id namespace_ Ok (Act.attempt text p) run s :=
  Act.At.attempt <|
    wp_mono (fun _ _ hok => ⟨hok, fun _ _ => trivial⟩) h

theorem Cleans.lift {p : Program α}
    (h : wp (checking Site.exec (Proper id namespace_)) p (fun a s' => Ok a run s') s) :
    Cleans id namespace_ Ok (Act.lift p) run s :=
  Act.At.lift h

theorem Cleans.forEach {ι : Type} {f : ι → Pass Unit} {Left : List ι → RLRun → Site → Prop}
    (hstep : ∀ x xs run s, Left (x :: xs) run s →
      Cleans id namespace_ (fun _ run' s' => Left xs run' s') (f x) run s)
    {xs : List ι} (h : Left xs run s) :
    Cleans id namespace_ (fun _ run' s' => Left [] run' s') (Act.forEach f xs) run s :=
  Act.At.forEach hstep h

theorem Cleans.bind {m : Pass β} {f : β → Pass α}
    (h : Cleans id namespace_ (fun b run' s' => Cleans id namespace_ Ok (f b) run' s') m run s) :
    Cleans id namespace_ Ok (m >>= f) run s :=
  Act.At.bind h

theorem Cleans.call {op : Op} {f : Ans op → Pass α} (hop : Proper id namespace_ s op)
    (h : ∀ ans s', s.exec op ans s' → Cleans id namespace_ Ok (f ans) run s') :
    Cleans id namespace_ Ok (Act.lift (call op) >>= f) run s :=
  Cleans.bind (Cleans.lift ⟨hop, h⟩)

theorem Cleans.mono (Ok' : α → RLRun → Site → Prop) {m : Pass α}
    (h : Cleans id namespace_ Ok' m run s) (himp : ∀ a run' s', Ok' a run' s' → Ok a run' s') :
    Cleans id namespace_ Ok m run s :=
  Act.At.mono h himp fun _ _ _ => trivial

theorem cleans_track {Ok : Unit → RLRun → Site → Prop} {r : BackendResource}
    (hkind : r.kind ∈ runResourceTypes)
    (h : ∀ s', Grows id s s' →
      (∃ r', s'.db.row .resources (r.runID, r.kind, r.namespace_, r.name) = some r') →
        Ok () run s') :
    Cleans id namespace_ Ok (stored (saveBackendResource r)) run s := by
  refine Cleans.attempt ⟨.track r hkind, ?_⟩
  rintro ans s' hexec ⟨⟩ rfl
  obtain ⟨hgrows, htracked⟩ := Grows.of_track hkind hexec
  exact h s' hgrows (htracked rfl)

theorem cleans_listResources {Ok : List BackendResource → RLRun → Site → Prop}
    (h : ∀ resources, (∀ r, r ∈ resources ↔ s.db.row .resources (schema.key .resources r) = some r ∧
      r.runID = id) → Ok resources run s) :
    Cleans id namespace_ Ok (stored (listBackendResources id)) run s := by
  refine Cleans.attempt ⟨.listResources, ?_⟩
  rintro ans s' ⟨hlisted, hcluster⟩ resources rfl
  obtain ⟨hdb, listed, hperm, -, rfl⟩ := hlisted
  have hsame : s' = s := by
    obtain ⟨db, cluster⟩ := s
    obtain ⟨db', cluster'⟩ := s'
    cases hdb
    cases hcluster
    rfl
  subst hsame
  refine h _ fun r => ?_
  exact (hperm.mem_iff.trans Database.mem_matching_iff).trans
    (and_congr_right fun _ => decide_eq_true_iff)

end Parts

/-! ## Discovery -/

section Discovery

variable {id namespace_ : String} {run : RLRun} {s s' : Site} {kind : Kind} {spec : RLRunSpec}

/-- Every labelled object of a kind in the namespace is tracked. -/
def Found (id namespace_ : String) (s : Site) (kind : Kind) : Prop :=
  ∀ name e, s.cluster.entry (kind, namespace_, name) = some e → Carries id e.object →
    ∃ r, s.db.row .resources (id, kind, namespace_, name) = some r

theorem Found.grow (h : Found id namespace_ s kind) (hgrows : Grows id s s') :
    Found id namespace_ s' kind := by
  intro name e he hcarries
  rcases hgrows.cluster (kind, namespace_, name) with hsame | hgone
  · obtain ⟨r, hr⟩ := h name e (hsame.symm.trans he) hcarries
    exact hgrows.tracked _ r hr
  · rw [hgone] at he
    cases he

/-- The loop over the kinds: those that are not left are found. -/
structure Discovered (id namespace_ : String) (run0 : RLRun) (s0 : Site) (left : List Kind)
    (run : RLRun) (s : Site) : Prop where
  copy : run0 = run
  grows : Grows id s0 s
  types : ∀ kind ∈ left, kind ∈ runResourceTypes
  found : ∀ kind ∈ runResourceTypes, kind ∈ left ∨ Found id namespace_ s kind

/-- The loop over the objects of a kind: those that are not left are tracked, if they
carry the labels. -/
structure Adopted (id namespace_ : String) (run0 : RLRun) (kind : Kind) (objects : List Object)
    (s0 : Site) (left : List Object) (run : RLRun) (s : Site) : Prop where
  copy : run0 = run
  grows : Grows id s0 s
  tracked : ∀ object ∈ objects, object ∈ left ∨ (Carries id object →
    ∃ r, s.db.row .resources (id, kind, namespace_, object.name) = some r)

/-- When all listed objects are adopted, every labelled object of the kind is tracked:
the selector selects it. -/
theorem found_of_adopted {run0 : RLRun} {objects : List Object} {s0 : Site}
    (hlists : s0.cluster.Lists kind namespace_
      ("app.kubernetes.io/managed-by=skyscale,rl.skyscale.dev/run=" ++ id) objects)
    (h : Adopted id namespace_ run0 kind objects s0 [] run s) : Found id namespace_ s kind := by
  intro name e he hcarries
  have he0 : s0.cluster.entry (kind, namespace_, name) = some e := by
    rcases h.grows.cluster (kind, namespace_, name) with hsame | hgone
    · exact hsame.symm.trans he
    · rw [hgone] at he
      cases he
  have haddress : e.object.address = (kind, namespace_, name) := s0.cluster.addressed _ e he0
  have hname : e.object.name = name := congrArg (fun a => a.2.2) haddress
  obtain ⟨needed, hneeded, hsatisfied⟩ :=
    satisfies_of_carries (s0.cluster.labelled _ e he0) hcarries
  have hlisted : e.object ∈ objects :=
    (hlists needed hneeded e.object).mpr ⟨⟨e, by rw [hname]; exact he0, rfl⟩, hsatisfied⟩
  rcases h.tracked e.object hlisted with hmem | hdone
  · cases hmem
  · rw [← hname]
    exact hdone hcarries

theorem cleans_discoverOwned (hrun : run.id = id) :
    Cleans id (specNamespace spec)
      (fun _ run' s' => Discovered id (specNamespace spec) run s [] run' s') (discoverOwned spec)
      run s := by
  subst hrun
  unfold discoverOwned
  refine Act.At.get (Cleans.forEach ?_ ⟨rfl, .refl s, fun _ h => h, fun _ h => .inl h⟩)
  rintro kind kinds _ s0 ⟨rfl, hgrows0, htypes, hfound⟩
  refine Cleans.bind (Cleans.attempt ⟨trivial, ?_⟩)
  rintro ans s1 ⟨hdb, hlisted⟩ objects rfl
  obtain ⟨hsettles, hlists⟩ := hlisted
  have hgrows : Grows run.id s0 s1 := .of_settles hdb hsettles
  refine Cleans.mono (fun _ run' s' =>
    Adopted run.id (specNamespace spec) run kind objects s1 [] run' s') ?_ ?_
  · refine Cleans.forEach ?_ ⟨rfl, .refl s1, fun _ h => .inl h⟩
    rintro object left _ s2 ⟨rfl, hgrows2, htracked⟩
    have hpassed : ∀ s', Grows run.id s2 s' → (Carries run.id object →
        ∃ r, s'.db.row .resources (run.id, kind, specNamespace spec, object.name) = some r) →
          Adopted run.id (specNamespace spec) run kind objects s1 left run s' := by
      refine fun s' hgrows3 hobject => ⟨rfl, hgrows2.trans hgrows3, fun other hother => ?_⟩
      rcases htracked other hother with hmem | hdone
      · rcases List.mem_cons.mp hmem with rfl | hmem
        · exact .inr hobject
        · exact .inl hmem
      · refine .inr fun hcarries => ?_
        obtain ⟨r, hr⟩ := hdone hcarries
        exact hgrows3.tracked _ r hr
    split
    · refine cleans_track (htypes kind List.mem_cons_self) fun s' hgrows3 htrack => ?_
      exact hpassed s' hgrows3 fun _ => htrack
    · rename_i hforeign
      refine hpassed s2 (.refl s2) fun hcarries => ?_
      exact absurd (ownedBy_of_carries hcarries) hforeign
  · rintro ⟨⟩ run' s' hadopted
    have hall : Grows run.id s0 s' := hgrows.trans hadopted.grows
    refine ⟨hadopted.copy, hgrows0.trans hall, fun _ h => htypes _ (List.mem_cons_of_mem _ h), ?_⟩
    intro other hother
    rcases hfound other hother with hmem | hdone
    · rcases List.mem_cons.mp hmem with rfl | hmem
      · exact .inr (found_of_adopted hlists hadopted)
      · exact .inl hmem
    · exact .inr (hdone.grow hall)

end Discovery

/-! ## Suspension -/

section Suspension

variable {id namespace_ : String} {run : RLRun} {s : Site}

theorem cleans_suspendResource {r : BackendResource} (hkind : r.kind ∈ runResourceTypes) :
    Cleans id namespace_ (fun _ _ _ => True) (suspendResource r) run s := by
  unfold suspendResource
  split
  · refine Cleans.call trivial fun found s' _ => ?_
    rcases found with (text | text) | object
    · trivial
    · trivial
    · dsimp only
      split
      · trivial
      · refine Cleans.bind (Cleans.attempt ⟨trivial, fun applied s'' _ _ _ => ?_⟩)
        exact cleans_track hkind fun _ _ _ => trivial
  · trivial

/-- The resources that are left to suspend are of the tracked kinds. -/
def Suspending (left : List BackendResource) (_ : RLRun) (_ : Site) : Prop :=
  ∀ r ∈ left, r.kind ∈ runResourceTypes

theorem cleans_suspendOwned (hrun : run.id = id) (hkinds : s.Kinds id) :
    Cleans id namespace_ (fun _ _ _ => True) suspendOwned run s := by
  subst hrun
  refine Act.At.get (Cleans.bind (cleans_listResources fun resources hresources => ?_))
  refine Cleans.mono (fun _ run' s' => Suspending [] run' s') (Cleans.forEach ?_ ?_)
    fun _ _ _ _ => trivial
  · intro r left run' s' hleft
    refine Cleans.mono (fun _ _ _ => True) (cleans_suspendResource (hleft r List.mem_cons_self)) ?_
    exact fun _ _ _ _ other hother => hleft other (List.mem_cons_of_mem _ hother)
  · intro r hr
    obtain ⟨hrow, hid⟩ := (hresources r).mp hr
    exact hkinds _ r hrow hid

end Suspension

/-! ## Deletion -/

section Deletion

variable {id namespace_ : String} {run : RLRun} {s s' : Site} {r : BackendResource}
variable {resources : List BackendResource}

/-- The address of a tracked resource. -/
def resourceAddress (r : BackendResource) : Address := (r.kind, r.namespace_, r.name)

/-- Discovery has left a row for every labelled object, and the listed resources are the
rows of the run. -/
theorem Found.listed {kind : Kind} (h : Found id namespace_ s kind)
    (hresources : ∀ r, r ∈ resources ↔
      s.db.row .resources (schema.key .resources r) = some r ∧ r.runID = id)
    {name : String} {e : StoredObject} (he : s.cluster.entry (kind, namespace_, name) = some e)
    (hcarries : Carries id e.object) :
    ∃ r ∈ resources, resourceAddress r = (kind, namespace_, name) := by
  obtain ⟨r, hr⟩ := h name e he hcarries
  have hkey : (r.runID, r.kind, r.namespace_, r.name) = (id, kind, namespace_, name) :=
    s.db.keyed .resources _ r hr
  have hself : s.db.row .resources (r.runID, r.kind, r.namespace_, r.name) = some r := by
    rw [hkey]
    exact hr
  exact ⟨r, (hresources r).mpr ⟨hself, congrArg Prod.fst hkey⟩, congrArg Prod.snd hkey⟩

/-- What is left of the run are the listed resources and their objects. -/
structure Pending (id namespace_ : String) (resources : List BackendResource) (s : Site) :
    Prop where
  objects : s.OwnedAt id namespace_ fun kind name =>
    ∃ r ∈ resources, resourceAddress r = (kind, namespace_, name)
  rows : s.Rows id (· ∈ resources)

theorem Pending.clean (h : Pending id namespace_ [] s) : s.Clean id namespace_ := by
  refine ⟨fun kind hkind name e he hcarries => ?_, fun key r hr hid => ?_⟩
  · obtain ⟨r, hr, -⟩ := h.objects kind hkind name e he hcarries
    cases hr
  · exact absurd (h.rows key r hr hid) List.not_mem_nil

theorem Pending.shrink (h : Pending id namespace_ (r :: resources) s) (hdb : s'.db = s.db)
    (hcluster : Cluster.Shrinks (resourceAddress r) s.cluster s'.cluster) :
    Pending id namespace_ (r :: resources) s' where
  objects := by
    intro kind hkind name e he hcarries
    by_cases haddress : (kind, namespace_, name) = resourceAddress r
    · exact ⟨r, List.mem_cons_self, haddress.symm⟩
    · rcases hcluster _ haddress with hsame | hgone
      · exact h.objects kind hkind name e (hsame.symm.trans he) hcarries
      · rw [hgone] at he
        cases he
  rows := by
    intro key row hrow
    rw [hdb] at hrow
    exact h.rows key row hrow

theorem Pending.untrack (h : Pending id namespace_ (r :: resources) s)
    (hgone : s.cluster.entry (resourceAddress r) = none) (hcluster : s'.cluster = s.cluster)
    (hdb : s'.db = s.db.remove .resources fun row : BackendResource => row.id = r.id) :
    Pending id namespace_ resources s' where
  objects := by
    intro kind hkind name e he hcarries
    rw [hcluster] at he
    obtain ⟨other, hother, haddress⟩ := h.objects kind hkind name e he hcarries
    rcases List.mem_cons.mp hother with rfl | hother
    · rw [haddress, he] at hgone
      cases hgone
    · exact ⟨other, hother, haddress⟩
  rows := by
    intro key row hrow hid
    have hkept : (s.db.row .resources key).filter
        (fun row : BackendResource => !decide (row.id = r.id)) =
        some row := by
      rw [← hrow, hdb]
      exact (Database.row_remove (t := .resources) s.db _ key).symm
    obtain ⟨hold, hne⟩ := Option.filter_eq_some_iff.mp hkept
    rcases List.mem_cons.mp (h.rows key row hold hid) with rfl | hmem
    · simp at hne
    · exact hmem

/-- A part of the deletion of a resource leaves everything else alone. -/
structure Works (r : BackendResource) (s s' : Site) : Prop where
  db : s'.db = s.db
  cluster : Cluster.Shrinks (resourceAddress r) s.cluster s'.cluster

theorem Works.trans {s1 : Site} (h : Works r s s1) (h' : Works r s1 s') : Works r s s' :=
  ⟨h'.db.trans h.db, h.cluster.trans h'.cluster⟩

/-- The object of the resource, if it is there, belongs to the run. -/
def Own (id : String) (r : BackendResource) (s : Site) : Prop :=
  ∀ e, s.cluster.entry (resourceAddress r) = some e → Carries id e.object

theorem own_of_applies {object stored : Object} {c : Cluster}
    (haddress : object.address = resourceAddress r) (hcarries : Carries id object)
    (h : c.Applies object stored s'.cluster) : Own id r s' := by
  obtain ⟨-, hlabels, -, hwrites⟩ := h
  intro e he
  have hself := hwrites object.address
  rw [if_pos rfl, haddress, he] at hself
  obtain rfl := Option.some.inj hself
  exact ⟨hlabels _ _ hcarries.1, hlabels _ _ hcarries.2⟩

theorem cleans_releaseObject (hid : id ≠ "") {object : Object}
    (hobject : s.cluster.Holds (resourceAddress r) object) :
    Cleans id namespace_ (fun _ run' s' => run = run' ∧ Works r s s' ∧ Own id r s')
      (releaseObject id r object) run s := by
  obtain ⟨e, he, rfl⟩ := hobject
  have haddress : e.object.address = resourceAddress r := s.cluster.addressed _ e he
  unfold releaseObject
  split
  · trivial
  split
  · trivial
  rename_i howned
  have hcarries : Carries id e.object := (ownedBy_iff hid).mp (by simpa using howned)
  dsimp only [Act.when]
  split
  · refine Cleans.bind (Cleans.attempt ⟨trivial, ?_⟩)
    rintro ans s' ⟨hdb, happlied⟩ stored rfl
    obtain ⟨c, hsettles, happlies⟩ := happlied
    refine ⟨rfl, ⟨hdb, (hsettles.shrinks _).trans ?_⟩,
      own_of_applies haddress hcarries happlies⟩
    exact haddress ▸ happlies.2.2.2.shrinks
  · refine ⟨rfl, ⟨rfl, fun _ _ => .inl rfl⟩, fun e' he' => ?_⟩
    obtain rfl : e = e' := Option.some.inj (he.symm.trans he')
    exact hcarries

theorem cleans_releaseResource (hid : id ≠ "") :
    Cleans id namespace_ (fun _ run' s' => run = run' ∧ Works r s s' ∧ Own id r s')
      (releaseResource id r) run s := by
  refine Cleans.call trivial ?_
  rintro ((text | text) | object) s1 ⟨hdb, hfound⟩
  · obtain ⟨hsettles, hnone⟩ := hfound
    refine ⟨rfl, ⟨hdb, hsettles.shrinks _⟩, fun e he => ?_⟩
    exact absurd (hnone.symm.trans he) (Option.some_ne_none e).symm
  · trivial
  · obtain ⟨hsettles, hholds⟩ := hfound
    refine Cleans.mono (fun _ run' s' => run = run' ∧ Works r s1 s' ∧ Own id r s')
      (cleans_releaseObject hid hholds) ?_
    rintro ⟨⟩ run' s' ⟨hcopy, hworks, hown⟩
    exact ⟨hcopy, Works.trans ⟨hdb, hsettles.shrinks _⟩ hworks, hown⟩

theorem cleans_requestDeletion (hown : Own id r s) :
    Cleans id namespace_ (fun _ run' s' => run = run' ∧ Works r s s') (requestDeletion r)
      run s := by
  refine Cleans.call hown ?_
  rintro ((text | text) | ⟨⟩) s' ⟨hdb, hdeleted⟩
  · exact ⟨rfl, hdb, hdeleted.1.shrinks _⟩
  · trivial
  · obtain ⟨c, hsettles, hdeletes⟩ := hdeleted
    exact ⟨rfl, hdb, (hsettles.shrinks _).trans hdeletes.shrinks⟩

theorem cleans_confirmDeletion (hkind : r.kind ∈ runResourceTypes) {flag : Bool}
    (hpending : flag = true → Pending id namespace_ (r :: resources) s) :
    Cleans id namespace_
      (fun gone run' s' =>
        run = run' ∧ ((flag && gone) = true → Pending id namespace_ resources s'))
      (confirmDeletion r) run s := by
  refine Cleans.call trivial ?_
  rintro ((text | text) | object) s1 ⟨hdb, hfound⟩
  · obtain ⟨hsettles, hnone⟩ := hfound
    refine Cleans.bind (Cleans.attempt ⟨.untrack r.id, ?_⟩)
    rintro ans s' ⟨hremoved, hcluster⟩ ⟨⟩ rfl
    refine ⟨rfl, fun hflag => ?_⟩
    have hflag : flag = true := by simpa using hflag
    exact ((hpending hflag).shrink hdb (hsettles.shrinks _)).untrack hnone hcluster hremoved
  · trivial
  · refine Cleans.bind (cleans_track hkind fun s' _ _ => ?_)
    exact ⟨rfl, fun hflag => absurd hflag (by simp)⟩

theorem cleans_deleteResource (hid : id ≠ "") (hkind : r.kind ∈ runResourceTypes) {flag : Bool}
    (hpending : flag = true → Pending id namespace_ (r :: resources) s) :
    Cleans id namespace_
      (fun gone run' s' =>
        run = run' ∧ ((flag && gone) = true → Pending id namespace_ resources s'))
      (deleteResource id r) run s := by
  refine Cleans.seq (cleans_releaseResource hid) ?_
  rintro ⟨⟩ _ s1 ⟨rfl, hworks1, hown⟩
  refine Cleans.seq (cleans_requestDeletion hown) ?_
  rintro ⟨⟩ _ s2 ⟨rfl, hworks2⟩
  refine cleans_confirmDeletion hkind fun hflag => ?_
  have hworks : Works r s s2 := hworks1.trans hworks2
  exact (hpending hflag).shrink hworks.db hworks.cluster

theorem gvrForKind_of_tracked {kind : Kind} (h : kind ∈ runResourceTypes) :
    gvrForKind kind = true := by
  cases kind with
  | _ => first | rfl | exact absurd h (by decide)

/-- The loop of `deleteOwned`: as long as everything was gone, what is left is what the
loop still has to visit. -/
theorem cleans_deleteResources (hid : id ≠ "") {flag : Bool}
    (hkinds : ∀ r ∈ resources, r.kind ∈ runResourceTypes)
    (hpending : flag = true → Pending id namespace_ resources s) :
    Cleans id namespace_ (fun done run' s' => run = run' ∧ (done = true → s'.Clean id namespace_))
      (deleteResources id resources flag) run s := by
  induction resources generalizing flag s with
  | nil => exact ⟨rfl, fun hdone => (hpending hdone).clean⟩
  | cons r resources ih =>
    unfold deleteResources
    rw [if_pos (gvrForKind_of_tracked (hkinds r List.mem_cons_self))]
    refine Cleans.seq (cleans_deleteResource hid (hkinds r List.mem_cons_self) hpending) ?_
    rintro gone _ s' ⟨rfl, hleft⟩
    exact ih (fun other hother => hkinds other (List.mem_cons_of_mem _ hother)) hleft

theorem cleans_deleteOwned (hrun : run.id = id) (hid : id ≠ "") (hkinds : s.Kinds id)
    (hfound : ∀ kind ∈ runResourceTypes, Found id namespace_ s kind) :
    Cleans id namespace_ (fun done run' s' => run = run' ∧ (done = true → s'.Clean id namespace_))
      deleteOwned run s := by
  subst hrun
  refine Act.At.get (Cleans.bind (cleans_listResources fun resources hresources => ?_))
  refine cleans_deleteResources hid (fun r hr => ?_) fun _ => ⟨?_, ?_⟩
  · obtain ⟨hrow, hrunID⟩ := (hresources r).mp hr
    exact hkinds _ r hrow hrunID
  · intro kind hkind name e he hcarries
    exact (hfound kind hkind).listed hresources he hcarries
  · intro key r hr hrunID
    refine (hresources r).mpr ⟨?_, hrunID⟩
    obtain rfl := s.db.keyed .resources key r hr
    exact hr

end Deletion

/-! ## Passes -/

/-- A pass over a run that is to be cancelled, on a copy of the run: a slime run with an
intact snapshot of the specification. -/
structure CancelPass (cfg : Config) (id : String) (spec : RLRunSpec) where
  run : RLRun
  id_eq : run.id = id
  named : id ≠ ""
  slime : run.backend = .slime
  desired : run.desiredState = .cancelled
  intact : ∃ now, verifiedSpec cfg now run = .ok spec

/-- The program of a pass. -/
def CancelPass.program {cfg : Config} {id : String} {spec : RLRunSpec}
    (pass : CancelPass cfg id spec) : Program (Except String Unit × RLRun) :=
  reconcile cfg pass.run

section Passes

variable {cfg : Config} {id namespace_ : String} {spec : RLRunSpec} {run : RLRun} {s s' : Site}

theorem document_of_verifiedSpec {now : Int} (h : verifiedSpec cfg now run = .ok spec) :
    ∃ document, cfg.decodeSnapshot run.snapshotJSON = .ok document ∧ document.spec = spec := by
  unfold verifiedSpec at h
  split at h
  · cases h
  rename_i document hdecoded
  split at h
  · cases h
  split at h
  · cases h
  split at h
  · cases h
    exact ⟨document, hdecoded, rfl⟩
  · cases h

theorem cleans_saveRun (h : run.status = .cancelled → s.Clean id namespace_) :
    Cleans id namespace_ (fun _ _ _ => True) saveRun run s :=
  Act.At.get (Cleans.attempt ⟨.saveRun run h, fun _ _ _ _ _ => trivial⟩)

theorem unchanged_of_saveRun {ans : Except Failure Unit}
    (h : s.exec (.sql (.save .runs run)) ans s') :
    s'.cluster = s.cluster ∧ ∀ key, s'.db.row .resources key = s.db.row .resources key := by
  obtain ⟨hdb, hcluster⟩ := h
  refine ⟨hcluster, fun key => ?_⟩
  cases ans with
  | error e =>
    have hsame : s'.db = s.db := hdb
    rw [hsame]
  | ok =>
    have hsaved : s'.db = s.db.save .runs run := hdb
    rw [hsaved]
    exact Database.row_save_of_ne (t := .runs) s.db run key fun h => by cases h

theorem cleans_cancelBranch (hrun : run.id = id) (hid : id ≠ "") (hkinds : s.Kinds id)
    (hfound : ∀ kind ∈ runResourceTypes, Found id namespace_ s kind) :
    Cleans id namespace_ (fun _ _ _ => True) cancelBranch run s := by
  refine Act.At.get ?_
  split
  · refine Cleans.seq (cleans_suspendOwned hrun hkinds) fun _ run' s' _ => ?_
    exact Act.At.modify (cleans_saveRun fun h => by cases h)
  · have hopen : RunStatus.cancelling = .cancelled → s.Clean id namespace_ := fun h => by cases h
    refine Act.At.modify (Act.At.get (Cleans.bind (Cleans.lift ⟨.saveRun _ hopen, ?_⟩)))
    intro ans s1 hexec
    obtain ⟨hcluster, hrows⟩ := unchanged_of_saveRun hexec
    have hkinds1 : s1.Kinds id := fun key r hr => hkinds key r (by rw [← hrows]; exact hr)
    have hfound1 : ∀ kind ∈ runResourceTypes, Found id namespace_ s1 kind := by
      intro kind hkind name e he hcarries
      obtain ⟨r, hr⟩ := hfound kind hkind name e (by rw [← hcluster]; exact he) hcarries
      exact ⟨r, (hrows _).trans hr⟩
    refine Cleans.seq (cleans_deleteOwned hrun hid hkinds1 hfound1) ?_
    rintro done _ s2 ⟨rfl, hclean⟩
    split
    · rename_i hdone
      exact Act.At.modify (cleans_saveRun fun _ => hclean hdone)
    · exact cleans_saveRun fun h => by cases h

theorem cleans_reconcile (pass : CancelPass cfg id spec) (hkinds : s.Kinds id) :
    Cleans id (specNamespace spec) (fun _ _ _ => True) (reconcile cfg) pass.run s := by
  obtain ⟨now0, hintact⟩ := pass.intact
  obtain ⟨document, hdocument, hspec⟩ := document_of_verifiedSpec hintact
  refine Act.At.get (Cleans.call trivial ?_)
  rintro now s1 ⟨hdb, -⟩
  have hdb : s1.db = s.db := hdb
  have hkinds1 : s1.Kinds id := fun key r hr => hkinds key r (by rw [← hdb]; exact hr)
  cases hverified : verifiedSpec cfg now pass.run with
  | error text => trivial
  | ok found =>
    obtain ⟨document', hdocument', hfound⟩ := document_of_verifiedSpec hverified
    obtain rfl : document = document' := Except.ok.inj (hdocument.symm.trans hdocument')
    obtain rfl : spec = found := hspec.symm.trans hfound
    refine Cleans.seq (cleans_discoverOwned pass.id_eq) ?_
    rintro ⟨⟩ _ s2 ⟨rfl, hgrows, -, hleft⟩
    rw [if_pos (.inl pass.desired)]
    refine cleans_cancelBranch pass.id_eq pass.named (hgrows.kinds hkinds1) fun kind hkind => ?_
    exact (hleft kind hkind).resolve_left List.not_mem_nil

/-- The operations of a pass leave the tracked resources of the tracked kinds. -/
theorem kinds_of_exec {op : Op} {ans : Ans op} (hkinds : s.Kinds id)
    (hproper : Proper id namespace_ s op) (h : s.exec op ans s') : s'.Kinds id := by
  cases op with
  | sql q =>
    have hissues : Issues id namespace_ s q := hproper
    cases hissues with
    | saveRun run hclean =>
      obtain ⟨-, hrows⟩ := unchanged_of_saveRun h
      exact fun key r hr => hkinds key r ((hrows key).symm.trans hr)
    | listResources =>
      have hdb : s'.db = s.db := by
        cases ans with
        | error e => exact h.1
        | ok rows => exact h.1.1
      exact fun key r hr => hkinds key r (by rw [← hdb]; exact hr)
    | track r hkind => exact (Grows.of_track hkind h).1.kinds hkinds
    | untrack n =>
      obtain ⟨hdb, -⟩ := h
      cases ans with
      | error e =>
        have hdb : s'.db = s.db := hdb
        exact fun key r hr => hkinds key r (by rw [← hdb]; exact hr)
      | ok =>
        have hdb : s'.db = s.db.remove .resources fun r : BackendResource => r.id = n := hdb
        intro key r hr
        rw [hdb] at hr
        have hkept := (Database.row_remove (t := .resources) s.db _ key).symm.trans hr
        exact hkinds key r (Option.filter_eq_some_iff.mp hkept).1
  | newRunID digits =>
    have hdb : s'.db = s.db := h.1.1
    exact fun key r hr => hkinds key r (by rw [← hdb]; exact hr)
  | _ =>
    have hdb : s'.db = s.db := h.1
    exact fun key r hr => hkinds key r (by rw [← hdb]; exact hr)

end Passes

/-! ## Cancellation is complete -/

/-- The process that makes the passes over a run. -/
abbrev Cleaner : Type := Solo Site Op Ans (Except String Unit × RLRun)

/-- One step of the process. -/
def CancelStep (cfg : Config) (id : String) (spec : RLRunSpec) :
    Cleaner → Solo.Event (CancelPass cfg id spec) Op Ans → Cleaner → Prop :=
  Solo.Step CancelPass.program Site.exec

/-- Cancellation is complete and deletes only objects of the run.  Passes over the run,
one after another, each possibly cut short, are served by the cluster and the database.
Whatever they delete carries both labels, and when the run is saved as cancelled no
labelled object of the tracked kinds and no tracked resource is left. -/
theorem cancellation_complete {cfg : Config} {id : String} {spec : RLRunSpec} {s t u : Cleaner}
    {events : List (Solo.Event (CancelPass cfg id spec) Op Ans)} {op : Op} {ans : Ans op}
    (hidle : s.Idle) (hkinds : s.world.Kinds id) (hrun : Run (CancelStep cfg id spec) s events t)
    (hstep : CancelStep cfg id spec t (.perform op ans) u) :
    (∀ kind namespace_ name e, op = .deleteObject kind namespace_ name →
      t.world.cluster.entry (kind, namespace_, name) = some e → Carries id e.object) ∧
    (∀ run : RLRun, op = .sql (.save .runs run) → run.status = .cancelled →
      u.world.Clean id (specNamespace spec)) := by
  have hprogram : ∀ (pass : CancelPass cfg id spec) (w : Site), w.Kinds id →
      wp (checking Site.exec (Proper id (specNamespace spec))) pass.program (fun _ _ => True) w :=
    fun pass w hw => wp_mono (fun _ _ _ => trivial) (cleans_reconcile pass hw)
  have hexec : ∀ w op ans w', w.Kinds id → Proper id (specNamespace spec) w op →
      Site.exec w op ans w' → w'.Kinds id :=
    fun _ _ _ _ hw hproper hcall => kinds_of_exec hw hproper hcall
  obtain ⟨hproper, hcall⟩ := Solo.allowed hprogram hexec hrun hidle hkinds hstep
  refine ⟨?_, ?_⟩
  · rintro kind namespace_ name e rfl he
    exact hproper e he
  · rintro run rfl hstatus
    have hissues : Issues id (specNamespace spec) t.world (.save .runs run) := hproper
    cases hissues with
    | saveRun _ hclean =>
      obtain ⟨hobjects, htracked⟩ := hclean hstatus
      obtain ⟨hcluster, hrows⟩ := unchanged_of_saveRun hcall
      refine ⟨fun kind hkind name e he => ?_, fun key r hr => ?_⟩
      · exact hobjects kind hkind name e (by rw [← hcluster]; exact he)
      · exact htracked key r ((hrows key).symm.trans hr)

/-! ### A run whose job lingers -/

def Site.answer (settle : Bool) (s : Site) : (op : Op) → Option (Ans op × Site)
  | .sql q => some ((s.db.eval q).1, ⟨(s.db.eval q).2, s.cluster⟩)
  | .now => some ((0 : Int), s)
  | op =>
    ((if settle then s.cluster.settled else s.cluster).eval op).map fun (ans, cluster) =>
      (ans, ⟨s.db, cluster⟩)

theorem Site.exec_answer (settle : Bool) (s : Site) (op : Op) (ans : Ans op) (s' : Site)
    (h : s.answer settle op = some (ans, s')) : s.exec op ans s' := by
  have hsettles : s.cluster.Settles (if settle then s.cluster.settled else s.cluster) := by
    cases settle with
    | false => exact .refl s.cluster
    | true => exact s.cluster.settles_settled
  have hcluster : ((if settle then s.cluster.settled else s.cluster).eval op).map
      (fun (ans, cluster) => (ans, (⟨s.db, cluster⟩ : Site))) = some (ans, s') →
        s'.db = s.db ∧ s.cluster.exec op ans s'.cluster := by
    intro hmap
    obtain ⟨⟨ans', cluster⟩, heval, hsame⟩ := Option.map_eq_some_iff.mp hmap
    cases hsame
    exact ⟨rfl, Cluster.exec_of_settles hsettles heval⟩
  cases op with
  | sql q =>
    cases h
    exact ⟨s.db.exec_eval q, rfl⟩
  | now =>
    cases h
    exact ⟨rfl, rfl⟩
  | newRunID digits => cases h
  | _ => exact hcluster h

def tenantConfig : Config := configOf tenantSpec

def cancellingRun : RLRun :=
  { (default : RLRun) with
    id := "run", backend := .slime, status := .cancelling, desiredState := .cancelled
    snapshotSHA256 := "sha" }

def cancellingPass : CancelPass tenantConfig "run" tenantSpec where
  run := cancellingRun
  id_eq := rfl
  named := by decide
  slime := rfl
  desired := rfl
  intact := by
    refine ⟨5, ?_⟩
    have hsnapshot : snapshot tenantConfig.codec 5 tenantSpec =
        .ok ⟨tenantSpec.normalize 5, "sha", true⟩ :=
      snapshot_eq_ok_iff.mpr ⟨problems_tenantSpec _, rfl⟩
    show verifiedSpec tenantConfig 5 cancellingRun = .ok tenantSpec
    unfold verifiedSpec
    simp only [tenantConfig, configOf, cancellingRun] at hsnapshot ⊢
    rw [hsnapshot]
    rfl

def ownedJob : Object := renderRayJob tenantSpec "attempt-001"

def sharedService : Object := shared tenantSpec "v1" .service "registry" .foreign

def lingeringSite : Site where
  db := Database.empty
  cluster :=
    (Cluster.empty.put ⟨ownedJob, false⟩ (show ownedJob.Labelled by decide +kernel)).put
      ⟨sharedService, false⟩ (show sharedService.Labelled by decide +kernel)

def lingering : List (Solo.Choice (CancelPass tenantConfig "run" tenantSpec) Bool) :=
  .start cancellingPass :: List.replicate 16 (.next false) ++
    .start cancellingPass :: List.replicate 12 (.next false) ++ [.next true, .next false]

def lingered : Cleaner :=
  (play (Solo.advance CancelPass.program Site.answer) ⟨lingeringSite, .ret (.ok (), default)⟩
    lingering).2

def savesCancelled (s : Cleaner) : Bool :=
  match s.rest with
  | .call (.sql (.save .runs run)) _ => run.status = .cancelled
  | _ => false

theorem savesCancelled_lingered : savesCancelled lingered = true := by decide +kernel

theorem step_of_savesCancelled {s : Cleaner} (h : savesCancelled s = true) :
    ∃ (run : RLRun) (u : Cleaner), CancelStep tenantConfig "run" tenantSpec s
      (.perform (.sql (.save .runs run)) (.ok ())) u ∧ run.status = .cancelled := by
  obtain ⟨w, rest⟩ := s
  unfold savesCancelled at h
  split at h
  · rename_i run next hrest
    have hrest : rest = .call (.sql (.save .runs run)) next := hrest
    subst hrest
    have hexec : w.exec (.sql (.save .runs run)) (.ok ()) ⟨w.db.save .runs run, w.cluster⟩ :=
      ⟨rfl, rfl⟩
    exact ⟨run, _, .perform hexec, of_decide_eq_true h⟩
  · cases h

/-- The first pass deletes the job, which lingers, and leaves the service alone; when the
second pass saves the run as cancelled, nothing of it is left. -/
theorem cancellation_complete_lingering :
    ∃ (run : RLRun) (u : Cleaner), CancelStep tenantConfig "run" tenantSpec lingered
      (.perform (.sql (.save .runs run)) (.ok ())) u ∧ run.status = .cancelled ∧
        u.world.Clean "run" (specNamespace tenantSpec) := by
  have hadvance : ∀ s choice event s',
      Solo.advance (CancelPass.program : CancelPass tenantConfig "run" tenantSpec → _) Site.answer s
        choice = some (event, s') → CancelStep tenantConfig "run" tenantSpec s event s' :=
    Solo.step_of_advance Site.exec_answer
  have hrun := run_play hadvance ⟨lingeringSite, .ret (.ok (), default)⟩ lingering
  have hkinds : lingeringSite.Kinds "run" := fun key r hr => absurd hr (Database.row_empty_ne key r)
  obtain ⟨run, u, hstep, hstatus⟩ := step_of_savesCancelled savesCancelled_lingered
  obtain ⟨-, hclean⟩ := cancellation_complete ⟨_, rfl⟩ hkinds hrun hstep
  exact ⟨run, u, hstep, hstatus, hclean run rfl hstatus⟩

end RL
end Skyscale
