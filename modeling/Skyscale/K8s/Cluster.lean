import Skyscale.Control.Calls

/-!
# The cluster behind the Kubernetes client

What the API server stores and how it answers `List`, `Get`, `Apply` and `Delete`.
Every object lives at its address, and label values are made of the characters the
server admits.  A deleted object may stay for any number of later calls; it is then
`terminating`, and before each call any terminating objects may be gone.

Any call may fail with an error other than "not found"; a failed `Apply` or `Delete`
may have taken effect.
-/

namespace Skyscale
namespace K8s

open Lib State Control

/-- Where an object lives: kind, namespace and name. -/
abbrev Address : Type := Kind × String × String

def Object.address (object : Object) : Address := (object.kind, object.namespace_, object.name)

/-! ## Label selectors -/

/-- A character of label keys and values. -/
def isSelectorChar (c : Char) : Bool :=
  c.isAlphanum || c = '-' || c = '_' || c = '.' || c = '/'

/-- An equality `key=value` of a selector. -/
def requirement (part : List Char) : Option (String × String) :=
  match part.takeWhile (· ≠ '='), part.dropWhile (· ≠ '=') with
  | key, _ :: value =>
    if key.all isSelectorChar && value.all isSelectorChar then
      some (String.ofList key, String.ofList value)
    else none
  | _, [] => none

/-- The equalities of a selector, for selectors that consist of equalities. -/
def requirements (selector : String) : Option (List (String × String)) :=
  (selector.toList.splitOn ',').mapM requirement

theorem isSelectorChar_ne {c : Char} (h : isSelectorChar c = true) : c ≠ ',' ∧ c ≠ '=' := by
  constructor
  · rintro rfl
    exact absurd h (by decide)
  · rintro rfl
    exact absurd h (by decide)

/-- How a selector of equalities is written. -/
def selectorText (needed : List (String × String)) : String :=
  String.ofList ([','].intercalate (needed.map fun label =>
    label.1.toList ++ '=' :: label.2.toList))

/-- The characters of a label are those of keys and values. -/
def plainLabel (label : String × String) : Bool :=
  label.1.toList.all isSelectorChar && label.2.toList.all isSelectorChar

theorem requirement_of_plain {label : String × String} (h : plainLabel label = true) :
    requirement (label.1.toList ++ '=' :: label.2.toList) = some label := by
  obtain ⟨hkey, hvalue⟩ := Bool.and_eq_true_iff.mp h
  have hne : ∀ c ∈ label.1.toList, decide (c ≠ '=') = true := fun c hc =>
    decide_eq_true (isSelectorChar_ne (List.all_eq_true.mp hkey c hc)).2
  unfold requirement
  rw [List.takeWhile_append_of_pos hne, List.dropWhile_append_of_pos hne]
  simp [hkey, hvalue]

theorem requirements_selectorText {needed : List (String × String)} (hnil : needed ≠ [])
    (hplain : ∀ label ∈ needed, plainLabel label = true) :
    requirements (selectorText needed) = some needed := by
  have hcomma : ∀ part ∈ needed.map (fun label => label.1.toList ++ '=' :: label.2.toList),
      ',' ∉ part := by
    intro part hpart
    obtain ⟨label, hlabel, rfl⟩ := List.mem_map.mp hpart
    obtain ⟨hkey, hvalue⟩ := Bool.and_eq_true_iff.mp (hplain label hlabel)
    intro hmem
    rcases List.mem_append.mp hmem with hin | hin
    · exact (isSelectorChar_ne (List.all_eq_true.mp hkey _ hin)).1 rfl
    · rcases List.mem_cons.mp hin with heq | hin
      · exact absurd heq (by decide)
      · exact (isSelectorChar_ne (List.all_eq_true.mp hvalue _ hin)).1 rfl
  unfold requirements selectorText
  rw [String.toList_ofList, List.splitOn_intercalate ',' hcomma (by simpa using hnil),
    List.mapM_map]
  clear hcomma hnil
  induction needed with
  | nil => rfl
  | cons label needed ih =>
    rw [List.mapM_cons, Function.comp_apply, requirement_of_plain (hplain label List.mem_cons_self),
      ih fun l hl => hplain l (List.mem_cons_of_mem _ hl)]
    rfl

/-- The labels of the object meet the requirements. -/
def Object.satisfies (object : Object) (needed : List (String × String)) : Bool :=
  needed.all fun label => object.labels.get label.1 = some label.2

/-! ## What is stored -/

/-- A stored object, and whether its deletion has been requested. -/
structure StoredObject where
  object : Object
  terminating : Bool

/-- The server admits the label values. -/
def Object.Labelled (object : Object) : Prop :=
  ∀ key value, object.labels.get key = some value → value.toList.all isSelectorChar = true

/-- The objects of a cluster. -/
structure Cluster where
  entries : FinMap Address StoredObject
  addressed : ∀ a e, entries.get a = some e → e.object.address = a
  labelled : ∀ a e, entries.get a = some e → e.object.Labelled

namespace Cluster

variable {c c' c1 : Cluster} {a b : Address}

/-- The object at an address. -/
def entry (c : Cluster) (a : Address) : Option StoredObject := c.entries.get a

/-- Some terminating objects are gone. -/
def Settles (c c' : Cluster) : Prop :=
  ∀ a, c'.entry a = c.entry a ∨
    c'.entry a = none ∧ ∃ e, c.entry a = some e ∧ e.terminating = true

/-- One address is written. -/
def Writes (c : Cluster) (a : Address) (e : Option StoredObject) (c' : Cluster) : Prop :=
  ∀ b, c'.entry b = if b = a then e else c.entry b

/-- `Get` finds the object. -/
def Holds (c : Cluster) (a : Address) (object : Object) : Prop :=
  ∃ e, c.entry a = some e ∧ e.object = object

/-- An answer of `List`: the objects of the kind in the namespace that the selector
selects. -/
def Lists (c : Cluster) (kind : Kind) (namespace_ selector : String) (objects : List Object) :
    Prop :=
  ∀ needed, requirements selector = some needed → ∀ object,
    object ∈ objects ↔
      c.Holds (kind, namespace_, object.name) object ∧ object.satisfies needed = true

/-- `Apply` creates the object or changes the one at its address.  The stored object has
the labels it was applied with, and possibly others. -/
def Applies (c : Cluster) (object stored : Object) (c' : Cluster) : Prop :=
  stored.address = object.address ∧
    (∀ key value, object.labels.get key = some value → stored.labels.get key = some value) ∧
    (∀ e, c.entry object.address = some e → stored.uid = e.object.uid) ∧
    c.Writes object.address
      (some ⟨stored, (c.entry object.address).any StoredObject.terminating⟩) c'

/-- `Delete` removes the object at once, or lets it linger. -/
def Deletes (c : Cluster) (a : Address) (c' : Cluster) : Prop :=
  ∃ e, c.entry a = some e ∧
    (c.Writes a none c' ∨ c.Writes a (some { e with terminating := true }) c')

/-- What a call may answer, and the cluster it leaves. -/
def exec (c : Cluster) : (op : Op) → Ans op → Cluster → Prop
  | .getObject kind namespace_ name, .ok object, c' =>
    c.Settles c' ∧ c'.Holds (kind, namespace_, name) object
  | .getObject kind namespace_ name, .error (.notFound _), c' =>
    c.Settles c' ∧ c'.entry (kind, namespace_, name) = none
  | .getObject _ _ _, .error (.other _), c' => c.Settles c'
  | .listObjects kind namespace_ selector, .ok objects, c' =>
    c.Settles c' ∧ c'.Lists kind namespace_ selector objects
  | .listObjects _ _ _, .error _, c' => c.Settles c'
  | .apply object, .ok stored, c' => ∃ c1, c.Settles c1 ∧ c1.Applies object stored c'
  | .apply object, .error _, c' =>
    ∃ c1, c.Settles c1 ∧ (c' = c1 ∨ ∃ stored, c1.Applies object stored c')
  | .deleteObject kind namespace_ name, .ok _, c' =>
    ∃ c1, c.Settles c1 ∧ c1.Deletes (kind, namespace_, name) c'
  | .deleteObject kind namespace_ name, .error (.notFound _), c' =>
    c.Settles c' ∧ c'.entry (kind, namespace_, name) = none
  | .deleteObject kind namespace_ name, .error (.other _), c' =>
    ∃ c1, c.Settles c1 ∧ (c' = c1 ∨ c1.Deletes (kind, namespace_, name) c')
  | _, _, c' => c' = c

/-! ## What a call leaves elsewhere -/

/-- Nothing appears or changes outside an address. -/
def Shrinks (a : Address) (c c' : Cluster) : Prop :=
  ∀ b, b ≠ a → c'.entry b = c.entry b ∨ c'.entry b = none

theorem Settles.shrinks (h : c.Settles c') (a : Address) : Shrinks a c c' :=
  fun b _ => (h b).imp id And.left

theorem Writes.shrinks {e : Option StoredObject} (h : c.Writes a e c') : Shrinks a c c' :=
  fun b hb => .inl (by rw [h b, if_neg hb])

theorem Shrinks.trans (h : Shrinks a c c1) (h' : Shrinks a c1 c') : Shrinks a c c' := by
  intro b hb
  rcases h' b hb with hsame | hgone
  · rw [hsame]
    exact h b hb
  · exact .inr hgone

theorem Deletes.shrinks (h : c.Deletes a c') : Shrinks a c c' := by
  obtain ⟨e, -, hnow | hlater⟩ := h
  · exact hnow.shrinks
  · exact hlater.shrinks

theorem Settles.entry_eq {e : StoredObject} (h : c.Settles c') (he : c'.entry a = some e) :
    c.entry a = some e := by
  rcases h a with hsame | ⟨hgone, -⟩
  · exact hsame.symm.trans he
  · rw [hgone] at he
    cases he

/-! ## Computed answers -/

instance (object : Object) : Decidable object.Labelled :=
  decidable_of_iff (∀ value ∈ object.labels.values, value.toList.all isSelectorChar = true) <| by
    constructor
    · exact fun h key value hget => h value (FinMap.mem_values_iff.mpr ⟨key, hget⟩)
    · intro h value hvalue
      obtain ⟨key, hget⟩ := FinMap.mem_values_iff.mp hvalue
      exact h key value hget

def empty : Cluster where
  entries := ∅
  addressed := fun _ _ h => by cases h
  labelled := fun _ _ h => by cases h

def put (c : Cluster) (e : StoredObject) (h : e.object.Labelled) : Cluster where
  entries := c.entries.set e.object.address e
  addressed := by
    intro a e' he'
    obtain ⟨ha, rfl⟩ | ⟨_, he'⟩ := FinMap.get_set_cases he'
    · exact ha.symm
    · exact c.addressed a e' he'
  labelled := by
    intro a e' he'
    obtain ⟨_, rfl⟩ | ⟨_, he'⟩ := FinMap.get_set_cases he'
    · exact h
    · exact c.labelled a e' he'

theorem writes_put {e : StoredObject} {h : e.object.Labelled} :
    c.Writes e.object.address (some e) (c.put e h) := by
  intro b
  exact FinMap.get_set c.entries e.object.address b e

def settled (c : Cluster) : Cluster where
  entries := c.entries.keep fun e => !e.terminating
  addressed := by
    intro a e he
    rw [FinMap.get_keep, Option.filter_eq_some_iff] at he
    exact c.addressed a e he.1
  labelled := by
    intro a e he
    rw [FinMap.get_keep, Option.filter_eq_some_iff] at he
    exact c.labelled a e he.1

theorem settles_settled (c : Cluster) : c.Settles c.settled := by
  intro a
  have hget : c.settled.entry a = (c.entry a).filter fun e => !e.terminating :=
    FinMap.get_keep _ c.entries a
  rw [hget]
  cases hentry : c.entry a with
  | none => exact .inl rfl
  | some e =>
    cases hterminating : e.terminating with
    | false => exact .inl (by simp [hterminating])
    | true => exact .inr ⟨by simp [hterminating], e, rfl, hterminating⟩

def listed (c : Cluster) (kind : Kind) (namespace_ : String) (needed : List (String × String)) :
    List Object :=
  (c.entries.values.map StoredObject.object).filter fun object =>
    object.kind = kind && object.namespace_ = namespace_ && object.satisfies needed

def eval (c : Cluster) : (op : Op) → Option (Ans op × Cluster)
  | .getObject kind namespace_ name =>
    match c.entry (kind, namespace_, name) with
    | none => some (.error (.notFound "not found"), c)
    | some e => some (.ok e.object, c)
  | .listObjects kind namespace_ selector =>
    match requirements selector with
    | none => some (.error (.other "unable to parse the selector"), c)
    | some needed => some (.ok (c.listed kind namespace_ needed), c)
  | .apply object =>
    if h : object.Labelled then
      let old := c.entry object.address
      let stored := { object with uid := old.elim ("uid-" ++ object.name) fun e => e.object.uid }
      some (.ok stored, c.put ⟨stored, old.any StoredObject.terminating⟩ h)
    else
      some (.error (.other "invalid label"), c)
  | .deleteObject kind namespace_ name =>
    match hentry : c.entry (kind, namespace_, name) with
    | none => some (.error (.notFound "not found"), c)
    | some e => some (.ok (), c.put { e with terminating := true } (c.labelled _ e hentry))
  | _ => none

theorem Settles.refl (c : Cluster) : c.Settles c := fun _ => .inl rfl

theorem lists_listed {kind : Kind} {namespace_ selector : String} {needed : List (String × String)}
    (h : requirements selector = some needed) :
    c.Lists kind namespace_ selector (c.listed kind namespace_ needed) := by
  intro needed' h' object
  obtain rfl : needed = needed' := Option.some.inj (h.symm.trans h')
  simp only [listed, List.mem_filter, List.mem_map, FinMap.mem_values_iff, Bool.and_eq_true,
    decide_eq_true_eq]
  constructor
  · rintro ⟨⟨e, ⟨a, he⟩, rfl⟩, ⟨rfl, rfl⟩, hsatisfied⟩
    obtain rfl := c.addressed a e he
    exact ⟨⟨e, he, rfl⟩, hsatisfied⟩
  · rintro ⟨⟨e, he, rfl⟩, hsatisfied⟩
    have haddress := c.addressed _ e he
    exact ⟨⟨e, ⟨_, he⟩, rfl⟩, ⟨congrArg Prod.fst haddress, congrArg (fun a => a.2.1) haddress⟩,
      hsatisfied⟩

theorem exec_eval {op : Op} {ans : Ans op} (h : c.eval op = some (ans, c')) : c.exec op ans c' := by
  cases op with
  | getObject kind namespace_ name =>
    simp only [eval] at h
    split at h
    · cases h
      exact ⟨.refl c, ‹_›⟩
    · rename_i e he
      cases h
      exact ⟨.refl c, e, he, rfl⟩
  | listObjects kind namespace_ selector =>
    simp only [eval] at h
    split at h
    · cases h
      exact .refl c
    · rename_i needed hneeded
      cases h
      exact ⟨.refl c, lists_listed hneeded⟩
  | apply object =>
    simp only [eval] at h
    split at h
    · cases h
      refine ⟨c, .refl c, rfl, fun _ _ hget => hget, ?_, writes_put⟩
      intro e he
      show Option.elim (c.entry object.address) _ _ = _
      rw [he]
      rfl
    · cases h
      exact ⟨c, .refl c, .inl rfl⟩
  | deleteObject kind namespace_ name =>
    simp only [eval] at h
    split at h
    · cases h
      exact ⟨.refl c, ‹_›⟩
    · rename_i e he
      cases h
      refine ⟨c, .refl c, e, he, .inr ?_⟩
      have hwrites := writes_put (c := c) (e := { e with terminating := true })
        (h := c.labelled _ e he)
      rw [show ({ e with terminating := true } : StoredObject).object.address =
        (kind, namespace_, name) from
        c.addressed _ e he] at hwrites
      exact hwrites
  | _ => cases h

theorem Settles.trans (h : c.Settles c1) (h' : c1.Settles c') : c.Settles c' := by
  intro a
  rcases h' a with hsame | ⟨hgone, e, he, hterminating⟩
  · rw [hsame]
    exact h a
  · exact .inr ⟨hgone, e, h.entry_eq he, hterminating⟩

theorem exec_of_settles {op : Op} {ans : Ans op} (h : c.Settles c1)
    (heval : c1.eval op = some (ans, c')) : c.exec op ans c' := by
  have hexec : c1.exec op ans c' := exec_eval heval
  cases op with
  | getObject kind namespace_ name =>
    rcases ans with (text | text) | object
    · exact ⟨h.trans hexec.1, hexec.2⟩
    · exact h.trans hexec
    · exact ⟨h.trans hexec.1, hexec.2⟩
  | listObjects kind namespace_ selector =>
    rcases ans with e | objects
    · exact h.trans hexec
    · exact ⟨h.trans hexec.1, hexec.2⟩
  | apply object =>
    rcases ans with e | stored
    · obtain ⟨c2, hsettles, heffect⟩ := hexec
      exact ⟨c2, h.trans hsettles, heffect⟩
    · obtain ⟨c2, hsettles, heffect⟩ := hexec
      exact ⟨c2, h.trans hsettles, heffect⟩
  | deleteObject kind namespace_ name =>
    rcases ans with (text | text) | ⟨⟩
    · exact ⟨h.trans hexec.1, hexec.2⟩
    · obtain ⟨c2, hsettles, heffect⟩ := hexec
      exact ⟨c2, h.trans hsettles, heffect⟩
    · obtain ⟨c2, hsettles, heffect⟩ := hexec
      exact ⟨c2, h.trans hsettles, heffect⟩
  | _ => cases heval

end Cluster
end K8s
end Skyscale
