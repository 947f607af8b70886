import Mathlib.Data.List.Forall2
import Skyscale.Lib.Program

/-!
# Runs with some programs left out

A pool runs programs side by side.  If the operations of some programs leave alone what the
others see of the world, the others cannot tell whether those programs run at all.

* `Acts` labels the steps of a pool with the program that takes them;
* `Projects` relates a pool to one in which only the kept programs run;
* `Unwinds` is the condition on single operations: those of programs left out keep the relation
  of the worlds, those of kept programs can be followed;
* `projects_of_run` is the resulting run of the kept programs alone.
-/

namespace Skyscale
namespace Lib

variable {World Tag Op V : Type} {Ans : Op → Type} {α : Type}

/-- The thread after an operation. -/
def Thread.after (t : Thread Tag Op Ans α) (op : Op) (ans : Ans op) (rest : Prog Op Ans α) :
    Thread Tag Op Ans α :=
  ⟨t.tag, t.past ++ [⟨op, ans⟩], rest⟩

theorem forall₂_split {β γ : Type} {R : β → γ → Prop} {l1 l2 : List β} {a : β} {l' : List γ}
    (h : List.Forall₂ R (l1 ++ a :: l2) l') :
    ∃ l1' b l2', l' = l1' ++ b :: l2' ∧ List.Forall₂ R l1 l1' ∧ R a b ∧ List.Forall₂ R l2 l2' := by
  induction l1 generalizing l' with
  | nil =>
    obtain ⟨b, l2', hab, hrest, rfl⟩ := List.forall₂_cons_left_iff.mp h
    exact ⟨[], b, l2', rfl, .nil, hab, hrest⟩
  | cons c l1 ih =>
    obtain ⟨b, l', hcb, hrest, rfl⟩ := List.forall₂_cons_left_iff.mp h
    obtain ⟨l1', b', l2', rfl, hfirst, hab, hlast⟩ := ih hrest
    exact ⟨b :: l1', b', l2', rfl, .cons hcb hfirst, hab, hlast⟩

namespace Pool

/-- A program is started, or performs an operation. -/
inductive Action (Tag Op : Type) (Ans : Op → Type) : Type
  | start (tag : Tag)
  | perform (tag : Tag) (op : Op) (ans : Ans op)

/-- The program that acts. -/
def Action.tag : Action Tag Op Ans → Tag
  | start tag => tag
  | perform tag _ _ => tag

/-- The steps of a pool, with the program that takes them. -/
inductive Acts (program : Tag → Prog Op Ans α)
    (exec : World → (op : Op) → Ans op → World → Prop) (s : Pool World Tag Op Ans α) :
    Action Tag Op Ans → Pool World Tag Op Ans α → Prop
  | start {tag : Tag} {s' : Pool World Tag Op Ans α} :
      Step program exec s (.spawn tag) s' → Acts program exec s (.start tag) s'
  | perform {i : Nat} {t : Thread Tag Op Ans α} {op : Op} {ans : Ans op}
      {s' : Pool World Tag Op Ans α} :
      s.threads[i]? = some t → Step program exec s (.call i op ans) s' →
      Acts program exec s (.perform t.tag op ans) s'

section Acts

variable {program : Tag → Prog Op Ans α} {exec : World → (op : Op) → Ans op → World → Prop}
variable {s s' : Pool World Tag Op Ans α}

theorem Acts.split {tag : Tag} {op : Op} {ans : Ans op}
    (h : Acts program exec s (.perform tag op ans) s') :
    ∃ earlier t later next w', s.threads = earlier ++ t :: later ∧ t.tag = tag ∧
      t.rest = .call op next ∧ exec s.world op ans w' ∧
      s' = ⟨w', earlier ++ t.after op ans (next ans) :: later⟩ := by
  cases h with
  | @perform i t _ _ _ hi hstep =>
    cases hstep with
    | call hi' hrest hexec =>
      cases hi.symm.trans hi'
      obtain ⟨hlt, rfl⟩ := List.getElem?_eq_some_iff.mp hi
      have hsplit : ∀ x, s.threads.set i x = s.threads.take i ++ x :: s.threads.drop (i + 1) := by
        intro x
        rw [List.set_eq_take_append_cons_drop, if_pos hlt]
      refine ⟨s.threads.take i, _, s.threads.drop (i + 1), _, _, ?_, rfl, hrest, hexec, ?_⟩
      · rw [← hsplit, List.set_getElem_self]
      · rw [hsplit]
        rfl

theorem acts_of_split {earlier later : List (Thread Tag Op Ans α)} {t : Thread Tag Op Ans α}
    {op : Op} {next : Ans op → Prog Op Ans α} {ans : Ans op} {w' : World}
    (hthreads : s.threads = earlier ++ t :: later) (hrest : t.rest = .call op next)
    (hexec : exec s.world op ans w') :
    Acts program exec s (.perform t.tag op ans)
      ⟨w', earlier ++ t.after op ans (next ans) :: later⟩ := by
  have hi : s.threads[earlier.length]? = some t := by
    rw [hthreads, List.getElem?_append_right (Nat.le_refl _), Nat.sub_self]
    rfl
  have hset : s.threads.set earlier.length (t.after op ans (next ans)) =
      earlier ++ t.after op ans (next ans) :: later := by
    rw [hthreads, List.set_append_right _ _ (Nat.le_refl _), Nat.sub_self]
    rfl
  rw [← hset]
  exact .perform hi (.call hi hrest hexec)

def actionOf (s : Pool World Tag Op Ans α) : PoolEvent Tag Op Ans → Option (Action Tag Op Ans)
  | .spawn tag => some (.start tag)
  | .call i op ans => (s.threads[i]?).map fun t => .perform t.tag op ans

theorem acts_of_step {event : PoolEvent Tag Op Ans} {a : Action Tag Op Ans}
    (h : Step program exec s event s') (ha : actionOf s event = some a) :
    Acts program exec s a s' := by
  cases event with
  | spawn tag =>
    cases ha
    exact .start h
  | call i op ans =>
    obtain ⟨t, hi, rfl⟩ := Option.map_eq_some_iff.mp ha
    exact .perform hi h

variable (program) in
def act (env : World → (op : Op) → Option (Ans op × World)) (s : Pool World Tag Op Ans α)
    (c : Choice Tag) : Option (Action Tag Op Ans × Pool World Tag Op Ans α) :=
  match advance program env s c with
  | none => none
  | some (event, s') => (actionOf s event).map fun a => (a, s')

theorem acts_of_act {env : World → (op : Op) → Option (Ans op × World)}
    (henv : ∀ w op ans w', env w op = some (ans, w') → exec w op ans w') {c : Choice Tag}
    {a : Action Tag Op Ans} (h : act program env s c = some (a, s')) :
    Acts program exec s a s' := by
  unfold act at h
  split at h
  · cases h
  rename_i event s'' hadvance
  obtain ⟨a', haction, heq⟩ := Option.map_eq_some_iff.mp h
  cases heq
  exact acts_of_step (step_of_advance henv hadvance) haction

end Acts

/-! ## Projections -/

/-- The worlds are related, and the threads that are kept, one by one. -/
structure Projects (keep : Tag → Bool) (R : World → World → Prop)
    (M : Thread Tag Op Ans α → Thread Tag Op Ans α → Prop) (s v : Pool World Tag Op Ans α) :
    Prop where
  world : R s.world v.world
  threads : List.Forall₂ M (s.threads.filter fun t => keep t.tag) v.threads

/-- What the operations of the threads of a pool do to the relation of worlds.  An operation of a
kept thread is followed by one that looks the same, or is not seen. -/
structure Unwinds (exec : World → (op : Op) → Ans op → World → Prop) (keep : Tag → Bool)
    (R : World → World → Prop) (M : Thread Tag Op Ans α → Thread Tag Op Ans α → Prop)
    (view : Action Tag Op Ans → Option V) (s : Pool World Tag Op Ans α) : Prop where
  hidden : ∀ t ∈ s.threads, keep t.tag = false → ∀ op next ans w' v, t.rest = .call op next →
    exec s.world op ans w' → R s.world v → R w' v
  kept : ∀ t ∈ s.threads, keep t.tag = true → ∀ t' op next ans w' v, M t t' →
    t.rest = .call op next → exec s.world op ans w' → R s.world v →
    (R w' v ∧ M (t.after op ans (next ans)) t' ∧ view (.perform t.tag op ans) = none) ∨
      ∃ op' next' ans' v', t'.rest = .call op' next' ∧ exec v op' ans' v' ∧ R w' v' ∧
        M (t.after op ans (next ans)) (t'.after op' ans' (next' ans')) ∧
        view (.perform t'.tag op' ans') = view (.perform t.tag op ans)

section Unwinding

variable {program : Tag → Prog Op Ans α} {exec : World → (op : Op) → Ans op → World → Prop}
variable {keep : Tag → Bool} {R : World → World → Prop}
variable {M : Thread Tag Op Ans α → Thread Tag Op Ans α → Prop}
variable {view : Action Tag Op Ans → Option V} {s s' v : Pool World Tag Op Ans α}

/-- One action is followed by none or one. -/
theorem Projects.step {a : Action Tag Op Ans} (h : Projects keep R M s v)
    (htag : ∀ t t', M t t' → t'.tag = t.tag)
    (hstart : ∀ tag, keep tag = true → M ⟨tag, [], program tag⟩ ⟨tag, [], program tag⟩)
    (hview : ∀ a, keep a.tag = false → view a = none) (hacts : Acts program exec s a s')
    (hunwinds : Unwinds exec keep R M view s) :
    ∃ as v', Run (Acts program exec) v as v' ∧ Projects keep R M s' v' ∧
      as.filterMap view = [a].filterMap view ∧ ∀ b ∈ as, keep b.tag = true := by
  have hnone : view a = none → ([] : List (Action Tag Op Ans)).filterMap view =
      [a].filterMap view := by
    intro hunseen
    rw [List.filterMap_cons_none hunseen]
  cases a with
  | start tag =>
    obtain ⟨⟩ | ⟨⟩ := hacts
    rename_i hstep
    cases hstep
    cases hkeep : keep tag with
    | false =>
      refine ⟨[], v, .nil, ⟨h.world, ?_⟩, hnone (hview _ hkeep), fun b hb => by cases hb⟩
      rw [List.filter_append, List.filter_cons_of_neg (by simp [hkeep]), List.filter_nil,
        List.append_nil]
      exact h.threads
    | true =>
      refine ⟨[.start tag], _, .snoc .nil (.start (.spawn tag)), ⟨h.world, ?_⟩, rfl, ?_⟩
      · rw [List.filter_append, List.filter_cons_of_pos (by exact hkeep), List.filter_nil]
        exact List.rel_append h.threads (.cons (hstart tag hkeep) .nil)
      · intro b hb
        rw [List.mem_singleton.mp hb]
        exact hkeep
  | perform tag op ans =>
    obtain ⟨earlier, t, later, next, w', hthreads, rfl, hrest, hexec, rfl⟩ := hacts.split
    have hmem : t ∈ s.threads := by
      rw [hthreads]
      exact List.mem_append_right _ List.mem_cons_self
    have hrelated := h.threads
    rw [hthreads, List.filter_append] at hrelated
    cases hkeep : keep t.tag with
    | false =>
      refine ⟨[], v, .nil, ⟨hunwinds.hidden t hmem hkeep op next ans w' _ hrest hexec h.world, ?_⟩,
        hnone (hview _ hkeep), fun b hb => by cases hb⟩
      have hsame : ∀ x : Thread Tag Op Ans α, x.tag = t.tag →
          (x :: later).filter (fun t => keep t.tag) = later.filter fun t => keep t.tag :=
        fun x hx => List.filter_cons_of_neg (by rw [hx, hkeep]; nofun)
      rw [hsame t rfl] at hrelated
      rw [List.filter_append, hsame (t.after op ans (next ans)) rfl]
      exact hrelated
    | true =>
      have hcons : ∀ x : Thread Tag Op Ans α, x.tag = t.tag →
          (x :: later).filter (fun t => keep t.tag) = x :: later.filter fun t => keep t.tag :=
        fun x hx => List.filter_cons_of_pos (by rw [hx]; exact hkeep)
      rw [hcons t rfl] at hrelated
      obtain ⟨earlier', t', later', hthreads', hearlier, ht, hlater⟩ := forall₂_split hrelated
      rcases hunwinds.kept t hmem hkeep t' op next ans w' _ ht hrest hexec h.world with
        ⟨hworld, hthread, hunseen⟩ | ⟨op', next', ans', v', hrest', hexec', hworld, hthread, hseen⟩
      · refine ⟨[], v, .nil, ⟨hworld, ?_⟩, hnone hunseen, fun b hb => by cases hb⟩
        rw [List.filter_append, hcons (t.after op ans (next ans)) rfl, hthreads']
        exact List.rel_append hearlier (.cons hthread hlater)
      · refine ⟨[.perform t'.tag op' ans'], _,
          .snoc .nil (acts_of_split hthreads' hrest' hexec'), ⟨hworld, ?_⟩, ?_, ?_⟩
        · rw [List.filter_append, hcons (t.after op ans (next ans)) rfl]
          exact List.rel_append hearlier (.cons hthread hlater)
        · simp only [List.filterMap_cons, List.filterMap_nil, hseen]
        · intro b hb
          rw [List.mem_singleton.mp hb]
          show keep t'.tag = true
          rw [htag t t' ht]
          exact hkeep

/-- If the operations of every reachable pool unwind, a run has a projection in which only the
kept programs run, and which looks the same. -/
theorem projects_of_run {step : Pool World Tag Op Ans α → Action Tag Op Ans →
      Pool World Tag Op Ans α → Prop} {J : Pool World Tag Op Ans α → Prop} {w : World}
    {as : List (Action Tag Op Ans)} (hrun : Run step (idle w) as s)
    (hacts : ∀ s a s', step s a s' → Acts program exec s a s')
    (hinit : J (idle w)) (hstep : ∀ s a s', J s → step s a s' → J s')
    (hunwinds : ∀ s, J s → Unwinds exec keep R M view s) (hworld : R w w)
    (htag : ∀ t t', M t t' → t'.tag = t.tag)
    (hstart : ∀ tag, keep tag = true → M ⟨tag, [], program tag⟩ ⟨tag, [], program tag⟩)
    (hview : ∀ a, keep a.tag = false → view a = none) :
    ∃ as' v, Run (Acts program exec) (idle w) as' v ∧ Projects keep R M s v ∧
      as'.filterMap view = as.filterMap view ∧ ∀ a ∈ as', keep a.tag = true := by
  have hboth : J s ∧ ∃ as' v, Run (Acts program exec) (idle w) as' v ∧ Projects keep R M s v ∧
      as'.filterMap view = as.filterMap view ∧ ∀ a ∈ as', keep a.tag = true := by
    induction hrun with
    | nil => exact ⟨hinit, [], _, .nil, ⟨hworld, .nil⟩, rfl, fun a ha => by cases ha⟩
    | snoc _ hlast ih =>
      obtain ⟨hJ, as', v, hrun', hprojects, hseen, hkept⟩ := ih
      obtain ⟨as'', v', hrun'', hprojects', hseen', hkept'⟩ :=
        hprojects.step htag hstart hview (hacts _ _ _ hlast) (hunwinds _ hJ)
      refine ⟨hstep _ _ _ hJ hlast, as' ++ as'', v', hrun'.append hrun'', hprojects', ?_, ?_⟩
      · rw [List.filterMap_append, List.filterMap_append, hseen, hseen']
      · intro a ha
        rcases List.mem_append.mp ha with ha | ha
        · exact hkept a ha
        · exact hkept' a ha
  exact hboth.2

end Unwinding

end Pool

end Lib
end Skyscale
