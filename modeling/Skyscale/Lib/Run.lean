/-!
# Runs of a labelled step relation

A component that serves requests is a relation `step s l s'` between states,
labelled by the request.  A run is a finite list of labelled steps.  Runs grow at
the end, because every result about a service speaks about the last state.

* `Run.invariant` is the induction over a run, done once.
* `Guarded step guard` keeps the steps whose label is admissible in the state
  before the step.  A result about all runs whose steps meet a condition is a
  result about the runs of a guarded relation.
* `Throughout step P` keeps the steps that end in a state satisfying `P`, and
  `Run.origin` finds the step a fact goes back to: the fact was established there
  and never undone later.
* `play` computes a run from a list of decisions.
-/

namespace Skyscale
namespace Lib

variable {State Label : Type}

/-- `Run step s ls s'`: the labels `ls`, in order, lead from `s` to `s'`. -/
inductive Run (step : State → Label → State → Prop) (s : State) :
    List Label → State → Prop
  | nil : Run step s [] s
  | snoc {ls : List Label} {t u : State} {l : Label} :
      Run step s ls t → step t l u → Run step s (ls ++ [l]) u

/-- The steps whose label is admissible in the state before the step. -/
def Guarded (step : State → Label → State → Prop) (guard : State → Label → Prop) :
    State → Label → State → Prop :=
  fun s l s' => step s l s' ∧ guard s l

/-- The steps that end in a state satisfying `P`. -/
def Throughout (step : State → Label → State → Prop) (P : State → Prop) :
    State → Label → State → Prop :=
  fun s l s' => step s l s' ∧ P s'

namespace Run

variable {step : State → Label → State → Prop} {s t u : State} {ls : List Label}

/-- A predicate that holds initially and is preserved by every step holds in
every state a run reaches. -/
theorem invariant {I : State → Prop} (hrun : Run step s ls t) (hinit : I s)
    (hstep : ∀ a l b, I a → step a l b → I b) : I t := by
  induction hrun with
  | nil => exact hinit
  | snoc _ hlast ih => exact hstep _ _ _ ih hlast

theorem mono {step' : State → Label → State → Prop} (hrun : Run step s ls t)
    (hsub : ∀ a l b, step a l b → step' a l b) : Run step' s ls t := by
  induction hrun with
  | nil => exact .nil
  | snoc _ hlast ih => exact .snoc ih (hsub _ _ _ hlast)

theorem of_guarded {guard : State → Label → Prop}
    (hrun : Run (Guarded step guard) s ls t) : Run step s ls t :=
  hrun.mono fun _ _ _ h => h.1

theorem to_guarded {guard : State → Label → Prop} (hrun : Run step s ls t)
    (hguard : ∀ a l, guard a l) : Run (Guarded step guard) s ls t :=
  hrun.mono fun a l _ h => ⟨h, hguard a l⟩

theorem guarded_of_labels {P : Label → Prop} (hrun : Run step s ls t) (hlabels : ∀ l ∈ ls, P l) :
    Run (Guarded step fun _ l => P l) s ls t := by
  induction hrun with
  | nil => exact .nil
  | snoc _ hlast ih =>
    refine .snoc (ih fun l hl => hlabels l (List.mem_append_left _ hl)) ⟨hlast, ?_⟩
    exact hlabels _ (List.mem_append_right _ List.mem_cons_self)

theorem append {ls' : List Label} (hrun : Run step s ls t) (hrest : Run step t ls' u) :
    Run step s (ls ++ ls') u := by
  induction hrest with
  | nil => simpa using hrun
  | snoc _ hlast ih =>
    rw [← List.append_assoc]
    exact .snoc ih hlast

theorem step_of_mem {l : Label} (hrun : Run step s ls t) (hl : l ∈ ls) :
    ∃ a b, step a l b := by
  induction hrun with
  | nil => cases hl
  | snoc _ hlast ih =>
    rcases List.mem_append.mp hl with hmem | hmem
    · exact ih hmem
    · rw [List.mem_singleton.mp hmem]
      exact ⟨_, _, hlast⟩

/-- The step a fact goes back to.  If `P` does not hold at the start of a run and
holds at its end, there is a last step that established it, and `P` held in every
state from then on. -/
theorem origin {P : State → Prop} (hrun : Run step s ls t) (hinit : ¬P s) (hend : P t) :
    ∃ pre l post a b, ls = pre ++ l :: post ∧ Run step s pre a ∧ step a l b ∧ ¬P a ∧ P b ∧
      Run (Throughout step P) b post t := by
  induction hrun with
  | nil => exact absurd hend hinit
  | snoc hprev hlast ih =>
    rename_i ls a b l
    by_cases ha : P a
    · obtain ⟨pre, l', post, a', b', rfl, hpre, hstep, hbefore, hafter, hpost⟩ := ih ha
      refine ⟨pre, l', post ++ [l], a', b', by simp, hpre, hstep, hbefore, hafter, ?_⟩
      exact .snoc hpost ⟨hlast, hend⟩
    · exact ⟨ls, l, [], a, b, rfl, hprev, hlast, ha, hend, .nil⟩

end Run

/-! ## Computed runs -/

section Play

variable {Choice : Type}

def play (advance : State → Choice → Option (Label × State)) :
    State → List Choice → List Label × State
  | s, [] => ([], s)
  | s, c :: cs =>
    match advance s c with
    | none => play advance s cs
    | some (l, s') => (l :: (play advance s' cs).1, (play advance s' cs).2)

theorem run_play {step : State → Label → State → Prop}
    {advance : State → Choice → Option (Label × State)}
    (hadvance : ∀ s c l s', advance s c = some (l, s') → step s l s') (s : State)
    (cs : List Choice) : Run step s (play advance s cs).1 (play advance s cs).2 := by
  induction cs generalizing s with
  | nil => exact .nil
  | cons c cs ih =>
    simp only [play]
    split
    · exact ih s
    · rename_i l s' hfirst
      exact Run.append (Run.snoc .nil (hadvance s c l s' hfirst)) (ih s')

end Play

end Lib
end Skyscale
