import Skyscale.Lib.Program

/-!
# A process that runs programs one after another

The process starts a program, performs its operations, and starts the next one; it may
also stop in the middle of a program and start another, as after a crash.  Nothing else
touches the world.

`Solo.allowed` is the rule for such a process: if from every admissible world every
program only performs operations that satisfy `P` in the world they are performed in,
then so does the process, in every run.
-/

namespace Skyscale
namespace Lib

/-- A process: the world, and what is left of the program it runs. -/
structure Solo (World Op : Type) (Ans : Op → Type) (α : Type) where
  world : World
  rest : Prog Op Ans α

namespace Solo

variable {World Tag Op : Type} {Ans : Op → Type} {α : Type}

/-- What a process does: it starts a program, or performs the next operation. -/
inductive Event (Tag Op : Type) (Ans : Op → Type)
  | start (tag : Tag)
  | perform (op : Op) (ans : Ans op)

/-- One step of a process. -/
inductive Step (program : Tag → Prog Op Ans α)
    (exec : World → (op : Op) → Ans op → World → Prop) :
    Solo World Op Ans α → Event Tag Op Ans → Solo World Op Ans α → Prop
  | start (s : Solo World Op Ans α) (tag : Tag) :
      Step program exec s (.start tag) ⟨s.world, program tag⟩
  | perform {w w' : World} {op : Op} {next : Ans op → Prog Op Ans α} {ans : Ans op} :
      exec w op ans w' →
        Step program exec ⟨w, .call op next⟩ (.perform op ans) ⟨w', next ans⟩

/-- No program is running. -/
def Idle (s : Solo World Op Ans α) : Prop := ∃ a, s.rest = .ret a

section Rule

variable {program : Tag → Prog Op Ans α} {exec : World → (op : Op) → Ans op → World → Prop}
variable {P : World → Op → Prop} {I : World → Prop} {s t u : Solo World Op Ans α}
variable {events : List (Event Tag Op Ans)} {op : Op} {ans : Ans op}

/-- What is left of the program only performs admissible operations. -/
def Checked (exec : World → (op : Op) → Ans op → World → Prop) (P : World → Op → Prop)
    (s : Solo World Op Ans α) : Prop :=
  wp (checking exec P) s.rest (fun _ _ => True) s.world

theorem Idle.checked (h : s.Idle) : s.Checked exec P := by
  obtain ⟨a, ha⟩ := h
  unfold Checked
  rw [ha]
  trivial

theorem checked_of_run
    (hprogram : ∀ tag w, I w → wp (checking exec P) (program tag) (fun _ _ => True) w)
    (hexec : ∀ w op ans w', I w → P w op → exec w op ans w' → I w')
    (hrun : Run (Step program exec) s events t) (hidle : s.Idle) (hworld : I s.world) :
    I t.world ∧ t.Checked exec P := by
  refine hrun.invariant (I := fun t => I t.world ∧ t.Checked exec P) ⟨hworld, hidle.checked⟩ ?_
  rintro a event b ⟨ha, hchecked⟩ hstep
  cases hstep with
  | start _ tag => exact ⟨ha, hprogram tag _ ha⟩
  | perform hcall => exact ⟨hexec _ _ _ _ ha hchecked.1 hcall, hchecked.2 _ _ hcall⟩

theorem allowed
    (hprogram : ∀ tag w, I w → wp (checking exec P) (program tag) (fun _ _ => True) w)
    (hexec : ∀ w op ans w', I w → P w op → exec w op ans w' → I w')
    (hrun : Run (Step program exec) s events t) (hidle : s.Idle) (hworld : I s.world)
    (hstep : Step program exec t (.perform op ans) u) :
    P t.world op ∧ exec t.world op ans u.world := by
  obtain ⟨-, hchecked⟩ := checked_of_run hprogram hexec hrun hidle hworld
  cases hstep with
  | perform hcall => exact ⟨hchecked.1, hcall⟩

end Rule

/-! ## Computed runs -/

section Advance

variable {Setting : Type}

inductive Choice (Tag Setting : Type)
  | start (tag : Tag)
  | next (setting : Setting)

def advance (program : Tag → Prog Op Ans α)
    (env : Setting → World → (op : Op) → Option (Ans op × World)) (s : Solo World Op Ans α) :
    Choice Tag Setting → Option (Event Tag Op Ans × Solo World Op Ans α)
  | .start tag => some (.start tag, ⟨s.world, program tag⟩)
  | .next setting =>
    match s.rest with
    | .ret _ => none
    | .call op next =>
      match env setting s.world op with
      | none => none
      | some (ans, w') => some (.perform op ans, ⟨w', next ans⟩)

theorem step_of_advance {program : Tag → Prog Op Ans α}
    {exec : World → (op : Op) → Ans op → World → Prop}
    {env : Setting → World → (op : Op) → Option (Ans op × World)}
    (henv : ∀ setting w op ans w', env setting w op = some (ans, w') → exec w op ans w')
    (s : Solo World Op Ans α) (choice : Choice Tag Setting) (event : Event Tag Op Ans)
    (s' : Solo World Op Ans α) (h : advance program env s choice = some (event, s')) :
    Step program exec s event s' := by
  obtain ⟨w, rest⟩ := s
  cases choice with
  | start tag =>
    cases h
    exact .start _ tag
  | next setting =>
    cases rest with
    | ret a => cases h
    | call op next =>
      simp only [advance] at h
      split at h
      · cases h
      · rename_i ans w' hans
        cases h
        exact .perform (henv setting w op ans w' hans)

end Advance

end Solo
end Lib
end Skyscale
