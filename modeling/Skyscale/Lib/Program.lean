import Skyscale.Lib.Run

/-!
# Programs that call out, and pools of them

A handler, a background pass or a worker is a sequential program that calls out: to
a database, to another service, to the clock.  Between two of its calls, any other
program may run.  `Prog Op Ans α` is such a program as a tree: it either returns a
value, or performs one operation `op` and continues with the answer.

* `expand` replaces the operations by programs, which is how a call turns out to be
  a sequence of calls one level below.
* `Act` adds a private mutable state and errors, the state surviving an error.
  This is the shape of a function that works on a copy of a row through a pointer
  and returns `error`.
* `wp` is the weakest precondition of a program for a specification of its single
  operations (`OpSpec`), with a state threaded through.  `Obeys A P` says that every
  performed operation satisfies `P`, assuming that every answer satisfies `A`.
* `Pool.Step` interleaves any number of programs at the granularity of single
  operations.  A thread remembers what it was started for (`tag`) and its past
  operations with their answers.
* `Pool.rely_guarantee` is the invariant rule for pools, and `Pool.AtMostOne` speaks
  about sections of programs that exclude each other.
* `recorded` is what a tracked program has done so far.
* `Prog.Calls` speaks about single calls of a program and what is left after them.
* `Prog.evaluate` and `Pool.advance` compute runs and steps.
-/

namespace Skyscale
namespace Lib

/-- A program over operations `op : Op` with answers in `Ans op`. -/
inductive Prog (Op : Type) (Ans : Op → Type) (α : Type) : Type
  | ret (value : α)
  | call (op : Op) (next : Ans op → Prog Op Ans α)

namespace Prog

variable {Op : Type} {Ans : Op → Type} {α β : Type}

/-- Sequential composition. -/
def bind : Prog Op Ans α → (α → Prog Op Ans β) → Prog Op Ans β
  | ret a, f => f a
  | call op next, f => call op fun ans => (next ans).bind f

instance : Monad (Prog Op Ans) where
  pure := ret
  bind := bind

/-- The program of one operation. -/
def perform (op : Op) : Prog Op Ans (Ans op) := call op ret

/-- Do the same for every element of a list. -/
def forEach {ι : Type} (f : ι → Prog Op Ans Unit) : List ι → Prog Op Ans Unit
  | [] => ret ()
  | x :: xs => (f x).bind fun _ => forEach f xs

theorem bind_assoc {γ : Type} (p : Prog Op Ans α) (f : α → Prog Op Ans β)
    (g : β → Prog Op Ans γ) : (p.bind f).bind g = p.bind fun a => (f a).bind g := by
  induction p with
  | ret a => rfl
  | call op next ih =>
    show call op _ = call op _
    congr 1
    funext ans
    exact ih ans

/-- Replace every operation by a program over other operations. -/
def expand {Op' : Type} {Ans' : Op' → Type} (h : (op : Op) → Prog Op' Ans' (Ans op)) :
    Prog Op Ans α → Prog Op' Ans' α
  | ret a => ret a
  | call op next => (h op).bind fun ans => (next ans).expand h

theorem expand_bind {Op' : Type} {Ans' : Op' → Type} (h : (op : Op) → Prog Op' Ans' (Ans op))
    (p : Prog Op Ans α) (f : α → Prog Op Ans β) :
    (p.bind f).expand h = (p.expand h).bind fun a => (f a).expand h := by
  induction p with
  | ret a => rfl
  | call op next ih =>
    show (h op).bind _ = ((h op).bind _).bind _
    rw [bind_assoc]
    congr 1
    funext ans
    exact ih ans

end Prog

/-! ## Programs with a private state and errors -/

/-- A program on a private state that may end with an error.  The state survives an
error. -/
def Act (Op : Type) (Ans : Op → Type) (σ ε α : Type) : Type :=
  σ → Prog Op Ans (Except ε α × σ)

namespace Act

variable {Op : Type} {Ans : Op → Type} {σ ε α β : Type}

/-- Continue after a result: on success with the continuation, on error not. -/
def andThen (f : α → Act Op Ans σ ε β) : Except ε α × σ → Prog Op Ans (Except ε β × σ)
  | (.ok a, s) => f a s
  | (.error e, s) => .ret (.error e, s)

instance : Monad (Act Op Ans σ ε) where
  pure a := fun s => .ret (.ok a, s)
  bind m f := fun s => (m s).bind (andThen f)

/-- End with an error. -/
def fail (e : ε) : Act Op Ans σ ε α := fun s => .ret (.error e, s)

/-- The private state. -/
def get : Act Op Ans σ ε σ := fun s => .ret (.ok s, s)

/-- Assign to fields of the private state. -/
def modify (f : σ → σ) : Act Op Ans σ ε Unit := fun s => .ret (.ok (), f s)

/-- Run a program that can fail and propagate its error under another text. -/
def attempt {δ : Type} (text : δ → ε) (p : Prog Op Ans (Except δ α)) : Act Op Ans σ ε α :=
  fun s => p.bind fun
    | .ok a => .ret (.ok a, s)
    | .error e => .ret (.error (text e), s)

/-- Run a program that cannot fail. -/
def lift (p : Prog Op Ans α) : Act Op Ans σ ε α := fun s => p.bind fun a => .ret (.ok a, s)

/-- Do something under a condition. -/
def when (c : Prop) [Decidable c] (m : Act Op Ans σ ε Unit) : Act Op Ans σ ε Unit :=
  if c then m else pure ()

/-- Do the same for every element of a list, stopping at the first error. -/
def forEach {ι : Type} (f : ι → Act Op Ans σ ε Unit) : List ι → Act Op Ans σ ε Unit
  | [] => pure ()
  | x :: xs => do
    f x
    forEach f xs

end Act

/-! ## Weakest preconditions -/

/-- What one operation needs and guarantees, as a predicate transformer on a
threaded state. -/
def OpSpec (Op : Type) (Ans : Op → Type) (γ : Type) : Type :=
  (op : Op) → γ → (Ans op → γ → Prop) → Prop

variable {Op : Type} {Ans : Op → Type} {World γ α β : Type}

/-- The transformers respect implication: every rule below needs it. -/
class OpSpec.IsMonotone (spec : OpSpec Op Ans γ) : Prop where
  monotone : ∀ op g (Q Q' : Ans op → γ → Prop), (∀ ans g', Q ans g' → Q' ans g') →
    spec op g Q → spec op g Q'

/-- Every operation satisfies `P`, if every answer satisfies `A`. -/
def rely (A : (op : Op) → Ans op → Prop) (P : Op → Prop) : OpSpec Op Ans Unit :=
  fun op _ Q => P op ∧ ∀ ans, A op ans → Q ans ()

/-- The same, with a record of the operations and answers so far: what is performed
may depend on it. -/
def tracking (A : (op : Op) → Ans op → Prop) (P : Op → γ → Prop)
    (after : γ → (op : Op) → Ans op → γ) : OpSpec Op Ans γ :=
  fun op g Q => P op g ∧ ∀ ans, A op ans → Q ans (after g op ans)

/-- The operations act on a world. -/
def acting (exec : World → (op : Op) → Ans op → World → Prop) : OpSpec Op Ans World :=
  fun op w Q => ∀ ans w', exec w op ans w' → Q ans w'

/-- The same, where each operation has to satisfy `P` in the world it is performed in. -/
def checking (exec : World → (op : Op) → Ans op → World → Prop) (P : World → Op → Prop) :
    OpSpec Op Ans World :=
  fun op w Q => P w op ∧ ∀ ans w', exec w op ans w' → Q ans w'

section WP

variable (spec : OpSpec Op Ans γ)

/-- The weakest precondition of a program. -/
def wp : Prog Op Ans α → (α → γ → Prop) → γ → Prop
  | .ret a, Q => Q a
  | .call op next, Q => fun g => spec op g fun ans g' => wp (next ans) Q g'

theorem wp_bind' (p : Prog Op Ans α) (f : α → Prog Op Ans β) (Q : β → γ → Prop) (g : γ) :
    wp spec (p.bind f) Q g = wp spec p (fun a g' => wp spec (f a) Q g') g := by
  induction p generalizing g with
  | ret a => rfl
  | call op next ih =>
    show spec op g _ = spec op g _
    congr 1
    funext ans g'
    exact ih ans g'

@[simp]
theorem wp_bind (p : Prog Op Ans α) (f : α → Prog Op Ans β) (Q : β → γ → Prop) (g : γ) :
    wp spec (p >>= f) Q g = wp spec p (fun a g' => wp spec (f a) Q g') g :=
  wp_bind' spec p f Q g

variable {spec}

variable {p : Prog Op Ans α}

theorem wp_mono [spec.IsMonotone] {Q Q' : α → γ → Prop} {g : γ} (hpost : ∀ a g', Q a g' → Q' a g')
    (h : wp spec p Q g) : wp spec p Q' g := by
  induction p generalizing g with
  | ret a => exact hpost a g h
  | call op next ih => exact OpSpec.IsMonotone.monotone op g _ _ (fun ans g' => ih ans) h

theorem wp_seq [spec.IsMonotone] {f : α → Prog Op Ans β} {Mid : α → γ → Prop} {Q : β → γ → Prop}
    {g : γ} (hp : wp spec p Mid g) (hf : ∀ a g', Mid a g' → wp spec (f a) Q g') :
    wp spec (p.bind f) Q g := by
  rw [wp_bind']
  exact wp_mono hf hp

theorem wp_forEach [spec.IsMonotone] {ι : Type} {f : ι → Prog Op Ans Unit}
    {R : γ → γ → Prop} (hrefl : ∀ g, R g g) (htrans : ∀ {a b c}, R a b → R b c → R a c)
    (hf : ∀ x g, wp spec (f x) (fun _ g' => R g g') g) (xs : List ι) (g : γ) :
    wp spec (Prog.forEach f xs) (fun _ g' => R g g') g := by
  induction xs generalizing g with
  | nil => exact hrefl g
  | cons x xs ih =>
    refine wp_seq (hf x g) fun _ g1 hfirst => ?_
    exact wp_mono (fun _ g' hrest => htrans hfirst hrest) (ih g1)

theorem wp_expand_seq {Op' : Type} {Ans' : Op' → Type} {spec : OpSpec Op' Ans' γ}
    {h : (op : Op) → Prog Op' Ans' (Ans op)} [spec.IsMonotone] {f : α → Prog Op Ans β}
    {Mid : α → γ → Prop} {Q : β → γ → Prop} {g : γ} (hp : wp spec (p.expand h) Mid g)
    (hf : ∀ a g', Mid a g' → wp spec ((f a).expand h) Q g') :
    wp spec ((p.bind f).expand h) Q g := by
  rw [Prog.expand_bind]
  exact wp_seq hp hf

/-- A program with replaced operations satisfies what the program satisfies, if every
replacement meets the specification of its operation. -/
theorem wp_expand {Op' : Type} {Ans' : Op' → Type} {spec' : OpSpec Op' Ans' γ}
    {h : (op : Op) → Prog Op' Ans' (Ans op)} [spec.IsMonotone]
    (hh : ∀ op g Q, spec op g Q → wp spec' (h op) Q g) {Q : α → γ → Prop} {g : γ}
    (hp : wp spec p Q g) : wp spec' (p.expand h) Q g := by
  induction p generalizing g with
  | ret a => exact hp
  | call op next ih =>
    show wp spec' ((h op).bind _) Q g
    rw [wp_bind']
    exact hh op g _ (OpSpec.IsMonotone.monotone op g _ _ (fun ans g' => ih ans) hp)

end WP

instance (A : (op : Op) → Ans op → Prop) (P : Op → Prop) : (rely A P).IsMonotone :=
  ⟨fun _ _ _ _ himp h => ⟨h.1, fun ans hans => himp ans () (h.2 ans hans)⟩⟩

theorem wp_rely_mono {A A' : (op : Op) → Ans op → Prop} {P P' : Op → Prop}
    (hA : ∀ op ans, A' op ans → A op ans) (hP : ∀ op, P op → P' op)
    {p : Prog Op Ans α} {Q : α → Unit → Prop} (h : wp (rely A P) p Q ()) :
    wp (rely A' P') p Q () := by
  induction p with
  | ret a => exact h
  | call op next ih => exact ⟨hP op h.1, fun ans hans => ih ans (h.2 ans (hA op ans hans))⟩

instance (A : (op : Op) → Ans op → Prop) (P : Op → γ → Prop)
    (after : γ → (op : Op) → Ans op → γ) : (tracking A P after).IsMonotone :=
  ⟨fun _ _ _ _ himp h => ⟨h.1, fun ans hans => himp ans _ (h.2 ans hans)⟩⟩

theorem wp_tracking_perform_bind {A : (op : Op) → Ans op → Prop} {P : Op → γ → Prop}
    {after : γ → (op : Op) → Ans op → γ}
    {op : Op} {f : Ans op → Prog Op Ans α} {Q : α → γ → Prop} {g : γ} (hop : P op g)
    (hrest : ∀ ans, A op ans → wp (tracking A P after) (f ans) Q (after g op ans)) :
    wp (tracking A P after) (Prog.perform op >>= f) Q g :=
  ⟨hop, hrest⟩

instance (exec : World → (op : Op) → Ans op → World → Prop) : (acting exec).IsMonotone :=
  ⟨fun _ _ _ _ himp h ans w' hexec => himp ans w' (h ans w' hexec)⟩

instance (exec : World → (op : Op) → Ans op → World → Prop) (P : World → Op → Prop) :
    (checking exec P).IsMonotone :=
  ⟨fun _ _ _ _ himp h => ⟨h.1, fun ans w' hexec => himp ans w' (h.2 ans w' hexec)⟩⟩

section Checking

variable {exec : World → (op : Op) → Ans op → World → Prop} {P P' : World → Op → Prop}

variable {p : Prog Op Ans α}

theorem wp_checking_mono (hP : ∀ w op, P w op → P' w op) {Q : α → World → Prop} {w : World}
    (h : wp (checking exec P) p Q w) :
    wp (checking exec P') p Q w := by
  induction p generalizing w with
  | ret a => exact h
  | call op next ih => exact ⟨hP w op h.1, fun ans w' hexec => ih ans (h.2 ans w' hexec)⟩

theorem wp_acting_of_checking {exec' : World → (op : Op) → Ans op → World → Prop}
    (hexec : ∀ w op ans w', exec' w op ans w' → exec w op ans w') {Q : α → World → Prop} {w : World}
    (h : wp (checking exec P) p Q w) :
    wp (acting exec') p Q w := by
  induction p generalizing w with
  | ret a => exact h
  | call op next ih => exact fun ans w' hcall => ih ans (h.2 ans w' (hexec w op ans w' hcall))

/-- A program all of whose operations are in a class that is always admissible and
only moves the world along `R`, moves the world along `R`. -/
theorem wp_checking_of_rely {N : Op → Prop} {R : World → World → Prop} (hrefl : ∀ w, R w w)
    (htrans : ∀ {a b c}, R a b → R b c → R a c) (hP : ∀ w op, N op → P w op)
    (hR : ∀ w op ans w', N op → exec w op ans w' → R w w') {Q : α → Unit → Prop}
    (h : wp (rely (fun _ _ => True) N) p Q ()) (w : World) :
    wp (checking exec P) p (fun a w' => Q a () ∧ R w w') w := by
  induction p generalizing w with
  | ret a => exact ⟨h, hrefl w⟩
  | call op next ih =>
    refine ⟨hP w op h.1, fun ans w1 hexec => ?_⟩
    have hfirst : R w w1 := hR w op ans w1 h.1 hexec
    refine wp_mono ?_ (ih ans (h.2 ans trivial) w1)
    exact fun a w' hpost => ⟨hpost.1, htrans hfirst hpost.2⟩

end Checking

/-! ### Programs that obey a condition on their operations -/

section Obeys

/-- Every operation of the program satisfies `P`, as long as the answers satisfy
`A`. -/
def Obeys (A : (op : Op) → Ans op → Prop) (P : Op → Prop) (p : Prog Op Ans α) : Prop :=
  wp (rely A P) p (fun _ _ => True) ()

/-- The same, whatever the answers. -/
abbrev Only (P : Op → Prop) (p : Prog Op Ans α) : Prop := Obeys (fun _ _ => True) P p

variable {A : (op : Op) → Ans op → Prop} {P : Op → Prop}

theorem Obeys.pure (a : α) : Obeys A P (pure a : Prog Op Ans α) := trivial

theorem Obeys.bind {p : Prog Op Ans α} {f : α → Prog Op Ans β} (hp : Obeys A P p)
    (hf : ∀ a, Obeys A P (f a)) : Obeys A P (p >>= f) := by
  unfold Obeys
  rw [wp_bind]
  exact wp_mono (fun a _ _ => hf a) hp

theorem Obeys.and {Q : Op → Prop} {p : Prog Op Ans α} (hP : Obeys A P p) (hQ : Obeys A Q p) :
    Obeys A (fun op => P op ∧ Q op) p := by
  induction p with
  | ret a => trivial
  | call op next ih => exact ⟨⟨hP.1, hQ.1⟩, fun ans hans => ih ans (hP.2 ans hans) (hQ.2 ans hans)⟩

theorem Obeys.perform {op : Op} (h : P op) : Obeys A P (Prog.perform op) :=
  ⟨h, fun _ _ => trivial⟩

theorem Obeys.call {op : Op} {f : Ans op → Prog Op Ans β} (h : P op)
    (hf : ∀ ans, Obeys A P (f ans)) : Obeys A P (Prog.perform op >>= f) :=
  Obeys.bind (Obeys.perform h) hf

theorem Obeys.forEach {ι : Type} {f : ι → Prog Op Ans Unit} {xs : List ι}
    (hf : ∀ x ∈ xs, Obeys A P (f x)) : Obeys A P (Prog.forEach f xs) := by
  induction xs with
  | nil => exact trivial
  | cons x xs ih =>
    refine Obeys.bind (hf x List.mem_cons_self) fun _ => ?_
    exact ih fun y hy => hf y (List.mem_cons_of_mem x hy)

end Obeys

/-! ### Weakest preconditions of programs with state and errors -/

section ActWP

variable {σ ε : Type} {spec : OpSpec Op Ans γ}

/-- A program with a private state keeps `I` between its private state and the
threaded one: also when it ends with an error. -/
def Keeps (spec : OpSpec Op Ans γ) (I : σ → γ → Prop) (m : Act Op Ans σ ε α) : Prop :=
  ∀ s g, I s g → wp spec (m s) (fun r g' => I r.2 g') g

variable {I : σ → γ → Prop}

theorem Keeps.pure (a : α) : Keeps spec I (pure a : Act Op Ans σ ε α) := fun _ _ h => h

theorem Keeps.fail (e : ε) : Keeps spec I (Act.fail e : Act Op Ans σ ε α) := fun _ _ h => h

theorem Keeps.get : Keeps spec I (Act.get : Act Op Ans σ ε σ) := fun _ _ h => h

theorem Keeps.modify {f : σ → σ} (hf : ∀ s g, I s g → I (f s) g) :
    Keeps spec I (Act.modify f : Act Op Ans σ ε Unit) := hf

theorem Keeps.attempt {δ : Type} {text : δ → ε} {p : Prog Op Ans (Except δ α)}
    (hp : ∀ s g, I s g → wp spec p (fun _ g' => I s g') g) [spec.IsMonotone] :
    Keeps spec I (Act.attempt text p : Act Op Ans σ ε α) := by
  intro s g hI
  show wp spec (p.bind _) _ g
  rw [wp_bind']
  refine wp_mono ?_ (hp s g hI)
  rintro (e | a) g' hI'
  · exact hI'
  · exact hI'

theorem Keeps.lift {p : Prog Op Ans α} (hp : ∀ s g, I s g → wp spec p (fun _ g' => I s g') g)
    [spec.IsMonotone] : Keeps spec I (Act.lift p : Act Op Ans σ ε α) := by
  intro s g hI
  show wp spec (p.bind _) _ g
  rw [wp_bind']
  exact wp_mono (fun _ _ hI' => hI') (hp s g hI)

theorem Keeps.bind [spec.IsMonotone] {m : Act Op Ans σ ε α} {f : α → Act Op Ans σ ε β}
    (hm : Keeps spec I m) (hf : ∀ a, Keeps spec I (f a)) : Keeps spec I (m >>= f) := by
  intro s g hI
  show wp spec ((m s).bind (Act.andThen f)) _ g
  rw [wp_bind']
  refine wp_mono ?_ (hm s g hI)
  rintro ⟨r, s'⟩ g' hI'
  cases r with
  | ok a => exact hf a s' g' hI'
  | error e => exact hI'

/-- What holds after a program with a private state, by its outcome. -/
def Act.Outcome (Ok : α → σ → γ → Prop) (Err : σ → γ → Prop) : Except ε α × σ → γ → Prop
  | (.ok a, s), g => Ok a s g
  | (.error _, s), g => Err s g

/-- From the given states, the program ends with `Ok`, or with an error and `Err`. -/
def Act.At (spec : OpSpec Op Ans γ) (Ok : α → σ → γ → Prop) (Err : σ → γ → Prop)
    (m : Act Op Ans σ ε α) (s : σ) (g : γ) : Prop :=
  wp spec (m s) (Act.Outcome Ok Err) g

namespace Act.At

variable {Ok : α → σ → γ → Prop} {Err : σ → γ → Prop} {s : σ} {g : γ}

theorem pure {a : α} (h : Ok a s g) : At spec Ok Err (pure a : Act Op Ans σ ε α) s g := h

theorem fail {e : ε} (h : Err s g) : At spec Ok Err (Act.fail e : Act Op Ans σ ε α) s g := h

theorem mono [spec.IsMonotone] {m : Act Op Ans σ ε α} {Ok' : α → σ → γ → Prop}
    {Err' : σ → γ → Prop} (hm : At spec Ok' Err' m s g)
    (hok : ∀ a s' g', Ok' a s' g' → Ok a s' g') (herr : ∀ s' g', Err' s' g' → Err s' g') :
    At spec Ok Err m s g := by
  refine wp_mono ?_ hm
  rintro ⟨r, s'⟩ g' hpost
  cases r with
  | ok a => exact hok a s' g' hpost
  | error e => exact herr s' g' hpost

theorem bind [spec.IsMonotone] {m : Act Op Ans σ ε β} {f : β → Act Op Ans σ ε α}
    (h : At spec (fun b s' g' => At spec Ok Err (f b) s' g') Err m s g) :
    At spec Ok Err (m >>= f) s g := by
  show wp spec ((m s).bind (Act.andThen f)) _ g
  rw [wp_bind']
  refine wp_mono ?_ h
  rintro ⟨r, s'⟩ g' hmid
  cases r with
  | ok b | error e => exact hmid

theorem seq [spec.IsMonotone] {m : Act Op Ans σ ε β} {f : β → Act Op Ans σ ε α}
    {Mid : β → σ → γ → Prop} (hm : At spec Mid Err m s g)
    (hf : ∀ b s' g', Mid b s' g' → At spec Ok Err (f b) s' g') : At spec Ok Err (m >>= f) s g :=
  bind (hm.mono hf fun _ _ herr => herr)

theorem get {f : σ → Act Op Ans σ ε α} (h : At spec Ok Err (f s) s g) :
    At spec Ok Err (Act.get >>= f) s g := h

theorem modify {f : σ → σ} {k : Unit → Act Op Ans σ ε α} (h : At spec Ok Err (k ()) (f s) g) :
    At spec Ok Err (Act.modify f >>= k) s g := h

theorem attempt [spec.IsMonotone] {δ : Type} {text : δ → ε} {p : Prog Op Ans (Except δ α)}
    (h : wp spec p (fun r g' => (∀ a, r = .ok a → Ok a s g') ∧
      (∀ e, r = .error e → Err s g')) g) :
    At spec Ok Err (Act.attempt text p : Act Op Ans σ ε α) s g := by
  show wp spec (p.bind _) _ g
  rw [wp_bind']
  refine wp_mono ?_ h
  rintro (e | a) g' hpost
  · exact hpost.2 e rfl
  · exact hpost.1 a rfl

theorem lift [spec.IsMonotone] {p : Prog Op Ans α}
    (h : wp spec p (fun a g' => Ok a s g') g) :
    At spec Ok Err (Act.lift p : Act Op Ans σ ε α) s g := by
  show wp spec (p.bind _) _ g
  rw [wp_bind']
  exact wp_mono (fun _ _ hok => hok) h

theorem forEach [spec.IsMonotone] {ι : Type} {f : ι → Act Op Ans σ ε Unit}
    {Left : List ι → σ → γ → Prop}
    (hstep : ∀ x xs s g, Left (x :: xs) s g → At spec (fun _ s' g' => Left xs s' g') Err (f x) s g)
    {xs : List ι} (h : Left xs s g) :
    At spec (fun _ s' g' => Left [] s' g') Err (Act.forEach f xs) s g := by
  induction xs generalizing s g with
  | nil => exact h
  | cons x xs ih => exact seq (hstep x xs s g h) fun _ s' g' hleft => ih hleft

theorem of_keeps [spec.IsMonotone] {m : Act Op Ans σ ε α} (hm : Keeps spec I m) (h : I s g) :
    At spec (fun _ s' g' => I s' g') I m s g := by
  refine wp_mono ?_ (hm s g h)
  rintro ⟨result, s'⟩ g' hpost
  cases result with
  | ok a | error e => exact hpost

theorem call {exec : γ → (op : Op) → Ans op → γ → Prop} {op : Op} {f : Ans op → Act Op Ans σ ε α}
    (h : ∀ ans g', exec g op ans g' → At (acting exec) Ok Err (f ans) s g') :
    At (acting exec) Ok Err (Act.lift (Prog.perform op) >>= f) s g :=
  bind (lift h)

end Act.At

end ActWP

/-! ## Runs of a single program -/

section Runs

/-- The program runs alone, from its first operation to its value. -/
inductive Prog.Runs (exec : World → (op : Op) → Ans op → World → Prop) :
    World → Prog Op Ans α → α → World → Prop
  | ret (w : World) (a : α) : Runs exec w (.ret a) a w
  | call {w w1 w2 : World} {op : Op} {next : Ans op → Prog Op Ans α} {ans : Ans op} {a : α} :
      exec w op ans w1 → Runs exec w1 (next ans) a w2 → Runs exec w (.call op next) a w2

variable {exec : World → (op : Op) → Ans op → World → Prop}

variable {w w' : World} {p : Prog Op Ans α} {f : α → Prog Op Ans β} {a : α} {b : β}
  {op : Op} {ans : Ans op} {I : World → Prop} {Q : α → World → Prop}

/-- Operations that keep `I` and are answered as expected keep it over a whole run. -/
theorem Prog.Runs.invariant {A : (op : Op) → Ans op → Prop} {P : Op → Prop}
    (hexec : ∀ w op ans w', I w → P op → exec w op ans w' → I w' ∧ A op ans)
    (h : Prog.Runs exec w p a w') (hp : Obeys A P p) (hw : I w) : I w' := by
  induction h with
  | ret w a => exact hw
  | call hcall _ ih =>
    obtain ⟨hw1, hans⟩ := hexec _ _ _ _ hw hp.1 hcall
    exact ih (hp.2 _ hans) hw1

/-- A run of a program whose operations are checked keeps what the admissible
operations keep, and ends with the postcondition. -/
theorem Prog.Runs.checked {P : World → Op → Prop}
    (hexec : ∀ w op ans w', I w → P w op → exec w op ans w' → I w')
    (h : Prog.Runs exec w p a w') (hp : wp (checking exec P) p Q w) (hw : I w) : I w' ∧ Q a w' := by
  induction h with
  | ret w a => exact ⟨hw, hp⟩
  | call hcall _ ih => exact ih (hp.2 _ _ hcall) (hexec _ _ _ _ hw hp.1 hcall)

/-- A run ends with the postcondition. -/
theorem Prog.Runs.post (h : Prog.Runs exec w p a w') (hp : wp (acting exec) p Q w) : Q a w' := by
  induction h with
  | ret w a => exact hp
  | call hcall _ ih => exact ih (hp _ _ hcall)

theorem Prog.exists_runs {P : Op → Prop} (htotal : ∀ w op, P op → ∃ ans w', exec w op ans w')
    (hp : Only P p) (w : World) : ∃ a w', Prog.Runs exec w p a w' := by
  induction p generalizing w with
  | ret a => exact ⟨a, w, .ret w a⟩
  | call op next ih =>
    obtain ⟨ans, w1, hcall⟩ := htotal w op hp.1
    obtain ⟨a, w', hrest⟩ := ih ans (hp.2 ans trivial) w1
    exact ⟨a, w', .call hcall hrest⟩

theorem Prog.Runs.mono {exec' : World → (op : Op) → Ans op → World → Prop}
    (hexec : ∀ w op ans w', exec w op ans w' → exec' w op ans w')
    (h : Prog.Runs exec w p a w') : Prog.Runs exec' w p a w' := by
  induction h with
  | ret w a => exact .ret w a
  | call hcall _ ih => exact .call (hexec _ _ _ _ hcall) ih

theorem Prog.Runs.bind {w1 : World} (h : Prog.Runs exec w p a w1)
    (hf : Prog.Runs exec w1 (f a) b w') :
    Prog.Runs exec w (p >>= f) b w' := by
  induction h with
  | ret w a => exact hf
  | call hcall _ ih => exact .call hcall (ih hf)

theorem Prog.Runs.of_bind (h : Prog.Runs exec w (p >>= f) b w') :
    ∃ a w1, Prog.Runs exec w p a w1 ∧ Prog.Runs exec w1 (f a) b w' := by
  induction p generalizing w with
  | ret a => exact ⟨a, w, .ret w a, h⟩
  | call op next ih =>
    cases h with
    | call hcall hrest =>
      obtain ⟨a, w1, hfirst, hlast⟩ := ih _ hrest
      exact ⟨a, w1, .call hcall hfirst, hlast⟩

theorem Prog.Runs.of_perform (h : Prog.Runs exec w (Prog.perform op) ans w') :
    exec w op ans w' := by
  cases h with
  | call hcall hret =>
    cases hret
    exact hcall

theorem Prog.Runs.perform (h : exec w op ans w') :
    Prog.Runs exec w (Prog.perform op) ans w' :=
  .call h (.ret w' ans)

/-- A run carries over to the program with its operations replaced, if each operation
does. -/
theorem Prog.Runs.expand {Op' : Type} {Ans' : Op' → Type}
    {exec' : World → (op : Op') → Ans' op → World → Prop} {h : (op : Op) → Prog Op' Ans' (Ans op)}
    (hh : ∀ w op ans w', exec w op ans w' → Prog.Runs exec' w (h op) ans w')
    (hrun : Prog.Runs exec w p a w') :
    Prog.Runs exec' w (p.expand h) a w' := by
  induction hrun with
  | ret w a => exact .ret w a
  | call hcall _ ih => exact (hh _ _ _ _ hcall).bind ih

/-- The world is the record of the operations and their answers, and every answer is
possible. -/
def logs (past : List ((op : Op) × Ans op)) (op : Op) (ans : Ans op)
    (past' : List ((op : Op) × Ans op)) : Prop :=
  past' = past ++ [⟨op, ans⟩]

def Prog.evaluate (env : World → (op : Op) → Option (Ans op × World)) :
    Prog Op Ans α → World → Option (α × World)
  | .ret a, w => some (a, w)
  | .call op next, w =>
    match env w op with
    | none => none
    | some (ans, w') => (next ans).evaluate env w'

theorem Prog.runs_of_evaluate {env : World → (op : Op) → Option (Ans op × World)}
    (henv : ∀ w op ans w', env w op = some (ans, w') → exec w op ans w')
    (h : p.evaluate env w = some (a, w')) : Prog.Runs exec w p a w' := by
  induction p generalizing w with
  | ret b =>
    obtain ⟨rfl, rfl⟩ : b = a ∧ w = w' := by simpa [Prog.evaluate] using h
    exact .ret w b
  | call op next ih =>
    simp only [Prog.evaluate] at h
    split at h
    · cases h
    · rename_i ans w1 hans
      exact .call (henv w op ans w1 hans) (ih ans h)

end Runs

/-! ## Residual programs -/

section Residual

/-- What is left of a program after some operations and their answers. -/
inductive Residual (p : Prog Op Ans α) : List ((op : Op) × Ans op) → Prog Op Ans α → Prop
  | nil : Residual p [] p
  | snoc {past : List ((op : Op) × Ans op)} {op : Op} {next : Ans op → Prog Op Ans α}
      (ans : Ans op) : Residual p past (.call op next) → Residual p (past ++ [⟨op, ans⟩]) (next ans)

/-- Every call of a program satisfies `C`, as long as the answers satisfy `A`.  Unlike
an operation of `rely`, `C` also sees what the program does after the call. -/
def Prog.Calls (A : (op : Op) → Ans op → Prop)
    (C : (op : Op) → (Ans op → Prog Op Ans α) → Prop) : Prog Op Ans α → Prop
  | .ret _ => True
  | .call op next => C op next ∧ ∀ ans, A op ans → (next ans).Calls A C

variable {p q : Prog Op Ans α} {A : (op : Op) → Ans op → Prop} {P : Op → Prop}
  {C : (op : Op) → (Ans op → Prog Op Ans α) → Prop} {past : List ((op : Op) × Ans op)}

theorem Obeys.calls (hC : ∀ op next, P op → C op next) (h : Obeys A P p) : p.Calls A C := by
  induction p with
  | ret a => trivial
  | call op next ih => exact ⟨hC op next h.1, fun ans hans => ih ans (h.2 ans hans)⟩

theorem Prog.Calls.perform_bind {op : Op} {f : Ans op → Prog Op Ans α} (hop : C op f)
    (hf : ∀ ans, A op ans → (f ans).Calls A C) : (Prog.perform op >>= f).Calls A C :=
  ⟨hop, hf⟩

theorem Prog.Calls.map {C' : (op : Op) → (Ans op → Prog Op Ans β) → Prop} (f : α → β)
    (hC : ∀ op next, C op next → C' op fun ans => next ans >>= fun a => pure (f a))
    (h : p.Calls A C) : (p >>= fun a => pure (f a)).Calls A C' := by
  induction p with
  | ret a => trivial
  | call op next ih => exact ⟨hC op next h.1, fun ans hans => ih ans (h.2 ans hans)⟩

/-- What holds of a program and is kept by every call, answered as `A` allows, holds of
what is left of the program. -/
theorem Residual.invariant {I : List ((op : Op) × Ans op) → Prog Op Ans α → Prop}
    (h : Residual p past q) (hp : I [] p)
    (hcall : ∀ past op next ans, A op ans → I past (.call op next) →
      I (past ++ [⟨op, ans⟩]) (next ans))
    (hpast : ∀ e ∈ past, A e.1 e.2) : I past q := by
  induction h with
  | nil => exact hp
  | @snoc past op next ans _ ih =>
    have hbefore := ih fun e he => hpast e (List.mem_append_left _ he)
    exact hcall past op next ans
      (hpast ⟨op, ans⟩ (List.mem_append_right _ List.mem_cons_self)) hbefore

theorem Residual.calls (h : Residual p past q) (hp : p.Calls A C)
    (hpast : ∀ e ∈ past, A e.1 e.2) : q.Calls A C :=
  h.invariant (I := fun _ q => q.Calls A C) hp (fun _ _ _ ans hans h => h.2 ans hans) hpast

/-- The record of a tracked program after some operations. -/
def recorded (after : γ → (op : Op) → Ans op → γ) (g : γ)
    (past : List ((op : Op) × Ans op)) : γ :=
  past.foldl (fun g e => after g e.1 e.2) g

theorem recorded_snoc (after : γ → (op : Op) → Ans op → γ) (g : γ)
    (past : List ((op : Op) × Ans op)) (op : Op) (ans : Ans op) :
    recorded after g (past ++ [⟨op, ans⟩]) = after (recorded after g past) op ans := by
  unfold recorded
  rw [List.foldl_append]
  rfl

variable {P' : Op → γ → Prop} {after : γ → (op : Op) → Ans op → γ} {Q : α → γ → Prop} {g : γ}

theorem Residual.wp_recorded (h : Residual p past q) (hp : wp (tracking A P' after) p Q g)
    (hpast : ∀ e ∈ past, A e.1 e.2) :
    wp (tracking A P' after) q Q (recorded after g past) := by
  refine h.invariant (I := fun past q => wp (tracking A P' after) q Q (recorded after g past)) hp
    (fun past op next ans hans hcall => ?_) hpast
  rw [recorded_snoc]
  exact hcall.2 ans hans

theorem Residual.wp_tracking (h : Residual p past q) (hp : wp (tracking A P' after) p Q g)
    (hpast : ∀ e ∈ past, A e.1 e.2 ∧ after g e.1 e.2 = g) :
    wp (tracking A P' after) q Q g := by
  have hsame : recorded after g past = g := by
    clear h
    induction past with
    | nil => rfl
    | cons e past ih =>
      show recorded after (after g e.1 e.2) past = g
      rw [(hpast e List.mem_cons_self).2]
      exact ih fun e' he' => hpast e' (List.mem_cons_of_mem e he')
  have hrest := h.wp_recorded hp fun e he => (hpast e he).1
  rwa [hsame] at hrest

/-- If the answers so far satisfied the assumption, the rest of the program still
obeys. -/
theorem Residual.obeys (h : Residual p past q) (hp : Obeys A P p)
    (hpast : ∀ e ∈ past, A e.1 e.2) : Obeys A P q :=
  h.invariant (I := fun _ q => Obeys A P q) hp (fun _ _ _ ans hans h => h.2 ans hans) hpast

end Residual

/-! ## Pools -/

/-- A running program: what it was started for, its past, and what is left. -/
structure Thread (Tag Op : Type) (Ans : Op → Type) (α : Type) where
  tag : Tag
  past : List ((op : Op) × Ans op)
  rest : Prog Op Ans α

/-- A world and the programs running on it. -/
structure Pool (World Tag Op : Type) (Ans : Op → Type) (α : Type) where
  world : World
  threads : List (Thread Tag Op Ans α)

/-- A program is started, or the program at a position performs its next
operation. -/
inductive PoolEvent (Tag Op : Type) (Ans : Op → Type) : Type
  | spawn (tag : Tag)
  | call (i : Nat) (op : Op) (ans : Ans op)

namespace Pool

variable {Tag : Type}
variable (program : Tag → Prog Op Ans α)
variable (exec : World → (op : Op) → Ans op → World → Prop)

/-- The interleaving semantics. -/
inductive Step (s : Pool World Tag Op Ans α) :
    PoolEvent Tag Op Ans → Pool World Tag Op Ans α → Prop
  | spawn (tag : Tag) :
      Step s (.spawn tag) { s with threads := s.threads ++ [⟨tag, [], program tag⟩] }
  | call {i : Nat} {t : Thread Tag Op Ans α} {op : Op} {next : Ans op → Prog Op Ans α}
      {ans : Ans op} {w' : World} :
      s.threads[i]? = some t → t.rest = .call op next → exec s.world op ans w' →
      Step s (.call i op ans)
        ⟨w', s.threads.set i ⟨t.tag, t.past ++ [⟨op, ans⟩], next ans⟩⟩

/-- A pool that runs nothing. -/
def idle (w : World) : Pool World Tag Op Ans α := ⟨w, []⟩

variable {program exec} {s s' : Pool World Tag Op Ans α} {event : PoolEvent Tag Op Ans}

/-- A property of threads that holds when a thread starts and is kept by the
operations of the thread itself holds of all threads. -/
theorem Step.threads {T : Thread Tag Op Ans α → Prop} (h : Step program exec s event s')
    (hs : ∀ t ∈ s.threads, T t)
    (hspawn : ∀ tag, event = .spawn tag → T ⟨tag, [], program tag⟩)
    (hcall : ∀ t ∈ s.threads, ∀ op next ans w', T t → t.rest = .call op next →
      exec s.world op ans w' → T ⟨t.tag, t.past ++ [⟨op, ans⟩], next ans⟩) :
    ∀ t ∈ s'.threads, T t := by
  cases h with
  | spawn tag =>
    intro t ht
    rcases List.mem_append.mp ht with ht | ht
    · exact hs t ht
    · obtain rfl := List.mem_singleton.mp ht
      exact hspawn tag rfl
  | call hi hrest hexec =>
    intro t ht
    have hmem := List.mem_of_getElem? hi
    rcases List.mem_or_eq_of_mem_set ht with ht | rfl
    · exact hs t ht
    · exact hcall _ hmem _ _ _ _ (hs _ hmem) hrest hexec

variable {events : List (PoolEvent Tag Op Ans)}

theorem residual_of_run {w : World} (hrun : Run (Step program exec) (idle w) events s) :
    ∀ t ∈ s.threads, Residual (program t.tag) t.past t.rest := by
  refine hrun.invariant (I := fun s => ∀ t ∈ s.threads, Residual (program t.tag) t.past t.rest)
    (fun t ht => by cases ht) ?_
  intro a event b ha hstep
  refine hstep.threads ha (fun tag _ => .nil) ?_
  intro t _ op next ans w' ht hrest _
  rw [hrest] at ht
  exact .snoc ans ht

theorem past_of_run {A : (op : Op) → Ans op → Prop}
    (hexec : ∀ w op ans w', exec w op ans w' → A op ans) {w : World}
    (hrun : Run (Step program exec) (idle w) events s) :
    ∀ t ∈ s.threads, ∀ e ∈ t.past, A e.1 e.2 := by
  refine hrun.invariant (I := fun s => ∀ t ∈ s.threads, ∀ e ∈ t.past, A e.1 e.2)
    (fun t ht => by cases ht) ?_
  intro a event b ha hstep
  refine hstep.threads ha (fun _ _ e he => by cases he) ?_
  intro t _ op next ans w' ht _ hcall e he
  rcases List.mem_append.mp he with he | he
  · exact ht e he
  · obtain rfl := List.mem_singleton.mp he
    exact hexec _ _ _ _ hcall

/-- The invariant rule: if operations that satisfy `P` keep the invariant of the
world and have answers that satisfy `A`, and every thread only performs operations
that satisfy `P` as long as its answers satisfy `A`, then both stay so. -/
theorem rely_guarantee {I : World → Prop} {A : (op : Op) → Ans op → Prop} {P : Op → Prop}
    (hexec : ∀ w op ans w', I w → P op → exec w op ans w' → I w' ∧ A op ans)
    (h : Step program exec s event s') (hworld : I s.world)
    (hthreads : ∀ t ∈ s.threads, Obeys A P t.rest)
    (hspawn : ∀ tag, event = .spawn tag → Obeys A P (program tag)) :
    I s'.world ∧ ∀ t ∈ s'.threads, Obeys A P t.rest := by
  refine ⟨?_, h.threads hthreads hspawn ?_⟩
  · cases h with
    | spawn tag => exact hworld
    | call hi hrest hcall =>
      have hobeys := hthreads _ (List.mem_of_getElem? hi)
      rw [hrest] at hobeys
      exact (hexec _ _ _ _ hworld hobeys.1 hcall).1
  · intro t _ op next ans w' hobeys hrest hcall
    rw [hrest] at hobeys
    exact hobeys.2 ans (hexec _ _ _ _ hworld hobeys.1 hcall).2

/-! ### Critical sections -/

/-- At most one position of a list has the property. -/
def AtMostOne {T : Type} (H : T → Prop) (ts : List T) : Prop :=
  ∀ (i j : Nat) (t u : T), ts[i]? = some t → ts[j]? = some u → H t → H u → i = j

namespace AtMostOne

variable {T : Type} {H : T → Prop} {ts : List T}

theorem of_none (h : ∀ t ∈ ts, ¬H t) : AtMostOne H ts :=
  fun _ _ t _ hi _ ht _ => absurd ht (h t (List.mem_of_getElem? hi))

theorem concat (h : AtMostOne H ts) {t : T} (ht : ¬H t) : AtMostOne H (ts ++ [t]) := by
  have hold : ∀ (i : Nat) (u : T), (ts ++ [t])[i]? = some u → H u → ts[i]? = some u := by
    intro i u hi hu
    rw [List.getElem?_append] at hi
    split at hi
    · exact hi
    · obtain rfl := List.mem_singleton.mp (List.mem_of_getElem? hi)
      exact absurd hu ht
  intro i j u v hi hj hu hv
  exact h i j u v (hold i u hi hu) (hold j v hj hv) hu hv

theorem set (h : AtMostOne H ts) {i : Nat} {t t' : T} (hi : ts[i]? = some t)
    (hnew : H t' → H t ∨ ∀ u ∈ ts, ¬H u) : AtMostOne H (ts.set i t') := by
  -- At a position other than `i` the property is old, and then it excludes position `i`.
  have hother : ∀ (j : Nat) (u : T), (ts.set i t')[j]? = some u → H u → i ≠ j → H t' → False := by
    intro j u hj hu hne ht'
    rw [List.getElem?_set_ne hne] at hj
    rcases hnew ht' with ht | hnone
    · exact hne (h i j t u hi hj ht hu)
    · exact hnone u (List.mem_of_getElem? hj) hu
  have hself : ∀ u, (ts.set i t')[i]? = some u → u = t' := by
    intro u hu
    rw [List.getElem?_set_self (List.getElem?_eq_some_iff.mp hi).1] at hu
    exact (Option.some.inj hu).symm
  intro j k u v hj hk hu hv
  by_cases hij : i = j
  · subst hij
    obtain rfl := hself u hj
    exact Decidable.byContradiction fun hne => hother k v hk hv hne hu
  by_cases hik : i = k
  · subst hik
    obtain rfl := hself v hk
    exact (hother j u hj hu hij hv).elim
  rw [List.getElem?_set_ne hij] at hj
  rw [List.getElem?_set_ne hik] at hk
  exact h j k u v hj hk hu hv

end AtMostOne

/-! ### Computed interleavings -/

inductive Choice (Tag : Type) : Type
  | spawn (tag : Tag)
  | run (i : Nat)

variable (program)

def advance (env : World → (op : Op) → Option (Ans op × World))
    (s : Pool World Tag Op Ans α) :
    Choice Tag → Option (PoolEvent Tag Op Ans × Pool World Tag Op Ans α)
  | .spawn tag => some (.spawn tag, { s with threads := s.threads ++ [⟨tag, [], program tag⟩] })
  | .run i =>
    match s.threads[i]? with
    | none => none
    | some t =>
      match t.rest with
      | .ret _ => none
      | .call op next =>
        match env s.world op with
        | none => none
        | some (ans, w') =>
          some (.call i op ans,
            ⟨w', s.threads.set i ⟨t.tag, t.past ++ [⟨op, ans⟩], next ans⟩⟩)

variable {program} {env : World → (op : Op) → Option (Ans op × World)}

theorem step_of_advance (henv : ∀ w op ans w', env w op = some (ans, w') → exec w op ans w')
    {c : Choice Tag} (h : advance program env s c = some (event, s')) :
    Step program exec s event s' := by
  cases c with
  | spawn tag =>
    cases h
    exact .spawn tag
  | run i =>
    simp only [advance] at h
    split at h
    · cases h
    rename_i t hi
    split at h
    · cases h
    rename_i op next hrest
    split at h
    · cases h
    · rename_i ans w' hans
      cases h
      exact .call hi hrest (henv _ _ _ _ hans)

end Pool

end Lib
end Skyscale
