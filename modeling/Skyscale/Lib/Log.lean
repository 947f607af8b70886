import Mathlib.Data.List.Basic

/-!
# Logs

A log is the list of the events that have happened, in order.  Two kinds of statements
about logs occur in temporal results:

* `InOrder Ps log`: events that satisfy the predicates `Ps` occur one after the other;
* `AtEach P log`: every event stands in the relation `P` to the log before it.

Both are kept, or established, one event at a time, as a log grows at its end.
-/

namespace Skyscale
namespace Lib

variable {Event : Type}

/-- Events that satisfy the predicates occur in the log, in this order. -/
def InOrder : List (Event → Prop) → List Event → Prop
  | [], _ => True
  | P :: Ps, log => ∃ pre e post, log = pre ++ e :: post ∧ P e ∧ InOrder Ps post

/-- Every event of the log is related to the log before it. -/
def AtEach (P : List Event → Event → Prop) (log : List Event) : Prop :=
  ∀ pre e post, log = pre ++ e :: post → P pre e

namespace InOrder

variable {Ps : List (Event → Prop)} {P : Event → Prop} {log : List Event}

theorem append (h : InOrder Ps log) (more : List Event) : InOrder Ps (log ++ more) := by
  induction Ps generalizing log with
  | nil => trivial
  | cons P Ps ih =>
    obtain ⟨pre, e, post, rfl, he, hrest⟩ := h
    exact ⟨pre, e, post ++ more, by rw [List.append_assoc, List.cons_append], he, ih hrest⟩

theorem snoc {e : Event} (h : InOrder Ps log) (he : P e) (post : List Event) :
    InOrder (Ps ++ [P]) (log ++ e :: post) := by
  induction Ps generalizing log with
  | nil => exact ⟨log, e, post, rfl, he, trivial⟩
  | cons Q Ps ih =>
    obtain ⟨pre, q, middle, rfl, hq, hrest⟩ := h
    exact ⟨pre, q, middle ++ e :: post, by rw [List.append_assoc, List.cons_append], hq, ih hrest⟩

end InOrder

namespace AtEach

variable {P : List Event → Event → Prop} {log : List Event}

theorem nil : AtEach P [] := fun pre e post h => by
  cases pre <;> cases h

theorem snoc {e : Event} (h : AtEach P log) (he : P log e) : AtEach P (log ++ [e]) := by
  intro pre x post hsplit
  -- the event is the new one exactly if nothing comes after it
  rcases List.eq_nil_or_concat post with rfl | ⟨post', last, rfl⟩
  · obtain ⟨hlog, hlast⟩ := List.append_inj' hsplit rfl
    cases hlast
    rw [← hlog]
    exact he
  · rw [List.concat_eq_append, ← List.cons_append, ← List.append_assoc] at hsplit
    exact h pre x post' (List.append_inj_left' hsplit rfl)

end AtEach

end Lib
end Skyscale
