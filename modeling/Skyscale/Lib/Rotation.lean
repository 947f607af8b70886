import Mathlib.Order.Lattice
import Mathlib.Order.Basic
import Mathlib.Data.Set.Defs

/-!
# Rotation

A cursor moves around a linear order that is closed to a circle.  It always stops at the
next present point: the least one above the cursor or, if there is none, the least one.
The set of present points may change between two moves.

* `IsNext c S x`: the next point after `c` among `S` is `x`;
* `Arc t u c`: the cursor has come from `t` and has not yet reached `u`;
* `Arc.next`: a move never leaves the arc without stopping at `u`, and never stops at `t`,
  as long as `u` is present.  So `t` is not visited twice before `u` is;
* `nextAfter` computes the next point of a sorted list.
-/

namespace Skyscale
namespace Lib

variable {κ : Type} [LinearOrder κ]

/-- The next point after the cursor. -/
structure IsNext (c : κ) (S : Set κ) (x : κ) : Prop where
  mem : x ∈ S
  least : ∀ y ∈ S, (c < y → c < x ∧ x ≤ y) ∧ (x ≤ c → x ≤ y)

namespace IsNext

variable {c x x' : κ} {S : Set κ}

theorem unique (h : IsNext c S x) (h' : IsNext c S x') : x = x' := by
  have hle := h.least x' h'.mem
  have hle' := h'.least x h.mem
  rcases lt_or_ge c x with hx | hx
  · obtain ⟨hx', hle1⟩ := hle'.1 hx
    exact le_antisymm (hle.1 hx').2 hle1
  · rcases lt_or_ge c x' with hx' | hx'
    · exact absurd (hle.1 hx').1 (not_lt.mpr hx)
    · exact le_antisymm (hle.2 hx) (hle'.2 hx')

theorem restrict {T : Set κ} (h : IsNext c S x) (hsub : ∀ y ∈ T, y ∈ S) (hx : x ∈ T) :
    IsNext c T x :=
  ⟨hx, fun y hy => h.least y (hsub y hy)⟩

end IsNext

/-- The circle from `t` up to but not including `u`. -/
def Arc (t u c : κ) : Prop := (t < u ∧ t ≤ c ∧ c < u) ∨ (u < t ∧ (t ≤ c ∨ c < u))

theorem arc_start {t u : κ} (h : t ≠ u) : Arc t u t := by
  rcases lt_or_gt_of_ne h with hlt | hgt
  · exact .inl ⟨hlt, le_refl t, hlt⟩
  · exact .inr ⟨hgt, .inl (le_refl t)⟩

theorem Arc.next {t u c x : κ} {S : Set κ} (h : Arc t u c) (hu : u ∈ S) (hx : IsNext c S x) :
    x = u ∨ Arc t u x ∧ x ≠ t := by
  obtain ⟨habove, hbelow⟩ := hx.least u hu
  rcases h with ⟨htu, htc, hcu⟩ | ⟨hut, hc⟩
  · obtain ⟨hcx, hxu⟩ := habove hcu
    rcases eq_or_lt_of_le hxu with heq | hlt
    · exact .inl heq
    · have htx := lt_of_le_of_lt htc hcx
      exact .inr ⟨.inl ⟨htu, le_of_lt htx, hlt⟩, ne_of_gt htx⟩
  · rcases lt_or_ge c x with hcx | hxc
    · rcases hc with htc | hcu
      · -- the move goes on above `t`
        have htx := lt_of_le_of_lt htc hcx
        exact .inr ⟨.inr ⟨hut, .inl (le_of_lt htx)⟩, ne_of_gt htx⟩
      · rcases eq_or_lt_of_le (habove hcu).2 with heq | hlt
        · exact .inl heq
        · exact .inr ⟨.inr ⟨hut, .inr hlt⟩, ne_of_lt (lt_trans hlt hut)⟩
    · -- the move goes around, and stops at `u` at the latest
      rcases eq_or_lt_of_le (hbelow hxc) with heq | hlt
      · exact .inl heq
      · exact .inr ⟨.inr ⟨hut, .inr hlt⟩, ne_of_lt (lt_trans hlt hut)⟩

/-- The next point of a sorted list. -/
def nextAfter (c : κ) (xs : List κ) : Option κ :=
  match xs.find? fun x => c < x with
  | some x => some x
  | none => xs.head?

theorem isNext_nextAfter {c x : κ} {xs : List κ} (hsorted : xs.Pairwise (· ≤ ·))
    (h : nextAfter c xs = some x) : IsNext c {y | y ∈ xs} x := by
  unfold nextAfter at h
  split at h
  · rename_i x' hfind
    cases h
    have hcx : c < x := of_decide_eq_true (List.find?_some (p := fun x => decide (c < x)) hfind)
    refine ⟨List.mem_of_find?_eq_some hfind, fun y hy => ⟨fun hcy => ⟨hcx, ?_⟩, fun hxc => ?_⟩⟩
    · -- what stands before the first point above the cursor is not above it
      obtain ⟨-, pre, post, hsplit, hpre⟩ := List.find?_eq_some_iff_append.mp hfind
      rw [hsplit] at hy hsorted
      rcases List.mem_append.mp hy with hmem | hmem
      · have hnot := hpre y hmem
        simp only [decide_eq_true hcy] at hnot
        cases hnot
      · rcases List.mem_cons.mp hmem with heq | hlater
        · exact le_of_eq heq.symm
        · exact (List.pairwise_cons.mp (List.pairwise_append.mp hsorted).2.1).1 y hlater
    · exact absurd hcx (not_lt.mpr hxc)
  · rename_i hfind
    cases xs with
    | nil => cases h
    | cons first xs =>
      cases h
      rw [List.find?_eq_none] at hfind
      refine ⟨List.mem_cons_self, fun y hy => ⟨fun hcy => ?_, fun _ => ?_⟩⟩
      · exact absurd (decide_eq_true hcy) (hfind y hy)
      · rcases List.mem_cons.mp hy with heq | hlater
        · exact le_of_eq heq.symm
        · exact (List.pairwise_cons.mp hsorted).1 y hlater

theorem nextAfter_eq_none {c : κ} {xs : List κ} (h : nextAfter c xs = none) : xs = [] := by
  unfold nextAfter at h
  split at h
  · cases h
  · exact List.head?_eq_none_iff.mp h

end Lib
end Skyscale
