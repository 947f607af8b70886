import Mathlib.Data.List.Sort
import Mathlib.Order.Lattice

/-!
# The greatest elements of a list

`Top key n all top` says that `top` is a choice of the `n` elements of `all` of
greatest `key`, or all of them if there are fewer.  Ties may be broken in any way.
Sorting by falling keys and taking the first `n` elements is such a choice.
-/

namespace Skyscale
namespace Lib

variable {α κ : Type} [LinearOrder κ] {key : α → κ} {n : Nat} {all top : List α}

/-- A choice of the `n` elements of `all` of greatest `key`. -/
structure Top (key : α → κ) (n : Nat) (all top : List α) : Prop where
  subperm : top.Subperm all
  length : top.length = min n all.length
  greatest : ∀ x ∈ top, ∀ y ∈ all, y ∉ top → key y ≤ key x

namespace Top

theorem subset (h : Top key n all top) : top ⊆ all :=
  h.subperm.subset

theorem nodup_map {β : Type} {f : α → β} (h : Top key n all top) (hall : (all.map f).Nodup) :
    (top.map f).Nodup := by
  obtain ⟨l, hperm, hsub⟩ := h.subperm
  have hl : (l.map f).Nodup := (hsub.map f).nodup hall
  exact (hperm.map f).nodup_iff.mp hl

end Top

theorem top_take_insertionSort (key : α → κ) (n : Nat) (all : List α) :
    Top key n all ((all.insertionSort fun x y => key y ≤ key x).take n) := by
  have : Std.Total (fun x y : α => key y ≤ key x) := ⟨fun x y => le_total (key y) (key x)⟩
  have : IsTrans α (fun x y : α => key y ≤ key x) := ⟨fun _ _ _ hxy hyz => hyz.trans hxy⟩
  have hperm := List.perm_insertionSort (fun x y : α => key y ≤ key x) all
  have hsorted := List.pairwise_insertionSort (fun x y : α => key y ≤ key x) all
  generalize hl : (all.insertionSort fun x y => key y ≤ key x) = l at hperm hsorted
  refine ⟨((List.take_sublist n l).subperm).trans hperm.subperm, ?_, ?_⟩
  · rw [List.length_take, hperm.length_eq]
  · intro x hx y hy hrest
    -- What is not among the first `n` elements comes after them.
    rw [← List.take_append_drop n l] at hsorted
    have hdrop : y ∈ l.drop n := by
      have hmem := hperm.mem_iff.mpr hy
      rw [← List.take_append_drop n l] at hmem
      exact (List.mem_append.mp hmem).resolve_left hrest
    exact (List.pairwise_append.mp hsorted).2.2 x hx y hdrop

end Lib
end Skyscale
