import EconomicLedger.Lib.Fallible
import Mathlib.Algebra.BigOperators.Group.List.Basic

/-!
# Leaving out what weighs nothing

A selection from the inputs of a loop has the total of all inputs when the results of the others weigh
nothing.
-/

namespace EconomicLedger.Selection
open Fallible
universe u
variable {ε M : Type*} {α β : Type u} [AddCommMonoid M]

theorem sum_filterMap (weight : β → M) (pick : α → Option β) (l : List α) :
    ((l.filterMap pick).map weight).sum = (l.map fun a => ((pick a).map weight).getD 0).sum := by
  induction l with
  | nil => rfl
  | cons a rest ih =>
      cases picked : pick a with
      | none => rw [List.filterMap_cons_none picked, List.map_cons, List.sum_cons, picked, ih]; simp
      | some b =>
          rw [List.filterMap_cons_some picked, List.map_cons, List.map_cons, List.sum_cons,
            List.sum_cons, picked, ih]
          simp

/-- A loop over a selection, in any order, returns some of the results of the loop over all. -/
theorem mapM_selection (f : α → Except ε β) {l selection : List α} {ys : List β} (all : l.mapM f = .ok ys)
    (keep : α → Bool) (selected : selection.Perm (l.filter keep)) (weight : β → M)
    (zero : ∀ a ∈ l, keep a = false → ∀ b, f a = .ok b → weight b = 0) :
    ∃ zs, selection.mapM f = .ok zs ∧ zs ⊆ ys ∧ (zs.map weight).sum = (ys.map weight).sum := by
  have each := (mapM_eq_ok_iff f l ys).mp all
  have part : ∃ zs, List.Forall₂ (fun a b => f a = .ok b) (l.filter keep) zs ∧ zs ⊆ ys ∧
      (zs.map weight).sum = (ys.map weight).sum := by
    clear all selected
    induction each with
    | nil => exact ⟨[], List.Forall₂.nil, List.Subset.refl _, rfl⟩
    | @cons a b l ys first rest ih =>
        obtain ⟨zs, kept, within, total⟩ := ih fun c member => zero c (List.mem_cons_of_mem a member)
        cases isKept : keep a with
        | true =>
            rw [List.filter_cons_of_pos isKept]
            refine ⟨b :: zs, List.Forall₂.cons first kept, List.cons_subset_cons b within, ?_⟩
            rw [List.map_cons, List.map_cons, List.sum_cons, List.sum_cons, total]
        | false =>
            rw [List.filter_cons_of_neg (by simp [isKept])]
            refine ⟨zs, kept, List.subset_cons_of_subset b within, ?_⟩
            rw [List.map_cons, List.sum_cons, zero a List.mem_cons_self isKept b first, zero_add, total]
  obtain ⟨zs, kept, within, total⟩ := part
  obtain ⟨zs', selectedResults, same⟩ := mapM_perm f ((mapM_eq_ok_iff f _ zs).mpr kept) selected
  exact ⟨zs', selectedResults, List.Subset.trans same.subset within, ((same.map weight).sum_eq).trans total⟩

end EconomicLedger.Selection
