import Mathlib.Data.List.Chain
import Mathlib.Order.Lattice

/-!
# Disjoint intervals

Intervals with a first point and perhaps a last one. In a list sorted by first points, where each
interval ends before the next one begins, any two are disjoint, so a search for the interval around a
point does not depend on the order of the list.
-/

namespace EconomicLedger.Intervals

/-! ## Searches with one answer -/

section
variable {α : Type*} {p : α → Bool} {l l' : List α}

def AtMostOne (p : α → Bool) (l : List α) : Prop := (l.filter p).length ≤ 1

theorem AtMostOne.perm (one : AtMostOne p l) (same : l.Perm l') : AtMostOne p l' := by
  rw [AtMostOne, ← (same.filter p).length_eq]
  exact one

theorem find?_of_atMostOne (one : AtMostOne p l) (a : α) (member : a ∈ l) (holds : p a = true) :
    l.find? p = some a := by
  have inside : a ∈ l.filter p := List.mem_filter.mpr ⟨member, holds⟩
  have single : l.filter p = [a] := by
    obtain ⟨b, alone⟩ := List.length_eq_one_iff.mp
      (Nat.le_antisymm one (List.length_pos_of_mem inside))
    rw [alone] at inside ⊢
    rw [List.mem_singleton.mp inside]
  rw [← List.head?_filter, single, List.head?_cons]

theorem find?_perm (one : AtMostOne p l) (same : l.Perm l') : l'.find? p = l.find? p := by
  cases found : l.find? p with
  | none =>
      rw [List.find?_eq_none] at found ⊢
      exact fun a member => found a (same.mem_iff.mpr member)
  | some a =>
      exact find?_of_atMostOne (one.perm same) a (same.subset (List.mem_of_find?_eq_some found))
        (List.find?_some found)

theorem atMostOne_of_pairwise (apart : l.Pairwise fun a b => p a = true → ¬ p b = true) :
    AtMostOne p l := by
  induction l with
  | nil => exact Nat.zero_le 1
  | cons a rest ih =>
      obtain ⟨first, later⟩ := List.pairwise_cons.mp apart
      by_cases here : p a = true
      · have none : rest.filter p = [] := List.filter_eq_nil_iff.mpr fun b member => first b member here
        rw [AtMostOne, List.filter_cons_of_pos here, none]
        exact Nat.le_refl 1
      · rw [AtMostOne, List.filter_cons_of_neg here]
        exact ih later

end

/-! ## Intervals in order -/

variable {α ι : Type*} [LinearOrder ι] (first : α → ι) (last : α → Option ι)

def covers (a : α) (x : ι) : Bool := first a ≤ x && (last a).all (x ≤ ·)

def Before (a b : α) : Prop := ∃ stop, last a = some stop ∧ stop < first b

variable {first last} {l : List α}

theorem Before.apart {a b : α} (before : Before first last a b) (x : ι)
    (inside : covers first last a x = true) : ¬ covers first last b x = true := by
  obtain ⟨stop, ends, earlier⟩ := before
  simp only [covers, ends, Option.all_some, Bool.and_eq_true, decide_eq_true_eq] at inside ⊢
  exact fun ⟨begun, _⟩ => absurd (inside.2.trans_lt earlier) (not_lt.mpr begun)

/-- Neighbours in the order of their first points are enough, empty intervals included. -/
theorem pairwise_before (chain : l.IsChain (Before first last))
    (sorted : l.Pairwise (first · ≤ first ·)) : l.Pairwise (Before first last) := by
  induction l with
  | nil => exact .nil
  | cons a rest ih =>
      obtain ⟨above, later⟩ := List.pairwise_cons.mp sorted
      refine List.pairwise_cons.mpr ⟨fun b member => ?_, ih chain.tail later⟩
      cases rest with
      | nil => cases member
      | cons next rest =>
          obtain ⟨⟨stop, ends, earlier⟩, -⟩ := List.isChain_cons_cons.mp chain
          rcases List.mem_cons.mp member with rfl | further
          · exact ⟨stop, ends, earlier⟩
          · exact ⟨stop, ends, earlier.trans_le ((List.pairwise_cons.mp later).1 b further)⟩

theorem atMostOne_covers (chain : l.IsChain (Before first last))
    (sorted : l.Pairwise (first · ≤ first ·)) (x : ι) :
    AtMostOne (covers first last · x) l :=
  atMostOne_of_pairwise ((pairwise_before chain sorted).imp fun before => before.apart x)

end EconomicLedger.Intervals
