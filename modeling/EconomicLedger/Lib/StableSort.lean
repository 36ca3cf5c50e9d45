import EconomicLedger.Lib.Keyed
import Mathlib.Data.List.Sort

/-!
# Stable sorting

Sorting by a key keeps elements of one key in the order they had. Where a tie-break tells all such
elements apart, the sorted list does not depend on the order of the input.
-/

namespace EconomicLedger.StableSort
variable {α κ : Type*} [LinearOrder κ] (key : α → κ) (tie : α → α → Prop)

/-- Lists in strict order of a key are equal when they have the same members. -/
theorem eq_of_strict {l l' : List α} (sorted : l.Pairwise fun a b => key a < key b)
    (sorted' : l'.Pairwise fun a b => key a < key b) (members : ∀ a, a ∈ l ↔ a ∈ l') : l = l' := by
  have irrefl : Std.Irrefl fun a b => key a < key b := ⟨fun a => lt_irrefl (key a)⟩
  have antisymm : Std.Antisymm fun a b => key a < key b :=
    ⟨fun _ _ before after => absurd before (lt_asymm after)⟩
  exact sorted.eq_of_mem_iff sorted' members

def Before (a b : α) : Prop := key a < key b ∨ key a = key b ∧ tie a b

variable {key tie}

theorem Before.le {a b : α} (before : Before key tie a b) : key a ≤ key b := by
  rcases before with less | ⟨same, -⟩
  · exact less.le
  · exact same.le

theorem Before.asymm (asymm : ∀ a b, tie a b → ¬ tie b a) {a b : α} (before : Before key tie a b) :
    ¬ Before key tie b a := by
  intro after
  have same := le_antisymm before.le after.le
  rcases before with less | ⟨-, here⟩
  · exact less.ne same
  · rcases after with less | ⟨-, there⟩
    · exact less.ne same.symm
    · exact asymm a b here there

theorem pairwise_orderedInsert (a : α) (l : List α) (sorted : l.Pairwise (Before key tie))
    (ties : ∀ b ∈ l, key a = key b → tie a b) :
    (l.orderedInsert (key · ≤ key ·) a).Pairwise (Before key tie) := by
  induction l with
  | nil => exact List.pairwise_singleton _ a
  | cons b rest ih =>
      obtain ⟨first, others⟩ := List.pairwise_cons.mp sorted
      rw [List.orderedInsert_cons]
      split
      next le =>
        refine List.pairwise_cons.mpr ⟨fun c member => ?_, sorted⟩
        have below : key b ≤ key c := by
          rcases List.mem_cons.mp member with rfl | later
          · exact le_refl _
          · exact (first c later).le
        rcases (le.trans below).lt_or_eq with less | same
        · exact Or.inl less
        · exact Or.inr ⟨same, ties c member same⟩
      next greater =>
        refine List.pairwise_cons.mpr ⟨fun c member => ?_,
          ih others fun c later => ties c (List.mem_cons_of_mem b later)⟩
        rcases (List.mem_orderedInsert _).mp member with rfl | later
        · exact Or.inl (not_le.mp greater)
        · exact first c later

theorem pairwise_insertionSort (l : List α) (ties : l.Pairwise fun a b => key a = key b → tie a b) :
    (l.insertionSort (key · ≤ key ·)).Pairwise (Before key tie) := by
  induction l with
  | nil => exact List.Pairwise.nil
  | cons a rest ih =>
      obtain ⟨first, others⟩ := List.pairwise_cons.mp ties
      rw [List.insertionSort_cons]
      exact pairwise_orderedInsert a _ (ih others) fun b member =>
        first b ((List.mem_insertionSort _).mp member)

theorem eq_of_before (asymm : ∀ a b, tie a b → ¬ tie b a) (l l' : List α) (same : l.Perm l')
    (sorted : l.Pairwise (Before key tie)) (sorted' : l'.Pairwise (Before key tie)) : l = l' :=
  same.eq_of_pairwise (fun _ _ _ _ before after => absurd after (before.asymm asymm)) sorted sorted'

end EconomicLedger.StableSort
