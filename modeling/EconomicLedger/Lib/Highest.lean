import Mathlib.Algebra.Notation.Defs
import Mathlib.Order.MinMax

/-!
# Highest values

The highest value of a list is that of a part of it when some value of the part reaches as high as
every value.
-/

namespace EconomicLedger.Highest
variable {M : Type*} [LinearOrder M] [Zero M]

/-- The highest value, zero for none. -/
def highest (values : List M) : M := values.max?.getD 0

theorem highest_eq_iff_mem {values : List M} (nonempty : values ≠ []) (x : M) :
    highest values = x ↔ x ∈ values ∧ ∀ y ∈ values, y ≤ x := by
  obtain ⟨top, found⟩ := Option.isSome_iff_exists.mp (List.isSome_max?_of_ne_nil nonempty)
  have : Std.LawfulOrderMax M := .of_max_le_iff (fun _ _ _ => max_le_iff) max_choice
  rw [highest, found, Option.getD_some, ← List.max?_eq_some_iff, found, Option.some.injEq]

/-- Some of the values reach as high as all of them; none of them do when the highest is zero. -/
def Reaches (some all : List M) : Prop :=
  (∀ x ∈ all, ∃ y ∈ some, x ≤ y) ∨ some = [] ∧ 0 ∈ all ∧ ∀ x ∈ all, x ≤ 0

theorem highest_eq_iff {some all : List M} (inside : some ⊆ all) :
    highest all = highest some ↔ Reaches some all := by
  by_cases none : some = []
  · subst none
    by_cases empty : all = []
    · simp [empty, Reaches]
    · have zero : highest ([] : List M) = 0 := rfl
      obtain ⟨x, member⟩ := List.exists_mem_of_ne_nil all empty
      rw [zero, highest_eq_iff_mem empty]
      constructor
      · exact fun reached => Or.inr ⟨rfl, reached⟩
      · rintro (covered | ⟨-, reached⟩)
        · obtain ⟨y, absurd, -⟩ := covered x member
          cases absurd
        · exact reached
  · have nonempty : all ≠ [] := by
      rintro rfl
      exact none (List.subset_nil.mp inside)
    obtain ⟨reached, bound⟩ := (highest_eq_iff_mem none _).mp rfl
    rw [highest_eq_iff_mem nonempty]
    constructor
    · rintro ⟨-, all_bound⟩
      exact Or.inl fun x member => ⟨_, reached, all_bound x member⟩
    · rintro (covered | ⟨empty, -⟩)
      · refine ⟨inside reached, fun x member => ?_⟩
        obtain ⟨y, isSome, below⟩ := covered x member
        exact le_trans below (bound y isSome)
      · exact absurd empty none

end EconomicLedger.Highest
