import Mathlib.Data.List.Sort
import Mathlib.Order.Basic
import Mathlib.Tactic.Tauto

/-!
# Rows beside the row before them

`lag` puts beside every row of an ordered list the one before it. Where the order is strict, the
pairs are the rows with no row in between.
-/

namespace EconomicLedger.Window
variable {α κ : Type*}

def lagFrom (prev : Option α) : List α → List (Option α × α)
  | [] => []
  | a :: rest => (prev, a) :: lagFrom (some a) rest

/-- `LAG(..) OVER (ORDER BY ..)`, on rows in order. -/
def lag (rows : List α) : List (Option α × α) := lagFrom none rows

def Adjacent [LT κ] (f : α → κ) (rows : List α) (p a : α) : Prop :=
  p ∈ rows ∧ a ∈ rows ∧ f p < f a ∧ ∀ b ∈ rows, ¬ (f p < f b ∧ f b < f a)

variable [LinearOrder κ] (f : α → κ)

theorem adjacent_cons (x y : α) (rest : List α) (sorted : (x :: y :: rest).Pairwise (f · < f ·))
    (p a : α) :
    Adjacent f (x :: y :: rest) p a ↔ (p = x ∧ a = y) ∨ Adjacent f (y :: rest) p a := by
  obtain ⟨first, later⟩ := List.pairwise_cons.mp sorted
  obtain ⟨second, -⟩ := List.pairwise_cons.mp later
  constructor
  · rintro ⟨isP, isA, less, between⟩
    have notFirst : a ∈ y :: rest := by
      rcases List.mem_cons.mp isA with rfl | member
      · rcases List.mem_cons.mp isP with rfl | inside
        · exact absurd less (lt_irrefl _)
        · exact absurd less (first p inside).asymm
      · exact member
    rcases List.mem_cons.mp isP with rfl | inside
    · rcases List.mem_cons.mp notFirst with rfl | member
      · exact Or.inl ⟨rfl, rfl⟩
      · exact absurd ⟨first y List.mem_cons_self, second a member⟩
          (between y (List.mem_cons_of_mem _ List.mem_cons_self))
    · exact Or.inr ⟨inside, notFirst, less, fun b member =>
        between b (List.mem_cons_of_mem x member)⟩
  · rintro (⟨rfl, rfl⟩ | ⟨isP, isA, less, between⟩)
    · refine ⟨List.mem_cons_self, List.mem_cons_of_mem _ List.mem_cons_self,
        first a List.mem_cons_self, ?_⟩
      rintro b member ⟨above, below⟩
      rcases List.mem_cons.mp member with rfl | member
      · exact lt_irrefl _ above
      · rcases List.mem_cons.mp member with rfl | member
        · exact lt_irrefl _ below
        · exact below.asymm (second b member)
    · refine ⟨List.mem_cons_of_mem x isP, List.mem_cons_of_mem x isA, less, ?_⟩
      rintro b member ⟨above, below⟩
      rcases List.mem_cons.mp member with rfl | member
      · exact above.asymm (first p isP)
      · exact between b member ⟨above, below⟩

theorem mem_lagFrom_iff (x : α) (rest : List α) (sorted : (x :: rest).Pairwise (f · < f ·)) (p a : α) :
    (some p, a) ∈ lagFrom (some x) rest ↔ Adjacent f (x :: rest) p a := by
  induction rest generalizing x with
  | nil =>
      simp only [lagFrom, List.not_mem_nil, false_iff]
      rintro ⟨isP, isA, less, -⟩
      rw [List.mem_singleton.mp isP, List.mem_singleton.mp isA] at less
      exact lt_irrefl _ less
  | cons y rest ih =>
      rw [lagFrom, List.mem_cons, ih y (List.pairwise_cons.mp sorted).2, adjacent_cons f x y rest sorted,
        Prod.mk.injEq, Option.some.injEq]

theorem mem_lag_iff (rows : List α) (sorted : rows.Pairwise (f · < f ·)) (p a : α) :
    (some p, a) ∈ lag rows ↔ Adjacent f rows p a := by
  cases rows with
  | nil => simp [lag, lagFrom, Adjacent]
  | cons x rest =>
      rw [lag, lagFrom, List.mem_cons, mem_lagFrom_iff f x rest sorted]
      simp

theorem mem_lag_sorted_iff (rows : List α) (distinct : (rows.map f).Nodup) (p a : α) :
    (some p, a) ∈ lag (rows.insertionSort (f · ≤ f ·)) ↔ Adjacent f rows p a := by
  have perm := List.perm_insertionSort (f · ≤ f ·) rows
  have ordered : (rows.insertionSort (f · ≤ f ·)).Pairwise (f · ≤ f ·) :=
    List.pairwise_insertionSort (f · ≤ f ·) rows
  have apart : (rows.insertionSort (f · ≤ f ·)).Pairwise (f · ≠ f ·) :=
    List.pairwise_map.mp ((perm.map f).nodup_iff.mpr distinct)
  have sorted : (rows.insertionSort (f · ≤ f ·)).Pairwise (f · < f ·) :=
    (ordered.and apart).imp fun both => lt_of_le_of_ne both.1 both.2
  rw [mem_lag_iff f _ sorted]
  simp only [Adjacent, perm.mem_iff]

/-! ## The row after -/

end EconomicLedger.Window
