import Mathlib.Data.List.Basic

/-!
# Ranges of a sorted list

The rows of a range, and rows put together from adjacent ranges.
-/

namespace EconomicLedger.Ranges
variable {α : Type*}

def between (key : α → Int) (first last : Int) (rows : List α) : List α :=
  rows.filter fun row => first ≤ key row && key row ≤ last

/-- Where the rows that satisfy `p` come before those that satisfy `q`, the list of the first and the
list of the second make up one list. -/
theorem filter_append_filter (p q : α → Bool) (rows : List α)
    (before : rows.Pairwise fun a b => q a = true → ¬ p b = true)
    (apart : ∀ a ∈ rows, p a = true → ¬ q a = true) :
    rows.filter p ++ rows.filter q = rows.filter fun a => p a || q a := by
  induction rows with
  | nil => rfl
  | cons a rest ih =>
      obtain ⟨first, later⟩ := List.pairwise_cons.mp before
      have tail := ih later fun b member => apart b (List.mem_cons_of_mem a member)
      by_cases left : p a = true
      · have right : q a = false := by simpa using apart a List.mem_cons_self left
        rw [List.filter_cons_of_pos left, List.filter_cons_of_neg (by simp [right]),
          List.filter_cons_of_pos (by simp [left]), List.cons_append, tail]
      · by_cases right : q a = true
        · have none : rest.filter p = [] := List.filter_eq_nil_iff.mpr fun b member => first b member right
          rw [none, List.nil_append] at tail
          rw [List.filter_cons_of_neg left, List.filter_cons_of_pos right,
            List.filter_cons_of_pos (by simp [right]), none, List.nil_append, tail]
        · rw [List.filter_cons_of_neg left, List.filter_cons_of_neg right,
            List.filter_cons_of_neg (by simp [left, right]), tail]

variable (key : α → Int)

theorem between_of_lt (first last : Int) (rows : List α) (empty : last < first) :
    between key first last rows = [] := by
  apply List.filter_eq_nil_iff.mpr
  intro a _
  simp only [Bool.and_eq_true, decide_eq_true_eq]
  omega

theorem between_append (first middle last : Int) (rows : List α)
    (sorted : rows.Pairwise (key · ≤ key ·)) (left : first ≤ middle + 1) (right : middle ≤ last) :
    between key first middle rows ++ between key (middle + 1) last rows =
      between key first last rows := by
  unfold between
  rw [filter_append_filter]
  · apply List.filter_congr
    intro a _
    rw [Bool.eq_iff_iff]
    simp only [Bool.or_eq_true, Bool.and_eq_true, decide_eq_true_eq]
    omega
  · refine sorted.imp fun {a b} order above below => ?_
    simp only [Bool.and_eq_true, decide_eq_true_eq] at above below
    omega
  · intro a _ below above
    simp only [Bool.and_eq_true, decide_eq_true_eq] at above below
    omega

end EconomicLedger.Ranges
