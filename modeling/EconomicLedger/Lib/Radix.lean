import Mathlib.Data.List.Induction
import Mathlib.Data.Nat.Digits.Defs
import Mathlib.Tactic.Ring

/-!
# Numerals in a radix

The number a list of digits spells, most significant digit first. Two numerals spell one number
exactly when they agree after their leading zeros.
-/

namespace EconomicLedger.Radix

def value (b : Nat) (digits : List Nat) : Nat := digits.foldl (fun n d => b * n + d) 0

def significant (digits : List Nat) : List Nat := digits.dropWhile (· = 0)

theorem value_eq_ofDigits (b : Nat) (digits : List Nat) :
    value b digits = Nat.ofDigits b digits.reverse := by
  induction digits using List.reverseRecOn with
  | nil => rfl
  | append_singleton digits d ih =>
      rw [value, List.foldl_append, ← value, ih, List.reverse_append]
      simp [Nat.ofDigits_cons, add_comm]

theorem value_significant (b : Nat) (digits : List Nat) :
    value b (significant digits) = value b digits := by
  induction digits with
  | nil => rfl
  | cons d rest ih =>
      by_cases zero : d = 0
      · subst zero
        simpa [significant, value] using ih
      · simp [significant, zero]

theorem digits_value (b : Nat) (base : 1 < b) (digits : List Nat) (small : ∀ d ∈ digits, d < b) :
    Nat.digits b (value b digits) = (significant digits).reverse := by
  rw [← value_significant, value_eq_ofDigits]
  apply Nat.digits_ofDigits b base
  · intro d member
    exact small d ((List.dropWhile_suffix _).subset (List.mem_reverse.mp member))
  · intro nonempty
    rw [List.getLast_reverse]
    have nonempty' : significant digits ≠ [] := List.reverse_ne_nil_iff.mp nonempty
    have head := List.head_dropWhile_not (fun d : Nat => decide (d = 0)) nonempty'
    simpa [significant] using head

theorem value_eq_iff (b : Nat) (base : 1 < b) (digits digits' : List Nat)
    (small : ∀ d ∈ digits, d < b) (small' : ∀ d ∈ digits', d < b) :
    value b digits = value b digits' ↔ significant digits = significant digits' := by
  constructor
  · intro same
    have read := digits_value b base digits small
    rw [same, digits_value b base digits' small'] at read
    exact (List.reverse_inj.mp read).symm
  · intro same
    rw [← value_significant, same, value_significant]

end EconomicLedger.Radix
