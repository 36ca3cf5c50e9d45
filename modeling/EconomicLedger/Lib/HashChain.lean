import Mathlib.Data.Nat.Basic

/-!
# Hash chains

Every block names the hash of the block before it. Where a hash settles which block came before, two
chains that agree at one height agree at every height below it.
-/

namespace EconomicLedger.HashChain
variable {β η : Type*} (hash parent : β → η)

def Linked (chain : ℕ → β) (first last : ℕ) : Prop :=
  ∀ n, first ≤ n → n < last → parent (chain (n + 1)) = hash (chain n)

variable {hash parent} {chain chain' : ℕ → β} {first last : ℕ}

theorem agree_below (linked : Linked hash parent chain first last)
    (linked' : Linked hash parent chain' first last)
    (settles : ∀ n, first ≤ n → n ≤ last → hash (chain n) = hash (chain' n) →
      parent (chain n) = parent (chain' n))
    (n : ℕ) (within : n ≤ last) (same : hash (chain n) = hash (chain' n)) (m : ℕ) (above : first ≤ m)
    (below : m ≤ n) : hash (chain m) = hash (chain' m) := by
  induction n with
  | zero => rwa [Nat.le_zero.mp below]
  | succ n ih =>
      rcases Nat.lt_or_eq_of_le below with earlier | rfl
      · have started : first ≤ n := by omega
        have before : hash (chain n) = hash (chain' n) := by
          rw [← linked n started within, ← linked' n started within]
          exact settles (n + 1) (by omega) within same
        exact ih (by omega) before (by omega)
      · exact same

theorem differ_above (linked : Linked hash parent chain first last)
    (linked' : Linked hash parent chain' first last)
    (settles : ∀ n, first ≤ n → n ≤ last → hash (chain n) = hash (chain' n) →
      parent (chain n) = parent (chain' n))
    (m : ℕ) (above : first ≤ m) (parted : hash (chain m) ≠ hash (chain' m)) (n : ℕ) (later : m ≤ n)
    (within : n ≤ last) : hash (chain n) ≠ hash (chain' n) := fun same =>
  parted (agree_below linked linked' settles n within same m above later)

end EconomicLedger.HashChain
