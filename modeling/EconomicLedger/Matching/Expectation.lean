import EconomicLedger.Ledger.Accounts
import EconomicLedger.Matching.Settlement

/-!
# Actions without ledger entries

The ledger looks at the amount of an action, reconciliation only at its kind. They disagree about the
actions of amount zero whose kind expects a movement: these have no entries and are unmatched.
-/

namespace EconomicLedger.Matching
open Model Ledger

variable (sha256 : Digest)

theorem bookedAccounts_none (action : EconomicAction) (none : bookedAccounts action = none) :
    action.kind ∈ notExpectedKinds := by
  unfold bookedAccounts at none
  cases kind : action.kind with
  | unstakeRequested => decide
  | rewardAccrued => decide
  | poolConfigChanged => decide
  | stake => simp [kind] at none
  | unstakeFinalized => simp [kind] at none
  | rewardClaimed => simp [kind] at none
  | slashed => simp [kind] at none
  | migratedFromV01 =>
      simp only [kind] at none
      split at none <;> cases none

theorem buildLedgerEntries_eq_nil_iff (action : EconomicAction) (movements : List TokenMovement) :
    buildLedgerEntries sha256 action movements = [] ↔
      action.amountLink = 0 ∨ bookedAccounts action = none := by
  rw [buildLedgerEntries_eq]
  by_cases zero : action.amountLink = 0
  · simp [zero]
  · cases booked : bookedAccounts action with
    | none => simp
    | some accounts => simp [zero]

theorem actionStatus_notExpected_iff (action : EconomicAction) (movements : List TokenMovement) :
    actionStatus action movements = .notExpected ↔ action.kind ∈ notExpectedKinds := by
  unfold actionStatus
  constructor
  · intro status
    by_contra expected
    rw [if_neg expected] at status
    split at status
    · split at status <;> cases status
    · cases status
    · cases status
  · intro kind
    rw [if_pos kind]

theorem edges_notExpected_iff (action : EconomicAction) (movements : List TokenMovement) :
    (∀ edge ∈ matchActionToMovements sha256 action movements, edge.status = .notExpected) ↔
      action.kind ∈ notExpectedKinds := by
  have matched := matchActionToMovements_matched sha256 action movements
  rw [← actionStatus_notExpected_iff action movements]
  constructor
  · intro all
    obtain ⟨edge, own⟩ := List.exists_mem_of_ne_nil _
      (matchActionToMovements_ne_nil sha256 action movements)
    rw [← matched.status edge own, all edge own]
  · intro status edge own
    rw [matched.status edge own, status]

/-- No candidate has the amount zero, and zero is no sum of candidates. -/
theorem actionStatus_zero (action : EconomicAction) (movements : List TokenMovement)
    (expected : action.kind ∉ notExpectedKinds) (zero : action.amountLink = 0) :
    actionStatus action movements = .unmatched := by
  have none : (candidatesFor action movements).filter (·.amount = action.amountLink) = [] := by
    rw [List.filter_eq_nil_iff]
    intro m candidate equal
    have positive := (List.mem_filter.mp candidate).2
    simp only [zero, decide_eq_true_eq, Bool.and_eq_true] at equal positive
    exact absurd equal positive.2.ne'
  have unsettled : settle action movements = Option.none := by
    rw [settle_of_no_equal action movements expected none, if_neg (by simp [zero])]
  rw [actionStatus, if_neg expected, none, unsettled]
  rfl

/-- An action without entries is not expected to move anything exactly when its kind says so or it
has an amount. -/
theorem noEntries_notExpected_iff (action : EconomicAction) (movements : List TokenMovement) :
    (buildLedgerEntries sha256 action movements = [] →
      ∀ edge ∈ matchActionToMovements sha256 action movements, edge.status = .notExpected) ↔
      action.kind ∈ notExpectedKinds ∨ action.amountLink ≠ 0 := by
  rw [edges_notExpected_iff, buildLedgerEntries_eq_nil_iff]
  constructor
  · intro agrees
    by_cases zero : action.amountLink = 0
    · exact Or.inl (agrees (Or.inl zero))
    · exact Or.inr zero
  · rintro (kind | amount) empty
    · exact kind
    · rcases empty with zero | none
      · exact absurd zero amount
      · exact bookedAccounts_none action none

theorem zeroStake_unmatched :
    ¬ (buildLedgerEntries id (stakeOf "a1" 0) [movementOf "m1" 5] = [] →
      ∀ edge ∈ matchActionToMovements id (stakeOf "a1" 0) [movementOf "m1" 5],
        edge.status = .notExpected) := by
  intro agrees
  have expected := (edges_notExpected_iff id (stakeOf "a1" 0) [movementOf "m1" 5]).mp (agrees rfl)
  revert expected
  decide

end EconomicLedger.Matching
