import EconomicLedger.Ledger.DoubleEntry
import EconomicLedger.Model.Checks

/-!
# Balance checks of the ledger

The blocking check nets a transaction hash over all chains and leaves out entries without one; the
dbt test nets every pair of a chain and a transaction hash.
-/

namespace EconomicLedger.Ledger
open Model DoubleEntry Rollup

variable (entries : List LedgerEntry)

/-! ## Groups -/

def txNet (txHash : String) : Int := net signedAmount (entries.filter (·.txHash = txHash))

def groupNet (group : Int × String) : Int := net signedAmount (entries.filter (chainTx · = group))

theorem filter_absent {κ : Type} [DecidableEq κ] {key : LedgerEntry → κ} {k : κ}
    (absent : ¬ ∃ e ∈ entries, key e = k) : entries.filter (key · = k) = [] := by
  rw [List.filter_eq_nil_iff]
  intro e member same
  exact absent ⟨e, member, by simpa using same⟩

/-- Groups without entries are balanced. -/
theorem net_groups_iff {κ : Type} [DecidableEq κ] (key : LedgerEntry → κ) (p : κ → Prop) :
    (∀ e ∈ entries, p (key e) → net signedAmount (entries.filter (key · = key e)) = 0) ↔
      ∀ k, p k → net signedAmount (entries.filter (key · = k)) = 0 := by
  constructor
  · intro balanced k chosen
    by_cases present : ∃ e ∈ entries, key e = k
    · obtain ⟨e, member, rfl⟩ := present
      exact balanced e member chosen
    · rw [filter_absent entries present]
      rfl
  · intro balanced e _
    exact balanced (key e)

theorem totals_eq_iff : totalOf .debit entries = totalOf .credit entries ↔ net signedAmount entries = 0 := by
  rw [net_eq_totals, sub_eq_zero]

theorem foldl_addToSums (sums : Option (Int × Int)) (nonempty : entries ≠ []) :
    entries.foldl (fun o e => some (addToSums o e)) sums =
      some ((sums.getD (0, 0)).1 + totalOf .debit entries,
        (sums.getD (0, 0)).2 + totalOf .credit entries) := by
  induction entries generalizing sums with
  | nil => exact absurd rfl nonempty
  | cons entry rest ih =>
      have first : addToSums sums entry =
          ((sums.getD (0, 0)).1 + totalOf .debit [entry],
            (sums.getD (0, 0)).2 + totalOf .credit [entry]) := by
        cases direction : entry.direction <;> simp [addToSums, totalOf, direction]
      have split (side : Direction) :
          totalOf side (entry :: rest) = totalOf side [entry] + totalOf side rest := by
        simp only [totalOf]
        rw [← List.singleton_append, List.filter_append, List.map_append, List.sum_append]
      rw [List.foldl_cons, first, split, split]
      by_cases last : rest = []
      · simp [last, totalOf]
      · rw [ih _ last]
        simp [add_assoc]

theorem get?_sumsByTx (txHash : String) :
    (sumsByTx entries).get? txHash =
      if txHash ≠ "" ∧ ∃ e ∈ entries, e.txHash = txHash then
        some (totalOf .debit (entries.filter (·.txHash = txHash)),
          totalOf .credit (entries.filter (·.txHash = txHash)))
      else none := by
  rw [sumsByTx, Dict.get?_gather, Dict.get?_empty, List.filter_filter]
  by_cases nameless : txHash = ""
  · have none : entries.filter (fun e => decide (e.txHash = txHash) && decide (e.txHash ≠ "")) = [] := by
      rw [List.filter_eq_nil_iff]
      intro e _
      simp [nameless]
    rw [none, if_neg fun named => named.1 nameless]
    rfl
  · have own : entries.filter (fun e => decide (e.txHash = txHash) && decide (e.txHash ≠ "")) =
        entries.filter (·.txHash = txHash) := by
      apply List.filter_congr
      intro e _
      by_cases same : e.txHash = txHash <;> simp [same, nameless]
    rw [own]
    by_cases present : ∃ e ∈ entries, e.txHash = txHash
    · have nonempty : entries.filter (·.txHash = txHash) ≠ [] := by
        obtain ⟨e, member, same⟩ := present
        exact List.ne_nil_of_mem (List.mem_filter.mpr ⟨member, by simpa using same⟩)
      rw [foldl_addToSums _ _ nonempty, if_pos ⟨nameless, present⟩]
      simp
    · rw [filter_absent entries present, if_neg fun named => present named.2]
      rfl

theorem passed_iff : (checkLedgerBalancedPerTx entries).passed = true ↔
    ∀ txHash, txHash ≠ "" → txNet entries txHash = 0 := by
  have violators : (checkLedgerBalancedPerTx entries).passed = true ↔
      ∀ txHash sums, (sumsByTx entries).get? txHash = some sums → sums.1 = sums.2 := by
    have none : (checkLedgerBalancedPerTx entries).passed = true ↔ ledgerViolators entries = [] :=
      decide_eq_true_iff.trans List.length_eq_zero_iff
    rw [none, ledgerViolators, List.filter_eq_nil_iff]
    simp [Dict.get?_eq_some_iff]
  have sums : (∀ txHash sums, (sumsByTx entries).get? txHash = some sums → sums.1 = sums.2) ↔
      ∀ e ∈ entries, e.txHash ≠ "" → txNet entries e.txHash = 0 := by
    simp only [get?_sumsByTx, Option.ite_none_right_eq_some, Option.some.injEq, and_imp,
      forall_exists_index, txNet, ← totals_eq_iff]
    constructor
    · intro balanced e member named
      exact balanced e.txHash _ named e member rfl rfl
    · rintro balanced _ _ named e member rfl rfl
      exact balanced e member named
  rw [violators, sums]
  exact net_groups_iff entries LedgerEntry.txHash (· ≠ "")

/-! ## The dbt test -/

theorem delta_eq (group : Int × String) (rows : List LedgerEntry) :
    (ledgerImbalance group rows).delta = net signedAmount rows := by
  rw [ledgerImbalance, net]
  apply congrArg List.sum
  apply List.map_congr_left
  intro e _
  cases direction : e.direction <;> simp [signedAmount, direction]

theorem assertLedgerBalancedPerTx_iff :
    assertLedgerBalancedPerTx entries = [] ↔ ∀ group, groupNet entries group = 0 := by
  rw [assertLedgerBalancedPerTx, groupRows_eq, List.filter_eq_nil_iff]
  simp only [List.mem_map, forall_exists_index, and_imp, forall_apply_eq_imp_iff₂, delta_eq,
    Dict.mem_keys_groupBy, ne_eq, decide_not, Bool.not_eq_true', decide_eq_false_iff_not,
    Decidable.not_not]
  simpa [groupNet] using net_groups_iff entries chainTx fun _ => True

/-! ## Double-entry checks of each chain -/

theorem verifyDoubleEntryPerTx_iff :
    (∀ check ∈ verifyDoubleEntryPerTx entries, check.isBalanced = true) ↔
      ∀ txHash, txNet entries txHash = 0 := by
  simp only [verifyDoubleEntryPerTx, Dict.values_groupBy, List.map_map, List.mem_map,
    Dict.mem_keys_groupBy, Function.comp_apply, forall_exists_index, and_imp,
    forall_apply_eq_imp_iff₂, isBalanced_iff_net]
  simpa [txNet] using net_groups_iff entries LedgerEntry.txHash fun _ => True

theorem txNet_chain (chainId : Int) (txHash : String) :
    txNet (entries.filter (·.chainId = chainId)) txHash = groupNet entries (chainId, txHash) := by
  rw [txNet, groupNet, List.filter_filter]
  apply congrArg (net signedAmount)
  apply List.filter_congr
  intro e _
  simp [chainTx, Bool.decide_and, Bool.and_comm]

/-! ## Agreement -/

/-- The blocking check, the dbt test, the balance of every group and the double-entry checks of every
chain say the same. -/
structure ChecksAgree : Prop where
  test : (checkLedgerBalancedPerTx entries).passed = true ↔ assertLedgerBalancedPerTx entries = []
  groups : (checkLedgerBalancedPerTx entries).passed = true ↔ ∀ chainId txHash,
    totalOf .debit (entries.filter (chainTx · = (chainId, txHash))) =
      totalOf .credit (entries.filter (chainTx · = (chainId, txHash)))
  checks : (checkLedgerBalancedPerTx entries).passed = true ↔ ∀ chainId,
    ∀ check ∈ verifyDoubleEntryPerTx (entries.filter (·.chainId = chainId)), check.isBalanced = true

def OnTwoChains (txHash : String) : Prop :=
  ∃ e ∈ entries, ∃ e' ∈ entries, e.txHash = txHash ∧ e'.txHash = txHash ∧ e.chainId ≠ e'.chainId

/-- A transaction hash that stands on two chains balances on each of them, and so do the entries without a
transaction hash. -/
structure BalancedApart : Prop where
  shared : ∀ txHash, txHash ≠ "" → OnTwoChains entries txHash → ∀ chainId, groupNet entries (chainId, txHash) = 0
  nameless : ∀ chainId, groupNet entries (chainId, "") = 0

theorem groupNet_of_oneChain {txHash : String} (one : ¬ OnTwoChains entries txHash) (chainId : Int) :
    groupNet entries (chainId, txHash) = 0 ∨ groupNet entries (chainId, txHash) = txNet entries txHash := by
  rw [← txNet_chain, txNet, txNet, List.filter_filter]
  by_cases here : ∃ e ∈ entries, e.txHash = txHash ∧ e.chainId = chainId
  · obtain ⟨e, member, own, chain⟩ := here
    right
    apply congrArg (net signedAmount)
    apply List.filter_congr
    intro e' member'
    by_cases own' : e'.txHash = txHash
    · have same : e'.chainId = chainId := by
        by_contra other
        exact one ⟨e, member, e', member', own, own', fun eq => other (eq.symm.trans chain)⟩
      simp [own', same]
    · simp [own']
  · left
    rw [List.filter_eq_nil_iff.mpr]
    · rfl
    · intro e member chosen
      rw [Bool.and_eq_true, decide_eq_true_eq, decide_eq_true_eq] at chosen
      exact here ⟨e, member, chosen⟩

/-- Where each transaction hash balances over all chains, two faults are left to be missed. -/
theorem groups_balanced_iff (balanced : ∀ txHash, txHash ≠ "" → txNet entries txHash = 0) :
    (∀ group, groupNet entries group = 0) ↔ BalancedApart entries := by
  constructor
  · intro each
    exact ⟨fun txHash _ _ chainId => each (chainId, txHash), fun chainId => each (chainId, "")⟩
  · rintro apart ⟨chainId, txHash⟩
    by_cases nameless : txHash = ""
    · exact nameless ▸ apart.nameless chainId
    · by_cases shared : OnTwoChains entries txHash
      · exact apart.shared txHash nameless shared chainId
      · rcases groupNet_of_oneChain entries shared chainId with none | whole
        · exact none
        · exact whole.trans (balanced txHash nameless)

theorem ledger_checks_agree_iff : ChecksAgree entries ↔
    BalancedApart entries ∨ ∃ txHash, txHash ≠ "" ∧ txNet entries txHash ≠ 0 := by
  have groups : (∀ chainId txHash, totalOf .debit (entries.filter (chainTx · = (chainId, txHash))) =
      totalOf .credit (entries.filter (chainTx · = (chainId, txHash)))) ↔
        ∀ group, groupNet entries group = 0 := by
    simp only [totals_eq_iff, Prod.forall, groupNet]
  have checks : (∀ chainId, ∀ check ∈ verifyDoubleEntryPerTx (entries.filter (·.chainId = chainId)),
      check.isBalanced = true) ↔ ∀ group, groupNet entries group = 0 := by
    simp only [verifyDoubleEntryPerTx_iff, txNet_chain, Prod.forall]
  have balanced_of_groups : (∀ group, groupNet entries group = 0) → ∀ txHash, txNet entries txHash = 0 := by
    intro each txHash
    apply net_eq_zero_of_each signedAmount LedgerEntry.chainId
    intro chainId
    have here := each (chainId, txHash)
    rw [← txNet_chain, txNet, List.filter_filter] at here
    rw [List.filter_filter]
    simpa [Bool.and_comm] using here
  have agree : ChecksAgree entries ↔
      ((∀ txHash, txHash ≠ "" → txNet entries txHash = 0) ↔ ∀ group, groupNet entries group = 0) := by
    constructor
    · intro agree
      rw [← passed_iff, agree.test, assertLedgerBalancedPerTx_iff]
    · intro same
      rw [← passed_iff] at same
      exact ⟨same.trans (assertLedgerBalancedPerTx_iff entries).symm, same.trans groups.symm,
        same.trans checks.symm⟩
  rw [agree]
  constructor
  · intro same
    by_cases balanced : ∀ txHash, txHash ≠ "" → txNet entries txHash = 0
    · exact Or.inl ((groups_balanced_iff entries balanced).mp (same.mp balanced))
    · simp only [not_forall] at balanced
      obtain ⟨txHash, named, unbalanced⟩ := balanced
      exact Or.inr ⟨txHash, named, unbalanced⟩
  · rintro (apart | ⟨txHash, named, unbalanced⟩)
    · exact ⟨fun balanced => (groups_balanced_iff entries balanced).mpr apart,
        fun each txHash _ => balanced_of_groups each txHash⟩
    · -- both sides fail at this hash
      exact ⟨fun balanced => absurd (balanced txHash named) unbalanced,
        fun each => absurd (balanced_of_groups each txHash) unbalanced⟩

def entryOn (chainId : Int) (direction : Direction) (amount : Int) : LedgerEntry :=
  { entryId := "entry"
    actionId := "action"
    entryIndex := 0
    account := "wallet:0xaa"
    direction := direction
    amountLink := amount
    chainId := chainId
    blockNumber := 100
    txHash := "0x01" }

/-- A debit of one transaction hash on one chain beside a credit of it on another. -/
theorem ledger_checks_disagree :
    ¬ ChecksAgree [entryOn 1 .debit 5, entryOn 2 .credit 5] := by
  intro agree
  have passed : (checkLedgerBalancedPerTx [entryOn 1 .debit 5, entryOn 2 .credit 5]).passed = true := by
    decide +kernel
  have violators : assertLedgerBalancedPerTx [entryOn 1 .debit 5, entryOn 2 .credit 5] =
      [⟨1, "0x01", 5, 0, 5⟩, ⟨2, "0x01", 0, 5, -5⟩] := by
    decide +kernel
  have none := agree.test.mp passed
  rw [violators] at none
  cases none

end EconomicLedger.Ledger
