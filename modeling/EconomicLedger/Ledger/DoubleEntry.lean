import EconomicLedger.Ledger.History
import EconomicLedger.Lib.DoubleEntry

/-!
# Double entry over whole histories

An action books nothing or moves one amount from one account to another, so its entries are a
posting of its transaction, and the entries of every transaction net to nothing.
-/

namespace EconomicLedger.Ledger
open Model DoubleEntry

variable (sha256 : Digest) (registry : ContractRegistry)

/-! ## What an action books -/

def bookPair (make : Int → String → Direction → Int → LedgerEntry) (debited credited : String)
    (amount : Int) : List LedgerEntry :=
  [make 0 debited .debit amount, make 1 credited .credit amount]

theorem buildLedgerEntries_cases (action : EconomicAction) (movements : List TokenMovement) :
    buildLedgerEntries sha256 action movements = [] ∨ ∃ debited credited,
      buildLedgerEntries sha256 action movements =
        bookPair (makeEntry sha256 action) debited credited action.amountLink := by
  unfold buildLedgerEntries
  by_cases nothing : action.amountLink = 0
  · exact Or.inl (if_pos nothing)
  · rw [if_neg nothing]
    cases action.kind with
    | unstakeRequested | poolConfigChanged => exact Or.inl rfl
    | stake | unstakeFinalized | rewardClaimed | rewardAccrued | slashed =>
        exact Or.inr ⟨_, _, rfl⟩
    | migratedFromV01 =>
        by_cases v01 : action.poolRole = "staking_pool_v01"
        · exact Or.inr ⟨_, _, if_pos v01⟩
        · exact Or.inr ⟨_, _, if_neg v01⟩

def Books (action : PAEconomicAction) : Prop :=
  action.kind ≠ .configChanged ∧ (0 < action.outputAmount ∨ 0 < action.sourceAmount)

def bookedAmount (action : PAEconomicAction) : Int :=
  match action.kind with
  | .feeReceived | .serviceFeeForwarded => action.sourceAmount
  | .swapExecuted => action.outputAmount
  | .reservesDeposit => if action.outputAmount = 0 then action.sourceAmount else action.outputAmount
  | .configChanged => 0

theorem buildPaLedgerEntries_unbooked (action : PAEconomicAction) (unbooked : ¬ Books action) :
    buildPaLedgerEntries sha256 action = [] := by
  unfold buildPaLedgerEntries
  by_cases config : action.kind = .configChanged
  · exact if_pos config
  · have nothing : action.outputAmount ≤ 0 ∧ action.sourceAmount ≤ 0 := by
      by_contra something
      exact unbooked ⟨config, by omega⟩
    rw [if_neg config, if_pos nothing]

theorem buildPaLedgerEntries_booked (action : PAEconomicAction) (books : Books action) :
    ∃ debited credited, buildPaLedgerEntries sha256 action =
      bookPair (makePaEntry sha256 action) debited credited (bookedAmount action) := by
  obtain ⟨moves, positive⟩ := books
  have something : ¬ (action.outputAmount ≤ 0 ∧ action.sourceAmount ≤ 0) := by omega
  unfold buildPaLedgerEntries bookedAmount
  rw [if_neg moves, if_neg something]
  cases kind : action.kind with
  | feeReceived | swapExecuted | reservesDeposit | serviceFeeForwarded => exact ⟨_, _, rfl⟩
  | configChanged => exact absurd kind moves

theorem buildPaLedgerEntries_cases (action : PAEconomicAction) :
    buildPaLedgerEntries sha256 action = [] ∨ ∃ debited credited amount,
      buildPaLedgerEntries sha256 action =
        bookPair (makePaEntry sha256 action) debited credited amount := by
  by_cases books : Books action
  · obtain ⟨debited, credited, pair⟩ := buildPaLedgerEntries_booked sha256 action books
    exact Or.inr ⟨debited, credited, _, pair⟩
  · exact Or.inl (buildPaLedgerEntries_unbooked sha256 action books)

def NoneOrPair (entries : List LedgerEntry) : Prop :=
  entries = [] ∨ ∃ debit credit, entries = [debit, credit] ∧
    debit.direction = .debit ∧ credit.direction = .credit ∧
    debit.amountLink = credit.amountLink ∧ debit.entryIndex = 0 ∧ credit.entryIndex = 1

theorem buildLedgerEntries_noneOrPair (action : EconomicAction) (movements : List TokenMovement) :
    NoneOrPair (buildLedgerEntries sha256 action movements) := by
  rcases buildLedgerEntries_cases sha256 action movements with none | ⟨debited, credited, pair⟩
  · exact Or.inl none
  · exact Or.inr ⟨_, _, pair, rfl, rfl, rfl, rfl, rfl⟩

theorem buildPaLedgerEntries_noneOrPair (action : PAEconomicAction) :
    NoneOrPair (buildPaLedgerEntries sha256 action) := by
  rcases buildPaLedgerEntries_cases sha256 action with none | ⟨debited, credited, amount, pair⟩
  · exact Or.inl none
  · exact Or.inr ⟨_, _, pair, rfl, rfl, rfl, rfl, rfl⟩

/-! ## Signed amounts -/

def signedAmount (entry : LedgerEntry) : Int :=
  match entry.direction with
  | .debit => entry.amountLink
  | .credit => -entry.amountLink

theorem net_eq_totals (entries : List LedgerEntry) :
    net signedAmount entries = totalOf .debit entries - totalOf .credit entries := by
  induction entries with
  | nil => rfl
  | cons entry rest ih =>
      have head : net signedAmount (entry :: rest) = signedAmount entry + net signedAmount rest :=
        net_append signedAmount [entry] rest |>.trans (by simp [net])
      rw [head, ih]
      cases direction : entry.direction with
      | debit =>
          simp only [signedAmount, totalOf, direction, List.filter_cons, decide_true, reduceCtorEq,
            decide_false, if_true, if_false, List.map_cons, List.sum_cons, Bool.false_eq_true]
          omega
      | credit =>
          simp only [signedAmount, totalOf, direction, List.filter_cons, decide_true, reduceCtorEq,
            decide_false, if_true, if_false, List.map_cons, List.sum_cons, Bool.false_eq_true]
          omega

theorem isBalanced_iff_net (entries : List LedgerEntry) :
    (verifyDoubleEntry entries).isBalanced = true ↔ net signedAmount entries = 0 := by
  rw [net_eq_totals]
  cases entries with
  | nil => simp [verifyDoubleEntry, totalOf]
  | cons entry rest => simp [verifyDoubleEntry]

theorem verifyPaDoubleEntry_iff_net (entries : List PALedgerEntry) :
    verifyPaDoubleEntry entries = true ↔ net signedAmount entries = 0 := by
  rw [net_eq_totals, verifyPaDoubleEntry, decide_eq_true_eq, sub_eq_zero]

/-! ## Postings -/

abbrev TxPosting := Posting signedAmount LedgerEntry.txHash

def pairPosting (make : Int → String → Direction → Int → LedgerEntry) (debited credited : String)
    (amount : Int) (sameTx : ∀ i i' account account' direction direction',
      (make i account direction amount).txHash = (make i' account' direction' amount).txHash)
    (faithful : ∀ i account direction,
      signedAmount (make i account direction amount) =
        match direction with
        | .debit => amount
        | .credit => -amount) : TxPosting where
  entries := bookPair make debited credited amount
  balanced := by simp [bookPair, net, faithful]
  uniform := by
    intro e member e' member'
    simp only [bookPair, List.mem_cons, List.not_mem_nil, or_false] at member member'
    rcases member with rfl | rfl <;> rcases member' with rfl | rfl <;> exact sameTx _ _ _ _ _ _

def emptyPosting : TxPosting := ⟨[], rfl, by simp⟩

theorem buildLedgerEntries_posting (action : EconomicAction) (movements : List TokenMovement) :
    ∃ posting : TxPosting, posting.entries = buildLedgerEntries sha256 action movements := by
  rcases buildLedgerEntries_cases sha256 action movements with none | ⟨debited, credited, pair⟩
  · exact ⟨emptyPosting, none.symm⟩
  · refine ⟨pairPosting (makeEntry sha256 action) debited credited action.amountLink ?_ ?_,
      pair.symm⟩
    · exact fun _ _ _ _ _ _ => rfl
    · exact fun _ _ direction => by cases direction <;> rfl

theorem buildPaLedgerEntries_posting (action : PAEconomicAction) :
    ∃ posting : TxPosting, posting.entries = buildPaLedgerEntries sha256 action := by
  rcases buildPaLedgerEntries_cases sha256 action with none | ⟨debited, credited, amount, pair⟩
  · exact ⟨emptyPosting, none.symm⟩
  · refine ⟨pairPosting (makePaEntry sha256 action) debited credited amount ?_ ?_, pair.symm⟩
    · exact fun _ _ _ _ _ _ => rfl
    · exact fun _ _ direction => by cases direction <;> rfl

theorem net_tx_group {α : Type} (book : α → List LedgerEntry)
    (posted : ∀ a, ∃ posting : TxPosting, posting.entries = book a) (actions : List α)
    (txHash : String) :
    net signedAmount ((actions.flatMap book).filter (·.txHash = txHash)) = 0 := by
  choose posting booked using posted
  have whole : actions.flatMap book = (actions.map posting).flatMap Posting.entries := by
    rw [List.flatMap_map]
    exact List.flatMap_congr fun a _ => (booked a).symm
  rw [whole]
  exact net_group _ txHash

theorem ledgerEntries_balanced (movements : EconomicAction → List TokenMovement)
    (actions : List EconomicAction) :
    ∀ check ∈ verifyDoubleEntryPerTx (ledgerEntries sha256 movements actions),
      check.isBalanced = true := by
  intro check member
  obtain ⟨group, isGroup, rfl⟩ := List.mem_map.mp member
  obtain ⟨txHash, -, rfl⟩ := Dict.mem_values_groupBy _ _ _ isGroup
  exact (isBalanced_iff_net _).mpr (net_tx_group _
    (fun action => buildLedgerEntries_posting sha256 action (movements action)) actions txHash)

theorem paLedgerEntries_balanced (actions : List PAEconomicAction) :
    ∀ group ∈ (Dict.groupBy LedgerEntry.txHash (paLedgerEntries sha256 actions)).values,
      verifyPaDoubleEntry group = true := by
  intro group isGroup
  obtain ⟨txHash, -, rfl⟩ := Dict.mem_values_groupBy _ _ _ isGroup
  exact (verifyPaDoubleEntry_iff_net _).mpr (net_tx_group _
    (buildPaLedgerEntries_posting sha256) actions txHash)

/-- Every transaction of a history balances in both ledgers, whichever actions are kept, and every
action books nothing or one pair. -/
def DoubleEntryHistory (events : List DecodedEvent) : Prop :=
  ∃ actions paActions,
    economicActions sha256 registry events = .ok actions ∧
    paEconomicActions sha256 registry events = .ok paActions ∧
    (∀ kept : List EconomicAction, kept.Sublist actions →
      ∀ movements : EconomicAction → List TokenMovement,
      (∀ check ∈ verifyDoubleEntryPerTx (ledgerEntries sha256 movements kept),
        check.isBalanced = true) ∧
      ∀ action ∈ kept, NoneOrPair (buildLedgerEntries sha256 action (movements action))) ∧
    ∀ kept : List PAEconomicAction, kept.Sublist paActions →
      (∀ group ∈ (Dict.groupBy LedgerEntry.txHash (paLedgerEntries sha256 kept)).values,
        verifyPaDoubleEntry group = true) ∧
      ∀ action ∈ kept, NoneOrPair (buildPaLedgerEntries sha256 action)

theorem history_double_entry (events : List DecodedEvent)
    (integral : ∀ ev ∈ events, IntegerAmounts ev) : DoubleEntryHistory sha256 registry events := by
  obtain ⟨actions, classified⟩ := economicActions_ok sha256 registry events integral
  obtain ⟨paActions, paClassified⟩ := paEconomicActions_ok sha256 registry events integral
  refine ⟨actions, paActions, classified, paClassified, ?_, ?_⟩
  · intro kept _ movements
    exact ⟨ledgerEntries_balanced sha256 movements kept,
      fun action _ => buildLedgerEntries_noneOrPair sha256 action (movements action)⟩
  · intro kept _
    exact ⟨paLedgerEntries_balanced sha256 kept,
      fun action _ => buildPaLedgerEntries_noneOrPair sha256 action⟩

/-- A migration between two deposits of one transaction. -/
theorem history_double_entry_migration :
    DoubleEntryHistory id (registryOf [("0xb0", "community_pool"), ("0xb1", "pa_reserves")])
      [eventAt "0xb1" "Deposited" 0 [("amount", .int 7)],
        eventAt "0xb0" "Migrated" 1 [("wallet", .str "0xAA"), ("amount", .int 50)],
        eventAt "0xb1" "Deposited" 2 [("amount", .int 9), ("from", .str "0xCC")]] :=
  history_double_entry _ _ _ (by decide)

end EconomicLedger.Ledger
