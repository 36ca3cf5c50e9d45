import EconomicLedger.Ledger.DoubleEntry
import EconomicLedger.Lib.Relational

/-!
# Inflow to the reserves

A swap credits the reserves with its output, and the deposit of the same amount credits the contract
it was logged at, which is the reserves again.
-/

namespace EconomicLedger.Ledger
open Model Text Relational

variable (sha256 : Digest)

/-! ## What is announced -/

def isReserves (account : String) : Bool := startsWith account "pa_reserves:"

/-- The quantity summed as `link_inflow`. -/
def linkInflow (entries : List PALedgerEntry) : Int :=
  totalOf .credit (entries.filter fun e => isReserves e.account)

def contractAccount (action : PAEconomicAction) : String :=
  action.contractRole ++ ":" ++ action.contractAddress

def depositAmount (action : PAEconomicAction) : Int :=
  if action.outputAmount = 0 then action.sourceAmount else action.outputAmount

def landed (actions : List PAEconomicAction) : List Int :=
  (actions.filter (·.kind = .swapExecuted)).map PAEconomicAction.outputAmount

def deposited (actions : List PAEconomicAction) : List Int :=
  (actions.filter (·.kind = .reservesDeposit)).map depositAmount

/-- Every amount that lands through a swap has a deposit of its own. -/
structure AnnouncedTwice (actions : List PAEconomicAction) : Prop where
  oneTx : ∃ chainId txHash, ∀ action ∈ actions, action.chainId = chainId ∧ action.txHash = txHash
  amounts : ∀ x ∈ landed actions, 0 ≤ x
  deposits : (landed actions).Subperm (deposited actions)

/-- What an action other than a swap brings to a reserves account. -/
def besideSwaps (action : PAEconomicAction) : Int :=
  if (action.outputAmount ≤ 0 ∧ action.sourceAmount ≤ 0) ∨ isReserves (contractAccount action) = false then 0
  else
    match action.kind with
    | .feeReceived => action.sourceAmount
    | .reservesDeposit => depositAmount action
    | _ => 0

/-! ## What is credited -/

theorem linkInflow_append (left right : List PALedgerEntry) :
    linkInflow (left ++ right) = linkInflow left + linkInflow right := by
  simp only [linkInflow, totalOf, List.filter_append, List.map_append, List.sum_append]

theorem linkInflow_pair (action : PAEconomicAction) (debited credited : String) (amount : Int) :
    linkInflow (bookPair (makePaEntry sha256 action) debited credited amount) =
      if isReserves credited = true then amount else 0 := by
  cases debit : isReserves debited <;> cases credit : isReserves credited <;>
    simp [linkInflow, bookPair, totalOf, makePaEntry, debit, credit]

theorem isReserves_swap (token : String) : isReserves ("pa_reserves:" ++ token) = true := by
  rw [isReserves, startsWith, String.toList_append]
  rfl

theorem isReserves_forwarded (counterparty : String) :
    isReserves ("forwarded_to:" ++ counterparty) = false := by
  rw [isReserves, startsWith, String.toList_append]
  rfl

theorem linkInflow_action (action : PAEconomicAction)
    (amount : action.kind = .swapExecuted → 0 ≤ action.outputAmount) :
    linkInflow (buildPaLedgerEntries sha256 action) =
      (if action.kind = .swapExecuted then action.outputAmount else 0) + besideSwaps action := by
  by_cases nothing : action.outputAmount ≤ 0 ∧ action.sourceAmount ≤ 0
  · have unbooked : buildPaLedgerEntries sha256 action = [] :=
      buildPaLedgerEntries_unbooked sha256 action fun books => by
        obtain ⟨-, positive⟩ := books
        omega
    have swapped : (if action.kind = .swapExecuted then action.outputAmount else 0) = 0 := by
      split
      next swap => exact le_antisymm nothing.1 (amount swap)
      next => rfl
    rw [unbooked, swapped, besideSwaps, if_pos (Or.inl nothing)]
    rfl
  · unfold buildPaLedgerEntries besideSwaps
    rw [if_neg nothing]
    simp only [nothing, false_or]
    cases kind : action.kind with
    | configChanged => simp [linkInflow, totalOf]
    | feeReceived =>
        change linkInflow (bookPair (makePaEntry sha256 action) _ (contractAccount action) _) = _
        rw [linkInflow_pair]
        cases isReserves (contractAccount action) <;> simp
    | swapExecuted =>
        change linkInflow (bookPair (makePaEntry sha256 action) _ _ _) = _
        rw [linkInflow_pair, isReserves_swap]
        simp
    | reservesDeposit =>
        change linkInflow (bookPair (makePaEntry sha256 action) _ (contractAccount action)
          (depositAmount action)) = _
        rw [linkInflow_pair]
        cases isReserves (contractAccount action) <;> simp
    | serviceFeeForwarded =>
        change linkInflow (bookPair (makePaEntry sha256 action) _ _ _) = _
        rw [linkInflow_pair, isReserves_forwarded]
        simp

theorem linkInflow_actions (actions : List PAEconomicAction) (amounts : ∀ x ∈ landed actions, 0 ≤ x) :
    linkInflow (paLedgerEntries sha256 actions) =
      (landed actions).sum + (actions.map besideSwaps).sum := by
  have swaps : (landed actions).sum =
      (actions.map fun action => if action.kind = .swapExecuted then action.outputAmount else 0).sum := by
    rw [landed, sum_where]
    simp only [decide_eq_true_eq]
  have each (action : PAEconomicAction) (member : action ∈ actions) :
      linkInflow (buildPaLedgerEntries sha256 action) =
        (if action.kind = .swapExecuted then action.outputAmount else 0) + besideSwaps action := by
    apply linkInflow_action sha256 action
    intro swap
    exact amounts _ (List.mem_map_of_mem (List.mem_filter.mpr ⟨member, decide_eq_true swap⟩))
  rw [swaps, ← List.sum_map_add]
  clear swaps amounts
  induction actions with
  | nil => rfl
  | cons action rest ih =>
      have tail := ih fun other member => each other (List.mem_cons_of_mem _ member)
      rw [paLedgerEntries, List.flatMap_cons, linkInflow_append, ← paLedgerEntries, tail,
        each action List.mem_cons_self, List.map_cons, List.sum_cons]

/-! ## The reserve inflow -/

/-- The inflow of the swaps is credited once exactly where no other action credits the reserves. -/
theorem reserve_inflow_once_iff (actions : List PAEconomicAction) (announced : AnnouncedTwice actions) :
    linkInflow (paLedgerEntries sha256 actions) = (landed actions).sum ↔
      (actions.map besideSwaps).sum = 0 := by
  rw [linkInflow_actions sha256 actions announced.amounts]
  exact add_eq_left

theorem reserve_inflow_doubled (actions : List PAEconomicAction) (announced : AnnouncedTwice actions)
    (paired : (deposited actions).Perm (landed actions))
    (atReserves : ∀ action ∈ actions, action.kind = .reservesDeposit →
      isReserves (contractAccount action) = true)
    (feesElsewhere : ∀ action ∈ actions, action.kind = .feeReceived →
      isReserves (contractAccount action) = false) :
    linkInflow (paLedgerEntries sha256 actions) = 2 * (landed actions).sum := by
  have deposits : (actions.map besideSwaps).sum = (deposited actions).sum := by
    rw [deposited, sum_where]
    apply congrArg List.sum
    apply List.map_congr_left
    intro action member
    cases kind : action.kind with
    | reservesDeposit =>
        have landedHere : depositAmount action ∈ landed actions :=
          paired.mem_iff.mp (List.mem_map_of_mem (List.mem_filter.mpr ⟨member, decide_eq_true kind⟩))
        have amount := announced.amounts _ landedHere
        have unbooked (nothing : action.outputAmount ≤ 0 ∧ action.sourceAmount ≤ 0) :
            depositAmount action = 0 := by
          unfold depositAmount at amount ⊢
          split at amount <;> omega
        by_cases nothing : action.outputAmount ≤ 0 ∧ action.sourceAmount ≤ 0
        · simp [besideSwaps, nothing, unbooked nothing]
        · simp [besideSwaps, nothing, atReserves action member kind, kind]
    | feeReceived => simp [besideSwaps, feesElsewhere action member kind]
    | swapExecuted | serviceFeeForwarded | configChanged => simp [besideSwaps, kind]
  rw [linkInflow_actions sha256 actions announced.amounts, deposits, paired.sum_eq]
  omega

def paActionAt (role : String) (kind : PAActionKind) (outputAmount : Int) : PAEconomicAction :=
  { actionId := role
    kind := kind
    chainId := 1
    blockNumber := 100
    txHash := "0x01"
    logIndex := 0
    contractAddress := "0xb1"
    contractRole := role
    sourceToken := none
    outputToken := some "0xc1"
    sourceAmount := 0
    outputAmount := outputAmount
    counterparty := none
    sourceEventSignature := ""
    rawLogId := ""
    decodedEventId := "" }

theorem reserve_inflow_once_elsewhere :
    linkInflow (paLedgerEntries id [paActionAt "pa_swap_automator" .swapExecuted 5,
      paActionAt "pa_swap_automator" .reservesDeposit 5]) = 5 := by
  have announced : AnnouncedTwice [paActionAt "pa_swap_automator" .swapExecuted 5,
      paActionAt "pa_swap_automator" .reservesDeposit 5] :=
    ⟨⟨1, "0x01", by decide⟩, by decide, by decide⟩
  exact (reserve_inflow_once_iff id _ announced).mpr (by decide +kernel)

/-- One swap and its deposit at the reserves. -/
theorem reserve_inflow_twice :
    AnnouncedTwice [paActionAt "pa_swap_automator" .swapExecuted 5,
        paActionAt "pa_reserves" .reservesDeposit 5] ∧
      linkInflow (paLedgerEntries id [paActionAt "pa_swap_automator" .swapExecuted 5,
        paActionAt "pa_reserves" .reservesDeposit 5]) = 10 ∧
      (landed [paActionAt "pa_swap_automator" .swapExecuted 5,
        paActionAt "pa_reserves" .reservesDeposit 5]).sum = 5 :=
  ⟨⟨⟨1, "0x01", by decide⟩, by decide, by decide⟩, by decide +kernel, by decide +kernel⟩

end EconomicLedger.Ledger
