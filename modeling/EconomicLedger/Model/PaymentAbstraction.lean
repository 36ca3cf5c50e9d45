import EconomicLedger.Model.Staking

/-!
# Payment Abstraction (`protocols/payment_abstraction/semantics.py`, `ledger_builder.py`)

The PA entry and direction classes have the fields and values of their staking namesakes, whose
types are used for them.
-/

namespace EconomicLedger.Model
open Text

inductive PAActionKind where
  | feeReceived
  | swapExecuted
  | reservesDeposit
  | serviceFeeForwarded
  | configChanged
deriving Repr, DecidableEq

def PAActionKind.value : PAActionKind → String
  | .feeReceived => "pa_fee_received"
  | .swapExecuted => "pa_swap_executed"
  | .reservesDeposit => "pa_reserves_deposit"
  | .serviceFeeForwarded => "pa_service_fee_forwarded"
  | .configChanged => "pa_config_changed"

def paEventNameToKind : List (String × PAActionKind) :=
  [("FeeReceived", .feeReceived), ("FeesReceived", .feeReceived), ("FeeAggregated", .feeReceived),
    ("SwapExecuted", .swapExecuted), ("Swap", .swapExecuted),
    ("Deposited", .reservesDeposit), ("ReservesDeposit", .reservesDeposit),
    ("Withdrawn", .reservesDeposit),
    ("ServiceFeeForwarded", .serviceFeeForwarded), ("Forwarded", .serviceFeeForwarded),
    ("ConfigSet", .configChanged), ("ConfigUpdated", .configChanged)]

structure PAEconomicAction where
  actionId : String
  kind : PAActionKind
  chainId : Int
  blockNumber : Int
  txHash : String
  logIndex : Int
  contractAddress : String
  contractRole : String
  sourceToken : Option String
  outputToken : Option String
  sourceAmount : Int
  outputAmount : Int
  counterparty : Option String
  sourceEventSignature : String
  rawLogId : String
  decodedEventId : String
deriving Repr, DecidableEq

variable (sha256 : Digest)

def computePaActionId (decoded : DecodedEvent) (kind : PAActionKind) : String :=
  sha256 (joinBar ["pa_action", decoded.decodedEventId, kind.value])

/-- `indexed.get(n) or data.get(n)`: a false indexed value gives way to the data value. -/
def truthyOr (first second : Option Value) : Option Value :=
  match first with
  | some value => if value.truthy then some value else second
  | none => second

def pullToken (decoded : DecodedEvent) (names : List String) : Option String :=
  names.findSome? fun n =>
    match truthyOr (decoded.indexedParams.get? n) (decoded.dataParams.get? n) with
    | some .none => none
    | found => found.map fun value => lower value.text

/-- For every name, the indexed parameter and then the data parameter. -/
def nameMajor (decoded : DecodedEvent) (names : List String) : List (Dict String Value × String) :=
  names.flatMap fun n => [(decoded.indexedParams, n), (decoded.dataParams, n)]

def pullAmount (decoded : DecodedEvent) (names : List String) : Py Int :=
  match firstPresent (nameMajor decoded names) with
  | some value => value.toInt
  | none => .ok 0

def sourceAmountNames : List String := ["sourceAmount", "amountIn", "amount", "value"]

def outputAmountNames : List String := ["outputAmount", "amountOut", "linkAmount"]

/-- An output amount of zero is read as a missing one. -/
def classifyPaEventAsAction (decoded : DecodedEvent) (registry : ContractRegistry) :
    Py (List PAEconomicAction) :=
  let role := orText (registry.role decoded.contractAddress) ""
  if startsWith role "pa_" then
    match paEventNameToKind.lookup decoded.eventName with
    | none => .ok []
    | some kind => do
        let sourceAmount ← pullAmount decoded sourceAmountNames
        let outputAmount ← pullAmount decoded outputAmountNames
        let outputAmount := if outputAmount = 0 then sourceAmount else outputAmount
        return [{
          actionId := computePaActionId sha256 decoded kind
          kind := kind
          chainId := decoded.chainId
          blockNumber := decoded.blockNumber
          txHash := decoded.txHash
          logIndex := decoded.logIndex
          contractAddress := decoded.contractAddress
          contractRole := role
          sourceToken := pullToken decoded ["sourceToken", "tokenIn", "token"]
          outputToken := pullToken decoded ["outputToken", "tokenOut", "linkToken"]
          sourceAmount := sourceAmount
          outputAmount := outputAmount
          counterparty := pullToken decoded ["from", "sender", "to", "recipient", "depositor"]
          sourceEventSignature := decoded.eventSignature
          rawLogId := decoded.rawLogId
          decodedEventId := decoded.decodedEventId }]
  else .ok []

/-! ## Ledger entries -/

abbrev PALedgerEntry := LedgerEntry

def computePaLedgerEntryId (actionId : String) (entryIndex : Int) : String :=
  sha256 (joinBar ["pa_ledger_entry", actionId, toString entryIndex])

def makePaEntry (action : PAEconomicAction) (idx : Int) (account : String) (direction : Direction)
    (amount : Int) : PALedgerEntry :=
  { entryId := computePaLedgerEntryId sha256 action.actionId idx
    actionId := action.actionId
    entryIndex := idx
    account := account
    direction := direction
    amountLink := amount
    chainId := action.chainId
    blockNumber := action.blockNumber
    txHash := action.txHash }

def buildPaLedgerEntries (action : PAEconomicAction) : List PALedgerEntry :=
  if action.kind = .configChanged then []
  else if action.outputAmount ≤ 0 ∧ action.sourceAmount ≤ 0 then []
  else
    let counterparty := orText action.counterparty "unknown"
    let contractAcct := action.contractRole ++ ":" ++ action.contractAddress
    match action.kind with
    | .feeReceived =>
        let amount := action.sourceAmount
        [makePaEntry sha256 action 0 ("service_contract:" ++ counterparty) .debit amount,
          makePaEntry sha256 action 1 contractAcct .credit amount]
    | .swapExecuted =>
        let amount := action.outputAmount
        [makePaEntry sha256 action 0 contractAcct .debit amount,
          makePaEntry sha256 action 1 ("pa_reserves:" ++ orText action.outputToken "link") .credit
            amount]
    | .reservesDeposit =>
        let amount := if action.outputAmount = 0 then action.sourceAmount else action.outputAmount
        [makePaEntry sha256 action 0 ("upstream:" ++ counterparty) .debit amount,
          makePaEntry sha256 action 1 contractAcct .credit amount]
    | .serviceFeeForwarded =>
        let amount := action.sourceAmount
        [makePaEntry sha256 action 0 contractAcct .debit amount,
          makePaEntry sha256 action 1 ("forwarded_to:" ++ counterparty) .credit amount]
    | .configChanged => []

def verifyPaDoubleEntry (entries : List PALedgerEntry) : Bool :=
  totalOf .debit entries = totalOf .credit entries

end EconomicLedger.Model
