import EconomicLedger.Lib.Fallible
import EconomicLedger.Model.Matcher
import EconomicLedger.Model.PaymentAbstraction
import EconomicLedger.Model.Rollups

/-!
# PA rows of the seed (`scripts/seed_to_local.py`, `protocols/payment_abstraction/semantics.py`)

The seed books Payment Abstraction from the LINK transfers that reach its contracts.
-/

namespace EconomicLedger.Model
open Text Fallible

def paReservesAddress : String := "0x5680681ed3767b96914ce741a308155c7fb9171d"

def paFeeAggregatorAddress : String := "0xd6e39d42acee7abcc460e6ea78a0844a0980e78f"

def paSwapAutomatorAddress : String := "0x36e827ba2b270535ca1b099a6ba2b280ddc0315e"

def paRoleOf (address : String) : Option String :=
  let addr := lower address
  if addr = paReservesAddress then some "pa_reserves"
  else if addr = paFeeAggregatorAddress then some "pa_fee_aggregator"
  else if addr = paSwapAutomatorAddress then some "pa_swap_automator"
  else none

/-- The action kind and the role by the receiver of a LINK transfer. -/
def paReceiver (toAddr : String) : Option (PAActionKind × String) :=
  if toAddr = paReservesAddress then some (.reservesDeposit, "pa_reserves")
  else if toAddr = paFeeAggregatorAddress then some (.feeReceived, "pa_fee_aggregator")
  else if toAddr = paSwapAutomatorAddress then some (.serviceFeeForwarded, "pa_swap_automator")
  else none

/-- `str(ev.indexed_params.get(key, "")).lower()`. -/
def transferParty (ev : DecodedEvent) (key : String) : String :=
  lower ((ev.indexedParams.get? key).getD (.str "")).text

variable (sha256 : Digest)

def synthesizedAction (ev : DecodedEvent) (kind : PAActionKind) (role : String) (amount : Int) :
    PAEconomicAction :=
  { actionId := sha256 (joinBar ["pa_action", ev.decodedEventId, kind.value])
    kind := kind
    chainId := ev.chainId
    blockNumber := ev.blockNumber
    txHash := lower ev.txHash
    logIndex := ev.logIndex
    contractAddress := transferParty ev "to"
    contractRole := role
    sourceToken := some linkTokenAddress
    outputToken := some linkTokenAddress
    sourceAmount := amount
    outputAmount := amount
    counterparty := some (transferParty ev "from")
    sourceEventSignature := ev.eventSignature
    rawLogId := ev.rawLogId
    decodedEventId := ev.decodedEventId }

def synthesizeStep (ev : DecodedEvent) : Py (List PAEconomicAction) := do
  let amount ← ((ev.dataParams.get? "value").getD (.int 0)).toInt
  if amount ≤ 0 then return []
  else
    match paReceiver (transferParty ev "to") with
    | some (kind, role) => return [synthesizedAction sha256 ev kind role amount]
    | none => return []

def synthesizePaActionsFromLinkTransfers (linkTransferEvents : List DecodedEvent) :
    Py (List PAEconomicAction) :=
  flatMapM (synthesizeStep sha256) linkTransferEvents

/-! ## Edges -/

structure EdgeRow where
  edgeId : String
  actionId : String
  movementId : String
  allocatedAmount : Int
  status : String
  method : String
  reason : String
  chainId : Int
  blockNumber : Int
  txHash : String
  runPartitionId : String
deriving Repr, DecidableEq

def paEdgeRow (action : PAEconomicAction) (runPartitionId : String) (idParts : List String)
    (movementId : String) (allocatedAmount : Int) (status : Status) (method reason : String) : EdgeRow :=
  { edgeId := sha256 (joinBar ("pa_edge" :: action.actionId :: idParts))
    actionId := action.actionId
    movementId := movementId
    allocatedAmount := allocatedAmount
    status := status.value
    method := method
    reason := reason
    chainId := action.chainId
    blockNumber := action.blockNumber
    txHash := lower action.txHash
    runPartitionId := runPartitionId }

/-- `action.output_amount or action.source_amount`. -/
def PAEconomicAction.target (action : PAEconomicAction) : Int :=
  if action.outputAmount = 0 then action.sourceAmount else action.outputAmount

def paCandidates (action : PAEconomicAction) (movements : List TokenMovement) : List TokenMovement :=
  movements.filter fun m => lower m.txHash = lower action.txHash ∧ m.amount = action.target

def paEdgeRows (action : PAEconomicAction) (movements : List TokenMovement) (runPartitionId : String) :
    List EdgeRow :=
  if action.kind = .configChanged ∨ action.target = 0 then
    [paEdgeRow sha256 action runPartitionId ["not_expected"] "" 0 .notExpected ""
      (action.kind.value ++ " has no expected movement")]
  else
    match paCandidates action movements with
    | [] =>
        [paEdgeRow sha256 action runPartitionId ["unmatched"] "" 0 .unmatched ""
          "no PA movement with matching amount"]
    | m :: _ =>
        let method := if m.sourcePriority = .log then "event_log" else "trace"
        [paEdgeRow sha256 action runPartitionId [m.movementId, "exact"] m.movementId m.amount .exact method
          "PA action amount matches token movement"]

end EconomicLedger.Model
