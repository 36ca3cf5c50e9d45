import EconomicLedger.Model.CallTracer
import EconomicLedger.Model.Checks
import EconomicLedger.Model.Reconciliation
import EconomicLedger.Model.SeedToLocal

/-!
# The seed script (`scripts/seed_to_local.py`)

A fixture is the files of one transaction. Both fixtures are decoded, the rows of each table are merged,
and the merged tables are checked.
-/

namespace EconomicLedger.Model
open Text Fallible

/-! ## Fixtures -/

structure TxJson where
  hash : String
  blockNumber : String
  blockHash : String

structure BlockJson where
  hash : Option String
  parentHash : String
  timestamp : String

structure ReceiptJson where
  transactionHash : String
  transactionIndex : String
  blockNumber : String
  status : String
  gasUsed : String
  effectiveGasPrice : Option String
  cumulativeGasUsed : String

structure LogJson where
  blockNumber : String
  blockHash : String
  transactionHash : String
  transactionIndex : String
  logIndex : String
  address : String
  topics : List String
  data : String

structure Fixture where
  tx : TxJson
  block : BlockJson
  receipt : ReceiptJson
  logs : List LogJson
  trace : CallTracerNode

def loadReceipt (r : ReceiptJson) : Py Receipt := do
  let _ ← intBase16 r.blockNumber
  let _ ← intBase16 r.transactionIndex
  let status ← intBase16 r.status
  let _ ← intBase16 r.gasUsed
  if orText r.effectiveGasPrice "" ≠ "" then
    let _ ← intBase16 (orText r.effectiveGasPrice "")
  let _ ← intBase16 r.cumulativeGasUsed
  return { txHash := r.transactionHash, status := status }

def loadLog (log : LogJson) : Py RawLog := do
  let blockNumber ← intBase16 log.blockNumber
  let txIndex ← intBase16 log.transactionIndex
  let logIndex ← intBase16 log.logIndex
  return {
    chainId := 1
    blockNumber := blockNumber
    blockHash := log.blockHash
    txHash := log.transactionHash
    txIndex := txIndex
    logIndex := logIndex
    address := lower log.address
    topics := log.topics
    data := log.data }

def loadLogs (fixture : Fixture) : Py (List RawLog) := fixture.logs.mapM loadLog

def loadTrace (fixture : Fixture) : Py RawTrace := do
  let blockNumber ← intBase16 fixture.tx.blockNumber
  let rows ← traceNodeToFlatRows (lower fixture.tx.hash) blockNumber 1 [] false fixture.trace
  buildCallTree rows (some 1)

/-! ## ABIs and roles -/

def eventEntry (name : String) (inputs : List AbiInput) : AbiEntry :=
  { type := some "event", name := some name, anonymous := false, inputs := inputs }

def abiInput (name type : String) (indexed : Bool) : AbiInput := ⟨name, type, indexed, []⟩

def erc20TransferAbi : Abi where
  abiVersion := "erc20_v1"
  jsonAbi := [eventEntry "Transfer"
    [abiInput "from" "address" true, abiInput "to" "address" true, abiInput "value" "uint256" false]]

def stakingPoolAbi : Abi where
  abiVersion := "staking_pool_v02"
  jsonAbi := [eventEntry "Staked"
    [abiInput "staker" "address" true, abiInput "amount" "uint256" false,
      abiInput "newPrincipal" "uint256" false, abiInput "totalPoolPrincipal" "uint256" false]]

def feeAggregatorAbi : Abi where
  abiVersion := "pa_fee_aggregator_v1"
  jsonAbi := [eventEntry "AssetTransferredForSwap"
    [abiInput "assetReceiver" "address" true, abiInput "asset" "address" true,
      abiInput "amount" "uint256" false]]

def communityPool : String := "0xbc10f2e862ed4502144c7d632a3459f49dfcdb5e"

def stakedTopic0 : String := "0xb4caaf29adda3eefee3ad552a8e85058589bf834c7466cae4ee58787f70589ed"

def assetTransferredForSwapTopic0 : String :=
  "0xc153544804f2cfae0e8eb92d3f202c159d0caf2f5590d790a987091dc85366a0"

def stubRoles : List (String × String) :=
  [(communityPool, "community_staking_pool"), (paReservesAddress, "pa_reserves"),
    (paFeeAggregatorAddress, "pa_fee_aggregator"), (paSwapAutomatorAddress, "pa_swap_automator")]

/-- `_StubContractRegistry`, which is asked for roles only. -/
def stubContractRegistry : ContractRegistry :=
  ⟨Dict.ofList (stubRoles.map fun (address, role) =>
    (address, { contractAddress := address, role := role, deployedBlock := 0, phases := [] }))⟩

/-! ## Rows -/

structure DecodedEventRow where
  rawLogId : String
  decodedEventId : String
  chainId : Int
  blockNumber : Int
  blockHash : String
  txHash : String
  logIndex : Int
  contractAddress : String
  eventName : String
  eventSignature : String
  indexedParams : Dict String Value
  dataParams : Dict String Value
  runPartitionId : String

structure DecodedCallRow where
  rawTraceCallId : String
  chainId : Int
  blockNumber : Int
  txHash : String
  traceAddress : List Int
  contractAddress : String
  methodName : String
  methodSelector : String
  params : Dict String Value
  success : Bool
  parentSuccess : Bool
  runPartitionId : String

structure TokenMovementRow where
  movement : TokenMovement
  runPartitionId : String
deriving DecidableEq

structure BlockRow where
  chainId : Int
  blockNumber : Int
  blockHash : String
  parentHash : String
  timestamp : Int
  ingestedAt : Int
  runPartitionId : String
deriving Repr, DecidableEq

structure RawLogRow where
  chainId : Int
  blockNumber : Int
  blockHash : String
  txHash : String
  txIndex : Int
  logIndex : Int
  address : String
  topics : List String
  data : String
  ingestedAt : Int
  runPartitionId : String
deriving Repr, DecidableEq

def decodedEventRow (de : DecodedEvent) (runPartitionId : String) : DecodedEventRow :=
  { rawLogId := de.rawLogId
    decodedEventId := de.decodedEventId
    chainId := de.chainId
    blockNumber := de.blockNumber
    blockHash := ""
    txHash := lower de.txHash
    logIndex := de.logIndex
    contractAddress := lower de.contractAddress
    eventName := de.eventName
    eventSignature := de.eventSignature
    indexedParams := de.indexedParams
    dataParams := de.dataParams
    runPartitionId := runPartitionId }

def decodedCallRow (dc : DecodedCall) (runPartitionId : String) : DecodedCallRow :=
  { rawTraceCallId := dc.rawTraceCallId
    chainId := dc.chainId
    blockNumber := dc.blockNumber
    txHash := lower dc.txHash
    traceAddress := dc.traceAddress
    contractAddress := lower (orText dc.contractAddress "")
    methodName := dc.methodName
    methodSelector := dc.methodSelector
    params := dc.params
    success := dc.success
    parentSuccess := dc.parentSuccess
    runPartitionId := runPartitionId }

def movementRow (m : TokenMovement) (runPartitionId : String) : TokenMovementRow :=
  { movement := { m with
      txHash := lower m.txHash
      tokenAddress := lower m.tokenAddress
      fromAddr := lower m.fromAddr
      toAddr := lower m.toAddr }
    runPartitionId := runPartitionId }

/-- A missing wallet is written as an empty cell. -/
def stakingActionRow (a : EconomicAction) (runPartitionId : String) : EconomicActionRow :=
  { action := { a with
      txHash := lower a.txHash
      contractAddress := lower a.contractAddress
      wallet := some (lower (orText a.wallet "")) }
    runPartitionId := runPartitionId }

def edgeRow (e : ActionMovementMatch) (action : EconomicAction) (runPartitionId : String) : EdgeRow :=
  { edgeId := e.edgeId
    actionId := orText e.actionId ""
    movementId := orText e.movementId ""
    allocatedAmount := e.allocatedAmount
    status := e.status.value
    method := (e.method.map Method.value).getD ""
    reason := e.reason
    chainId := action.chainId
    blockNumber := action.blockNumber
    txHash := lower action.txHash
    runPartitionId := runPartitionId }

def ledgerRow (le : LedgerEntry) (runPartitionId : String) : LedgerEntryRow :=
  { entry := { le with txHash := lower le.txHash }, runPartitionId := runPartitionId }

def paLedgerRow (le : PALedgerEntry) (runPartitionId : String) : LedgerEntryRow :=
  ledgerRow le runPartitionId

def canonicalBlockRow (tx : TxJson) (block : BlockJson) (runPartitionId : String) : Py BlockRow := do
  let blockNumber ← intBase16 tx.blockNumber
  let timestamp ← intBase16 block.timestamp
  return {
    chainId := 1
    blockNumber := blockNumber
    blockHash := lower (block.hash.getD tx.blockHash)
    parentHash := lower block.parentHash
    timestamp := timestamp
    ingestedAt := timestamp
    runPartitionId := runPartitionId }

def rawLogRow (log : RawLog) (runPartitionId : String) : RawLogRow :=
  { chainId := log.chainId
    blockNumber := log.blockNumber
    blockHash := lower log.blockHash
    txHash := lower log.txHash
    txIndex := log.txIndex
    logIndex := log.logIndex
    address := lower log.address
    topics := log.topics
    data := log.data
    ingestedAt := 0
    runPartitionId := runPartitionId }

structure SeedTables where
  decodedEvents : List DecodedEventRow
  decodedTraceCalls : List DecodedCallRow
  linkTransfers : List RawLogRow
  canonicalBlocks : List BlockRow
  economicActions : List EconomicActionRow
  tokenMovements : List TokenMovementRow
  actionMovementEdges : List EdgeRow
  ledgerEntries : List LedgerEntryRow

/-! ## One fixture -/

inductive SeedError where
  | raised (exc : PyError)
  | runtimeError (detail : String)

def raising {α : Type} (x : Py α) : Except SeedError α := x.mapError SeedError.raised

/-- `res.decoded` where `res.success and res.decoded is not None`. -/
def DecodeResult.recovered {α : Type} (res : DecodeResult α) : Option α :=
  if res.success then res.decoded else none

/-- A decoded log: a transfer of LINK, or the event the fixture is about. -/
inductive RecoveredEvent where
  | linkTransfer (ev : DecodedEvent)
  | watched (ev : DecodedEvent)

namespace RecoveredEvent

def event : RecoveredEvent → DecodedEvent
  | linkTransfer ev => ev
  | watched ev => ev

def linkTransfer? : RecoveredEvent → Option DecodedEvent
  | linkTransfer ev => some ev
  | watched _ => none

def watched? : RecoveredEvent → Option DecodedEvent
  | linkTransfer _ => none
  | watched ev => some ev

end RecoveredEvent

/-- The event a fixture is about, by its contract, its first topic and its ABI. -/
structure WatchedEvent where
  contract : String
  topic0 : String
  abi : Abi

def stakedWatch : WatchedEvent := ⟨communityPool, stakedTopic0, stakingPoolAbi⟩

def assetTransferredForSwapWatch : WatchedEvent :=
  ⟨paFeeAggregatorAddress, assetTransferredForSwapTopic0, feeAggregatorAbi⟩

variable (sha256 : Digest) (libs : ExternalLibs)

def recoverEvent (watch : WatchedEvent) (log : RawLog) : Py (List RecoveredEvent) :=
  if lower log.address = linkTokenAddress then do
    let res ← decodeLog sha256 libs log erc20TransferAbi
    return (res.recovered.map RecoveredEvent.linkTransfer).toList
  else if lower log.address = watch.contract ∧ log.topics.head?.map lower = some watch.topic0 then do
    let res ← decodeLog sha256 libs log watch.abi
    return (res.recovered.map RecoveredEvent.watched).toList
  else return []

def recoverEvents (watch : WatchedEvent) (logs : List RawLog) : Py (List RecoveredEvent) :=
  flatMapM (recoverEvent sha256 libs watch) logs

/-- Any log that produced a decoded event, or any LINK transfer. -/
def isSeedLog (decodedEvents : List DecodedEventRow) (log : RawLog) : Bool :=
  (lower log.address = linkTokenAddress ∧ log.topics.head?.map lower = some erc20TransferTopic0) ∨
    (lower log.txHash, log.logIndex) ∈ decodedEvents.map fun de => (de.txHash, de.logIndex)

structure TokenSide where
  decodedCalls : List DecodedCall
  movements : List TokenMovement

def tokenSide (rootTrace : RawTrace) (receipt : Receipt) (linkTransferEvents : List DecodedEvent) :
    Py TokenSide := do
  let decodedCalls ← decodeTraceCalls sha256 libs rootTrace AbiRegistry.empty
  let receiptsByTx := Dict.ofList [(lower receipt.txHash, receipt)]
  let traceTokenCalls ← extractErc20TransferCalls linkTokenAddress receiptsByTx decodedCalls
  let logMovements ← buildMovementsFromTransferLogs sha256 linkTransferEvents
  let traceMovements ← buildMovementsFromTraceCalls sha256 traceTokenCalls
  return { decodedCalls := decodedCalls, movements := unifyMovements logMovements traceMovements }

/-- What both fixtures yield: events, calls, raw logs, the block and movements. -/
def sharedTables (logs : List RawLog) (recovered : List RecoveredEvent) (side : TokenSide) (block : BlockRow)
    (runPartitionId : String) : SeedTables :=
  let decodedEvents := recovered.map fun r => decodedEventRow r.event runPartitionId
  { decodedEvents := decodedEvents
    decodedTraceCalls := side.decodedCalls.map (decodedCallRow · runPartitionId)
    linkTransfers := (logs.filter (isSeedLog decodedEvents)).map (rawLogRow · runPartitionId)
    canonicalBlocks := [block]
    economicActions := []
    tokenMovements := side.movements.map (movementRow · runPartitionId)
    actionMovementEdges := []
    ledgerEntries := [] }

def stakeTables (logs : List RawLog) (recovered : List RecoveredEvent) (side : TokenSide) (block : BlockRow)
    (stakingActions : List EconomicAction) (runPartitionId : String) : SeedTables :=
  { sharedTables logs recovered side block runPartitionId with
    economicActions := stakingActions.map (stakingActionRow · runPartitionId)
    actionMovementEdges := stakingActions.flatMap fun action =>
      (matchActionToMovements sha256 action side.movements).map (edgeRow · action runPartitionId)
    ledgerEntries := stakingActions.flatMap fun action =>
      (buildLedgerEntries sha256 action side.movements).map (ledgerRow · runPartitionId) }

/-- PA actions have edges and ledger entries, but no rows among the economic actions. -/
def paTables (logs : List RawLog) (recovered : List RecoveredEvent) (side : TokenSide) (block : BlockRow)
    (paActions : List PAEconomicAction) (runPartitionId : String) : SeedTables :=
  { sharedTables logs recovered side block runPartitionId with
    actionMovementEdges := paActions.flatMap fun action =>
      paEdgeRows sha256 action side.movements runPartitionId
    ledgerEntries := paActions.flatMap fun action =>
      (buildPaLedgerEntries sha256 action).map (paLedgerRow · runPartitionId) }

def processStakeFixture (fixture : Fixture) (runPartitionId : String) : Except SeedError SeedTables := do
  let receipt ← raising (loadReceipt fixture.receipt)
  let logs ← raising (loadLogs fixture)
  let rootTrace ← raising (loadTrace fixture)
  let recovered ← raising (recoverEvents sha256 libs stakedWatch logs)
  match (recovered.filterMap RecoveredEvent.watched?).getLast? with
  | none => .error (.runtimeError "golden_stake_tx: no Staked event recovered from real logs")
  | some stakedEvent => do
      let side ← raising (tokenSide sha256 libs rootTrace receipt
        (recovered.filterMap RecoveredEvent.linkTransfer?))
      let stakingActions ← raising (classifyEventAsAction sha256 stakedEvent stubContractRegistry)
      let block ← raising (canonicalBlockRow fixture.tx fixture.block runPartitionId)
      return stakeTables sha256 logs recovered side block stakingActions runPartitionId

def processPaFixture (fixture : Fixture) (runPartitionId : String) : Except SeedError SeedTables := do
  let receipt ← raising (loadReceipt fixture.receipt)
  let logs ← raising (loadLogs fixture)
  let rootTrace ← raising (loadTrace fixture)
  let recovered ← raising (recoverEvents sha256 libs assetTransferredForSwapWatch logs)
  let linkTransferEvents := recovered.filterMap RecoveredEvent.linkTransfer?
  let side ← raising (tokenSide sha256 libs rootTrace receipt linkTransferEvents)
  let classified ← raising (flatMapM (fun ev => classifyPaEventAsAction sha256 ev stubContractRegistry)
    (recovered.filterMap RecoveredEvent.watched?))
  let synthesized ← raising (synthesizePaActionsFromLinkTransfers sha256 linkTransferEvents)
  let block ← raising (canonicalBlockRow fixture.tx fixture.block runPartitionId)
  return paTables sha256 logs recovered side block (classified ++ synthesized) runPartitionId

/-! ## Both fixtures -/

/-- `_merge`: the first row under each key, rows without a key left out. -/
def mergeRows {ρ : Type} (key : ρ → String) (stake pa : List ρ) : List ρ :=
  ((stake ++ pa).foldl (fun seen row =>
    if key row ≠ "" ∧ key row ∉ seen.keys then seen.set (key row) row else seen) Dict.empty).values

def RawLogRow.position (row : RawLogRow) : String × Int := (row.txHash, row.logIndex)

/-- Raw logs are keyed by position, and the last row is kept. -/
def mergeTables (stake pa : SeedTables) : SeedTables :=
  { decodedEvents :=
      mergeRows DecodedEventRow.decodedEventId stake.decodedEvents pa.decodedEvents
    decodedTraceCalls :=
      mergeRows DecodedCallRow.rawTraceCallId stake.decodedTraceCalls pa.decodedTraceCalls
    linkTransfers := (Dict.index RawLogRow.position (stake.linkTransfers ++ pa.linkTransfers)).values
    canonicalBlocks :=
      mergeRows (fun row => toString row.blockNumber) stake.canonicalBlocks pa.canonicalBlocks
    economicActions := mergeRows (·.action.actionId) stake.economicActions pa.economicActions
    tokenMovements := mergeRows (·.movement.movementId) stake.tokenMovements pa.tokenMovements
    actionMovementEdges :=
      mergeRows EdgeRow.edgeId stake.actionMovementEdges pa.actionMovementEdges
    ledgerEntries := mergeRows (·.entry.entryId) stake.ledgerEntries pa.ledgerEntries }

def paAccountLabels : List String := ["pa_", "upstream:", "forwarded_to:", "service_contract:"]

def knownActionIds (seeds : SeedTables) : List String :=
  seeds.economicActions.map (·.action.actionId) ++
    (seeds.ledgerEntries.filter fun r => paAccountLabels.any fun label => startsWith r.entry.account label).map
      (·.entry.actionId)

def unknownEdge (seeds : SeedTables) : Option EdgeRow :=
  seeds.actionMovementEdges.find? fun e => e.actionId ≠ "" ∧ e.actionId ∉ knownActionIds seeds

def imbalance (ledger : List LedgerEntryRow) : Option (String × Int × Int) :=
  (Dict.gather LedgerEntry.txHash addToSums Dict.empty (ledger.map LedgerEntryRow.entry)).entries.find?
    fun sums => sums.2.1 ≠ sums.2.2

/-- The CSV files are written between the two checks. -/
def checkSeeds (seeds : SeedTables) : Except SeedError SeedTables :=
  match unknownEdge seeds with
  | some e => .error (.runtimeError
      ("edge " ++ e.edgeId ++ " references unknown action_id " ++ e.actionId))
  | none =>
      match imbalance seeds.ledgerEntries with
      | some (tx, debit, credit) => .error (.runtimeError
          ("ledger imbalance for " ++ tx ++ ": debit=" ++ toString debit ++ " credit=" ++ toString credit))
      | none => .ok seeds

def seedRunPartitionId : String := "local-demo-2026-05-11"

def seedMain (stakeFixture paFixture : Fixture) : Except SeedError SeedTables := do
  let stake ← processStakeFixture sha256 libs stakeFixture seedRunPartitionId
  let pa ← processPaFixture sha256 libs paFixture seedRunPartitionId
  checkSeeds (mergeTables stake pa)

end EconomicLedger.Model
