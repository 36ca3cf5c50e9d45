import EconomicLedger.Model.EventDecoder

/-!
# Extraction from the public dataset (`ingestion/bq/log_extractor.py`)

A query is a filter on the rows of a table, whose order is not fixed. A comparison with a missing value does
not hold.
-/

namespace EconomicLedger.Model
open Text

/-- A row of `crypto_ethereum.logs`. -/
structure LogTableRow where
  blockNumber : Int
  blockHash : Option String
  transactionHash : String
  transactionIndex : Option Int
  logIndex : Option Int
  address : Option String
  topics : List String
  data : Option String

/-- `str(value)` of a column that may be missing. -/
def columnText (value : Option String) : String := value.getD "None"

def bqRowToRawLog (row : LogTableRow) (chainId : Int) : RawLog :=
  { chainId := chainId
    blockNumber := row.blockNumber
    blockHash := columnText row.blockHash
    txHash := lower row.transactionHash
    txIndex := row.transactionIndex.getD 0
    logIndex := row.logIndex.getD 0
    address := lower (columnText row.address)
    topics := row.topics
    data := columnText row.data }

/-- `value IN UNNEST(values)`. -/
def inUnnest (value : Option String) (values : List String) : Bool := value.any fun v => v ∈ values

def inRange (fromBlock toBlock : Int) (row : LogTableRow) : Bool :=
  fromBlock ≤ row.blockNumber && row.blockNumber ≤ toBlock

/-- `topics[SAFE_OFFSET(0)] IN UNNEST(@topic0s)`, where there is such a predicate. -/
def hasTopic0 (topic0s : Option (List String)) (row : LogTableRow) : Bool :=
  match topic0s with
  | none => true
  | some sigs => inUnnest row.topics[0]? sigs

def fetchLogsByAddress (table : List LogTableRow) (chainId : Int) (addresses : List String)
    (fromBlock toBlock : Int) (topic0s : Option (List String)) : List RawLog :=
  (table.filter fun row => inRange fromBlock toBlock row && inUnnest row.address (addresses.map lower) &&
    hasTopic0 topic0s row).map (bqRowToRawLog · chainId)

/-- `CONCAT('0x', SUBSTR(topics[SAFE_OFFSET(i)], 27))`. -/
def topicAddress (topics : List String) (i : Nat) : Option String :=
  topics[i]?.map fun topic => "0x" ++ sliceFrom topic 26

def touchesCounterparty (counterparties topics : List String) : Bool :=
  inUnnest (topicAddress topics 1) (counterparties.map lower) ||
    inUnnest (topicAddress topics 2) (counterparties.map lower)

def fetchLinkTransferLogs (table : List LogTableRow) (chainId : Int) (linkTokenAddress : String)
    (counterpartyAddresses : List String) (fromBlock toBlock : Int) : List RawLog :=
  (table.filter fun row => inRange fromBlock toBlock row && row.address = some (lower linkTokenAddress) &&
    row.topics[0]? = some erc20TransferTopic0 && touchesCounterparty counterpartyAddresses row.topics).map
      (bqRowToRawLog · chainId)

end EconomicLedger.Model
