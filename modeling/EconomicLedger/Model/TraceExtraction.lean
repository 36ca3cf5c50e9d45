import EconomicLedger.Model.Extraction
import EconomicLedger.Model.TraceTree
import Mathlib.Data.String.Basic
import Mathlib.Order.WithBot

/-!
# Traces from the public dataset (`ingestion/bq/trace_extractor.py`)
-/

namespace EconomicLedger.Model
open Text

/-- A row of `crypto_ethereum.traces`: the columns that a query filters or sorts by, and those the call tree
reads. The type of `value` is left open, as the client decides it. -/
structure TracesTableRow where
  blockNumber : Int
  transactionHash : Option String
  traceAddress : Option String
  traceType : Option String
  callType : Option String
  fromAddress : Option String
  toAddress : Option String
  value : Value
  gas : Option Int
  gasUsed : Option Int
  input : Option String
  output : Option String
  error : Option String
  status : Option Int

def textColumn (column : Option String) : Value := (column.map Value.str).getD .none

def intColumn (column : Option Int) : Value := (column.map Value.int).getD .none

/-- The columns that the query for internal transfers selects, of those that the call tree reads. -/
def TracesTableRow.columns (row : TracesTableRow) : List (String × Value) :=
  [("block_number", .int row.blockNumber), ("transaction_hash", textColumn row.transactionHash),
    ("trace_address", textColumn row.traceAddress), ("call_type", textColumn row.callType),
    ("from_address", textColumn row.fromAddress), ("to_address", textColumn row.toAddress),
    ("value", row.value), ("input", textColumn row.input), ("output", textColumn row.output),
    ("error", textColumn row.error), ("status", intColumn row.status), ("gas", intColumn row.gas),
    ("gas_used", intColumn row.gasUsed)]

/-- A row with all the columns that the call tree reads. -/
def TracesTableRow.txRow (row : TracesTableRow) : TraceRow :=
  Dict.ofList (row.columns ++ [("trace_type", textColumn row.traceType)])

/-- A row of `fetch_internal_link_transfers`. -/
def TracesTableRow.internalRow (row : TracesTableRow) : TraceRow := Dict.ofList row.columns

/-- A missing value sorts first. -/
def nullsFirst {α : Type} (column : Option α) : WithBot α := column.elim ⊥ WithBot.some

/-- `ARRAY_LENGTH(SPLIT(trace_address, ',')), trace_address`. -/
def TracesTableRow.depthOrder (row : TracesTableRow) : WithBot Nat ×ₗ WithBot String :=
  toLex (nullsFirst (row.traceAddress.map fun s => (s.toList.splitOn ',').length), nullsFirst row.traceAddress)

def TracesTableRow.blockOrder (row : TracesTableRow) :
    Int ×ₗ WithBot String ×ₗ WithBot Nat ×ₗ WithBot String :=
  toLex (row.blockNumber, toLex (nullsFirst row.transactionHash, row.depthOrder))

def TracesTableRow.inRange (fromBlock toBlock : Int) (row : TracesTableRow) : Bool :=
  fromBlock ≤ row.blockNumber && row.blockNumber ≤ toBlock

/-- `STARTS_WITH(input, '0xa9059cbb') OR STARTS_WITH(input, '0x23b872dd')`. -/
def callsErc20 (row : TracesTableRow) : Bool :=
  row.input.any (startsWith · "0xa9059cbb") || row.input.any (startsWith · "0x23b872dd")

/-- The transactions whose top-level call is to one of the addresses. -/
def parentTxs (table : List TracesTableRow) (parentAddresses : List String) (fromBlock toBlock : Int) :
    List String :=
  (table.filter fun row => row.inRange fromBlock toBlock &&
    inUnnest row.toAddress (parentAddresses.map lower) && row.traceAddress = some "").filterMap
      TracesTableRow.transactionHash

/-- The rows `fetch_internal_link_transfers` selects. -/
def internalLinkTransfers (table : List TracesTableRow) (linkTokenAddress : String)
    (parentAddresses : List String) (fromBlock toBlock : Int) : List TracesTableRow :=
  (table.filter fun row => row.inRange fromBlock toBlock && row.toAddress = some (lower linkTokenAddress) &&
    row.status = some 1 && callsErc20 row &&
    inUnnest row.transactionHash (parentTxs table parentAddresses fromBlock toBlock)).insertionSort
      (·.blockOrder ≤ ·.blockOrder)

def fetchInternalLinkTransfers (table : List TracesTableRow) (linkTokenAddress : String)
    (parentAddresses : List String) (fromBlock toBlock : Int) : List TraceRow :=
  (internalLinkTransfers table linkTokenAddress parentAddresses fromBlock toBlock).map
    TracesTableRow.internalRow

end EconomicLedger.Model
