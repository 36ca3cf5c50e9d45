import EconomicLedger.Model.TraceTree

/-!
# `callTracer` output (`ingestion/rpc/client.py`, `scripts/seed_to_local.py`)

The client turns the JSON tree into a call tree directly; the seed script flattens it to trace rows
first.
-/

namespace EconomicLedger.Model
open Text

/-- A JSON node: its `calls` when it has them, and its other keys. -/
inductive CallTracerNode where
  | node (fields : Dict String Value) (calls : Option (List CallTracerNode))

namespace CallTracerNode

def fields : CallTracerNode → Dict String Value
  | node fields _ => fields

/-- `node.get("calls")`, where absent and empty are walked alike. -/
def children : CallTracerNode → List CallTracerNode
  | node _ calls => calls.getD []

end CallTracerNode

/-- `int(node.get(key, "0x0"), 16) if isinstance(node.get(key), str) else 0`. -/
def hexField (fields : Dict String Value) (key : String) : Py Int :=
  match fields.get? key with
  | some (.str s) => intBase16 s
  | _ => .ok 0

/-- `node.get(key, default)`. -/
def nodeField (fields : Dict String Value) (key : String) (default : Value) : Value :=
  (fields.get? key).getD default

/-! ## Directly -/

def traceDictFrame (fields : Dict String Value) (chainId : Int) (txHash : String)
    (traceAddress : List Int) (blockNumber : Int) : Py RawTrace := do
  let value ← hexField fields "value"
  let gas ← hexField fields "gas"
  let gasUsed ← hexField fields "gasUsed"
  return {
    chainId := chainId
    blockNumber := blockNumber
    txHash := txHash
    type := upper (nodeField fields "type" (.str "CALL")).text
    fromAddr := lower (nodeField fields "from" (.str "")).text
    toAddr :=
      if (nodeField fields "to" .none).truthy then some (lower (nodeField fields "to" .none).text)
      else none
    value := value
    gas := gas
    gasUsed := gasUsed
    inputData := (nodeField fields "input" (.str "0x")).text
    output := (nodeField fields "output" (.str "0x")).text
    error := (nodeField fields "error" .none).optionalText
    revertReason := (nodeField fields "revertReason" .none).optionalText
    calls := []
    traceAddress := traceAddress }

mutual
def traceDictToRawTrace (chainId : Int) (txHash : String) (traceAddress : List Int)
    (blockNumber : Int) : CallTracerNode → Py RawTrace
  | .node fields none => traceDictFrame fields chainId txHash traceAddress blockNumber
  | .node fields (some children) => do
      let frame ← traceDictFrame fields chainId txHash traceAddress blockNumber
      let calls ← traceDictsToRawTraces chainId txHash traceAddress blockNumber 0 children
      return { frame with calls := calls }
def traceDictsToRawTraces (chainId : Int) (txHash : String) (traceAddress : List Int)
    (blockNumber : Int) (i : Nat) : List CallTracerNode → Py (List RawTrace)
  | [] => .ok []
  | child :: rest => do
      let first ← traceDictToRawTrace chainId txHash (traceAddress ++ [(i : Int)]) blockNumber child
      let others ← traceDictsToRawTraces chainId txHash traceAddress blockNumber (i + 1) rest
      return first :: others
end

/-! ## Through flat rows -/

/-- `(node.get("to") or "").lower() if node.get("to") else None`. -/
def toAddressColumn (fields : Dict String Value) : Py Value :=
  if (nodeField fields "to" .none).truthy then
    ((nodeField fields "to" .none).orElse (.str "")).lowered.map Value.str
  else .ok .none

def flatRow (fields : Dict String Value) (subtraces : Nat) (txHash : String)
    (blockNumber chainId : Int) (addr : List Int) (parentFailed : Bool) : Py TraceRow := do
  let callType ← ((nodeField fields "type" .none).orElse (.str "CALL")).lowered
  let fromAddress ← ((nodeField fields "from" .none).orElse (.str "")).lowered
  let toAddress ← toAddressColumn fields
  let value ← hexField fields "value"
  let gas ← hexField fields "gas"
  let gasUsed ← hexField fields "gasUsed"
  let error := nodeField fields "error" .none
  return Dict.ofList [
    ("transaction_hash", .str txHash),
    ("block_number", .int blockNumber),
    ("chain_id", .int chainId),
    ("trace_address", .str (serializeTraceAddress addr)),
    ("call_type", .str callType),
    ("from_address", .str fromAddress),
    ("to_address", toAddress),
    ("value", .int value),
    ("gas", .int gas),
    ("gas_used", .int gasUsed),
    ("input", nodeField fields "input" (.str "0x")),
    ("output", nodeField fields "output" (.str "0x")),
    ("error", error),
    ("status", .int (if error.truthy || parentFailed then 0 else 1)),
    ("subtraces", .int subtraces)]

/-- `parent_failed or err is not None`. -/
def failedBelow (fields : Dict String Value) (parentFailed : Bool) : Bool :=
  parentFailed || !(nodeField fields "error" .none).isNone

mutual
def traceNodeToFlatRows (txHash : String) (blockNumber chainId : Int) (addr : List Int)
    (parentFailed : Bool) : CallTracerNode → Py (List TraceRow)
  | .node fields none => do
      let row ← flatRow fields 0 txHash blockNumber chainId addr parentFailed
      return [row]
  | .node fields (some children) => do
      let row ← flatRow fields children.length txHash blockNumber chainId addr parentFailed
      let below ← traceNodesToFlatRows txHash blockNumber chainId addr
        (failedBelow fields parentFailed) 0 children
      return row :: below
def traceNodesToFlatRows (txHash : String) (blockNumber chainId : Int) (addr : List Int)
    (failed : Bool) (i : Nat) : List CallTracerNode → Py (List TraceRow)
  | [] => .ok []
  | child :: rest => do
      let first ← traceNodeToFlatRows txHash blockNumber chainId (addr ++ [(i : Int)]) failed child
      let others ← traceNodesToFlatRows txHash blockNumber chainId addr failed (i + 1) rest
      return first ++ others
end

end EconomicLedger.Model
