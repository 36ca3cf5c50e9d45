import EconomicLedger.Model.TraceDecoder
import Mathlib.Data.List.Lex
import Mathlib.Data.List.Sort
import Mathlib.Data.Prod.Lex

/-!
# Call trees from flat trace rows (`decoder/trace_tree.py`)

The `calls` lists that `build_call_tree` fills are shared mutable objects. They are modelled by a
dictionary under the address of their owner, which is how `by_addr` holds the owner.
-/

namespace EconomicLedger.Model
open Text

/-- A trace row, read as a Python dictionary. -/
abbrev TraceRow := Dict String Value

def TraceRow.field (row : TraceRow) (key : String) : Value := (row.get? key).getD .none

def TraceRow.fieldOr (row : TraceRow) (key : String) (default : Value) : Value :=
  (row.get? key).getD default

/-! ## Trace addresses as text -/

/-- `s.split(",")`, without the empty parts. -/
def commaParts (s : String) : List (List Char) := (s.toList.splitOn ',').filter (· ≠ [])

def parseTraceAddress : Value → Py (List Int)
  | .none => .ok []
  | .str s =>
      if s = "" then .ok [] else (commaParts s).mapM fun part => (Value.str (String.ofList part)).toInt
  | .seq vs => vs.mapM Value.toInt
  | v => .error (.typeError ("trace_address must be str|list|None, got " ++ v.typeName))

def serializeTraceAddress (addr : List Int) : String := ",".intercalate (addr.map toString)

/-! ## Rows -/

/-- `int(v)` for a `value` column: a missing one is 0, a number is kept, text is parsed. -/
def valueColumn : Value → Py Int
  | .none => .ok 0
  | .int n => .ok n
  | .bool b => .ok (if b then 1 else 0)
  | v => (Value.str v.text).toInt

/-- The error and revert reason of a row; status 0 without an error is a revert. -/
def rowFailure (row : TraceRow) : Py (Option String × Option String) :=
  let error := (row.field "error").optionalText
  let status := row.field "status"
  if error = none then
    if status.isNone then .ok (none, none)
    else do
      let code ← status.toInt
      if code = 0 then return (some "reverted", some "status=0") else return (none, none)
  else .ok (error, error)

def rowToAddr (row : TraceRow) : Option String :=
  if (row.field "to_address").truthy then some (lower (row.field "to_address").text)
  else if (row.field "to_addr").truthy then some (lower (row.field "to_addr").text)
  else none

/-- The chain the caller names, else the row's own. -/
def rowChainId (chainId : Option Int) (row : TraceRow) : Py Int :=
  match chainId with
  | some chain => .ok chain
  | none => (row.fieldOr "chain_id" (.int 1)).toInt

def rowToRawTrace (chainId : Option Int) (row : TraceRow) : Py RawTrace := do
  let addr ← parseTraceAddress (row.field "trace_address")
  let callType := (((row.field "call_type").orElse (row.field "type")).orElse
    (row.field "trace_type")).orElse (.str "call")
  let (error, revertReason) ← rowFailure row
  let value ← valueColumn (row.field "value")
  let blockNumber ← (row.fieldOr "block_number" (.int 0)).toInt
  let chain ← rowChainId chainId row
  let gas ← (row.fieldOr "gas" (.int 0)).toInt
  let gasUsed ← (row.fieldOr "gas_used" (.int 0)).toInt
  return {
    chainId := chain
    blockNumber := blockNumber
    txHash := lower ((row.field "transaction_hash").orElse (row.fieldOr "tx_hash" (.str ""))).text
    type := upper callType.text
    fromAddr := lower ((row.field "from_address").orElse (row.fieldOr "from_addr" (.str ""))).text
    toAddr := rowToAddr row
    value := value
    gas := gas
    gasUsed := gasUsed
    inputData := (((row.field "input").orElse (row.field "input_data")).orElse (.str "0x")).text
    output := ((row.field "output").orElse (.str "0x")).text
    error := error
    revertReason := revertReason
    calls := []
    traceAddress := addr }

/-! ## Building the tree -/

/-- The root found so far and the `calls` lists filled so far. -/
structure Attached where
  root : Option RawTrace
  calls : Dict String (List RawTrace)

def attach (byAddr : Dict String RawTrace) (state : Attached) (t : RawTrace) : Py Attached :=
  if t.traceAddress = [] then
    match state.root with
    | some _ => .error (.valueError "build_call_tree: more than one root")
    | none => .ok { state with root := some t }
  else
    let parentAddr := serializeTraceAddress t.traceAddress.dropLast
    match byAddr.get? parentAddr with
    | none => .error (.valueError
        ("build_call_tree: missing parent for trace_address " ++ serializeTraceAddress t.traceAddress ++
          " (expected parent at " ++ reprText parentAddr ++ ")"))
    | some _ => .ok { state with calls := state.calls.upsert parentAddr fun o => o.getD [] ++ [t] }

def RawTrace.depthKey (t : RawTrace) : Nat ×ₗ List Int := toLex (t.traceAddress.length, t.traceAddress)

def RawTrace.lastComponent (t : RawTrace) : Int := t.traceAddress.getLast?.getD 0

/-- The object a node has become, with its `calls` sorted and so on below it. A call is one
component deeper than its owner, so the longest address bounds the recursion. -/
def sortRecursive (calls : Dict String (List RawTrace)) : Nat → RawTrace → RawTrace
  | 0, node => node
  | depth + 1, node =>
      { node with
        calls := (((calls.get? (serializeTraceAddress node.traceAddress)).getD []).insertionSort
          (·.lastComponent ≤ ·.lastComponent)).map (sortRecursive calls depth) }

def longestAddress (traces : List RawTrace) : Nat :=
  (traces.map fun t => t.traceAddress.length).foldr max 0

def buildCallTree (rows : List TraceRow) (chainId : Option Int) : Py RawTrace :=
  if rows = [] then .error (.valueError "build_call_tree: rows is empty")
  else do
    let rawTraces ← rows.mapM (rowToRawTrace chainId)
    let txHashes := (rawTraces.map RawTrace.txHash).dedup
    let byAddr := Dict.ofList (rawTraces.map fun t => (serializeTraceAddress t.traceAddress, t))
    if 1 < txHashes.length then
      -- a set has no order of its own: the message lists the hashes in one of its orders
      .error (.valueError ("build_call_tree: mixed tx hashes \x7b" ++
        ", ".intercalate (txHashes.map reprText) ++ "\x7d"))
    else if byAddr.entries.length ≠ rawTraces.length then
      .error (.valueError "build_call_tree: duplicate trace_address values")
    else do
      let sortedTraces := rawTraces.insertionSort (·.depthKey ≤ ·.depthKey)
      let attached ← sortedTraces.foldlM (attach byAddr) { root := none, calls := Dict.empty }
      match attached.root with
      | none => .error (.valueError "build_call_tree: no root row (trace_address='')")
      | some root => .ok (sortRecursive attached.calls (longestAddress rawTraces + 1) root)

mutual
def flattenCallTree : RawTrace → List RawTrace
  | node@⟨_, _, _, _, _, _, _, _, _, _, _, _, _, calls, _⟩ => node :: flattenCalls calls
def flattenCalls : List RawTrace → List RawTrace
  | [] => []
  | child :: rest => flattenCallTree child ++ flattenCalls rest
end

end EconomicLedger.Model
