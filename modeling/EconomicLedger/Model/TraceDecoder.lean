import EconomicLedger.Model.Calldata

/-!
# Call trees (`decoder/trace_decoder.py`, `assign_trace_addresses` of `decoder/trace_tree.py`)

`walk` is the recursive closure of `decode_trace_calls`: a node is decoded before its subcalls,
and the flag handed down is true while every frame above succeeded.
-/

namespace EconomicLedger.Model
open Text

variable (sha256 : Digest) (libs : ExternalLibs)

def computeRawTraceCallId (txHash : String) (traceAddress : List Int) : String :=
  sha256 (joinBar ["raw_trace_call", lower txHash, ",".intercalate (traceAddress.map toString)])

/-- node-level success: no error and no revert reason. -/
def RawTrace.succeeded (node : RawTrace) : Bool := node.error = none && node.revertReason = none

/-- `node.input_data or "0x"`. -/
def RawTrace.calldata (node : RawTrace) : String := if node.inputData = "" then "0x" else node.inputData

def unknownMethod : String := "<unknown>"

def registeredMethod (registry : AbiRegistry) (node : RawTrace) : Py (String × Dict String Value) :=
  match node.toAddr with
  | none => .ok (unknownMethod, Dict.empty)
  | some toAddr =>
      match registry.get (lower toAddr) node.blockNumber with
      | .error _ => .ok (unknownMethod, Dict.empty)
      | .ok abi =>
          match findMethodBySelector libs abi (extractMethodSelector node.calldata) with
          | none => .ok (unknownMethod, Dict.empty)
          | some method => do
              let result ← decodeCalldata libs node.calldata abi
              let params := (result.decoded.map DecodedCall.params).getD Dict.empty
              return (method.name.getD "<unnamed>", params)

def TokenMethod.name : TokenMethod → String
  | .transfer => "transfer"
  | .transferFrom => "transferFrom"

def Erc20Transfer.params (transfer : Erc20Transfer) : Dict String Value :=
  Dict.ofList ((transfer.fromAddr.map fun addr => ("from", Value.str addr)).toList ++
    [("to", .str transfer.toAddr), ("amount", .int transfer.amount)])

/-- The ERC-20 selectors are recognised on any contract the registry does not explain. -/
def methodOf (registry : AbiRegistry) (node : RawTrace) : Py (String × Dict String Value) := do
  let (methodName, params) ← registeredMethod libs registry node
  if methodName = unknownMethod then
    match ← decodeErc20TransferCalldata libs node.calldata with
    | some transfer => return (transfer.method.name, transfer.params)
    | none => return (methodName, params)
  else return (methodName, params)

def decodeNode (registry : AbiRegistry) (node : RawTrace) (parentSuccess : Bool) : Py DecodedCall := do
  let (methodName, params) ← methodOf libs registry node
  return {
    rawTraceCallId := computeRawTraceCallId sha256 node.txHash node.traceAddress
    chainId := node.chainId
    blockNumber := node.blockNumber
    txHash := lower node.txHash
    traceAddress := node.traceAddress
    contractAddress := node.toAddr.bind fun addr => if addr = "" then none else some (lower addr)
    methodName := methodName
    methodSelector := extractMethodSelector node.calldata
    params := params
    success := node.succeeded
    parentSuccess := parentSuccess }

mutual
def walk (registry : AbiRegistry) : RawTrace → Bool → Py (List DecodedCall)
  | node@⟨_, _, _, _, _, _, _, _, _, _, _, _, _, calls, _⟩, parentSuccess => do
      let decoded ← decodeNode sha256 libs registry node parentSuccess
      let below ← walkCalls registry calls (parentSuccess && node.succeeded)
      return decoded :: below
def walkCalls (registry : AbiRegistry) : List RawTrace → Bool → Py (List DecodedCall)
  | [], _ => .ok []
  | child :: rest, parentSuccess => do
      let first ← walk registry child parentSuccess
      let others ← walkCalls registry rest parentSuccess
      return first ++ others
end

def decodeTraceCalls (trace : RawTrace) (registry : AbiRegistry) : Py (List DecodedCall) :=
  walk sha256 libs registry trace true

/-! ## Token calls -/

def isErc20Selector (selector : String) : Bool :=
  selector = erc20TransferSelector || selector = erc20TransferFromSelector

/-- A call on the token by name or by selector, with every frame above it successful, in a
transaction whose receipt has status 1. -/
def isTokenCall (tokenAddress : String) (receiptsByTx : Dict String Receipt) (call : DecodedCall) :
    Bool :=
  call.contractAddress.any (fun addr => lower addr = lower tokenAddress) &&
  (call.methodName = "transfer" || call.methodName = "transferFrom" ||
    isErc20Selector call.methodSelector) &&
  (call.success && call.parentSuccess) &&
  (receiptsByTx.get? (lower call.txHash)).any (·.status = 1)

def textParam (params : Dict String Value) (key : String) : String :=
  lower (((params.get? key).getD (.str "")).text)

def tokenCallOf (tokenAddress : String) (call : DecodedCall) : Py TraceTokenCall := do
  let method : TokenMethod :=
    if call.methodSelector = erc20TransferSelector ∨ call.methodName = "transfer" then .transfer
    else .transferFrom
  let amount ← ((call.params.get? "amount").getD ((call.params.get? "value").getD (.int 0))).toInt
  return {
    rawTraceCallId := call.rawTraceCallId
    chainId := call.chainId
    blockNumber := call.blockNumber
    txHash := call.txHash
    traceAddress := call.traceAddress
    tokenAddress := lower tokenAddress
    methodName := method
    fromAddr := textParam call.params "from"
    toAddr := textParam call.params "to"
    amount := amount }

def extractErc20TransferCalls (tokenAddress : String) (receiptsByTx : Dict String Receipt) :
    List DecodedCall → Py (List TraceTokenCall)
  | [] => .ok []
  | call :: rest =>
      if isTokenCall tokenAddress receiptsByTx call then do
        let tokenCall ← tokenCallOf tokenAddress call
        let others ← extractErc20TransferCalls tokenAddress receiptsByTx rest
        return tokenCall :: others
      else extractErc20TransferCalls tokenAddress receiptsByTx rest

/-! ## Trace addresses -/

mutual
/-- Populates `trace_address`: the i-th child of a node at `addr` is at `addr + [i]`. -/
def assignTraceAddresses (addr : List Int) : RawTrace → RawTrace
  | ⟨chainId, blockNumber, txHash, type, fromAddr, toAddr, value, gas, gasUsed, inputData, output,
      error, revertReason, calls, _⟩ =>
      { chainId, blockNumber, txHash, type, fromAddr, toAddr, value, gas, gasUsed, inputData,
        output, error, revertReason
        calls := assignChildAddresses addr 0 calls
        traceAddress := addr }
def assignChildAddresses (addr : List Int) (i : Nat) : List RawTrace → List RawTrace
  | [] => []
  | child :: rest =>
      assignTraceAddresses (addr ++ [(i : Int)]) child :: assignChildAddresses addr (i + 1) rest
end

end EconomicLedger.Model
