import EconomicLedger.Model.Registry

/-!
# Calldata (`decoder/calldata_decoder.py`)
-/

namespace EconomicLedger.Model
open Text

def erc20TransferSelector : String := "0xa9059cbb"

def erc20TransferFromSelector : String := "0x23b872dd"

variable (libs : ExternalLibs)

def rawDigits (calldata : String) : String :=
  if startsWith calldata "0x" || startsWith calldata "0X" then sliceFrom calldata 2 else calldata

def extractMethodSelector (calldata : String) : String :=
  if calldata = "" ∨ calldata = "0x" ∨ calldata = "0X" then "0x"
  else if (rawDigits calldata).length < 8 then "0x"
  else "0x" ++ lower (sliceTo (rawDigits calldata) 8)

/-- The first function whose selector, looked up by name, is the given one. -/
def findMethodBySelector (abi : Abi) (selector : String) : Option AbiEntry :=
  abi.jsonAbi.find? fun entry =>
    entry.type = some "function" &&
      match entry.name with
      | none => false
      | some name =>
          match methodSelector libs abi name with
          | .ok own => lower own = lower selector
          | .error _ => false

def calldataParam (input : AbiInput) (value : Value) : Value :=
  match value with
  | .str s => if input.type = "address" then .str (lower s) else .str s
  | .bytes bs => .str ("0x" ++ toHex bs)
  | other => other

def failedCalldata (reason : DecodeFailureReason) (detail : String) : DecodeResult DecodedCall :=
  { rawId := "", success := false, decoded := none, failureReason := some reason
    failureDetail := some detail }

def decodeCalldata (calldata : String) (abi : Abi) : Py (DecodeResult DecodedCall) :=
  let selector := extractMethodSelector calldata
  match findMethodBySelector libs abi selector with
  | none => .ok (failedCalldata .unknownTopic ("selector " ++ selector ++ " not in ABI"))
  | some method => do
      let body ← fromHex ((rawDigits calldata).toList.drop 8)
      if body ≠ [] ∧ body.length % 32 ≠ 0 then
        return failedCalldata .malformedData
          ("calldata body length " ++ toString body.length ++ " not multiple of 32")
      else
        match if method.inputs = [] then .ok []
            else libs.abiDecode (method.inputs.map AbiInput.type) body with
        | .error exc => return failedCalldata .abiMismatch ("calldata decode failed: " ++ exc)
        | .ok values =>
            if values.length ≠ method.inputs.length then
              .error (.valueError "zip() arguments have different lengths")
            else
              return {
                rawId := "", success := true, failureReason := none, failureDetail := none
                decoded := some {
                  rawTraceCallId := "", chainId := 0, blockNumber := 0, txHash := ""
                  traceAddress := [], contractAddress := none
                  methodName := method.name.getD "<unnamed>"
                  methodSelector := selector
                  params := Dict.ofList ((method.inputs.zip values).map fun (input, value) =>
                    (input.name, calldataParam input value))
                  success := true, parentSuccess := true } }

structure Erc20Transfer where
  method : TokenMethod
  fromAddr : Option String
  toAddr : String
  amount : Int
deriving Repr, DecidableEq

/-- `value.lower()`; only text has it among what an address decodes to. -/
def Value.lowered : Value → Py String
  | .str s => .ok (lower s)
  | _ => .error (.typeError "object has no attribute 'lower'")

def erc20ArgumentTypes (selector : String) : List String :=
  if selector = erc20TransferSelector then ["address", "uint256"]
  else if selector = erc20TransferFromSelector then ["address", "address", "uint256"]
  else []

/-- The 4-byte selector is skipped; shorter calldata has an empty body. -/
def calldataBody (calldata : String) : Py (List UInt8) :=
  if 8 ≤ (rawDigits calldata).length then fromHex ((rawDigits calldata).toList.drop 8) else .ok []

def decodeErc20TransferCalldata (calldata : String) : Py (Option Erc20Transfer) := do
  let selector := extractMethodSelector calldata
  let body ← calldataBody calldata
  if selector = erc20TransferSelector then
    if body.length < 64 then return none
    else
      match libs.abiDecode (erc20ArgumentTypes selector) (body.take 64) with
      | .ok [recipient, value] => do
          let toAddr ← recipient.lowered
          let amount ← value.toInt
          return some { method := .transfer, fromAddr := none, toAddr := toAddr, amount := amount }
      | _ => return none
  else if selector = erc20TransferFromSelector then
    if body.length < 96 then return none
    else
      match libs.abiDecode (erc20ArgumentTypes selector) (body.take 96) with
      | .ok [sender, recipient, value] => do
          let fromAddr ← sender.lowered
          let toAddr ← recipient.lowered
          let amount ← value.toInt
          return some {
            method := .transferFrom, fromAddr := some fromAddr, toAddr := toAddr, amount := amount }
      | _ => return none
  else return none

end EconomicLedger.Model
