import EconomicLedger.Model.Registry

/-!
# Event logs (`decoder/event_decoder.py`)

An exception inside a `try` of the source becomes a structured failure; one outside, such as a
malformed `data` string, leaves `decodeLog` as an exception.
-/

namespace EconomicLedger.Model
open Text

def erc20TransferTopic0 : String :=
  "0xddf252ad1be2c89b69c2b068fc378daa952ba7f163c4a11628f55a4df523b3ef"

@[simp] theorem lower_erc20TransferTopic0 : lower erc20TransferTopic0 = erc20TransferTopic0 := by
  decide +kernel

variable (sha256 : Digest) (libs : ExternalLibs)

def computeRawLogId (log : RawLog) : String :=
  sha256 (joinBar ["raw_log", toString log.chainId, toString log.blockNumber, lower log.txHash,
    toString log.logIndex])

def computeDecodedEventId (decoded : DecodedEvent) : String :=
  sha256 (joinBar ["decoded_event", toString decoded.chainId, toString decoded.blockNumber,
    lower decoded.txHash, toString decoded.logIndex])

def PyError.detail : PyError → String
  | .keyError detail | .valueError detail | .typeError detail | .fileNotFound detail
  | .isADirectory detail | .notADirectory detail | .fileExists detail => detail

def topicToAddress (topicHex : String) : Py String :=
  let topic := if startsWith topicHex "0x" then topicHex else "0x" ++ topicHex
  if topic.length = 66 then .ok ("0x" ++ lower (sliceFrom topic 26))
  else .error (.valueError
    ("topic must be 32 bytes (66 hex chars w/ 0x), got " ++ toString topic.length))

def hexToBytes (hexStr : String) : Py (List UInt8) :=
  let s := if startsWith hexStr "0x" then sliceFrom hexStr 2 else hexStr
  if s = "" then .ok []
  else if s.length % 2 ≠ 0 then .error (.valueError ("odd-length hex string: " ++ reprText hexStr))
  else fromHex s.toList

def findEventAbi (abi : Abi) (topic0 : String) : Option AbiEntry :=
  let target := if startsWith (lower topic0) "0x" then lower topic0 else "0x" ++ lower topic0
  abi.jsonAbi.find? fun entry =>
    entry.type = some "event" && !entry.anonymous &&
      match entry.name with
      | none => false
      | some name =>
          match eventSignature libs abi name with
          | .ok sig => lower sig = target
          | .error _ => false

def decodeIndexedInput (input : AbiInput) (topic : String) : Except String Value :=
  if input.type = "address" then
    match topicToAddress topic with
    | .ok addr => .ok (.str addr)
    | .error exc => .error exc.detail
  else
    match hexToBytes topic with
    | .error exc => .error exc.detail
    | .ok bytes =>
        match libs.abiDecode [input.type] bytes with
        | .ok (value :: _) => .ok value
        | .ok [] => .error "tuple index out of range"
        | .error exc => .error exc

def decodeIndexedInputs (params : Dict String Value) :
    List (AbiInput × String) → Except String (Dict String Value)
  | [] => .ok params
  | (input, topic) :: rest =>
      match decodeIndexedInput libs input topic with
      | .ok value => decodeIndexedInputs (params.set input.name value) rest
      | .error exc => .error exc

def dataParam (input : AbiInput) (value : Value) : Value :=
  if input.type = "address" then
    match value with
    | .str s => .str (lower s)
    | other => other
  else
    match value with
    | .bytes bs => .str ("0x" ++ toHex bs)
    | other => other

def failedResult {α : Type} (rawId : String) (reason : DecodeFailureReason) (detail : String) :
    DecodeResult α :=
  { rawId := rawId, success := false, decoded := none, failureReason := some reason
    failureDetail := some detail }

def succeededResult {α : Type} (rawId : String) (decoded : α) : DecodeResult α :=
  { rawId := rawId, success := true, decoded := some decoded, failureReason := none
    failureDetail := none }

/-- The event entry a log is decoded with, and how many topics its signature takes. -/
def selectEvent (log : RawLog) (abi : Abi) : Except String (AbiEntry × Nat) :=
  match log.topics with
  | [] =>
      match abi.jsonAbi.find? fun entry => entry.type = some "event" && entry.anonymous with
      | some entry => .ok (entry, 0)
      | none => .error "anonymous log; no anonymous event in ABI"
  | topic0 :: _ =>
      match findEventAbi libs abi topic0 with
      | some entry => .ok (entry, 1)
      | none => .error ("topic0=" ++ topic0 ++ " not in ABI")

/-- The data arguments, or a structured failure; a `zip` of unequal lengths raises. -/
def decodeData (inputs : List AbiInput) (bytes : List UInt8) :
    Py (Except (DecodeFailureReason × String) (Dict String Value)) :=
  if inputs = [] then .ok (.ok Dict.empty)
  else if bytes.length = 0 ∨ bytes.length % 32 ≠ 0 then
    .ok (.error (.malformedData, "data length " ++ toString bytes.length ++ " not multiple of 32"))
  else
    match libs.abiDecode (inputs.map AbiInput.type) bytes with
    | .error exc => .ok (.error (.abiMismatch, "data decode failed: " ++ exc))
    | .ok values =>
        if values.length = inputs.length then
          .ok (.ok (Dict.ofList ((inputs.zip values).map fun (input, value) =>
            (input.name, dataParam input value))))
        else .error (.valueError "zip() arguments have different lengths")

def eventOf (log : RawLog) (entry : AbiEntry) (indexedParams dataParams : Dict String Value) :
    DecodedEvent :=
  let decoded : DecodedEvent :=
    { rawLogId := computeRawLogId sha256 log
      decodedEventId := ""
      chainId := log.chainId
      blockNumber := log.blockNumber
      txHash := lower log.txHash
      logIndex := log.logIndex
      contractAddress := lower log.address
      eventName := entry.name.getD "<unnamed>"
      eventSignature := (log.topics.head?.map lower).getD ""
      indexedParams := indexedParams
      dataParams := dataParams }
  { decoded with decodedEventId := computeDecodedEventId sha256 decoded }

def decodeLog (log : RawLog) (abi : Abi) : Py (DecodeResult DecodedEvent) :=
  let rawId := computeRawLogId sha256 log
  match selectEvent libs log abi with
  | .error detail => .ok (failedResult rawId .unknownTopic detail)
  | .ok (entry, topicConsumed) =>
      let indexedInputs := entry.inputs.filter (·.indexed)
      let nonIndexedInputs := entry.inputs.filter (!·.indexed)
      let topics := log.topics.drop topicConsumed
      if indexedInputs.length ≠ topics.length then
        .ok (failedResult rawId .abiMismatch
          ("event '" ++ entry.name.getD "None" ++ "': abi has " ++ toString indexedInputs.length ++
            " indexed args, log has " ++ toString topics.length ++ " non-signature topics"))
      else
        match decodeIndexedInputs libs Dict.empty (indexedInputs.zip topics) with
        | .error exc => .ok (failedResult rawId .abiMismatch ("indexed decode failed: " ++ exc))
        | .ok indexedParams => do
            let bytes ← hexToBytes log.data
            match ← decodeData libs nonIndexedInputs bytes with
            | .error (reason, detail) => return failedResult rawId reason detail
            | .ok dataParams =>
                return succeededResult rawId (eventOf sha256 log entry indexedParams dataParams)

/-- One result per log, in order; `str` of a `KeyError` quotes its message. -/
def decodeLogsBatch (registry : AbiRegistry) (logs : List RawLog) :
    Py (List (DecodeResult DecodedEvent)) :=
  logs.mapM fun log =>
    match registry.get (lower log.address) log.blockNumber with
    | .error exc =>
        .ok (failedResult (computeRawLogId sha256 log) .unregisteredContract (reprText exc.detail))
    | .ok abi => decodeLog sha256 libs log abi

end EconomicLedger.Model
