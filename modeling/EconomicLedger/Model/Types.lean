import EconomicLedger.Lib.Dict
import EconomicLedger.Model.Value
import Mathlib.Algebra.Ring.Int.Defs

/-!
# Typed objects shared by the modules (`decoder/types.py`)

`ExternalLibs` stands for what the pipeline calls outside the repository: `eth_abi.decode` and
`eth_utils.keccak`. The SHA-256 digest behind every identifier is a parameter of the functions
that use it.
-/

namespace EconomicLedger.Model

/-- `hashlib.sha256(text.encode()).hexdigest()`. -/
abbrev Digest := String → String

structure ExternalLibs where
  /-- `eth_abi.abi.decode(types, data)`; an exception carries its message. -/
  abiDecode : List String → List UInt8 → Except String (List Value)
  /-- `keccak(text=...).hex()`, without a `0x`. -/
  keccak : String → String

structure RawLog where
  chainId : Int
  blockNumber : Int
  blockHash : String
  txHash : String
  txIndex : Int
  logIndex : Int
  address : String
  topics : List String
  data : String
deriving DecidableEq

structure Receipt where
  txHash : String
  status : Int
deriving DecidableEq

structure RawTrace where
  chainId : Int
  blockNumber : Int
  txHash : String
  type : String
  fromAddr : String
  toAddr : Option String
  value : Int
  gas : Int
  gasUsed : Int
  inputData : String
  output : String
  error : Option String
  revertReason : Option String
  calls : List RawTrace
  traceAddress : List Int

structure DecodedEvent where
  rawLogId : String
  decodedEventId : String
  chainId : Int
  blockNumber : Int
  txHash : String
  logIndex : Int
  contractAddress : String
  eventName : String
  eventSignature : String
  indexedParams : Dict String Value
  dataParams : Dict String Value

structure DecodedCall where
  rawTraceCallId : String
  chainId : Int
  blockNumber : Int
  txHash : String
  traceAddress : List Int
  contractAddress : Option String
  methodName : String
  methodSelector : String
  params : Dict String Value
  success : Bool
  parentSuccess : Bool

inductive TokenMethod where
  | transfer
  | transferFrom
deriving Repr, DecidableEq

structure TraceTokenCall where
  rawTraceCallId : String
  chainId : Int
  blockNumber : Int
  txHash : String
  traceAddress : List Int
  tokenAddress : String
  methodName : TokenMethod
  fromAddr : String
  toAddr : String
  amount : Int
deriving Repr, DecidableEq

inductive DecodeFailureReason where
  | unknownTopic
  | abiMismatch
  | malformedData
  | unregisteredContract
  | phaseNotFound
deriving Repr, DecidableEq

structure DecodeResult (α : Type) where
  rawId : String
  success : Bool
  decoded : Option α
  failureReason : Option DecodeFailureReason
  failureDetail : Option String

structure Phase where
  contractAddress : String
  abiVersion : String
  fromBlock : Int
  toBlock : Option Int
deriving Repr, DecidableEq

structure ContractMeta where
  contractAddress : String
  role : String
  deployedBlock : Int
  phases : List Phase
deriving Repr, DecidableEq

structure AbiInput where
  name : String
  type : String
  indexed : Bool
  components : List AbiInput

/-- An entry of a JSON ABI. A constructor or a fallback has no name. -/
structure AbiEntry where
  type : Option String
  name : Option String
  anonymous : Bool
  inputs : List AbiInput

structure Abi where
  abiVersion : String
  jsonAbi : List AbiEntry

end EconomicLedger.Model
