import EconomicLedger.Model.EventDecoder
import EconomicLedger.Model.TraceDecoder
import Mathlib.Data.Char
import Mathlib.Data.List.Lex
import Mathlib.Data.List.Sort
import Mathlib.Data.Prod.Lex

/-!
# Token movements (`reconciliation/movement_builder.py`, `reconciliation/balance_reconciler.py`)
-/

namespace EconomicLedger.Model
open Text

inductive SourcePriority where
  | log
  | trace
deriving Repr, DecidableEq

structure TokenMovement where
  movementId : String
  chainId : Int
  blockNumber : Int
  txHash : String
  tokenAddress : String
  fromAddr : String
  toAddr : String
  amount : Int
  evidenceIds : List String
  sourcePriority : SourcePriority
  isCanonical : Bool
deriving Repr, DecidableEq

def movementStem (chainId : Int) (txHash fromAddr toAddr : String) (amount : Int) : List String :=
  ["movement", toString chainId, lower txHash, lower fromAddr, lower toAddr, toString amount]

variable (sha256 : Digest)

def computeMovementId (chainId : Int) (txHash fromAddr toAddr : String)
    (amount occurrenceIndex : Int) : String :=
  sha256 (joinBar (movementStem chainId txHash fromAddr toAddr amount ++ [toString occurrenceIndex]))

def packComponent (n : Nat) (component : Nat) : Nat := (n <<< 16) ||| (component &&& 0xFFFF)

def packFrom (n : Nat) : List Int → Py Nat
  | [] => .ok n
  | component :: rest =>
      if component < 0 then .error (.valueError "trace_address components must be non-negative")
      else packFrom (packComponent n component.toNat) rest

def traceAddressToIndex (traceAddress : List Int) : Py Nat := packFrom 0 traceAddress

/-! ## Building movements -/

/-- `str(d.get(key, d.get(alt, "")))`, lower-cased. -/
def addressParam (params : Dict String Value) (key alt : String) : String :=
  lower (((params.get? key).getD ((params.get? alt).getD (.str ""))).text)

def DecodedEvent.fromAddr (ev : DecodedEvent) : String := addressParam ev.indexedParams "from" "_from"

def DecodedEvent.toAddr (ev : DecodedEvent) : String := addressParam ev.indexedParams "to" "_to"

def DecodedEvent.transferAmount (ev : DecodedEvent) : Py Int :=
  ((ev.dataParams.get? "value").getD ((ev.dataParams.get? "_value").getD
    ((ev.dataParams.get? "amount").getD (.int 0)))).toInt

def DecodedEvent.isTransfer (ev : DecodedEvent) : Bool := lower ev.eventSignature = erc20TransferTopic0

def logMovement (ev : DecodedEvent) (amount : Int) : TokenMovement :=
  { movementId :=
      computeMovementId sha256 ev.chainId ev.txHash ev.fromAddr ev.toAddr amount ev.logIndex
    chainId := ev.chainId
    blockNumber := ev.blockNumber
    txHash := lower ev.txHash
    tokenAddress := lower ev.contractAddress
    fromAddr := ev.fromAddr
    toAddr := ev.toAddr
    amount := amount
    evidenceIds := [ev.rawLogId]
    sourcePriority := .log
    isCanonical := true }

def buildMovementsFromTransferLogs : List DecodedEvent → Py (List TokenMovement)
  | [] => .ok []
  | ev :: rest =>
      if ev.isTransfer then do
        let amount ← ev.transferAmount
        let others ← buildMovementsFromTransferLogs rest
        return logMovement sha256 ev amount :: others
      else buildMovementsFromTransferLogs rest

def traceMovement (call : TraceTokenCall) (occ : Nat) : TokenMovement :=
  { movementId :=
      computeMovementId sha256 call.chainId call.txHash (lower call.fromAddr) (lower call.toAddr)
        call.amount occ
    chainId := call.chainId
    blockNumber := call.blockNumber
    txHash := lower call.txHash
    tokenAddress := lower call.tokenAddress
    fromAddr := lower call.fromAddr
    toAddr := lower call.toAddr
    amount := call.amount
    evidenceIds := [call.rawTraceCallId]
    sourcePriority := .trace
    isCanonical := true }

def buildMovementsFromTraceCalls : List TraceTokenCall → Py (List TokenMovement)
  | [] => .ok []
  | call :: rest => do
      let occ ← traceAddressToIndex call.traceAddress
      let others ← buildMovementsFromTraceCalls rest
      return traceMovement sha256 call occ :: others

/-! ## Unifying the two sources -/

/-- The evidence of a merged record: empty and repeated ids are not added. -/
def mergeEvidence (kept added : List String) : List String :=
  added.foldl (fun merged ev => if ev ≠ "" ∧ ev ∉ merged then merged ++ [ev] else merged) kept

/-- The record kept when `other` is found to be the same movement as `existing`. -/
def absorb (existing other : TokenMovement) : TokenMovement :=
  { existing with
    evidenceIds := mergeEvidence existing.evidenceIds other.evidenceIds
    sourcePriority := .log
    isCanonical := true }

/-- Log movements are indexed first; a trace movement with a known id is absorbed. -/
def indexById (logMovements traceMovements : List TokenMovement) : Dict String TokenMovement :=
  let byId := logMovements.foldl (fun d m => d.set m.movementId m) Dict.empty
  traceMovements.foldl
    (fun d tm => d.upsert tm.movementId fun
      | some existing => absorb existing tm
      | none => tm) byId

abbrev BucketKey := String × String × String × Int

def TokenMovement.bucketKey (m : TokenMovement) : BucketKey := (m.txHash, m.fromAddr, m.toAddr, m.amount)

/-- Equal counts are paired in order; any other bucket keeps all its entries. -/
def pairBucket (entries : List TokenMovement) : List TokenMovement :=
  let logEntries := entries.filter (·.sourcePriority = .log)
  let traceEntries := entries.filter (·.sourcePriority = .trace)
  if logEntries ≠ [] ∧ traceEntries ≠ [] ∧ logEntries.length = traceEntries.length then
    List.zipWith absorb logEntries traceEntries
  else entries

def SourcePriority.rank : SourcePriority → Nat
  | .log => 0
  | .trace => 1

/-- The order of the output: block, transaction, source, sender. -/
def TokenMovement.sortKey (m : TokenMovement) : Int ×ₗ List Char ×ₗ Nat ×ₗ List Char :=
  toLex (m.blockNumber, toLex (m.txHash.toList, toLex (m.sourcePriority.rank, m.fromAddr.toList)))

def unifyMovements (logMovements traceMovements : List TokenMovement) : List TokenMovement :=
  let byId := indexById logMovements traceMovements
  let bucket := Dict.groupBy TokenMovement.bucketKey byId.values
  (bucket.values.flatMap pairBucket).insertionSort (·.sortKey ≤ ·.sortKey)

/-! ## Balances -/

def balanceStep (target : String) (fromBlock toBlock delta : Int) (m : TokenMovement) : Int :=
  if m.blockNumber < fromBlock ∨ toBlock < m.blockNumber then delta
  else
    let delta := if lower m.toAddr = target then delta + m.amount else delta
    if lower m.fromAddr = target then delta - m.amount else delta

def computeBalanceDelta (movements : List TokenMovement) (address : String)
    (fromBlock toBlock : Int) : Int :=
  movements.foldl (balanceStep (lower address) fromBlock toBlock) 0

end EconomicLedger.Model
