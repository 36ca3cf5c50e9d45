import EconomicLedger.Model.Types

/-!
# Checkpoints (`ingestion/checkpoint.py`)

A file is represented by the document `json.loads` reads from its text, and `json.dumps` by the
document it writes: a tuple is written as an array.
-/

namespace EconomicLedger.Model

/-! ## JSON documents -/

inductive Json where
  | null
  | bool (b : Bool)
  | num (n : Int)
  | str (s : String)
  | arr (items : List Json)
  | obj (members : List (String × Json))

namespace Json

def member? : Json → String → Py (Option Json)
  | obj members, key => .ok ((members.find? (·.1 = key)).map Prod.snd)
  | _, _ => .error (.typeError "object has no attribute 'get'")

/-- `d[key]`. -/
def member (j : Json) (key : String) : Py Json :=
  match j with
  | obj members =>
      match members.find? (·.1 = key) with
      | some m => .ok m.2
      | none => .error (.keyError key)
  | _ => .error (.typeError "object is not subscriptable by a key")

/-- `for x in j`: the keys of an object and the characters of a text are iterated too. -/
def iterate : Json → Py (List Json)
  | arr items => .ok items
  | obj members => .ok (members.map fun m => str m.1)
  | str s => .ok (s.toList.map fun c => str (String.ofList [c]))
  | _ => .error (.typeError "object is not iterable")

/-- `r[i]`; an index out of range is a lookup error, as a missing key is. -/
def index (j : Json) (i : Nat) : Py Json :=
  match j with
  | arr items =>
      match items[i]? with
      | some item => .ok item
      | none => .error (.keyError "list index out of range")
  | str s =>
      match s.toList[i]? with
      | some c => .ok (str (String.ofList [c]))
      | none => .error (.keyError "string index out of range")
  | _ => .error (.typeError "object is not subscriptable by a number")

mutual
def repr : Json → String
  | null => "None"
  | bool true => "True"
  | bool false => "False"
  | num n => toString n
  | str s => reprText s
  | arr items => "[" ++ reprItems items ++ "]"
  | obj members => "\x7b" ++ reprMembers members ++ "\x7d"
def reprItems : List Json → String
  | [] => ""
  | [item] => item.repr
  | item :: next :: rest => item.repr ++ ", " ++ reprItems (next :: rest)
def reprMembers : List (String × Json) → String
  | [] => ""
  | [(key, value)] => reprText key ++ ": " ++ value.repr
  | (key, value) :: next :: rest =>
      reprText key ++ ": " ++ value.repr ++ ", " ++ reprMembers (next :: rest)
end

def text : Json → String
  | str s => s
  | j => j.repr

def toInt : Json → Py Int
  | null => Value.none.toInt
  | bool b => (Value.bool b).toInt
  | num n => .ok n
  | str s => (Value.str s).toInt
  | arr _ => (Value.seq []).toInt
  | obj _ => (Value.seq []).toInt

def optionalText : Json → Option String
  | null => none
  | j => some j.text

end Json

/-! ## The state and its file -/

structure CheckpointState where
  chainId : Int
  sourceName : String
  lastBlock : Int
  lastBlockHash : Option String
  pendingReplays : List (Int × Int)
deriving Repr, DecidableEq

abbrev CheckpointKey := Int × String

abbrev Checkpoints := Dict CheckpointKey CheckpointState

inductive StoreFile where
  | missing
  | empty
  | document (payload : Json)

def loadRange (r : Json) : Py (Int × Int) := do
  let first ← r.index 0
  let fromBlock ← first.toInt
  let second ← r.index 1
  let toBlock ← second.toInt
  return (fromBlock, toBlock)

def loadEntry (entry : Json) : Py (CheckpointKey × CheckpointState) := do
  let chain ← entry.member "chain_id"
  let chainId ← chain.toInt
  let source ← entry.member "source_name"
  let lastBlock ← entry.member? "last_block"
  let lastBlock ← (lastBlock.getD (.num 0)).toInt
  let lastBlockHash ← entry.member? "last_block_hash"
  let pending ← entry.member? "pending_replays"
  let ranges ← (pending.getD (.arr [])).iterate
  let pendingReplays ← ranges.mapM loadRange
  return ((chainId, source.text),
    { chainId := chainId
      sourceName := source.text
      lastBlock := lastBlock
      lastBlockHash := (lastBlockHash.getD .null).optionalText
      pendingReplays := pendingReplays })

def loadPayload (payload : Json) : Py Checkpoints := do
  let entries ← payload.member? "entries"
  let entries ← (entries.getD (.arr [])).iterate
  let pairs ← entries.mapM loadEntry
  return Dict.ofList pairs

def loadStore : StoreFile → Py Checkpoints
  | .missing => .ok Dict.empty
  | .empty => loadPayload (.obj [])
  | .document payload => loadPayload payload

def CheckpointState.entry (s : CheckpointState) : Json :=
  .obj [
    ("chain_id", .num s.chainId),
    ("source_name", .str s.sourceName),
    ("last_block", .num s.lastBlock),
    ("last_block_hash", (s.lastBlockHash.map Json.str).getD .null),
    ("pending_replays", .arr (s.pendingReplays.map fun r => .arr [.num r.1, .num r.2]))]

/-- `save` replaces the whole file. -/
def saveStore (state : Checkpoints) : StoreFile :=
  .document (.obj [("entries", .arr (state.values.map CheckpointState.entry))])

/-! ## Queries -/

def lastProcessedBlock (state : Checkpoints) (key : CheckpointKey) : Int :=
  match state.get? key with
  | some s => s.lastBlock
  | none => 0

def lastProcessedBlockHash (state : Checkpoints) (key : CheckpointKey) : Option String :=
  match state.get? key with
  | some s => s.lastBlockHash
  | none => none

def pendingReplays (state : Checkpoints) (key : CheckpointKey) : List (Int × Int) :=
  match state.get? key with
  | some s => s.pendingReplays
  | none => []

/-! ## Calls -/

def advance (state : Checkpoints) (key : CheckpointKey) (blockNumber : Int) (blockHash : String) :
    Checkpoints :=
  match state.get? key with
  | none => state.set key
      { chainId := key.1
        sourceName := key.2
        lastBlock := blockNumber
        lastBlockHash := some blockHash
        pendingReplays := [] }
  | some s =>
      if s.lastBlock < blockNumber then
        state.set key { s with lastBlock := blockNumber, lastBlockHash := some blockHash }
      else state

def unadvanced (key : CheckpointKey) : CheckpointState :=
  { chainId := key.1
    sourceName := key.2
    lastBlock := 0
    lastBlockHash := none
    pendingReplays := [] }

def markReplay (state : Checkpoints) (key : CheckpointKey) (range : Int × Int) : Checkpoints :=
  let s := (state.get? key).getD (unadvanced key)
  state.set key
    (if range ∈ s.pendingReplays then s
    else { s with pendingReplays := s.pendingReplays ++ [range] })

def clearReplay (state : Checkpoints) (key : CheckpointKey) (range : Int × Int) : Checkpoints :=
  match state.get? key with
  | none => state
  | some s => state.set key { s with pendingReplays := s.pendingReplays.filter (· ≠ range) }

inductive CheckpointCall where
  | advance (key : CheckpointKey) (blockNumber : Int) (blockHash : String)
  | markReplay (key : CheckpointKey) (range : Int × Int)
  | clearReplay (key : CheckpointKey) (range : Int × Int)
deriving Repr, DecidableEq

namespace CheckpointCall

def key : CheckpointCall → CheckpointKey
  | advance key _ _ => key
  | markReplay key _ => key
  | clearReplay key _ => key

def apply (state : Checkpoints) : CheckpointCall → Checkpoints
  | advance key blockNumber blockHash => Model.advance state key blockNumber blockHash
  | markReplay key range => Model.markReplay state key range
  | clearReplay key range => Model.clearReplay state key range

/-- `clear_replay` on an unknown key returns before it saves. -/
def saves (state : Checkpoints) : CheckpointCall → Bool
  | clearReplay key _ => (state.get? key).isSome
  | _ => true

def file (state : Checkpoints) (before : StoreFile) (call : CheckpointCall) : StoreFile :=
  if call.saves state then saveStore (call.apply state) else before

end CheckpointCall

end EconomicLedger.Model
