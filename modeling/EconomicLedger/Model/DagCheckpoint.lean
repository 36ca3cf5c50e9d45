import EconomicLedger.Model.Checkpoint
import Mathlib.Logic.Function.Basic

/-!
# Checkpoints of a DAG (`ingestion/checkpoint.py`)

The directory of the store holds one file for each name, represented as in `Model.Checkpoint`.
-/

namespace EconomicLedger.Model

abbrev CheckpointDir := String → Option Json

/-- `PurePath.with_suffix`: the text from the last dot on is replaced, unless it is the whole name or
nothing follows it. -/
def withSuffix (name suffix : String) : String :=
  let ending := name.toList.reverse.takeWhile (· ≠ '.')
  let stem := ((name.toList.reverse.dropWhile (· ≠ '.')).drop 1).reverse
  if ending = [] ∨ stem = [] then name ++ suffix else String.ofList stem ++ suffix

def checkpointPath (chainId : Int) (key : String) : String :=
  toString chainId ++ "_" ++ key ++ ".json"

def writeText (dir : CheckpointDir) (name : String) (payload : Json) : CheckpointDir :=
  Function.update dir name (some payload)

/-- `tmp.replace(p)`. -/
def replaceFile (dir : CheckpointDir) (tmp p : String) : CheckpointDir :=
  Function.update (Function.update dir p (dir tmp)) tmp none

/-- A block number of zero is read as a missing one. -/
def getLastProcessedBlock (dir : CheckpointDir) (chainId : Int) (dagId : String) : Py (Option Int) :=
  match dir (checkpointPath chainId ("dag_" ++ dagId)) with
  | none => .ok none
  | some payload => do
      let blockNumber ← payload.member? "block_number"
      let blockNumber ← (blockNumber.getD (.num 0)).toInt
      return if blockNumber = 0 then none else some blockNumber

def dagPayload (chainId : Int) (dagId : String) (block : Int) (runPartitionId : String) : Json :=
  .obj [
    ("chain_id", .num chainId),
    ("dag_id", .str dagId),
    ("block_number", .num block),
    ("run_partition_id", .str runPartitionId)]

/-- A name with a path separator lies in a directory that no call makes. -/
def setLastProcessedBlock (dir : CheckpointDir) (chainId : Int) (dagId : String) (block : Int)
    (runPartitionId : String) : Py CheckpointDir :=
  let p := checkpointPath chainId ("dag_" ++ dagId)
  let tmp := withSuffix p ".json.tmp"
  if '/' ∈ dagId.toList then .error (.fileNotFound ("No such file or directory: " ++ tmp))
  else .ok (replaceFile (writeText dir tmp (dagPayload chainId dagId block runPartitionId)) tmp p)

end EconomicLedger.Model
