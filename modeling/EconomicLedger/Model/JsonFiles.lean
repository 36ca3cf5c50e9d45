import EconomicLedger.Lib.FileTree
import EconomicLedger.Lib.JsonLines
import EconomicLedger.Model.DagCheckpoint

/-!
# Files of JSON text

The documents of `Model.Checkpoint` as text, and what keeps such text: the checkpoint file, run metadata
(`lineage/run_metadata.py`), and the local files of `storage/manifest.py` and `storage/dataset_writer.py`.
Targets on `gs://` go through the client of that service and are not modelled.
-/

namespace EconomicLedger.Model
open Text JsonText

/-! ## Text of a document -/

namespace Json

mutual
def tree : Json → Tree
  | null => .null
  | bool b => .bool b
  | num n => .num n
  | str s => .str s
  | arr items => .arr (trees items)
  | obj members => .obj (memberTrees members)
def trees : List Json → List Tree
  | [] => []
  | item :: rest => item.tree :: trees rest
def memberTrees : List (String × Json) → List (String × Tree)
  | [] => []
  | (key, value) :: rest => (key, value.tree) :: memberTrees rest
end

mutual
def ofTree : Tree → Json
  | .null => null
  | .bool b => bool b
  | .num n => num n
  | .str s => str s
  | .arr items => arr (ofTrees items)
  | .obj members => obj (ofMemberTrees members)
def ofTrees : List Tree → List Json
  | [] => []
  | item :: rest => ofTree item :: ofTrees rest
def ofMemberTrees : List (String × Tree) → List (String × Json)
  | [] => []
  | (key, value) :: rest => (key, ofTree value) :: ofMemberTrees rest
end

def dumps (layout : Layout) (j : Json) : String := JsonText.dumps layout j.tree

def loads (text : String) : Py Json :=
  match JsonText.loads text with
  | some tree => .ok (ofTree tree)
  | none => .error (.valueError "JSONDecodeError")

end Json

/-! ## The checkpoint file -/

def storePayload (state : Checkpoints) : Json :=
  .obj [("entries", .arr (state.values.map CheckpointState.entry))]

def saveText (state : Checkpoints) : String := (storePayload state).dumps (indented 2)

/-- `json.loads(self.store_path.read_text() or "{}")`, with no text where the file is missing. -/
def readStore : Option String → Py StoreFile
  | none => .ok .missing
  | some text => if text = "" then .ok .empty else (Json.loads text).map StoreFile.document

def CheckpointCall.text (state : Checkpoints) (before : Option String) (call : CheckpointCall) :
    Option String :=
  if call.saves state then some (saveText (call.apply state)) else before

/-! ## Run metadata -/

inductive RunStatus where
  | running
  | success
  | failed
deriving Repr, DecidableEq

def RunStatus.value : RunStatus → String
  | running => "running"
  | success => "success"
  | failed => "failed"

/-- A name that `dir / name` puts into the directory itself. -/
def IsFileName (name : String) : Prop := '/' ∉ name.toList ∧ Char.ofNat 0 ∉ name.toList

instance (name : String) : Decidable (IsFileName name) := inferInstanceAs (Decidable (_ ∧ _))

abbrev RunId := { name : String // IsFileName name }

structure RunMetadata where
  runId : RunId
  dagId : String
  chainId : Int
  startedAt : Int
  completedAt : Option Int
  status : RunStatus
  partitionsProcessed : Int
  manifestIds : List String

/-- What `get_run_metadata` builds: the values of the document, whatever they are. -/
structure LoadedRun where
  runId : Json
  dagId : Json
  chainId : Json
  startedAt : Json
  completedAt : Json
  status : Json
  partitionsProcessed : Json
  manifestIds : List Json

def RunMetadata.payload (run : RunMetadata) : Json :=
  .obj [
    ("run_id", .str run.runId),
    ("dag_id", .str run.dagId),
    ("chain_id", .num run.chainId),
    ("started_at", .num run.startedAt),
    ("completed_at", (run.completedAt.map Json.num).getD .null),
    ("status", .str run.status.value),
    ("partitions_processed", .num run.partitionsProcessed),
    ("manifest_ids", .arr (run.manifestIds.map Json.str))]

/-- The texts of a directory by file name. -/
abbrev TextDir := Dict String String

def metadataFile (runId : RunId) : String := runId.1 ++ ".json"

def recordRun (dir : TextDir) (run : RunMetadata) : TextDir :=
  dir.set (metadataFile run.runId) (run.payload.dumps (indented 2))

def getRunMetadata (dir : TextDir) (runId : RunId) : Py LoadedRun :=
  match dir.get? (metadataFile runId) with
  | none => .error (.fileNotFound ("run metadata not found for run_id=" ++ reprText runId))
  | some text => do
      let payload ← Json.loads text
      let storedId ← payload.member "run_id"
      let dagId ← payload.member "dag_id"
      let chainId ← payload.member "chain_id"
      let startedAt ← payload.member "started_at"
      let completedAt ← payload.member? "completed_at"
      let status ← payload.member "status"
      let partitionsProcessed ← payload.member "partitions_processed"
      let manifestIds ← payload.member? "manifest_ids"
      let manifestIds ← (manifestIds.getD (.arr [])).iterate
      return {
        runId := storedId
        dagId := dagId
        chainId := chainId
        startedAt := startedAt
        completedAt := completedAt.getD .null
        status := status
        partitionsProcessed := partitionsProcessed
        manifestIds := manifestIds }

/-! ## Local files -/

/-- A target that is not on `gs://` and never goes up a directory. -/
def IsLocal (target : String) : Prop :=
  startsWith target "gs://" = false ∧ ".." ∉ (PosixPath.parse target).names ∧ Char.ofNat 0 ∉ target.toList

instance (target : String) : Decidable (IsLocal target) := inferInstanceAs (Decidable (_ ∧ _ ∧ _))

abbrev LocalPath := { target : String // IsLocal target }

def FileError.raised (path : PosixPath) : FileError → PyError
  | .missing => .fileNotFound ("[Errno 2] No such file or directory: " ++ reprText path.text)
  | .occupied => .fileExists ("[Errno 17] File exists: " ++ reprText path.text)
  | .notDirectory => .notADirectory ("[Errno 20] Not a directory: " ++ reprText path.text)
  | .isDirectory => .isADirectory ("[Errno 21] Is a directory: " ++ reprText path.text)

def raisingFor {α : Type} (path : PosixPath) (attempt : Except FileError α) : Py α :=
  attempt.mapError (FileError.raised path)

/-- `path.parent.mkdir(parents=True, exist_ok=True)`, then `path.write_text(text)`. -/
def saveLocal (home : List String) (tree : FileTree) (path : PosixPath) (text : String) : Py FileTree := do
  let tree ← raisingFor path.parent (tree.mkdir (path.parent.resolve home))
  raisingFor path (tree.write (path.resolve home) text)

/-! ## Manifests -/

structure Manifest where
  runId : String
  runPartitionId : String
  source : String
  partitionKey : String
  gcsPaths : List String
  rowCounts : Dict String Int
  totalRows : Int
  counted : totalRows = rowCounts.values.sum

def Manifest.create (runId runPartitionId source partitionKey : String) (gcsPaths : List String)
    (rowCounts : Dict String Int) : Manifest :=
  { runId := runId
    runPartitionId := runPartitionId
    source := source
    partitionKey := partitionKey
    gcsPaths := gcsPaths
    rowCounts := rowCounts
    totalRows := rowCounts.values.sum
    counted := rfl }

def Manifest.payload (m : Manifest) : Json :=
  .obj [
    ("run_id", .str m.runId),
    ("run_partition_id", .str m.runPartitionId),
    ("source", .str m.source),
    ("partition_key", .str m.partitionKey),
    ("gcs_paths", .arr (m.gcsPaths.map Json.str)),
    ("row_counts", .obj (m.rowCounts.entries.map fun e => (e.1, Json.num e.2))),
    ("total_rows", .num m.totalRows)]

structure LoadedManifest where
  runId : Json
  runPartitionId : Json
  source : Json
  partitionKey : Json
  gcsPaths : Json
  rowCounts : Json
  totalRows : Json

def manifestFields : List String :=
  ["run_id", "run_partition_id", "source", "partition_key", "gcs_paths", "row_counts", "total_rows"]

/-- An argument of `_ManifestPayload(**body)` without a default. -/
def requiredArgument (body : Json) (name : String) : Py Json := do
  match ← body.member? name with
  | some value => return value
  | none => .error (.typeError ("missing required argument: " ++ reprText name))

def manifestPayload (body : Json) : Py LoadedManifest :=
  match body with
  | .obj members =>
      match members.find? (·.1 ∉ manifestFields) with
      | some unexpected => .error (.typeError ("unexpected keyword argument " ++ reprText unexpected.1))
      | none => do
          let runId ← requiredArgument body "run_id"
          let runPartitionId ← requiredArgument body "run_partition_id"
          let source ← requiredArgument body "source"
          let partitionKey ← requiredArgument body "partition_key"
          let gcsPaths ← requiredArgument body "gcs_paths"
          let rowCounts ← requiredArgument body "row_counts"
          let totalRows ← body.member? "total_rows"
          return {
            runId := runId
            runPartitionId := runPartitionId
            source := source
            partitionKey := partitionKey
            gcsPaths := gcsPaths
            rowCounts := rowCounts
            totalRows := totalRows.getD (.num 0) }
  | _ => .error (.typeError "argument after ** must be a mapping")

def Manifest.persist (home : List String) (tree : FileTree) (target : LocalPath) (m : Manifest) : Py FileTree :=
  saveLocal home tree (PosixPath.parse target.1) (m.payload.dumps (indented 2))

def loadManifest (home : List String) (tree : FileTree) (target : LocalPath) : Py LoadedManifest := do
  let path := PosixPath.parse target.1
  let text ← raisingFor path (tree.read (path.resolve home))
  let body ← Json.loads text
  manifestPayload body

/-! ## Local dataset files -/

abbrev DatasetRow := Dict String Json

abbrev RunPartitionId := { name : String // IsFileName name }

/-- A row with its lineage columns, which replace columns of these names. -/
def taggedRow (item : DatasetRow) (runPartitionId : String) (ingestedAt : Int) : DatasetRow :=
  (item.set "run_partition_id" (.str runPartitionId)).set "ingested_at" (.num ingestedAt)

def writeLocal (rows : List DatasetRow) : String :=
  dumpsLines (rows.map fun row => (Json.obj row.entries).tree)

structure WriteResult where
  gcsPath : String
  rows : Nat
  bytesWritten : Nat
  runPartitionId : String

def partFile (runPartitionId : RunPartitionId) : String := "part-" ++ runPartitionId.1 ++ ".jsonl"

/-- `_write` to a local path; every item comes with the second at which it was tagged. -/
def writeDataset (home : List String) (tree : FileTree) (items : List (DatasetRow × Int)) (gcsPath : LocalPath)
    (runPartitionId : RunPartitionId) : Py (FileTree × WriteResult) := do
  let text := writeLocal (items.map fun item => taggedRow item.1 runPartitionId.1 item.2)
  let localPath := (PosixPath.parse gcsPath.1).child (partFile runPartitionId)
  let tree ← saveLocal home tree localPath text
  return (tree,
    { gcsPath := gcsPath.1
      rows := items.length
      bytesWritten := text.utf8ByteSize
      runPartitionId := runPartitionId.1 })

end EconomicLedger.Model
