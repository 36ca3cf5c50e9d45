import EconomicLedger.Lib.Dict
import EconomicLedger.Lib.Text
import EconomicLedger.Model.DagCheckpoint

/-!
# The DAG checkpoints as a map

A file name is read back as its chain and DAG, and the temporary files have names of their own, so the
store holds under each key what the last call on it wrote.
-/

namespace EconomicLedger.Checkpoint
open EconomicLedger.Model Text Keyed

structure DagCall where
  chainId : Int
  dagId : String
  block : Int
  runPartitionId : String
deriving Repr, DecidableEq

namespace DagCall

def key (call : DagCall) : Int × String := (call.chainId, call.dagId)

def payload (call : DagCall) : Json :=
  dagPayload call.chainId call.dagId call.block call.runPartitionId

def apply (dir : CheckpointDir) (call : DagCall) : Py CheckpointDir :=
  setLastProcessedBlock dir call.chainId call.dagId call.block call.runPartitionId

end DagCall

def emptyDir : CheckpointDir := fun _ => none

def lastBlock (calls : List DagCall) (chainId : Int) (dagId : String) : Option Int :=
  (calls.filter (·.key = (chainId, dagId))).getLast?.map DagCall.block

/-! ## Names -/

def dagPath (key : Int × String) : String := checkpointPath key.1 ("dag_" ++ key.2)

def tmpPath (key : Int × String) : String := withSuffix (dagPath key) ".json.tmp"

theorem toList_dagPath (key : Int × String) : (dagPath key).toList =
    (toString key.1).toList ++ '_' :: (("dag_".toList ++ key.2.toList) ++ ".json".toList) := by
  simp [dagPath, checkpointPath]

theorem dagPath_inj (key key' : Int × String) : dagPath key = dagPath key' ↔ key = key' := by
  rw [String.ext_iff, toList_dagPath, toList_dagPath,
    append_cons_inj (notMem_int '_' (by decide) (by decide) _) (notMem_int '_' (by decide) (by decide) _),
    List.append_left_inj, List.append_right_inj, ← String.ext_iff, ← String.ext_iff, toString_int_inj,
    Prod.ext_iff]

theorem withSuffix_json (base suffix : String) (nonempty : base ≠ "") :
    withSuffix (base ++ ".json") suffix = base ++ suffix := by
  have stem : base.toList ≠ [] := by
    rw [Ne, ← String.toList_empty, ← String.ext_iff]
    exact nonempty
  simp [withSuffix, stem]

theorem tmpPath_eq (key : Int × String) :
    tmpPath key = toString key.1 ++ "_" ++ ("dag_" ++ key.2) ++ ".json.tmp" := by
  refine withSuffix_json _ _ fun blank => ?_
  have chars := congrArg String.toList blank
  simp at chars

theorem tmpPath_ne_dagPath (key key' : Int × String) : tmpPath key ≠ dagPath key' := by
  intro same
  have last := congrArg (fun name => name.toList.reverse.head?) same
  rw [tmpPath_eq, dagPath, checkpointPath] at last
  simp at last

/-! ## Calls -/

theorem setLastProcessedBlock_eq (dir : CheckpointDir) (call : DagCall)
    (separatorFree : '/' ∉ call.dagId.toList) : call.apply dir =
      .ok (replaceFile (writeText dir (tmpPath call.key) call.payload) (tmpPath call.key) (dagPath call.key)) :=
  if_neg separatorFree

def written (dir : CheckpointDir) (call : DagCall) : CheckpointDir :=
  replaceFile (writeText dir (tmpPath call.key) call.payload) (tmpPath call.key) (dagPath call.key)

theorem written_dagPath (dir : CheckpointDir) (call : DagCall) (key : Int × String) :
    written dir call (dagPath key) = if call.key = key then some call.payload else dir (dagPath key) := by
  have foreign : dagPath key ≠ tmpPath call.key := (tmpPath_ne_dagPath _ _).symm
  rw [written, replaceFile, writeText, Function.update_of_ne foreign, Function.update_self]
  by_cases own : call.key = key
  · rw [if_pos own, ← own, Function.update_self]
  · have other : dagPath key ≠ dagPath call.key := fun same => own ((dagPath_inj _ _).mp same).symm
    rw [if_neg own, Function.update_of_ne other, Function.update_of_ne foreign]

theorem foldlM_apply (calls : List DagCall) (dir : CheckpointDir)
    (separatorFree : ∀ call ∈ calls, '/' ∉ call.dagId.toList) :
    calls.foldlM DagCall.apply dir = .ok (calls.foldl written dir) := by
  induction calls generalizing dir with
  | nil => rfl
  | cons call rest ih =>
      rw [List.foldlM_cons, setLastProcessedBlock_eq dir call (separatorFree call List.mem_cons_self)]
      exact ih _ fun other member => separatorFree other (List.mem_cons_of_mem call member)

theorem foldl_written_dagPath (calls : List DagCall) (key : Int × String) :
    calls.foldl written emptyDir (dagPath key) =
      (calls.filter (·.key = key)).getLast?.map DagCall.payload := by
  have run := foldl_local (fun dir key => dir (dagPath key)) written DagCall.key
    (fun _ call => some call.payload) written_dagPath emptyDir calls key
  exact run.trans (Dict.foldl_last DagCall.payload _)

theorem getLastProcessedBlock_payload (dir : CheckpointDir) (key : Int × String) (call : DagCall)
    (file : dir (dagPath key) = some call.payload) :
    getLastProcessedBlock dir key.1 key.2 = .ok (if call.block = 0 then none else some call.block) := by
  rw [dagPath] at file
  rw [getLastProcessedBlock, file]
  rfl

/-- The store is a map from keys to last blocks, but for a last block of zero. -/
theorem dag_checkpoint_last_write_iff (calls : List DagCall)
    (separatorFree : ∀ call ∈ calls, '/' ∉ call.dagId.toList) (chainId : Int) (dagId : String) :
    ∃ dir, calls.foldlM DagCall.apply emptyDir = .ok dir ∧
      (getLastProcessedBlock dir chainId dagId = .ok (lastBlock calls chainId dagId) ↔
        lastBlock calls chainId dagId ≠ some 0) := by
  refine ⟨_, foldlM_apply calls emptyDir separatorFree, ?_⟩
  have file := foldl_written_dagPath calls (chainId, dagId)
  rw [lastBlock]
  cases last : (calls.filter (·.key = (chainId, dagId))).getLast? with
  | none =>
      rw [last, Option.map_none] at file
      have unread : getLastProcessedBlock (calls.foldl written emptyDir) chainId dagId = .ok none := by
        rw [dagPath] at file
        rw [getLastProcessedBlock, file]
      simp [unread]
  | some call =>
      rw [last, Option.map_some] at file
      rw [getLastProcessedBlock_payload _ (chainId, dagId) call file, Option.map_some]
      by_cases zero : call.block = 0 <;> simp [zero]

/-! ## Two DAGs -/

def backfill (dagId : String) (block : Int) : DagCall := ⟨1, dagId, block, "run"⟩

theorem dag_checkpoint_last_write_dots :
    ∃ dir, [backfill "a" 7, backfill "a.json" 9, backfill "a" 8].foldlM DagCall.apply emptyDir = .ok dir ∧
      getLastProcessedBlock dir 1 "a" = .ok (some 8) := by
  obtain ⟨dir, ran, reads⟩ := dag_checkpoint_last_write_iff
    [backfill "a" 7, backfill "a.json" 9, backfill "a" 8] (by decide +kernel) 1 "a"
  exact ⟨dir, ran, reads.mpr (by decide)⟩

/-- A backfill that has reached block 0 reads as one that never ran. -/
theorem block_zero_lost : ∃ dir, [backfill "a" 0].foldlM DagCall.apply emptyDir = .ok dir ∧
    lastBlock [backfill "a" 0] 1 "a" = some 0 ∧ getLastProcessedBlock dir 1 "a" = .ok none := by
  have last : lastBlock [backfill "a" 0] 1 "a" = some 0 := by decide +kernel
  refine ⟨_, foldlM_apply [backfill "a" 0] emptyDir (by decide +kernel), last, ?_⟩
  exact getLastProcessedBlock_payload _ (1, "a") (backfill "a" 0)
    (foldl_written_dagPath [backfill "a" 0] (1, "a"))

end EconomicLedger.Checkpoint
