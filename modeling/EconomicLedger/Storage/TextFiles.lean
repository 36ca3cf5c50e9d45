import EconomicLedger.Checkpoint.Restarts
import EconomicLedger.Model.JsonFiles

/-!
# Stores of JSON text

A document comes back from its text, so each store holds under every name what was last written there, and
instances on a checkpoint file of text behave as those on a file of documents.
-/

namespace EconomicLedger.Storage
open Model Text JsonText Keyed Fallible

/-! ## Documents -/

mutual
theorem ofTree_tree : ∀ j : Json, Json.ofTree j.tree = j
  | .null => rfl
  | .bool _ => rfl
  | .num _ => rfl
  | .str _ => rfl
  | .arr items => by rw [Json.tree, Json.ofTree, ofTrees_trees items]
  | .obj members => by rw [Json.tree, Json.ofTree, ofMemberTrees_memberTrees members]
theorem ofTrees_trees : ∀ items : List Json, Json.ofTrees (Json.trees items) = items
  | [] => rfl
  | item :: rest => by rw [Json.trees, Json.ofTrees, ofTree_tree item, ofTrees_trees rest]
theorem ofMemberTrees_memberTrees : ∀ members : List (String × Json),
    Json.ofMemberTrees (Json.memberTrees members) = members
  | [] => rfl
  | (key, value) :: rest => by
      rw [Json.memberTrees, Json.ofMemberTrees, ofTree_tree value, ofMemberTrees_memberTrees rest]
end

theorem keys_memberTrees (members : List (String × Json)) :
    (Json.memberTrees members).map Prod.fst = members.map Prod.fst := by
  induction members with
  | nil => rfl
  | cons m rest ih => rw [Json.memberTrees, List.map_cons, List.map_cons, ih]

/-- A document as Python builds one: the keys of an object are distinct. -/
def Dictlike (j : Json) : Prop := j.tree.Distinct

@[simp] theorem dictlike_null : Dictlike .null := trivial
@[simp] theorem dictlike_num (n : Int) : Dictlike (.num n) := trivial
@[simp] theorem dictlike_str (s : String) : Dictlike (.str s) := trivial

@[simp] theorem dictlike_arr (items : List Json) : Dictlike (.arr items) ↔ ∀ item ∈ items, Dictlike item := by
  induction items with
  | nil => simp [Dictlike, Json.tree, Json.trees, Tree.Distinct, ItemsDistinct]
  | cons item rest ih =>
      have step : Dictlike (.arr (item :: rest)) ↔ Dictlike item ∧ Dictlike (.arr rest) := Iff.rfl
      rw [step, ih, List.forall_mem_cons]

@[simp] theorem dictlike_obj (members : List (String × Json)) :
    Dictlike (.obj members) ↔ (members.map Prod.fst).Nodup ∧ ∀ m ∈ members, Dictlike m.2 := by
  have each : MembersDistinct (Json.memberTrees members) ↔ ∀ m ∈ members, Dictlike m.2 := by
    induction members with
    | nil => simp [Json.memberTrees, MembersDistinct]
    | cons m rest ih =>
        have step : MembersDistinct (Json.memberTrees (m :: rest)) ↔
            Dictlike m.2 ∧ MembersDistinct (Json.memberTrees rest) := Iff.rfl
        rw [step, ih, List.forall_mem_cons]
  rw [← each, ← keys_memberTrees]
  exact Iff.rfl

variable {layout : Layout}

theorem loads_dumps_json (blank : layout.Blank) (j : Json) (dictlike : Dictlike j) :
    Json.loads (j.dumps layout) = .ok j := by
  rw [Json.loads, Json.dumps, loads_dumps blank j.tree dictlike]
  exact congrArg Except.ok (ofTree_tree j)

theorem dumps_ne_empty (j : Json) : j.dumps layout ≠ "" := by
  intro blank
  obtain ⟨c, tail, start, -⟩ := render_head layout 0 j.tree
  have chars := congrArg String.toList blank
  rw [Json.dumps, JsonText.dumps, String.toList_ofList, start] at chars
  cases chars

/-! ## The checkpoint file -/

theorem dictlike_entry (s : CheckpointState) : Dictlike s.entry := by
  have hash : Dictlike ((s.lastBlockHash.map Json.str).getD .null) := by
    cases s.lastBlockHash with
    | none => exact dictlike_null
    | some text => exact dictlike_str text
  have ranges : Dictlike (.arr (s.pendingReplays.map fun r => .arr [.num r.1, .num r.2])) := by
    rw [dictlike_arr]
    intro item member
    obtain ⟨r, -, rfl⟩ := List.mem_map.mp member
    simp
  rw [CheckpointState.entry, dictlike_obj]
  refine ⟨by simp, ?_⟩
  intro m member
  simp only [List.mem_cons, List.not_mem_nil, or_false] at member
  rcases member with rfl | rfl | rfl | rfl | rfl
  · exact dictlike_num _
  · exact dictlike_str _
  · exact dictlike_num _
  · exact hash
  · exact ranges

theorem dictlike_storePayload (state : Checkpoints) : Dictlike (storePayload state) := by
  rw [storePayload, dictlike_obj]
  refine ⟨by simp, ?_⟩
  simp [dictlike_entry]

theorem readStore_saveText (state : Checkpoints) : readStore (some (saveText state)) = .ok (saveStore state) := by
  rw [saveText, readStore, if_neg (dumps_ne_empty _),
    loads_dumps_json (indented_blank 2) _ (dictlike_storePayload state)]
  rfl

/-! ### Instances on a file of text -/

section Instances
open Checkpoint
variable {ι : Type} [DecidableEq ι]

structure TextWorld (ι : Type) where
  state : ι → Checkpoints
  file : Option String

namespace TextWorld

def step (w : TextWorld ι) : Step ι → Py (TextWorld ι)
  | .call who call =>
      .ok { state := Function.update w.state who (call.apply (w.state who))
            file := call.text (w.state who) w.file }
  | .construct who => do
      let document ← readStore w.file
      let state ← loadStore document
      return { w with state := Function.update w.state who state }

def run (w : TextWorld ι) (steps : List (Step ι)) : Py (TextWorld ι) := steps.foldlM step w

/-- A text that reads as the document, and the same instances. -/
structure Reads (w : TextWorld ι) (v : World ι) : Prop where
  state : w.state = v.state
  file : readStore w.file = .ok v.file

end TextWorld

theorem step_reads (w : TextWorld ι) (v : World ι) (reads : w.Reads v) (s : Step ι) :
    Agree TextWorld.Reads (w.step s) (v.step s) := by
  cases s with
  | call who call =>
      refine ⟨by rw [reads.state], ?_⟩
      dsimp only [CheckpointCall.text, CheckpointCall.file]
      rw [reads.state]
      cases call.saves (v.state who) with
      | true => exact readStore_saveText _
      | false => exact reads.file
  | construct who =>
      rw [TextWorld.step, World.step, reads.file, ok_bind]
      refine Agree.bind (Agree.refl _) ?_
      rintro state _ rfl
      exact ⟨by rw [reads.state], reads.file⟩

theorem run_reads (w : TextWorld ι) (v : World ι) (reads : w.Reads v) (steps : List (Step ι)) :
    Agree TextWorld.Reads (w.run steps) (v.run steps) := by
  induction steps generalizing w v with
  | nil => exact reads
  | cons s rest ih =>
      rw [TextWorld.run, List.foldlM_cons, World.run_cons]
      exact Agree.bind (step_reads w v reads s) fun w' v' reads' => ih w' v' reads'

/-- Instances on text run as instances on documents do, in any interleaving. -/
theorem textRun_refines (w : TextWorld ι) (v : World ι) (reads : w.Reads v) (steps : List (Step ι)) :
    (∀ exc, v.run steps = .error exc → w.run steps = .error exc) ∧
      ∀ v', v.run steps = .ok v' → ∃ w', w.run steps = .ok w' ∧ w'.state = v'.state ∧
        readStore w'.file = .ok v'.file := by
  have agree := run_reads w v reads steps
  constructor
  · intro exc raised
    rw [raised] at agree
    cases ran : w.run steps with
    | ok w' =>
        rw [ran] at agree
        exact agree.elim
    | error exc' =>
        rw [ran] at agree
        exact congrArg Except.error agree
  · intro v' returned
    rw [returned] at agree
    cases ran : w.run steps with
    | ok w' =>
        rw [ran] at agree
        exact ⟨w', rfl, TextWorld.Reads.state agree, TextWorld.Reads.file agree⟩
    | error exc =>
        rw [ran] at agree
        exact agree.elim

/-- Two instances on a file that is not there at first. -/
def sharedSteps : List (Step Bool) :=
  [.call true (.markReplay (1, "pa_logs") (5, 9)), .construct false, .call false (.advance (1, "pa_logs") 7 "0xb7")]

def freshText : TextWorld Bool := { state := fun _ => Dict.empty, file := none }

theorem textRun_refines_shared :
    (∀ exc, World.fresh.run sharedSteps = .error exc → freshText.run sharedSteps = .error exc) ∧
      ∀ v', World.fresh.run sharedSteps = .ok v' → ∃ w', freshText.run sharedSteps = .ok w' ∧
        w'.state = v'.state ∧ readStore w'.file = .ok v'.file :=
  textRun_refines freshText World.fresh ⟨rfl, rfl⟩ sharedSteps

end Instances

/-! ## Run metadata -/

theorem dictlike_run (run : RunMetadata) : Dictlike run.payload := by
  have completed : Dictlike ((run.completedAt.map Json.num).getD .null) := by
    cases run.completedAt with
    | none => exact dictlike_null
    | some second => exact dictlike_num second
  rw [RunMetadata.payload, dictlike_obj]
  refine ⟨by simp, ?_⟩
  simp [completed]

theorem metadataFile_inj (runId runId' : RunId) : metadataFile runId = metadataFile runId' ↔ runId = runId' := by
  rw [metadataFile, metadataFile, String.append_left_inj]
  exact Subtype.ext_iff.symm

/-- The values of a recorded run. -/
def loadedRun (run : RunMetadata) : LoadedRun where
  runId := .str run.runId
  dagId := .str run.dagId
  chainId := .num run.chainId
  startedAt := .num run.startedAt
  completedAt := (run.completedAt.map Json.num).getD .null
  status := .str run.status.value
  partitionsProcessed := .num run.partitionsProcessed
  manifestIds := run.manifestIds.map Json.str

def foundRun (runId : RunId) : Option RunMetadata → Py LoadedRun
  | some run => .ok (loadedRun run)
  | none => .error (.fileNotFound ("run metadata not found for run_id=" ++ reprText runId))

theorem get?_recorded (runs : List RunMetadata) (runId : RunId) :
    (runs.foldl recordRun Dict.empty).get? (metadataFile runId) =
      (runs.filter (·.runId = runId)).getLast?.map fun run => run.payload.dumps (indented 2) := by
  have local_ := Dict.get?_foldl_local recordRun (fun run => metadataFile run.runId)
    (fun _ run => some (run.payload.dumps (indented 2))) (fun dir run file => by
      rw [recordRun, Dict.get?_set]
      exact if_congr eq_comm rfl rfl) Dict.empty runs (metadataFile runId)
  simp only [metadataFile_inj] at local_
  exact local_.trans (Dict.foldl_last _ _)

/-- A run is found as it was last recorded; a run that was not is an error. -/
theorem getRunMetadata_recorded (runs : List RunMetadata) (runId : RunId) :
    getRunMetadata (runs.foldl recordRun Dict.empty) runId =
      foundRun runId (runs.filter (·.runId = runId)).getLast? := by
  rw [getRunMetadata, get?_recorded]
  cases (runs.filter (·.runId = runId)).getLast? with
  | none => rfl
  | some run =>
      rw [Option.map_some]
      dsimp only
      rw [loads_dumps_json (indented_blank 2) run.payload (dictlike_run run)]
      rfl

/-! ## Local files -/

open FileTree

/-- Where a target is on the file system. -/
def located (home : List String) (target : LocalPath) : List String := (PosixPath.parse target.1).resolve home

theorem raisingFor_ok {α : Type} (path : PosixPath) (a : α) : raisingFor path (.ok a) = .ok a := rfl

theorem raisingFor_error_bind {α β : Type} (path : PosixPath) (error : FileError) (next : α → Py β) :
    (raisingFor path (.error error) >>= next) = .error (FileError.raised path error) := rfl

theorem saveLocal_ok {home : List String} {paths : List (List String)} {tree : FileTree}
    (within : Within home paths tree) (beside : Beside home paths) (path : PosixPath)
    (member : path.resolve home ∈ paths) (text : String) :
    ∃ tree', saveLocal home tree path text = .ok tree' ∧ Within home paths tree' ∧
      tree'.files = tree.files.set (path.resolve home) text := by
  have named : path.names ≠ [] := by
    intro empty
    have apart := (beside _ member).1
    unfold PosixPath.resolve at apart
    rw [empty] at apart
    split_ifs at apart <;> simp at apart
  obtain ⟨made, mkdir, kept, files, under⟩ := within.mkdir_ok beside member
  obtain ⟨written, write, kept', files'⟩ := kept.write_ok beside member under text
  refine ⟨written, ?_, kept', by rw [files', files]⟩
  rw [saveLocal, PosixPath.resolve_parent home path named, mkdir]
  exact congrArg (raisingFor path) write

/-! ## Manifests -/

theorem dictlike_manifest (m : Manifest) : Dictlike m.payload := by
  have counts : Dictlike (.obj (m.rowCounts.entries.map fun e => (e.1, Json.num e.2))) := by
    rw [dictlike_obj, List.map_map]
    refine ⟨m.rowCounts.nodup, fun member isMember => ?_⟩
    obtain ⟨e, -, rfl⟩ := List.mem_map.mp isMember
    exact dictlike_num e.2
  rw [Manifest.payload, dictlike_obj]
  refine ⟨by simp, ?_⟩
  simp [counts]

def loadedManifest (m : Manifest) : LoadedManifest where
  runId := .str m.runId
  runPartitionId := .str m.runPartitionId
  source := .str m.source
  partitionKey := .str m.partitionKey
  gcsPaths := .arr (m.gcsPaths.map Json.str)
  rowCounts := .obj (m.rowCounts.entries.map fun e => (e.1, Json.num e.2))
  totalRows := .num m.rowCounts.values.sum

theorem manifestPayload_payload (m : Manifest) : manifestPayload m.payload = .ok (loadedManifest m) := by
  rw [loadedManifest, ← m.counted]
  rfl

def foundManifest (target : LocalPath) : Option (LocalPath × Manifest) → Py LoadedManifest
  | some persisted => .ok (loadedManifest persisted.2)
  | none => .error (FileError.raised (PosixPath.parse target.1) .missing)

/-- Manifests persisted beside each other are loaded as they were last persisted, with the sum of their row
counts, however the target is spelled. -/
theorem loadManifest_persisted (home : List String) (persisted : List (LocalPath × Manifest)) (target : LocalPath)
    (beside : Beside home (located home target :: persisted.map fun p => located home p.1)) :
    (persisted.foldlM (fun tree p => p.2.persist home tree p.1) (FileTree.bare home) >>= fun tree =>
        loadManifest home tree target) =
      foundManifest target (persisted.filter fun p => located home p.1 = located home target).getLast? := by
  obtain ⟨tree, ran, within, files⟩ := FileTree.saved
    (fun tree (p : LocalPath × Manifest) => p.2.persist home tree p.1) (fun p => located home p.1)
    (fun p => p.2.payload.dumps (indented 2))
    (fun tree p within member => saveLocal_ok within beside _ member _) persisted
    (fun p member => List.mem_cons_of_mem _ (List.mem_map_of_mem member))
  have read : tree.read (located home target) = _ := within.read_eq beside List.mem_cons_self
  have load : loadManifest home tree target = (raisingFor (PosixPath.parse target.1)
    (tree.read (located home target)) >>= fun text => Json.loads text >>= manifestPayload) := rfl
  rw [ran, ok_bind, load, read, files]
  cases (persisted.filter fun p => located home p.1 = located home target).getLast? with
  | none => rw [Option.map_none, Option.elim_none, raisingFor_error_bind, foundManifest]
  | some p =>
      rw [Option.map_some, Option.elim_some, raisingFor_ok, ok_bind,
        loads_dumps_json (indented_blank 2) p.2.payload (dictlike_manifest p.2), ok_bind]
      exact manifestPayload_payload p.2

def manifestOf (rowCounts : Dict String Int) : Manifest :=
  Manifest.create "r1" "p1" "staking_pool_v02" "7" [] rowCounts

/-- The second of two spellings of a target replaces what the first one wrote. -/
theorem loadManifest_persisted_respelled :
    ([(⟨"out/m.json", by decide⟩, manifestOf (Dict.ofList [("a", 2)])),
        (⟨"./out//m.json", by decide⟩, manifestOf (Dict.ofList [("a", 2), ("b", 3)]))].foldlM
          (fun tree (p : LocalPath × Manifest) => p.2.persist ["work"] tree p.1) (FileTree.bare ["work"]) >>=
        fun tree => loadManifest ["work"] tree ⟨"out/m.json", by decide⟩) =
      .ok (loadedManifest (manifestOf (Dict.ofList [("a", 2), ("b", 3)]))) :=
  loadManifest_persisted ["work"] _ _ (by decide)

/-! ## Dataset files -/

/-- The rows of a file, one on each line. -/
def readLines (text : String) : Option (List Json) := (loadsLines text).map (List.map Json.ofTree)

/-- A row of documents. -/
def DictlikeRow (row : DatasetRow) : Prop := ∀ e ∈ row.entries, Dictlike e.2

theorem mem_entries_set {row : DatasetRow} {key : String} {value : Json} {e : String × Json}
    (member : e ∈ (row.set key value).entries) : e ∈ row.entries ∨ e = (key, value) := by
  have found := (Dict.get?_eq_some_iff _ e.1 e.2).mpr member
  rw [Dict.get?_set] at found
  split_ifs at found with own
  · exact Or.inr (Prod.ext own (Option.some.inj found).symm)
  · exact Or.inl ((Dict.get?_eq_some_iff _ e.1 e.2).mp found)

theorem dictlike_taggedRow {item : DatasetRow} (dictlike : DictlikeRow item) (runPartitionId : String)
    (ingestedAt : Int) : DictlikeRow (taggedRow item runPartitionId ingestedAt) := by
  intro e member
  rcases mem_entries_set member with inner | rfl
  · rcases mem_entries_set inner with old | rfl
    · exact dictlike e old
    · exact dictlike_str runPartitionId
  · exact dictlike_num ingestedAt

theorem readLines_writeLocal (rows : List DatasetRow) (dictlike : ∀ row ∈ rows, DictlikeRow row) :
    readLines (writeLocal rows) = some (rows.map fun row => Json.obj row.entries) := by
  have distinct : ∀ tree ∈ rows.map fun row => (Json.obj row.entries).tree, tree.Distinct := by
    intro tree member
    obtain ⟨row, isRow, rfl⟩ := List.mem_map.mp member
    exact (dictlike_obj row.entries).mpr ⟨row.nodup, dictlike row isRow⟩
  rw [readLines, writeLocal, loadsLines_dumpsLines _ distinct, Option.map_some, List.map_map]
  exact congrArg some (List.map_congr_left fun row _ => ofTree_tree _)

structure DatasetWrite where
  items : List (DatasetRow × Int)
  gcsPath : LocalPath
  runPartitionId : RunPartitionId

namespace DatasetWrite

def apply (home : List String) (tree : FileTree) (w : DatasetWrite) : Py FileTree :=
  (writeDataset home tree w.items w.gcsPath w.runPartitionId).map Prod.fst

/-- The part file of a run in a directory. -/
def file (home : List String) (gcsPath : LocalPath) (runPartitionId : RunPartitionId) : List String :=
  located home gcsPath ++ [partFile runPartitionId]

/-- The rows of a write, as it tags them. -/
def documents (w : DatasetWrite) : List Json :=
  w.items.map fun item => .obj (taggedRow item.1 w.runPartitionId.1 item.2).entries

def text (w : DatasetWrite) : String :=
  writeLocal (w.items.map fun item => taggedRow item.1 w.runPartitionId.1 item.2)

end DatasetWrite

theorem member_tagged (item : DatasetRow) (runPartitionId : String) (ingestedAt : Int) :
    (Json.obj (taggedRow item runPartitionId ingestedAt).entries).member "run_partition_id" =
      .ok (.str runPartitionId) := by
  have found : (taggedRow item runPartitionId ingestedAt).get? "run_partition_id" =
      some (.str runPartitionId) := by
    rw [taggedRow, Dict.get?_set, if_neg (by decide), Dict.get?_set, if_pos rfl]
  obtain ⟨e, first, value⟩ := Option.map_eq_some_iff.mp found
  rw [Json.member, first]
  exact congrArg Except.ok value

theorem partFile_inj (id id' : RunPartitionId) : partFile id = partFile id' ↔ id = id' := by
  rw [partFile, partFile, String.append_left_inj, String.append_right_inj]
  exact Subtype.ext_iff.symm

theorem apply_ok {home : List String} {paths : List (List String)} {tree : FileTree} (w : DatasetWrite)
    (within : Within home paths tree) (beside : Beside home paths)
    (member : DatasetWrite.file home w.gcsPath w.runPartitionId ∈ paths) :
    ∃ tree', w.apply home tree = .ok tree' ∧ Within home paths tree' ∧
      tree'.files = tree.files.set (DatasetWrite.file home w.gcsPath w.runPartitionId) w.text := by
  have resolved : ((PosixPath.parse w.gcsPath.1).child (partFile w.runPartitionId)).resolve home =
      DatasetWrite.file home w.gcsPath w.runPartitionId := PosixPath.resolve_child home _ _
  obtain ⟨tree', saved, kept, files⟩ := saveLocal_ok within beside _ (resolved ▸ member) w.text
  refine ⟨tree', ?_, kept, by rw [files, resolved]⟩
  rw [DatasetWrite.text] at saved
  rw [DatasetWrite.apply, writeDataset, saved]
  rfl

/-- Writes to part files beside each other do not raise; a replay of a partition replaces the rows of its
file, each of them tagged, and touches no other file. -/
theorem dataset_written (home : List String) (writes : List DatasetWrite)
    (dictlike : ∀ w ∈ writes, ∀ item ∈ w.items, DictlikeRow item.1)
    (beside : Beside home (writes.map fun w => DatasetWrite.file home w.gcsPath w.runPartitionId)) :
    (∃ tree, writes.foldlM (fun tree w => w.apply home tree) (FileTree.bare home) = .ok tree ∧
      ∀ gcsPath runPartitionId,
        ((tree.files.get? (DatasetWrite.file home gcsPath runPartitionId)).bind readLines) =
          ((writes.filter fun w => located home w.gcsPath = located home gcsPath ∧
            w.runPartitionId = runPartitionId).getLast?).map DatasetWrite.documents) ∧
      ∀ w ∈ writes, ∀ row ∈ w.documents, row.member "run_partition_id" = .ok (.str w.runPartitionId) := by
  constructor
  · obtain ⟨tree, ran, -, files⟩ := FileTree.saved (fun tree (w : DatasetWrite) => w.apply home tree)
      (fun w => DatasetWrite.file home w.gcsPath w.runPartitionId) DatasetWrite.text
      (fun tree w within member => apply_ok w within beside member) writes
      (fun w member => List.mem_map_of_mem member)
    refine ⟨tree, ran, fun gcsPath runPartitionId => ?_⟩
    have same (w : DatasetWrite) : DatasetWrite.file home w.gcsPath w.runPartitionId =
        DatasetWrite.file home gcsPath runPartitionId ↔
          located home w.gcsPath = located home gcsPath ∧ w.runPartitionId = runPartitionId := by
      rw [DatasetWrite.file, DatasetWrite.file, ← List.concat_eq_append, ← List.concat_eq_append,
        List.concat_inj, partFile_inj]
    rw [files]
    simp only [same]
    cases last : (writes.filter fun w => located home w.gcsPath = located home gcsPath ∧
        w.runPartitionId = runPartitionId).getLast? with
    | none => rfl
    | some w =>
        have isWrite := (List.mem_filter.mp (List.mem_of_getLast? last)).1
        rw [Option.map_some, Option.bind_some, Option.map_some, DatasetWrite.text, readLines_writeLocal,
          List.map_map]
        · rfl
        · intro row member
          obtain ⟨item, isItem, rfl⟩ := List.mem_map.mp member
          exact dictlike_taggedRow (dictlike w isWrite item isItem) _ _
  · intro w _ row member
    obtain ⟨item, -, rfl⟩ := List.mem_map.mp member
    exact member_tagged item.1 w.runPartitionId.1 item.2

/-- A partition written twice, with a row that names another partition and another spelling of its
directory. -/
def replayedWrites : List DatasetWrite :=
  [⟨[(Dict.ofList [("log_index", .num 3)], 100)], ⟨"out", by decide⟩, ⟨"p1", by decide⟩⟩,
    ⟨[(Dict.ofList [("run_partition_id", .str "p0"), ("topics", .arr [.str "0xdd"])], 200)],
      ⟨"out/", by decide⟩, ⟨"p1", by decide⟩⟩]

theorem dataset_written_replayed :
    (∃ tree, replayedWrites.foldlM (fun tree w => w.apply ["work"] tree) (FileTree.bare ["work"]) = .ok tree ∧
      ∀ gcsPath runPartitionId,
        ((tree.files.get? (DatasetWrite.file ["work"] gcsPath runPartitionId)).bind readLines) =
          ((replayedWrites.filter fun w => located ["work"] w.gcsPath = located ["work"] gcsPath ∧
            w.runPartitionId = runPartitionId).getLast?).map DatasetWrite.documents) ∧
      ∀ w ∈ replayedWrites, ∀ row ∈ w.documents,
        row.member "run_partition_id" = .ok (.str w.runPartitionId) := by
  apply dataset_written ["work"] replayedWrites
  · intro w member item isItem e isField
    simp only [replayedWrites, List.mem_cons, List.not_mem_nil, or_false] at member
    rcases member with rfl | rfl
    · obtain rfl := List.mem_singleton.mp isItem
      obtain rfl := List.mem_singleton.mp isField
      exact dictlike_num 3
    · obtain rfl := List.mem_singleton.mp isItem
      rcases List.mem_cons.mp isField with rfl | later
      · exact dictlike_str "p0"
      · obtain rfl := List.mem_singleton.mp later
        simp
  · decide

end EconomicLedger.Storage
