import EconomicLedger.Model.SeedFiles
import EconomicLedger.Storage.TextFiles
import EconomicLedger.Trace.Addresses

/-!
# Reading the seed files back

A seed file has its columns in the first row and one row for each row of the table, whatever commas, quotes
and line breaks the values hold; lists, objects and numbers come back from their cells.
-/

namespace EconomicLedger.Seed
open Model JsonText Storage

/-- The value a cell holds, for a column of a known kind. -/
inductive Kind where
  | text
  | number
  | flag
  | document
deriving DecidableEq

def Kind.read (kind : Kind) (cell : String) : Option Json :=
  match kind with
  | .text => some (.str cell)
  | .number => (parseInt cell.toList).map Json.num
  | .flag => if cell = "true" then some (.bool true) else if cell = "false" then some (.bool false) else none
  | .document => (Json.loads cell).toOption

/-- The values that a column of the kind holds. -/
def Kind.Holds : Kind → Json → Prop
  | .text, .str _ => True
  | .number, .num _ => True
  | .flag, .bool _ => True
  | .document, .arr items => Dictlike (.arr items)
  | .document, .obj members => Dictlike (.obj members)
  | _, _ => False

theorem read_toCsvValue (kind : Kind) (j : Json) (holds : kind.Holds j) :
    kind.read (toCsvValue (.json j)) = some j := by
  cases kind with
  | text =>
      cases j with
      | str s => rfl
      | _ => exact holds.elim
  | number =>
      cases j with
      | num n => rw [toCsvValue, Kind.read, Trace.parseInt_toString n, Option.map_some]
      | _ => exact holds.elim
  | flag =>
      cases j with
      | bool b =>
          cases b with
          | true => rfl
          | false => rfl
      | _ => exact holds.elim
  | document =>
      cases j with
      | arr items =>
          rw [toCsvValue, Kind.read, loads_dumps_json compact_blank _ holds]
          rfl
      | obj members =>
          rw [toCsvValue, Kind.read, loads_dumps_json compact_blank _ holds]
          rfl
      | _ => exact holds.elim

/-- A row with a value of its kind in every column. -/
def Typed (columns : List (String × Kind)) (row : SeedRow) : Prop :=
  ∀ column ∈ columns, ∃ j, row.get? column.1 = some (.json j) ∧ column.2.Holds j

def readCells (columns : List (String × Kind)) (cells : List String) : List (Option Json) :=
  List.zipWith (fun column cell => column.2.read cell) columns cells

/-- The file of a table holds its columns and, row by row, its values. -/
theorem seed_file_read (columns : List (String × Kind)) (rows : List SeedRow)
    (typed : ∀ row ∈ rows, Typed columns row) :
    ∃ cells, Csv.readRows (writeCsv rows (columns.map Prod.fst)) = columns.map Prod.fst :: cells ∧
      List.Forall₂ (fun row cells => columns.map (fun column => row.get? column.1) =
        (readCells columns cells).map (Option.map SeedValue.json)) rows cells := by
  refine ⟨rows.map fun row => (columns.map Prod.fst).map (seedCell row), Csv.readRows_writeRows _, ?_⟩
  rw [List.forall₂_map_right_iff, List.forall₂_same]
  intro row member
  rw [readCells, List.map_map, List.zipWith_map_right, List.zipWith_self, List.map_map]
  apply List.map_congr_left
  intro column isColumn
  obtain ⟨j, found, holds⟩ := typed row member column isColumn
  rw [Function.comp_apply, Function.comp_apply, seedCell, found, Option.getD_some,
    read_toCsvValue column.2 j holds, Option.map_some]

def transferColumns : List (String × Kind) :=
  [("tx_hash", .text), ("log_index", .number), ("topics", .document)]

def transferSeedRow : SeedRow :=
  Dict.ofList [("tx_hash", .json (.str "0xa1")), ("log_index", .json (.num 3)),
    ("topics", .json (.arr [.str "0xdd", .str "0x0b"]))]

theorem seed_file_read_transfer :
    ∃ cells, Csv.readRows (writeCsv [transferSeedRow] (transferColumns.map Prod.fst)) =
        transferColumns.map Prod.fst :: cells ∧
      List.Forall₂ (fun row cells => transferColumns.map (fun column => row.get? column.1) =
        (readCells transferColumns cells).map (Option.map SeedValue.json)) [transferSeedRow] cells := by
  apply seed_file_read
  intro row member column isColumn
  obtain rfl := List.mem_singleton.mp member
  simp only [transferColumns, List.mem_cons, List.not_mem_nil, or_false] at isColumn
  rcases isColumn with rfl | rfl | rfl
  · exact ⟨_, rfl, trivial⟩
  · exact ⟨_, rfl, trivial⟩
  · refine ⟨_, rfl, (dictlike_arr _).mpr ?_⟩
    simp

end EconomicLedger.Seed
