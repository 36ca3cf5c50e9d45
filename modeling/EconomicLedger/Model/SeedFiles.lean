import EconomicLedger.Lib.Csv
import EconomicLedger.Model.JsonFiles

/-!
# Seed files (`scripts/seed_to_local.py`)

The CSV files of the seed tables. A row is a dictionary, and a column it lacks is written as an empty cell.
-/

namespace EconomicLedger.Model
open JsonText

inductive SeedValue where
  | json (j : Json)
  | bytes (bs : List UInt8)

/-- `_to_csv_value`. -/
def toCsvValue : SeedValue → String
  | .json .null => ""
  | .json (.bool b) => if b then "true" else "false"
  | .json (.arr items) => (Json.arr items).dumps compact
  | .json (.obj members) => (Json.obj members).dumps compact
  | .json (.num n) => toString n
  | .json (.str s) => s
  | .bytes bs => "0x" ++ toHex bs

abbrev SeedRow := Dict String SeedValue

def seedCell (row : SeedRow) (column : String) : String :=
  toCsvValue ((row.get? column).getD (.json .null))

/-- `_write_csv`: the text of the file. -/
def writeCsv (rows : List SeedRow) (columns : List String) : String :=
  Csv.writeRows (columns :: rows.map fun row => columns.map (seedCell row))

end EconomicLedger.Model
