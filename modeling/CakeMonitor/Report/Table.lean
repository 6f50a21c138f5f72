import CakeMonitor.Quantity
import CakeMonitor.Tin
/-!
# The table of the tins

The statistics of the tins are printed as a table with a column for each tin. Its header names the
tins, and each row begins with the name of a figure or a counter.

* `TinTable.joinNames` (`parse_tier_names`): the names in a header; `Best Effort` and `Tin 0` are two words
  each.
* `TinTable.assemble` (`assemble_tiers`): the tins, column by column.
-/

namespace CakeMonitor.TinTable

/-- The rows by their first words; of several equal ones the last counts. -/
abbrev Rows := List (Text × List Text)

/-- The tin names that the words of a header make up. -/
def joinNames : List Text → List Text
  | [] => []
  | [w] => [w]
  | w :: v :: ws =>
    if w = "Best" ∧ v = "Effort" then ("Best Effort" : Text) :: joinNames ws
    else if w = "Tin" then (("Tin " : Text) ++ v) :: joinNames ws
    else w :: joinNames (v :: ws)

/-- The values of the last row with that first word. -/
def row (key : Text) (rows : Rows) : List Text :=
  ((rows.filter fun r => r.1 = key).getLast?.map (·.2)).getD []

/-- The value of a row in a column, empty when either is missing. -/
def cell (rows : Rows) (key : String) (column : Nat) : Text :=
  (row key rows)[column]?.getD []

/-- The tin of a column. -/
def tin (rows : Rows) (name : Text) (column : Nat) : Except NumberError Tin := do
  let counters ← TinCounters.read fun c =>
    (Counter.read (cell rows c.keyword column)).map fun n => (n : Int)
  return { name, labels := .ofFn fun l => cell rows l.keyword column, counters }

/-- One tin for each name, from left to right. -/
def assemble (names : List Text) (rows : Rows) : Except NumberError (List Tin) :=
  names.zipIdx.mapM fun (name, column) => tin rows name column

end CakeMonitor.TinTable
