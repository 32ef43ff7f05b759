import CqlClient.NameMap
import CqlClient.Value.Text
import CqlClient.WireType.Basic

/-!
Rows and results. A row holds the columns of a result by name, null ones included.
-/

namespace CqlClient

/-- One row of a result, in the order of its column names. -/
abbrev Row := NameMap Value

/-- Where a column of a result comes from, and its type. -/
structure Column where
  keyspace : String
  table : String
  name : String
  type : WireType
  deriving DecidableEq, Repr

/-- Rows in the order in which the node gave them. -/
structure ResultSet where
  columns : List Column
  rows : List Row

namespace ResultSet

def empty : ResultSet := ⟨[], []⟩

/-- A row on one line: each column with its value. -/
def rowLine (row : Row) : String :=
  ", ".intercalate (row.entries.map fun (name, value) => name ++ "=" ++ value.display)

/-- The lines that show a result: one for each row, then their number. -/
def lines (result : ResultSet) : List String :=
  if result.rows.isEmpty then ["(no rows)"]
  else result.rows.map rowLine ++ ["(" ++ Integer.text result.rows.length ++ " rows)"]

end ResultSet

end CqlClient
