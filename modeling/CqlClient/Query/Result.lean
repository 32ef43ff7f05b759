import CqlClient.Cell.Decode
import CqlClient.ClientError
import CqlClient.Message.Response

/-!
What a query leads to: the rows of a result, or why there are none.
-/

namespace CqlClient

namespace ResultSet

/-- A row from its cells. Of two columns with one name the last one stays. -/
def readRow (columns : List Column) (cells : List Cell) : Except DecodeError Row := do
  let entries ← (columns.zip cells).mapM fun (column, cell) => do
    return (column.name, ← column.type.decode cell)
  return .ofList entries

/-- The result in a node's answer. An outcome without rows is an empty result. -/
def ofOutcome : Outcome → Except DecodeError ResultSet
  | .rows columns cells => do return ⟨columns, ← cells.mapM (readRow columns)⟩
  | _ => return empty

end ResultSet

/-- What the response to a query amounts to. -/
inductive Verdict where
  /-- The node has answered, if only with an error or with cells that cannot be read. -/
  | answered (result : Except ClientError ResultSet)
  /-- The node has not kept to the protocol. -/
  | breach (reason : String)

namespace Verdict

/-- Judges the response to a query. -/
def ofFrame (frame : Frame) : Verdict :=
  match Response.decode frame.opcode frame.body with
  | .error err => breach err.message
  | .ok (.error code message) => answered (.error (.server code message))
  | .ok (.result outcome) =>
    answered <|
      match ResultSet.ofOutcome outcome with
      | .ok rows => .ok rows
      | .error err => .error (.decode err)
  | .ok other => breach ("unexpected " ++ other.opcode.name ++ " response to QUERY")

end Verdict

end CqlClient
