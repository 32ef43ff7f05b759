import CqlClient.Cell.Encode
import CqlClient.Cell.Literal
import CqlClient.Message.Request
import CqlClient.Query.Placeholder

/-!
Queries: a text with named placeholders, the values bound to them, and the consistency asked for.
A value is either sent beside the text or spliced into it as a literal.
-/

namespace CqlClient

/-- A value and the type of the column it is meant for. -/
structure TypedValue where
  type : WireType
  value : Value

abbrev Parameters := NameMap TypedValue

structure Query where
  text : String
  params : Parameters
  consistency : Consistency

namespace Query

/-- A query without values. -/
def of (text : String) : Query := ⟨text, .empty, .standard⟩

def bind (query : Query) (name : String) (param : TypedValue) : Query :=
  { query with params := query.params.insert name param }

def withParameters (query : Query) (params : Parameters) : Query :=
  { query with params := query.params.insertMany params.entries }

/-- Counters may only stand where they are added or subtracted. -/
def misplacesCounter (type : WireType) (uses : List Placeholder) : Bool :=
  type == .scalar .counter && !uses.all (·.increment)

/-- The text with a literal in place of every placeholder of a name. -/
def splice (text name literal : String) : String :=
  String.ofList <| (segments text).flatMap fun s =>
    match s with
    | .placeholder n => if String.ofList n = name then literal.toList else s.chars
    | _ => s.chars

/-- The query with a value spliced into its text. -/
def inline (query : Query) (name : String) (param : TypedValue) : Except EncodeError Query := do
  let literal ← param.type.literal param.value
  let uses := (placeholders query.text).filter (·.name == name)
  if uses.isEmpty then .error (.unknownParameter name)
  else if misplacesCounter param.type uses then .error .counterAssignment
  else return { query with text := splice query.text name literal }

/-- The cell of a bound value, whose name must be among the placeholders. -/
def encodeParameter (found : List Placeholder) (name : String) (param : TypedValue) :
    Except EncodeError (String × Cell) := do
  let uses := found.filter (·.name == name)
  if uses.isEmpty then .error (.unknownParameter name)
  else if misplacesCounter param.type uses then .error .counterAssignment
  else return (name, ← param.type.encode param.value)

/-- The request of a query. Every placeholder needs a value and every value a placeholder; the
values are sent in the order of their names. -/
def toRequest (query : Query) : Except EncodeError QueryRequest := do
  let found := placeholders query.text
  match found.find? fun p => (query.params.get? p.name).isNone with
  | some missing => .error (.missingParameter missing.name)
  | none =>
    let values ← query.params.entries.mapM fun (name, param) => encodeParameter found name param
    return ⟨query.text, query.consistency, values⟩

end Query

end CqlClient
