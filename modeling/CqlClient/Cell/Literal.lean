import CqlClient.Cell.Encode
import CqlClient.Value.Text

/-!
Values as literals of the query language, for use inside the text of a query. Numbers and booleans
are bare, strings are quoted, octets are hexadecimal, and a moment is its milliseconds since 1970.
-/

namespace CqlClient

/-- The literal of a value that is not null, for a type without elements. -/
def Scalar.literal : Scalar → Value → Except EncodeError String
  | decimal, _ => .error (.unsupported (.scalar decimal))
  | inet, _ => .error (.unsupported (.scalar inet))
  | int, .int n => .ok (Integer.text n.toInt)
  | bigint, .bigint n => .ok (Integer.text n.toInt)
  | varint, .varint n => .ok (Integer.text n)
  | counter, .counterDelta n => .ok (Integer.text n.toInt)
  | counter, .counter _ => .error .counterAssignment
  | float, .float bits => .ok (Ieee.singleText bits)
  | double, .double bits => .ok (Ieee.doubleText bits)
  | boolean, .boolean b => .ok (if b then "true" else "false")
  | blob, .blob bytes => .ok ("0x" ++ Hex.encode bytes)
  | ascii, .ascii content =>
    match nonAscii? (Utf8.encode content) with
    | some position => .error (.nonAscii position)
    | none => .ok (quoted content)
  | text, .text content => .ok (quoted content)
  | varchar, .text content => .ok (quoted content)
  | timestamp, .timestamp t => .ok (Integer.text t.millis)
  | uuid, .uuid id => .ok id.text
  | timeuuid, .timeuuid id => .ok id.text
  | s, v => .error (.typeMismatch (.scalar s) v.kind)

/-- The literal of an element, which is not null. -/
def elementLiteral (collection : WireType) (literal : Value → Except EncodeError String)
    (v : Value) : Except EncodeError String :=
  if v.isNull then .error (.nullElement collection) else literal v

/-- Literals with a comma and a blank between them. -/
def itemsLiteral {α : Type} (literal : α → Except EncodeError String) (items : List α) :
    Except EncodeError String := do
  return ", ".intercalate (← items.mapM literal)

/-- The literal of an entry of a map. -/
def entryLiteral (keyLiteral valueLiteral : Value → Except EncodeError String)
    (entry : Value × Value) : Except EncodeError String := do
  return (← keyLiteral entry.1) ++ ": " ++ (← valueLiteral entry.2)

namespace WireType

/-- The literal of a value that is not null. -/
def literalBody : WireType → Value → Except EncodeError String
  | scalar s, v => s.literal v
  | list e, .list items => do
    return "[" ++ (← itemsLiteral (elementLiteral (list e) e.literalBody) items) ++ "]"
  | set e, .set items => do
    return "\x7b" ++ (← itemsLiteral (elementLiteral (set e) e.literalBody) items) ++ "\x7d"
  | map k w, .map entries => do
    return "\x7b" ++ (← itemsLiteral (entryLiteral (elementLiteral (map k w) k.literalBody)
      (elementLiteral (map k w) w.literalBody)) entries) ++ "\x7d"
  | t, v => .error (.typeMismatch t v.kind)

/-- The literal of a value. -/
def literal (type : WireType) (v : Value) : Except EncodeError String :=
  if v.isNull then .ok "null" else type.literalBody v

end WireType

/-- The value of hexadecimal text, which may start with `0x`. -/
def Value.blobOfHex (text : String) : Except EncodeError Value :=
  let digits := match text.toList with
    | '0' :: 'x' :: rest => String.ofList rest
    | '0' :: 'X' :: rest => String.ofList rest
    | _ => text
  match Hex.decode digits with
  | .ok bytes => .ok (.blob bytes)
  | .error err => .error (.invalidHex err.message)

end CqlClient
