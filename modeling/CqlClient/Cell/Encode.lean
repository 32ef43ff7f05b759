import CqlClient.Bytes.TwosComplement
import CqlClient.Cell.Error
import CqlClient.Value.Basic

/-!
Writing values as the octets of a cell. A collection is its count followed by its elements, each
with its length in front; it holds no null, and a set or the keys of a map no element twice.
-/

namespace CqlClient

/-- The content of a cell; a null has none. -/
abbrev Cell := Option Bytes

/-- The greatest length and the greatest count that a cell can state. -/
def Cell.limit : Nat := 0x7fffffff

/-- The place of the first octet that is not ASCII. -/
def nonAscii? (bytes : Bytes) : Option Nat := bytes.findIdx? fun octet => 128 ≤ octet

/-- Decimal numbers and network addresses have no cells. -/
def Scalar.isSupported : Scalar → Bool
  | decimal | inet => false
  | _ => true

def WireType.isSupported : WireType → Bool
  | scalar s => s.isSupported
  | _ => true

/-- Whether there are cells of a type at all; the types of elements are looked at later. -/
def WireType.checkSupported (type : WireType) : Except EncodeError Unit :=
  if type.isSupported then .ok () else .error (.unsupported type)

/-- The octets of a value that is not null, for a type without elements. -/
def Scalar.encode : Scalar → Value → Except EncodeError Bytes
  | decimal, _ => .error (.unsupported (.scalar decimal))
  | inet, _ => .error (.unsupported (.scalar inet))
  | int, .int n => .ok (Bytes.ofInt32 n)
  | bigint, .bigint n => .ok (Bytes.ofInt64 n)
  | varint, .varint n => .ok (TwosComplement.encode n)
  | float, .float bits => .ok (Bytes.ofWord32 bits)
  | double, .double bits => .ok (Bytes.ofWord64 bits)
  | boolean, .boolean b => .ok [if b then 1 else 0]
  | blob, .blob bytes => .ok bytes
  | ascii, .ascii content =>
    match nonAscii? (Utf8.encode content) with
    | some position => .error (.nonAscii position)
    | none => .ok (Utf8.encode content)
  | text, .text content => .ok (Utf8.encode content)
  | varchar, .text content => .ok (Utf8.encode content)
  | timestamp, .timestamp t => .ok (Bytes.ofInt64 (Int64.ofInt t.millis))
  | uuid, .uuid id => .ok id.octets
  | timeuuid, .timeuuid id => .ok id.octets
  | counter, .counterDelta n => .ok (Bytes.ofInt64 n)
  | counter, .counter _ => .error .counterAssignment
  | s, v => .error (.typeMismatch (.scalar s) v.kind)

/-- The octets of a count. -/
def encodeCount (count : Nat) : Except EncodeError Bytes :=
  if count ≤ Cell.limit then .ok (Bytes.ofNat 4 count) else .error (.tooLarge count)

/-- An element of a collection: its length and its octets. -/
def encodeElement (collection : WireType) (encode : Value → Except EncodeError Bytes)
    (v : Value) : Except EncodeError Bytes := do
  if v.isNull then .error (.nullElement collection)
  else
    let body ← encode v
    return (← encodeCount body.length) ++ body

/-- Elements in order; the first one that fails decides the error. -/
def encodeItems (encode : Value → Except EncodeError Bytes) :
    List Value → Except EncodeError Bytes
  | [] => .ok []
  | v :: rest => do return (← encode v) ++ (← encodeItems encode rest)

/-- Entries in order, each key before its value. -/
def encodeEntries (encodeKey encodeValue : Value → Except EncodeError Bytes) :
    List (Value × Value) → Except EncodeError Bytes
  | [] => .ok []
  | (k, v) :: rest => do
    return (← encodeKey k) ++ (← encodeValue v) ++ (← encodeEntries encodeKey encodeValue rest)

namespace WireType

/-- The octets of a value that is not null. -/
def encodeBody : WireType → Value → Except EncodeError Bytes
  | scalar s, v => s.encode v
  | list e, .list items => do
    return (← encodeCount items.length) ++
      (← encodeItems (encodeElement (list e) e.encodeBody) items)
  | set e, .set items => do
    if Value.hasRepeat items then .error (.duplicateElement (set e))
    else
      return (← encodeCount items.length) ++
        (← encodeItems (encodeElement (set e) e.encodeBody) items)
  | map k w, .map entries => do
    if Value.hasRepeat (entries.map Prod.fst) then .error (.duplicateElement (map k w))
    else
      return (← encodeCount entries.length) ++
        (← encodeEntries (encodeElement (map k w) k.encodeBody)
          (encodeElement (map k w) w.encodeBody) entries)
  | t, v => .error (.typeMismatch t v.kind)

/-- The cell of a value. A null is written alike for every type. -/
def encode (type : WireType) (v : Value) : Except EncodeError Cell := do
  if v.isNull then return none
  let body ← type.encodeBody v
  if body.length ≤ Cell.limit then return some body else .error (.tooLarge body.length)

end WireType

end CqlClient
