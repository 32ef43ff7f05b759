import CqlClient.Cell.Encode

/-!
Reading the octets of a cell as a value of its column. Every octet must be used, and only by the
value it belongs to.
-/

namespace CqlClient

/-- The octets, if there are exactly as many as a type takes. -/
def fixedLength (type : WireType) (length : Nat) (bytes : Bytes) : Except DecodeError Bytes :=
  if bytes.length = length then .ok bytes
  else .error (.invalidLength type length bytes.length)

/-- The text of UTF-8 octets. -/
def decodeText (bytes : Bytes) : Except DecodeError String :=
  match Utf8.decode? bytes with
  | some text => .ok text
  | none => .error .invalidUtf8

/-- The identifier of sixteen octets. -/
def decodeUuid (type : WireType) (bytes : Bytes) : Except DecodeError Uuid :=
  match Uuid.ofOctets? bytes with
  | some id => .ok id
  | none => .error (.invalidLength type 16 bytes.length)

/-- The value of a cell of a type without elements. -/
def Scalar.decode (s : Scalar) (bytes : Bytes) : Except DecodeError Value :=
  let fixed (length : Nat) := fixedLength (.scalar s) length bytes
  match s with
  | decimal => .error (.unsupported (.scalar s))
  | inet => .error (.unsupported (.scalar s))
  | int => do return .int (Bytes.toInt32 (← fixed 4))
  | bigint => do return .bigint (Bytes.toInt64 (← fixed 8))
  | varint =>
    if bytes.isEmpty then .error (.invalidLength (.scalar s) 1 0)
    else .ok (.varint (TwosComplement.decode bytes))
  | float => do return .float (Bytes.toWord32 (← fixed 4))
  | double => do return .double (Bytes.toWord64 (← fixed 8))
  | boolean => do
    match ← fixed 1 with
    | [0] => return .boolean false
    | [1] => return .boolean true
    | octets => .error (.invalidBoolean (octets.headD 0))
  | blob => .ok (.blob bytes)
  | ascii =>
    match nonAscii? bytes with
    | some position => .error (.nonAscii position)
    | none => do return .ascii (← decodeText bytes)
  | text => do return .text (← decodeText bytes)
  | varchar => do return .text (← decodeText bytes)
  | timestamp => do
    let millis := Bytes.toInt64 (← fixed 8)
    match Instant.ofMillis? millis.toInt with
    | some t => return .timestamp t
    | none => .error (.timestampOutOfRange millis)
  | uuid => do return .uuid (← decodeUuid (.scalar s) bytes)
  | timeuuid => do return .timeuuid (← decodeUuid (.scalar s) bytes)
  | counter => do return .counter (Bytes.toInt64 (← fixed 8))

/-- A signed word in front of a collection or an element, and what follows it. -/
def readLength (collection : WireType) (bytes : Bytes) : Except DecodeError (Int32 × Bytes) :=
  match Bytes.split? 4 bytes with
  | some (head, rest) => .ok (Bytes.toInt32 head, rest)
  | none => .error (.truncated collection)

/-- The number of elements, which stands in front of them. -/
def readCount (collection : WireType) (bytes : Bytes) : Except DecodeError (Nat × Bytes) := do
  let (count, rest) ← readLength collection bytes
  if count < 0 then .error (.negativeCount count) else return (count.toInt.toNat, rest)

/-- One element with its length, and what follows it. -/
def readElement (collection : WireType) (decode : Bytes → Except DecodeError Value)
    (bytes : Bytes) : Except DecodeError (Value × Bytes) := do
  let (length, rest) ← readLength collection bytes
  if length < 0 then .error (.nullElement collection)
  else
    match Bytes.split? length.toInt.toNat rest with
    | none => .error (.truncated collection)
    | some (body, rest) => return (← decode body, rest)

/-- As many elements as asked for, and what follows them. -/
def readItems {α : Type} (read : Bytes → Except DecodeError (α × Bytes)) :
    Nat → Bytes → Except DecodeError (List α × Bytes)
  | 0, bytes => .ok ([], bytes)
  | count + 1, bytes => do
    let (item, rest) ← read bytes
    let (items, rest) ← readItems read count rest
    return (item :: items, rest)

/-- A whole collection: its count, its elements and nothing else. -/
def readCollection {α : Type} (collection : WireType)
    (read : Bytes → Except DecodeError (α × Bytes)) (bytes : Bytes) :
    Except DecodeError (List α) := do
  let (count, rest) ← readCount collection bytes
  let (items, rest) ← readItems read count rest
  if rest.isEmpty then return items else .error (.trailingBytes collection)

/-- An entry of a map: the key, then the value. -/
def readEntry (readKey readValue : Bytes → Except DecodeError (Value × Bytes)) (bytes : Bytes) :
    Except DecodeError ((Value × Value) × Bytes) := do
  let (key, rest) ← readKey bytes
  let (value, rest) ← readValue rest
  return ((key, value), rest)

namespace WireType

/-- The value of a cell that is not null. -/
def decodeBody : WireType → Bytes → Except DecodeError Value
  | scalar s, bytes => s.decode bytes
  | list e, bytes => do
    return .list (← readCollection (list e) (readElement (list e) e.decodeBody) bytes)
  | set e, bytes => do
    return .set (← readCollection (set e) (readElement (set e) e.decodeBody) bytes)
  | map k w, bytes => do
    return .map (← readCollection (map k w)
      (readEntry (readElement (map k w) k.decodeBody) (readElement (map k w) w.decodeBody)) bytes)

/-- The value of a cell. -/
def decode (type : WireType) : Cell → Except DecodeError Value
  | none => .ok .null
  | some bytes => type.decodeBody bytes

end WireType

end CqlClient
