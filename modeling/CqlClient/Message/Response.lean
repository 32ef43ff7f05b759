import CqlClient.Message.Frame
import CqlClient.Message.TypeCode
import CqlClient.NameMap
import CqlClient.Row

/-!
The messages that a node sends.
-/

namespace CqlClient

/-- What a query led to. -/
inductive Outcome where
  | void
  | rows (columns : List Column) (cells : List (List (Option Bytes)))
  | setKeyspace (keyspace : String)
  /-- The options name what changed: a keyspace, and what in it. -/
  | schemaChange (change target : String) (options : List String)
  deriving DecidableEq, Repr

inductive Response where
  | error (code : Int32) (message : String)
  | ready
  | authenticate (authenticator : String)
  | supported (options : NameMap (List String))
  | result (outcome : Outcome)
  | event

namespace Outcome

def voidKind : Int32 := 1

def rowsKind : Int32 := 2

def setKeyspaceKind : Int32 := 3

def schemaChangeKind : Int32 := 5

def columnBody (column : Column) : Bytes :=
  Field.ofString column.keyspace ++ Field.ofString column.table ++ Field.ofString column.name ++
    column.type.descriptor

/-- The octets of a result. Keyspace and table stand with every column. -/
def body : Outcome → Bytes
  | void => Bytes.ofInt32 voidKind
  | rows columns cells =>
    Bytes.ofInt32 rowsKind ++ Bytes.ofInt32 0 ++ Bytes.ofNat 4 columns.length ++
      columns.flatMap columnBody ++ Bytes.ofNat 4 cells.length ++
      cells.flatMap fun row => row.flatMap Field.ofValue
  | setKeyspace keyspace => Bytes.ofInt32 setKeyspaceKind ++ Field.ofString keyspace
  | schemaChange change target options =>
    Bytes.ofInt32 schemaChangeKind ++ Field.ofString change ++ Field.ofString target ++
      options.flatMap Field.ofString

/-- The flag that says that keyspace and table stand once, before the columns. -/
def globalTableFlag : UInt32 := 1

/-- The flag that says that the state of paging stands before the columns. -/
def morePagesFlag : UInt32 := 2

/-- The flag that says that there is no metadata. -/
def noMetadataFlag : UInt32 := 4

/-- A count, which must not be negative. -/
def readCount (what : String) : Field.Reader Nat := do
  let count ← Field.int32 what
  if count < 0 then Field.fail (.truncated what) else return count.toInt.toNat

def readTable : Field.Reader (String × String) := do
  let keyspace ← Field.string "keyspace name"
  return (keyspace, ← Field.string "table name")

/-- Reads a column, whose table is given or stands before its name. -/
def readColumn (table : Option (String × String)) : Field.Reader Column := do
  let (keyspace, table) ← match table with
    | some known => pure known
    | none => readTable
  let name ← Field.string "column name"
  return ⟨keyspace, table, name, ← WireType.readDescriptor WireType.maxDepth⟩

/-- Reads the columns of a result from its metadata. -/
def readColumns : Field.Reader (List Column) := do
  let flags := (← Field.int32 "metadata flags").toUInt32
  let count ← readCount "column count"
  if flags &&& morePagesFlag ≠ 0 then
    let _ ← Field.value "paging state"
  if flags &&& noMetadataFlag ≠ 0 then Field.fail .missingMetadata
  else
    let table ← if flags &&& globalTableFlag ≠ 0 then some <$> readTable else pure none
    Field.times count (readColumn table)

/-- Reads columns and rows. Every cell takes at least the four octets of its length, so more rows
than that allows are refused unread. -/
def readRows : Field.Reader Outcome := do
  let columns ← readColumns
  let count ← readCount "row count"
  if columns.isEmpty ∧ count ≠ 0 then Field.fail (.rowsWithoutColumns count)
  else
    let left ← Field.remaining
    if left < count * columns.length * 4 then Field.fail (.truncated "rows")
    else return rows columns (← Field.times count (Field.times columns.length
      (Field.value "cell value")))

/-- Reads a change of the schema; that of a keyspace names nothing in it. -/
def readSchemaChange : Field.Reader Outcome := do
  let change ← Field.string "schema change type"
  let target ← Field.string "schema change target"
  let keyspace ← Field.string "schema change keyspace"
  if target = "KEYSPACE" then return schemaChange change target [keyspace]
  else return schemaChange change target [keyspace, ← Field.string "schema change name"]

/-- Reads a result. After a change of the schema more octets may follow. -/
def read : Field.Reader Outcome := do
  let whole (step : Field.Reader Outcome) : Field.Reader Outcome := do
    let outcome ← step
    Field.finish
    return outcome
  let kind ← Field.int32 "result kind"
  if kind = voidKind then whole (pure void)
  else if kind = rowsKind then whole readRows
  else if kind = setKeyspaceKind then whole (setKeyspace <$> Field.string "keyspace")
  else if kind = schemaChangeKind then readSchemaChange
  else Field.fail (.unknownResultKind kind)

end Outcome

namespace Response

def opcode : Response → Opcode
  | error _ _ => .error
  | ready => .ready
  | authenticate _ => .authenticate
  | supported _ => .supported
  | result _ => .result
  | event => .event

/-- The octets of options with several values each, in a given order. -/
def supportedBody (entries : List (String × List String)) : Bytes :=
  Bytes.ofNat 2 entries.length ++ entries.flatMap fun (key, values) =>
    Field.ofString key ++ Bytes.ofNat 2 values.length ++ values.flatMap Field.ofString

/-- The body of a response, its options in the order of their keys. -/
def body : Response → Bytes
  | error code message => Bytes.ofInt32 code ++ Field.ofString message
  | ready => []
  | authenticate authenticator => Field.ofString authenticator
  | supported options => supportedBody options.entries
  | result outcome => outcome.body
  | event => []

def frame (response : Response) (stream : Int16) : Frame :=
  Frame.response stream response.opcode response.body

/-- Reads options, of which the last one of a key stays. -/
def readSupported : Field.Reader (NameMap (List String)) := do
  let count ← Field.word16 "supported options"
  let entries ← Field.times count.toNat do
    let key ← Field.string "supported key"
    let values ← Field.word16 "supported values"
    return (key, ← Field.times values.toNat (Field.string "supported value"))
  return .ofList entries

/-- Reads an error. What some codes add after the message is not needed. -/
def readError : Field.Reader Response := do
  let code ← Field.int32 "error code"
  return error code (← Field.string "error message")

/-- Reads the body of a frame that a node sent. An event is not looked into. -/
def decode (opcode : Opcode) (body : Bytes) : Except ProtocolError Response :=
  let whole (step : Field.Reader Response) :=
    Field.read (do let r ← step; Field.finish; return r) body
  match opcode with
  | .error => Field.read readError body
  | .ready => whole (pure ready)
  | .authenticate => whole (authenticate <$> Field.string "authenticator")
  | .supported => whole (supported <$> readSupported)
  | .result => Field.read (result <$> Outcome.read) body
  | .event => .ok event
  | other => .error (.unexpectedOpcode other)

end Response

end CqlClient
