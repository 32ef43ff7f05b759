import CqlClient.Consistency
import CqlClient.Message.Field
import CqlClient.Message.Frame
import CqlClient.NameMap

/-!
The messages that a client sends.
-/

namespace CqlClient

/-- A query with the values of its parameters, in the order in which they are sent. -/
structure QueryRequest where
  text : String
  consistency : Consistency
  values : List (String × Option Bytes)
  deriving DecidableEq, Repr

inductive Request where
  | startup (options : NameMap String)
  | options
  | query (query : QueryRequest)

namespace Request

/-- The option of a startup message that names the version of the query language. -/
def versionOption : String := "CQL_VERSION"

def opcode : Request → Opcode
  | startup _ => .startup
  | options => .options
  | query _ => .query

/-- The octets of options in a given order. -/
def optionsBody (entries : List (String × String)) : Bytes :=
  Bytes.ofNat 2 entries.length ++
    entries.flatMap fun (key, value) => Field.ofString key ++ Field.ofString value

/-- The flag that says that values follow. -/
def valuesFlag : UInt8 := 0x01

/-- The flag that says that values have names. -/
def namesFlag : UInt8 := 0x40

/-- The octets of values with their names; without values there is not even a count. -/
def valuesBody (values : List (String × Option Bytes)) : Bytes :=
  if values.isEmpty then [0]
  else
    (valuesFlag ||| namesFlag) :: Bytes.ofNat 2 values.length ++
      values.flatMap fun (name, value) => Field.ofString name ++ Field.ofValue value

def queryBody (query : QueryRequest) : Bytes :=
  Field.ofLongString query.text ++ Bytes.ofWord16 query.consistency.code ++
    valuesBody query.values

/-- The body of a request, its options in the order of their keys. -/
def body : Request → Bytes
  | startup named => optionsBody named.entries
  | options => []
  | query q => queryBody q

def frame (request : Request) (stream : Int16) : Frame :=
  Frame.request stream request.opcode request.body

/-- Reads options, of which the last one of a key stays. -/
def readOptions : Field.Reader (NameMap String) := do
  let count ← Field.word16 "startup options"
  let entries ← Field.times count.toNat do
    let key ← Field.string "startup options"
    return (key, ← Field.string "startup options")
  return .ofList entries

/-- Reads one value; without a name of its own it is named by its place. -/
def readValue (isNamed : Bool) (place : Nat) : Field.Reader (String × Option Bytes) := do
  let name ← if isNamed then Field.string "value name" else pure (Integer.text place)
  return (name, ← Field.value "bound value")

def readQuery : Field.Reader QueryRequest := do
  let text ← Field.longString "query text"
  let code ← Field.word16 "consistency"
  match Consistency.ofCode? code with
  | none => Field.fail (.unknownConsistency code)
  | some consistency =>
    let flags ← Field.octet "query flags"
    if flags &&& valuesFlag = 0 then return ⟨text, consistency, []⟩
    else
      let count ← Field.word16 "value count"
      let values ← Field.repeatFrom (readValue (flags &&& namesFlag ≠ 0)) 0 count.toNat
      return ⟨text, consistency, values⟩

/-- Reads the body of a frame that a client sent. -/
def decode (opcode : Opcode) (body : Bytes) : Except ProtocolError Request :=
  let whole (step : Field.Reader Request) := Field.read (do let r ← step; Field.finish; return r) body
  match opcode with
  | .startup => whole (startup <$> readOptions)
  | .options => whole (pure options)
  | .query => whole (query <$> readQuery)
  | other => .error (.unexpectedOpcode other)

end Request

end CqlClient
