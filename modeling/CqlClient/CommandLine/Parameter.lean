import CqlClient.Cell.Literal
import CqlClient.Number.Rounding
import CqlClient.Query.Basic
import CqlClient.Time.Rfc3339
import CqlClient.WireType.Reader

/-!
Parameters on the command line, as `name:type=value`.
-/

namespace CqlClient.CommandLine

/-- Why a text is no parameter. -/
inductive ParameterError where
  | missingValue
  | missingType
  | badType (err : WireType.ReadError)
  | badInteger (err : Integer.Error)
  /-- An integer without bounds. -/
  | badBigInteger (err : Integer.Error)
  | badFloat (err : Ieee.ReadError)
  | badBoolean
  | badBlob (err : EncodeError)
  | badTimestamp
  | timestampOutOfRange (millis : Int64)
  | badUuid
  | unsupported (type : WireType)
  deriving DecidableEq, Repr

def ParameterError.message : ParameterError → String
  | missingValue => "expected name:type=value"
  | missingType => "expected name:type before '='"
  | badType err => err.message
  | badInteger err => err.message
  | badBigInteger err => err.message
  | badFloat err => err.message
  | badBoolean => "provided string was not `true` or `false`"
  | badBlob err => err.message
  | badTimestamp => "not a timestamp"
  | timestampOutOfRange millis => "timestamp " ++ Integer.text millis.toInt ++ " out of range"
  | badUuid => "not a UUID"
  | unsupported type => type.text ++ " parameters are not supported on the command line"

/-- The result of a reader, its error as the error of a parameter. -/
def orError {ε α : Type} (wrap : ε → ParameterError) : Except ε α → Except ParameterError α
  | .ok a => .ok a
  | .error err => .error (wrap err)

def orFail {α : Type} (err : ParameterError) : Option α → Except ParameterError α
  | some a => .ok a
  | none => .error err

/-- A moment as milliseconds since 1970 or as an RFC 3339 text. -/
def readTimestamp (text : String) : Except ParameterError Instant :=
  match Integer.readInt64 text with
  | .ok millis => orFail (.timestampOutOfRange millis) (Instant.ofMillis? millis.toInt)
  | .error _ => orFail .badTimestamp (Rfc3339.read? text)

def readBoolean (text : String) : Except ParameterError Bool :=
  if text = "true" then .ok true else if text = "false" then .ok false else .error .badBoolean

/-- The value of a type that a text gives. The word `null` is the null of every type. -/
def readValue (type : WireType) (text : String) : Except ParameterError Value :=
  if text = "null" then .ok .null
  else
    match type with
    | .scalar .ascii => .ok (.ascii text)
    | .scalar .text => .ok (.text text)
    | .scalar .varchar => .ok (.text text)
    | .scalar .int => .int <$> orError .badInteger (Integer.readInt32 text)
    | .scalar .bigint => .bigint <$> orError .badInteger (Integer.readInt64 text)
    | .scalar .counter => .counterDelta <$> orError .badInteger (Integer.readInt64 text)
    | .scalar .varint => .varint <$> orError .badBigInteger (Integer.readAny text)
    | .scalar .float => .float <$> orError .badFloat (Ieee.readSingle text)
    | .scalar .double => .double <$> orError .badFloat (Ieee.readDouble text)
    | .scalar .boolean => .boolean <$> readBoolean text
    | .scalar .blob => orError .badBlob (Value.blobOfHex text)
    | .scalar .timestamp => .timestamp <$> readTimestamp text
    | .scalar .uuid => .uuid <$> orFail .badUuid (Uuid.read? text)
    | .scalar .timeuuid => .timeuuid <$> orFail .badUuid (Uuid.read? text)
    | type => .error (.unsupported type)

/-- The parts before and after the first occurrence of a character. -/
def splitFirst? (mark : Char) (cs : List Char) : Option (List Char × List Char) :=
  match cs.dropWhile (· != mark) with
  | [] => none
  | _ :: after => some (cs.takeWhile (· != mark), after)

/-- Reads a parameter: the name up to the first colon, the type up to the first equals sign. -/
def readParameter (text : String) : Except ParameterError (String × TypedValue) := do
  let (head, value) ← orFail .missingValue (splitFirst? '=' text.toList)
  let (name, type) ← orFail .missingType (splitFirst? ':' head)
  let type ← orError .badType (WireType.ofText (String.ofList type))
  let value ← readValue type (String.ofList value)
  return (Text.trim (String.ofList name), ⟨type, value⟩)

end CqlClient.CommandLine
