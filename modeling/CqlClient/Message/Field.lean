import CqlClient.Bytes.Basic
import CqlClient.Message.Error
import CqlClient.Text.Utf8

/-!
The fields that bodies are made of: words, texts with a short or a long length in front, and values
that may be null. Each is written by a function to octets and read by a step that takes the octets
of one field and leaves the rest.
-/

namespace CqlClient.Field

/-- A text with a 16-bit length; of a longer text the length loses its high bits. -/
def ofString (text : String) : Bytes :=
  let octets := Utf8.encode text
  Bytes.ofNat 2 octets.length ++ octets

/-- A text with a 32-bit length. -/
def ofLongString (text : String) : Bytes :=
  let octets := Utf8.encode text
  Bytes.ofNat 4 octets.length ++ octets

/-- Octets with a 32-bit length, which is -1 for null. -/
def ofValue : Option Bytes → Bytes
  | some octets => Bytes.ofNat 4 octets.length ++ octets
  | none => Bytes.ofInt32 (-1)

/-- A step of reading: takes octets off the front or fails. -/
abbrev Reader (α : Type) := StateT Bytes (Except ProtocolError) α

/-- The next `count` octets of the field `what`. -/
def take (count : Nat) (what : String) : Reader Bytes := fun bytes =>
  match Bytes.split? count bytes with
  | some (head, rest) => .ok (head, rest)
  | none => .error (.truncated what)

def fail {α : Type} (err : ProtocolError) : Reader α := fun _ => .error err

def octet (what : String) : Reader UInt8 := do
  return (← take 1 what).headD 0

def word16 (what : String) : Reader UInt16 := do
  return Bytes.toWord16 (← take 2 what)

def int32 (what : String) : Reader Int32 := do
  return Bytes.toInt32 (← take 4 what)

/-- A text of as many octets. -/
def utf8 (count : Nat) (what : String) : Reader String := do
  match Utf8.decode? (← take count what) with
  | some text => return text
  | none => fail .invalidUtf8

def string (what : String) : Reader String := do
  utf8 (← word16 what).toNat what

def longString (what : String) : Reader String := do
  let length ← int32 what
  if length < 0 then fail (.truncated what) else utf8 length.toInt.toNat what

/-- Octets or null; every negative length means null. -/
def value (what : String) : Reader (Option Bytes) := do
  let length ← int32 what
  if length < 0 then return none else return some (← take length.toInt.toNat what)

/-- The same step a number of times, told how many times it has been taken before. -/
def repeatFrom {α : Type} (step : Nat → Reader α) : (start count : Nat) → Reader (List α)
  | _, 0 => return []
  | start, count + 1 => do
    let first ← step start
    return first :: (← repeatFrom step (start + 1) count)

def times {α : Type} (count : Nat) (step : Reader α) : Reader (List α) :=
  repeatFrom (fun _ => step) 0 count

/-- How many octets are left. -/
def remaining : Reader Nat := fun bytes => .ok (bytes.length, bytes)

/-- Fails unless every octet has been read. -/
def finish : Reader Unit := fun bytes =>
  if bytes.isEmpty then .ok ((), bytes) else .error (.trailingBytes bytes.length)

/-- What a step reads from the front of these octets. -/
def read {α : Type} (step : Reader α) (bytes : Bytes) : Except ProtocolError α :=
  (step.run bytes).map Prod.fst

end CqlClient.Field
