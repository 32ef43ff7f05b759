import CqlClient.Number.Integer
import CqlClient.Text.Blank

/-!
The address of a node: a host and a port.
-/

namespace CqlClient

/-- The port of a node whose address names none. -/
def defaultPort : UInt16 := 9042

structure Endpoint where
  host : String
  port : UInt16
  deriving DecidableEq, Repr, Inhabited

namespace Endpoint

def text (endpoint : Endpoint) : String :=
  endpoint.host ++ ":" ++ Integer.text endpoint.port.toNat

/-- Why a text is not an address; the text is kept without the blanks around it. -/
inductive ReadError where
  | badPort (text : String)
  | missingHost (text : String)
  | empty
  deriving DecidableEq, Repr

def ReadError.message : ReadError → String
  | .badPort text => "invalid port in endpoint: " ++ text
  | .missingHost text => "missing host in endpoint: " ++ text
  | .empty => "empty endpoint"

/-- The parts before and after the last occurrence of a character. -/
def splitLast? (mark : Char) (cs : List Char) : Option (List Char × List Char) :=
  let after := (cs.reverse.takeWhile (· != mark)).reverse
  if after.length < cs.length then some (cs.take (cs.length - after.length - 1), after) else none

/-- Reads a host, and the port after the last colon if there is a colon. -/
def ofText (text : String) : Except ReadError Endpoint :=
  let cs := Text.trimChars text.toList
  let trimmed := String.ofList cs
  match splitLast? ':' cs with
  | some ([], _) => .error (.missingHost trimmed)
  | some (host, port) =>
    match Integer.readWord16 (String.ofList port) with
    | .ok port => .ok ⟨String.ofList host, port⟩
    | .error _ => .error (.badPort trimmed)
  | none => if cs.isEmpty then .error .empty else .ok ⟨trimmed, defaultPort⟩

end Endpoint

end CqlClient
