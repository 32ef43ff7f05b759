import CqlClient.Consistency
import CqlClient.Endpoint
import CqlClient.WireType.Reader

/-!
Documents: what a configuration file or a message in a general data format holds, whatever its
notation. A record may be given as a table of its fields or as a list of them in order.
-/

namespace CqlClient

inductive Document where
  | null
  | boolean (b : Bool)
  | integer (n : Int)
  | decimal (bits : UInt64)
  | moment (text : String)
  | text (content : String)
  | list (items : List Document)
  | table (entries : List (String × Document))
  deriving Inhabited

namespace Document

def isNull : Document → Bool
  | null => true
  | _ => false

def isEmpty : Document → Bool
  | list items => items.isEmpty
  | table entries => entries.isEmpty
  | _ => false

def text? : Document → Option String
  | text content => some content
  | _ => none

/-- An integer between zero and `limit`. -/
def natural? (limit : Nat) : Document → Option Nat
  | integer n => if 0 ≤ n ∧ n ≤ limit then some n.toNat else none
  | _ => none

/-- The fields of a record, where they are given. A table may hold other keys, and a moment counts
as a table that holds nothing else; a list may be longer only if `strict` is off. -/
def fields? (strict : Bool) (names : List String) : Document → Option (List (Option Document))
  | table entries => some (names.map fun name => entries.lookup name)
  | moment _ => some (names.map fun _ => none)
  | list items =>
    if strict ∧ names.length < items.length then none
    else some ((List.range names.length).map (items[·]?))
  | _ => none

/-- The name of a choice without content: a text, or the only key of a table. Its content there is
null if `strict`, and otherwise an empty list or table. -/
def choice? (strict : Bool) : Document → Option String
  | text content => some content
  | table [(name, content)] =>
    if (if strict then content.isNull else content.isEmpty) then some name else none
  | _ => none

end Document

/-- A field that may be missing but not wrong. -/
def orDefault {α : Type} (standard : α) (read : Document → Option α) : Option Document → Option α
  | none => some standard
  | some content => read content

def Endpoint.ofDocument? (strict : Bool) (content : Document) : Option Endpoint := do
  match ← content.fields? strict ["host", "port"] with
  | [some host, port] =>
    let host ← host.text?
    let port ← orDefault defaultPort.toNat (Document.natural? (UInt16.size - 1)) port
    return ⟨host, UInt16.ofNat port⟩
  | _ => none

def Consistency.ofDocument? (strict : Bool) (content : Document) : Option Consistency := do
  Consistency.ofName? (← content.choice? strict)

def WireType.ofDocument? (content : Document) : Option WireType := do
  (WireType.ofText (← content.text?)).toOption

end CqlClient
