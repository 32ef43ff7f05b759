import CqlClient.Query.Segment

/-!
The placeholders of a query text, with their places in its UTF-8 octets.
-/

namespace CqlClient

structure Placeholder where
  name : String
  /-- The place of the colon. -/
  start : Nat
  /-- The place after the name. -/
  stop : Nat
  /-- A plus or minus sign stands before it, as in a counter update. -/
  increment : Bool
  deriving DecidableEq, Repr

/-- How many octets characters take. -/
def utf8Length (cs : List Char) : Nat := cs.foldr (fun c n => c.utf8Size + n) 0

/-- Whether the last character that is not blank is a sign, given whether it was one before. -/
def endsInSign (before : Bool) (cs : List Char) : Bool :=
  cs.foldl (fun sign c => if Text.isAsciiBlank c then sign else c == '+' || c == '-') before

/-- The placeholders among parts that start at `offset`, after a sign if `sign` is on. -/
def placeholdersFrom (offset : Nat) (sign : Bool) : List Segment → List Placeholder
  | [] => []
  | s :: rest =>
    let stop := offset + utf8Length s.chars
    let later := placeholdersFrom stop (endsInSign sign s.chars) rest
    match s with
    | .placeholder name => ⟨String.ofList name, offset, stop, sign⟩ :: later
    | _ => later

/-- The placeholders of a query text in order. -/
def placeholders (text : String) : List Placeholder := placeholdersFrom 0 false (segments text)

end CqlClient
