import CqlClient.Number.Integer

/-!
Steps that read a TOML text from left to right. A step either takes characters off the front and
gives a result, or fails and leaves the choice to another step.
-/

namespace CqlClient.Toml

/-- A step of reading. -/
abbrev Scanner (α : Type) := StateT (List Char) Option α

namespace Scanner

def fail {α : Type} : Scanner α := fun _ => none

/-- The next character, which is left where it is. -/
def peek? : Scanner (Option Char) := fun cs => some (cs.head?, cs)

/-- The next character, which must have a property. -/
def satisfy (holds : Char → Bool) : Scanner Char
  | c :: rest => if holds c then some (c, rest) else none
  | [] => none

def char (c : Char) : Scanner Unit := do
  let _ ← satisfy (· == c)

/-- Exactly these characters. -/
def chars : List Char → Scanner Unit
  | [] => pure ()
  | c :: rest => do
    char c
    chars rest

/-- The longest run of characters with a property, which may be empty. -/
def takeWhile (holds : Char → Bool) : Scanner (List Char) :=
  fun cs => some (cs.takeWhile holds, cs.dropWhile holds)

/-- What a step reads, if it succeeds. -/
def optional {α : Type} (step : Scanner α) : Scanner (Option α) :=
  (some <$> step) <|> pure none

/-- What a step reads as often as it succeeds, at most `limit` times. -/
def manyUpTo {α : Type} (step : Scanner α) : (limit : Nat) → Scanner (List α)
  | 0 => pure []
  | limit + 1 => (do
      let first ← step
      return first :: (← manyUpTo step limit)) <|> pure []

/-- What a step reads as often as it succeeds. The step takes characters whenever it succeeds, so
there are no more turns than characters. -/
def many {α : Type} (step : Scanner α) : Scanner (List α) := fun cs =>
  (manyUpTo step (cs.length + 1)).run cs

/-- A step as often as it succeeds, at least once, with a separator between. -/
def separated {α : Type} (step : Scanner α) (separator : Scanner Unit) : Scanner (List α) := do
  let first ← step
  return first :: (← many do
    separator
    step)

/-- Succeeds only at the end of the text. -/
def atEnd : Scanner Unit := fun cs => if cs.isEmpty then some ((), cs) else none

def isSpace (c : Char) : Bool := c == ' ' || c == '\t'

/-- Spaces and tabs. -/
def spaces : Scanner Unit := do
  let _ ← takeWhile isSpace

/-- A line feed, with or without a carriage return before it. -/
def newline : Scanner Unit := char '\n' <|> chars ['\r', '\n']

/-- Whether a character may stand in a comment: no control character but the tab. -/
def isPlain (c : Char) : Bool := c == '\t' || (' ' ≤ c && c != '\x7f')

/-- A comment up to the end of its line. -/
def comment : Scanner Unit := do
  char '#'
  let _ ← takeWhile isPlain

/-- What may stand after an expression on its line, and the end of the line. -/
def lineEnd : Scanner Unit := do
  spaces
  let _ ← optional comment
  newline <|> atEnd

/-- Blanks, comments and line ends, as between the items of an array. -/
def gap : Scanner Unit := do
  spaces
  let _ ← many do
    let _ ← optional comment
    newline
    spaces

end Scanner

end CqlClient.Toml
