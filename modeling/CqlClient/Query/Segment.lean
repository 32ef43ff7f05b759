import CqlClient.Text.Blank

/-!
The lexical parts of a query text: quoted runs, comments, placeholders and single characters. The
parts of a text, joined, are the text.
-/

namespace CqlClient

/-- One lexical part of a query text. -/
inductive Segment where
  /-- From a quote to the next one of the same kind, or to the end of the text. -/
  | quoted (chars : List Char)
  /-- From two hyphens up to the end of the line. -/
  | comment (chars : List Char)
  /-- A colon and a name; the name is kept without the colon. -/
  | placeholder (name : List Char)
  | other (c : Char)
  deriving DecidableEq, Repr

namespace Segment

/-- The characters of a part. -/
def chars : Segment → List Char
  | quoted cs => cs
  | comment cs => cs
  | placeholder name => ':' :: name
  | other c => [c]

def isQuote (c : Char) : Bool := c == '\'' || c == '"'

/-- Whether a name may start with this character. -/
def isNameStart (c : Char) : Bool := c.isAlpha || c == '_'

/-- Whether a name may go on with this character. -/
def isNameRest (c : Char) : Bool := c.isAlphanum || c == '_'

/-- The first part of a text and what follows it; the text is `c :: rest`. -/
def next (c : Char) (rest : List Char) : Segment × List Char :=
  if isQuote c then
    let body := rest.takeWhile (· != c)
    let after := rest.dropWhile (· != c)
    (quoted (c :: body ++ after.take 1), after.drop 1)
  else if c = '-' ∧ rest.head? = some '-' then
    (comment (c :: rest.takeWhile (· != '\n')), rest.dropWhile (· != '\n'))
  else if c = ':' ∧ rest.head?.any isNameStart then
    (placeholder (rest.takeWhile isNameRest), rest.dropWhile isNameRest)
  else (other c, rest)

theorem length_next_le (c : Char) (rest : List Char) : (next c rest).2.length ≤ rest.length := by
  have dropped (p : Char → Bool) : (rest.dropWhile p).length ≤ rest.length :=
    (List.dropWhile_sublist p).length_le
  unfold next
  split
  · have := dropped (· != c)
    simp only [List.length_drop]
    omega
  · split
    · exact dropped _
    · split
      · exact dropped _
      · exact Nat.le_refl _

/-- The parts of a text in order. -/
def ofChars : List Char → List Segment
  | [] => []
  | c :: rest =>
    (next c rest).1 :: ofChars (next c rest).2
termination_by cs => cs.length
decreasing_by
  have := length_next_le c rest
  simp only [List.length_cons]
  omega

end Segment

/-- The lexical parts of a query text. -/
def segments (text : String) : List Segment := Segment.ofChars text.toList

end CqlClient
