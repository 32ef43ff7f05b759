/-!
White space and trimming. The class is the Unicode property White_Space, which has no zero-width
characters in it.
-/

namespace CqlClient.Text

/-- Whether a character has the property White_Space. -/
def isBlank (c : Char) : Bool :=
  let code := c.toNat
  (9 ≤ code && code ≤ 13) || code == 0x20 || code == 0x85 || code == 0xA0 || code == 0x1680 ||
    (0x2000 ≤ code && code ≤ 0x200A) || code == 0x2028 || code == 0x2029 || code == 0x202F ||
    code == 0x205F || code == 0x3000

/-- The characters without the blanks at the front. -/
def trimLeft (cs : List Char) : List Char := cs.dropWhile isBlank

/-- The characters without the blanks at the end. -/
def trimRight (cs : List Char) : List Char := (cs.reverse.dropWhile isBlank).reverse

/-- The characters without the blanks at either end. -/
def trimChars (cs : List Char) : List Char := trimRight (trimLeft cs)

/-- A text without the blanks at either end. -/
def trim (text : String) : String := String.ofList (trimChars text.toList)

/-- Whether a character is a blank of ASCII: space, tab, line feed, form feed, carriage return. -/
def isAsciiBlank (c : Char) : Bool :=
  c == ' ' || c == '\t' || c == '\n' || c == '\x0c' || c == '\r'

example : isAsciiBlank '\x0b' = false ∧ isBlank '\x0b' = true := by decide

end CqlClient.Text
