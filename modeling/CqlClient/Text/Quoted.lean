import CqlClient.Text.LetterCase
import CqlClient.Text.ShownTable

/-!
Texts and characters in quotes. What a reader could not see or would misread is written as an
escape; all else stands as it is.
-/

namespace CqlClient.Text

/-- A code point in lower-case hexadecimal, without leading zeros. -/
def codeText (code : Nat) : String := String.ofList (Nat.toDigits 16 code)

/-- A character inside quotes of the given kind. -/
def escapeChar (quote c : Char) : String :=
  if c = '\x00' then "\\0"
  else if c = '\t' then "\\t"
  else if c = '\n' then "\\n"
  else if c = '\r' then "\\r"
  else if c = '\\' then "\\\\"
  else if c = quote then String.ofList ['\\', quote]
  else if inRanges shownRanges c.toNat then c.toString
  else "\\u" ++ String.ofList ['\x7b'] ++ codeText c.toNat ++ String.ofList ['\x7d']

/-- A character in single quotes. -/
def quoteChar (c : Char) : String := "'" ++ escapeChar '\'' c ++ "'"

/-- A text in double quotes. -/
def quote (text : String) : String :=
  "\"" ++ String.join (text.toList.map (escapeChar '"')) ++ "\""

end CqlClient.Text
