import CqlClient.Bytes.Hex
import CqlClient.Number.Shortest
import CqlClient.Value.Basic

/-!
The text of values: numbers bare, strings in single quotes, octets in hexadecimal, collections in
brackets.
-/

namespace CqlClient

/-- A text in single quotes; a single quote inside it is written twice. -/
def quotedChars (cs : List Char) : List Char :=
  '\'' :: cs.flatMap (fun c => if c = '\'' then ['\'', '\''] else [c]) ++ ['\'']

def quoted (text : String) : String := String.ofList (quotedChars text.toList)

namespace Value

/-- The text of a value without elements. -/
def scalarText : Value → String
  | ascii s => quoted s
  | text s => quoted s
  | bigint n => Integer.text n.toInt
  | counter n => Integer.text n.toInt
  | counterDelta n => Integer.signedText n.toInt
  | blob bytes => "0x" ++ Hex.encode bytes
  | boolean b => if b then "true" else "false"
  | double bits => Ieee.doubleText bits
  | float bits => Ieee.singleText bits
  | int n => Integer.text n.toInt
  | timestamp t => t.text
  | uuid id => id.text
  | timeuuid id => id.text
  | varint n => Integer.text n
  | _ => "null"

mutual

/-- The text of a value; a comma and a blank stand between elements. -/
def display : Value → String
  | list items => "[" ++ ", ".intercalate (itemTexts items) ++ "]"
  | set items => "\x7b" ++ ", ".intercalate (itemTexts items) ++ "\x7d"
  | map entries => "\x7b" ++ ", ".intercalate (entryTexts entries) ++ "\x7d"
  | v => v.scalarText

def itemTexts : List Value → List String
  | [] => []
  | v :: rest => v.display :: itemTexts rest

/-- The texts of entries, a colon and a blank after each key. -/
def entryTexts : List (Value × Value) → List String
  | [] => []
  | (k, v) :: rest => (k.display ++ ": " ++ v.display) :: entryTexts rest

end

end Value

end CqlClient
