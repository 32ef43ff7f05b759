import CqlClient.Text.CaseTable
import CqlClient.Text.CasedTable

/-!
Full case conversion of texts. A capital sigma becomes a final sigma at the end of a word: a cased
letter stands before it and none after it, marks aside.
-/

namespace CqlClient.Text

/-- Whether a code point lies in one of the ranges. -/
def inRanges (ranges : List (Nat × Nat)) (code : Nat) : Bool :=
  ranges.any fun (first, last) => first ≤ code && code ≤ last

def isCased (c : Char) : Bool := inRanges casedRanges c.toNat

def isCaseIgnorable (c : Char) : Bool := inRanges caseIgnorableRanges c.toNat

/-- The lower-case form of a character on its own. -/
def lowerChar (c : Char) : List Char :=
  if c.toNat < 128 then [c.toLower]
  else if c.toNat = 0x130 then ['i', Char.ofNat 0x307]
  else [((lowerRanges.findSome? (·.map? c.toNat)).map Char.ofNat).getD c]

/-- The upper-case form of a character. -/
def upperChar (c : Char) : List Char :=
  if c.toNat < 128 then [c.toUpper]
  else match longUpper.lookup c.toNat with
    | some codes => codes.map Char.ofNat
    | none => [((upperRanges.findSome? (·.map? c.toNat)).map Char.ofNat).getD c]

/-- Whether the first character that is not ignorable is a cased letter. -/
def meetsCased (cs : List Char) : Bool :=
  match cs.dropWhile isCaseIgnorable with
  | [] => false
  | c :: _ => isCased c

/-- The lower-case form of the characters after `before`, which is in reverse. -/
def lowerAfter (before : List Char) : List Char → List Char
  | [] => []
  | c :: rest =>
    let form :=
      if c.toNat = 0x3A3 then
        [Char.ofNat (if meetsCased before && !meetsCased rest then 0x3C2 else 0x3C3)]
      else lowerChar c
    form ++ lowerAfter (c :: before) rest

/-- The lower-case form of a text. -/
def lower (text : String) : String := String.ofList (lowerAfter [] text.toList)

/-- The upper-case form of a text. -/
def upper (text : String) : String := String.ofList (text.toList.flatMap upperChar)

end CqlClient.Text
