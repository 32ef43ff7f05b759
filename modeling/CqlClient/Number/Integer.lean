/-!
Integers in decimal. Writing gives a sign only to negative numbers. Reading goes from left to right
and stops at the first fault, be it a character that is no digit or a digit that leaves the range.
-/

namespace CqlClient.Integer

/-- The decimal digits of a natural number, without leading zeros. -/
def digits (n : Nat) : List Char := Nat.toDigits 10 n

/-- The decimal text of an integer. -/
def text (n : Int) : String :=
  String.ofList (if n < 0 then '-' :: digits n.natAbs else digits n.natAbs)

/-- The decimal text of an integer with its sign written out, zero counting as positive. -/
def signedText (n : Int) : String :=
  String.ofList ((if n < 0 then '-' else '+') :: digits n.natAbs)

/-- The digits of a natural number, with zeros in front up to `width`. -/
def padded (width n : Nat) : List Char :=
  List.replicate (width - (digits n).length) '0' ++ digits n

/-- Why a text is not an integer of the range asked for. -/
inductive Error where
  | empty
  | badDigit
  | tooLarge
  | tooSmall
  deriving DecidableEq, Repr

def Error.message : Error → String
  | .empty => "cannot parse integer from empty string"
  | .badDigit => "invalid digit found in string"
  | .tooLarge => "number too large to fit in target type"
  | .tooSmall => "number too small to fit in target type"

/-- The value of a decimal digit. -/
def digit? (c : Char) : Option Nat :=
  if '0' ≤ c ∧ c ≤ '9' then some (c.toNat - 48) else none

/-- Continues the number `n` with more digits, failing with `beyond` once it exceeds `limit`. -/
def readOnto (limit : Nat) (beyond : Error) (n : Nat) : List Char → Except Error Nat
  | [] => .ok n
  | c :: rest =>
    match digit? c with
    | none => .error .badDigit
    | some d =>
      if n * 10 + d ≤ limit then readOnto limit beyond (n * 10 + d) rest else .error beyond

/-- Reads an integer between `lowest` and `highest`, a range that contains zero. A plus sign may
stand in front, and a minus sign if the range has negative numbers. -/
def readWithin (lowest highest : Int) (text : String) : Except Error Int :=
  match text.toList with
  | [] => .error .empty
  | ['+'] => .error .badDigit
  | ['-'] => .error .badDigit
  | '+' :: rest => (readOnto highest.toNat .tooLarge 0 rest).map Int.ofNat
  | '-' :: rest =>
    if lowest < 0 then (readOnto lowest.natAbs .tooSmall 0 rest).map fun n => -(n : Int)
    else .error .badDigit
  | cs => (readOnto highest.toNat .tooLarge 0 cs).map Int.ofNat

def readInt32 (text : String) : Except Error Int32 :=
  (readWithin Int32.minValue.toInt Int32.maxValue.toInt text).map Int32.ofInt

def readInt64 (text : String) : Except Error Int64 :=
  (readWithin Int64.minValue.toInt Int64.maxValue.toInt text).map Int64.ofInt

def readWord16 (text : String) : Except Error UInt16 :=
  (readWithin 0 (UInt16.size - 1) text).map fun n => UInt16.ofNat n.toNat

/-- The characters after one plus sign, unless a second one follows. -/
def dropPlus : List Char → List Char
  | '+' :: '+' :: rest => '+' :: '+' :: rest
  | '+' :: rest => rest
  | cs => cs

/-- Reads digits of any number, with underscores after the first one passed over. -/
def readUnbounded (cs : List Char) : Except Error Nat :=
  match dropPlus cs with
  | [] => .error .empty
  | '_' :: _ => .error .badDigit
  | cs =>
    match (cs.filter (· != '_')).mapM digit? with
    | none => .error .badDigit
    | some values => .ok (values.foldl (fun n d => n * 10 + d) 0)

/-- Reads an integer of any size. -/
def readAny (text : String) : Except Error Int :=
  match text.toList with
  | '-' :: '+' :: _ => .error .badDigit
  | '-' :: rest => (readUnbounded rest).map fun n => -(n : Int)
  | cs => (readUnbounded cs).map Int.ofNat

end CqlClient.Integer
