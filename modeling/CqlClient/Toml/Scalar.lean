import CqlClient.Number.Rounding
import CqlClient.Settings.Document
import CqlClient.Time.Calendar
import CqlClient.Toml.Scanner

/-!
The scalar values of TOML: strings in four notations, numbers, booleans and moments.
-/

namespace CqlClient.Toml

open Scanner

def isDigit (c : Char) : Bool := (Integer.digit? c).isSome

/-- The value of a hexadecimal digit. -/
def hexValue? (c : Char) : Option Nat :=
  if isDigit c then some (c.toNat - 48)
  else if 'a' ≤ c ∧ c ≤ 'f' then some (c.toNat - 87)
  else if 'A' ≤ c ∧ c ≤ 'F' then some (c.toNat - 55)
  else none

/-- The number that digits of a base denote. -/
def valueInBase (base : Nat) (digits : List Char) : Nat :=
  digits.foldl (fun n c => n * base + (hexValue? c).getD 0) 0

/-! ## Strings -/

/-- A code point in as many hexadecimal digits; surrogates are refused. -/
def codePoint : (count : Nat) → (code : Nat) → Scanner Char
  | 0, code => if code.isValidChar then pure (Char.ofNat code) else fail
  | count + 1, code => do
    match hexValue? (← satisfy fun _ => true) with
    | some d => codePoint count (code * 16 + d)
    | none => fail

/-- What stands after a backslash. -/
def escape : Scanner Char := do
  match ← satisfy fun _ => true with
  | 'b' => return '\x08'
  | 't' => return '\t'
  | 'n' => return '\n'
  | 'f' => return '\x0c'
  | 'r' => return '\r'
  | '"' => return '"'
  | '\\' => return '\\'
  | 'u' => codePoint 4 0
  | 'U' => codePoint 8 0
  | _ => fail

/-- One character inside double quotes. -/
def basicChar : Scanner Char := do
  let c ← satisfy fun c => isPlain c && c != '"'
  if c = '\\' then escape else return c

def basicString : Scanner String := do
  char '"'
  let cs ← many basicChar
  char '"'
  return String.ofList cs

def literalString : Scanner String := do
  char '\''
  let cs ← takeWhile fun c => isPlain c && c != '\''
  char '\''
  return String.ofList cs

/-- How many quotes come next. -/
def quoteRun (quote : Char) (cs : List Char) : Nat := (cs.takeWhile (· == quote)).length

/-- One or two quotes inside a string that ends with three. -/
def innerQuotes (quote : Char) : Scanner (List Char) := fun cs =>
  let run := quoteRun quote cs
  if run = 1 ∨ run = 2 then some (List.replicate run quote, cs.drop run) else none

/-- The quotes that belong to a string although its end follows at once: two at most. -/
def lastQuotes (quote : Char) : Scanner (List Char) := fun cs =>
  let kept := min (quoteRun quote cs - 3) 2
  some (List.replicate kept quote, cs.drop kept)

/-- A backslash at the end of a line, with all blanks and line ends after it. -/
def continuation : Scanner (List Char) := do
  char '\\'
  spaces
  newline
  let _ ← many (newline <|> do
    let _ ← satisfy isSpace)
  return []

/-- A piece of a string in three double quotes. -/
def multilineBasicPiece : Scanner (List Char) :=
  continuation <|> (do return [← basicChar]) <|> (do
    newline
    return ['\n']) <|> innerQuotes '"'

/-- A piece of a string in three single quotes. -/
def multilineLiteralPiece : Scanner (List Char) :=
  (do return [← satisfy fun c => isPlain c && c != '\'']) <|> (do
    newline
    return ['\n']) <|> innerQuotes '\''

/-- A string in three quotes. A line end right after the opening quotes does not count. -/
def multiline (quote : Char) (piece : Scanner (List Char)) : Scanner String := do
  chars [quote, quote, quote]
  let _ ← Scanner.optional newline
  let pieces ← many piece
  let last ← lastQuotes quote
  chars [quote, quote, quote]
  return String.ofList (pieces.flatten ++ last)

def stringValue : Scanner String :=
  multiline '"' multilineBasicPiece <|> multiline '\'' multilineLiteralPiece <|> basicString <|>
    literalString

/-! ## Numbers -/

/-- Digits with single underscores between them; the underscores are dropped. -/
def digitRun (isOf : Char → Bool) : Scanner (List Char) := do
  let first ← satisfy isOf
  let rest ← many ((satisfy isOf) <|> do
    char '_'
    satisfy isOf)
  return first :: rest

/-- The characters of an optional sign. -/
def sign : Scanner (List Char) := do
  match ← Scanner.optional (satisfy fun c => c == '+' || c == '-') with
  | some c => return [c]
  | none => return []

/-- Digits of a whole number, which has no leading zeros. -/
def wholeDigits : Scanner (List Char) :=
  (do
    let c ← satisfy fun c => isDigit c && c != '0'
    let rest ← many ((satisfy isDigit) <|> do
      char '_'
      satisfy isDigit)
    return c :: rest) <|> do
  char '0'
  return ['0']

/-- The greatest integer that a document holds. -/
def greatest : Nat := 0x7fffffffffffffff

def inBase (mark : Char) (base : Nat) : Scanner Int := do
  chars ['0', mark]
  let digits ← digitRun fun c => (hexValue? c).any (· < base)
  let n := valueInBase base digits
  if n ≤ greatest then return n else fail

def decimalInteger : Scanner Int := do
  let s ← sign
  let n := valueInBase 10 (← wholeDigits)
  if s = ['-'] then
    if n ≤ greatest + 1 then return -n else fail
  else if n ≤ greatest then return n
  else fail

def integerValue : Scanner Int :=
  inBase 'x' 16 <|> inBase 'o' 8 <|> inBase 'b' 2 <|> decimalInteger

/-- The characters of an exponent. -/
def exponent : Scanner (List Char) := do
  let _ ← satisfy fun c => c == 'e' || c == 'E'
  let s ← sign
  return 'e' :: s ++ (← digitRun isDigit)

/-- A number with a fraction, an exponent, or both, that is not beyond all finite numbers. -/
def decimalFloat : Scanner UInt64 := do
  let s ← sign
  let whole ← wholeDigits
  let part ← Scanner.optional do
    char '.'
    digitRun isDigit
  let power ← Scanner.optional exponent
  if part.isNone && power.isNone then fail
  else
    let digits := s ++ whole ++ '.' :: part.getD [] ++ power.getD []
    match Ieee.readDouble (String.ofList digits) with
    | .ok bits => if bits.toNat = Ieee.double.infinity then fail else return bits
    | .error _ => fail

/-- Infinity and not-a-number, with or without a sign. -/
def specialFloat : Scanner UInt64 := do
  let s ← sign
  let magnitude ← (do
    chars ['i', 'n', 'f']
    return Ieee.double.infinity) <|> (do
    chars ['n', 'a', 'n']
    return Ieee.double.quietNaN)
  return UInt64.ofNat (magnitude + if s = ['-'] then Ieee.double.signBit else 0)

def floatValue : Scanner UInt64 := decimalFloat <|> specialFloat

/-! ## Booleans and moments -/

def booleanValue : Scanner Bool :=
  (do
    chars ['t', 'r', 'u', 'e']
    return true) <|> do
  chars ['f', 'a', 'l', 's', 'e']
  return false

/-- A number of exactly as many digits between two bounds, with its characters. -/
def digitsBetween (count low high : Nat) : Scanner (List Char) := do
  let digits ← count.foldM (fun _ _ digits => do return digits ++ [← satisfy isDigit]) []
  let n := valueInBase 10 digits
  if low ≤ n ∧ n ≤ high then return digits else fail

def date : Scanner (List Char) := do
  let year ← digitsBetween 4 0 9999
  char '-'
  let month ← digitsBetween 2 1 12
  char '-'
  let day ← digitsBetween 2 1 31
  if valueInBase 10 day ≤ Calendar.monthDays (valueInBase 10 year) (valueInBase 10 month) then
    return year ++ '-' :: month ++ '-' :: day
  else fail

def time : Scanner (List Char) := do
  let hour ← digitsBetween 2 0 23
  char ':'
  let minute ← digitsBetween 2 0 59
  char ':'
  let second ← digitsBetween 2 0 60
  let part ← Scanner.optional do
    char '.'
    let first ← satisfy isDigit
    return '.' :: first :: (← takeWhile isDigit)
  return hour ++ ':' :: minute ++ ':' :: second ++ part.getD []

def offset : Scanner (List Char) :=
  (do
    let c ← satisfy fun c => c == 'Z' || c == 'z'
    return [c]) <|> do
  let s ← satisfy fun c => c == '+' || c == '-'
  let hour ← digitsBetween 2 0 23
  char ':'
  let minute ← digitsBetween 2 0 59
  return s :: hour ++ ':' :: minute

/-- A date, a time, or both, and then perhaps with an offset. -/
def momentValue : Scanner String :=
  (do
    let day ← date
    let rest ← Scanner.optional do
      let mark ← satisfy fun c => c == 'T' || c == 't' || c == ' '
      let clock ← time
      let zone ← Scanner.optional offset
      return mark :: clock ++ zone.getD []
    return String.ofList (day ++ rest.getD [])) <|> do
  return String.ofList (← time)

end CqlClient.Toml
