import CqlClient.Bytes.Basic
import CqlClient.Text.Utf8

/-!
Octets as pairs of hexadecimal digits. Writing uses lower-case digits; reading takes either case
and says what is wrong with a text that is not a sequence of pairs.
-/

namespace CqlClient.Hex

/-- The lower-case digit of a number below sixteen. -/
def digit (n : UInt8) : Char :=
  Char.ofNat (if n < 10 then 48 + n.toNat else 87 + n.toNat)

/-- The two digits of an octet. -/
def ofOctet (octet : UInt8) : List Char := [digit (octet >>> 4), digit (octet &&& 15)]

/-- The lower-case text of an octet string, two digits an octet. -/
def encode (bytes : Bytes) : String := String.ofList (bytes.flatMap ofOctet)

/-- The value of the digit with this character code, in either case. -/
def value? (code : UInt8) : Option UInt8 :=
  if 48 ≤ code ∧ code ≤ 57 then some (code - 48)
  else if 97 ≤ code ∧ code ≤ 102 then some (code - 87)
  else if 65 ≤ code ∧ code ≤ 70 then some (code - 55)
  else none

/-- Why a text is not a sequence of octets. -/
inductive Error where
  /-- The text has an odd number of character codes. -/
  | oddLength
  /-- The code at this position is no digit. -/
  | badDigit (code : UInt8) (position : Nat)
  deriving DecidableEq, Repr

/-- Reads pairs of digits, the first one at `position`, onto the octets already read. -/
def decodePairs (position : Nat) (done : Bytes) : Bytes → Except Error Bytes
  | high :: low :: rest =>
    match value? high, value? low with
    | some h, some l => decodePairs (position + 2) ((h <<< 4 ||| l) :: done) rest
    | none, _ => .error (.badDigit high position)
    | some _, none => .error (.badDigit low (position + 1))
  | _ => .ok done.reverse

/-- Reads octets from the codes of a text; positions count from zero. -/
def decodeCodes (codes : Bytes) : Except Error Bytes :=
  if codes.length % 2 = 1 then .error .oddLength else decodePairs 0 [] codes

/-- Reads octets from a text, whose UTF-8 octets are its character codes. -/
def decode (text : String) : Except Error Bytes := decodeCodes (Utf8.encode text)

end CqlClient.Hex
