import CqlClient.Number.Ieee
import CqlClient.Number.Integer

/-!
Reading decimal texts as floating-point numbers: the pattern nearest to the exact value, the even
one of two equally near.
-/

namespace CqlClient.Ieee

/-- The integer nearest to `num / den`, the even one of two equally near. -/
def roundHalfEven (num den : Nat) : Nat :=
  let floor := num / den
  let twice := 2 * (num % den)
  if den < twice ∨ (twice = den ∧ floor % 2 = 1) then floor + 1 else floor

/-- The greatest `e` with `2 ^ e ≤ num / den`, for positive `num` and `den`. -/
def binaryExponent (num den : Nat) : Int :=
  let e : Int := (Nat.log2 num : Int) - Nat.log2 den
  if den <<< e.toNat ≤ num <<< (-e).toNat then e else e - 1

/-- The pattern nearest to the positive number `num / den`. -/
def Format.nearest (format : Format) (num den : Nat) : Nat :=
  let exponent := max (binaryExponent num den - (format.precision - 1)) format.leastExponent
  let significand := roundHalfEven (num <<< (-exponent).toNat) (den <<< exponent.toNat)
  min ((exponent - format.leastExponent).toNat <<< (format.precision - 1) + significand)
    format.infinity

/-- The pattern nearest to `coefficient · 10 ^ exponent`. What is beyond every format is cut short
without computing it. -/
def Format.ofDecimal (format : Format) (coefficient : Nat) (exponent : Int) : Nat :=
  if coefficient = 0 then 0
  else
    let top := exponent + (Integer.digits coefficient).length
    if 400 < top then format.infinity
    else if top < -400 then 0
    else format.nearest (coefficient * Nat.pow 10 exponent.toNat) (Nat.pow 10 (-exponent).toNat)

inductive ReadError where
  | empty
  | invalid
  deriving DecidableEq, Repr

def ReadError.message : ReadError → String
  | .empty => "cannot parse float from empty string"
  | .invalid => "invalid float literal"

/-- The digits at the front and what follows them. -/
def spanDigits (cs : List Char) : List Char × List Char := cs.span fun c => (Integer.digit? c).isSome

def digitsValue (cs : List Char) : Nat :=
  cs.foldl (fun n c => n * 10 + (c.toNat - 48)) 0

/-- Reads an exponent after its mark: a sign and at least one digit. -/
def readExponent? (cs : List Char) : Option Int :=
  let (negative, cs) := match cs with
    | '-' :: rest => (true, rest)
    | '+' :: rest => (false, rest)
    | cs => (false, cs)
  let (digits, rest) := spanDigits cs
  if digits.isEmpty || !rest.isEmpty then none
  else some (if negative then -(digitsValue digits : Int) else digitsValue digits)

/-- Reads an unsigned decimal as a coefficient and an exponent of ten. Digits may be missing before
or after the point, but not both. -/
def readDecimal? (cs : List Char) : Option (Nat × Int) := do
  let (whole, rest) := spanDigits cs
  let (part, rest) := match rest with
    | '.' :: rest => spanDigits rest
    | rest => ([], rest)
  if whole.isEmpty && part.isEmpty then none
  let exponent ← match rest with
    | [] => some 0
    | 'e' :: rest => readExponent? rest
    | 'E' :: rest => readExponent? rest
    | _ => none
  some (digitsValue (whole ++ part), exponent - part.length)

/-- Reads the magnitude of a floating-point number. -/
def Format.readMagnitude? (format : Format) (cs : List Char) : Option Nat :=
  match readDecimal? cs with
  | some (coefficient, exponent) => some (format.ofDecimal coefficient exponent)
  | none =>
    match String.ofList (cs.map Char.toLower) with
    | "inf" => some format.infinity
    | "infinity" => some format.infinity
    | "nan" => some format.quietNaN
    | _ => none

/-- Reads a floating-point number with an optional sign. -/
def Format.read (format : Format) (text : String) : Except ReadError Nat :=
  let withSign (sign : Nat) (magnitude : Option Nat) : Except ReadError Nat :=
    match magnitude with
    | some bits => .ok (sign + bits)
    | none => .error .invalid
  match text.toList with
  | [] => .error .empty
  | '-' :: rest => withSign format.signBit (format.readMagnitude? rest)
  | '+' :: rest => withSign 0 (format.readMagnitude? rest)
  | cs => withSign 0 (format.readMagnitude? cs)

def readDouble (text : String) : Except ReadError UInt64 :=
  (double.read text).map UInt64.ofNat

def readSingle (text : String) : Except ReadError UInt32 :=
  (single.read text).map UInt32.ofNat

end CqlClient.Ieee
