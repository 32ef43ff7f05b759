/-!
Binary floating-point numbers as their bit patterns. A pattern denotes a sign and either a
significand times a power of two, an infinity, or not a number.
-/

namespace CqlClient.Ieee

/-- A binary interchange format: the bits of the significand, the leading one included, and the
bits of the exponent. -/
structure Format where
  precision : Nat
  exponentBits : Nat

def double : Format := ⟨53, 11⟩

def single : Format := ⟨24, 8⟩

/-- What a bit pattern denotes, its sign aside: `finite m q` is `m · 2 ^ q`. -/
inductive Magnitude where
  | finite (significand : Nat) (exponent : Int)
  | infinite
  | notANumber
  deriving DecidableEq, Repr

namespace Format

/-- The exponent of the last place of the smallest numbers. -/
def leastExponent (format : Format) : Int :=
  3 - (1 <<< (format.exponentBits - 1) : Nat) - format.precision

/-- The exponent field of infinities and of patterns that are not a number. -/
def topField (format : Format) : Nat := 1 <<< format.exponentBits - 1

def fraction (format : Format) (bits : Nat) : Nat := bits % 1 <<< (format.precision - 1)

def field (format : Format) (bits : Nat) : Nat :=
  bits >>> (format.precision - 1) % 1 <<< format.exponentBits

def isNegative (format : Format) (bits : Nat) : Bool :=
  bits >>> (format.precision - 1 + format.exponentBits) % 2 == 1

def magnitude (format : Format) (bits : Nat) : Magnitude :=
  let field := format.field bits
  let fraction := format.fraction bits
  if field = format.topField then
    if fraction = 0 then .infinite else .notANumber
  else if field = 0 then .finite fraction format.leastExponent
  else .finite (1 <<< (format.precision - 1) + fraction) (format.leastExponent + field - 1)

/-- The pattern of positive infinity. -/
def infinity (format : Format) : Nat := format.topField <<< (format.precision - 1)

/-- The pattern of the usual quiet not-a-number. -/
def quietNaN (format : Format) : Nat := format.infinity + 1 <<< (format.precision - 2)

/-- The bit that makes a number negative. -/
def signBit (format : Format) : Nat := 1 <<< (format.precision - 1 + format.exponentBits)

/-- Numeric equality of two patterns: a not-a-number equals nothing, and the zeros are equal. -/
def same (format : Format) (a b : Nat) : Bool :=
  match format.magnitude a, format.magnitude b with
  | .notANumber, _ => false
  | _, .notANumber => false
  | .finite 0 _, .finite 0 _ => true
  | _, _ => a == b

end Format

end CqlClient.Ieee
