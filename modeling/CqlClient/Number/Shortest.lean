import CqlClient.Number.Ieee
import CqlClient.Number.Integer

/-!
The shortest decimal that reads back as a given floating-point number, written positionally. Of the
decimals with the fewest digits the nearest is taken, and the greater of two equally near ones.
-/

namespace CqlClient.Ieee

/-- The number `coefficient · 10 ^ exponent`. -/
structure Decimal where
  coefficient : Nat
  exponent : Int
  deriving DecidableEq, Repr

/-- The least `e` with `num / den < 10 ^ e`, for positive `num` and `den`. -/
def decimalExponent (num den : Nat) : Int :=
  if den ≤ num then (Integer.digits (num / den)).length
  else
    let places := (Integer.digits (den / num)).length
    if den ≤ num * Nat.pow 10 (places - 1) then 2 - (places : Int) else 1 - (places : Int)

/-- The numbers that round to a given one, in quarters of its last place and as multiples of
`unit / scale`: from `low` to `high` around `value`, the ends included if `closed`. -/
structure Neighbourhood where
  low : Nat
  value : Nat
  high : Nat
  unit : Nat
  scale : Nat
  closed : Bool

/-- The numbers that round to `significand · 2 ^ exponent`; `narrow` says that the number below is
only half as far as the number above. -/
def Neighbourhood.of (significand : Nat) (exponent : Int) (narrow : Bool) : Neighbourhood where
  low := 4 * significand - (if narrow then 1 else 2)
  value := 4 * significand
  high := 4 * significand + 2
  unit := 1 <<< (exponent - 2).toNat
  scale := 1 <<< (2 - exponent).toNat
  closed := significand % 2 == 0

/-- The decimal of the neighbourhood on the grid of `10 ^ place` that is nearest to the value, if
the grid has one. -/
def Neighbourhood.onGrid? (around : Neighbourhood) (place : Int) : Option Decimal :=
  let unit := around.unit * Nat.pow 10 (-place).toNat
  let scale := around.scale * Nat.pow 10 place.toNat
  let below := around.value * unit / scale
  let lowMet := if around.closed then around.low * unit ≤ below * scale
    else around.low * unit < below * scale
  let highMet := if around.closed then (below + 1) * scale ≤ around.high * unit
    else (below + 1) * scale < around.high * unit
  let upIsNear := 2 * (around.value * unit) ≥ (2 * below + 1) * scale
  if highMet ∧ (¬ lowMet ∨ upIsNear) then some ⟨below + 1, place⟩
  else if lowMet then some ⟨below, place⟩
  else none

/-- The decimal with the fewest digits that rounds to the value; seventeen digits always do. -/
def Neighbourhood.shortest (around : Neighbourhood) : Decimal :=
  let top := decimalExponent (around.value * around.unit) around.scale
  ((List.range 17).findSome? fun k : Nat => around.onGrid? (top - (k + 1 : Nat))).getD ⟨0, 0⟩

/-- A decimal in positional notation, without trailing zeros after the point. -/
def Decimal.positional (d : Decimal) : List Char :=
  let digits := Integer.digits d.coefficient
  if 0 ≤ d.exponent then digits ++ List.replicate d.exponent.toNat '0'
  else
    let places := (-d.exponent).toNat
    let digits := List.replicate (places + 1 - digits.length) '0' ++ digits
    let whole := digits.take (digits.length - places)
    let part := ((digits.drop (digits.length - places)).reverse.dropWhile (· == '0')).reverse
    if part.isEmpty then whole else whole ++ '.' :: part

/-- The text of a bit pattern. -/
def Format.text (format : Format) (bits : Nat) : String :=
  let sign := if format.isNegative bits then ['-'] else []
  match format.magnitude bits with
  | .notANumber => "NaN"
  | .infinite => String.ofList (sign ++ ['i', 'n', 'f'])
  | .finite 0 _ => String.ofList (sign ++ ['0'])
  | .finite m q =>
    let narrow := m == 1 <<< (format.precision - 1) && q != format.leastExponent
    String.ofList (sign ++ (Neighbourhood.of m q narrow).shortest.positional)

/-- The text of a double-precision pattern. -/
def doubleText (bits : UInt64) : String := double.text bits.toNat

/-- The text of a single-precision pattern. -/
def singleText (bits : UInt32) : String := single.text bits.toNat

end CqlClient.Ieee
