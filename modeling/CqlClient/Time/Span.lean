import CqlClient.Number.Integer

/-!
Lengths of time in nanoseconds, and their text: in the largest of the units s, ms, µs and ns that
is not larger than the span, with the fraction it needs.
-/

namespace CqlClient

/-- A length of time. -/
structure Span where
  nanos : Nat
  deriving DecidableEq, Repr

namespace Span

def ofMillis (millis : Nat) : Span := ⟨millis * 1000000⟩

/-- The greatest span: a 64-bit count of seconds and the nanoseconds below one more. -/
def longest : Nat := (UInt64.size - 1) * 1000000000 + 999999999

/-- A count of `unit` nanoseconds, whose fraction has up to `places` digits. -/
def inUnit (nanos unit places : Nat) : List Char :=
  let part := ((Integer.padded places (nanos % unit)).reverse.dropWhile (· == '0')).reverse
  let whole := Integer.digits (nanos / unit)
  if nanos % unit = 0 then whole else whole ++ '.' :: part

def text (span : Span) : String :=
  let n := span.nanos
  String.ofList <|
    if 1000000000 ≤ n then inUnit n 1000000000 9 ++ ['s']
    else if 1000000 ≤ n then inUnit n 1000000 6 ++ ['m', 's']
    else if 1000 ≤ n then inUnit n 1000 3 ++ ['µ', 's']
    else Integer.digits n ++ ['n', 's']

example : (ofMillis 1500).text = "1.5s" ∧ (ofMillis 250).text = "250ms" ∧ (ofMillis 0).text = "0ns" :=
  by cbv

end Span

end CqlClient
