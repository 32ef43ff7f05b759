import CqlClient.Bytes.Basic

/-!
Integers of any size as big-endian two's complement. What is followed is the documented behaviour of
integers without bounds on their way to signed octets and back: an integer is written with the
fewest octets that hold it and its sign, and at least one, and whatever octets there are can be
read, none of them as zero. Nothing else that can be done with such integers is here; their texts
are in another module, and they are never calculated with.
-/

namespace CqlClient.TwosComplement

/-- How many bits hold the magnitude of `n`, without its sign. -/
def magnitudeBits (n : Int) : Nat :=
  let magnitude := if n < 0 then (-n - 1).toNat else n.toNat
  if magnitude = 0 then 0 else Nat.log2 magnitude + 1

/-- The fewest octets that hold `n` and its sign. -/
def width (n : Int) : Nat := magnitudeBits n / 8 + 1

/-- The shortest two's complement form of `n`. -/
def encode (n : Int) : Bytes :=
  Bytes.ofNat (width n) (n % Nat.pow 256 (width n)).toNat

/-- The integer that an octet string denotes; the empty string denotes zero. -/
def decode (bytes : Bytes) : Int :=
  let n := Bytes.toNat bytes
  if 2 * n < Nat.pow 256 bytes.length then n else (n : Int) - Nat.pow 256 bytes.length

end CqlClient.TwosComplement
