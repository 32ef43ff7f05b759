import CqlClient.Bytes.Hex

/-!
Universally unique identifiers: sixteen octets, written as five groups of hexadecimal digits.
Reading takes the groups with or without hyphens, and the hyphenated form also in braces or after
the prefix of its URN.

These are the four forms that readers of identifiers document, and the one in which identifiers are
shown. What the octets say is not looked at: neither the version nor the variant, nor the moment in
an identifier that is made of one. No identifiers are made here, and what is wrong with a text is
not told.
-/

namespace CqlClient

structure Uuid where
  octets : Bytes
  length_octets : octets.length = 16
  deriving DecidableEq, Repr

namespace Uuid

/-- The identifier with these octets, when there are sixteen. -/
def ofOctets? (octets : Bytes) : Option Uuid :=
  if h : octets.length = 16 then some ⟨octets, h⟩ else none

/-- Groups of eight, four, four, four and twelve lower-case digits, with hyphens between. -/
def text (uuid : Uuid) : String :=
  let group (start count : Nat) : List Char :=
    ((uuid.octets.drop start).take count).flatMap Hex.ofOctet
  String.ofList (group 0 4 ++ '-' :: group 4 2 ++ '-' :: group 6 2 ++ '-' :: group 8 2 ++
    '-' :: group 10 6)

/-- The octets of hexadecimal digits. -/
def ofDigits? (digits : List Char) : Option Uuid :=
  match Hex.decode (String.ofList digits) with
  | .ok octets => ofOctets? octets
  | .error _ => none

/-- Reads the groups with a hyphen after the eighth, twelfth, sixteenth and twentieth digit. -/
def ofHyphenated? (cs : List Char) : Option Uuid :=
  let hyphens := [8, 13, 18, 23]
  if hyphens.all fun place => cs[place]? = some '-' then
    ofDigits? (cs.take 8 ++ (cs.drop 9).take 4 ++ (cs.drop 14).take 4 ++ (cs.drop 19).take 4 ++
      cs.drop 24)
  else none

/-- The prefix of the URN form, which is read in either case. -/
def urn : List Char := ['u', 'r', 'n', ':', 'u', 'u', 'i', 'd', ':']

/-- Reads an identifier in any of its forms, told apart by the length of the text in octets. -/
def read? (text : String) : Option Uuid :=
  let cs := text.toList
  match text.utf8ByteSize with
  | 32 => ofDigits? cs
  | 36 => ofHyphenated? cs
  | 38 => if cs.head? = some '\x7b' ∧ cs.getLast? = some '\x7d' then
      ofHyphenated? (cs.drop 1).dropLast else none
  | 45 => if (cs.take 9).map Char.toLower = urn then ofHyphenated? (cs.drop 9) else none
  | _ => none

end Uuid

end CqlClient
