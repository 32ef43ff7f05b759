import CqlClient.Message.Opcode
import CqlClient.Number.Integer

/-!
What can be wrong with the frames and bodies of the protocol.
-/

namespace CqlClient

/-- A number in lower-case hexadecimal behind `0x`, with at least `width` digits. -/
def hexText (width n : Nat) : String :=
  let digits := Nat.toDigits 16 n
  "0x" ++ String.ofList (List.replicate (width - digits.length) '0' ++ digits)

inductive ProtocolError where
  /-- The transport failed, for the reason given. -/
  | io (reason : String)
  | unsupportedVersion (octet : UInt8)
  | unknownOpcode (octet : UInt8)
  | frameTooLarge (length : Nat)
  /-- The body ends inside the field named. -/
  | truncated (what : String)
  | trailingBytes (count : Nat)
  | invalidUtf8
  | unknownTypeId (id : UInt16)
  | unknownResultKind (kind : Int32)
  | unknownConsistency (code : UInt16)
  | typeTooDeep (limit : Nat)
  | rowsWithoutColumns (count : Nat)
  | missingMetadata
  /-- A frame of a kind that only the other side sends. -/
  | unexpectedOpcode (opcode : Opcode)
  deriving DecidableEq, Repr

def ProtocolError.message : ProtocolError → String
  | io reason => "io error: " ++ reason
  | unsupportedVersion octet => "unsupported protocol version byte " ++ hexText 2 octet.toNat
  | unknownOpcode octet => "unknown opcode " ++ hexText 2 octet.toNat
  | frameTooLarge length => "frame body of " ++ Integer.text length ++ " bytes exceeds the limit"
  | truncated what => "message truncated while reading " ++ what
  | trailingBytes count => Integer.text count ++ " bytes left over after message body"
  | invalidUtf8 => "string is not valid utf-8"
  | unknownTypeId id => "unknown column type id " ++ hexText 4 id.toNat
  | unknownResultKind kind => "unknown result kind " ++ Integer.text kind.toInt
  | unknownConsistency code => "unknown consistency code " ++ hexText 4 code.toNat
  | typeTooDeep limit => "collection types nested deeper than " ++ Integer.text limit ++ " levels"
  | rowsWithoutColumns count =>
    "rows result has " ++ Integer.text count ++ " rows but no columns"
  | missingMetadata => "rows result carries no column metadata"
  | unexpectedOpcode opcode => "unexpected " ++ opcode.name ++ " message"

end CqlClient
