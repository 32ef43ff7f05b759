import CqlClient.Bytes.Hex
import CqlClient.Number.Integer
import CqlClient.Text.Quoted
import CqlClient.WireType.Basic

/-!
What can go wrong between values and the octets of a cell.
-/

namespace CqlClient

def Hex.Error.message : Hex.Error → String
  | .oddLength => "Odd number of digits"
  | .badDigit code position =>
    "Invalid character " ++ Text.quoteChar (Char.ofNat code.toNat) ++ " at position " ++
      Integer.text position

/-- Why values cannot be sent as parameters of a query. -/
inductive EncodeError where
  | unsupported (type : WireType)
  | typeMismatch (expected : WireType) (found : String)
  /-- A text for an ascii column has another character at this octet. -/
  | nonAscii (position : Nat)
  | nullElement (collection : WireType)
  | duplicateElement (collection : WireType)
  /-- A counter is given a value, where it can only be added to. -/
  | counterAssignment
  | tooLarge (length : Nat)
  | missingParameter (name : String)
  | unknownParameter (name : String)
  | invalidHex (reason : String)
  deriving DecidableEq, Repr

def EncodeError.message : EncodeError → String
  | unsupported type => "wire type " ++ type.text ++ " is not supported"
  | typeMismatch expected found =>
    "value of kind " ++ found ++ " does not fit wire type " ++ expected.text
  | nonAscii position => "ascii value has non-ascii character at byte " ++ Integer.text position
  | nullElement collection => "collection of " ++ collection.text ++ " contains a null element"
  | duplicateElement collection => collection.text ++ " contains a duplicate element"
  | counterAssignment => "counter columns accept increments only"
  | tooLarge length => "value is too large to encode (" ++ Integer.text length ++ " bytes)"
  | missingParameter name => "placeholder :" ++ name ++ " has no bound value"
  | unknownParameter name => "bound parameter " ++ name ++ " does not appear in the query"
  | invalidHex reason => "invalid hex blob: " ++ reason

/-- Why the octets of a cell are no value of its column. -/
inductive DecodeError where
  | unsupported (type : WireType)
  | invalidLength (type : WireType) (expected found : Nat)
  | truncated (type : WireType)
  | trailingBytes (type : WireType)
  | invalidUtf8
  | nonAscii (position : Nat)
  | invalidBoolean (octet : UInt8)
  | timestampOutOfRange (millis : Int64)
  | negativeCount (count : Int32)
  | nullElement (collection : WireType)
  deriving DecidableEq, Repr

def DecodeError.message : DecodeError → String
  | unsupported type => "wire type " ++ type.text ++ " is not supported"
  | invalidLength type expected found =>
    type.text ++ " expects " ++ Integer.text expected ++ " bytes, got " ++ Integer.text found
  | truncated type => type.text ++ " value is truncated"
  | trailingBytes type => type.text ++ " value has trailing bytes"
  | invalidUtf8 => "text value is not valid utf-8"
  | nonAscii position => "ascii value has non-ascii byte at " ++ Integer.text position
  | invalidBoolean octet => "boolean byte must be 0 or 1, got " ++ Integer.text octet.toNat
  | timestampOutOfRange millis =>
    "timestamp " ++ Integer.text millis.toInt ++ "ms is out of range"
  | negativeCount count => "collection count " ++ Integer.text count.toInt ++ " is negative"
  | nullElement collection => "collection of " ++ collection.text ++ " contains a null element"

end CqlClient
