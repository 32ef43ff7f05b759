import CqlClient.Cell.Error
import CqlClient.Message.Error

/-!
What a call on a connection can fail with, and what a caller can do about it.
-/

namespace CqlClient

inductive ClientError where
  | encode (err : EncodeError)
  | decode (err : DecodeError)
  | connectionClosed
  | transportTimeout (reason : String)
  | transportReset (reason : String)
  | protocol (reason : String)
  | connectionLost (reason : String)
  | handshake (reason : String)
  /-- The node answered with an error of its own. -/
  | server (code : Int32) (reason : String)
  | streamsExhausted
  deriving DecidableEq, Repr

/-- What a failure means for a second try. -/
inductive ErrorClass where
  /-- Worth another try, perhaps on another connection. -/
  | transient
  /-- The node sent what the client cannot interpret. -/
  | protocol
  /-- The request is wrong and stays wrong. -/
  | data
  /-- The connection is of no more use. -/
  | fatalConnection
  deriving DecidableEq, Repr

namespace ErrorClass

def isRetryable (c : ErrorClass) : Bool := c == transient

def name : ErrorClass → String
  | transient => "transient"
  | protocol => "protocol"
  | data => "data"
  | fatalConnection => "fatal_connection"

/-- The codes of errors that pass: unavailable, overloaded, bootstrapping, write timeout and read
timeout. -/
def transientCodes : List Int32 := [0x1000, 0x1001, 0x1002, 0x1100, 0x1200]

/-- The codes of a server error and of a protocol error. -/
def protocolCodes : List Int32 := [0x0000, 0x000A]

/-- The code of bad credentials. -/
def badCredentials : Int32 := 0x0100

/-- The class of an error that the node reports. -/
def ofServerCode (code : Int32) : ErrorClass :=
  if code ∈ transientCodes then transient
  else if code ∈ protocolCodes then protocol
  else if code = badCredentials then fatalConnection
  else data

end ErrorClass

namespace ClientError

/-- The code of a node's error, as the word that holds it. -/
def codeText (code : Int32) : String := hexText 4 code.toUInt32.toNat

def message : ClientError → String
  | encode err => "encode error: " ++ err.message
  | decode err => "decode error: " ++ err.message
  | connectionClosed => "connection closed"
  | transportTimeout reason => "request timed out: " ++ reason
  | transportReset reason => "transport reset: " ++ reason
  | protocol reason => "protocol error: " ++ reason
  | connectionLost reason => "connection lost: " ++ reason
  | handshake reason => "handshake failed: " ++ reason
  | server code reason => "server error " ++ codeText code ++ ": " ++ reason
  | streamsExhausted => "no free stream ids on connection"

def errorClass : ClientError → ErrorClass
  | transportTimeout _ | transportReset _ | streamsExhausted => .transient
  | protocol _ => .protocol
  | encode _ | decode _ => .data
  | connectionClosed | connectionLost _ | handshake _ => .fatalConnection
  | server code _ => .ofServerCode code

end ClientError

end CqlClient
