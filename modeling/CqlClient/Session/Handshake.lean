import CqlClient.ClientError
import CqlClient.Message.Request
import CqlClient.Message.Response
import CqlClient.Settings.Basic
import CqlClient.Text.Quoted
import CqlClient.Time.Span

/-!
The handshake: a startup message, and then the choice of a keyspace if there is one to choose. Each
of the two waits for its answer.
-/

namespace CqlClient

/-- Why a handshake fails. -/
inductive HandshakeError where
  /-- The transport has not come within the span. -/
  | connectTimeout (limit : Span)
  /-- There is no transport, for the reason given. -/
  | unreachable (reason : String)
  /-- An answer has not come within the span. -/
  | noReply (limit : Span)
  | failed (err : ClientError)
  | malformed (err : ProtocolError)
  /-- The node answered with an error. -/
  | rejected (code : Int32) (reason : String)
  | needsAuthentication (authenticator : String)
  /-- An answer of a kind that does not belong to the message. -/
  | unexpected (reply : Opcode) (message : String)
  | badKeyspace (name : String)
  deriving DecidableEq, Repr

namespace HandshakeError

def message : HandshakeError → String
  | connectTimeout limit => "connect timed out after " ++ limit.text
  | unreachable reason => "connect: " ++ reason
  | noReply limit => "no reply within " ++ limit.text
  | failed err => err.message
  | malformed err => err.message
  | rejected code reason => ClientError.codeText code ++ ": " ++ reason
  | needsAuthentication authenticator => "node requires authentication (" ++ authenticator ++ ")"
  | unexpected reply message => "unexpected " ++ reply.name ++ " reply to " ++ message
  | badKeyspace name => "invalid keyspace name " ++ Text.quote name

def toClientError (err : HandshakeError) : ClientError := .handshake err.message

end HandshakeError

namespace Handshake

/-- The first message, which names the version of the query language. -/
def startup (version : String) : Request :=
  .startup (.ofList [(Request.versionOption, version)])

/-- The query that chooses a keyspace. -/
def use (keyspace : String) : Request := .query ⟨"USE " ++ keyspace, .one, []⟩

/-- The answer in a frame, if it is no error. -/
def readReply (frame : Frame) : Except HandshakeError Response :=
  match Response.decode frame.opcode frame.body with
  | .error err => .error (.malformed err)
  | .ok (.error code reason) => .error (.rejected code reason)
  | .ok reply => .ok reply

/-- The answer to the startup message must be that the node is ready. -/
def checkStartup (frame : Frame) : Except HandshakeError Unit := do
  match ← readReply frame with
  | .ready => return ()
  | .authenticate authenticator => .error (.needsAuthentication authenticator)
  | other => .error (.unexpected other.opcode "STARTUP")

/-- The answer to the choice of a keyspace must confirm it. -/
def checkUse (frame : Frame) : Except HandshakeError Unit := do
  match ← readReply frame with
  | .result (.setKeyspace _) => return ()
  | other => .error (.unexpected other.opcode "USE")

end Handshake

end CqlClient
