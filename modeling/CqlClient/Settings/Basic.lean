import CqlClient.Settings.Document
import CqlClient.Retry
import CqlClient.Toml.Reader

/-!
The settings of a client: where the node is, how the connection behaves, and how failures are
retried. A file gives them in TOML; what it leaves out has a standard value.
-/

namespace CqlClient

structure ConnectionSettings where
  cqlVersion : String
  connectTimeoutMillis : Nat
  requestTimeoutMillis : Option Nat
  maxProtocolErrors : Nat
  deriving DecidableEq, Repr

structure RetrySettings where
  maxAttempts : Nat
  baseBackoffMillis : Nat
  maxBackoffMillis : Nat
  deriving DecidableEq, Repr

structure Settings where
  endpoint : Endpoint
  keyspace : String
  consistency : Consistency
  connection : ConnectionSettings
  retry : RetrySettings
  deriving DecidableEq, Repr

/-- Names that may be written bare in a query: a letter, then letters, digits and underscores. -/
def isIdentifier (name : String) : Bool :=
  match name.toList with
  | [] => false
  | c :: rest => c.isAlpha && rest.all fun c => c.isAlphanum || c == '_'

/-- The version of the query language that is asked for. -/
def standardVersion : String := "3.0.0"

def ConnectionSettings.standard : ConnectionSettings := ⟨standardVersion, 5000, none, 3⟩

def RetrySettings.standard : RetrySettings := ⟨3, 100, 2000⟩

namespace Settings

/-- What makes settings unusable. -/
inductive Fault where
  | blankHost
  | zeroPort
  | badKeyspace (name : String)
  | emptyVersion
  | zeroConnectTimeout
  | zeroRequestTimeout
  | zeroProtocolErrors
  | zeroAttempts
  | crossedBackoff
  deriving DecidableEq, Repr

def Fault.message : Fault → String
  | blankHost => "endpoint host must not be empty"
  | zeroPort => "endpoint port must not be zero"
  | badKeyspace name => "keyspace " ++ name ++ " is not a plain identifier"
  | emptyVersion => "connection.cql_version must not be empty"
  | zeroConnectTimeout => "connection.connect_timeout_ms must be positive"
  | zeroRequestTimeout => "connection.request_timeout_ms must be positive"
  | zeroProtocolErrors => "connection.max_protocol_errors must be at least 1"
  | zeroAttempts => "retry.max_attempts must be at least 1"
  | crossedBackoff => "retry.base_backoff_ms exceeds retry.max_backoff_ms"

/-- The first fault of settings, in the order of their sections. -/
def fault? (s : Settings) : Option Fault :=
  if (Text.trimChars s.endpoint.host.toList).isEmpty then some .blankHost
  else if s.endpoint.port = 0 then some .zeroPort
  else if s.keyspace ≠ "" ∧ !isIdentifier s.keyspace then some (.badKeyspace s.keyspace)
  else if s.connection.cqlVersion = "" then some .emptyVersion
  else if s.connection.connectTimeoutMillis = 0 then some .zeroConnectTimeout
  else if s.connection.requestTimeoutMillis = some 0 then some .zeroRequestTimeout
  else if s.connection.maxProtocolErrors = 0 then some .zeroProtocolErrors
  else if s.retry.maxAttempts = 0 then some .zeroAttempts
  else if s.retry.maxBackoffMillis < s.retry.baseBackoffMillis then some .crossedBackoff
  else none

/-- Why a text gives no settings. -/
inductive ReadError where
  /-- The text is not TOML, or a section or a value in it has the wrong form. -/
  | malformed
  | invalid (fault : Fault)
  deriving DecidableEq, Repr

/-- A count of milliseconds, which a 64-bit word holds. -/
def millis? : Document → Option Nat := Document.natural? (UInt64.size - 1)

/-- A count that a 32-bit word holds. -/
def count? : Document → Option Nat := Document.natural? (UInt32.size - 1)

def connection? (content : Document) : Option ConnectionSettings := do
  let usual := ConnectionSettings.standard
  match ← content.fields? false
    ["cql_version", "connect_timeout_ms", "request_timeout_ms", "max_protocol_errors"] with
  | [version, connectTimeout, requestTimeout, protocolErrors] =>
    return {
      cqlVersion := ← orDefault usual.cqlVersion Document.text? version
      connectTimeoutMillis := ← orDefault usual.connectTimeoutMillis millis? connectTimeout
      requestTimeoutMillis := ← orDefault usual.requestTimeoutMillis
        (fun content => some <$> millis? content) requestTimeout
      maxProtocolErrors := ← orDefault usual.maxProtocolErrors count? protocolErrors }
  | _ => none

def retry? (content : Document) : Option RetrySettings := do
  let usual := RetrySettings.standard
  match ← content.fields? false ["max_attempts", "base_backoff_ms", "max_backoff_ms"] with
  | [attempts, base, top] =>
    return {
      maxAttempts := ← orDefault usual.maxAttempts count? attempts
      baseBackoffMillis := ← orDefault usual.baseBackoffMillis millis? base
      maxBackoffMillis := ← orDefault usual.maxBackoffMillis millis? top }
  | _ => none

/-- The settings in a document, not yet looked at for faults. -/
def ofDocument? (content : Document) : Option Settings := do
  match ← content.fields? false
    ["endpoint", "keyspace", "default_consistency", "connection", "retry"] with
  | [some endpoint, keyspace, consistency, connection, retry] =>
    return {
      endpoint := ← Endpoint.ofDocument? false endpoint
      keyspace := ← orDefault "" Document.text? keyspace
      consistency := ← orDefault Consistency.standard (Consistency.ofDocument? false) consistency
      connection := ← orDefault ConnectionSettings.standard connection? connection
      retry := ← orDefault RetrySettings.standard retry? retry }
  | _ => none

/-- Settings without a fault. -/
def check (s : Settings) : Except ReadError Settings :=
  match s.fault? with
  | some fault => .error (.invalid fault)
  | none => .ok s

/-- Reads settings and refuses them if they have a fault. -/
def ofToml (text : String) : Except ReadError Settings :=
  match (Toml.read? text).bind ofDocument? with
  | none => .error .malformed
  | some s => s.check

/-- The policy for failures. -/
def retryPolicy (s : Settings) : RetryPolicy :=
  ⟨UInt32.ofNat s.retry.maxAttempts, .ofMillis s.retry.baseBackoffMillis,
    .ofMillis s.retry.maxBackoffMillis⟩

end Settings

end CqlClient
