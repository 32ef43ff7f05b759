import CqlClient.InFlight
import CqlClient.Query.Result
import CqlClient.Session.Handshake

/-!
A session with one node. Any number of calls share it, besides the two workers that read and write
frames. This module says what they share and how far each of them can have got; their steps are in
the next one.
-/

namespace CqlClient

inductive Phase where
  | uninitialized
  | connecting
  | active
  | paused
  | closed
  deriving DecidableEq, Repr

def Phase.name : Phase → String
  | uninitialized => "uninitialized"
  | connecting => "connecting"
  | active => "active"
  | paused => "paused"
  | closed => "closed"

/-- How a session is set up. -/
structure SessionOptions where
  endpoint : Endpoint
  /-- The keyspace to choose; none if this is empty. -/
  keyspace : String
  version : String
  /-- How long to wait for the transport, and for each answer of the handshake. -/
  connectTimeout : Span
  /-- How many breaches of the protocol in a row close the session. -/
  maxProtocolErrors : Nat

def SessionOptions.standard (endpoint : Endpoint) (keyspace : String) : SessionOptions :=
  ⟨endpoint, keyspace, standardVersion, .ofMillis ConnectionSettings.standard.connectTimeoutMillis,
    ConnectionSettings.standard.maxProtocolErrors⟩

/-- The options of a session that settings ask for. -/
def Settings.sessionOptions (settings : Settings) : SessionOptions :=
  ⟨settings.endpoint, settings.keyspace, settings.connection.cqlVersion,
    .ofMillis settings.connection.connectTimeoutMillis, settings.connection.maxProtocolErrors⟩

/-- What has become of the connection to the node's address. -/
inductive Transport where
  | pending
  | ready
  | refused (reason : String)
  deriving DecidableEq, Repr

/-- The parts of closing a session, in their order. Each is one step, and others may act between
two of them. -/
inductive Closing where
  | latch
  | dropOutbox
  | stopWorkers
  | failWaiters
  deriving DecidableEq, Repr

def Closing.next? : Closing → Option Closing
  | latch => some dropOutbox
  | dropOutbox => some stopWorkers
  | stopWorkers => some failWaiters
  | failWaiters => none

/-- What a call is for. -/
inductive Job where
  /-- To have the handshake done. -/
  | opening
  /-- To run a query, unless it cannot be sent. -/
  | query (request : Except EncodeError QueryRequest)

/-- How a call ends: with the rows of its query, or with no rows if it was for the handshake. -/
abbrev CallResult := Except ClientError (Option ResultSet)

/-- The requests that wait for a response. Those of the handshake wait until a moment. -/
inductive Exchange where
  | startup (deadline : Nat)
  | use (deadline : Nat)
  | query (request : QueryRequest)

/-- How far a call has got. -/
inductive Stage where
  | begin
  /-- Waits for a phase that lets it go on. -/
  | settle
  /-- Has found that nobody has started the handshake. -/
  | claim
  /-- Waits until a moment for the transport. -/
  | connect (deadline : Nat)
  | openOutbox
  | startWorkers
  | recordWorkers
  /-- Needs a stream for a request. -/
  | register (exchange : Exchange)
  /-- Looks whether the session has been closed since. -/
  | check (exchange : Exchange) (stream : Int16)
  | enqueue (exchange : Exchange) (stream : Int16)
  | await (exchange : Exchange) (stream : Int16)
  /-- Ends the handshake. -/
  | land
  | close (part : Closing) (reason : ClientError) (result : CallResult)
  | done (result : CallResult)
  /-- Nobody waits for the call any more, and it does nothing. -/
  | dropped

/-- How long a caller waits, and until when. -/
structure Patience where
  limit : Span
  deadline : Nat
  deriving DecidableEq, Repr

structure Call where
  job : Job
  patience : Option Patience
  stage : Stage
  /-- What the waiting call has been handed. -/
  inbox : Option (Except ClientError Frame)

namespace Call

/-- Whether the call waits for the response on a stream or is about to. -/
def hasStream (call : Call) : Bool :=
  match call.stage with
  | .check .. | .enqueue .. | .await .. => true
  | _ => false

/-- Whether the call is where it may have to wait. -/
def isWaiting (call : Call) : Bool :=
  match call.stage with
  | .settle | .connect _ | .await .. => true
  | _ => false

/-- Takes what it is handed, once. -/
def accept (call : Call) (result : Except ClientError Frame) : Call :=
  if call.hasStream && call.inbox.isNone then { call with inbox := some result } else call

/-- The result, once there is one. -/
def result? (call : Call) : Option CallResult :=
  match call.stage with
  | .done result => some result
  | _ => none

end Call

/-- What a worker is at. -/
inductive Duty where
  | unstarted
  | serving
  /-- The reader has a frame for a stream without a waiter. -/
  | striking
  /-- Closes the session, and ends after it or goes on. -/
  | closing (part : Closing) (reason : ClientError) (last : Bool)
  | over
  deriving DecidableEq, Repr

structure Worker where
  duty : Duty
  /-- Told to end as soon as nothing is left to close. -/
  stopped : Bool
  deriving DecidableEq, Repr

namespace Worker

def new : Worker := ⟨.unstarted, false⟩

def isServing (worker : Worker) : Bool := worker.duty == .serving && !worker.stopped

/-- Whether the worker has let go of the transport. -/
def isOver (worker : Worker) : Bool :=
  worker.duty == .over || (worker.duty == .serving && worker.stopped)

end Worker

structure Session where
  options : SessionOptions
  phase : Phase
  /-- Whether the handshake is to end in a pause. -/
  pauseRequested : Bool
  /-- The calls that wait for a response, by their places. -/
  inFlight : InFlight Nat
  /-- Whether frames may be queued. -/
  outboxOpen : Bool
  /-- The frames that wait for the writer. -/
  queued : List Frame
  /-- The frames that the writer has written. -/
  sent : List Frame
  /-- Breaches of the protocol since the last good response. -/
  strikes : Nat
  reader : Worker
  writer : Worker
  /-- Whether the workers are known to those who close the session. -/
  workersRecorded : Bool
  transport : Transport
  /-- How often the transport has been asked for. -/
  connects : Nat
  /-- What the reader has not seen yet: frames, and perhaps what ends them. -/
  arrivals : List (Except ProtocolError Frame)
  calls : List Call
  /-- Who closes the session on demand, and what each of them does next. -/
  closers : List (Option Closing)
  /-- The time in nanoseconds. -/
  clock : Nat

namespace Session

def new (options : SessionOptions) : Session where
  options
  phase := .uninitialized
  pauseRequested := false
  inFlight := .empty
  outboxOpen := false
  queued := []
  sent := []
  strikes := 0
  reader := .new
  writer := .new
  workersRecorded := false
  transport := .pending
  connects := 0
  arrivals := []
  calls := []
  closers := []
  clock := 0

def isClosed (s : Session) : Bool := s.phase == .closed

/-- Whether both workers have let go of the transport, so that the node sees its end. -/
def letGo (s : Session) : Bool := s.reader.isOver && s.writer.isOver

/-- The session on one line. -/
def summary (s : Session) : String :=
  let phase := match s.phase with
    | .uninitialized => "Uninitialized"
    | .connecting => "Connecting"
    | .active => "Active"
    | .paused => "Paused"
    | .closed => "Closed"
  "Connection \x7b endpoint: Endpoint \x7b host: " ++ Text.quote s.options.endpoint.host ++
    ", port: " ++ Integer.text s.options.endpoint.port.toNat ++ " \x7d, keyspace: " ++
    Text.quote s.options.keyspace ++ ", state: " ++ phase ++ " \x7d"

end Session

end CqlClient
