import CqlClient.Session.Basic

/-!
The steps of a session. Every step is atomic: a worker or a call does one thing to what they share,
and any other may act before it does the next. What cannot move is blocked and has no step.

The operations on the table of waiters are taken whole, each as one thing. An operation that takes
waiters out also hands them their results: the frame for the one that waits for it, the loss of its
response for one whose stream is cancelled, and the reason of the end for all of them at once. So
nobody acts between the two, and no waiter is seen that is out of the table and has been told
nothing.
-/

namespace CqlClient

/-- Those who act on a session. -/
inductive Actor where
  | reader
  | writer
  | call (place : Nat)
  | closer (place : Nat)
  deriving DecidableEq, Repr

namespace Session

/-- Puts a call at another stage. -/
def moveTo (s : Session) (place : Nat) (stage : Stage) : Session :=
  { s with calls := s.calls.modify place fun call => { call with stage } }

/-- Hands a result to a call. One that does not wait loses it. -/
def hand (s : Session) (place : Nat) (result : Except ClientError Frame) : Session :=
  { s with calls := s.calls.modify place (·.accept result) }

/-- Takes a stream out of the table. A call that waits there has lost its response. -/
def cancel (s : Session) (stream : Int16) : Session :=
  match s.inFlight.take? stream with
  | none => s
  | some (place, table) => { s with inFlight := table }.hand place (.error .connectionClosed)

/-! ## Closing -/

/-- Does a part of closing. -/
def closePart (s : Session) (reason : ClientError) : Closing → Session
  | .latch => { s with phase := .closed }
  | .dropOutbox => { s with outboxOpen := false }
  | .stopWorkers =>
    if s.workersRecorded then
      { s with
        reader := { s.reader with stopped := true }
        writer := { s.writer with stopped := true } }
    else s
  | .failWaiters =>
    let (waiters, table) := s.inFlight.drain
    waiters.foldl (fun s (_, place) => s.hand place (.error reason)) { s with inFlight := table }

/-- What a worker that closes the session does after a part of it. -/
def dutyAfter (part : Closing) (reason : ClientError) (last : Bool) : Duty :=
  match part.next? with
  | some part => .closing part reason last
  | none => if last then .over else .serving

/-- What a call that closes the session does after a part of it. -/
def stageAfter (part : Closing) (reason : ClientError) (result : CallResult) : Stage :=
  match part.next? with
  | some part => .close part reason result
  | none => .done result

/-- A call closes the session with an error and ends with it. -/
def fail (s : Session) (place : Nat) (err : ClientError) : Session :=
  s.moveTo place (.close .latch err (.error err))

/-- Counts a breach of the protocol, and gives the reason to close if it is one too many. -/
def strike (s : Session) : Session × Option ClientError :=
  let strikes := s.strikes + 1
  let reason := ClientError.connectionLost (Integer.text strikes ++ " consecutive protocol errors")
  ({ s with strikes }, if s.options.maxProtocolErrors ≤ strikes then some reason else none)

/-! ## The workers -/

/-- The error that the end of the frames means. -/
def lossReason : ProtocolError → ClientError
  | .io reason => .transportReset reason
  | err => .connectionLost err.message

/-- Hands a frame to the call that waits for it. A frame for no one is a breach of the protocol, and
one that answers no request is ignored. -/
def dispatch (s : Session) (frame : Frame) : Session :=
  if frame.stream = Frame.eventStream then s
  else
    match s.inFlight.take? frame.stream with
    | some (place, table) => { s with inFlight := table }.hand place (.ok frame)
    | none => { s with reader := { s.reader with duty := .striking } }

/-- A step of the reader. -/
def moveReader (s : Session) : Option Session :=
  match s.reader.duty with
  | .serving =>
    if s.reader.stopped then none
    else
      match s.arrivals with
      | [] => none
      | .ok frame :: rest => some ({ s with arrivals := rest }.dispatch frame)
      | .error err :: rest =>
        some { s with
          arrivals := rest
          reader := { s.reader with duty := .closing .latch (lossReason err) true } }
  | .striking =>
    let (s, reason) := s.strike
    let duty := match reason with
      | some reason => .closing .latch reason false
      | none => .serving
    some { s with reader := { s.reader with duty } }
  | .closing part reason last =>
    let s := s.closePart reason part
    some { s with reader := { s.reader with duty := dutyAfter part reason last } }
  | .unstarted | .over => none

/-- A step of the writer. It ends when nothing is queued and nothing can be. -/
def moveWriter (s : Session) : Option Session :=
  match s.writer.duty with
  | .serving =>
    if s.writer.stopped then none
    else
      match s.queued with
      | frame :: rest => some { s with queued := rest, sent := s.sent ++ [frame] }
      | [] =>
        if s.outboxOpen then none
        else some { s with writer := { s.writer with duty := .over } }
  | .closing part reason last =>
    let s := s.closePart reason part
    some { s with writer := { s.writer with duty := dutyAfter part reason last } }
  | .unstarted | .striking | .over => none

/-- A step of someone who closes the session on demand. -/
def moveCloser (s : Session) (place : Nat) : Option Session :=
  match s.closers[place]? with
  | some (some part) =>
    let s := s.closePart .connectionClosed part
    some { s with closers := s.closers.set place part.next? }
  | _ => none

/-! ## The calls -/

/-- The moment until which the handshake waits for what it is about to wait for. -/
def handshakeDeadline (s : Session) : Nat := s.clock + s.options.connectTimeout.nanos

/-- The request of an exchange. -/
def request (s : Session) : Exchange → Request
  | .startup _ => Handshake.startup s.options.version
  | .use _ => Handshake.use s.options.keyspace
  | .query request => .query request

/-- Where a call goes from its beginning. -/
def firstStage (s : Session) (job : Job) : Stage :=
  match job with
  | .opening => .settle
  | .query request =>
    if s.isClosed then .done (.error .connectionClosed)
    else
      match request with
      | .error err => .done (.error (.encode err))
      | .ok _ => .settle

/-- Where the phase lets a call go, if anywhere. A pause holds queries back but no opening. -/
def settled (s : Session) (job : Job) : Option Stage :=
  match s.phase, job with
  | .active, .opening => some (.done (.ok none))
  | .paused, .opening => some (.done (.ok none))
  | .active, .query (.ok request) => some (.register (.query request))
  | .active, .query (.error err) => some (.done (.error (.encode err)))
  | .closed, _ => some (.done (.error .connectionClosed))
  | .uninitialized, _ => some .claim
  | .connecting, _ => none
  | .paused, .query _ => none

/-- Takes the handshake on if nobody else has. -/
def claim (s : Session) (place : Nat) : Session :=
  if s.phase = .uninitialized then
    { s with phase := .connecting, connects := s.connects + 1 }.moveTo place
      (.connect s.handshakeDeadline)
  else s.moveTo place .settle

/-- Where the handshake goes after the startup message. -/
def afterStartup (s : Session) (place : Nat) : Session :=
  if s.options.keyspace = "" then s.moveTo place .land
  else if !isIdentifier s.options.keyspace then
    s.fail place (HandshakeError.badKeyspace s.options.keyspace).toClientError
  else s.moveTo place (.register (.use s.handshakeDeadline))

/-- Ends a query with what its response amounts to. -/
def conclude (s : Session) (place : Nat) : Verdict → Session
  | .answered result => { s with strikes := 0 }.moveTo place (.done (result.map some))
  | .breach reason =>
    let result : CallResult := .error (.protocol reason)
    match s.strike with
    | (s, some closing) => s.moveTo place (.close .latch closing result)
    | (s, none) => s.moveTo place (.done result)

/-- Goes on with what an exchange has led to. -/
def receive (s : Session) (place : Nat) (exchange : Exchange) (result : Except ClientError Frame) :
    Session :=
  match exchange, result with
  | .query _, .error err => s.moveTo place (.done (.error err))
  | .query _, .ok frame => s.conclude place (.ofFrame frame)
  | _, .error err => s.fail place (HandshakeError.failed err).toClientError
  | .startup _, .ok frame =>
    match Handshake.checkStartup frame with
    | .ok () => s.afterStartup place
    | .error err => s.fail place err.toClientError
  | .use _, .ok frame =>
    match Handshake.checkUse frame with
    | .ok () => s.moveTo place .land
    | .error err => s.fail place err.toClientError

/-- Gives a request a stream. -/
def register (s : Session) (place : Nat) (exchange : Exchange) : Session :=
  match s.inFlight.register place with
  | none => s.receive place exchange (.error .streamsExhausted)
  | some (stream, table) => { s with inFlight := table }.moveTo place (.check exchange stream)

/-- Queues a request, unless the queue is gone. -/
def enqueue (s : Session) (place : Nat) (exchange : Exchange) (stream : Int16) : Session :=
  if s.outboxOpen then
    { s with queued := s.queued ++ [(s.request exchange).frame stream] }.moveTo place
      (.await exchange stream)
  else (s.cancel stream).receive place exchange (.error .connectionClosed)

/-- Ends the handshake, unless the session has been closed. -/
def land (s : Session) (place : Nat) : Session :=
  if s.phase = .connecting then
    { s with
      phase := if s.pauseRequested then .paused else .active
      pauseRequested := false }.moveTo place .settle
  else s.fail place .connectionClosed

/-- A step of a call. -/
def moveCall (s : Session) (place : Nat) : Option Session := do
  let call ← s.calls[place]?
  match call.stage with
  | .begin => some (s.moveTo place (s.firstStage call.job))
  | .settle => (s.settled call.job).map (s.moveTo place)
  | .claim => some (s.claim place)
  | .connect _ =>
    match s.transport with
    | .pending => none
    | .ready => some (s.moveTo place .openOutbox)
    | .refused reason => some (s.fail place (HandshakeError.unreachable reason).toClientError)
  | .openOutbox => some ({ s with outboxOpen := true }.moveTo place .startWorkers)
  | .startWorkers =>
    some ({ s with
      reader := { s.reader with duty := .serving }
      writer := { s.writer with duty := .serving } }.moveTo place .recordWorkers)
  | .recordWorkers =>
    some ({ s with workersRecorded := true }.moveTo place
      (.register (.startup s.handshakeDeadline)))
  | .register exchange => some (s.register place exchange)
  | .check exchange stream =>
    if s.isClosed then
      some ((s.cancel stream).receive place exchange (.error .connectionClosed))
    else some (s.moveTo place (.enqueue exchange stream))
  | .enqueue exchange stream => some (s.enqueue place exchange stream)
  | .await exchange _ => do
    let result ← call.inbox
    some ({ s with calls := s.calls.set place { call with inbox := none } }.receive place exchange
      result)
  | .land => some (s.land place)
  | .close part reason result =>
    some ((s.closePart reason part).moveTo place (stageAfter part reason result))
  | .done _ => none
  | .dropped => none

/-- The next step of an actor, unless it is blocked. -/
def move (s : Session) : Actor → Option Session
  | .reader => s.moveReader
  | .writer => s.moveWriter
  | .call place => s.moveCall place
  | .closer place => s.moveCloser place

/-! ## What comes from outside -/

/-- The error with which the handshake gives up a wait, if it may. -/
def waitOver (s : Session) : Stage → Option HandshakeError
  | .connect deadline =>
    if deadline ≤ s.clock then some (.connectTimeout s.options.connectTimeout) else none
  | .await (.startup deadline) _ | .await (.use deadline) _ =>
    if deadline ≤ s.clock then some (.noReply s.options.connectTimeout) else none
  | _ => none

/-- The handshake gives up a wait. -/
def giveUpWait (s : Session) (place : Nat) : Option Session := do
  let call ← s.calls[place]?
  let err ← s.waitOver call.stage
  some (s.fail place err.toClientError)

/-- The caller of a call that waits, or has not begun, goes away. What the call has begun stays as
it is. -/
def abandon (s : Session) (place : Nat) : Option Session := do
  let call ← s.calls[place]?
  match call.stage with
  | .begin | .settle | .connect _ | .await .. => some (s.moveTo place .dropped)
  | _ => none

/-- The caller of a call that waits has no more patience. -/
def giveUpCall (s : Session) (place : Nat) : Option Session := do
  let call ← s.calls[place]?
  let patience ← call.patience
  if call.isWaiting ∧ patience.deadline ≤ s.clock then
    some (s.moveTo place (.done (.error
      (.transportTimeout ("no response within " ++ patience.limit.text)))))
  else none

/-- A new call. -/
def call (s : Session) (job : Job) (limit : Option Span) : Session :=
  let patience := limit.map fun limit => ⟨limit, s.clock + limit.nanos⟩
  { s with calls := s.calls ++ [⟨job, patience, .begin, none⟩] }

/-- Holds queries back. Before the handshake has ended this is only noted. -/
def pause (s : Session) : Session :=
  match s.phase with
  | .active => { s with phase := .paused }
  | .uninitialized | .connecting => { s with pauseRequested := true }
  | .paused | .closed => s

/-- Lets queries go on. -/
def resume (s : Session) : Session :=
  { s with
    pauseRequested := false
    phase := if s.phase = .paused then .active else s.phase }

/-- Someone begins to close the session. -/
def close (s : Session) : Session := { s with closers := s.closers ++ [some .latch] }

/-- The writer finds that it cannot write. -/
def breakWriter (s : Session) (reason : String) : Option Session :=
  if s.writer.isServing then
    some { s with
      writer := { s.writer with duty := .closing .latch (.transportReset reason) true } }
  else none

/-- All that can happen to a session. -/
inductive Action where
  | call (job : Job) (limit : Option Span)
  | abandon (place : Nat)
  | pause
  | resume
  | close
  | transport (outcome : Transport)
  | arrive (arrival : Except ProtocolError Frame)
  | breakWriter (reason : String)
  | wait (span : Span)
  | giveUpWait (place : Nat)
  | giveUpCall (place : Nat)
  | move (actor : Actor)

/-- The session after an action, if the action is possible. -/
def act (s : Session) : Action → Option Session
  | .call job limit => some (s.call job limit)
  | .abandon place => s.abandon place
  | .pause => some s.pause
  | .resume => some s.resume
  | .close => some s.close
  | .transport outcome => some { s with transport := outcome }
  | .arrive arrival => some { s with arrivals := s.arrivals ++ [arrival] }
  | .breakWriter reason => s.breakWriter reason
  | .wait span => some { s with clock := s.clock + span.nanos }
  | .giveUpWait place => s.giveUpWait place
  | .giveUpCall place => s.giveUpCall place
  | .move actor => s.move actor

/-- The sessions that can come about. -/
inductive Reachable (options : SessionOptions) : Session → Prop
  | new : Reachable options (.new options)
  | act {s t : Session} (action : Action) : Reachable options s → s.act action = some t →
      Reachable options t

end Session

end CqlClient
