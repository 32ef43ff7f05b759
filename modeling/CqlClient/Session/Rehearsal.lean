import CqlClient.Session.Live

/-!
A rehearsal: a session with a node that does what it is told and a clock that stands still until it
is moved. After each event everything runs until nothing can move, and a report says what can be
seen from outside.
-/

namespace CqlClient

/-- A frame that the node has read. -/
structure Received where
  frame : Frame
  request : Except ProtocolError Request

structure Rehearsal where
  live : LiveSession
  /-- Whether the node answers the messages of the handshake by itself. -/
  autoHandshake : Bool
  /-- The names of the calls, by their places. -/
  names : List String
  /-- The requests that the node has read and not answered. -/
  unanswered : List Received
  hungUp : Bool
  /-- Whether the node has seen the end of the stream. -/
  sawEnd : Bool
  /-- The places of the calls whose end has been reported. -/
  reported : List Nat

namespace Rehearsal

def new (options : SessionOptions) (autoHandshake : Bool) (transport : Transport) : Rehearsal where
  live := (LiveSession.new options).act (.transport transport)
  autoHandshake
  names := []
  unanswered := []
  hungUp := false
  sawEnd := false
  reported := []

def session (r : Rehearsal) : Session := r.live.session

def act (r : Rehearsal) (action : Session.Action) : Rehearsal :=
  { r with live := r.live.act action }

/-! ## The node -/

/-- Whether what the node writes can still be read. -/
def canWrite (r : Rehearsal) : Bool := !r.hungUp && !r.session.letGo

/-- The node writes octets. -/
def write (r : Rehearsal) (octets : Bytes) : Rehearsal := { r with live := r.live.receive octets }

/-- The node drops its end of the stream. -/
def hangUp (r : Rehearsal) : Rehearsal :=
  { r with live := r.live.endInput Frame.earlyEnd, hungUp := true }

/-- What the node answers by itself to a message of the handshake. -/
def handshakeReply? : Request → Option Response
  | .startup _ => some .ready
  | .query request =>
    match request.text.toList with
    | 'U' :: 'S' :: 'E' :: ' ' :: keyspace =>
      some (.result (.setKeyspace (String.ofList keyspace)))
    | _ => none
  | .options => none

/-- The node takes a request in, and answers it if it does so by itself. -/
def takeIn (r : Rehearsal) (received : Received) : Rehearsal :=
  let reply? := if r.autoHandshake then received.request.toOption.bind handshakeReply? else none
  match reply? with
  | some reply =>
    if r.canWrite then r.write (reply.frame received.frame.stream).encode else r
  | none => { r with unanswered := r.unanswered ++ [received] }

/-- The node reads what has been written, if it still can. -/
def read (r : Rehearsal) : List Received × Rehearsal :=
  let (frames, live) := r.live.takeSent
  if r.hungUp then ([], r)
  else (frames.map fun frame => ⟨frame, Request.decode frame.opcode frame.body⟩, { r with live })

/-- Lets everything run, the node included, for so many rounds, and gives what the node reads. -/
def runRounds : (rounds : Nat) → Rehearsal → List Received × Rehearsal
  | 0, r => ([], r)
  | rounds + 1, r =>
    match { r with live := r.live.settle }.read with
    | ([], r) => ([], r)
    | (received, r) =>
      let (later, r) := runRounds rounds (received.foldl takeIn r)
      (received ++ later, r)

/-! ## Events -/

/-- A call begins, under a name. -/
def call (r : Rehearsal) (name : String) (job : Job) (limit : Option Span) : Rehearsal :=
  { r.act (.call job limit) with names := r.names ++ [name] }

/-- The call with a name is dropped. -/
def abandon (r : Rehearsal) (name : String) : Rehearsal :=
  match r.names.reverse.idxOf? name with
  | none => r
  | some back => r.act (.abandon (r.names.length - 1 - back))

/-- Time passes. -/
def wait (r : Rehearsal) (span : Span) : Rehearsal := { r with live := r.live.wait span }

/-- Which request the node answers. -/
inductive Target where
  | oldest
  /-- The oldest one with this query. -/
  | query (text : String)
  /-- The one on a stream, which is written to even if there is none. -/
  | stream (id : Int16)

def Target.isOf (target : Target) (received : Received) : Bool :=
  match target, received.request with
  | .oldest, _ => true
  | .query text, .ok (.query request) => request.text == text
  | .query _, _ => false
  | .stream id, _ => received.frame.stream == id

/-- Why the node does not do what it is told. -/
inductive Excuse where
  | nothingToAnswer
  | cannotSend

def Excuse.text : Excuse → String
  | nothingToAnswer => "nothing to answer"
  | cannotSend => "cannot send"

/-- The node writes octets if it can. -/
def tryWrite (r : Rehearsal) (octets : Bytes) : Rehearsal × Option Excuse :=
  if r.canWrite then (r.write octets, none) else (r, some .cannotSend)

/-- The node answers a request, which counts as answered even if the answer cannot be written. -/
def reply (r : Rehearsal) (target : Target) (opcode : Opcode) (body : Bytes) :
    Rehearsal × Option Excuse :=
  let answer (r : Rehearsal) (stream : Int16) :=
    r.tryWrite (Frame.response stream opcode body).encode
  match r.unanswered.find? target.isOf, target with
  | some received, _ =>
    answer { r with unanswered := r.unanswered.eraseP target.isOf } received.frame.stream
  | none, .stream id => answer r id
  | none, _ => (r, some .nothingToAnswer)

/-! ## Reports -/

/-- What can be seen after an event. -/
structure Report where
  phase : Phase
  inFlight : Nat
  connects : Nat
  /-- What the node has read since the event. -/
  received : List Received
  /-- The calls that have ended since the event, by name. -/
  ended : List (String × CallResult)
  sawEnd : Bool

/-- The calls that have ended and have not been reported, with their places. -/
def newlyEnded (r : Rehearsal) : List (Nat × String × CallResult) :=
  (r.session.calls.zip r.names).zipIdx.filterMap fun ((call, name), place) =>
    if r.reported.contains place then none else call.result?.map (place, name, ·)

/-- Lets everything run and reports what has happened. -/
def report (r : Rehearsal) : Report × Rehearsal :=
  let (received, r) := runRounds (3 * r.names.length + 3) r
  let ended := r.newlyEnded
  let r := { r with
    sawEnd := r.sawEnd || (r.session.letGo && !r.hungUp)
    reported := ended.map Prod.fst ++ r.reported }
  ({
    phase := r.session.phase
    inFlight := r.session.inFlight.size
    connects := r.session.connects
    received
    ended := (ended.map Prod.snd).mergeSort fun a b => a.1 ≤ b.1
    sawEnd := r.sawEnd }, r)

end Rehearsal

end CqlClient
