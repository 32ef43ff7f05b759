import CqlClient.Session.Step

/-!
A session at work. Whoever becomes able to move gets in line, and moves until blocked when his turn
comes; what several deadlines end at once goes on in the order of the deadlines. Outside of it there
are octets only: those that arrive are cut into frames.
-/

namespace CqlClient

/-- The waits that have a deadline. -/
inductive Wait where
  | transport
  | startup
  | use
  /-- The whole call. -/
  | call
  deriving DecidableEq, Repr

structure Alarm where
  place : Nat
  wait : Wait
  deadline : Nat
  deriving DecidableEq, Repr

namespace Session

/-- The next step of an actor when it is his turn. Only a blocked call gives up: first the wait it
is in, and then as a whole. -/
def step (s : Session) : Actor → Option Session
  | .call place => s.moveCall place <|> s.giveUpWait place <|> s.giveUpCall place
  | actor => s.move actor

def actors (s : Session) : List Actor :=
  [.reader, .writer] ++ (List.range s.calls.length).map .call ++
    (List.range s.closers.length).map .closer

/-- The alarms of a call: for the wait it is in and for the caller's patience. -/
def alarmsOf (call : Call) (place : Nat) : List Alarm :=
  let inner := match call.stage with
    | .connect deadline => [⟨place, .transport, deadline⟩]
    | .await (.startup deadline) _ => [⟨place, .startup, deadline⟩]
    | .await (.use deadline) _ => [⟨place, .use, deadline⟩]
    | _ => []
  let outer := if call.isWaiting then
      call.patience.toList.map fun patience => ⟨place, .call, patience.deadline⟩
    else []
  inner ++ outer

def alarms (s : Session) : List Alarm :=
  s.calls.zipIdx.flatMap fun (call, place) => alarmsOf call place

end Session

/-- A session, and how far it has got in the order of its steps. -/
structure LiveSession where
  session : Session
  /-- Those who can move, in line. -/
  line : List Actor
  /-- The alarms that are set, the oldest first. -/
  alarms : List Alarm
  /-- The octets of a frame that has not arrived to its end; nothing once the frames have ended. -/
  unfinished : Option Bytes
  /-- How many of the written frames have been taken away. -/
  taken : Nat

namespace LiveSession

def new (options : SessionOptions) : LiveSession := ⟨.new options, [], [], some [], 0⟩

/-- The session turns into `s`, and those who can move get in line. -/
def become (live : LiveSession) (s : Session) : LiveSession :=
  let able := s.actors.filter fun actor => !live.line.contains actor && (s.step actor).isSome
  { live with session := s, line := live.line ++ able }

/-- Sets the alarms of new waits and drops those of waits that have ended. -/
def setAlarms (live : LiveSession) : LiveSession :=
  let current := live.session.alarms
  { live with
    alarms := live.alarms.filter current.contains ++
      current.filter fun alarm => !live.alarms.contains alarm }

/-- Lets the first in line move as long as it can and then the next, for so many steps. -/
def run : (steps : Nat) → LiveSession → LiveSession
  | 0, live => live
  | steps + 1, live =>
    match live.line with
    | [] => live
    | actor :: line =>
      match live.session.step actor with
      | some s => run steps (live.become s)
      | none => run steps { live with line }.setAlarms

/-- More steps than a session of this size can make without help from outside. -/
def enough (s : Session) : Nat :=
  128 * (s.calls.length + s.closers.length + s.arrivals.length + s.queued.length + 2)

/-- Lets everyone move until all are blocked. -/
def settle (live : LiveSession) : LiveSession := run (enough live.session) live

/-- Lets something happen to the session, if it can. -/
def act (live : LiveSession) (action : Session.Action) : LiveSession :=
  match live.session.act action with
  | some s => live.become s
  | none => live

/-- Lets time pass. -/
def wait (live : LiveSession) (span : Span) : LiveSession :=
  let clock := live.session.clock + span.nanos
  let due := (live.alarms.filter (·.deadline ≤ clock)).mergeSort fun a b => a.deadline ≤ b.deadline
  let woken := (due.map fun alarm => Actor.call alarm.place).eraseDups.filter fun actor =>
    !live.line.contains actor
  { live with line := live.line ++ woken }.act (.wait span)

/-- Octets arrive; the frames that they end arrive together. -/
def receive (live : LiveSession) (octets : Bytes) : LiveSession :=
  match live.unfinished with
  | none => live
  | some start =>
    let (frames, left) := Frame.cut (start ++ octets)
    let live := frames.foldl (fun live frame => live.act (.arrive (.ok frame))) live
    match left with
    | .ok left => { live with unfinished := some left }
    | .error err => { live.act (.arrive (.error err)) with unfinished := none }

/-- No more octets will arrive, for the reason given. -/
def endInput (live : LiveSession) (reason : String) : LiveSession :=
  match live.unfinished with
  | none => live
  | some _ => { live.act (.arrive (.error (.io reason))) with unfinished := none }

/-- Takes away the frames that have been written since the last time. -/
def takeSent (live : LiveSession) : List Frame × LiveSession :=
  (live.session.sent.drop live.taken, { live with taken := live.session.sent.length })

/-- How the newest call has ended, if it has. -/
def newestResult? (live : LiveSession) : Option CallResult :=
  live.session.calls.getLast?.bind Call.result?

end LiveSession

end CqlClient
