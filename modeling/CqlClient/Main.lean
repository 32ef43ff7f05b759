import CqlClient.CommandLine.Loading
import CqlClient.CommandLine.Parameter
import CqlClient.Retry.Loop
import CqlClient.Session.Live
import Std.Async.DNS
import Std.Async.TCP

/-!
The program: runs one query and prints its rows. This layer carries octets and time between a
session and the world; what to do with them is up to the session.
-/

namespace CqlClient

open Std Async Net

/-- A session over TCP. -/
structure Link where
  live : LiveSession
  /-- When the clock of the session stood at zero. -/
  start : Nat
  dialing : Option (AsyncTask TCP.Socket.Client)
  socket : Option TCP.Socket.Client
  reading : Option (AsyncTask (Option ByteArray))

namespace Link

def new (options : SessionOptions) : IO Link := do
  return ⟨.new options, ← IO.monoNanosNow, none, none, none⟩

/-- Connects to an address. -/
def dialAddress (port : UInt16) (address : IPAddr) : Async TCP.Socket.Client := do
  let socket ← TCP.Socket.Client.mk
  match address with
  | .v4 addr => socket.connect (.v4 ⟨addr, port⟩)
  | .v6 addr => socket.connect (.v6 ⟨addr, port⟩)
  socket.noDelay
  return socket

/-- Connects to the first address of a host that lets itself be connected to. -/
def dial (endpoint : Endpoint) : Async TCP.Socket.Client := do
  let addresses ← DNS.getAddrInfo endpoint.host ""
  let rec try_ : List IPAddr → Async TCP.Socket.Client
    | [] => throw (.userError "no address")
    | [last] => dialAddress endpoint.port last
    | address :: others => tryCatch (dialAddress endpoint.port address) fun _ => try_ others
  try_ addresses.toList

/-- The result of a task that has ended. -/
def finished? {α : Type} (task : Option (AsyncTask α)) : IO (Option (Except IO.Error α)) :=
  match task with
  | none => return none
  | some task => do
    if ← IO.hasFinished task then return some (← IO.wait task) else return none

/-- Asks for the transport when the session wants it, and tells the session what comes of it. -/
def connect (link : Link) : IO Link := do
  match link.socket, link.dialing with
  | some _, _ => return link
  | none, none =>
    if link.live.session.connects = 0 then return link
    else return { link with dialing := some (← (dial link.live.session.options.endpoint).toIO) }
  | none, some _ =>
    match ← finished? link.dialing with
    | none => return link
    | some (.ok socket) =>
      return { link with socket := some socket, live := link.live.act (.transport .ready) }
    | some (.error err) =>
      return { link with live := link.live.act (.transport (.refused (toString err))) }

/-- Writes what the session has for the node. -/
def write (link : Link) : IO Link := do
  match link.socket, link.live.takeSent with
  | none, _ => return link
  | some _, ([], _) => return link
  | some socket, (frames, live) =>
    let octets := ByteArray.mk (frames.flatMap Frame.encode).toArray
    try
      (socket.send octets).block
      return { link with live }
    catch err => return { link with live := live.act (.breakWriter (toString err)) }

/-- Reads what the node has for the session. -/
def read (link : Link) : IO Link := do
  match link.socket with
  | none => return link
  | some socket =>
    let again := do return some (← (socket.recv? 65536).toIO)
    match link.reading, ← finished? link.reading with
    | none, _ => return { link with reading := ← again }
    | some _, none => return link
    | some _, some (.ok (some octets)) =>
      return { link with reading := ← again, live := link.live.receive octets.toList }
    | some _, some (.ok none) => return { link with live := link.live.endInput Frame.earlyEnd }
    | some _, some (.error err) => return { link with live := link.live.endInput (toString err) }

/-- Lets the time that has passed pass for the session too. -/
def passTime (link : Link) : IO Link := do
  let elapsed := (← IO.monoNanosNow) - link.start
  return { link with live := (link.live.wait ⟨elapsed - link.live.session.clock⟩).settle }

/-- Waits for the end of the newest call. -/
partial def await (link : Link) : IO (CallResult × Link) := do
  let link ← (← (← (← link.passTime).connect).write).read
  let link := { link with live := link.live.settle }
  match link.live.newestResult? with
  | some result => return (result, link)
  | none =>
    IO.sleep 1
    await link

end Link

/-- Attempts over TCP. -/
def tcpAttempts (settings : Settings) (query : Query) : Attempts (StateT Link IO) where
  execute := do
    let limit := settings.connection.requestTimeoutMillis.map Span.ofMillis
    let link ← (← get).passTime
    let live := link.live.act (.call (.query query.toRequest) limit)
    let (result, link) ← Link.await { link with live }
    set link
    return result.map (·.getD .empty)
  isClosed := do return (← get).live.session.isClosed
  close := modify fun link => { link with live := (link.live.act .close).settle }
  reconnect := do set (← Link.new settings.sessionOptions)
  wait span := IO.sleep (UInt32.ofNat (span.nanos / 1000000))

/-- Reads the file with the settings, if the arguments name one. -/
def readSettings (args : CommandLine.Arguments) : IO (Except CommandLine.LoadError Settings) := do
  match args.config with
  | none => return args.load fun _ => none
  | some path =>
    let content ← try some <$> IO.FS.readFile path catch _ => pure none
    return args.load fun _ => content

/-- Ends the program with a message for the user. -/
def giveUp (message : String) (code : UInt32) : IO UInt32 := do
  IO.eprintln message
  return code

/-- Runs the query of the arguments and prints its rows. -/
def runQuery (args : CommandLine.Arguments) (settings : Settings) : IO UInt32 := do
  match args.params.mapM CommandLine.readParameter with
  | .error err => giveUp err.message 1
  | .ok params =>
    let query : Query := ⟨args.query.getD "", .ofList params,
      args.consistency.getD settings.consistency⟩
    let link ← Link.new settings.sessionOptions
    let attempts := tcpAttempts settings query
    let (result, _) ← (settings.retryPolicy.runOrReport settings.endpoint.text attempts).run link
    match result with
    | .error report => giveUp report 1
    | .ok rows =>
      rows.lines.forM fun line => IO.println line
      return 0

end CqlClient

open CqlClient in
def main (arguments : List String) : IO UInt32 := do
  match CommandLine.Arguments.read arguments with
  | .error .helpWanted =>
    IO.println CommandLine.usage
    return 0
  | .error err => giveUp (err.message ++ "\n" ++ CommandLine.usage) 2
  | .ok args =>
    match ← readSettings args with
    | .error err => giveUp err.message 1
    | .ok settings => runQuery args settings
