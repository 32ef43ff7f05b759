import CqlClient.Consistency
import CqlClient.Endpoint

/-!
The arguments of the command line: options with one value each, and the query. The value of an
option stands behind an equals sign or in the next argument. A value is looked at only when the
next option or the query is met, or at the end, so that an argument nobody knows wins over a bad
value in front of it.

What is followed is the documented behaviour of long options, of two hyphens that end the options,
and of the wish for help, the one option that has a short form too. Names are not completed, no
option is taken from the environment, and there are no subcommands. Of an error its kind is
followed, and which of several errors comes first; the words are not, nor are hints at what may have
been meant.
-/

namespace CqlClient.CommandLine

/-- The options that take a value. -/
inductive Flag where
  | config
  | host
  | port
  | keyspace
  | consistency
  | param
  deriving DecidableEq, Repr

def Flag.all : List Flag := [config, host, port, keyspace, consistency, param]

def Flag.name : Flag → String
  | config => "config"
  | host => "host"
  | port => "port"
  | keyspace => "keyspace"
  | consistency => "consistency"
  | param => "param"

def Flag.ofName? (name : String) : Option Flag := all.find? (·.name == name)

/-- What the arguments ask for. -/
structure Arguments where
  /-- The path of a file with settings. -/
  config : Option String := none
  host : Option String := none
  port : Option UInt16 := none
  keyspace : Option String := none
  consistency : Option Consistency := none
  /-- The parameters, each as it was written. -/
  params : List String := []
  query : Option String := none
  deriving DecidableEq, Repr

/-- Why arguments cannot be used. -/
inductive UsageError where
  | unknownArgument (argument : String)
  | missingQuery
  | badValue (flag : Flag) (value : String)
  | repeatedFlag (flag : Flag)
  | missingValue (flag : Flag)
  /-- The wish for help takes no value. -/
  | surplusValue (value : String)
  /-- Not a mistake: the user asks how the program is used. -/
  | helpWanted
  deriving DecidableEq, Repr

/-- How the program is used. -/
def usage : String :=
  "arguments: [--config FILE] [--host HOST] [--port PORT] [--keyspace KEYSPACE]\n" ++
    "           [--consistency LEVEL] [--param NAME:TYPE=VALUE]... [--] QUERY"

def UsageError.message : UsageError → String
  | unknownArgument argument => "unexpected argument " ++ argument
  | missingQuery => "the query is missing"
  | badValue flag value => "invalid value " ++ value ++ " for --" ++ flag.name
  | repeatedFlag flag => "--" ++ flag.name ++ " is given more than once"
  | missingValue flag => "--" ++ flag.name ++ " needs a value"
  | surplusValue value => "--help takes no value, but has " ++ value
  | helpWanted => usage

namespace Arguments

/-- Whether an option that may be given once has been given. -/
def has (args : Arguments) : Flag → Bool
  | .config => args.config.isSome
  | .host => args.host.isSome
  | .port => args.port.isSome
  | .keyspace => args.keyspace.isSome
  | .consistency => args.consistency.isSome
  | .param => false

/-- A port: an integer with an optional sign that a 16-bit word holds. -/
def readPort? (value : String) : Option UInt16 :=
  match Integer.readInt64 value with
  | .ok n => if 0 ≤ n ∧ n < 65536 then some (UInt16.ofNat n.toInt.toNat) else none
  | .error _ => none

/-- Takes an option with its value. -/
def put (args : Arguments) (flag : Flag) (value : String) : Except UsageError Arguments :=
  if args.has flag then .error (.repeatedFlag flag)
  else
    match flag with
    | .config => .ok { args with config := some value }
    | .host => .ok { args with host := some value }
    | .keyspace => .ok { args with keyspace := some value }
    | .param => .ok { args with params := args.params ++ [value] }
    | .port =>
      match readPort? value with
      | some port => .ok { args with port := some port }
      | none => .error (.badValue flag value)
    | .consistency =>
      match Consistency.ofText value with
      | .ok level => .ok { args with consistency := some level }
      | .error _ => .error (.badValue flag value)

/-- Takes the option that was met last, with the value that has followed it, if any. -/
def settle (args : Arguments) : Option (Flag × Option String) → Except UsageError Arguments
  | none => .ok args
  | some (flag, none) => .error (.missingValue flag)
  | some (flag, some value) => args.put flag value

/-- The name and the value of an argument that starts with two hyphens. -/
def splitLong (cs : List Char) : String × Option String :=
  let name := String.ofList (cs.takeWhile (· != '='))
  match cs.dropWhile (· != '=') with
  | [] => (name, none)
  | _ :: value => (name, some (String.ofList value))

/-- Reads the arguments behind two hyphens, where none is an option. -/
def readQuery (args : Arguments) (last : Option (Flag × Option String)) :
    List String → Except UsageError Arguments
  | [] => args.settle last
  | argument :: rest =>
    if args.query.isSome then .error (.unknownArgument argument)
    else do readQuery { (← args.settle last) with query := some argument } none rest

/-- Reads arguments behind an option that is not taken yet and may still wait for its value. -/
def readFrom (args : Arguments) (last : Option (Flag × Option String)) :
    List String → Except UsageError Arguments
  | [] => args.settle last
  | "--" :: rest => readQuery args last rest
  | argument :: rest =>
    match argument.toList, last with
    | '-' :: '-' :: long, _ =>
      match splitLong long with
      | ("help", none) => do
        let _ ← args.settle last
        .error .helpWanted
      | ("help", some value) => .error (.surplusValue value)
      | (name, value) =>
        match Flag.ofName? name, value with
        | none, _ => .error (.unknownArgument argument)
        | some flag, none => do readFrom (← args.settle last) (some (flag, none)) rest
        | some flag, some value => do readFrom (← (← args.settle last).put flag value) none rest
    | '-' :: 'h' :: _, _ => do
      let _ ← args.settle last
      .error .helpWanted
    | '-' :: _ :: _, _ => .error (.unknownArgument argument)
    | _, some (flag, none) => readFrom args (some (flag, some argument)) rest
    | _, _ =>
      if args.query.isSome then .error (.unknownArgument argument)
      else do readFrom { (← args.settle last) with query := some argument } none rest

/-- Reads the arguments, of which the query must not be missing. -/
def read (arguments : List String) : Except UsageError Arguments := do
  let args ← readFrom {} none arguments
  if args.query.isNone then .error .missingQuery else return args

end Arguments

end CqlClient.CommandLine
