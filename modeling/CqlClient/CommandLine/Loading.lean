import CqlClient.CommandLine.Arguments
import CqlClient.Settings.Basic

/-!
The settings that the command line asks for: those of a file or the standard ones, with what the
options say in their place.
-/

namespace CqlClient.CommandLine

/-- The file that is used when none is named. -/
def standardFile : String := "[endpoint]\nhost = \"127.0.0.1\"\n"

/-- Why there are no settings. -/
inductive LoadError where
  | unreadable (path : String)
  | badSettings (err : Settings.ReadError)
  deriving DecidableEq, Repr

def LoadError.message : LoadError → String
  | unreadable path => "cannot read " ++ path
  | badSettings .malformed => "the settings are no TOML of the right form"
  | badSettings (.invalid fault) => fault.message

/-- Settings with what the options say in their place. The result is not checked again. -/
def Arguments.override (args : Arguments) (settings : Settings) : Settings :=
  { settings with
    endpoint := ⟨args.host.getD settings.endpoint.host, args.port.getD settings.endpoint.port⟩
    keyspace := args.keyspace.getD settings.keyspace }

/-- The settings for these arguments, when `content` is that of the file they name. -/
def Arguments.load (args : Arguments) (content : String → Option String) :
    Except LoadError Settings := do
  let text ← match args.config with
    | none => pure standardFile
    | some path => (content path).elim (.error (.unreadable path)) .ok
  match Settings.ofToml text with
  | .ok settings => return args.override settings
  | .error err => .error (.badSettings err)

end CqlClient.CommandLine
