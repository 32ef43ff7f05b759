/-!
The kinds of frames, with their codes.
-/

namespace CqlClient

inductive Opcode where
  | error
  | startup
  | ready
  | authenticate
  | options
  | supported
  | query
  | result
  | event
  deriving DecidableEq, Repr, Inhabited

namespace Opcode

def all : List Opcode :=
  [error, startup, ready, authenticate, options, supported, query, result, event]

def code : Opcode → UInt8
  | error => 0x00
  | startup => 0x01
  | ready => 0x02
  | authenticate => 0x03
  | options => 0x05
  | supported => 0x06
  | query => 0x07
  | result => 0x08
  | event => 0x0C

def name : Opcode → String
  | error => "Error"
  | startup => "Startup"
  | ready => "Ready"
  | authenticate => "Authenticate"
  | options => "Options"
  | supported => "Supported"
  | query => "Query"
  | result => "Result"
  | event => "Event"

def ofCode? (code : UInt8) : Option Opcode := all.find? (·.code == code)

theorem ofCode?_code (opcode : Opcode) : ofCode? opcode.code = some opcode := by
  cases opcode <;> decide

theorem code_of_ofCode? {code : UInt8} {opcode : Opcode} (h : ofCode? code = some opcode) :
    opcode.code = code := by
  simpa using List.find?_some h

end Opcode

end CqlClient
