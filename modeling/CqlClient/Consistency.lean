import CqlClient.Text.Blank
import CqlClient.Text.LetterCase

/-!
Consistency levels: how many replicas must answer a request.
-/

namespace CqlClient

inductive Consistency where
  | any
  | one
  | two
  | three
  | quorum
  | all
  | localQuorum
  | eachQuorum
  | serial
  | localSerial
  | localOne
  deriving DecidableEq, Repr, Inhabited

namespace Consistency

/-- The level of a query that names none. -/
def standard : Consistency := quorum

def levels : List Consistency :=
  [any, one, two, three, quorum, all, localQuorum, eachQuorum, serial, localSerial, localOne]

/-- The code of a level in a request. -/
def code : Consistency → UInt16
  | any => 0
  | one => 1
  | two => 2
  | three => 3
  | quorum => 4
  | all => 5
  | localQuorum => 6
  | eachQuorum => 7
  | serial => 8
  | localSerial => 9
  | localOne => 10

def name : Consistency → String
  | any => "ANY"
  | one => "ONE"
  | two => "TWO"
  | three => "THREE"
  | quorum => "QUORUM"
  | all => "ALL"
  | localQuorum => "LOCAL_QUORUM"
  | eachQuorum => "EACH_QUORUM"
  | serial => "SERIAL"
  | localSerial => "LOCAL_SERIAL"
  | localOne => "LOCAL_ONE"

def ofCode? (code : UInt16) : Option Consistency := levels.find? (·.code == code)

def ofName? (name : String) : Option Consistency := levels.find? (·.name == name)

theorem ofCode?_code (level : Consistency) : ofCode? level.code = some level := by
  cases level <;> decide

/-- Why a text is not a level; the text is kept as it was given. -/
inductive ReadError where
  | unknown (text : String)
  deriving DecidableEq, Repr

def ReadError.message : ReadError → String
  | .unknown text => "unknown consistency level: " ++ text

/-- Reads a level in any case, blanks around it aside. -/
def ofText (text : String) : Except ReadError Consistency :=
  match ofName? (Text.upper (Text.trim text)) with
  | some level => .ok level
  | none => .error (.unknown text)

end Consistency

end CqlClient
