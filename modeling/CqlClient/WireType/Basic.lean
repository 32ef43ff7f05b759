/-!
The types of columns: sixteen scalar types and the collections over them.
-/

namespace CqlClient

/-- A column type without elements. -/
inductive Scalar where
  | ascii
  | bigint
  | blob
  | boolean
  | counter
  | decimal
  | double
  | float
  | inet
  | int
  | text
  | timestamp
  | uuid
  | varchar
  | varint
  | timeuuid
  deriving DecidableEq, Repr

namespace Scalar

def all : List Scalar :=
  [ascii, bigint, blob, boolean, counter, decimal, double, float, inet, int, text, timestamp, uuid,
    varchar, varint, timeuuid]

def name : Scalar → String
  | ascii => "ascii"
  | bigint => "bigint"
  | blob => "blob"
  | boolean => "boolean"
  | counter => "counter"
  | decimal => "decimal"
  | double => "double"
  | float => "float"
  | inet => "inet"
  | int => "int"
  | text => "text"
  | timestamp => "timestamp"
  | uuid => "uuid"
  | varchar => "varchar"
  | varint => "varint"
  | timeuuid => "timeuuid"

/-- The scalar type with this name. -/
def ofName? (name : String) : Option Scalar := all.find? (·.name == name)

theorem ofName?_name (s : Scalar) : ofName? s.name = some s := by cases s <;> decide

theorem name_of_ofName? {name : String} {s : Scalar} (h : ofName? name = some s) :
    s.name = name := by
  simpa using List.find?_some h

/-- Numbers and booleans are written bare in query text. -/
def isBare : Scalar → Bool
  | bigint | boolean | counter | double | float | int | varint => true
  | _ => false

end Scalar

/-- The type of a column. -/
inductive WireType where
  | scalar (type : Scalar)
  | list (element : WireType)
  | set (element : WireType)
  | map (key value : WireType)
  deriving DecidableEq, Repr

namespace WireType

def isCollection : WireType → Bool
  | scalar _ => false
  | _ => true

def isBareLiteral : WireType → Bool
  | scalar s => s.isBare
  | _ => false

/-- The name of the outermost type. -/
def shortName : WireType → String
  | scalar s => s.name
  | list _ => "list"
  | set _ => "set"
  | map _ _ => "map"

/-- The type in full. -/
def text : WireType → String
  | scalar s => s.name
  | list e => "list<" ++ e.text ++ ">"
  | set e => "set<" ++ e.text ++ ">"
  | map k v => "map<" ++ k.text ++ ", " ++ v.text ++ ">"

/-- How deeply collections are nested. -/
def depth : WireType → Nat
  | scalar _ => 0
  | list e => e.depth + 1
  | set e => e.depth + 1
  | map k v => max k.depth v.depth + 1

end WireType

end CqlClient
