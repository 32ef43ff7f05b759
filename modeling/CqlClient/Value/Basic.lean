import CqlClient.Bytes.Basic
import CqlClient.Number.Ieee
import CqlClient.Time.Instant
import CqlClient.Uuid

/-!
The values of columns. Collections keep the order in which they were built; sets and maps are
compared without regard to it. A counter is read as a total and written as an increment.
-/

namespace CqlClient

/-- A value headed to or coming from one column. -/
inductive Value where
  | null
  | ascii (text : String)
  | bigint (n : Int64)
  | blob (bytes : Bytes)
  | boolean (b : Bool)
  | counter (total : Int64)
  | counterDelta (increment : Int64)
  | double (bits : UInt64)
  | float (bits : UInt32)
  | int (n : Int32)
  | text (text : String)
  | timestamp (time : Instant)
  | uuid (id : Uuid)
  | timeuuid (id : Uuid)
  | varint (n : Int)
  | list (items : List Value)
  | set (items : List Value)
  | map (entries : List (Value × Value))
  deriving Inhabited

namespace Value

/-- The name of a value's kind. -/
def kind : Value → String
  | null => "null"
  | ascii _ => "ascii"
  | bigint _ => "bigint"
  | blob _ => "blob"
  | boolean _ => "boolean"
  | counter _ => "counter"
  | counterDelta _ => "counter delta"
  | double _ => "double"
  | float _ => "float"
  | int _ => "int"
  | text _ => "text"
  | timestamp _ => "timestamp"
  | uuid _ => "uuid"
  | timeuuid _ => "timeuuid"
  | varint _ => "varint"
  | list _ => "list"
  | set _ => "set"
  | map _ => "map"

def isNull : Value → Bool
  | null => true
  | _ => false

mutual

/-- How deeply collections are nested in a value. -/
def depth : Value → Nat
  | list items => depthOfItems items + 1
  | set items => depthOfItems items + 1
  | map entries => depthOfEntries entries + 1
  | _ => 0

def depthOfItems : List Value → Nat
  | [] => 0
  | v :: rest => max v.depth (depthOfItems rest)

def depthOfEntries : List (Value × Value) → Nat
  | [] => 0
  | (k, v) :: rest => max (max k.depth v.depth) (depthOfEntries rest)

end

/-- Whether two lists of equal length hold each element of the first equally often. -/
def sameElements {α : Type} (same : α → α → Bool) (a b : List α) : Bool :=
  a.length == b.length && a.all fun x => a.countP (same · x) == b.countP (same · x)

/-- Whether two lists agree place by place. -/
def sameList {α : Type} (same : α → α → Bool) : List α → List α → Bool
  | [], [] => true
  | x :: a, y :: b => same x y && sameList same a b
  | _, _ => false

/-- Equality of values without elements. Floating-point numbers are compared as numbers. -/
def sameScalar : Value → Value → Bool
  | null, null => true
  | ascii a, ascii b => a == b
  | text a, text b => a == b
  | bigint a, bigint b => a == b
  | counter a, counter b => a == b
  | counterDelta a, counterDelta b => a == b
  | blob a, blob b => a == b
  | boolean a, boolean b => a == b
  | double a, double b => Ieee.double.same a.toNat b.toNat
  | float a, float b => Ieee.single.same a.toNat b.toNat
  | int a, int b => a == b
  | timestamp a, timestamp b => a == b
  | uuid a, uuid b => a == b
  | timeuuid a, timeuuid b => a == b
  | varint a, varint b => a == b
  | _, _ => false

/-- Equality of values that nest at most `level` collections. -/
def sameWithin : (level : Nat) → Value → Value → Bool
  | level + 1, list a, list b => sameList (sameWithin level) a b
  | level + 1, set a, set b => sameElements (sameWithin level) a b
  | level + 1, map a, map b =>
    sameElements (fun x y => sameWithin level x.1 y.1 && sameWithin level x.2 y.2) a b
  | _, a, b => sameScalar a b

/-- Equality of values: lists in order, sets and maps as often-counted elements. -/
def same (a b : Value) : Bool := sameWithin (max a.depth b.depth) a b

instance : BEq Value := ⟨same⟩

/-- Whether a later item equals an earlier one. -/
def hasRepeat : List Value → Bool
  | [] => false
  | v :: rest => rest.any (· == v) || hasRepeat rest

end Value

end CqlClient
