import Std.Data.TreeMap.Basic

/-!
The requests that wait for a response, by stream. Streams are used in turn; one that still has a
waiter is skipped, so a response can only reach the waiter of the request it answers.
-/

namespace CqlClient

/-- How many streams there are for requests: those that are not negative. -/
def streamCount : Nat := 32768

/-- The waiters of one connection. -/
structure InFlight (α : Type) where
  /-- How many streams have been tried so far. -/
  tried : UInt64
  pending : Std.TreeMap Int16 α

namespace InFlight

variable {α : Type}

def empty : InFlight α := ⟨0, ∅⟩

instance : Inhabited (InFlight α) := ⟨empty⟩

/-- The stream whose turn it is after so many. -/
def turn (tried : UInt64) : Int16 := Int16.ofNat (tried.toNat % streamCount)

/-- The first free stream among the next `tries`, and how many have been tried with it. -/
def findFree (pending : Std.TreeMap Int16 α) : (tries : Nat) → UInt64 → Option (Int16 × UInt64)
  | 0, _ => none
  | tries + 1, tried =>
    if pending.contains (turn tried) then findFree pending tries (tried + 1)
    else some (turn tried, tried + 1)

def size (table : InFlight α) : Nat := table.pending.size

def get? (table : InFlight α) (stream : Int16) : Option α := table.pending[stream]?

/-- Puts a waiter on the next free stream; nothing if every stream has a waiter. -/
def register (table : InFlight α) (waiter : α) : Option (Int16 × InFlight α) :=
  if streamCount ≤ table.size then none
  else
    match findFree table.pending streamCount table.tried with
    | none => none
    | some (stream, tried) => some (stream, ⟨tried, table.pending.insert stream waiter⟩)

/-- Takes the waiter of a stream out of the table, if the stream has one. -/
def take? (table : InFlight α) (stream : Int16) : Option (α × InFlight α) :=
  (table.get? stream).map fun waiter =>
    (waiter, { table with pending := table.pending.erase stream })

/-- Takes all waiters out of the table, each with its stream. -/
def drain (table : InFlight α) : List (Int16 × α) × InFlight α :=
  (table.pending.toList, { table with pending := ∅ })

end InFlight

end CqlClient
