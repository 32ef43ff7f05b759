import CqlClient.Number.Integer
import CqlClient.Time.Calendar

/-!
Instants to the nanosecond, leap seconds included. A leap second is the second half of a double
second: it shares the count of the second before it and has nanoseconds from one billion on.

What is followed is the documented behaviour of date-times in universal time over the proleptic
Gregorian calendar of the years -262143 to 262142. Nothing is known of when there was a leap second:
whoever sets the nanoseconds of an instant can make any second a double one, but from a count of
seconds, or from a text, a leap second comes only at the end of a minute. Of all that can be done
with date-times only the way to milliseconds and back is here, and the text to the millisecond;
other formats, time zones and differences between instants are not.
-/

namespace CqlClient

/-- The first second of the year -262143. -/
def firstSecond : Int := -8334601228800

/-- The last second of the year 262142. -/
def lastSecond : Int := 8210266876799

/-- A point in time: seconds since 1970-01-01T00:00:00Z and nanoseconds after them. -/
structure Instant where
  seconds : Int
  nanos : Nat
  seconds_mem : firstSecond ≤ seconds ∧ seconds ≤ lastSecond
  nanos_lt : nanos < 2000000000
  deriving DecidableEq, Repr

namespace Instant

/-- The instant with these parts, when they are in range and a leap second ends its minute. -/
def of? (seconds : Int) (nanos : Nat) : Option Instant :=
  if h : (firstSecond ≤ seconds ∧ seconds ≤ lastSecond) ∧
      (nanos < 1000000000 ∨ (nanos < 2000000000 ∧ seconds % 60 = 59)) then
    some ⟨seconds, nanos, h.1, by omega⟩
  else none

/-- The whole milliseconds since 1970, downwards; a leap second runs into the next one. -/
def millis (t : Instant) : Int := t.seconds * 1000 + (t.nanos / 1000000 : Nat)

/-- The instant a number of milliseconds after 1970, when it is in range. -/
def ofMillis? (millis : Int) : Option Instant :=
  of? (millis / 1000) ((millis % 1000).toNat * 1000000)

/-- The instant with the same milliseconds and nothing below them, if there is one. -/
def truncated (t : Instant) : Instant := (ofMillis? t.millis).getD t

/-- A year with at least four digits; outside 0 to 9999 it carries a sign. -/
def yearText (year : Int) : List Char :=
  if 0 ≤ year ∧ year ≤ 9999 then Integer.padded 4 year.toNat
  else (if year < 0 then '-' else '+') :: Integer.padded 4 year.natAbs

/-- Date and time to the millisecond, cut and not rounded. A leap second shows as the number after
that of its second: as second 60 at the end of a minute. -/
def text (t : Instant) : String :=
  let date := Calendar.dateOfDay (t.seconds / 86400)
  let second := (t.seconds % 86400).toNat
  String.ofList <|
    yearText date.year ++ '-' :: Integer.padded 2 date.month ++ '-' :: Integer.padded 2 date.day ++
    'T' :: Integer.padded 2 (second / 3600) ++ ':' :: Integer.padded 2 (second / 60 % 60) ++
    ':' :: Integer.padded 2 (second % 60 + t.nanos / 1000000000) ++
    '.' :: Integer.padded 3 (t.nanos / 1000000 % 1000) ++ ['Z']

end Instant

end CqlClient
