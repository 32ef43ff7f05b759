import CqlClient.Time.Instant

/-!
Reading RFC 3339 date-times. The date must exist, second 60 is a leap second, digits beyond the
nanosecond are passed over, and the offset is at most a minute short of a day.

What is followed is the format of RFC 3339 with the liberties that readers of date-times document:
the letters may be small, a blank may stand between date and time, and a minus sign for the hyphen
of an offset. Any minute may have a second 60. Other formats of the same moments are not read: no
years of more than four digits, no week dates, nothing without the marks between the numbers, and no
white space around the text. What is wrong with a text is not told, and its offset is used but not
kept.
-/

namespace CqlClient.Rfc3339

/-- The value of exactly `count` digits and what follows them. -/
def digits? (count : Nat) (cs : List Char) : Option (Nat × List Char) := do
  let head := cs.take count
  if head.length < count then none
  let values ← head.mapM Integer.digit?
  some (values.foldl (fun n d => n * 10 + d) 0, cs.drop count)

/-- What follows one expected character. -/
def expect? (c : Char) : List Char → Option (List Char)
  | first :: rest => if first = c then some rest else none
  | [] => none

/-- The nanoseconds of an optional fraction. -/
def fraction? : List Char → Option (Nat × List Char)
  | '.' :: rest =>
    let (digits, rest) := rest.span fun c => (Integer.digit? c).isSome
    let kept := digits.take 9
    if digits.isEmpty then none
    else some ((kept ++ List.replicate (9 - kept.length) '0').foldl
      (fun n c => n * 10 + (c.toNat - 48)) 0, rest)
  | cs => some (0, cs)

/-- The seconds by which local time is ahead, from the end of the text. Either minus sign may stand
in front of the hours. -/
def offset? (cs : List Char) : Option Int :=
  let signed (sign : Int) (cs : List Char) : Option Int := do
    let (hours, cs) ← digits? 2 cs
    let cs ← expect? ':' cs
    let (minutes, cs) ← digits? 2 cs
    if cs.isEmpty ∧ hours < 24 ∧ minutes < 60 then some (sign * (hours * 3600 + minutes * 60))
    else none
  match cs with
  | ['Z'] => some 0
  | ['z'] => some 0
  | '+' :: rest => signed 1 rest
  | '-' :: rest => signed (-1) rest
  | '\u2212' :: rest => signed (-1) rest
  | _ => none

/-- Reads a date-time. -/
def read? (text : String) : Option Instant := do
  let (year, cs) ← digits? 4 text.toList
  let cs ← expect? '-' cs
  let (month, cs) ← digits? 2 cs
  let cs ← expect? '-' cs
  let (day, cs) ← digits? 2 cs
  let cs ← match cs with
    | 'T' :: rest => some rest
    | 't' :: rest => some rest
    | ' ' :: rest => some rest
    | _ => none
  let (hour, cs) ← digits? 2 cs
  let cs ← expect? ':' cs
  let (minute, cs) ← digits? 2 cs
  let cs ← expect? ':' cs
  let (second, cs) ← digits? 2 cs
  let (nanos, cs) ← fraction? cs
  let offset ← offset? cs
  let date : Calendar.Date := ⟨year, month, day⟩
  if date.isValid ∧ hour < 24 ∧ minute < 60 ∧ second ≤ 60 then
    let leap := if second = 60 then 1 else 0
    let local_ := Calendar.dayOfDate date * 86400 + hour * 3600 + minute * 60 + (second - leap : Nat)
    Instant.of? (local_ - offset) (nanos + leap * 1000000000)
  else none

end CqlClient.Rfc3339
