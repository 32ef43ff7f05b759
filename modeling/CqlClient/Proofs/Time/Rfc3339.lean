import CqlClient.Proofs.Number.Reading
import CqlClient.Proofs.Time.Calendar
import CqlClient.Time.Rfc3339
import Mathlib.Data.List.TakeDrop

/-!
Instants that are read back from their texts. A text has the milliseconds of its instant and nothing
below them. A leap second at the end of a minute is shown as second 60, from which it is read as a
leap second; any other is shown, and so read, as the second that follows.
-/

namespace CqlClient

namespace Rfc3339

open Integer

/-! ## Parts of a text -/

theorem bind_eq_of_some {α β : Type} {o : Option α} {a : α} (h : o = some a) (f : α → Option β) :
    (o >>= f) = f a := by
  rw [h]
  rfl

theorem digits?_append {cs : List Char} (hcs : AllDigits cs) (rest : List Char) :
    digits? cs.length (cs ++ rest) = some (valueOnto 0 cs, rest) := by
  rw [digits?, List.take_left, List.drop_left, if_neg (Nat.lt_irrefl _), mapM_digit? hcs]
  exact congrArg (fun n => some (n, rest)) (foldl_values 0 cs)

theorem digits?_padded {count n : Nat} (hpos : 0 < count) (h : n < 10 ^ count) (rest : List Char) :
    digits? count (padded count n ++ rest) = some (n, rest) := by
  have hread := digits?_append (allDigits_padded count n) rest
  rwa [length_padded hpos h, valueOnto_padded] at hread

theorem expect?_cons (c : Char) (rest : List Char) : expect? c (c :: rest) = some rest :=
  if_pos rfl

/-- Three digits of a fraction are milliseconds. -/
theorem fraction?_millis {n : Nat} (h : n < 1000) :
    fraction? ('.' :: (padded 3 n ++ ['Z'])) = some (n * 1000000, ['Z']) := by
  have hlength : (padded 3 n).length = 3 := length_padded (by decide) h
  have hdigits : ∀ c ∈ padded 3 n, (digit? c).isSome = true := fun c hc =>
    (isSome_digit? c).trans (allDigits_padded 3 n c hc)
  have hspan : (padded 3 n ++ ['Z']).span (fun c => (digit? c).isSome) = (padded 3 n, ['Z']) := by
    rw [List.span_eq_takeWhile_dropWhile, List.takeWhile_append_of_pos hdigits,
      List.dropWhile_append_of_pos hdigits]
    exact congrArg (·, ['Z']) (List.append_nil _)
  have htake : (padded 3 n).take 9 = padded 3 n := List.take_of_length_le (by omega)
  have hne : (padded 3 n).isEmpty = false := List.isEmpty_eq_false_iff.mpr (padded_ne_nil 3 n)
  have hvalue : valueOnto 0 (padded 3 n ++ List.replicate 6 '0') = n * 1000000 := by
    rw [valueOnto, Nat.ofDigitChars_append, Nat.ofDigitChars_replicate_zero, Nat.mul_comm]
    exact congrArg (· * 1000000) (valueOnto_padded 3 n)
  rw [fraction?, hspan]
  simp only [htake, hlength, hne, foldl_chars, hvalue]
  rfl

/-! ## Whole texts -/

/-- The characters of a moment in universal time with these parts. -/
def layout (date : Calendar.Date) (hour minute second millis : Nat) : List Char :=
  padded 4 date.year.toNat ++ '-' :: (padded 2 date.month ++ '-' :: (padded 2 date.day ++ 'T' ::
    (padded 2 hour ++ ':' :: (padded 2 minute ++ ':' :: (padded 2 second ++ '.' ::
      (padded 3 millis ++ ['Z']))))))

section

variable {text : String} {date : Calendar.Date} {hour minute second millis : Nat}

theorem read?_layout (htext : text.toList = layout date hour minute second millis)
    (hyear : 0 ≤ date.year ∧ date.year ≤ 9999) (hdate : date.isValid = true) (hhour : hour < 24)
    (hminute : minute < 60) (hsecond : second ≤ 60) (hmillis : millis < 1000) :
    read? text = Instant.of?
      (Calendar.dayOfDate date * 86400 + hour * 3600 + minute * 60 +
        (second - if second = 60 then 1 else 0 : Nat))
      (millis * 1000000 + (if second = 60 then 1 else 0) * 1000000000) := by
  obtain ⟨year, month, day⟩ := date
  obtain ⟨year, rfl⟩ := Int.eq_ofNat_of_zero_le hyear.1
  have hhigh : (year : Int) ≤ 9999 := hyear.2
  obtain ⟨-, hmonths, -, hdays⟩ := Calendar.isValid_mk_iff.mp hdate
  have hlongest := Calendar.monthDays_le year month
  have hfour : year < 10 ^ 4 := by omega
  have hmonth : month < 10 ^ 2 := by omega
  have hday : day < 10 ^ 2 := by omega
  rw [read?, htext, layout]
  apply (bind_eq_of_some (digits?_padded (by decide) hfour _) _).trans
  apply (bind_eq_of_some (expect?_cons '-' _) _).trans
  apply (bind_eq_of_some (digits?_padded (by decide) hmonth _) _).trans
  apply (bind_eq_of_some (expect?_cons '-' _) _).trans
  apply (bind_eq_of_some (digits?_padded (by decide) hday _) _).trans
  apply (bind_eq_of_some (digits?_padded (by decide) (by omega) _) _).trans
  apply (bind_eq_of_some (expect?_cons ':' _) _).trans
  apply (bind_eq_of_some (digits?_padded (by decide) (by omega) _) _).trans
  apply (bind_eq_of_some (expect?_cons ':' _) _).trans
  apply (bind_eq_of_some (digits?_padded (by decide) (by omega) _) _).trans
  apply (bind_eq_of_some (fraction?_millis hmillis) _).trans
  apply (if_pos ⟨hdate, hhour, hminute, hsecond⟩).trans
  rw [Int.sub_zero]

end

end Rfc3339

namespace Instant

/-- The date of an instant in universal time. -/
def date (t : Instant) : Calendar.Date := Calendar.dateOfDay (t.seconds / 86400)

/-- Whether the year of an instant is shown with four digits and no sign. -/
def HasPlainYear (t : Instant) : Prop := 0 ≤ t.date.year ∧ t.date.year ≤ 9999

/-- The instant without what lies below its millisecond. A leap second stays one. -/
def cut (t : Instant) : Instant where
  seconds := t.seconds
  nanos := t.nanos / 1000000 * 1000000
  seconds_mem := t.seconds_mem
  nanos_lt := by
    have hnanos := t.nanos_lt
    omega

/-- How far an instant is shown in a later second than its own. The last second of a minute has
second 60 for its other half, and no other second has such a number. -/
def carry (t : Instant) : Nat := if t.seconds % 60 = 59 then 0 else t.nanos / 1000000000

/-- The instant that a text to the millisecond shows. -/
def shown (t : Instant) : Instant where
  seconds := t.seconds + t.carry
  nanos := (t.nanos - t.carry * 1000000000) / 1000000 * 1000000
  seconds_mem := by
    have hseconds := t.seconds_mem
    have hnanos := t.nanos_lt
    -- The calendar ends with the last second of a minute.
    simp only [carry, firstSecond, lastSecond] at hseconds ⊢
    split <;> omega
  nanos_lt := by
    have hnanos := t.nanos_lt
    omega

/-- An instant that has its own number for the second is shown as it is, down to the millisecond. -/
theorem shown_eq_cut {t : Instant} (h : t.nanos < 1000000000 ∨ t.seconds % 60 = 59) :
    t.shown = t.cut := by
  have hcarry : t.carry = 0 := by
    unfold carry
    split <;> omega
  simp [shown, cut, hcarry]

variable {t : Instant}

theorem toList_text (h : t.HasPlainYear) :
    t.text.toList = Rfc3339.layout t.date ((t.seconds % 86400).toNat / 3600)
      ((t.seconds % 86400).toNat / 60 % 60)
      ((t.seconds % 86400).toNat % 60 + t.nanos / 1000000000) (t.nanos / 1000000 % 1000) := by
  have hyear : yearText t.date.year = Integer.padded 4 t.date.year.toNat := if_pos h
  rw [Rfc3339.layout, ← hyear, text, String.toList_ofList]
  simp only [List.append_assoc, List.cons_append]
  rfl

/-- The text of an instant of a year with four digits is read as the instant that it shows. -/
theorem read?_text (h : t.HasPlainYear) : Rfc3339.read? t.text = some t.shown := by
  have hnanos := t.nanos_lt
  obtain ⟨hvalid, hday⟩ := Calendar.dateOfDay_spec (t.seconds / 86400)
  have hcarry : t.carry = if t.seconds % 60 = 59 then 0 else t.nanos / 1000000000 := rfl
  have hleap : (if (t.seconds % 86400).toNat % 60 + t.nanos / 1000000000 = 60 then 1 else 0) =
      t.nanos / 1000000000 - t.carry := by
    rw [hcarry]
    split <;> split <;> omega
  have hread := Rfc3339.read?_layout (toList_text h) h hvalid (by omega) (by omega) (by omega)
    (by omega)
  rw [hleap, show Calendar.dayOfDate t.date = t.seconds / 86400 from hday] at hread
  have hseconds : t.seconds / 86400 * 86400 + ((t.seconds % 86400).toNat / 3600 : Nat) * 3600 +
      ((t.seconds % 86400).toNat / 60 % 60 : Nat) * 60 +
      ((t.seconds % 86400).toNat % 60 + t.nanos / 1000000000 -
        (t.nanos / 1000000000 - t.carry) : Nat) = t.shown.seconds := by
    show _ = t.seconds + (t.carry : Int)
    split at hcarry <;> omega
  have hmillis : t.nanos / 1000000 % 1000 * 1000000 +
      (t.nanos / 1000000000 - t.carry) * 1000000000 = t.shown.nanos := by
    show _ = (t.nanos - t.carry * 1000000000) / 1000000 * 1000000
    split at hcarry <;> omega
  have hrange : t.shown.nanos < 1000000000 ∨
      t.shown.nanos < 2000000000 ∧ t.shown.seconds % 60 = 59 := by
    simp only [shown]
    split at hcarry <;> omega
  rw [hread, hseconds, hmillis]
  exact dif_pos ⟨t.shown.seconds_mem, hrange⟩

/-- The hyphen after the year keeps the text of an instant from being read as an integer. -/
theorem readInt64_text (h : t.HasPlainYear) : Integer.readInt64 t.text = .error .badDigit := by
  have hyear : t.date.year.toNat < 10 ^ 4 := by
    have hhigh := h.2
    omega
  have hlimit : Integer.valueOnto 0 (Integer.padded 4 t.date.year.toNat) ≤
      Int64.maxValue.toInt.toNat := by
    rw [Integer.valueOnto_padded]
    exact Nat.le_of_lt (Nat.lt_trans hyear (by decide))
  have hdigits := Integer.allDigits_padded 4 t.date.year.toNat
  have hne := Integer.padded_ne_nil 4 t.date.year.toNat
  rw [Integer.readInt64, Integer.readWithin_unsigned (toList_text h) hdigits hne,
    Integer.readOnto_append hdigits hlimit]
  rfl

end Instant

end CqlClient
