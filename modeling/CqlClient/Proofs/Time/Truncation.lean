import CqlClient.Cell.Encode
import CqlClient.Proofs.Value.Stored
import CqlClient.Value.Text
import Mathlib.Data.Prod.Lex

/-!
Instants cut to the millisecond. Cutting takes away what lies below the millisecond, before 1970 as
after it, but for leap seconds: these have no milliseconds of their own and are moved on into the
second that follows them, or are left alone if the calendar ends with them. The same digits are
shown then, unless a second 60 was.
-/

namespace CqlClient

namespace Instant

/-- Instants come in the order of their seconds, and within a second in that of their nanoseconds. -/
instance : LinearOrder Instant :=
  LinearOrder.lift' (fun t => toLex (t.seconds, t.nanos)) fun t u h => by
    obtain ⟨hseconds, hnanos⟩ := Prod.mk.inj (toLex.injective h)
    cases t
    cases u
    congr

theorem le_iff {t u : Instant} :
    t ≤ u ↔ t.seconds < u.seconds ∨ t.seconds = u.seconds ∧ t.nanos ≤ u.nanos :=
  Prod.Lex.toLex_le_toLex

/-- The nanoseconds since 1970; a leap second runs into the next one. -/
def sinceEpoch (t : Instant) : Int := t.seconds * 1000000000 + t.nanos

/-- Whether an instant lies in a leap second with a second after it. -/
def RunsOver (t : Instant) : Prop := 1000000000 ≤ t.nanos ∧ t.seconds < lastSecond

/-- Whether an instant is another one cut to the millisecond: no later, less than a millisecond
earlier, without anything below the millisecond, and shown and stored as the other one is. -/
structure IsCutOf (cut t : Instant) : Prop where
  whole : 1000000 ∣ cut.nanos
  no_later : cut ≤ t
  within : t.sinceEpoch < cut.sinceEpoch + 1000000
  display_eq : (Value.timestamp cut).display = (Value.timestamp t).display
  again : cut.truncated = cut
  encode_eq : (WireType.scalar .timestamp).encode (.timestamp cut) =
    (WireType.scalar .timestamp).encode (.timestamp t)

/-! ## The parts of what is left -/

variable {t : Instant}

theorem parts_of_ofMillis? {n : Int} (h : ofMillis? n = some t) :
    t.seconds = n / 1000 ∧ t.nanos = (n % 1000).toNat * 1000000 := by
  rw [ofMillis?, of?] at h
  split at h
  · cases h
    exact ⟨rfl, rfl⟩
  · cases h

theorem truncated_of_not_inCalendar (h : ¬ t.InCalendar) : t.truncated = t := by
  obtain ⟨hseconds, hleap⟩ := not_or.mp h
  have hlate : ¬ t.millis / 1000 ≤ lastSecond := by
    simp only [millis]
    omega
  rw [truncated, ofMillis?, of?, dif_neg fun hrange => hlate hrange.1.2, Option.getD_none]

/-- Outside leap seconds the second stays. -/
theorem truncated_parts (h : t.nanos < 1000000000) :
    t.truncated.seconds = t.seconds ∧ t.truncated.nanos = t.nanos / 1000000 * 1000000 := by
  obtain ⟨hseconds, hnanos⟩ := parts_of_ofMillis? (ofMillis?_millis (t := t) (.inr h))
  simp only [millis] at hseconds hnanos
  omega

/-- A leap second is moved on into the next second. -/
theorem truncated_parts_of_runsOver (h : t.RunsOver) :
    t.truncated.seconds = t.seconds + 1 ∧
      t.truncated.nanos = (t.nanos - 1000000000) / 1000000 * 1000000 := by
  obtain ⟨hleap, hseconds⟩ := h
  have hnanos := t.nanos_lt
  obtain ⟨hsecond, hpart⟩ := parts_of_ofMillis? (ofMillis?_millis (t := t) (.inl hseconds))
  simp only [millis] at hsecond hpart
  omega

/-- An instant lies outside leap seconds, in one that runs over, or in one at the end of the
calendar. -/
theorem cases_leap (t : Instant) : t.nanos < 1000000000 ∨ t.RunsOver ∨ ¬ t.InCalendar := by
  simp only [RunsOver, InCalendar]
  omega

theorem millis_truncated (t : Instant) : t.truncated.millis = t.millis := by
  rcases cases_leap t with h | h | h
  · obtain ⟨hseconds, hnanos⟩ := truncated_parts h
    simp only [millis, hseconds, hnanos]
    omega
  · obtain ⟨hseconds, hnanos⟩ := truncated_parts_of_runsOver h
    have hleap := h.1
    simp only [millis, hseconds, hnanos]
    omega
  · rw [truncated_of_not_inCalendar h]

theorem truncated_truncated (t : Instant) : t.truncated.truncated = t.truncated := by
  by_cases h : t.InCalendar
  · rw [truncated, millis_truncated, ofMillis?_millis h, Option.getD_some]
  · rw [truncated_of_not_inCalendar h, truncated_of_not_inCalendar h]

theorem sinceEpoch_truncated (t : Instant) :
    t.truncated.sinceEpoch ≤ t.sinceEpoch ∧
      t.sinceEpoch < t.truncated.sinceEpoch + 1000000 := by
  rcases cases_leap t with h | h | h
  · obtain ⟨hseconds, hnanos⟩ := truncated_parts h
    simp only [sinceEpoch, hseconds, hnanos]
    omega
  · obtain ⟨hseconds, hnanos⟩ := truncated_parts_of_runsOver h
    have hleap := h.1
    simp only [sinceEpoch, hseconds, hnanos]
    omega
  · rw [truncated_of_not_inCalendar h]
    omega

theorem dvd_nanos_truncated_iff :
    1000000 ∣ t.truncated.nanos ↔ t.InCalendar ∨ 1000000 ∣ t.nanos := by
  by_cases h : t.InCalendar
  · rw [(parts_of_ofMillis? (ofMillis?_millis h)).2]
    exact iff_of_true (Nat.dvd_mul_left ..) (.inl h)
  · rw [truncated_of_not_inCalendar h, or_iff_right h]

theorem truncated_le_iff : t.truncated ≤ t ↔ ¬ t.RunsOver := by
  rcases cases_leap t with h | h | h
  · obtain ⟨hseconds, hnanos⟩ := truncated_parts h
    rw [le_iff, hseconds, hnanos]
    refine iff_of_true (.inr ⟨rfl, Nat.div_mul_le_self ..⟩) fun hruns => ?_
    exact Nat.not_le.mpr h hruns.1
  · obtain ⟨hseconds, -⟩ := truncated_parts_of_runsOver h
    rw [le_iff, hseconds]
    exact iff_of_false (by omega) (not_not_intro h)
  · rw [truncated_of_not_inCalendar h]
    exact iff_of_true le_rfl fun hruns => h (.inl hruns.2)

/-! ## What is shown -/

/-- The number shown for the second. -/
def shownSecond (t : Instant) : Nat := (t.seconds % 86400).toNat % 60 + t.nanos / 1000000000

/-- The text ends with the second and three digits of its fraction. -/
theorem exists_text_eq (t : Instant) : ∃ front, t.text.toList =
    front ++ (Integer.padded 2 t.shownSecond ++
      ('.' :: Integer.padded 3 (t.nanos / 1000000 % 1000) ++ ['Z'])) := by
  have hgroup : ∀ front second fraction last : List Char,
      front ++ ':' :: second ++ fraction ++ last =
        front ++ [':'] ++ (second ++ (fraction ++ last)) := by simp
  simp only [text, String.toList_ofList, shownSecond]
  exact ⟨_, hgroup ..⟩

/-- A leap second that does not end its minute is shown as the second that it is moved on into. -/
theorem text_truncated_of_runsOver (h : t.RunsOver) (hminute : t.seconds % 60 ≠ 59) :
    t.truncated.text = t.text := by
  obtain ⟨hseconds, hnanos⟩ := truncated_parts_of_runsOver h
  have hleap := h.1
  have hlt := t.nanos_lt
  have hday : (t.seconds + 1) / 86400 = t.seconds / 86400 := by omega
  have hhour : ((t.seconds + 1) % 86400).toNat / 3600 = (t.seconds % 86400).toNat / 3600 := by
    omega
  have hminutes : ((t.seconds + 1) % 86400).toNat / 60 % 60 =
      (t.seconds % 86400).toNat / 60 % 60 := by
    omega
  have hsecond : ((t.seconds + 1) % 86400).toNat % 60 +
      (t.nanos - 1000000000) / 1000000 * 1000000 / 1000000000 =
        (t.seconds % 86400).toNat % 60 + t.nanos / 1000000000 := by
    omega
  have hfraction : (t.nanos - 1000000000) / 1000000 * 1000000 / 1000000 % 1000 =
      t.nanos / 1000000 % 1000 := by
    omega
  simp only [text, hseconds, hnanos, hday, hhour, hminutes, hsecond, hfraction]

/-- At the end of a minute the second shown is 60 before and 0 after, with the same fraction behind
it. -/
theorem text_truncated_ne (h : t.RunsOver) (hminute : t.seconds % 60 = 59) :
    t.truncated.text ≠ t.text := by
  obtain ⟨hseconds, hnanos⟩ := truncated_parts_of_runsOver h
  have hleap := h.1
  have hlt := t.nanos_lt
  have hbefore : t.shownSecond = 60 := by
    simp only [shownSecond]
    omega
  have hafter : t.truncated.shownSecond = 0 := by
    simp only [shownSecond, hseconds, hnanos]
    omega
  have hfraction : t.truncated.nanos / 1000000 % 1000 = t.nanos / 1000000 % 1000 := by omega
  intro hsame
  obtain ⟨front, hfront⟩ := exists_text_eq t
  obtain ⟨front', hfront'⟩ := exists_text_eq t.truncated
  rw [hbefore] at hfront
  rw [hsame, hafter, hfraction] at hfront'
  have hend := (List.append_inj' (hfront.symm.trans hfront') rfl).2
  exact absurd (List.append_cancel_right hend) (by decide)

theorem text_truncated_iff :
    t.truncated.text = t.text ↔ ¬ (t.RunsOver ∧ t.seconds % 60 = 59) := by
  rcases cases_leap t with h | h | h
  · obtain ⟨hseconds, hnanos⟩ := truncated_parts h
    have hmillis : t.nanos / 1000000 * 1000000 / 1000000 = t.nanos / 1000000 := by omega
    have hsecond : t.nanos / 1000000 * 1000000 / 1000000000 = t.nanos / 1000000000 := by omega
    refine iff_of_true ?_ fun hruns => Nat.not_le.mpr h hruns.1.1
    simp only [text, hseconds, hnanos, hmillis, hsecond]
  · rw [and_iff_right h]
    exact ⟨fun hsame hminute => text_truncated_ne h hminute hsame, text_truncated_of_runsOver h⟩
  · rw [truncated_of_not_inCalendar h]
    exact iff_of_true rfl fun hruns => h (.inl hruns.1.2)

theorem encode_truncated (t : Instant) :
    (WireType.scalar .timestamp).encode (.timestamp t.truncated) =
      (WireType.scalar .timestamp).encode (.timestamp t) := by
  have hscalar : Scalar.encode .timestamp (.timestamp t.truncated) =
      Scalar.encode .timestamp (.timestamp t) := by
    rw [Scalar.encode, Scalar.encode, millis_truncated]
  simp only [WireType.encode, WireType.encodeBody, hscalar]
  rfl

/-- What is left of an instant can be cut again without a change and has the same octets. Counted
with leap seconds running into the next second, it lies less than a millisecond before the instant.
But it is no later exactly if the instant lies in no leap second that a second follows, and shown
with the same digits exactly if it lies in no such leap second at the end of a minute; and it has
nothing below the millisecond unless the calendar ends before it. So an instant of the calendar is
cut as its digits are exactly if it lies in no leap second. -/
theorem isCutOf_truncated_iff (t : Instant) :
    (t.truncated.truncated = t.truncated ∧
      (WireType.scalar .timestamp).encode (.timestamp t.truncated) =
        (WireType.scalar .timestamp).encode (.timestamp t) ∧
      t.truncated.sinceEpoch ≤ t.sinceEpoch ∧
      t.sinceEpoch < t.truncated.sinceEpoch + 1000000) ∧
    (1000000 ∣ t.truncated.nanos ↔ t.InCalendar ∨ 1000000 ∣ t.nanos) ∧
    (t.truncated ≤ t ↔ ¬ t.RunsOver) ∧
    ((Value.timestamp t.truncated).display = (Value.timestamp t).display ↔
      ¬ (t.RunsOver ∧ t.seconds % 60 = 59)) ∧
    (t.truncated.IsCutOf t ↔ t.nanos < 1000000000 ∨ ¬ t.InCalendar ∧ 1000000 ∣ t.nanos) := by
  have hdisplay : (Value.timestamp t.truncated).display = (Value.timestamp t).display ↔
      ¬ (t.RunsOver ∧ t.seconds % 60 = 59) := text_truncated_iff
  obtain ⟨hearlier, hwithin⟩ := sinceEpoch_truncated t
  refine ⟨⟨truncated_truncated t, encode_truncated t, hearlier, hwithin⟩,
    dvd_nanos_truncated_iff, truncated_le_iff, hdisplay, fun h => ?_, fun h => ?_⟩
  · have hwhole := dvd_nanos_truncated_iff.mp h.whole
    have hruns := truncated_le_iff.mp h.no_later
    rcases cases_leap t with hplain | hleap | hlate
    · exact .inl hplain
    · exact absurd hleap hruns
    · exact .inr ⟨hlate, hwhole.resolve_left hlate⟩
  · have hruns : ¬ t.RunsOver := by
      rintro ⟨hleap, hseconds⟩
      rcases h with hplain | ⟨hlate, -⟩
      · exact Nat.not_le.mpr hplain hleap
      · exact hlate (.inl hseconds)
    exact {
      whole := dvd_nanos_truncated_iff.mpr (h.imp .inr And.right)
      no_later := truncated_le_iff.mpr hruns
      within := hwithin
      display_eq := hdisplay.mpr fun hshown => hruns hshown.1
      again := truncated_truncated t
      encode_eq := encode_truncated t }

/-- Half a second into the leap second at the end of 2016, the instant left is half a second into
2017. -/
theorem not_isCutOf_truncated_of_leap :
    let t : Instant := ⟨1483228799, 1500000000, by decide, by decide⟩
    t.truncated = ⟨1483228800, 500000000, by decide, by decide⟩ ∧ ¬ t.truncated ≤ t ∧
      (Value.timestamp t).display = "2016-12-31T23:59:60.500Z" ∧
      (Value.timestamp t.truncated).display = "2017-01-01T00:00:00.500Z" ∧
      ¬ t.truncated.IsCutOf t := by
  intro t
  have hcut : t.truncated = ⟨1483228800, 500000000, by decide, by decide⟩ := by decide
  have hlater : ¬ t.truncated ≤ t := by
    rw [hcut, le_iff]
    decide
  refine ⟨hcut, hlater, by decide +kernel, ?_, fun h => hlater h.no_later⟩
  rw [hcut]
  decide +kernel

end Instant

end CqlClient
