import CqlClient.Value.Basic

/-!
What a column gives back for a value that was stored in it. Instants lose what lies below the
millisecond and increments come back as totals; all else stays as it is, at every depth and in the
stored order.
-/

namespace CqlClient

/-- Whether an instant is no later than the last nanosecond of the calendar. The only ones that are
later lie in a leap second after it. -/
def Instant.InCalendar (t : Instant) : Prop := t.seconds < lastSecond ∨ t.nanos < 1000000000

instance (t : Instant) : Decidable t.InCalendar := inferInstanceAs (Decidable (_ ∨ _))

/-- An instant of the calendar still has its milliseconds in the calendar, so it can be cut. -/
theorem Instant.ofMillis?_millis {t : Instant} (h : t.InCalendar) :
    ofMillis? t.millis = some t.truncated := by
  obtain ⟨hfirst, hlast⟩ := t.seconds_mem
  have hnanos := t.nanos_lt
  have hdiv : t.millis / 1000 = t.seconds + (t.nanos / 1000000000 : Nat) := by
    simp only [millis]
    omega
  have hrange : firstSecond ≤ t.millis / 1000 ∧ t.millis / 1000 ≤ lastSecond := by
    simp only [InCalendar] at h
    omega
  have hbelow : (t.millis % 1000).toNat * 1000000 < 1000000000 := by omega
  rw [truncated, ofMillis?, of?, dif_pos ⟨hrange, Or.inl hbelow⟩, Option.getD_some]

namespace Value

mutual

/-- The value that is read back where this one was written. -/
def stored : Value → Value
  | timestamp t => timestamp t.truncated
  | counterDelta increment => counter increment
  | list items => list (storedItems items)
  | set items => set (storedItems items)
  | map entries => map (storedEntries entries)
  | v => v

def storedItems : List Value → List Value
  | [] => []
  | v :: rest => v.stored :: storedItems rest

def storedEntries : List (Value × Value) → List (Value × Value)
  | [] => []
  | (k, v) :: rest => (k.stored, v.stored) :: storedEntries rest

end

mutual

/-- Whether every instant in a value, at any depth, lies in the calendar. -/
def InCalendar : Value → Prop
  | timestamp t => t.InCalendar
  | list items => ItemsInCalendar items
  | set items => ItemsInCalendar items
  | map entries => EntriesInCalendar entries
  | _ => True

def ItemsInCalendar : List Value → Prop
  | [] => True
  | v :: rest => v.InCalendar ∧ ItemsInCalendar rest

def EntriesInCalendar : List (Value × Value) → Prop
  | [] => True
  | (k, v) :: rest => (k.InCalendar ∧ v.InCalendar) ∧ EntriesInCalendar rest

end

theorem storedItems_eq_map (items : List Value) : storedItems items = items.map stored := by
  induction items with
  | nil => rfl
  | cons v rest ih => rw [storedItems, ih, List.map_cons]

theorem storedEntries_eq_map (entries : List (Value × Value)) :
    storedEntries entries = entries.map fun entry => (entry.1.stored, entry.2.stored) := by
  induction entries with
  | nil => rfl
  | cons entry rest ih => rw [storedEntries, ih, List.map_cons]

theorem itemsInCalendar_iff {items : List Value} :
    ItemsInCalendar items ↔ ∀ v ∈ items, v.InCalendar := by
  induction items with
  | nil => simp [ItemsInCalendar]
  | cons v rest ih => rw [ItemsInCalendar, ih, List.forall_mem_cons]

theorem entriesInCalendar_iff {entries : List (Value × Value)} :
    EntriesInCalendar entries ↔
      ∀ entry ∈ entries, entry.1.InCalendar ∧ entry.2.InCalendar := by
  induction entries with
  | nil => simp [EntriesInCalendar]
  | cons entry rest ih => rw [EntriesInCalendar, ih, List.forall_mem_cons]

end Value

end CqlClient
