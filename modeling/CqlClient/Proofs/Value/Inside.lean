import CqlClient.Proofs.Value.Equality

/-!
What is inside a value, at any depth. A statement about all of it is one about the value itself and
about all that is inside its elements.
-/

namespace CqlClient.Value

/-- A property of values that goes from elements to their collections has every value. -/
theorem induction {motive : Value → Prop} (scalar : ∀ v : Value, v.depth = 0 → motive v)
    (list : ∀ items, (∀ v ∈ items, motive v) → motive (.list items))
    (set : ∀ items, (∀ v ∈ items, motive v) → motive (.set items))
    (map : ∀ entries, (∀ entry ∈ entries, motive entry.1 ∧ motive entry.2) →
      motive (.map entries)) (v : Value) : motive v := by
  obtain ⟨level, hlevel⟩ : ∃ level, v.depth ≤ level := ⟨_, Nat.le_refl _⟩
  induction level generalizing v with
  | zero => exact scalar v (Nat.le_zero.mp hlevel)
  | succ level ih =>
      cases v with
      | list items => exact list items fun v hv => ih v (depth_le_of_items hlevel v hv)
      | set items => exact set items fun v hv => ih v (depth_le_of_items hlevel v hv)
      | map entries =>
          exact map entries fun entry hentry =>
            ⟨ih _ (depth_le_of_entries hlevel entry hentry).1,
              ih _ (depth_le_of_entries hlevel entry hentry).2⟩
      | _ => exact scalar _ rfl

/-- The values of which a value is made: itself and what is inside its elements, keys included. -/
inductive Inside : Value → Value → Prop where
  | self (v : Value) : Inside v v
  | list {u v : Value} {items : List Value} : v ∈ items → Inside u v → Inside u (.list items)
  | set {u v : Value} {items : List Value} : v ∈ items → Inside u v → Inside u (.set items)
  | key {u : Value} {entry : Value × Value} {entries : List (Value × Value)} :
      entry ∈ entries → Inside u entry.1 → Inside u (.map entries)
  | value {u : Value} {entry : Value × Value} {entries : List (Value × Value)} :
      entry ∈ entries → Inside u entry.2 → Inside u (.map entries)

/-- Whether a property has everything inside a value. -/
def Throughout (P : Value → Prop) (v : Value) : Prop := ∀ u, Inside u v → P u

variable {P : Value → Prop}

theorem Throughout.self {v : Value} (h : v.Throughout P) : P v := h v (.self v)

theorem throughout_list {items : List Value} :
    (list items).Throughout P ↔ P (list items) ∧ ∀ v ∈ items, v.Throughout P := by
  constructor
  · exact fun h => ⟨h.self, fun v hv u hu => h u (.list hv hu)⟩
  · rintro ⟨hself, hitems⟩ u hu
    cases hu with
    | self => exact hself
    | list hv hu => exact hitems _ hv u hu

theorem throughout_set {items : List Value} :
    (set items).Throughout P ↔ P (set items) ∧ ∀ v ∈ items, v.Throughout P := by
  constructor
  · exact fun h => ⟨h.self, fun v hv u hu => h u (.set hv hu)⟩
  · rintro ⟨hself, hitems⟩ u hu
    cases hu with
    | self => exact hself
    | set hv hu => exact hitems _ hv u hu

theorem throughout_map {entries : List (Value × Value)} :
    (map entries).Throughout P ↔
      P (map entries) ∧ ∀ entry ∈ entries, entry.1.Throughout P ∧ entry.2.Throughout P := by
  constructor
  · exact fun h => ⟨h.self, fun entry hentry =>
      ⟨fun u hu => h u (.key hentry hu), fun u hu => h u (.value hentry hu)⟩⟩
  · rintro ⟨hself, hentries⟩ u hu
    cases hu with
    | self => exact hself
    | key hentry hu => exact (hentries _ hentry).1 u hu
    | value hentry hu => exact (hentries _ hentry).2 u hu

/-- A value without elements has nothing but itself inside. -/
theorem throughout_of_depth {v : Value} (hdepth : v.depth = 0) : v.Throughout P ↔ P v := by
  refine ⟨Throughout.self, fun h u hu => ?_⟩
  cases hu with
  | self => exact h
  | list | set | key | value => cases hdepth

/-- Whether no element of this set, or key of this map, equals an earlier one. -/
def HasNoRepeat : Value → Prop
  | set items => hasRepeat items = false
  | map entries => hasRepeat (entries.map Prod.fst) = false
  | _ => True

/-- Whether no set inside a value repeats an element and no map a key. -/
def Unrepeated (v : Value) : Prop := v.Throughout HasNoRepeat

theorem hasNoRepeat_of_depth {v : Value} (h : v.depth = 0) : v.HasNoRepeat := by
  cases v with
  | list | set | map => cases h
  | _ => trivial

theorem unrepeated_of_depth {v : Value} (h : v.depth = 0) : v.Unrepeated :=
  (throughout_of_depth h).mpr (hasNoRepeat_of_depth h)

theorem unrepeated_list {items : List Value} :
    (list items).Unrepeated ↔ ∀ v ∈ items, v.Unrepeated :=
  throughout_list.trans (and_iff_right trivial)

theorem unrepeated_set {items : List Value} :
    (set items).Unrepeated ↔ hasRepeat items = false ∧ ∀ v ∈ items, v.Unrepeated :=
  throughout_set

theorem unrepeated_map {entries : List (Value × Value)} :
    (map entries).Unrepeated ↔ hasRepeat (entries.map Prod.fst) = false ∧
      ∀ entry ∈ entries, entry.1.Unrepeated ∧ entry.2.Unrepeated :=
  throughout_map

/-- Whether no increment of a counter is inside a value. -/
def WithoutIncrements (v : Value) : Prop := v.Throughout fun u => ∀ n, u ≠ counterDelta n

end CqlClient.Value
