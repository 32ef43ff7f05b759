import CqlClient.Proofs.Cell.RoundTrip
import CqlClient.Proofs.Value.Equality

/-!
Which values have cells of a type. As far as lengths and counts can be stated, they are the nulls
and the values of the type: of its own kind at every depth, without nulls inside, and without an
element of a set or a key of a map that equals an earlier one.
-/

namespace CqlClient

/-- The values of a type without elements. -/
def Scalar.Holds : Scalar → Value → Prop
  | int, .int _ => True
  | bigint, .bigint _ => True
  | varint, .varint _ => True
  | float, .float _ => True
  | double, .double _ => True
  | boolean, .boolean _ => True
  | blob, .blob _ => True
  | ascii, .ascii content => ∀ octet ∈ Utf8.encode content, octet < 128
  | text, .text _ => True
  | varchar, .text _ => True
  | timestamp, .timestamp _ => True
  | uuid, .uuid _ => True
  | timeuuid, .timeuuid _ => True
  | counter, .counterDelta _ => True
  | _, _ => False

theorem nonAscii?_eq_none {bytes : Bytes} :
    nonAscii? bytes = none ↔ ∀ octet ∈ bytes, octet < 128 := by
  simp [nonAscii?]

theorem Scalar.exists_encode_iff {s : Scalar} {v : Value} :
    (∃ bytes, s.encode v = .ok bytes) ↔ s.Holds v := by
  fun_cases Scalar.encode s v
  case case10 content position hposition =>
    refine iff_of_false (by simp) fun h => ?_
    rw [nonAscii?_eq_none.mpr h] at hposition
    cases hposition
  case case11 content hascii =>
    exact iff_of_true ⟨_, rfl⟩ (nonAscii?_eq_none.mp hascii)
  all_goals simp_all [Scalar.Holds]

/-- What stands behind a count is written if the count can be stated. -/
theorem exists_counted_iff {count : Nat} {body : Except EncodeError Bytes}
    (h : count ≤ Cell.limit) :
    (∃ bytes, (do return (← encodeCount count) ++ (← body)) = Except.ok bytes) ↔
      ∃ bytes, body = .ok bytes := by
  rw [encodeCount_eq_ok.mpr ⟨h, rfl⟩, ok_bind]
  constructor
  · rintro ⟨bytes, h⟩
    obtain ⟨items, hitems, -⟩ := bind_eq_ok.mp h
    exact ⟨items, hitems⟩
  · rintro ⟨items, hitems⟩
    exact ⟨_ ++ items, by rw [hitems]; rfl⟩

/-- What is refused for a repeated element is written if there is none. -/
theorem exists_unrepeated_iff {repeats : Bool} {e : EncodeError} {body : Except EncodeError Bytes} :
    (∃ bytes, (if repeats then .error e else body) = Except.ok bytes) ↔
      repeats = false ∧ ∃ bytes, body = .ok bytes := by
  cases repeats <;> simp

/-- An element is written if it is not null and has octets, as many as can be stated. -/
theorem exists_encodeElement_iff {collection : WireType}
    {encode : Value → Except EncodeError Bytes} {v : Value}
    (hfits : ∀ body, encode v = .ok body → body.length ≤ Cell.limit) :
    (∃ bytes, encodeElement collection encode v = .ok bytes) ↔
      v ≠ .null ∧ ∃ body, encode v = .ok body := by
  constructor
  · rintro ⟨bytes, h⟩
    obtain ⟨body, hbody, -⟩ := encodeElement_eq_ok h
    refine ⟨?_, body, hbody⟩
    rintro rfl
    cases h
  · rintro ⟨hnull, body, hbody⟩
    have hkind : v.isNull = false := by
      cases v with
      | null => exact absurd rfl hnull
      | _ => rfl
    refine ⟨Bytes.ofNat 4 body.length ++ body, ?_⟩
    rw [encodeElement, hkind, hbody, ok_bind, encodeCount_eq_ok.mpr ⟨hfits body hbody, rfl⟩]
    rfl

/-- A row of items is written if every one of them is. -/
theorem exists_encodeItems_iff {write : Value → Except EncodeError Bytes} {items : List Value} :
    (∃ bytes, encodeItems write items = .ok bytes) ↔
      ∀ v ∈ items, ∃ bytes, write v = .ok bytes := by
  induction items with
  | nil => simp [encodeItems]
  | cons v rest ih =>
      rw [List.forall_mem_cons, ← ih, encodeItems]
      constructor
      · rintro ⟨bytes, h⟩
        obtain ⟨first, hfirst, h⟩ := bind_eq_ok.mp h
        obtain ⟨later, hlater, -⟩ := bind_eq_ok.mp h
        exact ⟨⟨first, hfirst⟩, later, hlater⟩
      · rintro ⟨⟨first, hfirst⟩, later, hlater⟩
        exact ⟨first ++ later, by rw [hfirst, hlater]; rfl⟩

theorem exists_encodeEntries_iff {writeKey writeValue : Value → Except EncodeError Bytes}
    {entries : List (Value × Value)} :
    (∃ bytes, encodeEntries writeKey writeValue entries = .ok bytes) ↔
      ∀ entry ∈ entries, (∃ bytes, writeKey entry.1 = .ok bytes) ∧
        ∃ bytes, writeValue entry.2 = .ok bytes := by
  induction entries with
  | nil => simp [encodeEntries]
  | cons entry rest ih =>
      rw [List.forall_mem_cons, ← ih, encodeEntries]
      constructor
      · rintro ⟨bytes, h⟩
        obtain ⟨key, hkey, h⟩ := bind_eq_ok.mp h
        obtain ⟨value, hvalue, h⟩ := bind_eq_ok.mp h
        obtain ⟨later, hlater, -⟩ := bind_eq_ok.mp h
        exact ⟨⟨⟨key, hkey⟩, value, hvalue⟩, later, hlater⟩
      · rintro ⟨⟨⟨key, hkey⟩, value, hvalue⟩, later, hlater⟩
        exact ⟨key ++ value ++ later, by rw [hkey, hvalue, hlater]; rfl⟩

theorem Value.hasRepeat_eq_false_iff {items : List Value} :
    hasRepeat items = false ↔ items.Pairwise fun earlier later => ¬ (later == earlier) = true := by
  induction items with
  | nil => simp [hasRepeat]
  | cons v rest ih =>
      rw [hasRepeat, Bool.or_eq_false_iff, ih, List.pairwise_cons, List.any_eq_false]

namespace WireType

/-- The values of a type, given when a later element of a set, or key of a map, clashes with an
earlier one. -/
def Inhabits (clash : Value → Value → Prop) : WireType → Value → Prop
  | scalar s, v => s.Holds v
  | list e, .list items => ∀ v ∈ items, e.Inhabits clash v
  | set e, .set items =>
    (∀ v ∈ items, e.Inhabits clash v) ∧
      items.Pairwise fun earlier later => ¬ clash earlier later
  | map k w, .map entries =>
    (∀ entry ∈ entries, k.Inhabits clash entry.1 ∧ w.Inhabits clash entry.2) ∧
      (entries.map Prod.fst).Pairwise fun earlier later => ¬ clash earlier later
  | _, _ => False

/-- Whether the octets of a value, those of its elements at every depth, and all counts of elements
can be stated. -/
def Fits (t : WireType) (v : Value) : Prop :=
  (∀ body, t.encodeBody v = .ok body → body.length ≤ Cell.limit) ∧
    match t, v with
    | list e, .list items => items.length ≤ Cell.limit ∧ ∀ v ∈ items, e.Fits v
    | set e, .set items => items.length ≤ Cell.limit ∧ ∀ v ∈ items, e.Fits v
    | map k w, .map entries =>
      entries.length ≤ Cell.limit ∧ ∀ entry ∈ entries, k.Fits entry.1 ∧ w.Fits entry.2
    | _, _ => True

/-- A null is a value of no type, so no element is one. -/
theorem not_inhabits_null {clash : Value → Value → Prop} {t : WireType} :
    ¬ t.Inhabits clash .null := by
  cases t with
  | scalar s => cases s <;> exact id
  | _ => exact id

theorem Fits.length_le {t : WireType} {v : Value} (h : t.Fits v) {body : Bytes}
    (hbody : t.encodeBody v = .ok body) : body.length ≤ Cell.limit := by
  rw [Fits.eq_def] at h
  exact h.1 body hbody

/-- A value is written as an element if it is written at all. -/
theorem exists_encodeElement_iff_inhabits {clash : Value → Value → Prop}
    {collection e : WireType} {v : Value} (hfits : e.Fits v)
    (hbody : (∃ body, e.encodeBody v = .ok body) ↔ e.Inhabits clash v) :
    (∃ bytes, encodeElement collection e.encodeBody v = .ok bytes) ↔ e.Inhabits clash v := by
  rw [exists_encodeElement_iff fun body => hfits.length_le, hbody]
  refine and_iff_right_of_imp fun h => ?_
  rintro rfl
  exact not_inhabits_null h

/-- The induction is on the type: the elements of a collection are values of the element type. -/
theorem exists_encodeBody_iff {t : WireType} {v : Value} (hfits : t.Fits v) :
    (∃ body, t.encodeBody v = .ok body) ↔
      t.Inhabits (fun earlier later => (later == earlier) = true) v := by
  induction t generalizing v with
  | scalar s => exact Scalar.exists_encode_iff
  | list e ih =>
      cases v with
      | list items =>
          obtain ⟨-, hcount, hitems⟩ := hfits
          rw [encodeBody, exists_counted_iff hcount, exists_encodeItems_iff, Inhabits]
          exact forall₂_congr fun v hv =>
            exists_encodeElement_iff_inhabits (hitems v hv) (ih (hitems v hv))
      | _ => exact iff_of_false (by rintro ⟨_, h⟩; cases h) id
  | set e ih =>
      cases v with
      | set items =>
          obtain ⟨-, hcount, hfits⟩ := hfits
          have hitems : (∃ body, encodeItems (encodeElement (set e) e.encodeBody) items =
              .ok body) ↔ ∀ v ∈ items, e.Inhabits _ v := exists_encodeItems_iff.trans <|
            forall₂_congr fun v hv =>
              exists_encodeElement_iff_inhabits (hfits v hv) (ih (hfits v hv))
          rw [encodeBody, exists_unrepeated_iff, exists_counted_iff hcount, hitems,
            Value.hasRepeat_eq_false_iff, and_comm, Inhabits]
      | _ => exact iff_of_false (by rintro ⟨_, h⟩; cases h) id
  | map k w ihk ihw =>
      cases v with
      | map entries =>
          obtain ⟨-, hcount, hfits⟩ := hfits
          have hentries : (∃ body, encodeEntries (encodeElement (map k w) k.encodeBody)
              (encodeElement (map k w) w.encodeBody) entries = .ok body) ↔
              ∀ entry ∈ entries, k.Inhabits _ entry.1 ∧ w.Inhabits _ entry.2 :=
            exists_encodeEntries_iff.trans <| forall₂_congr fun entry hentry =>
              and_congr
                (exists_encodeElement_iff_inhabits (hfits entry hentry).1
                  (ihk (hfits entry hentry).1))
                (exists_encodeElement_iff_inhabits (hfits entry hentry).2
                  (ihw (hfits entry hentry).2))
          rw [encodeBody, exists_unrepeated_iff, exists_counted_iff hcount, hentries,
            Value.hasRepeat_eq_false_iff, and_comm, Inhabits]
      | _ => exact iff_of_false (by rintro ⟨_, h⟩; cases h) id

/-- Clashes that agree between the values in question have the same inhabitants. -/
theorem inhabits_congr {clash clash' : Value → Value → Prop}
    (h : ∀ a b : Value, a.Numeric → b.Numeric → (clash a b ↔ clash' a b)) {t : WireType}
    {v : Value} (hv : v.Numeric) : t.Inhabits clash v ↔ t.Inhabits clash' v := by
  have hpairwise : ∀ items : List Value, (∀ v ∈ items, v.Numeric) →
      ((items.Pairwise fun a b => ¬ clash a b) ↔ items.Pairwise fun a b => ¬ clash' a b) :=
    fun items hitems => List.Pairwise.iff_of_mem fun ha hb =>
      not_congr (h _ _ (hitems _ ha) (hitems _ hb))
  induction t generalizing v with
  | scalar s => exact Iff.rfl
  | list e ih =>
      cases v with
      | list items =>
          have hitems := Value.numericItems_iff.mp hv
          exact forall₂_congr fun v hmem => ih (hitems v hmem)
      | _ => exact Iff.rfl
  | set e ih =>
      cases v with
      | set items =>
          have hitems := Value.numericItems_iff.mp hv
          exact and_congr (forall₂_congr fun v hmem => ih (hitems v hmem)) (hpairwise _ hitems)
      | _ => exact Iff.rfl
  | map k w ihk ihw =>
      cases v with
      | map entries =>
          have hentries := Value.numericEntries_iff.mp hv
          refine and_congr (forall₂_congr fun entry hmem =>
            and_congr (ihk (hentries entry hmem).1) (ihw (hentries entry hmem).2)) ?_
          exact hpairwise _ (List.forall_mem_map.mpr fun entry hmem => (hentries entry hmem).1)
      | _ => exact Iff.rfl

theorem exists_encode_iff {t : WireType} {v : Value} (hfits : t.Fits v) :
    (∃ cell, t.encode v = .ok cell) ↔ v = .null ∨ ∃ body, t.encodeBody v = .ok body := by
  constructor
  · rintro ⟨cell, h⟩
    rcases encode_eq_ok h with ⟨rfl, -⟩ | ⟨body, -, hbody, -⟩
    · exact .inl rfl
    · exact .inr ⟨body, hbody⟩
  · rintro (rfl | ⟨body, hbody⟩)
    · exact ⟨none, rfl⟩
    cases hnull : v.isNull with
    | true => exact ⟨none, by rw [encode, hnull]; rfl⟩
    | false =>
        refine ⟨some body, ?_⟩
        rw [encode, hnull, if_neg Bool.false_ne_true, hbody, ok_bind,
          if_pos (hfits.length_le hbody)]
        rfl

/-- A value has a cell of a type exactly if it is null or a value of the type, where a set or the
keys of a map hold no element that equals an earlier one. Between numbers it does not matter which
of two elements is compared with the other. -/
theorem encode_accepts_iff_inhabits (t : WireType) (v : Value) (hfits : t.Fits v) :
    ((∃ cell, t.encode v = .ok cell) ↔
      v = .null ∨ t.Inhabits (fun earlier later => (later == earlier) = true) v) ∧
    (v.Numeric → ((∃ cell, t.encode v = .ok cell) ↔
      v = .null ∨ t.Inhabits (fun a b => (a == b) = true ∨ (b == a) = true) v)) := by
  have hwhole := exists_encode_iff hfits
  rw [exists_encodeBody_iff hfits] at hwhole
  refine ⟨hwhole, fun hv => hwhole.trans (or_congr_right ?_)⟩
  refine inhabits_congr (fun a b ha hb => ?_) hv
  exact ⟨.inr, fun h => h.elim (Value.equivalenceOn_beq.symm ha hb) id⟩

/-- A map from texts to sets of numbers, one of them empty. -/
theorem exists_encode_of_inhabits_map :
    let t : WireType := .map (.scalar .text) (.set (.scalar .double))
    let v : Value := .map [
      (.text "a", .set [.double 0x3ff0000000000000, .double 0]), (.text "b", .set [])]
    t.Fits v ∧ v.Numeric ∧ ∃ cell, t.encode v = .ok cell := by
  intro t v
  have hfits : t.Fits v := by
    simp only [t, v, Fits, List.forall_mem_cons, List.not_mem_nil, false_implies, implies_true,
      and_true]
    refine ⟨?_, by decide, ⟨?_, ?_, by decide, ?_, ?_⟩, ?_, ?_, by decide⟩ <;>
      (intro body h; cases h; decide)
  have hnumeric : v.Numeric := by
    simp only [v, Value.Numeric, Value.NumericEntries, Value.NumericItems, and_true, true_and]
    decide
  refine ⟨hfits, hnumeric, ((encode_accepts_iff_inhabits t v hfits).2 hnumeric).mpr (.inr ?_)⟩
  simp only [t, v, Inhabits, Scalar.Holds, List.forall_mem_cons, List.not_mem_nil, false_implies,
    implies_true, and_true, true_and, List.map_cons, List.map_nil, List.pairwise_pair]
  decide

/-- Equality of sets with a not-a-number depends on the order: the first of these two sets equals
the second, but not the second the first. Both stand in a set that has a cell. -/
theorem exists_encode_of_equal_elements :
    let t : WireType := .set (.set (.scalar .double))
    let v : Value := .set [.set [.double 0x7ff8000000000000], .set [.double 0x3ff0000000000000]]
    t.Fits v ∧ (∃ cell, t.encode v = .ok cell) ∧ v ≠ .null ∧
      ¬ t.Inhabits (fun a b => (a == b) = true ∨ (b == a) = true) v := by
  intro t v
  refine ⟨?_, ⟨_, rfl⟩, Value.noConfusion, ?_⟩
  · simp only [t, v, Fits, List.forall_mem_cons, List.not_mem_nil, false_implies, implies_true,
      and_true]
    refine ⟨?_, by decide, ⟨?_, by decide, ?_⟩, ?_, by decide, ?_⟩ <;>
      (intro body h; cases h; decide)
  · rintro ⟨-, hunequal⟩
    rw [List.pairwise_pair] at hunequal
    exact hunequal (.inl (by decide))

end WireType

end CqlClient
