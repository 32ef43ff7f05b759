import CqlClient.Cell.Literal
import CqlClient.Proofs.Cell.Acceptance
import CqlClient.Proofs.Cell.Layout
import CqlClient.Proofs.Value.Inside

/-!
Which values have literals of a type: the nulls and the values of the type, as for cells. But a
literal is written without looking for repeats, so a set or a map may have a literal and no cell.
-/

namespace CqlClient

theorem Scalar.exists_literal_iff {s : Scalar} {v : Value} :
    (∃ text, s.literal v = .ok text) ↔ s.Holds v := by
  cases s with
  | ascii =>
      cases v with
      | ascii content =>
          rw [Holds, ← nonAscii?_eq_none]
          simp only [literal]
          cases nonAscii? (Utf8.encode content) <;> simp
      | _ => exact iff_of_false (not_exists_error _) id
  | _ =>
      -- The other types take all values of one kind, or none.
      cases v <;>
        first | exact iff_of_true ⟨_, rfl⟩ trivial | exact iff_of_false (not_exists_error _) id

/-- What stands between two marks is written if it is written by itself. -/
theorem exists_bracketed_iff {first last : String} {inner : Except EncodeError String} :
    (∃ text, (do return first ++ (← inner) ++ last) = Except.ok text) ↔
      ∃ text, inner = .ok text := by
  constructor
  · rintro ⟨text, h⟩
    obtain ⟨items, hitems, -⟩ := bind_eq_ok.mp h
    exact ⟨items, hitems⟩
  · rintro ⟨items, hitems⟩
    exact ⟨first ++ items ++ last, by rw [hitems]; rfl⟩

theorem exists_itemsLiteral_iff {α : Type} {literal : α → Except EncodeError String}
    {items : List α} :
    (∃ text, itemsLiteral literal items = .ok text) ↔
      ∀ item ∈ items, ∃ text, literal item = .ok text := by
  rw [← exists_mapM_iff]
  constructor
  · rintro ⟨text, h⟩
    obtain ⟨texts, htexts, -⟩ := bind_eq_ok.mp h
    exact ⟨texts, htexts⟩
  · rintro ⟨texts, htexts⟩
    exact ⟨", ".intercalate texts, by rw [itemsLiteral, htexts]; rfl⟩

theorem exists_entryLiteral_iff {keyLiteral valueLiteral : Value → Except EncodeError String}
    {entry : Value × Value} :
    (∃ text, entryLiteral keyLiteral valueLiteral entry = .ok text) ↔
      (∃ text, keyLiteral entry.1 = .ok text) ∧ ∃ text, valueLiteral entry.2 = .ok text := by
  constructor
  · rintro ⟨text, h⟩
    obtain ⟨key, hkey, hlater⟩ := bind_eq_ok.mp h
    obtain ⟨value, hvalue, -⟩ := bind_eq_ok.mp hlater
    exact ⟨⟨key, hkey⟩, value, hvalue⟩
  · rintro ⟨⟨key, hkey⟩, value, hvalue⟩
    exact ⟨key ++ ": " ++ value, by rw [entryLiteral, hkey, hvalue]; rfl⟩

namespace WireType

/-- The values of a type, whether or not there are repeats in them. -/
def InhabitsLoosely : WireType → Value → Prop := Inhabits fun _ _ => False

section

variable {e k w : WireType} {items : List Value} {entries : List (Value × Value)}

theorem inhabitsLoosely_set :
    (set e).InhabitsLoosely (.set items) ↔ ∀ v ∈ items, e.InhabitsLoosely v :=
  and_iff_left (List.pairwise_of_forall fun _ _ => not_false)

theorem inhabitsLoosely_map : (map k w).InhabitsLoosely (.map entries) ↔
    ∀ entry ∈ entries, k.InhabitsLoosely entry.1 ∧ w.InhabitsLoosely entry.2 :=
  and_iff_left (List.pairwise_of_forall fun _ _ => not_false)

end

/-- A value has a literal as an element if it has one at all. -/
theorem exists_elementLiteral_iff {collection e : WireType} {v : Value}
    (hbody : (∃ text, e.literalBody v = .ok text) ↔ e.InhabitsLoosely v) :
    (∃ text, elementLiteral collection e.literalBody v = .ok text) ↔ e.InhabitsLoosely v := by
  cases v with
  | null => exact iff_of_false (not_exists_error _) not_inhabits_null
  | _ => exact hbody

/-- The induction is on the type: the elements of a collection are values of the element type. -/
theorem exists_literalBody_iff {t : WireType} {v : Value} :
    (∃ text, t.literalBody v = .ok text) ↔ t.InhabitsLoosely v := by
  induction t generalizing v with
  | scalar s => exact Scalar.exists_literal_iff
  | list e ih =>
      cases v with
      | list items =>
          rw [literalBody, exists_bracketed_iff, exists_itemsLiteral_iff]
          exact forall₂_congr fun v _ => exists_elementLiteral_iff ih
      | _ => exact iff_of_false (not_exists_error _) id
  | set e ih =>
      cases v with
      | set items =>
          rw [literalBody, exists_bracketed_iff, exists_itemsLiteral_iff, inhabitsLoosely_set]
          exact forall₂_congr fun v _ => exists_elementLiteral_iff ih
      | _ => exact iff_of_false (not_exists_error _) id
  | map k w ihk ihw =>
      cases v with
      | map entries =>
          rw [literalBody, exists_bracketed_iff, exists_itemsLiteral_iff, inhabitsLoosely_map]
          refine forall₂_congr fun entry _ => exists_entryLiteral_iff.trans ?_
          exact and_congr (exists_elementLiteral_iff ihk) (exists_elementLiteral_iff ihw)
      | _ => exact iff_of_false (not_exists_error _) id

/-- The values of a type are those that have, apart from repeats, its shape, and have no repeats. -/
theorem inhabits_iff_unrepeated {t : WireType} {v : Value} :
    t.Inhabits (fun earlier later => (later == earlier) = true) v ↔
      t.InhabitsLoosely v ∧ v.Unrepeated := by
  induction t generalizing v with
  | scalar s =>
      refine (and_iff_left_of_imp fun h => ?_).symm
      obtain ⟨octets, hoctets⟩ := Scalar.exists_encode_iff.mpr h
      exact Value.unrepeated_of_depth (Scalar.depth_of_encode hoctets)
  | list e ih =>
      cases v with
      | list items =>
          rw [Value.unrepeated_list]
          exact (forall₂_congr fun v _ => ih).trans forall₂_and
      | _ => exact iff_of_false id And.left
  | set e ih =>
      cases v with
      | set items =>
          have hitems : (∀ v ∈ items, e.Inhabits _ v) ↔
              (∀ v ∈ items, e.InhabitsLoosely v) ∧ ∀ v ∈ items, v.Unrepeated :=
            (forall₂_congr fun v _ => ih).trans forall₂_and
          rw [Value.unrepeated_set, inhabitsLoosely_set, Value.hasRepeat_eq_false_iff, Inhabits,
            hitems, and_right_comm, and_assoc]
      | _ => exact iff_of_false id And.left
  | map k w ihk ihw =>
      cases v with
      | map entries =>
          have hentries : (∀ entry ∈ entries, k.Inhabits _ entry.1 ∧ w.Inhabits _ entry.2) ↔
              (∀ entry ∈ entries, k.InhabitsLoosely entry.1 ∧ w.InhabitsLoosely entry.2) ∧
                ∀ entry ∈ entries, entry.1.Unrepeated ∧ entry.2.Unrepeated :=
            (forall₂_congr fun entry _ => (and_congr ihk ihw).trans and_and_and_comm).trans
              forall₂_and
          rw [Value.unrepeated_map, inhabitsLoosely_map, Value.hasRepeat_eq_false_iff, Inhabits,
            hentries, and_right_comm, and_assoc]
      | _ => exact iff_of_false id And.left

/-- A value has a literal exactly if it is null or of the shape of the type. -/
theorem exists_literal_iff {t : WireType} {v : Value} :
    (∃ text, t.literal v = .ok text) ↔ v = .null ∨ t.InhabitsLoosely v := by
  rw [← exists_literalBody_iff]
  cases v with
  | null => exact iff_of_true ⟨_, rfl⟩ (.inl rfl)
  | _ => simp [literal, Value.isNull]

/-- As far as lengths and counts can be stated, a value has a cell exactly if it has a literal and
no set in it repeats an element and no map a key. So a value has both or neither exactly if, given
that it has a literal, there are no repeats in it. -/
theorem encode_accepts_iff_literal {t : WireType} {v : Value} (hfits : t.Fits v) :
    ((∃ cell, t.encode v = .ok cell) ↔ (∃ text, t.literal v = .ok text) ∧ v.Unrepeated) ∧
    (((∃ text, t.literal v = .ok text) ↔ ∃ cell, t.encode v = .ok cell) ↔
      ((∃ text, t.literal v = .ok text) → v.Unrepeated)) := by
  have hcell : (∃ cell, t.encode v = .ok cell) ↔
      (∃ text, t.literal v = .ok text) ∧ v.Unrepeated := by
    rw [exists_encode_iff hfits, exists_encodeBody_iff hfits, inhabits_iff_unrepeated,
      exists_literal_iff, or_and_right]
    refine or_congr_left (and_iff_left_of_imp ?_).symm
    rintro rfl
    exact Value.unrepeated_of_depth rfl
  refine ⟨hcell, ?_⟩
  rw [hcell]
  exact iff_self_and

/-- A list of two sets without repeats, one of them empty. -/
theorem literal_accepts_of_distinct_sets :
    let t : WireType := .list (.set (.scalar .bigint))
    let v : Value := .list [.set [.bigint 1, .bigint (-1)], .set []]
    t.Fits v ∧ v.Unrepeated ∧
      ((∃ text, t.literal v = .ok text) ↔ ∃ cell, t.encode v = .ok cell) := by
  intro t v
  have hfits : t.Fits v := by
    simp only [t, v, Fits, List.forall_mem_cons, List.not_mem_nil, false_implies, implies_true,
      and_true]
    refine ⟨?_, by decide, ⟨?_, by decide, ?_, ?_⟩, ?_, by decide⟩ <;>
      (intro body h; cases h; decide)
  have hunrepeated : v.Unrepeated := by
    simp only [v, Value.unrepeated_list, Value.unrepeated_set, List.forall_mem_cons,
      List.not_mem_nil, false_implies, implies_true, and_true]
    have hplain : ∀ n, (Value.bigint n).Unrepeated := fun _ => Value.unrepeated_of_depth rfl
    exact ⟨⟨by decide, hplain _, hplain _⟩, by decide⟩
  exact ⟨hfits, hunrepeated, (encode_accepts_iff_literal hfits).2.mpr fun _ => hunrepeated⟩

/-- A set that holds a number twice has a literal, but no cell. -/
theorem literal_accepts_repeat :
    let t : WireType := .set (.scalar .int)
    let v : Value := .set [.int 1, .int 1]
    t.Fits v ∧ t.literal v = .ok "\x7b1, 1\x7d" ∧ ¬ ∃ cell, t.encode v = .ok cell := by
  intro t v
  refine ⟨?_, by rfl, ?_⟩
  · simp only [t, v, Fits, List.forall_mem_cons, List.not_mem_nil, false_implies, implies_true,
      and_true]
    have hone : ∀ body, (scalar .int).encodeBody (.int 1) = .ok body →
        body.length ≤ Cell.limit := by
      intro body h
      cases h
      decide
    refine ⟨?_, by decide, hone, hone⟩
    intro body h
    cases h
  · rintro ⟨cell, h⟩
    have hrefused : t.encode v = .error (.duplicateElement t) := by rfl
    cases hrefused.symm.trans h

end WireType

end CqlClient
