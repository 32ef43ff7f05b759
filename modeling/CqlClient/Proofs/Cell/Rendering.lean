import CqlClient.Cell.Literal
import CqlClient.Proofs.Cell.Inlining
import CqlClient.Proofs.Failure
import CqlClient.Proofs.Value.Inside

/-!
The literals of collections, in terms of the literals of their elements. Literals follow the type
and texts follow the value, but what they write is the same: a value without instants and increments
has its text as its literal.
-/

namespace CqlClient

theorem elementLiteral_eq_ok {collection : WireType} {literal : Value → Except EncodeError String}
    {v : Value} {text : String} :
    elementLiteral collection literal v = .ok text ↔ v.isNull = false ∧ literal v = .ok text := by
  rw [elementLiteral]
  cases v.isNull <;> simp

theorem itemsLiteral_eq_ok {α : Type} {literal : α → Except EncodeError String} {items : List α}
    {text : String} :
    itemsLiteral literal items = .ok text ↔
      ∃ texts, List.Forall₂ (fun item text => literal item = .ok text) items texts ∧
        text = ", ".intercalate texts := by
  simp only [itemsLiteral, bind_eq_ok, mapM_eq_ok, pure_eq_ok, Except.ok.injEq]
  exact exists_congr fun texts => and_congr_right fun _ => eq_comm

theorem entryLiteral_eq_ok {keyLiteral valueLiteral : Value → Except EncodeError String}
    {entry : Value × Value} {text : String} :
    entryLiteral keyLiteral valueLiteral entry = .ok text ↔
      ∃ key value, keyLiteral entry.1 = .ok key ∧ valueLiteral entry.2 = .ok value ∧
        text = key ++ ": " ++ value := by
  simp only [entryLiteral, bind_eq_ok, pure_eq_ok, Except.ok.injEq]
  constructor
  · rintro ⟨key, hkey, value, hvalue, rfl⟩
    exact ⟨key, value, hkey, hvalue, rfl⟩
  · rintro ⟨key, value, hkey, hvalue, rfl⟩
    exact ⟨key, hkey, value, hvalue, rfl⟩

namespace WireType

/-- The text is the literal of the value, which is not null. -/
def Renders (t : WireType) (v : Value) (text : String) : Prop := t.literalBody v = .ok text

/-- The text is the literal of the entry. -/
def RendersEntry (k w : WireType) (entry : Value × Value) (text : String) : Prop :=
  ∃ key value, k.Renders entry.1 key ∧ w.Renders entry.2 value ∧ text = key ++ ": " ++ value

variable {t e k w : WireType} {v : Value} {text : String}

theorem isNull_of_renders (h : t.Renders v text) : v.isNull = false := by
  cases v with
  | null => exact absurd (exists_literalBody_iff.mp ⟨text, h⟩) not_inhabits_null
  | _ => rfl

theorem literal_eq_ok : t.literal v = .ok text ↔ v = .null ∧ text = "null" ∨ t.Renders v text := by
  rw [literal]
  cases hnull : v.isNull with
  | true =>
      have hv : v = .null := by
        cases v with
        | null => rfl
        | _ => cases hnull
      have hnot : ¬ t.Renders v text := fun h => by
        rw [isNull_of_renders h] at hnull
        cases hnull
      simp [hv, hv ▸ hnot, eq_comm]
  | false =>
      have hv : v ≠ .null := by
        rintro rfl
        cases hnull
      simp [hv, Renders]

theorem elementLiteral_iff_renders {collection : WireType} :
    elementLiteral collection e.literalBody v = .ok text ↔ e.Renders v text := by
  rw [elementLiteral_eq_ok]
  exact and_iff_right_of_imp isNull_of_renders

/-- The literals of items between two marks. -/
theorem bracketed_eq_ok {α : Type} {literal : α → Except EncodeError String}
    {Has : α → String → Prop} (hliteral : ∀ item text, literal item = .ok text ↔ Has item text)
    {first last : String} {items : List α} :
    (do return first ++ (← itemsLiteral literal items) ++ last) = Except.ok text ↔
      ∃ texts, List.Forall₂ Has items texts ∧
        text = first ++ ", ".intercalate texts ++ last := by
  simp only [bind_eq_ok, itemsLiteral_eq_ok, hliteral, pure_eq_ok, Except.ok.injEq]
  constructor
  · rintro ⟨_, ⟨texts, htexts, rfl⟩, rfl⟩
    exact ⟨texts, htexts, rfl⟩
  · rintro ⟨texts, htexts, rfl⟩
    exact ⟨_, ⟨texts, htexts, rfl⟩, rfl⟩

theorem renders_list_iff : (list e).Renders v text ↔
    ∃ items texts, v = .list items ∧ List.Forall₂ e.Renders items texts ∧
      text = "[" ++ ", ".intercalate texts ++ "]" := by
  cases v with
  | list items =>
      rw [Renders, literalBody, bracketed_eq_ok fun _ _ => elementLiteral_iff_renders]
      simp
  | _ => simp [Renders, literalBody]

theorem renders_set_iff : (set e).Renders v text ↔
    ∃ items texts, v = .set items ∧ List.Forall₂ e.Renders items texts ∧
      text = "\x7b" ++ ", ".intercalate texts ++ "\x7d" := by
  cases v with
  | set items =>
      rw [Renders, literalBody, bracketed_eq_ok fun _ _ => elementLiteral_iff_renders]
      simp
  | _ => simp [Renders, literalBody]

theorem renders_map_iff : (map k w).Renders v text ↔
    ∃ entries texts, v = .map entries ∧ List.Forall₂ (k.RendersEntry w) entries texts ∧
      text = "\x7b" ++ ", ".intercalate texts ++ "\x7d" := by
  cases v with
  | map entries =>
      have hentry : ∀ entry text, entryLiteral (elementLiteral (map k w) k.literalBody)
          (elementLiteral (map k w) w.literalBody) entry = .ok text ↔
            k.RendersEntry w entry text := by
        intro entry text
        simp only [entryLiteral_eq_ok, elementLiteral_iff_renders, RendersEntry]
      rw [Renders, literalBody, bracketed_eq_ok hentry]
      simp
  | _ => simp [Renders, literalBody]

end WireType

/-! ## Texts -/

namespace Value

theorem itemTexts_eq_map (items : List Value) : itemTexts items = items.map display := by
  induction items with
  | nil => rfl
  | cons v rest ih => rw [itemTexts, ih, List.map_cons]

theorem entryTexts_eq_map (entries : List (Value × Value)) :
    entryTexts entries =
      entries.map fun entry => entry.1.display ++ ": " ++ entry.2.display := by
  induction entries with
  | nil => rfl
  | cons entry rest ih => rw [entryTexts, ih, List.map_cons]

/-- Whether a value is neither an instant nor an increment, whose texts are no literals. -/
def ShownAsWritten (v : Value) : Prop := (∀ t, v ≠ timestamp t) ∧ ∀ n, v ≠ counterDelta n

end Value

theorem Scalar.eq_of_literal_ascii {content text : String}
    (h : Scalar.ascii.literal (.ascii content) = .ok text) : quoted content = text := by
  rw [Scalar.literal] at h
  split at h
  · cases h
  · exact Except.ok.inj h

theorem Scalar.display_eq_of_literal {s : Scalar} {v : Value} {text : String}
    (hv : v.ShownAsWritten) (h : s.literal v = .ok text) : v.display = text := by
  fun_cases Scalar.literal s v <;>
    simp only [Scalar.literal, Except.ok.injEq, reduceCtorEq] at h
  case case6 n => exact absurd rfl (hv.2 n)
  case case12 | case13 => exact Scalar.eq_of_literal_ascii h
  case case16 t => exact absurd rfl (hv.1 t)
  all_goals exact h

namespace WireType

/-- The induction is on the type; the elements of a collection are shown as their literals. -/
theorem display_eq_of_renders {t : WireType} {v : Value} {text : String}
    (hv : v.Throughout Value.ShownAsWritten) (h : t.Renders v text) : v.display = text := by
  induction t generalizing v text with
  | scalar s => exact Scalar.display_eq_of_literal hv.self h
  | list e ih =>
      obtain ⟨items, texts, rfl, htexts, rfl⟩ := renders_list_iff.mp h
      have hitems := (Value.throughout_list.mp hv).2
      have hsame := map_eq_of_forall₂ htexts fun v hmem text => ih (hitems v hmem)
      rw [Value.display, Value.itemTexts_eq_map, hsame]
  | set e ih =>
      obtain ⟨items, texts, rfl, htexts, rfl⟩ := renders_set_iff.mp h
      have hitems := (Value.throughout_set.mp hv).2
      have hsame := map_eq_of_forall₂ htexts fun v hmem text => ih (hitems v hmem)
      rw [Value.display, Value.itemTexts_eq_map, hsame]
  | map k w ihk ihw =>
      obtain ⟨entries, texts, rfl, htexts, rfl⟩ := renders_map_iff.mp h
      have hentries := (Value.throughout_map.mp hv).2
      have hsame := map_eq_of_forall₂
        (f := fun entry => entry.1.display ++ ": " ++ entry.2.display) htexts
        fun entry hmem text => by
          rintro ⟨key, value, hkey, hvalue, rfl⟩
          rw [ihk (hentries entry hmem).1 hkey, ihw (hentries entry hmem).2 hvalue]
      rw [Value.display, Value.entryTexts_eq_map, hsame]

/-- A value with no instant and no increment inside is shown as its literal, whatever the type is
that it is a literal of. -/
theorem display_eq_literal {t : WireType} {v : Value} {text : String}
    (hv : v.Throughout Value.ShownAsWritten) (h : t.literal v = .ok text) : v.display = text := by
  rcases literal_eq_ok.mp h with ⟨rfl, rfl⟩ | hrenders
  · rfl
  · exact display_eq_of_renders hv hrenders

/-- A map with a quote in its key, and sets of octets, one of them empty. -/
theorem display_eq_literal_of_nested :
    let t : WireType := .map (.scalar .ascii) (.list (.set (.scalar .blob)))
    let v : Value := .map [(.ascii "it's", .list [.set [.blob [0xca, 0x0e], .blob []], .set []])]
    v.Throughout Value.ShownAsWritten ∧
      t.literal v = .ok "\x7b'it''s': [\x7b0xca0e, 0x\x7d, \x7b\x7d]\x7d" ∧
      v.display = "\x7b'it''s': [\x7b0xca0e, 0x\x7d, \x7b\x7d]\x7d" := by
  intro t v
  have hv : v.Throughout Value.ShownAsWritten := by
    have hplain : ∀ u : Value, u.depth = 0 → u.ShownAsWritten →
        u.Throughout Value.ShownAsWritten := fun u hu => (Value.throughout_of_depth hu).mpr
    simp only [v, Value.throughout_map, Value.throughout_list, Value.throughout_set,
      List.forall_mem_cons, List.not_mem_nil, false_implies, implies_true, and_true]
    refine ⟨?_, hplain _ ?_ ?_, ?_, ⟨?_, hplain _ ?_ ?_, hplain _ ?_ ?_⟩, ?_⟩ <;>
      simp [Value.depth, Value.ShownAsWritten]
  have hliteral : t.literal v = .ok "\x7b'it''s': [\x7b0xca0e, 0x\x7d, \x7b\x7d]\x7d" := by rfl
  exact ⟨hv, hliteral, display_eq_literal hv hliteral⟩

end WireType

end CqlClient
