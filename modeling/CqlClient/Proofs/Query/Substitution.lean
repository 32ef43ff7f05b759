import CqlClient.Proofs.Query.Outcome
import CqlClient.Proofs.Query.Places

/-!
Inlining as a substitution. A text with placeholders of a name is a row of pieces with the
placeholder between them, and the new text is the row of the same pieces with the literal between
them.
-/

namespace CqlClient

open Segment Utf8

/-- The ranges of octets between pieces, if what stands between two of them takes `width` octets and
the first piece starts at `offset`. -/
def gaps (width offset : Nat) : List String → List (Nat × Nat)
  | piece :: next :: later =>
    let start := offset + (encode piece).length
    (start, start + width) :: gaps width (start + width) (next :: later)
  | _ => []

/-- Whether a text becomes another one by a new part in each of some ranges, in which the old part
stands: what is in front of the ranges, between them and behind them stays. -/
def Replaces (old new : String) (ranges : List (Nat × Nat)) (text text' : String) : Prop :=
  ∃ first later, ranges = gaps (encode old).length 0 (first :: later) ∧
    text = old.intercalate (first :: later) ∧ text' = new.intercalate (first :: later)

/-! ## Rows of pieces -/

theorem gaps_cons_append (width offset : Nat) (front piece : String) (later : List String) :
    gaps width offset ((front ++ piece) :: later) =
      gaps width (offset + (encode front).length) (piece :: later) := by
  cases later with
  | nil => rfl
  | cons next later => simp only [gaps, encode_append, List.length_append, Nat.add_assoc]

/-- The ranges say where each piece ends, so a text has its pieces in one way. -/
theorem pieces_eq_of_gaps_eq {old : String} {width offset : Nat} {piece piece' : String}
    {later later' : List String}
    (hranges : gaps width offset (piece :: later) = gaps width offset (piece' :: later'))
    (htext : old.intercalate (piece :: later) = old.intercalate (piece' :: later')) :
    piece :: later = piece' :: later' := by
  induction later generalizing offset piece piece' later' with
  | nil =>
      cases later' with
      | nil => exact congrArg ([·]) htext
      | cons next' later' => cases hranges
  | cons next later ih =>
      cases later' with
      | nil => cases hranges
      | cons next' later' =>
          simp only [gaps, List.cons.injEq, Prod.mk.injEq] at hranges
          obtain ⟨⟨hstart, hstop⟩, hranges⟩ := hranges
          rw [String.intercalate_cons_cons, String.intercalate_cons_cons, String.append_assoc,
            String.append_assoc] at htext
          have hoctets := congrArg encode htext
          rw [encode_append, encode_append, encode_append, encode_append] at hoctets
          obtain ⟨hpiece, hbehind⟩ := List.append_inj hoctets (Nat.add_left_cancel hstart)
          have hlater := encode_injective (List.append_cancel_left hbehind)
          rw [hstop] at hranges
          rw [encode_injective hpiece, ih hranges hlater]

theorem Replaces.unique {old new : String} {ranges : List (Nat × Nat)} {text a b : String}
    (ha : Replaces old new ranges text a) (hb : Replaces old new ranges text b) : a = b := by
  obtain ⟨piece, later, rfl, rfl, rfl⟩ := ha
  obtain ⟨piece', later', hranges, htext, rfl⟩ := hb
  rw [pieces_eq_of_gaps_eq hranges htext]

/-! ## The pieces between placeholders -/

/-- The octets of a placeholder. -/
def Placeholder.range (p : Placeholder) : Nat × Nat := (p.start, p.stop)

/-- The induction is on the parts: behind a placeholder of the name a new piece starts, and every
other part is put in front of the first piece. -/
theorem exists_pieces (name literal : String) (offset : Nat) (sign : Bool) (parts : List Segment) :
    ∃ first later,
      ((placeholdersFrom offset sign parts).filter (·.name == name)).map (·.range) =
        gaps (encode (":" ++ name)).length offset (first :: later) ∧
      String.ofList (parts.flatMap chars) = (":" ++ name).intercalate (first :: later) ∧
      String.ofList (parts.flatMap (written name.toList literal.toList)) =
        literal.intercalate (first :: later) := by
  induction parts generalizing offset sign with
  | nil => exact ⟨"", [], rfl, rfl, rfl⟩
  | cons s parts ih =>
      obtain ⟨first, later, hranges, hold, hnew⟩ :=
        ih (offset + utf8Length s.chars) (endsInSign sign s.chars)
      simp only [List.flatMap_cons, String.ofList_append, hold, hnew]
      rw [placeholdersFrom_cons, List.filter_append, List.map_append, hranges]
      by_cases hs : s = .placeholder name.toList
      · have hchars : String.ofList s.chars = ":" ++ name := by
          rw [hs, chars, String.ofList_cons, String.ofList_toList]
          rfl
        have hwidth : utf8Length s.chars = (encode (":" ++ name)).length := by
          rw [← hchars, encode_ofList, length_octets]
        have huse : ((placeholdersFrom offset sign [s]).filter (·.name == name)).map (·.range) =
            [(offset, offset + utf8Length s.chars)] := by
          rw [hs]
          simp [placeholdersFrom, Placeholder.range]
        refine ⟨"", first :: later, ?_, ?_, ?_⟩
        · rw [huse, hwidth]
          rfl
        · rw [hchars, String.intercalate_cons_cons, String.empty_append]
        · rw [written, if_pos hs, String.ofList_toList, String.intercalate_cons_cons,
            String.empty_append]
      · refine ⟨String.ofList s.chars ++ first, later, ?_, ?_, ?_⟩
        · rw [filter_placeholdersFrom_singleton _ _ hs, gaps_cons_append, encode_ofList,
            length_octets]
          rfl
        · rw [String.intercalate_cons_append]
        · rw [String.intercalate_cons_append, written, if_neg hs]

theorem replaces_splice (text name literal : String) :
    Replaces (":" ++ name) literal
      (((placeholders text).filter (·.name == name)).map (·.range)) text
      (Query.splice text name literal) := by
  obtain ⟨first, later, hranges, hold, hnew⟩ :=
    exists_pieces name literal 0 false (segments text)
  have hjoined : (segments text).flatMap chars = text.toList := flatMap_chars_ofChars _
  rw [hjoined, String.ofList_toList] at hold
  rw [← toList_splice, String.ofList_toList] at hnew
  exact ⟨first, later, hranges, hold, hnew⟩

namespace Query

theorem inline_eq_ok_iff_placed {query inlined : Query} {name : String} {param : TypedValue} :
    query.inline name param = .ok inlined ↔
      Placed query.text name ∧ WellPlaced query.text name param ∧
        ∃ literal, param.type.literal param.value = .ok literal ∧
          inlined = { query with text := splice query.text name literal } := by
  rw [inline_eq_ok, Ne, filter_placeholders_eq_nil_iff, not_not, ← Bool.not_eq_true,
    misplacesCounter_iff, not_not]
  tauto

/-- Inlining succeeds if the value has a literal, the name is among the placeholders, and no counter
stands where it is not added. The new query is then the old one with the literal in the place of
each placeholder of the name, and nothing else is. -/
theorem inline_iff_replaces (query : Query) (name : String) (param : TypedValue) :
    ((∃ inlined, query.inline name param = .ok inlined) ↔
      (∃ literal, param.type.literal param.value = .ok literal) ∧ Placed query.text name ∧
        WellPlaced query.text name param) ∧
    ∀ inlined, query.inline name param = .ok inlined ↔
      Placed query.text name ∧ WellPlaced query.text name param ∧
        ∃ literal, param.type.literal param.value = .ok literal ∧
          Replaces (":" ++ name) literal
            (((placeholders query.text).filter (·.name == name)).map (·.range))
            query.text inlined.text ∧
          inlined.params = query.params ∧ inlined.consistency = query.consistency := by
  refine ⟨?_, fun inlined => ?_⟩
  · simp only [inline_eq_ok_iff_placed]
    constructor
    · rintro ⟨inlined, hplaced, hwell, literal, hliteral, -⟩
      exact ⟨⟨literal, hliteral⟩, hplaced, hwell⟩
    · rintro ⟨⟨literal, hliteral⟩, hplaced, hwell⟩
      exact ⟨_, hplaced, hwell, literal, hliteral, rfl⟩
  · rw [inline_eq_ok_iff_placed]
    refine and_congr_right fun _ => and_congr_right fun _ => exists_congr fun literal =>
      and_congr_right fun _ => ⟨?_, ?_⟩
    · rintro rfl
      exact ⟨replaces_splice _ _ _, rfl, rfl⟩
    · rintro ⟨htext, hparams, hconsistency⟩
      cases inlined
      obtain rfl := htext.unique (replaces_splice _ _ _)
      obtain rfl := hparams
      obtain rfl := hconsistency
      rfl

/-- Two uses of a name next to each other, between characters of two octets each, are replaced; the
name in quotes and the longer name are not. -/
theorem inline_replaces_two_uses :
    let query := Query.of "é:p:pé ':p' :pq"
    let inlined := Query.of "é'it''s''it''s'é ':p' :pq"
    query.inline "p" ⟨.scalar .text, .text "it's"⟩ = .ok inlined ∧
      Replaces ":p" "'it''s'" [(2, 4), (4, 6)] query.text inlined.text := by
  intro query inlined
  have hplaced : Placed query.text "p" := ⟨⟨"p", 2, 4, false⟩, by decide +kernel, rfl⟩
  have hwell : WellPlaced query.text "p" ⟨.scalar .text, .text "it's"⟩ := fun h => by cases h
  have hranges : (((placeholders query.text).filter (·.name == "p")).map (·.range)) =
      [(2, 4), (4, 6)] := by
    decide +kernel
  have hreplaces : Replaces ":p" "'it''s'" [(2, 4), (4, 6)] query.text inlined.text :=
    ⟨"é", ["", "é ':p' :pq"], by decide +kernel, by decide +kernel, by decide +kernel⟩
  obtain ⟨-, hinlines⟩ := inline_iff_replaces query "p" ⟨.scalar .text, .text "it's"⟩
  refine ⟨(hinlines inlined).mpr ⟨hplaced, hwell, "'it''s'", by decide, ?_, rfl, rfl⟩, hreplaces⟩
  rw [hranges]
  exact hreplaces

end Query

end CqlClient
