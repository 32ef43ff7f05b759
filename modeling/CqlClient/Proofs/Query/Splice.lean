import CqlClient.Proofs.Query.Adjacent
import CqlClient.Proofs.Query.Inert
import CqlClient.Query.Basic
import Mathlib.Data.List.Infix

/-!
Literals in the place of placeholders. The other placeholders of a text stay, with their names and
signs, as long as no literal is taken in by the part in front of it: a hyphen and a negative number
are a comment, a colon and a word are a placeholder, and a placeholder takes in letters and digits.
-/

namespace CqlClient

open Segment

/-- The name of a placeholder and whether a sign stands before it. -/
def Placeholder.mark (p : Placeholder) : String × Bool := (p.name, p.increment)

/-- The placeholders of a text in order, apart from their places. -/
def marks (text : String) : List (String × Bool) := (placeholders text).map (·.mark)

/-- What stands for a part after placeholders of a name have made way for a literal. -/
def replaced (name literal : List Char) (s : Segment) : List Segment :=
  if s = .placeholder name then ofChars literal else [s]

/-- Whether somewhere the start of the literal is taken in by the part in front of it. -/
def Joins (parts : List Segment) (name literal : List Char) : Prop :=
  ∃ s, [s, .placeholder name] <:+: parts ∧ s ≠ .placeholder name ∧
    literal.head?.any s.absorbs = true

instance (parts : List Segment) (name literal : List Char) : Decidable (Joins parts name literal) :=
  decidable_of_iff
    (∃ s ∈ parts, [s, .placeholder name] <:+: parts ∧ s ≠ .placeholder name ∧
      literal.head?.any s.absorbs = true)
    ⟨fun ⟨s, _, h⟩ => ⟨s, h⟩, fun ⟨s, h⟩ => ⟨s, h.1.subset List.mem_cons_self, h⟩⟩

/-! ## Literals -/

/-- Whether there is a character in a text that is no blank of ASCII. -/
def IsVisible (cs : List Char) : Prop := ∃ c ∈ cs, Text.isAsciiBlank c = false

theorem endsInSign_of_isVisible {cs : List Char} (h : IsVisible cs) (a b : Bool) :
    endsInSign a cs = endsInSign b cs := by
  induction cs generalizing a b with
  | nil => obtain ⟨c, hc, -⟩ := h; cases hc
  | cons c cs ih =>
      show endsInSign _ cs = endsInSign _ cs
      by_cases hblank : Text.isAsciiBlank c = true
      · obtain ⟨d, hd, hvisible⟩ := h
        refine ih ⟨d, (List.mem_cons.mp hd).resolve_left ?_, hvisible⟩ _ _
        rintro rfl
        rw [hblank] at hvisible
        cases hvisible
      · simp [hblank]

theorem IsNumber.isVisible {cs : List Char} (h : IsNumber cs) : IsVisible cs := by
  obtain ⟨numerals, hne, hnumerals, hcs⟩ := h
  obtain ⟨c, rest, rfl⟩ := List.exists_cons_of_ne_nil hne
  refine ⟨c, ?_, (Inert.isPlain_of_isNumeral (hnumerals c List.mem_cons_self)).2⟩
  rcases hcs with rfl | rfl <;> simp

theorem isVisible_quoted (text : String) : IsVisible (quoted text).toList :=
  ⟨'\'', by simp [quoted, quotedChars], rfl⟩

theorem Uuid.isVisible_text (id : Uuid) : IsVisible id.text.toList :=
  ⟨'-', by simp [text], rfl⟩

theorem Scalar.isVisible_of_literal {s : Scalar} {v : Value} {literal : String}
    (h : s.literal v = .ok literal) : IsVisible literal.toList := by
  fun_cases Scalar.literal s v <;>
    simp only [Scalar.literal, Except.ok.injEq, reduceCtorEq] at h
  case case10 b =>
    subst h
    cases b <;> exact ⟨'e', by decide, rfl⟩
  case case11 bytes =>
    subst h
    exact ⟨'0', by simp, rfl⟩
  case case12 | case13 =>
    rw [← eq_of_literal_ascii h]
    exact isVisible_quoted _
  all_goals subst h
  case case8 | case9 => exact (Ieee.Format.isNumber_text _ _).isVisible
  case case14 | case15 => exact isVisible_quoted _
  case case17 | case18 => exact Uuid.isVisible_text _
  all_goals exact (Integer.isNumber_text _).isVisible

theorem WireType.isVisible_of_literal {t : WireType} {v : Value} {text : String}
    (h : t.literal v = .ok text) : IsVisible text.toList := by
  rcases literal_eq_ok.mp h with ⟨-, rfl⟩ | hrenders
  · exact ⟨'n', by decide, rfl⟩
  cases t with
  | scalar s => exact Scalar.isVisible_of_literal hrenders
  | list e =>
      obtain ⟨-, -, -, -, rfl⟩ := renders_list_iff.mp hrenders
      exact ⟨'[', by simp, rfl⟩
  | set e =>
      obtain ⟨-, -, -, -, rfl⟩ := renders_set_iff.mp hrenders
      exact ⟨'\x7b', by simp, rfl⟩
  | map k w =>
      obtain ⟨-, -, -, -, rfl⟩ := renders_map_iff.mp hrenders
      exact ⟨'\x7b', by simp, rfl⟩

/-! ## Parts with placeholders replaced -/

section

variable {name literal : List Char}

/-- The characters of a part, or the literal that stands for it. -/
def written (name literal : List Char) (s : Segment) : List Char :=
  if s = .placeholder name then literal else s.chars

theorem toList_splice (text name literal : String) :
    (Query.splice text name literal).toList =
      (segments text).flatMap (written name.toList literal.toList) := by
  rw [Query.splice, String.toList_ofList]
  congr 1
  funext s
  cases s with
  | placeholder n =>
      have hname : String.ofList n = name ↔ n = name.toList := by
        rw [← String.toList_inj, String.toList_ofList]
      simp only [written, hname, Segment.placeholder.injEq]
  | _ => rfl

theorem joins_cons {s : Segment} {parts : List Segment} :
    Joins (s :: parts) name literal ↔
      (s ≠ .placeholder name ∧ parts.head? = some (.placeholder name) ∧
        literal.head?.any s.absorbs = true) ∨ Joins parts name literal := by
  have hfirst : ∀ t, [t, .placeholder name] <+: s :: parts ↔
      t = s ∧ parts.head? = some (.placeholder name) := by
    intro t
    rw [List.cons_prefix_cons]
    cases parts <;> simp [List.cons_prefix_cons, eq_comm]
  constructor
  · rintro ⟨t, hinfix, hother, htaken⟩
    rcases List.infix_cons_iff.mp hinfix with hprefix | hlater
    · obtain ⟨rfl, hnext⟩ := (hfirst t).mp hprefix
      exact .inl ⟨hother, hnext, htaken⟩
    · exact .inr ⟨t, hlater, hother, htaken⟩
  · rintro (⟨hother, hnext, htaken⟩ | ⟨t, hinfix, hother, htaken⟩)
    · exact ⟨s, List.infix_cons_iff.mpr (.inl ((hfirst s).mpr ⟨rfl, hnext⟩)), hother, htaken⟩
    · exact ⟨t, List.infix_cons_iff.mpr (.inr hinfix), hother, htaken⟩

/-- A part takes in what is written behind it only where a literal is, for nothing else has
changed. -/
theorem head?_any_absorbs_written (name : List Char) {s : Segment} {parts : List Segment}
    (hstand : Stand (s :: parts)) (hliteral : literal ≠ []) :
    (parts.flatMap (written name literal)).head?.any s.absorbs = true ↔
      parts.head? = some (.placeholder name) ∧ literal.head?.any s.absorbs = true := by
  obtain ⟨-, hstop, hlater⟩ := hstand
  cases parts with
  | nil => simp
  | cons t parts =>
      by_cases ht : t = .placeholder name
      · rw [List.flatMap_cons, written, if_pos ht, List.head?_append_of_ne_nil _ hliteral]
        simp [ht]
      · rw [List.flatMap_cons, List.head?_append_of_ne_nil _ (chars_ne_nil hlater.1)] at hstop
        have hhead : ((t :: parts).flatMap (written name literal)).head? = t.chars.head? := by
          rw [List.flatMap_cons, written, if_neg ht,
            List.head?_append_of_ne_nil _ (chars_ne_nil hlater.1)]
        rw [hhead, hstop]
        simp [ht]

/-- The parts of the new text are the old ones with the parts of the literal in the place of
placeholders, unless the literal is taken in somewhere. -/
theorem ofChars_written_iff {parts : List Segment} (hstand : Stand parts) (hinert : Inert literal)
    (hliteral : literal ≠ []) :
    ofChars (parts.flatMap (written name literal)) = parts.flatMap (replaced name literal) ↔
      ¬ Joins parts name literal := by
  induction parts with
  | nil => simp [Joins, ofChars]
  | cons s parts ih =>
      have htail := ih hstand.2.2
      rw [joins_cons, List.flatMap_cons, List.flatMap_cons]
      by_cases hs : s = .placeholder name
      · rw [written, replaced, if_pos hs, if_pos hs, (hinert.segments _).1, List.append_right_inj,
          htail]
        simp [hs]
      rw [written, replaced, if_neg hs, if_neg hs, List.singleton_append]
      have hjoin := head?_any_absorbs_written name hstand hliteral
      by_cases htaken : (parts.flatMap (written name literal)).head?.any s.absorbs = true
      · refine iff_of_false (fun h => ?_) (not_not_intro (.inl ⟨hs, hjoin.mp htaken⟩))
        rw [head?_any_absorbs_of_ofChars hstand.1 h] at htaken
        cases htaken
      · rw [ofChars_chars_append hstand.1 (eq_false_of_ne_true htaken), List.cons.injEq, htail,
          or_iff_right fun h => htaken (hjoin.mpr h.2)]
        exact and_iff_right rfl

/-! ## The placeholders that are left -/

theorem isPlain_of_isNameRest {c : Char} (h : isNameRest c = true) : Inert.isPlain c = true := by
  have hne : ∀ d, isNameRest d = false → c ≠ d := by
    rintro d hd rfl
    rw [h] at hd
    cases hd
  simp [Inert.isPlain, isQuote, hne _ (by decide : isNameRest '\'' = false),
    hne _ (by decide : isNameRest '"' = false), hne _ (by decide : isNameRest '-' = false),
    hne _ (by decide : isNameRest '+' = false), hne _ (by decide : isNameRest ':' = false)]

/-- No sign counts for what stands after a placeholder. -/
theorem endsInSign_placeholder (sign : Bool) (h : (placeholder name).Formed) :
    endsInSign sign (placeholder name).chars = false := by
  have hname : Inert name := .of_plain fun c hc => isPlain_of_isNameRest (h.2 c hc)
  exact hname.endsInSign

/-- No placeholder is left of the name, and the others keep their signs, as neither a placeholder
nor a literal makes what follows it follow a sign. -/
theorem map_mark_replaced {parts : List Segment} (hstand : Stand parts) (hinert : Inert literal)
    (hvisible : IsVisible literal) (offset offset' : Nat) (sign : Bool) :
    (placeholdersFrom offset sign (parts.flatMap (replaced name literal))).map (·.mark) =
      ((placeholdersFrom offset' sign parts).map (·.mark)).filter
        (·.1 != String.ofList name) := by
  induction parts generalizing offset offset' sign with
  | nil => rfl
  | cons s parts ih =>
      have htail := fun offset offset' sign => ih hstand.2.2 offset offset' sign
      rw [List.flatMap_cons, replaced]
      by_cases hs : s = .placeholder name
      · subst hs
        have hnone : placeholdersFrom offset sign (ofChars literal) = [] := by
          refine placeholdersFrom_eq_nil fun s hs name => ?_
          rintro rfl
          exact (hinert.segments []).2 _ hs
        have hsign : endsInSign sign literal = false :=
          (endsInSign_of_isVisible hvisible sign false).trans hinert.endsInSign
        rw [if_pos rfl, placeholdersFrom_append, hnone, flatMap_chars_ofChars, hsign,
          List.nil_append, placeholdersFrom, endsInSign_placeholder sign hstand.1, List.map_cons,
          List.filter_cons_of_neg (by simp [Placeholder.mark])]
        exact htail _ _ _
      · rw [if_neg hs, List.singleton_append]
        cases s with
        | placeholder n =>
            have hn : String.ofList n ≠ String.ofList name :=
              fun h => hs (congrArg _ (String.ofList_injective h))
            rw [placeholdersFrom, placeholdersFrom, List.map_cons, List.map_cons,
              List.filter_cons_of_pos (by simpa [Placeholder.mark] using hn),
              htail _ (offset' + utf8Length (placeholder n).chars)]
            rfl
        | _ => exact htail _ _ _

/-! ## Placeholders that have changed -/

/-- How many characters belong to placeholders. -/
def placeholderLength (parts : List Segment) : Nat :=
  (parts.map fun s => match s with
    | .placeholder _ => s.chars.length
    | _ => 0).sum

theorem placeholderLength_cons (s : Segment) (parts : List Segment) :
    placeholderLength (s :: parts) = placeholderLength [s] + placeholderLength parts := by
  simp [placeholderLength]

theorem placeholderLength_append (a b : List Segment) :
    placeholderLength (a ++ b) = placeholderLength a + placeholderLength b := by
  simp [placeholderLength]

theorem placeholderLength_eq_zero {parts : List Segment} (h : ∀ s ∈ parts, s.IsInert) :
    placeholderLength parts = 0 := by
  rw [placeholderLength, List.sum_eq_zero_iff_forall_eq_nat]
  rintro n hn
  obtain ⟨s, hs, rfl⟩ := List.mem_map.mp hn
  cases s with
  | placeholder name => exact (h _ hs).elim
  | _ => rfl

theorem sum_mark_placeholdersFrom (offset : Nat) (sign : Bool) (parts : List Segment) :
    (((placeholdersFrom offset sign parts).map (·.mark)).map (·.1.length + 1)).sum =
      placeholderLength parts := by
  induction parts generalizing offset sign with
  | nil => rfl
  | cons s parts ih =>
      rw [placeholderLength_cons, ← ih (offset + utf8Length s.chars) (endsInSign sign s.chars)]
      cases s <;> simp [placeholdersFrom, placeholderLength, Placeholder.mark, chars]

/-- Letters, digits and underscores in front of a text hold no placeholder and hide none. -/
theorem placeholderLength_dropWhile (cs : List Char) :
    placeholderLength (ofChars (cs.dropWhile isNameRest)) = placeholderLength (ofChars cs) := by
  have hword : Inert (cs.takeWhile isNameRest) :=
    .of_plain fun c hc => isPlain_of_isNameRest (List.mem_takeWhile_imp hc)
  conv_rhs => rw [← List.takeWhile_append_dropWhile (p := isNameRest) (l := cs)]
  obtain ⟨hsplit, hparts⟩ := hword.segments (cs.dropWhile isNameRest)
  rw [hsplit, placeholderLength_append, placeholderLength_eq_zero hparts, Nat.zero_add]

/-- What stands in front of a placeholder and takes in a character other than a hyphen is a colon,
maybe with a name. -/
theorem chars_of_absorbs {s : Segment} {parts : List Segment} {c : Char}
    (hstand : Stand (s :: .placeholder name :: parts)) (hc : s.absorbs c = true)
    (hhyphen : c ≠ '-') :
    ∃ word, s.chars = ':' :: word ∧ (∀ d ∈ word, isNameRest d = true) ∧
      (word ++ [c]).head?.any isNameStart = true ∧ isNameRest c = true ∧
      placeholderLength [s] ≤ word.length + 1 := by
  obtain ⟨hformed, hstop, -⟩ := hstand
  cases s with
  | quoted run => exact absurd (hc.symm.trans hstop) (by simp)
  | comment run => exact absurd hstop (by simp [absorbs, chars])
  | placeholder word =>
      refine ⟨word, rfl, hformed.2, ?_, hc, by simp [placeholderLength, chars]⟩
      have hstart := hformed.1
      cases word with
      | nil => cases hstart
      | cons d word => exact hstart
  | other d =>
      obtain ⟨rfl, hstart⟩ : d = ':' ∧ isNameStart c = true := by
        simpa [absorbs, hhyphen] using hc
      have hrest := isNameRest_of_isNameStart hstart
      exact ⟨[], rfl, by simp, hstart, hrest, by simp [placeholderLength]⟩

/-- A colon and a word make a placeholder together with the word behind them. -/
theorem placeholderLength_colon_word {word : List Char} {c : Char}
    (hword : ∀ d ∈ word, isNameRest d = true) (hstart : (word ++ [c]).head?.any isNameStart = true)
    (hc : isNameRest c = true) (rest : List Char) :
    word.length + 1 + placeholderLength (ofChars (c :: rest)) <
      placeholderLength (ofChars (':' :: (word ++ c :: rest))) := by
  have hhead : (word ++ c :: rest).head?.any isNameStart = true := by
    cases word with
    | nil => exact hstart
    | cons d word => exact hstart
  have hnext : next ':' (word ++ c :: rest) =
      (.placeholder (word ++ c :: rest.takeWhile isNameRest),
        (c :: rest).dropWhile isNameRest) := by
    rw [next, if_neg (by decide), if_neg (by simp), if_pos ⟨rfl, hhead⟩,
      List.takeWhile_append_of_pos hword, List.dropWhile_append_of_pos hword,
      List.takeWhile_cons_of_pos hc]
  rw [ofChars_cons ':', hnext, placeholderLength_cons, placeholderLength_dropWhile]
  simp only [placeholderLength, List.map_cons, List.map_nil, List.sum_cons, List.sum_nil, chars,
    List.length_cons, List.length_append]
  omega

/-- Where a literal is taken in by a placeholder or a colon, more characters belong to placeholders
than before. -/
theorem placeholderLength_written {parts : List Segment} (hstand : Stand parts)
    (hinert : Inert literal) (hliteral : literal ≠ []) (hhyphen : literal.head? ≠ some '-') :
    placeholderLength (parts.flatMap (replaced name literal)) ≤
        placeholderLength (ofChars (parts.flatMap (written name literal))) ∧
      (Joins parts name literal →
        placeholderLength (parts.flatMap (replaced name literal)) <
          placeholderLength (ofChars (parts.flatMap (written name literal)))) := by
  induction parts with
  | nil => simp [Joins, ofChars]
  | cons s parts ih =>
      have htail := ih hstand.2.2
      rw [joins_cons, List.flatMap_cons, List.flatMap_cons]
      by_cases hs : s = .placeholder name
      · rw [written, replaced, if_pos hs, if_pos hs, (hinert.segments _).1,
          placeholderLength_append, placeholderLength_append]
        simpa [hs] using htail
      rw [written, replaced, if_neg hs, if_neg hs, List.singleton_append, placeholderLength_cons]
      have hjoin := head?_any_absorbs_written name hstand hliteral
      by_cases htaken : (parts.flatMap (written name literal)).head?.any s.absorbs = true
      · obtain ⟨hnext, habsorbs⟩ := hjoin.mp htaken
        obtain ⟨parts, rfl⟩ := List.head?_eq_some_iff.mp hnext
        obtain ⟨c, rest, rfl⟩ := List.exists_cons_of_ne_nil hliteral
        obtain ⟨word, hchars, hword, hstart, hc, hlength⟩ :=
          chars_of_absorbs hstand habsorbs (by simpa using hhyphen)
        set later := parts.flatMap (written name (c :: rest))
        have hspliced : (Segment.placeholder name :: parts).flatMap (written name (c :: rest)) =
            c :: (rest ++ later) := by
          rw [List.flatMap_cons, written, if_pos rfl, List.cons_append]
        have hlonger := placeholderLength_colon_word hword hstart hc (rest ++ later)
        rw [← hspliced] at hlonger
        have hless := Nat.lt_of_le_of_lt (Nat.add_le_add hlength htail.1) hlonger
        rw [hchars, List.cons_append]
        exact ⟨hless.le, fun _ => hless⟩
      · rw [ofChars_chars_append hstand.1 (eq_false_of_ne_true htaken), placeholderLength_cons s,
          or_iff_right fun h => htaken (hjoin.mpr h.2)]
        exact ⟨Nat.add_le_add_left htail.1 _, fun h => Nat.add_lt_add_left (htail.2 h) _⟩

end

namespace Query

theorem inline_eq_ok {query inlined : Query} {name : String} {param : TypedValue} :
    query.inline name param = .ok inlined ↔
      ∃ literal, param.type.literal param.value = .ok literal ∧
        (placeholders query.text).filter (·.name == name) ≠ [] ∧
        misplacesCounter param.type ((placeholders query.text).filter (·.name == name)) = false ∧
        inlined = { query with text := splice query.text name literal } := by
  rw [inline, bind_eq_ok]
  refine exists_congr fun literal => and_congr_right fun _ => ?_
  dsimp only
  split
  · next hnone => exact iff_of_false nofun fun h => h.1 (List.isEmpty_iff.mp hnone)
  split
  · next hcounter => exact iff_of_false nofun fun h => by simp [hcounter] at h
  · next hsome hcounter =>
    have hplaced := eq_false_of_ne_true hcounter
    rw [pure_eq_ok, Except.ok.injEq, and_iff_right (mt List.isEmpty_iff.mpr hsome),
      and_iff_right hplaced, eq_comm]

/-- A literal in the place of a placeholder leaves the other placeholders alone, with their names
and signs, if no part takes in the start of the literal; and only then the rest of the text keeps
its parts. If the literal does not start with a hyphen, which could make a comment in which nothing
else changes, only then the other placeholders are left alone. -/
theorem marks_inline_iff {query inlined : Query} {name : String} {param : TypedValue}
    (h : query.inline name param = .ok inlined) :
    ∃ literal, param.type.literal param.value = .ok literal ∧
      let joins := Joins (segments query.text) name.toList literal.toList
      let left := (marks query.text).filter (·.1 != name)
      (¬ joins → marks inlined.text = left) ∧
      (literal.toList.head? ≠ some '-' → (marks inlined.text = left ↔ ¬ joins)) ∧
      (segments inlined.text =
        (segments query.text).flatMap (replaced name.toList literal.toList) ↔ ¬ joins) := by
  obtain ⟨literal, hliteral, -, -, rfl⟩ := inline_eq_ok.mp h
  have hinert := WireType.inert_of_literal hliteral
  have hvisible := WireType.isVisible_of_literal hliteral
  have hne : literal.toList ≠ [] := by
    obtain ⟨c, hc, -⟩ := hvisible
    exact List.ne_nil_of_mem hc
  have hstand : Stand (segments query.text) := stand_ofChars _
  have hparts : segments (splice query.text name literal) =
      (segments query.text).flatMap (replaced name.toList literal.toList) ↔
        ¬ Joins (segments query.text) name.toList literal.toList := by
    rw [segments, toList_splice]
    exact ofChars_written_iff hstand hinert hne
  have hleft : (placeholdersFrom 0 false ((segments query.text).flatMap
      (replaced name.toList literal.toList))).map (·.mark) =
      (marks query.text).filter (·.1 != name) := by
    rw [map_mark_replaced hstand hinert hvisible 0 0 false, String.ofList_toList]
    rfl
  have hkept : ¬ Joins (segments query.text) name.toList literal.toList →
      marks (splice query.text name literal) = (marks query.text).filter (·.1 != name) := by
    intro hfree
    rw [← hleft, ← hparts.mpr hfree]
    rfl
  refine ⟨literal, hliteral, hkept, fun hhyphen => ⟨fun hsame hjoins => ?_, hkept⟩, hparts⟩
  have hlonger := (placeholderLength_written hstand hinert hne hhyphen).2 hjoins
  rw [← toList_splice] at hlonger
  have hlength := congrArg (fun marks => (marks.map (·.1.length + 1)).sum) (hsame.trans hleft.symm)
  simp only [marks, placeholders, sum_mark_placeholdersFrom] at hlength
  exact absurd hlength hlonger.ne'

/-- With a blank after the hyphen in the text, a negative number leaves the rest alone. -/
theorem marks_inline_after_blank :
    let query := Query.of "UPDATE t SET a = a - :p, b = b -:q WHERE k = :k"
    ∃ inlined, query.inline "p" ⟨.scalar .int, .int (-1)⟩ = .ok inlined ∧
      marks inlined.text = [("q", true), ("k", false)] := by
  intro query
  have h : query.inline "p" ⟨.scalar .int, .int (-1)⟩ =
      .ok { query with text := splice query.text "p" "-1" } :=
    inline_eq_ok.mpr ⟨"-1", rfl, by decide +kernel, rfl, rfl⟩
  refine ⟨_, h, ?_⟩
  obtain ⟨literal, hliteral, hkept, -⟩ := marks_inline_iff h
  obtain rfl : "-1" = literal := Except.ok.inj hliteral
  rw [hkept (by decide +kernel)]
  decide +kernel

/-- A hyphen in the text and a negative number are a comment, in which another placeholder is
lost. -/
theorem marks_inline_after_hyphen :
    let query := Query.of "UPDATE t SET a = a -:p WHERE k = :k"
    ∃ inlined, query.inline "p" ⟨.scalar .int, .int (-1)⟩ = .ok inlined ∧
      inlined.text = "UPDATE t SET a = a --1 WHERE k = :k" ∧
      (marks query.text).filter (·.1 != "p") = [("k", false)] ∧ marks inlined.text = [] := by
  intro query
  refine ⟨{ query with text := splice query.text "p" "-1" },
    inline_eq_ok.mpr ⟨"-1", rfl, by decide +kernel, rfl, rfl⟩, ?_⟩
  decide +kernel

end Query

end CqlClient
