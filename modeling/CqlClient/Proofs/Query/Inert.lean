import CqlClient.Proofs.Cell.Rendering
import CqlClient.Proofs.Number.Numerals
import CqlClient.Proofs.Query.Segment

/-!
Literals inside the text of a query. Whatever stands in a value, its literal is made of single
characters and of quoted runs with both their quotes, and it ends in no sign. So the text after it
is read as if it stood alone.
-/

namespace CqlClient

/-- Parts that bind nothing and hide nothing after them: a single character, or a quoted run that
ends in the quote it starts with. -/
def Segment.IsInert : Segment → Prop
  | .other _ => True
  | .quoted cs => ∃ quote body, isQuote quote = true ∧ quote ∉ body ∧ cs = quote :: body ++ [quote]
  | _ => False

open Segment

/-- Characters that are inert parts of any text that starts with them, and after which no sign
counts that did not count before. -/
structure Inert (cs : List Char) : Prop where
  parts : ∃ parts, (∀ s ∈ parts, s.IsInert) ∧ ∀ rest, ofChars (cs ++ rest) = parts ++ ofChars rest
  endsInSign : endsInSign false cs = false

namespace Inert

variable {cs other : List Char}

theorem nil : Inert [] := ⟨⟨[], by simp, fun _ => rfl⟩, rfl⟩

theorem append (h : Inert cs) (hother : Inert other) : Inert (cs ++ other) := by
  obtain ⟨parts, hparts, hsplit⟩ := h.parts
  obtain ⟨later, hlater, hsplit'⟩ := hother.parts
  refine ⟨⟨parts ++ later, List.forall_mem_append.mpr ⟨hparts, hlater⟩, fun rest => ?_⟩, ?_⟩
  · rw [List.append_assoc, hsplit, hsplit', List.append_assoc]
  · rw [endsInSign_append, h.endsInSign, hother.endsInSign]

theorem segments (h : Inert cs) (rest : List Char) :
    ofChars (cs ++ rest) = ofChars cs ++ ofChars rest ∧ ∀ s ∈ ofChars cs, s.IsInert := by
  obtain ⟨parts, hparts, hsplit⟩ := h.parts
  have halone : ofChars cs = parts := by
    have := hsplit []
    rwa [List.append_nil, ofChars, List.append_nil] at this
  rw [halone]
  exact ⟨hsplit rest, hparts⟩

/-- What stands after inert characters has the placeholders that it has alone. -/
theorem placeholders_append (h : Inert cs) (rest : List Char) :
    placeholdersFrom 0 false (ofChars (cs ++ rest)) =
      (placeholdersFrom 0 false (ofChars rest)).map (·.shift (utf8Length cs)) := by
  obtain ⟨hsplit, hparts⟩ := h.segments rest
  have hnone : placeholdersFrom 0 false (ofChars cs) = [] := by
    refine placeholdersFrom_eq_nil fun s hs name => ?_
    rintro rfl
    exact hparts _ hs
  rw [hsplit, placeholdersFrom_append, hnone, flatMap_chars_ofChars, h.endsInSign, List.nil_append,
    placeholdersFrom_shift]

/-! ## Bare characters -/

/-- Whether a character neither starts a part of several characters nor is a sign. -/
def isPlain (c : Char) : Bool := !(isQuote c || c == '-' || c == '+' || c == ':')

theorem singleton {c : Char} (h : isPlain c = true) : Inert [c] := by
  simp only [isPlain, Bool.not_eq_true', Bool.or_eq_false_iff, beq_eq_false_iff_ne] at h
  obtain ⟨⟨⟨hquote, hminus⟩, hplus⟩, hcolon⟩ := h
  refine ⟨⟨[.other c], by simp [IsInert], fun rest => ?_⟩, ?_⟩
  · exact ofChars_cons_other hquote (absurd · hminus) (absurd · hcolon)
  · simp [CqlClient.endsInSign, hminus, hplus]

theorem of_plain (h : ∀ c ∈ cs, isPlain c = true) : Inert cs := by
  induction cs with
  | nil => exact nil
  | cons c cs ih =>
      rw [List.forall_mem_cons] at h
      exact (singleton h.1).append (ih h.2)

theorem isPlain_of_isNumeral {c : Char} (h : isNumeral c = true) :
    isPlain c = true ∧ Text.isAsciiBlank c = false := by
  have hne : ∀ d, isNumeral d = false → c ≠ d := by
    rintro d hd rfl
    rw [h] at hd
    cases hd
  simp [isPlain, isQuote, Text.isAsciiBlank, hne _ (by decide : isNumeral '\'' = false),
    hne _ (by decide : isNumeral '"' = false), hne _ (by decide : isNumeral '-' = false),
    hne _ (by decide : isNumeral '+' = false), hne _ (by decide : isNumeral ':' = false),
    hne _ (by decide : isNumeral ' ' = false), hne _ (by decide : isNumeral '\t' = false),
    hne _ (by decide : isNumeral '\n' = false), hne _ (by decide : isNumeral '\x0c' = false),
    hne _ (by decide : isNumeral '\r' = false)]

theorem of_numerals (h : ∀ c ∈ cs, isNumeral c = true) : Inert cs :=
  of_plain fun c hc => (isPlain_of_isNumeral (h c hc)).1

/-- A hyphen in front of a numeral is no comment, and no sign for what follows the numeral. -/
theorem hyphen (hne : cs ≠ []) (h : ∀ c ∈ cs, isNumeral c = true) : Inert ('-' :: cs) := by
  cases cs with
  | nil => exact absurd rfl hne
  | cons c cs =>
      rw [List.forall_mem_cons] at h
      obtain ⟨hplain, hblank⟩ := isPlain_of_isNumeral h.1
      have hminus : c ≠ '-' := by
        rintro rfl
        cases hplain
      obtain ⟨parts, hparts, hsplit⟩ := (singleton hplain).parts
      have hfirst : Inert ['-', c] := by
        refine ⟨⟨.other '-' :: parts, ?_, fun rest => ?_⟩, ?_⟩
        · exact List.forall_mem_cons.mpr ⟨trivial, hparts⟩
        · rw [List.cons_append, ofChars_cons_other rfl (by simp [hminus]) (by simp), hsplit]
          rfl
        · have hsign := (singleton hplain).endsInSign
          simp only [CqlClient.endsInSign, List.foldl_cons, List.foldl_nil, hblank] at hsign ⊢
          exact hsign
      exact hfirst.append (of_numerals h.2)

/-- The colon of an entry of a map starts no name, as a blank follows it. -/
theorem colon : Inert [':', ' '] := by
  refine ⟨⟨[.other ':', .other ' '], by simp [IsInert], fun rest => ?_⟩, rfl⟩
  rw [List.cons_append, ofChars_cons_other rfl (by simp) (fun _ => rfl)]
  exact congrArg _ (ofChars_cons_other rfl (by simp) (by simp))

/-! ## Quoted runs -/

/-- A quote is no sign. -/
theorem endsInSign_quotedRun {quote : Char} (hquote : isQuote quote = true) (body : List Char)
    (sign : Bool) : CqlClient.endsInSign sign (quote :: body ++ [quote]) = false := by
  have hlast : quote ≠ '+' ∧ quote ≠ '-' ∧ Text.isAsciiBlank quote = false := by
    simp only [isQuote, Bool.or_eq_true, beq_iff_eq] at hquote
    rcases hquote with rfl | rfl <;> decide
  rw [endsInSign_append]
  simp [CqlClient.endsInSign, hlast]

theorem quotedRun {quote : Char} {body : List Char} (hquote : isQuote quote = true)
    (hbody : quote ∉ body) : Inert (quote :: body ++ [quote]) := by
  refine ⟨⟨[.quoted (quote :: body ++ [quote])], ?_, fun rest => ?_⟩, ?_⟩
  · exact List.forall_mem_singleton.mpr ⟨quote, body, hquote, hbody, rfl⟩
  · have hrun := ofChars_quoted hquote hbody rest
    simpa using hrun
  · exact endsInSign_quotedRun hquote body false

/-- A doubled quote ends one run and starts the next. -/
theorem quotedChars (content : List Char) : Inert (CqlClient.quotedChars content) := by
  -- The induction is on what is still to be written of the run that stands open.
  have hopen : ∀ body, '\'' ∉ body →
      Inert ('\'' :: body ++
        (content.flatMap (fun c => if c = '\'' then ['\'', '\''] else [c]) ++ ['\''])) := by
    induction content with
    | nil => exact fun body hbody => quotedRun rfl hbody
    | cons c content ih =>
        intro body hbody
        by_cases hc : c = '\''
        · have hnext := (quotedRun rfl hbody).append (ih [] List.not_mem_nil)
          simpa [hc] using hnext
        · have hlonger := ih (body ++ [c]) (by simp [hbody, Ne.symm hc])
          simpa [hc] using hlonger
  exact hopen [] List.not_mem_nil

theorem quoted (text : String) : Inert (CqlClient.quoted text).toList := by
  rw [CqlClient.quoted, String.toList_ofList]
  exact quotedChars text.toList

/-! ## Numbers, identifiers and rows -/

theorem of_number (h : IsNumber cs) : Inert cs := by
  obtain ⟨numerals, hne, hnumerals, rfl | rfl⟩ := h
  · exact of_numerals hnumerals
  · exact hyphen hne hnumerals

/-- The hyphens of an identifier stand one by one, each in front of a group. -/
theorem uuid (id : Uuid) : Inert id.text.toList := by
  have hdigits : ∀ start count, ∀ c ∈ ((id.octets.drop start).take count).flatMap Hex.ofOctet,
      isNumeral c = true := fun start count c => Hex.isNumeral_of_mem_flatMap
  have hgroup : ∀ start count, start < 16 → 0 < count →
      Inert ('-' :: ((id.octets.drop start).take count).flatMap Hex.ofOctet) := by
    intro start count hstart hcount
    refine hyphen (Hex.flatMap_ofOctet_ne_nil (List.ne_nil_of_length_pos ?_)) (hdigits start count)
    rw [List.length_take, List.length_drop, id.length_octets]
    omega
  rw [Uuid.text, String.toList_ofList]
  have hwhole := ((((of_numerals (hdigits 0 4)).append (hgroup 4 2 (by omega) (by omega))).append
    (hgroup 6 2 (by omega) (by omega))).append (hgroup 8 2 (by omega) (by omega))).append
    (hgroup 10 6 (by omega) (by omega))
  simpa using hwhole

theorem intercalate {separator : List Char} {items : List (List Char)} (h : Inert separator)
    (hitems : ∀ item ∈ items, Inert item) : Inert (separator.intercalate items) := by
  induction items with
  | nil => exact nil
  | cons item items ih =>
      rw [List.forall_mem_cons] at hitems
      cases items with
      | nil => simpa using hitems.1
      | cons next items =>
          rw [List.intercalate_cons_cons]
          exact (hitems.1.append h).append (ih hitems.2)

end Inert

/-! ## Literals -/

theorem Scalar.inert_of_literal {s : Scalar} {v : Value} {literal : String}
    (h : s.literal v = .ok literal) : Inert literal.toList := by
  fun_cases Scalar.literal s v <;>
    simp only [Scalar.literal, Except.ok.injEq, reduceCtorEq] at h
  case case10 b =>
    subst h
    cases b <;> exact .of_numerals (List.all_eq_true.mp (by decide))
  case case11 bytes =>
    subst h
    simp only [String.toList_append, Hex.encode, String.toList_ofList]
    have hmark : Inert "0x".toList := .of_numerals (List.all_eq_true.mp (by decide))
    exact hmark.append (.of_numerals fun c hc => Hex.isNumeral_of_mem_flatMap hc)
  case case12 | case13 =>
    rw [← eq_of_literal_ascii h]
    exact .quoted _
  -- Numbers, identifiers and quoted texts are left.
  all_goals subst h
  case case8 | case9 => exact .of_number (Ieee.Format.isNumber_text _ _)
  case case14 | case15 => exact .quoted _
  case case17 | case18 => exact .uuid _
  all_goals exact .of_number (Integer.isNumber_text _)

/-- Texts of items with a comma and a blank between them. -/
theorem inert_row {α : Type} {Has : α → String → Prop} {items : List α} {texts : List String}
    (hitem : ∀ item text, Has item text → Inert text.toList)
    (h : List.Forall₂ Has items texts) : Inert (", ".intercalate texts).toList := by
  have hinert : ∀ text ∈ texts, Inert text.toList := by
    intro text htext
    obtain ⟨item, -, hhas⟩ := exists_of_mem_right h text htext
    exact hitem item text hhas
  rw [String.toList_intercalate]
  have hseparator : Inert ", ".toList := .of_plain (List.all_eq_true.mp (by decide))
  exact hseparator.intercalate (List.forall_mem_map.mpr hinert)

theorem inert_bracketed {first last : String} {text : String}
    (hfirst : first.toList.all Inert.isPlain = true)
    (hlast : last.toList.all Inert.isPlain = true) (h : Inert text.toList) :
    Inert (first ++ text ++ last).toList := by
  rw [List.all_eq_true] at hfirst hlast
  rw [String.toList_append, String.toList_append]
  exact ((Inert.of_plain hfirst).append h).append (.of_plain hlast)

namespace WireType

/-- The induction is on the type; the literals of elements are those of the element type. -/
theorem inert_of_renders {t : WireType} {v : Value} {text : String} (h : t.Renders v text) :
    Inert text.toList := by
  induction t generalizing v text with
  | scalar s => exact Scalar.inert_of_literal h
  | list e ih =>
      obtain ⟨items, texts, rfl, htexts, rfl⟩ := renders_list_iff.mp h
      exact inert_bracketed (by decide) (by decide) (inert_row (fun _ _ => ih) htexts)
  | set e ih =>
      obtain ⟨items, texts, rfl, htexts, rfl⟩ := renders_set_iff.mp h
      exact inert_bracketed (by decide) (by decide) (inert_row (fun _ _ => ih) htexts)
  | map k w ihk ihw =>
      obtain ⟨entries, texts, rfl, htexts, rfl⟩ := renders_map_iff.mp h
      refine inert_bracketed (by decide) (by decide) (inert_row ?_ htexts)
      rintro entry _ ⟨key, value, hkey, hvalue, rfl⟩
      simp only [String.toList_append]
      exact ((ihk hkey).append .colon).append (ihw hvalue)

theorem inert_of_literal {t : WireType} {v : Value} {text : String}
    (h : t.literal v = .ok text) : Inert text.toList := by
  rcases literal_eq_ok.mp h with ⟨-, rfl⟩ | hrenders
  · exact .of_numerals (List.all_eq_true.mp (by decide))
  · exact inert_of_renders hrenders

/-- A literal does nothing to the text after it: that text has the placeholders it has alone, with
their names and signs, further on by the length of the literal. The literal itself is cut into
single characters and quoted runs with both their quotes, so it holds no placeholder, starts no
comment and leaves no quote open, whatever is in the value. -/
theorem placeholders_literal_append {t : WireType} {v : Value} {text : String}
    (h : t.literal v = .ok text) :
    (∀ rest, placeholders (text ++ rest) =
      (placeholders rest).map (·.shift text.utf8ByteSize)) ∧
    (∀ rest, segments (text ++ rest) = segments text ++ segments rest) ∧
    ∀ s ∈ segments text, s.IsInert := by
  have hinert := inert_of_literal h
  refine ⟨fun rest => ?_, fun rest => ?_, (hinert.segments []).2⟩
  · rw [placeholders, segments, String.toList_append, hinert.placeholders_append,
      utf8Length_toList]
    rfl
  · rw [segments, String.toList_append, (hinert.segments rest.toList).1]
    rfl

/-- A key with a quote, a placeholder, a line break and two hyphens in it, and negative numbers. -/
theorem placeholders_append_hostile_key :
    let t : WireType := .map (.scalar .text) (.list (.scalar .int))
    let v : Value := .map [(.text "it's :x\n--", .list [.int (-1), .int (-2)])]
    let text := "\x7b'it''s :x\n--': [-1, -2]\x7d"
    t.literal v = .ok text ∧ placeholders (text ++ " - :p") = [⟨"p", 28, 30, true⟩] := by
  have hliteral : (WireType.map (.scalar .text) (.list (.scalar .int))).literal
      (.map [(.text "it's :x\n--", .list [.int (-1), .int (-2)])]) =
      .ok "\x7b'it''s :x\n--': [-1, -2]\x7d" := by rfl
  have hname : Segment.next ':' ['p'] = (.placeholder ['p'], []) := by rfl
  have halone : segments " - :p" = [.other ' ', .other '-', .other ' ', .placeholder ['p']] := by
    show Segment.ofChars [' ', '-', ' ', ':', 'p'] = _
    rw [Segment.ofChars_cons_other rfl (by simp) (by simp),
      Segment.ofChars_cons_other rfl (by simp) (by simp),
      Segment.ofChars_cons_other rfl (by simp) (by simp), Segment.ofChars_cons, hname,
      Segment.ofChars]
  refine ⟨hliteral, ?_⟩
  rw [(placeholders_literal_append hliteral).1, placeholders, halone]
  decide

end WireType

end CqlClient
