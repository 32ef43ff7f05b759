import CqlClient.Proofs.Failure
import CqlClient.WireType.Reader
import Mathlib.Data.List.TakeWhile

/-!
The grammar of column types. A type is written with blanks on either side of it: the name of a
scalar type, or the name of a collection, blanks, and the types of its elements in brackets. The
reader takes exactly what the grammar derives, and a text has no two derivations.
-/

namespace CqlClient

/-- A run of blanks, of any length. -/
@[ext] structure Blanks where
  chars : List Char
  isBlank : ∀ c ∈ chars, Text.isBlank c = true

namespace Blanks

def none : Blanks := ⟨[], by simp⟩

def one : Blanks := ⟨[' '], List.forall_mem_singleton.mpr rfl⟩

end Blanks

/-- The blanks on either side of a type. -/
@[ext] structure Margins where
  before : Blanks
  after : Blanks

/-- A derivation of a column type. -/
inductive Phrase where
  | scalar (margins : Margins) (type : Scalar)
  | list (margins : Margins) (gap : Blanks) (element : Phrase)
  | set (margins : Margins) (gap : Blanks) (element : Phrase)
  | map (margins : Margins) (gap : Blanks) (key value : Phrase)

def Margins.around (margins : Margins) (core : List Char) : List Char :=
  margins.before.chars ++ core ++ margins.after.chars

/-- The name of a collection with its arguments. -/
def bracketed (name : List Char) (gap : Blanks) (arguments : List Char) : List Char :=
  name ++ gap.chars ++ ('<' :: arguments ++ ['>'])

namespace Phrase

/-- The type that is derived. -/
def type : Phrase → WireType
  | scalar _ s => .scalar s
  | list _ _ element => .list element.type
  | set _ _ element => .set element.type
  | map _ _ key value => .map key.type value.type

/-- The characters of a derivation. -/
def chars : Phrase → List Char
  | scalar margins s => margins.around s.name.toList
  | list margins gap element => margins.around (bracketed ['l', 'i', 's', 't'] gap element.chars)
  | set margins gap element => margins.around (bracketed ['s', 'e', 't'] gap element.chars)
  | map margins gap key value =>
    margins.around (bracketed ['m', 'a', 'p'] gap (key.chars ++ ',' :: value.chars))

end Phrase

/-! ## Blanks at the ends -/

namespace Text

/-- Characters that are not empty and have no blank at either end. -/
structure Solid (cs : List Char) : Prop where
  ne_nil : cs ≠ []
  head : cs.head?.any isBlank = false
  last : cs.getLast?.any isBlank = false

theorem trimLeft_append {blanks cs : List Char} (hblanks : ∀ c ∈ blanks, isBlank c = true)
    (hcs : cs.head?.any isBlank = false) : trimLeft (blanks ++ cs) = cs := by
  rw [trimLeft, List.dropWhile_append_of_pos hblanks]
  cases cs with
  | nil => rfl
  | cons c cs => exact List.dropWhile_cons_of_neg (by simpa using hcs)

theorem trimRight_append {blanks cs : List Char} (hblanks : ∀ c ∈ blanks, isBlank c = true)
    (hcs : cs.getLast?.any isBlank = false) : trimRight (cs ++ blanks) = cs := by
  have hfront : trimLeft (blanks.reverse ++ cs.reverse) = cs.reverse :=
    trimLeft_append (by simpa using hblanks) (by simpa using hcs)
  rw [trimRight, List.reverse_append, ← trimLeft, hfront, List.reverse_reverse]

theorem trimChars_around (margins : Margins) {core : List Char} (h : Solid core) :
    trimChars (margins.around core) = core := by
  have hhead : (core ++ margins.after.chars).head?.any isBlank = false := by
    rw [List.head?_append_of_ne_nil _ h.ne_nil]
    exact h.head
  rw [trimChars, Margins.around, List.append_assoc, trimLeft_append margins.before.isBlank hhead,
    trimRight_append margins.after.isBlank h.last]

theorem exists_append_trimLeft (cs : List Char) : ∃ blanks : Blanks, cs = blanks.chars ++ trimLeft cs :=
  ⟨⟨cs.takeWhile isBlank, fun _ => List.mem_takeWhile_imp⟩, List.takeWhile_append_dropWhile.symm⟩

theorem exists_trimRight_append (cs : List Char) :
    ∃ blanks : Blanks, cs = trimRight cs ++ blanks.chars := by
  obtain ⟨⟨blanks, hblanks⟩, h⟩ := exists_append_trimLeft cs.reverse
  refine ⟨⟨blanks.reverse, by simpa using hblanks⟩, ?_⟩
  rw [trimRight, ← trimLeft, ← List.reverse_append, ← h, List.reverse_reverse]

theorem exists_around_trimChars (cs : List Char) :
    ∃ margins : Margins, cs = margins.around (trimChars cs) := by
  obtain ⟨before, hbefore⟩ := exists_append_trimLeft cs
  obtain ⟨after, hafter⟩ := exists_trimRight_append (trimLeft cs)
  refine ⟨⟨before, after⟩, ?_⟩
  rw [Margins.around, trimChars, List.append_assoc, ← hafter, ← hbefore]

/-- Blanks end where something else starts. -/
theorem blanks_append_inj {a b : Blanks} {x y : List Char} (hx : x.head?.any isBlank = false)
    (hy : y.head?.any isBlank = false) (h : a.chars ++ x = b.chars ++ y) : a = b ∧ x = y := by
  have htrim := congrArg trimLeft h
  rw [trimLeft_append a.isBlank hx, trimLeft_append b.isBlank hy] at htrim
  subst htrim
  exact ⟨Blanks.ext (List.append_cancel_right h), rfl⟩

theorem around_inj {a b : Margins} {x y : List Char} (hx : Solid x) (hy : Solid y)
    (h : a.around x = b.around y) : a = b ∧ x = y := by
  have hcore := congrArg trimChars h
  rw [trimChars_around a hx, trimChars_around b hy] at hcore
  subst hcore
  rw [Margins.around, Margins.around, List.append_assoc, List.append_assoc] at h
  have hhead : ∀ after : Blanks, (x ++ after.chars).head?.any isBlank = false := by
    intro after
    rw [List.head?_append_of_ne_nil _ hx.ne_nil]
    exact hx.head
  obtain ⟨hbefore, hrest⟩ := blanks_append_inj (hhead _) (hhead _) h
  have hafter := List.append_cancel_left hrest
  exact ⟨Margins.ext hbefore (Blanks.ext hafter), rfl⟩

end Text

namespace WireType

/-! ## Names and brackets -/

theorem dropName?_eq_some {name cs rest : List Char} :
    dropName? name cs = some rest ↔ cs = name ++ rest := by
  induction name generalizing cs with
  | nil => simp [dropName?, eq_comm]
  | cons n name ih =>
      cases cs with
      | nil => simp [dropName?]
      | cons c cs =>
          rw [dropName?]
          split
          · next heq => rw [ih, heq, List.cons_append, List.cons.injEq, and_iff_right rfl]
          · next hne => simp [Ne.symm hne]

theorem dropClosing?_eq_some {cs inner : List Char} :
    dropClosing? cs = some inner ↔ cs = inner ++ ['>'] := by
  rw [dropClosing?]
  split
  · next hlast =>
    have hsame := List.dropLast_append_getLast? '>' hlast
    rw [Option.some.injEq]
    constructor
    · rintro rfl
      exact hsame.symm
    · rintro rfl
      exact List.dropLast_concat
  · next hlast =>
    refine iff_of_false (by simp) ?_
    rintro rfl
    exact hlast List.getLast?_concat

/-- The arguments of a collection are what its brackets hold, whatever that is. -/
theorem arguments?_eq_some {name cs inner : List Char} :
    arguments? name cs = some inner ↔ ∃ gap, cs = bracketed name gap inner := by
  constructor
  · intro h
    rw [arguments?] at h
    split at h
    · next rest htrim =>
      obtain ⟨after, hafter, htrim⟩ := Option.map_eq_some_iff.mp htrim
      obtain ⟨gap, hgap⟩ := Text.exists_append_trimLeft after
      refine ⟨gap, ?_⟩
      rw [dropName?_eq_some.mp hafter, hgap, htrim, dropClosing?_eq_some.mp h, bracketed,
        List.append_assoc, List.cons_append]
    · cases h
  · rintro ⟨gap, rfl⟩
    have hname : dropName? name (bracketed name gap inner) =
        some (gap.chars ++ '<' :: (inner ++ ['>'])) := by
      rw [dropName?_eq_some, bracketed, List.append_assoc, List.cons_append]
    have hgap : Text.trimLeft (gap.chars ++ '<' :: (inner ++ ['>'])) = '<' :: (inner ++ ['>']) :=
      Text.trimLeft_append gap.isBlank rfl
    simp only [arguments?, hname, Option.map_some, hgap]
    exact dropClosing?_eq_some.mpr rfl

/-! ## The comma between key and value -/

theorem eq_of_splitComma? {depth : Nat} {cs before after : List Char}
    (h : splitComma? depth cs = some (before, after)) : cs = before ++ ',' :: after := by
  induction cs generalizing depth before with
  | nil => cases h
  | cons c cs ih =>
      simp only [splitComma?] at h
      split at h
      · next hcomma =>
        cases h
        rw [hcomma.1]
        rfl
      · obtain ⟨⟨front, back⟩, hfound, hsame⟩ := Option.map_eq_some_iff.mp h
        cases hsame
        rw [ih hfound]
        rfl

/-- Neither a comma nor a bracket. -/
def isPlain (c : Char) : Bool := c != ',' && c != '<' && c != '>'

/-- Characters in which no comma is met outside brackets, where `depth` brackets are open before
them, and in which brackets are closed as often as they are opened. -/
def Passes (depth : Nat) (cs : List Char) : Prop :=
  ∀ rest, splitComma? depth (cs ++ rest) = (splitComma? depth rest).map (Prod.map (cs ++ ·) id)

namespace Passes

variable {depth : Nat} {cs other : List Char}

theorem nil : Passes depth [] := fun rest => (congrFun Option.map_id (splitComma? depth rest)).symm

theorem append (h : Passes depth cs) (hother : Passes depth other) :
    Passes depth (cs ++ other) := by
  intro rest
  rw [List.append_assoc, h, hother, Option.map_map]
  simp only [Function.comp_def, Prod.map, id_eq, List.append_assoc]
  rfl

/-- A character that is no bracket, nor a comma outside brackets. -/
theorem singleton {c : Char} (hcomma : ¬ (c = ',' ∧ depth = 0)) (hopen : c ≠ '<')
    (hclose : c ≠ '>') : Passes depth [c] := by
  intro rest
  rw [List.singleton_append, splitComma?, if_neg hcomma, if_neg hopen, if_neg hclose]
  rfl

theorem of_plain (h : cs.all isPlain = true) : Passes depth cs := by
  induction cs with
  | nil => exact nil
  | cons c cs ih =>
      simp only [List.all_cons, isPlain, Bool.and_eq_true, bne_iff_ne] at h
      obtain ⟨⟨⟨hcomma, hopen⟩, hclose⟩, hrest⟩ := h
      exact (singleton (fun hc => hcomma hc.1) hopen hclose).append (ih hrest)

theorem blanks (blanks : Blanks) : Passes depth blanks.chars := by
  refine of_plain (List.all_eq_true.mpr fun c hc => ?_)
  have hblank := blanks.isBlank c hc
  simp only [isPlain, Bool.and_eq_true, bne_iff_ne]
  refine ⟨⟨?_, ?_⟩, ?_⟩ <;>
    · rintro rfl
      cases hblank

theorem brackets (h : Passes (depth + 1) cs) : Passes depth ('<' :: cs ++ ['>']) := by
  intro rest
  have hinner : splitComma? (depth + 1) (cs ++ '>' :: rest) =
      (splitComma? depth rest).map (Prod.map (fun before => cs ++ '>' :: before) id) := by
    rw [h, splitComma?, if_neg (by simp)]
    exact Option.map_map ..
  rw [List.append_assoc, List.cons_append, splitComma?, if_neg (by simp)]
  show (splitComma? (depth + 1) (cs ++ '>' :: rest)).map _ = _
  rw [hinner, Option.map_map]
  simp only [Function.comp_def, Prod.map, id_eq, List.cons_append, List.append_assoc]
  rfl

theorem bracketed {name : List Char} {gap : Blanks} (hname : Passes depth name)
    (h : Passes (depth + 1) cs) : Passes depth (CqlClient.bracketed name gap cs) :=
  (hname.append (blanks gap)).append h.brackets

theorem around {margins : Margins} (h : Passes depth cs) : Passes depth (margins.around cs) :=
  ((blanks _).append h).append (blanks _)

/-- A type passes at every depth: its own commas stand in its own brackets. -/
theorem phrase (phrase : Phrase) : Passes depth phrase.chars := by
  induction phrase generalizing depth with
  | scalar margins s =>
      refine around (of_plain ?_)
      cases s <;> decide
  | list margins gap element ih => exact around (bracketed (of_plain (by decide)) ih)
  | set margins gap element ih => exact around (bracketed (of_plain (by decide)) ih)
  | map margins gap key value ihkey ihvalue =>
      have hcomma : Passes (depth + 1) [','] := singleton (by simp) (by decide) (by decide)
      exact around (bracketed (of_plain (by decide)) (ihkey.append (hcomma.append ihvalue)))

end Passes

/-- Of two types with a comma between them, the first one ends at that comma. -/
theorem splitComma?_phrase (key : Phrase) (value : List Char) :
    splitComma? 0 (key.chars ++ ',' :: value) = some (key.chars, value) := by
  have hcomma : splitComma? 0 (',' :: value) = some ([], value) := if_pos ⟨rfl, rfl⟩
  rw [Passes.phrase key, hcomma, Option.map_some, Prod.map, List.append_nil, id]

/-! ## Outlines -/

section

variable {cs inner : List Char} {gap : Blanks}

theorem arguments?_bracketed (name : List Char) :
    arguments? name (bracketed name gap inner) = some inner :=
  arguments?_eq_some.mpr ⟨gap, rfl⟩

/-- Names that differ in their first letters are told apart by it. -/
theorem arguments?_bracketed_ne {a b : Char} (name other : List Char) (h : a ≠ b) :
    arguments? (a :: name) (bracketed (b :: other) gap inner) = none := by
  rw [Option.eq_none_iff_forall_ne_some]
  intro found hfound
  obtain ⟨other, hsame⟩ := arguments?_eq_some.mp hfound
  exact h (List.head_eq_of_cons_eq hsame).symm

theorem arguments?_eq_none {name : List Char} (h : '<' ∉ cs) : arguments? name cs = none := by
  rw [Option.eq_none_iff_forall_ne_some]
  intro found hfound
  obtain ⟨gap, rfl⟩ := arguments?_eq_some.mp hfound
  exact h (by simp [bracketed])

theorem outline_list :
    outline (bracketed ['l', 'i', 's', 't'] gap inner) = .list inner := by
  rw [outline, arguments?_bracketed]

theorem outline_set : outline (bracketed ['s', 'e', 't'] gap inner) = .set inner := by
  rw [outline, arguments?_bracketed, arguments?_bracketed_ne _ _ (by decide)]

theorem outline_map (key : Phrase) (value : List Char) :
    outline (bracketed ['m', 'a', 'p'] gap (key.chars ++ ',' :: value)) =
      .map key.chars value := by
  rw [outline, arguments?_bracketed, arguments?_bracketed_ne _ _ (by decide),
    arguments?_bracketed_ne _ _ (by decide)]
  simp only [splitComma?_phrase]

theorem outline_name (s : Scalar) : outline s.name.toList = .name := by
  have hplain : '<' ∉ s.name.toList := by cases s <;> decide
  rw [outline, arguments?_eq_none hplain, arguments?_eq_none hplain, arguments?_eq_none hplain]

/-- What stands in an outline stands in brackets after the name. -/
theorem eq_bracketed_of_outline :
    (∀ element, outline cs = .list element → ∃ gap, cs = bracketed ['l', 'i', 's', 't'] gap element) ∧
    (∀ element, outline cs = .set element → ∃ gap, cs = bracketed ['s', 'e', 't'] gap element) ∧
    ∀ key value, outline cs = .map key value →
      ∃ gap, cs = bracketed ['m', 'a', 'p'] gap (key ++ ',' :: value) := by
  rw [outline]
  split
  · next hlist =>
    refine ⟨?_, by simp, by simp⟩
    rintro element ⟨⟩
    exact arguments?_eq_some.mp hlist
  · next hset =>
    refine ⟨by simp, ?_, by simp⟩
    rintro element ⟨⟩
    exact arguments?_eq_some.mp hset
  · next hmap =>
    split
    · next hsplit =>
      refine ⟨by simp, by simp, ?_⟩
      rintro key value ⟨⟩
      rw [← eq_of_splitComma? hsplit]
      exact arguments?_eq_some.mp hmap
    · simp
  · simp

end

/-! ## Reading -/

theorem solid_name (s : Scalar) : Text.Solid s.name.toList := by
  cases s <;> exact ⟨by decide, by decide, by decide⟩

theorem solid_bracketed {c : Char} (name : List Char) (gap : Blanks) (inner : List Char)
    (hc : Text.isBlank c = false) : Text.Solid (bracketed (c :: name) gap inner) := by
  refine ⟨by simp [bracketed], ?_, ?_⟩
  · exact hc
  · rw [bracketed, ← List.append_assoc, List.getLast?_concat]
    rfl

section

variable {cs element key value : List Char}

theorem ofChars_of_list (h : outline (Text.trimChars cs) = .list element) :
    ofChars cs = (ofChars element).map list := by
  rw [ofChars]
  split <;> rename_i heq <;> cases h.symm.trans heq
  rfl

theorem ofChars_of_set (h : outline (Text.trimChars cs) = .set element) :
    ofChars cs = (ofChars element).map set := by
  rw [ofChars]
  split <;> rename_i heq <;> cases h.symm.trans heq
  rfl

theorem ofChars_of_map (h : outline (Text.trimChars cs) = .map key value) :
    ofChars cs = ofChars key >>= fun k => ofChars value >>= fun v => .ok (map k v) := by
  rw [ofChars]
  split <;> rename_i heq <;> cases h.symm.trans heq
  rfl

theorem ofChars_of_name (h : outline (Text.trimChars cs) = .name) :
    ofChars cs = match Scalar.ofName? (String.ofList (Text.trimChars cs)) with
      | some s => .ok (scalar s)
      | none => .error (.unknown (String.ofList (Text.trimChars cs))) := by
  rw [ofChars]
  split <;> rename_i heq <;> cases h.symm.trans heq
  rfl

end

/-- The characters of a derivation are read as its type. -/
theorem ofChars_chars (phrase : Phrase) : ofChars phrase.chars = .ok phrase.type := by
  induction phrase with
  | scalar margins s =>
      have htrim := Text.trimChars_around margins (solid_name s)
      rw [Phrase.chars, ofChars_of_name (by rw [htrim, outline_name]), htrim, String.ofList_toList,
        Scalar.ofName?_name]
      rfl
  | list margins gap element ih =>
      have hsolid := solid_bracketed (c := 'l') ['i', 's', 't'] gap element.chars rfl
      have htrim := Text.trimChars_around margins hsolid
      rw [Phrase.chars, ofChars_of_list (by rw [htrim, outline_list]), ih]
      rfl
  | set margins gap element ih =>
      have hsolid := solid_bracketed (c := 's') ['e', 't'] gap element.chars rfl
      have htrim := Text.trimChars_around margins hsolid
      rw [Phrase.chars, ofChars_of_set (by rw [htrim, outline_set]), ih]
      rfl
  | map margins gap key value ihkey ihvalue =>
      have hsolid := solid_bracketed (c := 'm') ['a', 'p'] gap (key.chars ++ ',' :: value.chars) rfl
      have htrim := Text.trimChars_around margins hsolid
      rw [Phrase.chars, ofChars_of_map (by rw [htrim, outline_map]), ihkey, ihvalue]
      rfl

/-- What is read has a derivation. -/
theorem exists_phrase_of_ofChars {cs : List Char} {t : WireType} (h : ofChars cs = .ok t) :
    ∃ phrase : Phrase, phrase.chars = cs ∧ phrase.type = t := by
  induction cs using ofChars.induct generalizing t with
  | case1 cs element houtline ih =>
      obtain ⟨margins, hmargins⟩ := Text.exists_around_trimChars cs
      obtain ⟨gap, hgap⟩ := eq_bracketed_of_outline.1 element houtline
      rw [ofChars_of_list houtline] at h
      obtain ⟨type, htype, rfl⟩ := map_eq_ok.mp h
      obtain ⟨phrase, rfl, rfl⟩ := ih htype
      exact ⟨.list margins gap phrase, by rw [Phrase.chars, ← hgap, ← hmargins], rfl⟩
  | case2 cs element houtline ih =>
      obtain ⟨margins, hmargins⟩ := Text.exists_around_trimChars cs
      obtain ⟨gap, hgap⟩ := eq_bracketed_of_outline.2.1 element houtline
      rw [ofChars_of_set houtline] at h
      obtain ⟨type, htype, rfl⟩ := map_eq_ok.mp h
      obtain ⟨phrase, rfl, rfl⟩ := ih htype
      exact ⟨.set margins gap phrase, by rw [Phrase.chars, ← hgap, ← hmargins], rfl⟩
  | case3 cs key value houtline ihkey ihvalue =>
      obtain ⟨margins, hmargins⟩ := Text.exists_around_trimChars cs
      obtain ⟨gap, hgap⟩ := eq_bracketed_of_outline.2.2 key value houtline
      rw [ofChars_of_map houtline] at h
      obtain ⟨keyType, hkey, h⟩ := bind_eq_ok.mp h
      obtain ⟨valueType, hvalue, h⟩ := bind_eq_ok.mp h
      cases h
      obtain ⟨keyPhrase, rfl, rfl⟩ := ihkey hkey
      obtain ⟨valuePhrase, rfl, rfl⟩ := ihvalue hvalue
      exact ⟨.map margins gap keyPhrase valuePhrase, by rw [Phrase.chars, ← hgap, ← hmargins], rfl⟩
  | case4 cs houtline =>
      rw [ofChars] at h
      split at h <;> rename_i heq <;> cases houtline.symm.trans heq
      cases h
  | case5 cs houtline s hname =>
      obtain ⟨margins, hmargins⟩ := Text.exists_around_trimChars cs
      simp only [ofChars_of_name houtline, hname, Except.ok.injEq] at h
      have hchars : s.name.toList = Text.trimChars cs := by
        rw [Scalar.name_of_ofName? hname, String.toList_ofList]
      exact ⟨.scalar margins s, by rw [Phrase.chars, hchars, ← hmargins], h⟩
  | case6 cs houtline hname =>
      simp only [ofChars_of_name houtline, hname, reduceCtorEq] at h

/-! ## One derivation -/

theorem bracketed_inj {name inner other : List Char} {gap gap' : Blanks}
    (h : bracketed name gap inner = bracketed name gap' other) : gap = gap' ∧ inner = other := by
  simp only [bracketed, List.append_assoc] at h
  obtain ⟨hgap, hinner⟩ := Text.blanks_append_inj rfl rfl (List.append_cancel_left h)
  exact ⟨hgap, List.append_cancel_right (List.tail_eq_of_cons_eq hinner)⟩

theorem type_eq_of_chars_eq {a b : Phrase} (h : a.chars = b.chars) : a.type = b.type := by
  have hread := ofChars_chars a
  rw [h, ofChars_chars b] at hread
  exact (Except.ok.inj hread).symm

/-- Two derivations with the same characters are one. They are read as the same type, so they have
been made by the same rules; the induction is on the one of them. -/
theorem eq_of_chars_eq {a b : Phrase} (h : a.chars = b.chars) : a = b := by
  have htype := type_eq_of_chars_eq h
  induction a generalizing b with
  | scalar margins s =>
      cases b with
      | scalar margins' s' =>
          cases htype
          obtain ⟨rfl, -⟩ := Text.around_inj (solid_name s) (solid_name s) h
          rfl
      | _ => cases htype
  | list margins gap element ih =>
      cases b with
      | list margins' gap' element' =>
          obtain ⟨rfl, hcore⟩ :=
            Text.around_inj (solid_bracketed _ _ _ rfl) (solid_bracketed _ _ _ rfl) h
          obtain ⟨rfl, helement⟩ := bracketed_inj hcore
          rw [ih helement (type_eq_of_chars_eq helement)]
      | _ => cases htype
  | set margins gap element ih =>
      cases b with
      | set margins' gap' element' =>
          obtain ⟨rfl, hcore⟩ :=
            Text.around_inj (solid_bracketed _ _ _ rfl) (solid_bracketed _ _ _ rfl) h
          obtain ⟨rfl, helement⟩ := bracketed_inj hcore
          rw [ih helement (type_eq_of_chars_eq helement)]
      | _ => cases htype
  | map margins gap key value ihkey ihvalue =>
      cases b with
      | map margins' gap' key' value' =>
          obtain ⟨rfl, hcore⟩ :=
            Text.around_inj (solid_bracketed _ _ _ rfl) (solid_bracketed _ _ _ rfl) h
          obtain ⟨rfl, hboth⟩ := bracketed_inj hcore
          -- Both keys end at the same comma.
          have hsplit := congrArg (splitComma? 0) hboth
          rw [splitComma?_phrase, splitComma?_phrase, Option.some.injEq, Prod.mk.injEq] at hsplit
          obtain ⟨hkey, hvalue⟩ := hsplit
          rw [ihkey hkey (type_eq_of_chars_eq hkey), ihvalue hvalue (type_eq_of_chars_eq hvalue)]
      | _ => cases htype

/-! ## The text of a type -/

/-- The derivation that a type is shown as, with these blanks in front: one blank stands after each
comma, and no other. -/
def shown (before : Blanks) : WireType → Phrase
  | scalar s => .scalar ⟨before, .none⟩ s
  | list e => .list ⟨before, .none⟩ .none (e.shown .none)
  | set e => .set ⟨before, .none⟩ .none (e.shown .none)
  | map k v => .map ⟨before, .none⟩ .none (k.shown .none) (v.shown .one)

theorem type_shown (before : Blanks) (t : WireType) : (t.shown before).type = t := by
  induction t generalizing before with
  | scalar s => rfl
  | list e ih => exact congrArg list (ih _)
  | set e ih => exact congrArg set (ih _)
  | map k v ihk ihv => exact congrArg₂ map (ihk _) (ihv _)

theorem chars_shown (before : Blanks) (t : WireType) :
    (t.shown before).chars = before.chars ++ t.text.toList := by
  induction t generalizing before with
  | scalar s => simp [shown, Phrase.chars, Margins.around, Blanks.none, text]
  | list e ih => simp [shown, Phrase.chars, Margins.around, bracketed, Blanks.none, text, ih]
  | set e ih => simp [shown, Phrase.chars, Margins.around, bracketed, Blanks.none, text, ih]
  | map k v ihk ihv =>
      simp [shown, Phrase.chars, Margins.around, bracketed, Blanks.none, Blanks.one, text, ihk, ihv]

/-- A character of ASCII that is no capital letter. -/
def isLowered (c : Char) : Bool := c.toNat < 128 && c.toLower == c

theorem lowerAfter_eq_self {before cs : List Char} (h : cs.all isLowered = true) :
    Text.lowerAfter before cs = cs := by
  induction cs generalizing before with
  | nil => rfl
  | cons c cs ih =>
      simp only [List.all_cons, isLowered, Bool.and_eq_true, decide_eq_true_eq, beq_iff_eq] at h
      obtain ⟨⟨hascii, hlower⟩, hrest⟩ := h
      rw [Text.lowerAfter, ih hrest, if_neg (by omega), Text.lowerChar, if_pos hascii, hlower]
      rfl

theorem all_isLowered_text (t : WireType) : t.text.toList.all isLowered = true := by
  induction t with
  | scalar s => cases s <;> rfl
  | list e ih =>
      simp only [text, String.toList_append, List.all_append, ih]
      rfl
  | set e ih =>
      simp only [text, String.toList_append, List.all_append, ih]
      rfl
  | map k v ihk ihv =>
      simp only [text, String.toList_append, List.all_append, ihk, ihv]
      rfl

theorem lower_text (t : WireType) : Text.lower t.text = t.text := by
  rw [Text.lower, lowerAfter_eq_self t.all_isLowered_text, String.ofList_toList]

theorem ofText_eq_ok {text : String} {t : WireType} :
    ofText text = .ok t ↔
      ∃ phrase : Phrase, phrase.chars = (Text.lower text).toList ∧ phrase.type = t := by
  constructor
  · exact exists_phrase_of_ofChars
  · rintro ⟨phrase, hchars, rfl⟩
    rw [ofText, ← hchars, ofChars_chars]

theorem ofText_text (t : WireType) : ofText t.text = .ok t := by
  refine ofText_eq_ok.mpr ⟨t.shown .none, ?_, type_shown _ t⟩
  rw [chars_shown, lower_text]
  rfl

/-- A text is read as a type exactly if, in lower case, it has a derivation of that type. No
characters have two derivations, and the text of a type is read as this type. -/
theorem ofText_iff_derived_uniquely :
    (∀ text t, ofText text = .ok t ↔
      ∃ phrase : Phrase, phrase.chars = (Text.lower text).toList ∧ phrase.type = t) ∧
    Function.Injective Phrase.chars ∧
    ∀ t : WireType, ofText t.text = .ok t := by
  exact ⟨fun _ _ => ofText_eq_ok, fun _ _ => eq_of_chars_eq, ofText_text⟩

/-- Brackets that close before they open leave a comma outside, and two parts that are no types. -/
example : ofText " Map\u3000<INT ,set<Text>>\n" = .ok (.map (.scalar .int) (.set (.scalar .text))) ∧
    ofText "map<int>,list<text>" = .error (.unknown "int>") := by
  constructor <;> cbv

end WireType

end CqlClient
