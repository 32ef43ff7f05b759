import CqlClient.Proofs.Cell.Canonical
import CqlClient.Proofs.Cell.Rendering
import CqlClient.Proofs.Number.Numerals
import CqlClient.Proofs.Query.Adjacent
import CqlClient.Proofs.Value.Stored

/-!
Literals determine their values. Behind a literal in a collection stands a comma, a colon or a
closing bracket, and none of these belongs to a literal outside its quotes and its own brackets. So
it can be told where each literal ends, at every depth, and only what lies below the millisecond of
an instant is lost.
-/

namespace CqlClient

open Segment

namespace Value

mutual

/-- The value with every instant in it cut to the millisecond. -/
def cut : Value → Value
  | timestamp t => timestamp t.truncated
  | list items => list (cutItems items)
  | set items => set (cutItems items)
  | map entries => map (cutEntries entries)
  | v => v

def cutItems : List Value → List Value
  | [] => []
  | v :: rest => v.cut :: cutItems rest

def cutEntries : List (Value × Value) → List (Value × Value)
  | [] => []
  | (k, v) :: rest => (k.cut, v.cut) :: cutEntries rest

end

theorem cutItems_eq_map (items : List Value) : cutItems items = items.map cut := by
  induction items with
  | nil => rfl
  | cons v rest ih => rw [cutItems, ih, List.map_cons]

theorem cutEntries_eq_map (entries : List (Value × Value)) :
    cutEntries entries = entries.map (Prod.map cut cut) := by
  induction entries with
  | nil => rfl
  | cons entry rest ih => rw [cutEntries, ih, List.map_cons, Prod.map]

end Value

/-! ## Where a literal ends -/

/-- Whether a character is none of the marks that stand behind literals. -/
def isInner (c : Char) : Bool := !(c == ',' || c == ':' || c == ']' || c == '\x7d')

/-- Whether characters can stand behind a literal: there are none, or the first one is a mark. -/
def Ends (rest : List Char) : Prop := rest.head?.any isInner = false

theorem ends_nil : Ends [] := rfl

theorem ends_cons {c : Char} (h : isInner c = false) (rest : List Char) : Ends (c :: rest) := h

theorem intercalate_cons_eq (separator first : List Char) (later : List (List Char)) :
    separator.intercalate (first :: later) = first ++ later.flatMap (separator ++ ·) := by
  induction later generalizing first with
  | nil => simp
  | cons next later ih =>
      rw [List.intercalate_cons_cons, ih, List.flatMap_cons, List.append_assoc, List.append_assoc]

/-- Whether what is printed can be told from what stands behind it, and from the literal of a null,
and determines what it is printed for as far as `key` goes. -/
structure Unambiguous {α β : Type} (Prints : α → List Char → Prop) (key : α → β) : Prop where
  starts : ∀ x cs, Prints x cs → ∃ c later, cs = c :: later ∧ isInner c = true ∧ c ≠ 'n'
  splits : ∀ x y cs ds rest rest', Prints x cs → Prints y ds → Ends rest → Ends rest' →
    cs ++ rest = ds ++ rest' → key x = key y ∧ rest = rest'

namespace Unambiguous

variable {α β γ δ : Type} {Prints : α → List Char → Prop} {key : α → β}

/-- What is printed without marks ends at the first mark. -/
theorem of_inner
    (hinner : ∀ x cs, Prints x cs → cs ≠ [] ∧ ∀ c ∈ cs, isInner c = true ∧ c ≠ 'n')
    (hkey : ∀ x y cs, Prints x cs → Prints y cs → key x = key y) : Unambiguous Prints key where
  starts := by
    intro x cs hx
    obtain ⟨hne, hall⟩ := hinner x cs hx
    obtain ⟨c, later, rfl⟩ := List.exists_cons_of_ne_nil hne
    exact ⟨c, later, rfl, hall c List.mem_cons_self⟩
  splits := by
    intro x y cs ds rest rest' hx hy hrest hrest' h
    have hcs := fun c hc => ((hinner x cs hx).2 c hc).1
    have hds := fun c hc => ((hinner y ds hy).2 c hc).1
    obtain rfl : cs = ds := by
      rw [← takeWhile_append_stop hcs hrest, h, takeWhile_append_stop hds hrest']
    exact ⟨hkey x y cs hx hy, List.append_cancel_left h⟩

/-- What is printed for one thing may be printed for another that has it as its content. -/
theorem comap (h : Unambiguous Prints key) {Prints' : γ → List Char → Prop} {key' : γ → δ}
    (make : β → δ)
    (hcontent : ∀ z cs, Prints' z cs → ∃ x, Prints x cs ∧ key' z = make (key x)) :
    Unambiguous Prints' key' where
  starts := by
    intro z cs hz
    obtain ⟨x, hx, -⟩ := hcontent z cs hz
    exact h.starts x cs hx
  splits := by
    intro z z' cs ds rest rest' hz hz' hrest hrest' heq
    obtain ⟨x, hx, hkey⟩ := hcontent z cs hz
    obtain ⟨y, hy, hkey'⟩ := hcontent z' ds hz'
    obtain ⟨hsame, hends⟩ := h.splits x y cs ds rest rest' hx hy hrest hrest' heq
    exact ⟨by rw [hkey, hkey', hsame], hends⟩

/-- A key and a value with a colon and a blank between them. -/
theorem entry (h : Unambiguous Prints key) {Prints' : γ → List Char → Prop} {key' : γ → δ}
    (h' : Unambiguous Prints' key') :
    Unambiguous (fun entry cs => ∃ ks vs, Prints entry.1 ks ∧ Prints' entry.2 vs ∧
      cs = ks ++ ':' :: ' ' :: vs) (Prod.map key key') where
  starts := by
    rintro entry _ ⟨ks, vs, hk, -, rfl⟩
    obtain ⟨c, later, rfl, hc⟩ := h.starts _ ks hk
    exact ⟨c, later ++ ':' :: ' ' :: vs, rfl, hc⟩
  splits := by
    rintro a b _ _ rest rest' ⟨ks, vs, hk, hv, rfl⟩ ⟨ks', vs', hk', hv', rfl⟩ hrest hrest' heq
    rw [List.append_assoc, List.append_assoc] at heq
    obtain ⟨hkey, hlater⟩ := h.splits _ _ _ _ _ _ hk hk' (ends_cons rfl _) (ends_cons rfl _) heq
    obtain ⟨hvalue, hends⟩ := h'.splits _ _ _ _ _ _ hv hv' hrest hrest'
      (List.cons.inj (List.cons.inj hlater).2).2
    exact ⟨Prod.ext hkey hvalue, hends⟩

section

variable {xs ys : List α} {css dss : List (List Char)} {last : Char} {rest rest' : List Char}

/-- Items that each stand behind a comma, up to the closing bracket. -/
theorem commas (h : Unambiguous Prints key) (hlast : last ≠ ',')
    (hclosing : isInner last = false)
    (hx : List.Forall₂ Prints xs css) (hy : List.Forall₂ Prints ys dss)
    (heq : css.flatMap ([',', ' '] ++ ·) ++ last :: rest =
      dss.flatMap ([',', ' '] ++ ·) ++ last :: rest') :
    xs.map key = ys.map key ∧ rest = rest' := by
  have hends : ∀ (ess : List (List Char)) (rest : List Char),
      Ends (ess.flatMap ([',', ' '] ++ ·) ++ last :: rest) := by
    intro ess rest
    cases ess with
    | nil => exact ends_cons hclosing rest
    | cons es ess => exact ends_cons rfl _
  induction hx generalizing ys dss with
  | nil =>
      cases hy with
      | nil => exact ⟨rfl, (List.cons.inj heq).2⟩
      | cons _ _ => exact absurd (List.cons.inj heq).1 hlast
  | cons hfirst hlater ih =>
      cases hy with
      | nil => exact absurd (List.cons.inj heq).1.symm hlast
      | cons hfirst' hlater' =>
          simp only [List.flatMap_cons, List.append_assoc, List.append_right_inj] at heq
          obtain ⟨hkey, htail⟩ :=
            h.splits _ _ _ _ _ _ hfirst hfirst' (hends _ _) (hends _ _) heq
          obtain ⟨hkeys, hrest⟩ := ih hlater' htail
          exact ⟨by rw [List.map_cons, List.map_cons, hkey, hkeys], hrest⟩

/-- Items with commas between them, up to the closing bracket. -/
theorem row (h : Unambiguous Prints key) (hlast : last ≠ ',') (hclosing : isInner last = false)
    (hx : List.Forall₂ Prints xs css) (hy : List.Forall₂ Prints ys dss)
    (heq : [',', ' '].intercalate css ++ last :: rest =
      [',', ' '].intercalate dss ++ last :: rest') :
    xs.map key = ys.map key ∧ rest = rest' := by
  -- An item does not start with a mark, so a row with items is no empty row.
  have hsome : ∀ {x cs} (ess : List (List Char)) (back rest : List Char), Prints x cs →
      last :: rest ≠ [',', ' '].intercalate (cs :: ess) ++ back := by
    intro x cs ess back rest hx heq
    obtain ⟨c, later, rfl, hc, -⟩ := h.starts x cs hx
    rw [intercalate_cons_eq] at heq
    rw [(List.cons.inj heq).1, hc] at hclosing
    cases hclosing
  cases hx with
  | nil =>
      cases hy with
      | nil => exact ⟨rfl, (List.cons.inj heq).2⟩
      | cons hfirst' _ => exact absurd heq (hsome _ _ _ hfirst')
  | cons hfirst hlater =>
      cases hy with
      | nil => exact absurd heq.symm (hsome _ _ _ hfirst)
      | cons hfirst' hlater' =>
          refine h.commas hlast hclosing (.cons hfirst hlater) (.cons hfirst' hlater') ?_
          simp only [intercalate_cons_eq, List.append_assoc] at heq
          simp only [List.flatMap_cons, List.append_assoc, heq]

/-- Items with commas between them and brackets around them. -/
theorem bracketed (h : Unambiguous Prints key) (opening closing : Char)
    (hopening : isInner opening = true) (hnull : opening ≠ 'n') (hcomma : closing ≠ ',')
    (hclosing : isInner closing = false) :
    Unambiguous (fun items cs => ∃ css, List.Forall₂ Prints items css ∧
      cs = opening :: ([',', ' '].intercalate css ++ [closing])) (List.map key) where
  starts := by
    rintro items _ ⟨css, -, rfl⟩
    exact ⟨opening, _, rfl, hopening, hnull⟩
  splits := by
    rintro xs ys _ _ rest rest' ⟨css, hx, rfl⟩ ⟨dss, hy, rfl⟩ - - heq
    refine h.row hcomma hclosing hx hy ?_
    simpa using heq

end

end Unambiguous

/-! ## Quoted texts -/

/-- What is written behind the first quote of a text in quotes, and what stands behind that. -/
def openRun (cs rest : List Char) : List Char :=
  cs.flatMap (fun c => if c = '\'' then ['\'', '\''] else [c]) ++ '\'' :: rest

theorem openRun_nil (rest : List Char) : openRun [] rest = '\'' :: rest := rfl

theorem openRun_quote (cs rest : List Char) :
    openRun ('\'' :: cs) rest = '\'' :: '\'' :: openRun cs rest := rfl

theorem openRun_other {c : Char} (hc : c ≠ '\'') (cs rest : List Char) :
    openRun (c :: cs) rest = c :: openRun cs rest := by
  rw [openRun, List.flatMap_cons, if_neg hc]
  rfl

theorem quotedChars_append (cs rest : List Char) :
    quotedChars cs ++ rest = '\'' :: openRun cs rest := by
  simp [quotedChars, openRun]

/-- The last quote is not the first one of two. -/
theorem openRun_nil_ne {rest : List Char} (hrest : rest.head? ≠ some '\'') (d : Char)
    (b rest' : List Char) : openRun [] rest ≠ openRun (d :: b) rest' := by
  rw [openRun_nil]
  by_cases hd : d = '\''
  · rw [hd, openRun_quote]
    intro h
    rw [(List.cons.inj h).2] at hrest
    exact hrest rfl
  · rw [openRun_other hd]
    exact fun h => hd (List.cons.inj h).1.symm

/-- A text in quotes ends at the first quote that is not written twice. -/
theorem openRun_inj {a b rest rest' : List Char} (hrest : rest.head? ≠ some '\'')
    (hrest' : rest'.head? ≠ some '\'') (h : openRun a rest = openRun b rest') :
    a = b ∧ rest = rest' := by
  induction a generalizing b with
  | nil =>
      cases b with
      | nil => exact ⟨rfl, (List.cons.inj h).2⟩
      | cons d b => exact absurd h (openRun_nil_ne hrest d b rest')
  | cons c a ih =>
      cases b with
      | nil => exact absurd h.symm (openRun_nil_ne hrest' c a rest)
      | cons d b =>
          by_cases hc : c = '\'' <;> by_cases hd : d = '\''
          · rw [hc, hd, openRun_quote, openRun_quote] at h
            obtain ⟨hsame, hends⟩ := ih (List.cons.inj (List.cons.inj h).2).2
            exact ⟨by rw [hc, hd, hsame], hends⟩
          · rw [hc, openRun_quote, openRun_other hd] at h
            exact absurd (List.cons.inj h).1.symm hd
          · rw [hd, openRun_quote, openRun_other hc] at h
            exact absurd (List.cons.inj h).1 hc
          · rw [openRun_other hc, openRun_other hd] at h
            obtain ⟨hsame, hends⟩ := ih (List.cons.inj h).2
            exact ⟨by rw [(List.cons.inj h).1, hsame], hends⟩

theorem unambiguous_quoted : Unambiguous (fun content cs => cs = (quoted content).toList) id where
  starts := by
    rintro content _ rfl
    rw [quoted, String.toList_ofList, quotedChars, List.cons_append]
    exact ⟨'\'', _, rfl, rfl, by decide⟩
  splits := by
    have hquote : ∀ rest, Ends rest → rest.head? ≠ some '\'' := by
      intro rest hrest hhead
      rw [Ends, hhead] at hrest
      cases hrest
    rintro a b _ _ rest rest' rfl rfl hrest hrest' h
    simp only [quoted, String.toList_ofList, quotedChars_append] at h
    obtain ⟨hsame, hends⟩ :=
      openRun_inj (hquote _ hrest) (hquote _ hrest') (List.cons.inj h).2
    exact ⟨String.toList_inj.mp hsame, hends⟩

/-! ## Words -/

/-- Whether a character may be in the literal of an integer, a boolean, octets or an identifier. -/
def isWordChar (c : Char) : Bool := (isNumeral c || c == '-') && c != 'n'

theorem isInner_of_isWordChar {c : Char} (h : isWordChar c = true) : isInner c = true ∧ c ≠ 'n' := by
  have hne : ∀ d, isWordChar d = false → c ≠ d := by
    rintro d hd rfl
    rw [h] at hd
    cases hd
  simp [isInner, hne ',' (by decide), hne ':' (by decide), hne ']' (by decide),
    hne '\x7d' (by decide), hne 'n' (by decide)]

/-- The characters of a literal without quotes and brackets. -/
def IsWord (cs : List Char) : Prop := cs ≠ [] ∧ ∀ c ∈ cs, isWordChar c = true

theorem Integer.isWord_text (n : Int) : IsWord (Integer.text n).toList := by
  have hdigits : ∀ k, ∀ c ∈ Integer.digits k, isWordChar c = true := by
    intro k c hc
    have hdigit : c.isDigit = true := Nat.isDigit_of_mem_toDigits (by decide) (by decide) hc
    have hn : c ≠ 'n' := by
      rintro rfl
      cases hdigit
    simp [isWordChar, Integer.isNumeral_of_mem_digits hc, hn]
  rw [Integer.text, String.toList_ofList]
  split
  · exact ⟨List.cons_ne_nil _ _, List.forall_mem_cons.mpr ⟨rfl, hdigits _⟩⟩
  · exact ⟨Nat.toDigits_ne_nil, hdigits _⟩

theorem Hex.isWordChar_digit {n : UInt8} (h : n.toNat < 16) : isWordChar (Hex.digit n) = true := by
  have hall : ∀ k : Fin 16, isWordChar (Hex.digit (UInt8.ofNat k)) = true := by decide
  have hn := hall ⟨n.toNat, h⟩
  rwa [UInt8.ofNat_toNat] at hn

theorem Hex.isWordChar_of_mem_flatMap {bytes : Bytes} {c : Char} (h : c ∈ bytes.flatMap Hex.ofOctet) :
    isWordChar c = true := by
  obtain ⟨octet, -, h⟩ := List.mem_flatMap.mp h
  simp only [Hex.ofOctet, List.mem_cons, List.not_mem_nil, or_false] at h
  rcases h with rfl | rfl
  · exact Hex.isWordChar_digit (Hex.toNat_high_lt octet)
  · exact Hex.isWordChar_digit (Hex.toNat_low_lt octet)

theorem Uuid.isWord_text (id : Uuid) : IsWord id.text.toList := by
  refine ⟨by simp [Uuid.text], fun c hc => ?_⟩
  by_cases hhyphen : c = '-'
  · rw [hhyphen]
    rfl
  · have hdigit : c ∈ id.text.toList.filter (· != '-') :=
      List.mem_filter.mpr ⟨hc, bne_iff_ne.mpr hhyphen⟩
    rw [Uuid.filter_text] at hdigit
    exact Hex.isWordChar_of_mem_flatMap hdigit

theorem Unambiguous.of_word {α β : Type} {Prints : α → List Char → Prop} {key : α → β}
    (hword : ∀ x cs, Prints x cs → IsWord cs)
    (hkey : ∀ x y cs, Prints x cs → Prints y cs → key x = key y) : Unambiguous Prints key :=
  .of_inner (fun x cs hx => (hword x cs hx).imp_right fun hall c hc =>
    isInner_of_isWordChar (hall c hc)) hkey

namespace Scalar

/-- Whether the literals of a type are in quotes. -/
def isQuoted : Scalar → Bool
  | ascii | text | varchar => true
  | _ => false

/-- The value of a quoted type with this content. -/
def ofContent : Scalar → String → Value
  | ascii, content => .ascii content
  | _, content => .text content

variable {s : Scalar} {v w : Value} {text : String}

theorem exists_content_of_literal (hs : s.isQuoted = true) (h : s.literal v = .ok text) :
    ∃ content, text = quoted content ∧ v = s.ofContent content := by
  fun_cases Scalar.literal s v <;>
    simp only [Scalar.literal, Except.ok.injEq, reduceCtorEq] at h <;>
    try cases hs
  case case12 content _ _ | case13 content _ => exact ⟨content, (eq_of_literal_ascii h).symm, rfl⟩
  case case14 content => exact ⟨content, h.symm, rfl⟩
  case case15 content => exact ⟨content, h.symm, rfl⟩

theorem isWord_of_literal (hs : s.isQuoted = false) (hfloat : s ≠ .float) (hdouble : s ≠ .double)
    (h : s.literal v = .ok text) : IsWord text.toList := by
  fun_cases Scalar.literal s v <;>
    simp only [Scalar.literal, Except.ok.injEq, reduceCtorEq] at h <;>
    try cases hs
  case case10 b =>
    subst h
    cases b <;> exact ⟨by decide, List.all_eq_true.mp (by decide)⟩
  case case8 => exact absurd rfl hfloat
  case case9 => exact absurd rfl hdouble
  case case11 octets =>
    subst h
    have hdigits : ∀ c ∈ octets.flatMap Hex.ofOctet, isWordChar c = true :=
      fun c => Hex.isWordChar_of_mem_flatMap
    simp only [String.toList_append, Hex.encode, String.toList_ofList]
    exact ⟨by simp, List.forall_mem_append.mpr ⟨List.all_eq_true.mp (by decide), hdigits⟩⟩
  -- Integers and identifiers are left.
  all_goals subst h
  case case17 | case18 => exact Uuid.isWord_text _
  all_goals exact Integer.isWord_text _

/-- Two values with the same literal that is not in quotes are the same up to the millisecond. -/
theorem cut_eq_of_literal (hs : s.isQuoted = false) (hfloat : s ≠ .float) (hdouble : s ≠ .double)
    (hv : v.InCalendar) (hw : w.InCalendar) (h : s.literal v = .ok text)
    (h' : s.literal w = .ok text) : v.cut = w.cut := by
  fun_cases Scalar.literal s v <;>
    simp only [Scalar.literal, Except.ok.injEq, reduceCtorEq] at h <;>
    try cases hs
  case case3 n =>
    cases w <;> cases h'
    case int m => rw [Int32.toInt_inj.mp (Integer.text_inj h)]
  case case4 n =>
    cases w <;> cases h'
    case bigint m => rw [Int64.toInt_inj.mp (Integer.text_inj h)]
  case case5 n =>
    cases w <;> cases h'
    case varint m => rw [Integer.text_inj h]
  case case6 n =>
    cases w <;> cases h'
    case counterDelta m => rw [Int64.toInt_inj.mp (Integer.text_inj h)]
  case case8 => exact absurd rfl hfloat
  case case9 => exact absurd rfl hdouble
  case case10 b =>
    cases w <;> cases h'
    case boolean c =>
      have hsame : b = c := by
        revert h
        cases b <;> cases c <;> decide
      rw [hsame]
  case case11 octets =>
    cases w <;> cases h'
    case blob octets' =>
      rw [Hex.flatMap_ofOctet_inj (String.ofList_injective (String.append_right_inj _ |>.mp h))]
  case case16 t =>
    cases w <;> cases h'
    case timestamp u =>
      have hcut := Instant.ofMillis?_millis hv
      rw [Integer.text_inj h, Instant.ofMillis?_millis hw, Option.some.injEq] at hcut
      rw [Value.cut, Value.cut, hcut]
  case case17 id =>
    cases w <;> cases h'
    case uuid id' => rw [Uuid.text_inj h]
  case case18 id =>
    cases w <;> cases h'
    case timeuuid id' => rw [Uuid.text_inj h]

end Scalar

/-! ## All types -/

namespace WireType

/-- The characters are the literal of a value whose instants lie in the calendar. -/
def Prints (t : WireType) (v : Value) (cs : List Char) : Prop :=
  v.InCalendar ∧ ∃ text, t.Renders v text ∧ text.toList = cs

theorem unambiguous_scalar {s : Scalar} (hfloat : s ≠ .float) (hdouble : s ≠ .double) :
    Unambiguous (scalar s).Prints Value.cut := by
  cases hs : s.isQuoted with
  | true =>
      refine unambiguous_quoted.comap (fun content => (s.ofContent content).cut) ?_
      rintro v _ ⟨-, text, h, rfl⟩
      obtain ⟨content, rfl, rfl⟩ := Scalar.exists_content_of_literal hs h
      exact ⟨content, rfl, rfl⟩
  | false =>
      refine .of_word ?_ ?_
      · rintro v _ ⟨-, text, h, rfl⟩
        exact Scalar.isWord_of_literal hs hfloat hdouble h
      · rintro v w _ ⟨hv, text, h, rfl⟩ ⟨hw, text', h', hsame⟩
        rw [String.toList_inj.mp hsame] at h'
        exact Scalar.cut_eq_of_literal hs hfloat hdouble hv hw h h'

variable {e k w : WireType}

theorem prints_items {items : List Value} {texts : List String}
    (hitems : ∀ v ∈ items, v.InCalendar) (h : List.Forall₂ e.Renders items texts) :
    List.Forall₂ e.Prints items (texts.map String.toList) := by
  rw [List.forall₂_map_right_iff]
  refine ((List.forall₂_and_left _ _).mpr ⟨hitems, h⟩).imp ?_
  exact fun v text hboth => ⟨hboth.1, text, hboth.2, rfl⟩

theorem prints_entries {entries : List (Value × Value)} {texts : List String}
    (hentries : ∀ entry ∈ entries, entry.1.InCalendar ∧ entry.2.InCalendar)
    (h : List.Forall₂ (k.RendersEntry w) entries texts) :
    List.Forall₂ (fun entry cs => ∃ ks vs, k.Prints entry.1 ks ∧ w.Prints entry.2 vs ∧
      cs = ks ++ ':' :: ' ' :: vs) entries (texts.map String.toList) := by
  rw [List.forall₂_map_right_iff]
  refine ((List.forall₂_and_left _ _).mpr ⟨hentries, h⟩).imp ?_
  rintro entry _ ⟨⟨hkey, hvalue⟩, key, value, hk, hv, rfl⟩
  exact ⟨_, _, ⟨hkey, key, hk, rfl⟩, ⟨hvalue, value, hv, rfl⟩, by simp⟩

/-- The induction is on the type: where the literals of elements end, those of collections do. -/
theorem unambiguous {t : WireType} (hfloat : t.mentions .float = false)
    (hdouble : t.mentions .double = false) : Unambiguous t.Prints Value.cut := by
  induction t with
  | scalar s =>
      simp only [mentions, beq_eq_false_iff_ne] at hfloat hdouble
      exact unambiguous_scalar hfloat hdouble
  | list e ih =>
      refine ((ih hfloat hdouble).bracketed '[' ']' rfl (by decide) (by decide) rfl).comap
        Value.list ?_
      rintro v _ ⟨hv, text, h, rfl⟩
      obtain ⟨items, texts, rfl, htexts, rfl⟩ := renders_list_iff.mp h
      refine ⟨items, ⟨_, prints_items (Value.itemsInCalendar_iff.mp hv) htexts, ?_⟩, ?_⟩
      · simp [String.toList_intercalate]
      · rw [Value.cut, Value.cutItems_eq_map]
  | set e ih =>
      refine ((ih hfloat hdouble).bracketed '\x7b' '\x7d' rfl (by decide) (by decide) rfl).comap
        Value.set ?_
      rintro v _ ⟨hv, text, h, rfl⟩
      obtain ⟨items, texts, rfl, htexts, rfl⟩ := renders_set_iff.mp h
      refine ⟨items, ⟨_, prints_items (Value.itemsInCalendar_iff.mp hv) htexts, ?_⟩, ?_⟩
      · simp [String.toList_intercalate]
      · rw [Value.cut, Value.cutItems_eq_map]
  | map k w ihk ihw =>
      simp only [mentions, Bool.or_eq_false_iff] at hfloat hdouble
      refine (((ihk hfloat.1 hdouble.1).entry (ihw hfloat.2 hdouble.2)).bracketed '\x7b' '\x7d' rfl
        (by decide) (by decide) rfl).comap Value.map ?_
      rintro v _ ⟨hv, text, h, rfl⟩
      obtain ⟨entries, texts, rfl, htexts, rfl⟩ := renders_map_iff.mp h
      refine ⟨entries, ⟨_, prints_entries (Value.entriesInCalendar_iff.mp hv) htexts, ?_⟩, ?_⟩
      · simp [String.toList_intercalate]
      · rw [Value.cut, Value.cutEntries_eq_map]

/-- No literal but that of a null is the literal of a null. -/
theorem not_prints_null {t : WireType} (h : Unambiguous t.Prints Value.cut) {v : Value} :
    ¬ t.Prints v "null".toList := by
  intro hv
  obtain ⟨c, later, hcs, -, hc⟩ := h.starts v _ hv
  exact hc (List.cons.inj hcs).1.symm

/-- Two values with the same literal of a type without floating-point numbers are the same, in the
order in which their elements are stored, but for what lies below the millisecond of instants. -/
theorem cut_eq_of_literal_eq {t : WireType} (hfloat : t.mentions .float = false)
    (hdouble : t.mentions .double = false) {v w : Value} (hv : v.InCalendar) (hw : w.InCalendar)
    {text : String} (h : t.literal v = .ok text) (h' : t.literal w = .ok text) :
    v.cut = w.cut := by
  have hread := unambiguous hfloat hdouble
  rcases literal_eq_ok.mp h with ⟨rfl, rfl⟩ | hrenders
  · rcases literal_eq_ok.mp h' with ⟨rfl, -⟩ | hrenders'
    · rfl
    · exact absurd ⟨hw, _, hrenders', rfl⟩ (not_prints_null hread)
  · rcases literal_eq_ok.mp h' with ⟨rfl, rfl⟩ | hrenders'
    · exact absurd ⟨hv, _, hrenders, rfl⟩ (not_prints_null hread)
    · exact (hread.splits v w _ _ [] [] ⟨hv, text, hrenders, rfl⟩ ⟨hw, text, hrenders', rfl⟩
        ends_nil ends_nil rfl).1

/-- The keys are a text with marks in it, and the values are half of a leap second and what is
written alike of the second behind it. -/
theorem cut_eq_of_leap_second :
    let t : WireType := .map (.scalar .text) (.list (.scalar .timestamp))
    let v : Value := .map [(.text "it's, ]",
      .list [.timestamp ⟨1483228799, 1500000000, by decide, by decide⟩])]
    let w : Value := .map [(.text "it's, ]",
      .list [.timestamp ⟨1483228800, 500000001, by decide, by decide⟩])]
    let text := "\x7b'it''s, ]': [1483228800500]\x7d"
    t.literal v = .ok text ∧ t.literal w = .ok text ∧ v ≠ w ∧ v.cut = w.cut := by
  intro t v w text
  have hv : t.literal v = .ok text := rfl
  have hw : t.literal w = .ok text := rfl
  have hcalendar : v.InCalendar ∧ w.InCalendar := by
    simp [v, w, Value.InCalendar, Value.EntriesInCalendar, Value.ItemsInCalendar,
      Instant.InCalendar, lastSecond]
  refine ⟨hv, hw, by simp [v, w], ?_⟩
  exact cut_eq_of_literal_eq rfl rfl hcalendar.1 hcalendar.2 hv hw

end WireType

end CqlClient
