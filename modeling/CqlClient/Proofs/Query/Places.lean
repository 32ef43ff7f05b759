import CqlClient.Proofs.Query.Scan
import CqlClient.Proofs.Query.Splice

/-!
The places of placeholders. They are the placeholders among the parts into which a text splits, in
order, and stand between characters, so that a text can be cut there and a literal put in.
-/

namespace CqlClient

open Segment Utf8

/-! ## Signs in front -/

/-- Whether an octet is a space, a tab, a line feed, a form feed or a carriage return. -/
def BlankOctet (b : UInt8) : Prop := b = 0x20 ∨ b = 0x09 ∨ b = 0x0a ∨ b = 0x0c ∨ b = 0x0d

/-- Whether the last octet that is not blank is a plus or minus sign. -/
def FollowsSign (before : Bytes) : Prop :=
  ∃ front sign blanks, before = front ++ sign :: blanks ∧ (sign = 0x2b ∨ sign = 0x2d) ∧
    ∀ b ∈ blanks, BlankOctet b

theorem blankOctet_iff {b : UInt8} : BlankOctet b ↔ Text.isAsciiBlank (Char.ofUInt8 b) = true := by
  simp only [Text.isAsciiBlank, Bool.or_eq_true, beq_iff_eq]
  rw [ofUInt8_eq_iff (by decide), ofUInt8_eq_iff (by decide), ofUInt8_eq_iff (by decide),
    ofUInt8_eq_iff (by decide), ofUInt8_eq_iff (by decide)]
  simp only [or_assoc]
  exact Iff.rfl

theorem sign_iff {b : UInt8} :
    (Char.ofUInt8 b == '+' || Char.ofUInt8 b == '-') = true ↔ b = 0x2b ∨ b = 0x2d := by
  rw [Bool.or_eq_true, beq_iff_eq, beq_iff_eq, ofUInt8_eq_iff (by decide),
    ofUInt8_eq_iff (by decide)]
  exact Iff.rfl

theorem endsInSign_iff {before : Bytes} :
    Utf8.endsInSign before = true ↔ FollowsSign before := by
  simp only [Utf8.endsInSign, Option.any_eq_true, List.find?_eq_some_iff_append, Bool.not_eq_true',
    Bool.not_not, sign_iff, ← blankOctet_iff]
  constructor
  · rintro ⟨b, ⟨-, blanks, front, hbefore, hblanks⟩, hsign⟩
    refine ⟨front.reverse, b, blanks.reverse, ?_, hsign, by simpa using hblanks⟩
    rw [← List.reverse_reverse before, hbefore]
    simp
  · rintro ⟨front, b, blanks, rfl, hsign, hblanks⟩
    refine ⟨b, ⟨?_, blanks.reverse, front.reverse, by simp, by simpa using hblanks⟩, hsign⟩
    rcases hsign with rfl | rfl <;> decide

/-! ## Places -/

/-- Whether this is the placeholder of the name behind these characters. -/
def Placeholder.Spans (p : Placeholder) (front name : List Char) : Prop :=
  p.name = String.ofList name ∧ p.start = (octets front).length ∧
    p.stop = (octets (front ++ ':' :: name)).length ∧
    (p.increment = true ↔ FollowsSign (octets front))

section

variable {p : Placeholder} {a front name : List Char} {parts : List Segment}

theorem spans_iff : p.Spans front name ↔
    p = ⟨String.ofList name, (octets front).length, (octets (front ++ ':' :: name)).length,
      CqlClient.endsInSign false front⟩ := by
  have hsign : (p.increment = true ↔ FollowsSign (octets front)) ↔
      p.increment = CqlClient.endsInSign false front := by
    rw [← endsInSign_iff, endsInSign_octets, ← Bool.eq_iff_iff]
  rw [Placeholder.Spans, hsign]
  cases p
  simp

theorem length_octets_append (a b : List Char) :
    (octets (a ++ b)).length = (octets a).length + utf8Length b := by
  rw [octets_append, List.length_append, length_octets b]

theorem mem_placeholdersFrom_singleton {s : Segment} :
    p ∈ placeholdersFrom (octets a).length (CqlClient.endsInSign false a) [s] ↔
      ∃ name, s = .placeholder name ∧ p.Spans a name := by
  cases s with
  | placeholder name => simp [placeholdersFrom, spans_iff, length_octets_append, chars]
  | _ => simp [placeholdersFrom]

/-- The placeholders behind some characters are those among the parts that stand there. The
induction goes on with the characters of the first part put to those in front. -/
theorem mem_placeholdersFrom_iff :
    p ∈ placeholdersFrom (octets a).length (CqlClient.endsInSign false a) parts ↔
      ∃ front name back, parts = front ++ .placeholder name :: back ∧
        p.Spans (a ++ front.flatMap chars) name := by
  induction parts generalizing a with
  | nil => simp [placeholdersFrom]
  | cons s parts ih =>
      have hlater := @ih (a ++ s.chars)
      rw [length_octets_append, endsInSign_append] at hlater
      rw [placeholdersFrom_cons, List.mem_append, mem_placeholdersFrom_singleton, hlater]
      constructor
      · rintro (⟨name, rfl, hp⟩ | ⟨front, name, back, rfl, hp⟩)
        · exact ⟨[], name, parts, rfl, by simpa using hp⟩
        · exact ⟨s :: front, name, back, rfl, by simpa using hp⟩
      · rintro ⟨front, name, back, hparts, hp⟩
        cases front with
        | nil =>
            rw [List.nil_append, List.cons.injEq] at hparts
            exact .inl ⟨name, hparts.1, by simpa using hp⟩
        | cons t front =>
            rw [List.cons_append, List.cons.injEq] at hparts
            obtain ⟨rfl, rfl⟩ := hparts
            exact .inr ⟨front, name, back, rfl, by simpa using hp⟩

end

theorem pairwise_placeholdersFrom (offset : Nat) (sign : Bool) (parts : List Segment) :
    (∀ p ∈ placeholdersFrom offset sign parts, offset ≤ p.start) ∧
      (placeholdersFrom offset sign parts).Pairwise fun p q => p.stop ≤ q.start := by
  induction parts generalizing offset sign with
  | nil => exact ⟨by simp [placeholdersFrom], .nil⟩
  | cons s parts ih =>
      obtain ⟨hstart, hordered⟩ := ih (offset + utf8Length s.chars)
        (CqlClient.endsInSign sign s.chars)
      have hlater : ∀ p ∈ placeholdersFrom (offset + utf8Length s.chars)
          (CqlClient.endsInSign sign s.chars) parts, offset ≤ p.start :=
        fun p hp => Nat.le_trans (Nat.le_add_right _ _) (hstart p hp)
      cases s with
      | placeholder name =>
          exact ⟨List.forall_mem_cons.mpr ⟨Nat.le_refl _, hlater⟩, .cons hstart hordered⟩
      | _ => exact ⟨hlater, hordered⟩

/-! ## Cutting and putting in -/

/-- The text from a place on with a literal for each of the placeholders, if every cut is between
characters. -/
def spliceFrom? (text literal : String) (last : Nat) : List Placeholder → Option String
  | [] => slice? text last (encode text).length
  | p :: uses => do
    let kept ← slice? text last p.start
    let later ← spliceFrom? text literal p.stop uses
    return kept ++ literal ++ later

theorem filter_placeholdersFrom_singleton {name : String} {s : Segment} (offset : Nat)
    (sign : Bool) (hs : s ≠ .placeholder name.toList) :
    (placeholdersFrom offset sign [s]).filter (·.name == name) = [] := by
  cases s with
  | placeholder n =>
      have hn : String.ofList n ≠ name := by
        rintro rfl
        exact hs (by rw [String.toList_ofList])
      simp [placeholdersFrom, hn]
  | _ => rfl

/-- The induction is on the parts that are left; `kept` is what stands between the last cut and
them. -/
theorem spliceFrom?_eq {text name literal : String} {parts : List Segment} (a kept : List Char)
    (sign : Bool) (htext : text.toList = a ++ kept ++ parts.flatMap chars) :
    spliceFrom? text literal (octets a).length
        ((placeholdersFrom (octets (a ++ kept)).length sign parts).filter (·.name == name)) =
      some (String.ofList (kept ++ parts.flatMap (written name.toList literal.toList))) := by
  induction parts generalizing a kept sign with
  | nil =>
      have hend : (encode text).length = (octets (a ++ kept)).length := by
        rw [encode_eq_octets, htext, List.flatMap_nil, List.append_nil]
      rw [placeholdersFrom, List.filter_nil, spliceFrom?, hend, slice?_of_append htext]
      simp
  | cons s parts ih =>
      have hcut := slice?_of_append htext
      rw [List.flatMap_cons, ← List.append_assoc] at htext
      rw [placeholdersFrom_cons, List.filter_append, ← length_octets_append, List.flatMap_cons]
      by_cases hs : s = .placeholder name.toList
      · have hlater := ih (a ++ kept ++ s.chars) [] (CqlClient.endsInSign sign s.chars)
          (by rw [htext, List.append_nil])
        have huse : (placeholdersFrom (octets (a ++ kept)).length sign [s]).filter
            (·.name == name) = [⟨name, (octets (a ++ kept)).length,
              (octets (a ++ kept ++ s.chars)).length, sign⟩] := by
          rw [length_octets_append _ s.chars, hs]
          simp [placeholdersFrom]
        rw [List.append_nil, List.nil_append] at hlater
        rw [huse, List.singleton_append, spliceFrom?, hcut, hlater, written, if_pos hs]
        simp [String.ofList_append, String.append_assoc]
      · have hlater := ih a (kept ++ s.chars) (CqlClient.endsInSign sign s.chars)
          (by rw [htext, List.append_assoc a])
        rw [filter_placeholdersFrom_singleton _ _ hs, List.nil_append, written, if_neg hs,
          List.append_assoc a, hlater, List.append_assoc kept]

/-- Every text splits into parts in one way. Its placeholders are those among the parts, in order,
each with its name and octets, and with a sign if the last octet in front of it that is not blank is
one. A scanner finds them octet by octet without cutting a character, and so can they be cut out. -/
theorem placeholders_of_split (text : String) :
    ∃ parts, (∀ others, Splits text.toList others ↔ others = parts) ∧
      (∀ p, p ∈ placeholders text ↔ ∃ front name back,
        parts = front ++ .placeholder name :: back ∧ p.Spans (front.flatMap chars) name) ∧
      (placeholders text).Pairwise (fun p q => p.stop ≤ q.start) ∧
      scanFrom? text (encode text) 0 = some (placeholders text) ∧
      (∀ p ∈ placeholders text, (⟨p.start⟩ : String.Pos.Raw).IsValid text ∧
        (⟨p.stop⟩ : String.Pos.Raw).IsValid text ∧
        slice? text p.start p.stop = some (":" ++ p.name) ∧
        (p.increment = true ↔ FollowsSign ((encode text).take p.start))) ∧
      ∀ name literal, spliceFrom? text literal 0 ((placeholders text).filter (·.name == name)) =
        some (Query.splice text name literal) := by
  have hmem : ∀ p, p ∈ placeholders text ↔ ∃ front name back,
      segments text = front ++ .placeholder name :: back ∧ p.Spans (front.flatMap chars) name :=
    fun p => mem_placeholdersFrom_iff (a := [])
  refine ⟨segments text, fun others => splits_iff, hmem, (pairwise_placeholdersFrom _ _ _).2,
    scan_eq_placeholders text, fun p hp => ?_, fun name literal => ?_⟩
  · obtain ⟨front, name, back, hparts, hname, hstart, hstop, hsign⟩ := (hmem p).mp hp
    have htext : text.toList = front.flatMap chars ++ ':' :: name ++ back.flatMap chars := by
      have hjoined : (segments text).flatMap chars = text.toList := flatMap_chars_ofChars _
      rw [← hjoined, hparts]
      simp [chars]
    have hbefore : (encode text).take (octets (front.flatMap chars)).length =
        octets (front.flatMap chars) := by
      rw [encode_eq_octets, htext, List.append_assoc, octets_append, List.take_left]
    rw [hname, hstart, hstop, hbefore, slice?_of_append htext]
    refine ⟨?_, ?_, by simp [String.ofList_cons], hsign⟩
    · exact String.Pos.Raw.isValid_eq_true_iff.mp
        (isValid_of_append (htext.trans (List.append_assoc ..)))
    · exact String.Pos.Raw.isValid_eq_true_iff.mp (isValid_of_append htext)
  · have hjoined : text.toList = [] ++ [] ++ (segments text).flatMap chars :=
      (flatMap_chars_ofChars _).symm
    rw [← String.ofList_toList (s := Query.splice text name literal), toList_splice]
    exact spliceFrom?_eq [] [] false hjoined

/-- Behind a letter of two octets a placeholder stands after a sign. What looks like another stands
in a quoted run that is still open. -/
theorem placeholders_behind_wide_letter :
    ⟨"p", 5, 7, true⟩ ∈ placeholders "é + :p 'é :p" ∧
    Utf8.slice? "é + :p 'é :p" 5 7 = some ":p" ∧
    FollowsSign ((encode "é + :p 'é :p").take 5) ∧
    spliceFrom? "é + :p 'é :p" "1" 0 ((placeholders "é + :p 'é :p").filter (·.name == "p")) =
      some "é + 1 'é :p" := by
  obtain ⟨parts, -, -, -, -, hcuts, hsplice⟩ := placeholders_of_split "é + :p 'é :p"
  have hmem : ⟨"p", 5, 7, true⟩ ∈ placeholders "é + :p 'é :p" := by decide +kernel
  obtain ⟨-, -, hslice, hsign⟩ := hcuts _ hmem
  refine ⟨hmem, hslice, hsign.mp rfl, (hsplice "p" "1").trans ?_⟩
  decide +kernel

end CqlClient
