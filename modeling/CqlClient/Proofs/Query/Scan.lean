import CqlClient.Proofs.Query.Grammar
import CqlClient.Proofs.Text.Octets
import CqlClient.Query.Basic
import Mathlib.Data.List.Induction

/-!
The placeholders of a text octet by octet. A scanner that looks at one octet after the other, whether
a character starts there or not, finds those among the parts of the text, and wherever it cuts the
text a character ends.
-/

namespace CqlClient

namespace Utf8

theorem length_octets (cs : List Char) : (octets cs).length = utf8Length cs := by
  induction cs with
  | nil => rfl
  | cons c cs ih =>
      rw [octets_cons, List.length_append, String.length_utf8EncodeChar, ih]
      rfl

/-! ## Classes of characters in queries -/

theorem uniform_isNameStart : Uniform Segment.isNameStart := by
  refine ⟨false, fun c hc => eq_false_of_ne_true fun h => ?_⟩
  rcases Segment.isNameStart_iff.mp h with ⟨-, hle⟩ | ⟨-, hle⟩ | rfl
  · exact not_le_of_ascii hc (by decide) hle
  · exact not_le_of_ascii hc (by decide) hle
  · exact absurd hc (by decide)

theorem uniform_isNameRest : Uniform Segment.isNameRest := by
  refine ⟨false, fun c hc => eq_false_of_ne_true fun h => ?_⟩
  rcases Segment.isNameRest_iff.mp h with ⟨-, hle⟩ | ⟨-, hle⟩ | ⟨-, hle⟩ | rfl
  · exact not_le_of_ascii hc (by decide) hle
  · exact not_le_of_ascii hc (by decide) hle
  · exact not_le_of_ascii hc (by decide) hle
  · exact absurd hc (by decide)

theorem uniform_isAsciiBlank : Uniform Text.isAsciiBlank :=
  ((((uniform_beq (by decide)).or (uniform_beq (by decide))).or (uniform_beq (by decide))).or
    (uniform_beq (by decide))).or (uniform_beq (by decide))

/-! ## Signs in front -/

/-- Whether the last octet that is not blank is a sign. -/
def endsInSign (before : Bytes) : Bool :=
  (before.reverse.find? fun b => !Text.isAsciiBlank (Char.ofUInt8 b)).any fun b =>
    Char.ofUInt8 b == '+' || Char.ofUInt8 b == '-'

theorem endsInSign_octets (cs : List Char) :
    endsInSign (octets cs) = CqlClient.endsInSign false cs := by
  induction cs using List.reverseRecOn with
  | nil => rfl
  | append_singleton cs c ih =>
      have hsign : Uniform fun c => c == '+' || c == '-' :=
        (uniform_beq (by decide)).or (uniform_beq (by decide))
      rw [endsInSign, octets_append, octets_cons, octets_nil, List.append_nil, List.reverse_append,
        List.find?_append, endsInSign_append]
      cases hblank : Text.isAsciiBlank c with
      | true =>
          have hnone : (String.utf8EncodeChar c).reverse.find?
              (fun b => !Text.isAsciiBlank (Char.ofUInt8 b)) = none := by
            rw [List.find?_eq_none]
            intro b hb
            rw [uniform_isAsciiBlank.of_mem (List.mem_reverse.mp hb), hblank]
            simp
          have hlast : CqlClient.endsInSign (CqlClient.endsInSign false cs) [c] =
              CqlClient.endsInSign false cs := by
            simp [CqlClient.endsInSign, hblank]
          rw [hnone, Option.none_or, hlast]
          exact ih
      | false =>
          obtain ⟨b, bs, hbs⟩ := List.exists_cons_of_ne_nil
            (List.reverse_ne_nil_iff.mpr (utf8EncodeChar_ne_nil c))
          have hb : b ∈ String.utf8EncodeChar c := List.mem_reverse.mp (hbs ▸ List.mem_cons_self)
          rw [hbs, List.find?_cons_of_pos (by simp [uniform_isAsciiBlank.of_mem hb, hblank])]
          simpa [CqlClient.endsInSign, hblank] using hsign.of_mem hb

end Utf8

open Segment Utf8

/-! ## Octet by octet -/

/-- The first place from `idx` on where no octet of the class stands. -/
def skip (p : Char → Bool) (bytes : Bytes) (idx : Nat) : Nat :=
  idx + ((bytes.drop idx).takeWhile fun b => p (Char.ofUInt8 b)).length

theorem le_skip (p : Char → Bool) (bytes : Bytes) (idx : Nat) : idx ≤ skip p bytes idx :=
  Nat.le_add_right _ _

theorem lt_skip {p : Char → Bool} {bytes : Bytes} {idx : Nat} (h : idx < bytes.length)
    (hp : p (Char.ofUInt8 bytes[idx]) = true) : idx < skip p bytes idx := by
  rw [skip, List.drop_eq_getElem_cons h, List.takeWhile_cons, if_pos hp, List.length_cons]
  omega

/-- The placeholders of a text from a place among its octets on, if every cut is between characters.
An octet is looked at as the character of its number. -/
def scanFrom? (text : String) (bytes : Bytes) (idx : Nat) : Option (List Placeholder) :=
  if h : idx < bytes.length then
    let c := Char.ofUInt8 bytes[idx]
    let next := bytes[idx + 1]?.map Char.ofUInt8
    if isQuote c then scanFrom? text bytes (skip (· != c) bytes (idx + 1) + 1)
    else if hc : c = '-' ∧ next.any (· == '-') then
      scanFrom? text bytes (skip (· != '\n') bytes idx)
    else if c = ':' ∧ next.any isNameStart then do
      let stop := skip isNameRest bytes (idx + 1)
      let name ← slice? text (idx + 1) stop
      let later ← scanFrom? text bytes stop
      return ⟨name, idx, stop, Utf8.endsInSign (bytes.take idx)⟩ :: later
    else scanFrom? text bytes (idx + 1)
  else some []
termination_by bytes.length - idx
decreasing_by
  · have := le_skip (· != Char.ofUInt8 bytes[idx]) bytes (idx + 1)
    omega
  · have hfirst : (Char.ofUInt8 bytes[idx] != '\n') = true := by
      rw [show Char.ofUInt8 bytes[idx] = '-' from hc.1]
      decide
    have : idx < skip (· != '\n') bytes idx := lt_skip h hfirst
    omega
  · have := le_skip isNameRest bytes (idx + 1)
    omega
  · omega

theorem scanFrom?_of_le {text : String} {bytes : Bytes} {idx : Nat} (h : bytes.length ≤ idx) :
    scanFrom? text bytes idx = some [] := by
  rw [scanFrom?, dif_neg (Nat.not_lt.mpr h)]

/-- What a scanner does at an octet, by this octet and the ones behind it. -/
theorem scanFrom?_of_drop {text : String} {bytes bs : Bytes} {idx : Nat} {b : UInt8}
    (h : bytes.drop idx = b :: bs) :
    scanFrom? text bytes idx =
      if isQuote (Char.ofUInt8 b) then
        scanFrom? text bytes (skip (· != Char.ofUInt8 b) bytes (idx + 1) + 1)
      else if Char.ofUInt8 b = '-' ∧ bs.head?.any (fun b => Char.ofUInt8 b == '-') then
        scanFrom? text bytes (skip (· != '\n') bytes idx)
      else if Char.ofUInt8 b = ':' ∧ bs.head?.any (fun b => isNameStart (Char.ofUInt8 b)) then do
        let stop := skip isNameRest bytes (idx + 1)
        let name ← slice? text (idx + 1) stop
        let later ← scanFrom? text bytes stop
        return ⟨name, idx, stop, Utf8.endsInSign (bytes.take idx)⟩ :: later
      else scanFrom? text bytes (idx + 1) := by
  have hlt : idx < bytes.length := by
    refine Nat.lt_of_not_le fun hle => ?_
    rw [List.drop_eq_nil_of_le hle] at h
    cases h
  rw [List.drop_eq_getElem_cons hlt, List.cons.injEq] at h
  obtain ⟨hb, hbs⟩ := h
  have hnext : bytes[idx + 1]? = bs.head? := by rw [← hbs, List.head?_drop]
  rw [scanFrom?, dif_pos hlt, hb, hnext]
  simp only [Option.any_map, dite_eq_ite]

/-- Octets that belong to no character of ASCII are passed by one after the other. -/
theorem scanFrom?_beyond_ascii {text : String} {bytes bs rest : Bytes} {idx : Nat}
    (h : bytes.drop idx = bs ++ rest) (hbs : ∀ b ∈ bs, 128 ≤ b.toNat) :
    scanFrom? text bytes idx = scanFrom? text bytes (idx + bs.length) := by
  induction bs generalizing idx with
  | nil => rfl
  | cons b bs ih =>
      rw [List.forall_mem_cons] at hbs
      have hne : ∀ d : Char, d.toNat < 128 → Char.ofUInt8 b ≠ d := by
        rintro d hd rfl
        rw [toNat_ofUInt8] at hd
        omega
      have hquote : ¬ isQuote (Char.ofUInt8 b) = true := by
        rw [isQuote_iff]
        rintro (h | h)
        · exact hne _ (by decide) h
        · exact hne _ (by decide) h
      have hlater : bytes.drop (idx + 1) = bs ++ rest := by
        rw [← List.drop_drop, h, List.cons_append, List.drop_one, List.tail_cons]
      rw [scanFrom?_of_drop h, if_neg hquote, if_neg fun h => hne _ (by decide) h.1,
        if_neg fun h => hne _ (by decide) h.1, ih hlater hbs.2, List.length_cons]
      congr 1
      omega

/-! ## Part by part -/

section

variable {text : String} {front rest : List Char} {c : Char}

theorem drop_octets (htext : text.toList = front ++ rest) :
    (encode text).drop (octets front).length = octets rest := by
  rw [encode_eq_octets, htext, octets_append, List.drop_left]

theorem skip_octets {p : Char → Bool} (hp : Uniform p) (htext : text.toList = front ++ rest) :
    skip p (encode text) (octets front).length = (octets (front ++ rest.takeWhile p)).length := by
  rw [skip, drop_octets htext, hp.takeWhile_octets, octets_append, List.length_append]

theorem length_octets_concat (hc : c.toNat < 128) (front : List Char) :
    (octets (front ++ [c])).length = (octets front).length + 1 := by
  rw [octets_append, List.length_append, octets_cons, (utf8EncodeChar_of_ascii hc).1]
  rfl

/-- A scanner goes on behind the last quote of a quoted run, or behind the text. -/
theorem scanFrom?_quoted (htext : text.toList = front ++ [c] ++ rest) (hc : c.toNat < 128) :
    scanFrom? text (encode text)
        (skip (· != c) (encode text) (octets (front ++ [c])).length + 1) =
      scanFrom? text (encode text) (octets (front ++
        (c :: rest.takeWhile (· != c) ++ (rest.dropWhile (· != c)).take 1))).length := by
  have hrun : front ++ c :: rest.takeWhile (· != c) =
      front ++ [c] ++ rest.takeWhile (· != c) := by simp
  rw [skip_octets (uniform_bne hc) htext, ← List.append_assoc, hrun]
  cases hafter : rest.dropWhile (· != c) with
  | nil =>
      -- The run is open: one place is past the end of the text, the other is the end.
      have hrest : rest.takeWhile (· != c) = rest := by
        rw [List.takeWhile_eq_self_iff]
        exact List.dropWhile_eq_nil_iff.mp hafter
      have hend : (encode text).length = (octets (front ++ [c] ++ rest)).length := by
        rw [encode_eq_octets, htext]
      rw [hrest, List.take_nil, List.append_nil, scanFrom?_of_le (by omega),
        scanFrom?_of_le (Nat.le_of_eq hend)]
  | cons d later =>
      have hd : d = c := by
        have hstop := head?_dropWhile_any (p := (· != c)) rest
        rw [hafter] at hstop
        simpa using hstop
      rw [hd, ← length_octets_concat hc]
      rfl

/-- A scanner cuts the name of a placeholder out of the text and goes on behind it. -/
theorem scanFrom?_placeholder (htext : text.toList = front ++ [':'] ++ rest) :
    (do
      let stop := skip isNameRest (encode text) (octets (front ++ [':'])).length
      let name ← slice? text (octets (front ++ [':'])).length stop
      let later ← scanFrom? text (encode text) stop
      return ⟨name, (octets front).length, stop,
        Utf8.endsInSign ((encode text).take (octets front).length)⟩ :: later) =
    (scanFrom? text (encode text)
        (octets (front ++ (placeholder (rest.takeWhile isNameRest)).chars)).length).map
      (placeholdersFrom (octets front).length (CqlClient.endsInSign false front)
        [placeholder (rest.takeWhile isNameRest)] ++ ·) := by
  have hname : front ++ [':'] ++ rest.takeWhile isNameRest =
      front ++ (placeholder (rest.takeWhile isNameRest)).chars := by
    rw [List.append_assoc]
    rfl
  have hcut : text.toList = front ++ [':'] ++ rest.takeWhile isNameRest ++
      rest.dropWhile isNameRest := by
    rw [List.append_assoc, List.takeWhile_append_dropWhile, htext]
  have hslice := slice?_of_append hcut
  rw [hname] at hslice
  have hbefore : (encode text).take (octets front).length = octets front := by
    rw [encode_eq_octets, htext, List.append_assoc, octets_append, List.take_left]
  have hstop : (octets front).length +
      utf8Length (placeholder (rest.takeWhile isNameRest)).chars =
        (octets (front ++ (placeholder (rest.takeWhile isNameRest)).chars)).length := by
    rw [octets_append, List.length_append, length_octets (chars _)]
  simp only [skip_octets uniform_isNameRest htext, hname, hslice, hbefore,
    endsInSign_octets, placeholdersFrom, hstop]
  cases scanFrom? text (encode text)
    (octets (front ++ (placeholder (rest.takeWhile isNameRest)).chars)).length with
  | none => rfl
  | some later => rfl

/-- A scanner at the start of a part goes on at its end. -/
theorem scanFrom?_next (htext : text.toList = front ++ [c] ++ rest) :
    scanFrom? text (encode text) (octets front).length =
      (scanFrom? text (encode text) (octets (front ++ (next c rest).1.chars)).length).map
        (placeholdersFrom (octets front).length (CqlClient.endsInSign false front)
          [(next c rest).1] ++ ·) := by
  have hwhole : text.toList = front ++ c :: rest := htext.trans (List.append_assoc ..)
  have hdrop := drop_octets hwhole
  rw [octets_cons] at hdrop
  by_cases hc : c.toNat < 128
  · obtain ⟨hone, hback⟩ := utf8EncodeChar_of_ascii hc
    rw [hone, List.singleton_append] at hdrop
    rw [scanFrom?_of_drop hdrop, hback, (uniform_beq (by decide)).head?_octets,
      uniform_isNameStart.head?_octets, ← length_octets_concat hc, next]
    by_cases hquote : isQuote c = true
    · rw [if_pos hquote, if_pos hquote, scanFrom?_quoted htext hc]
      simp [placeholdersFrom, chars]
    rw [if_neg hquote, if_neg hquote]
    by_cases hcomment : c = '-' ∧ rest.head? = some '-'
    · rw [if_pos hcomment, if_pos ⟨hcomment.1, by rw [hcomment.2]; rfl⟩,
        skip_octets (uniform_bne (by decide)) hwhole, List.takeWhile_cons_of_pos (by simp [hcomment])]
      simp [placeholdersFrom, chars]
    rw [if_neg hcomment, if_neg (by simpa [Option.any_eq_true] using hcomment)]
    by_cases hname : c = ':' ∧ rest.head?.any isNameStart = true
    · rw [if_pos hname, if_pos hname]
      rw [hname.1] at htext ⊢
      exact scanFrom?_placeholder htext
    · rw [if_neg hname, if_neg hname]
      simp [placeholdersFrom, chars]
  · have hbeyond : ∀ b ∈ String.utf8EncodeChar c, 128 ≤ b.toNat :=
      fun b hb => le_toNat_of_mem (Nat.le_of_not_lt hc) hb
    have hne : ∀ d : Char, d.toNat < 128 → c ≠ d := by
      rintro d hd rfl
      exact hc hd
    have hother : next c rest = (.other c, rest) := by
      have hquote : ¬ isQuote c = true := by
        rw [isQuote_iff]
        rintro (h | h)
        · exact hne _ (by decide) h
        · exact hne _ (by decide) h
      rw [next, if_neg hquote, if_neg fun h => hne _ (by decide) h.1,
        if_neg fun h => hne _ (by decide) h.1]
    rw [scanFrom?_beyond_ascii hdrop hbeyond, hother, octets_append, List.length_append]
    simp [placeholdersFrom, chars, octets_cons]

theorem placeholdersFrom_cons (offset : Nat) (sign : Bool) (s : Segment) (parts : List Segment) :
    placeholdersFrom offset sign (s :: parts) = placeholdersFrom offset sign [s] ++
      placeholdersFrom (offset + utf8Length s.chars) (CqlClient.endsInSign sign s.chars) parts := by
  rw [← List.singleton_append, placeholdersFrom_append, List.flatMap_singleton]

/-- A scanner at the start of a part finds the placeholders that are left. -/
theorem scanFrom?_eq (htext : text.toList = front ++ rest) :
    scanFrom? text (encode text) (octets front).length =
      some (placeholdersFrom (octets front).length (CqlClient.endsInSign false front)
        (ofChars rest)) := by
  fun_induction ofChars rest generalizing front with
  | case1 =>
      refine scanFrom?_of_le ?_
      rw [encode_eq_octets, htext, List.append_nil]
  | case2 c rest ih =>
      have hrest : text.toList = front ++ (next c rest).1.chars ++ (next c rest).2 := by
        rw [List.append_assoc, chars_next_append, htext]
      have hfirst : text.toList = front ++ [c] ++ rest := by simpa using htext
      rw [scanFrom?_next hfirst, ih hrest, placeholdersFrom_cons _ _ _ (ofChars (next c rest).2),
        octets_append, List.length_append, length_octets (next c rest).1.chars, endsInSign_append,
        Option.map_some]

end

/-- A scanner finds the placeholders of a text. -/
theorem scan_eq_placeholders (text : String) :
    scanFrom? text (encode text) 0 = some (placeholders text) :=
  scanFrom?_eq (List.nil_append _).symm

end CqlClient
