import CqlClient.Query.Placeholder
import Mathlib.Data.String.Basic

/-!
The parts of a query text. Each is found by the character it starts with and by the next one; the
parts, joined, are the text, and the placeholders among parts in a row are those of each of them.
-/

namespace CqlClient

namespace Segment

theorem ofChars_cons (c : Char) (rest : List Char) :
    ofChars (c :: rest) = (next c rest).1 :: ofChars (next c rest).2 := by
  rw [ofChars]

/-! ## The first part -/

theorem chars_next_append (c : Char) (rest : List Char) :
    (next c rest).1.chars ++ (next c rest).2 = c :: rest := by
  unfold next
  split
  · simp only [chars, List.cons_append, List.append_assoc, List.take_append_drop,
      List.takeWhile_append_dropWhile]
  split
  · simp only [chars, List.cons_append, List.takeWhile_append_dropWhile]
  split
  · next hcolon =>
    simp only [chars, List.cons_append, List.takeWhile_append_dropWhile, hcolon.1]
  · rfl

/-- A character that starts nothing is a part of its own. -/
theorem ofChars_cons_other {c : Char} {rest : List Char} (hquote : isQuote c = false)
    (hcomment : c = '-' → rest.head? ≠ some '-')
    (hname : c = ':' → rest.head?.any isNameStart = false) :
    ofChars (c :: rest) = .other c :: ofChars rest := by
  have hnext : next c rest = (.other c, rest) := by
    rw [next, if_neg (by simp [hquote]), if_neg fun h => hcomment h.1 h.2,
      if_neg fun h => by simp [hname h.1] at h]
  rw [ofChars_cons, hnext]

theorem bne_of_not_mem {d : Char} {body : List Char} (h : d ∉ body) :
    ∀ c ∈ body, (c != d) = true := by
  intro c hc
  rw [bne_iff_ne]
  rintro rfl
  exact h hc

/-- A quote and what follows up to the next quote of the same kind are one part. -/
theorem ofChars_quoted {quote : Char} {body : List Char} (hquote : isQuote quote = true)
    (hbody : quote ∉ body) (rest : List Char) :
    ofChars (quote :: (body ++ quote :: rest)) =
      .quoted (quote :: body ++ [quote]) :: ofChars rest := by
  have hinside := bne_of_not_mem hbody
  have hnext : next quote (body ++ quote :: rest) =
      (.quoted (quote :: body ++ [quote]), rest) := by
    rw [next, if_pos hquote, List.takeWhile_append_of_pos hinside,
      List.dropWhile_append_of_pos hinside]
    simp
  rw [ofChars_cons, hnext]

/-- The parts of a text, joined, are the text. -/
theorem flatMap_chars_ofChars (cs : List Char) : (ofChars cs).flatMap chars = cs := by
  fun_induction ofChars cs with
  | case1 => rfl
  | case2 c rest ih => rw [List.flatMap_cons, ih, chars_next_append]

end Segment

/-! ## Lengths and signs of texts in a row -/

theorem utf8Length_append (a b : List Char) :
    utf8Length (a ++ b) = utf8Length a + utf8Length b := by
  induction a with
  | nil => simp [utf8Length]
  | cons c a ih =>
      simp only [utf8Length, List.cons_append, List.foldr_cons] at ih ⊢
      omega

theorem utf8Length_toList (text : String) : utf8Length text.toList = text.utf8ByteSize := by
  have h : ∀ cs, utf8Length cs = String.utf8Len cs := by
    intro cs
    induction cs with
    | nil => rfl
    | cons c cs ih =>
        simp only [utf8Length, List.foldr_cons, String.utf8Len] at ih ⊢
        omega
  rw [h, ← String.utf8ByteSize_ofList, String.ofList_toList]

theorem endsInSign_append (before : Bool) (a b : List Char) :
    endsInSign before (a ++ b) = endsInSign (endsInSign before a) b := by
  simp [endsInSign]

/-! ## Placeholders of parts in a row -/

/-- The same placeholder further on in a text. -/
def Placeholder.shift (distance : Nat) (p : Placeholder) : Placeholder :=
  { p with start := p.start + distance, stop := p.stop + distance }

open Segment

theorem placeholdersFrom_append (offset : Nat) (sign : Bool) (a b : List Segment) :
    placeholdersFrom offset sign (a ++ b) =
      placeholdersFrom offset sign a ++
        placeholdersFrom (offset + utf8Length (a.flatMap chars))
          (endsInSign sign (a.flatMap chars)) b := by
  induction a generalizing offset sign with
  | nil => simp [placeholdersFrom, utf8Length, endsInSign]
  | cons s a ih =>
      simp only [List.cons_append, List.flatMap_cons, utf8Length_append, endsInSign_append,
        placeholdersFrom, ih, Nat.add_assoc]
      cases s <;> rfl

theorem placeholdersFrom_eq_nil {offset : Nat} {sign : Bool} {parts : List Segment}
    (h : ∀ s ∈ parts, ∀ name, s ≠ .placeholder name) : placeholdersFrom offset sign parts = [] := by
  induction parts generalizing offset sign with
  | nil => rfl
  | cons s parts ih =>
      rw [List.forall_mem_cons] at h
      cases s with
      | placeholder name => exact absurd rfl (h.1 name)
      | _ => exact ih h.2

/-- Parts that start further on have their placeholders further on. -/
theorem placeholdersFrom_shift (distance offset : Nat) (sign : Bool) (parts : List Segment) :
    placeholdersFrom (offset + distance) sign parts =
      (placeholdersFrom offset sign parts).map (·.shift distance) := by
  induction parts generalizing offset sign with
  | nil => rfl
  | cons s parts ih =>
      have hstop : offset + distance + utf8Length s.chars =
          offset + utf8Length s.chars + distance := by omega
      simp only [placeholdersFrom, hstop, ih]
      cases s <;> rfl

end CqlClient
