import CqlClient.Proofs.Query.Segment
import Mathlib.Data.List.TakeWhile

/-!
Parts of a query text next to each other. A part ends where the next character would not belong to
it, so it depends on that character alone whether characters that make a part still make it in
another text.
-/

namespace CqlClient.Segment

/-- Whether the quote that starts a run comes again in it, which it does at its end. -/
def isClosed : List Char → Bool
  | [] => false
  | quote :: rest => rest.contains quote

/-- Whether a character right behind the part would belong to it, or would make a longer part with
it. -/
def absorbs : Segment → Char → Bool
  | quoted run, _ => !isClosed run
  | comment _, c => c != '\n'
  | placeholder _, c => isNameRest c
  | other last, c => (last == '-' && c == '-') || (last == ':' && isNameStart c)

/-- Whether the characters make one part if nothing stands behind them. -/
def Formed : Segment → Prop
  | quoted run => ∃ quote body, isQuote quote = true ∧ quote ∉ body ∧
      (run = quote :: body ∨ run = quote :: body ++ [quote])
  | comment cs => ∃ body, '\n' ∉ body ∧ cs = '-' :: '-' :: body
  | placeholder name => name.head?.any isNameStart = true ∧ ∀ c ∈ name, isNameRest c = true
  | other c => isQuote c = false

/-! ## Runs of a class -/

section

variable {p : Char → Bool} {body rest : List Char}

theorem takeWhile_append_stop (hbody : ∀ c ∈ body, p c = true) (hrest : rest.head?.any p = false) :
    (body ++ rest).takeWhile p = body := by
  rw [List.takeWhile_append_of_pos hbody]
  cases rest with
  | nil => simp
  | cons c rest => rw [List.takeWhile_cons_of_neg (by simpa using hrest), List.append_nil]

theorem dropWhile_append_stop (hbody : ∀ c ∈ body, p c = true) (hrest : rest.head?.any p = false) :
    (body ++ rest).dropWhile p = rest := by
  rw [List.dropWhile_append_of_pos hbody]
  cases rest with
  | nil => rfl
  | cons c rest => exact List.dropWhile_cons_of_neg (by simpa using hrest)

theorem head?_dropWhile_any (cs : List Char) : (cs.dropWhile p).head?.any p = false := by
  cases hdrop : cs.dropWhile p with
  | nil => rfl
  | cons c rest =>
      have h := List.head?_dropWhile_not p cs
      rw [hdrop] at h
      simpa using h

end

/-! ## The first part -/

theorem isClosed_quotes (quote : Char) (body : List Char) :
    isClosed (quote :: body ++ [quote]) = true := by
  simp [isClosed]

theorem isClosed_open {quote : Char} {body : List Char} (h : quote ∉ body) :
    isClosed (quote :: body) = false := by
  simpa [isClosed] using h

theorem isNameRest_of_isNameStart {c : Char} (h : isNameStart c = true) : isNameRest c = true := by
  simp only [isNameStart, isNameRest, Char.isAlphanum, Bool.or_eq_true] at h ⊢
  exact h.imp .inl id

/-- The first part is formed and does not take in what comes behind it. -/
theorem formed_next (c : Char) (cs : List Char) :
    (next c cs).1.Formed ∧ (next c cs).2.head?.any (next c cs).1.absorbs = false := by
  rw [next]
  split
  · next hquote =>
    have hbody : c ∉ cs.takeWhile (· != c) := fun hc => by
      simpa using List.mem_takeWhile_imp hc
    have hstop := head?_dropWhile_any (p := (· != c)) cs
    cases hafter : cs.dropWhile (· != c) with
    | nil => exact ⟨⟨c, _, hquote, hbody, .inl (List.append_nil _)⟩, rfl⟩
    | cons d rest =>
        rw [hafter] at hstop
        obtain rfl : d = c := by simpa using hstop
        refine ⟨⟨d, _, hquote, hbody, .inr rfl⟩, ?_⟩
        have hclosed : absorbs (quoted (d :: cs.takeWhile (· != d) ++ [d])) = fun _ => false := by
          funext e
          rw [absorbs, isClosed_quotes]
          rfl
        show Option.any (absorbs (quoted (d :: cs.takeWhile (· != d) ++ [d]))) _ = false
        rw [hclosed]
        cases rest <;> rfl
  split
  · next hcomment =>
    obtain ⟨rfl, hnext⟩ := hcomment
    obtain ⟨rest, rfl⟩ := List.head?_eq_some_iff.mp hnext
    refine ⟨⟨rest.takeWhile (· != '\n'), fun hc => ?_, rfl⟩, head?_dropWhile_any ('-' :: rest)⟩
    simpa using List.mem_takeWhile_imp hc
  split
  · next hname =>
    refine ⟨⟨?_, fun d hd => List.mem_takeWhile_imp hd⟩, head?_dropWhile_any cs⟩
    cases cs with
    | nil => exact absurd hname.2 (by simp)
    | cons d cs =>
        have hstart : isNameStart d = true := by simpa using hname.2
        rw [List.takeWhile_cons_of_pos (isNameRest_of_isNameStart hstart)]
        exact hname.2
  · next hquote hcomment hname =>
    refine ⟨eq_false_of_ne_true hquote, ?_⟩
    cases cs with
    | nil => rfl
    | cons d cs => simpa [absorbs] using And.intro hcomment hname

/-- A part that is formed is the first part of any text in which it does not take in what comes
behind it. -/
theorem ofChars_chars_append {s : Segment} {rest : List Char} (hs : s.Formed)
    (hstop : rest.head?.any s.absorbs = false) :
    ofChars (s.chars ++ rest) = s :: ofChars rest := by
  cases s with
  | quoted run =>
      obtain ⟨quote, body, hquote, hbody, rfl | rfl⟩ := hs
      · -- The run is open, so it takes in all that comes, and nothing does.
        have hrest : rest = [] := by
          cases rest with
          | nil => rfl
          | cons d rest => simp [absorbs, isClosed_open hbody] at hstop
        have hinside := bne_of_not_mem hbody
        rw [hrest, List.append_nil, chars, ofChars_cons, next, if_pos hquote,
          List.takeWhile_eq_self_iff.mpr hinside, List.dropWhile_eq_nil_iff.mpr hinside]
        simp
      · rw [chars, List.append_assoc, List.cons_append]
        exact ofChars_quoted hquote hbody rest
  | comment run =>
      obtain ⟨body, hbody, rfl⟩ := hs
      have hinside : ∀ c ∈ '-' :: body, (c != '\n') = true :=
        bne_of_not_mem (by simpa using hbody)
      have hnext : next '-' ('-' :: body ++ rest) = (comment ('-' :: '-' :: body), rest) := by
        rw [next, if_neg (by decide), if_pos ⟨rfl, rfl⟩, takeWhile_append_stop hinside hstop,
          dropWhile_append_stop hinside hstop]
      rw [chars, List.cons_append, ofChars_cons, hnext]
  | placeholder name =>
      obtain ⟨hstart, hname⟩ := hs
      have hhead : (name ++ rest).head?.any isNameStart = true := by
        cases name with
        | nil => cases hstart
        | cons c name => exact hstart
      have hnext : next ':' (name ++ rest) = (placeholder name, rest) := by
        rw [next, if_neg (by decide), if_neg (by simp), if_pos ⟨rfl, hhead⟩,
          takeWhile_append_stop hname hstop, dropWhile_append_stop hname hstop]
      rw [chars, List.cons_append, ofChars_cons, hnext]
  | other d =>
      show ofChars (d :: rest) = _
      refine ofChars_cons_other hs ?_ ?_
      · rintro rfl hnext
        rw [hnext] at hstop
        cases hstop
      · rintro rfl
        cases rest with
        | nil => rfl
        | cons e rest => simpa [absorbs] using hstop

theorem chars_ne_nil {s : Segment} (hs : s.Formed) : s.chars ≠ [] := by
  cases s with
  | quoted run =>
      obtain ⟨quote, body, -, -, rfl | rfl⟩ := hs <;> simp [chars]
  | comment run =>
      obtain ⟨body, -, rfl⟩ := hs
      simp [chars]
  | placeholder name => simp [chars]
  | other c => simp [chars]

/-- Only then is it the first part. -/
theorem head?_any_absorbs_of_ofChars {s : Segment} {rest : List Char} {parts : List Segment}
    (hs : s.Formed) (h : ofChars (s.chars ++ rest) = s :: parts) :
    rest.head?.any s.absorbs = false := by
  have hne : s.chars ++ rest ≠ [] := List.append_ne_nil_of_left_ne_nil (chars_ne_nil hs) rest
  obtain ⟨c, cs, hcs⟩ := List.exists_cons_of_ne_nil hne
  obtain ⟨-, hstop⟩ := formed_next c cs
  have hchars := chars_next_append c cs
  rw [hcs, ofChars_cons] at h
  rw [(List.cons.inj h).1] at hchars hstop
  rwa [List.append_cancel_left (hchars.trans hcs.symm)] at hstop

/-! ## Parts in a row -/

/-- Whether the characters of the parts, joined, have these parts. -/
def Stand : List Segment → Prop
  | [] => True
  | s :: parts => s.Formed ∧ (parts.flatMap chars).head?.any s.absorbs = false ∧ Stand parts

theorem stand_ofChars (cs : List Char) : Stand (ofChars cs) := by
  fun_induction ofChars cs with
  | case1 => trivial
  | case2 c rest ih =>
      obtain ⟨hformed, hstop⟩ := formed_next c rest
      exact ⟨hformed, by rwa [flatMap_chars_ofChars], ih⟩

end CqlClient.Segment
