import CqlClient.Proofs.Query.Adjacent

/-!
The grammar of query texts. A text splits from left to right into quoted runs, comments, placeholders
and single characters, and it does so in one way.
-/

namespace CqlClient.Segment

/-- A name starts with a letter or an underscore. -/
def NameHead (c : Char) : Prop := ('A' ≤ c ∧ c ≤ 'Z') ∨ ('a' ≤ c ∧ c ≤ 'z') ∨ c = '_'

/-- A name goes on with letters, digits and underscores. -/
def NameTail (c : Char) : Prop :=
  ('A' ≤ c ∧ c ≤ 'Z') ∨ ('a' ≤ c ∧ c ≤ 'z') ∨ ('0' ≤ c ∧ c ≤ '9') ∨ c = '_'

/-- The beginnings of a quoted run, a comment and a placeholder. -/
inductive Opens : List Char → Prop where
  | quote {c : Char} {rest : List Char} : c = '\'' ∨ c = '"' → Opens (c :: rest)
  | comment {rest : List Char} : Opens ('-' :: '-' :: rest)
  | placeholder {c : Char} {rest : List Char} : NameHead c → Opens (':' :: c :: rest)

/-- A text splits into parts from left to right. A run goes to the next quote of its kind, a comment
to the end of the line and a placeholder as far as its name; all of them end with the text. -/
inductive Splits : List Char → List Segment → Prop where
  | nil : Splits [] []
  | closed {quote : Char} {body rest : List Char} {parts : List Segment} :
      quote = '\'' ∨ quote = '"' → quote ∉ body → Splits rest parts →
      Splits (quote :: (body ++ quote :: rest)) (.quoted (quote :: body ++ [quote]) :: parts)
  | unclosed {quote : Char} {body : List Char} :
      quote = '\'' ∨ quote = '"' → quote ∉ body → Splits (quote :: body) [.quoted (quote :: body)]
  | comment {body rest : List Char} {parts : List Segment} :
      '\n' ∉ body → (∀ c, rest.head? = some c → c = '\n') → Splits rest parts →
      Splits ('-' :: '-' :: (body ++ rest)) (.comment ('-' :: '-' :: body) :: parts)
  | placeholder {c : Char} {name rest : List Char} {parts : List Segment} :
      NameHead c → (∀ d ∈ name, NameTail d) → (∀ d, rest.head? = some d → ¬ NameTail d) →
      Splits rest parts → Splits (':' :: (c :: name ++ rest)) (.placeholder (c :: name) :: parts)
  | other {c : Char} {rest : List Char} {parts : List Segment} :
      ¬ Opens (c :: rest) → Splits rest parts → Splits (c :: rest) (.other c :: parts)

theorem isQuote_iff {c : Char} : isQuote c = true ↔ c = '\'' ∨ c = '"' := by
  simp [isQuote]

theorem isAlpha_iff {c : Char} :
    c.isAlpha = true ↔ ('A' ≤ c ∧ c ≤ 'Z') ∨ ('a' ≤ c ∧ c ≤ 'z') := by
  have hupper : c.isUpper = decide ('A' ≤ c ∧ c ≤ 'Z') := rfl
  have hlower : c.isLower = (decide ('a' ≤ c) && decide (c ≤ 'z')) := rfl
  show (c.isUpper || c.isLower) = true ↔ _
  simp [hupper, hlower]

theorem isNameStart_iff {c : Char} : isNameStart c = true ↔ NameHead c := by
  simp [isNameStart, NameHead, isAlpha_iff, or_assoc]

theorem isNameRest_iff {c : Char} : isNameRest c = true ↔ NameTail c := by
  simp [isNameRest, NameTail, Char.isAlphanum, isAlpha_iff, Char.isDigit, Char.le_def, or_assoc]

theorem head?_any_eq_false {p : Char → Bool} {cs : List Char} :
    cs.head?.any p = false ↔ ∀ c, cs.head? = some c → ¬ p c = true := by
  cases cs <;> simp

theorem Splits.ofChars_eq {cs : List Char} {parts : List Segment} (h : Splits cs parts) :
    ofChars cs = parts := by
  induction h with
  | nil => rw [ofChars]
  | closed hquote hbody _ ih => rw [ofChars_quoted (isQuote_iff.mpr hquote) hbody, ih]
  | @unclosed quote body hquote hbody =>
      have hformed : (Segment.quoted (quote :: body)).Formed :=
        ⟨quote, body, isQuote_iff.mpr hquote, hbody, .inl rfl⟩
      have hparts : ofChars ((Segment.quoted (quote :: body)).chars ++ []) = _ :=
        ofChars_chars_append hformed rfl
      rwa [List.append_nil, ofChars] at hparts
  | @comment body rest parts hbody hrest _ ih =>
      have hformed : (Segment.comment ('-' :: '-' :: body)).Formed := ⟨body, hbody, rfl⟩
      have hstop : rest.head?.any (Segment.comment ('-' :: '-' :: body)).absorbs = false :=
        head?_any_eq_false.mpr fun c hc => by simp [absorbs, hrest c hc]
      have hparts := ofChars_chars_append hformed hstop
      rwa [ih] at hparts
  | @placeholder c name rest parts hc hname hrest _ ih =>
      have hstart := isNameStart_iff.mpr hc
      have hformed : (Segment.placeholder (c :: name)).Formed :=
        ⟨hstart, List.forall_mem_cons.mpr
          ⟨isNameRest_of_isNameStart hstart, fun d hd => isNameRest_iff.mpr (hname d hd)⟩⟩
      have hstop : rest.head?.any (Segment.placeholder (c :: name)).absorbs = false :=
        head?_any_eq_false.mpr fun d hd => isNameRest_iff.not.mpr (hrest d hd)
      have hparts := ofChars_chars_append hformed hstop
      rwa [ih] at hparts
  | @other c rest parts hopens _ ih =>
      rw [ofChars_cons_other, ih]
      · exact eq_false_of_ne_true fun hc => hopens (.quote (isQuote_iff.mp hc))
      · rintro rfl hnext
        obtain ⟨rest, rfl⟩ := List.head?_eq_some_iff.mp hnext
        exact hopens .comment
      · rintro rfl
        refine head?_any_eq_false.mpr fun d hd hstart => ?_
        obtain ⟨rest, rfl⟩ := List.head?_eq_some_iff.mp hd
        exact hopens (.placeholder (isNameStart_iff.mp hstart))

theorem eq_nil_of_stand {parts : List Segment} (h : Stand parts) (hnone : parts.flatMap chars = []) :
    parts = [] := by
  cases parts with
  | nil => rfl
  | cons s parts =>
      rw [List.flatMap_cons, List.append_eq_nil_iff] at hnone
      exact absurd hnone.1 (chars_ne_nil h.1)

theorem splits_of_stand {parts : List Segment} (h : Stand parts) :
    Splits (parts.flatMap chars) parts := by
  induction parts with
  | nil => exact .nil
  | cons s parts ih =>
      obtain ⟨hformed, hstop, hlater⟩ := h
      have hrest := ih hlater
      rw [List.flatMap_cons]
      cases s with
      | quoted run =>
          obtain ⟨quote, body, hquote, hbody, rfl | rfl⟩ := hformed
          · -- An open run takes in all that comes, so nothing does.
            have hnone : parts = [] := by
              refine eq_nil_of_stand hlater (List.eq_nil_iff_forall_not_mem.mpr fun c hc => ?_)
              obtain ⟨d, rest, hrest⟩ := List.exists_cons_of_ne_nil (List.ne_nil_of_mem hc)
              simp [hrest, absorbs, isClosed_open hbody] at hstop
            subst hnone
            rw [List.flatMap_nil, List.append_nil]
            exact .unclosed (isQuote_iff.mp hquote) hbody
          · rw [chars, List.append_assoc]
            exact .closed (isQuote_iff.mp hquote) hbody hrest
      | comment run =>
          obtain ⟨body, hbody, rfl⟩ := hformed
          refine .comment hbody (fun c hc => ?_) hrest
          simpa [absorbs] using head?_any_eq_false.mp hstop c hc
      | placeholder name =>
          obtain ⟨hstart, hname⟩ := hformed
          cases name with
          | nil => cases hstart
          | cons c name =>
              refine .placeholder (isNameStart_iff.mp hstart) (fun d hd => ?_) (fun d hd => ?_) hrest
              · exact isNameRest_iff.mp (hname d (List.mem_cons_of_mem _ hd))
              · exact isNameRest_iff.not.mp (head?_any_eq_false.mp hstop d hd)
      | other c =>
          refine .other (fun hopens => ?_) hrest
          generalize parts.flatMap chars = rest at hstop hopens
          cases hopens with
          | quote hquote => exact Bool.false_ne_true (hformed.symm.trans (isQuote_iff.mpr hquote))
          | comment => cases hstop
          | placeholder hstart => simp [absorbs, isNameStart_iff.mpr hstart] at hstop

/-- There is one way to split a text. -/
theorem splits_iff {cs : List Char} {parts : List Segment} : Splits cs parts ↔ parts = ofChars cs := by
  constructor
  · exact fun h => h.ofChars_eq.symm
  · rintro rfl
    have h := splits_of_stand (stand_ofChars cs)
    rwa [flatMap_chars_ofChars] at h

end CqlClient.Segment
