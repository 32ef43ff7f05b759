import CqlClient.Proofs.Query.Binding
import CqlClient.Proofs.Query.Splice

/-!
Counters in a query. A counter can only be added to, so its placeholder belongs behind a sign that
stands behind an operand, blanks and comments apart. What is looked at is only the last character
that is not blank: the sign may have no operand in front of it, and it may be part of a comment.
-/

namespace CqlClient

open Segment

namespace Segment

def isBlank : Segment → Bool
  | other c => Text.isAsciiBlank c
  | _ => false

/-- Whether a part only keeps others apart. -/
def isSkipped : Segment → Bool
  | comment _ => true
  | s => s.isBlank

def isSign : Segment → Bool
  | other c => c == '+' || c == '-'
  | _ => false

end Segment

/-! ## What stands in front of a placeholder

Parts in front of a placeholder are read backwards, the nearest one first.
-/

/-- The word that ends where the reading starts. -/
def lastWord : List Segment → List Char
  | other c :: back => if isNameRest c then lastWord back ++ [c] else []
  | _ => []

/-- Whether an operand ends where the reading starts: a placeholder, a quoted run, something in
brackets, a question mark, or a word that is no keyword. -/
def endsInOperand (keyword : List Char → Bool) : List Segment → Bool
  | .placeholder _ :: _ | .quoted _ :: _ => true
  | other c :: back =>
    [')', ']', '\x7d', '?'].contains c || (isNameRest c && !keyword (lastWord (other c :: back)))
  | _ => false

/-- Whether what stands behind the parts is added to an operand or subtracted from it. -/
def addsTo (keyword : List Char → Bool) : List Segment → Bool
  | [] => false
  | s :: back =>
    if s.isSkipped then addsTo keyword back
    else s.isSign && endsInOperand keyword (back.dropWhile isSkipped)

/-- Whether the parts begin no sum: what is nearest in them, blanks and comments apart, is no sign,
or a sign without an operand in front of it. -/
def beginsNoSum (keyword : List Char → Bool) (back : List Segment) : Bool :=
  match back.dropWhile isSkipped with
  | [] => true
  | s :: front => !s.isSign || !endsInOperand keyword (front.dropWhile isSkipped)

/-- Whether the last thing in front that is not blank is a sign by which nothing is added to an
operand: one without an operand, or the end of a comment behind parts that begin no sum. -/
def misleads (keyword : List Char → Bool) : List Segment → Bool
  | [] => false
  | .comment cs :: back => endsInSign false cs && beginsNoSum keyword back
  | s :: back =>
    if s.isBlank then misleads keyword back
    else s.isSign && !endsInOperand keyword (back.dropWhile isSkipped)

/-! ## What the last character says -/

theorem Segment.Stand.of_append {a b : List Segment} (h : Stand (a ++ b)) : Stand b := by
  induction a with
  | nil => exact h
  | cons s a ih => exact ih h.2.2

/-- A quoted run that has a part behind it ends in its quote, which is no sign. -/
theorem endsInSign_quoted {run : List Char} {s : Segment} {later : List Segment}
    (h : Stand (.quoted run :: s :: later)) (sign : Bool) : endsInSign sign run = false := by
  obtain ⟨hformed, hstop, hlater⟩ := h
  obtain ⟨c, rest, hchars⟩ := List.exists_cons_of_ne_nil (chars_ne_nil hlater.1)
  have hclosed : isClosed run = true := by
    simpa [hchars, absorbs] using hstop
  obtain ⟨quote, body, hquote, hbody, rfl | rfl⟩ := hformed
  · rw [isClosed_open hbody] at hclosed
    cases hclosed
  · exact Inert.endsInSign_quotedRun hquote body sign

/-- What stands behind parts is added to nothing if and only if they begin no sum. -/
theorem addsTo_eq_not_beginsNoSum (keyword : List Char → Bool) (back : List Segment) :
    addsTo keyword back = !beginsNoSum keyword back := by
  induction back with
  | nil => rfl
  | cons s back ih =>
      cases hskipped : s.isSkipped with
      | true => simpa [addsTo, beginsNoSum, hskipped] using ih
      | false => simp [addsTo, beginsNoSum, hskipped]

/-- A sign that is seen adds what follows to an operand, unless it misleads. The induction is on
the parts in front, and goes on only through blanks: where the nearest other part is a comment, what
stands in front of that decides. -/
theorem addsTo_eq_not_misleads (keyword : List Char → Bool) {back later : List Segment}
    {s : Segment} (hstand : Stand (back.reverse ++ s :: later))
    (hsign : endsInSign false (back.reverse.flatMap chars) = true) :
    addsTo keyword back = !misleads keyword back := by
  induction back generalizing s later with
  | nil => cases hsign
  | cons t back ih =>
      rw [List.reverse_cons, List.append_assoc, List.singleton_append] at hstand
      have hhere := hstand.of_append
      rw [List.reverse_cons, List.flatMap_append, List.flatMap_singleton, endsInSign_append]
        at hsign
      cases t with
      | quoted run =>
          rw [chars, endsInSign_quoted hhere] at hsign
          cases hsign
      | placeholder n =>
          rw [endsInSign_placeholder _ hhere.1] at hsign
          cases hsign
      | comment cs =>
          obtain ⟨body, -, rfl⟩ := hhere.1
          have hends : endsInSign false ('-' :: '-' :: body) = true := hsign
          show addsTo keyword back =
            !(endsInSign false ('-' :: '-' :: body) && beginsNoSum keyword back)
          rw [hends, Bool.true_and, addsTo_eq_not_beginsNoSum]
      | other c =>
          cases hblank : Text.isAsciiBlank c with
          | true =>
              have hbefore : endsInSign false (back.reverse.flatMap chars) = true := by
                simpa [chars, endsInSign, hblank] using hsign
              simpa [addsTo, misleads, isSkipped, isBlank, hblank] using ih hstand hbefore
          | false =>
              have hplus : (c == '+' || c == '-') = true := by
                simpa [chars, endsInSign, hblank] using hsign
              simp [addsTo, misleads, isSkipped, isBlank, isSign, hblank, hplus]

/-! ## Uses of a name -/

/-- Whether a placeholder of the name stands in the text behind these parts. -/
def StandsBehind (text name : String) (back : List Segment) : Prop :=
  ∃ later, segments text = back.reverse ++ .placeholder name.toList :: later

/-- The placeholder is found, and counts as an increment if the last character in front of it that
is not blank is a sign. -/
theorem StandsBehind.exists_use {text name : String} {back : List Segment}
    (h : StandsBehind text name back) :
    ∃ p ∈ (placeholders text).filter (·.name == name),
      p.increment = endsInSign false (back.reverse.flatMap chars) := by
  obtain ⟨later, hparts⟩ := h
  have hfound : placeholders text = _ := congrArg (placeholdersFrom 0 false) hparts
  rw [placeholdersFrom_append, placeholdersFrom, String.ofList_toList] at hfound
  rw [hfound]
  refine ⟨_, List.mem_filter.mpr ⟨List.mem_append_right _ List.mem_cons_self, ?_⟩, rfl⟩
  exact beq_self_eq_true name

/-- If no use of a counter is thought to be misplaced, each is added to an operand unless something
misleads. -/
theorem StandsBehind.addsTo_of_placed (keyword : List Char → Bool) {text name : String}
    {back : List Segment} (h : StandsBehind text name back)
    (hplaced : Query.misplacesCounter (.scalar .counter)
      ((placeholders text).filter (·.name == name)) = false) :
    addsTo keyword back = true ↔ misleads keyword back = false := by
  obtain ⟨p, hp, hincrement⟩ := h.exists_use
  obtain ⟨later, hparts⟩ := h
  have hall : ∀ p ∈ (placeholders text).filter (·.name == name), p.increment = true := by
    rw [Query.misplacesCounter, beq_self_eq_true, Bool.true_and, Bool.not_eq_false'] at hplaced
    exact List.all_eq_true.mp hplaced
  have hstand : Stand (segments text) := stand_ofChars _
  rw [hparts] at hstand
  rw [addsTo_eq_not_misleads keyword hstand (hincrement ▸ hall p hp), Bool.not_eq_true']

namespace Query

/-- Apart from the places of counters nothing is wrong with a query: all its placeholders have
values, and all its values have placeholders and cells. -/
structure Complete (query : Query) : Prop where
  bound : ∀ p ∈ placeholders query.text, (query.params.get? p.name).isSome
  used : ∀ entry ∈ query.params.entries,
    (placeholders query.text).filter (·.name == entry.1) ≠ []
  encodes : ∀ entry ∈ query.params.entries, ∃ cell, entry.2.type.encode entry.2.value = .ok cell

theorem exists_encodeParameter_iff {found : List Placeholder} {name : String} {param : TypedValue} :
    (∃ sent, encodeParameter found name param = .ok sent) ↔
      found.filter (·.name == name) ≠ [] ∧
        misplacesCounter param.type (found.filter (·.name == name)) = false ∧
        ∃ cell, param.type.encode param.value = .ok cell := by
  simp only [encodeParameter]
  split
  · next hnone =>
    exact iff_of_false (not_exists_error _) fun h => h.1 (List.isEmpty_iff.mp hnone)
  split
  · next hcounter => exact iff_of_false (not_exists_error _) fun h => by simp [hcounter] at h
  · next hsome hcounter =>
    rw [and_iff_right (mt List.isEmpty_iff.mpr hsome),
      and_iff_right (eq_false_of_ne_true hcounter)]
    constructor
    · rintro ⟨sent, h⟩
      obtain ⟨cell, hcell, -⟩ := bind_eq_ok.mp h
      exact ⟨cell, hcell⟩
    · rintro ⟨cell, hcell⟩
      exact ⟨(name, cell), by rw [hcell]; rfl⟩

theorem encodeParameter_of_misplaced {found : List Placeholder} {name : String} {param : TypedValue}
    (hused : found.filter (·.name == name) ≠ [])
    (hcounter : misplacesCounter param.type (found.filter (·.name == name)) = true) :
    encodeParameter found name param = .error .counterAssignment := by
  simp only [encodeParameter]
  rw [if_neg (mt List.isEmpty_iff.mp hused), if_pos hcounter]

theorem placed_of_toRequest {query : Query} {request : QueryRequest}
    (h : query.toRequest = .ok request) :
    ∀ entry ∈ query.params.entries,
      misplacesCounter entry.2.type ((placeholders query.text).filter (·.name == entry.1)) =
        false := by
  simp only [toRequest] at h
  split at h
  · cases h
  obtain ⟨values, hvalues, -⟩ := bind_eq_ok.mp h
  intro entry hentry
  exact (exists_encodeParameter_iff.mp (exists_mapM_iff.mp ⟨values, hvalues⟩ entry hentry)).2.1

/-- A misplaced counter in a query that is complete is what the query is refused for. -/
theorem Complete.toRequest_of_misplaced {query : Query} (h : query.Complete)
    (hmisplaced : ∃ entry ∈ query.params.entries,
      misplacesCounter entry.2.type ((placeholders query.text).filter (·.name == entry.1)) = true) :
    query.toRequest = .error .counterAssignment := by
  have hmissing : (placeholders query.text).find?
      (fun p => (query.params.get? p.name).isNone) = none := by
    rw [List.find?_eq_none]
    intro p hp
    rw [Bool.not_eq_true, Option.isNone_eq_false_iff]
    exact h.bound p hp
  have hlinks : ∀ entry ∈ query.params.entries,
      (∃ sent, encodeParameter (placeholders query.text) entry.1 entry.2 = .ok sent) ∨
        encodeParameter (placeholders query.text) entry.1 entry.2 = .error .counterAssignment := by
    intro entry hentry
    have hused := h.used entry hentry
    cases hplaced : misplacesCounter entry.2.type
        ((placeholders query.text).filter (·.name == entry.1)) with
    | true => exact .inr (encodeParameter_of_misplaced hused hplaced)
    | false => exact .inl (exists_encodeParameter_iff.mpr ⟨hused, hplaced, h.encodes entry hentry⟩)
  obtain ⟨entry, hentry, hcounter⟩ := hmisplaced
  have hfails := mapM_eq_error hlinks
    ⟨entry, hentry, encodeParameter_of_misplaced (h.used entry hentry) hcounter⟩
  simp only [toRequest, hmissing]
  exact congrArg (· >>= _) hfails

/-- A counter in the place of a placeholder, sent or spliced, is added to an operand if and only if
the sign that was looked at does not mislead. Where it is added to nothing and nothing misleads, it
is refused. -/
theorem counter_adds_iff (keyword : List Char → Bool) {query : Query} {name : String}
    {param : TypedValue} {back : List Segment} (hcounter : param.type = .scalar .counter)
    (hstands : StandsBehind query.text name back) :
    ((name, param) ∈ query.params.entries →
      (∀ request, query.toRequest = .ok request →
        (addsTo keyword back = true ↔ misleads keyword back = false)) ∧
      (query.Complete → addsTo keyword back = false → misleads keyword back = false →
        query.toRequest = .error .counterAssignment)) ∧
    (∀ inlined, query.inline name param = .ok inlined →
      (addsTo keyword back = true ↔ misleads keyword back = false)) ∧
    ((∃ literal, param.type.literal param.value = .ok literal) →
      addsTo keyword back = false → misleads keyword back = false →
        query.inline name param = .error .counterAssignment) := by
  have hmisplaced : addsTo keyword back = false → misleads keyword back = false →
      misplacesCounter param.type ((placeholders query.text).filter (·.name == name)) = true := by
    intro hadds hmisleads
    rw [hcounter]
    refine eq_true_of_ne_false fun hplaced => ?_
    rw [(hstands.addsTo_of_placed keyword hplaced).mpr hmisleads] at hadds
    cases hadds
  refine ⟨fun hentry => ⟨fun request h => ?_, fun hcomplete hadds hmisleads => ?_⟩,
    fun inlined h => ?_, fun hliteral hadds hmisleads => ?_⟩
  · refine hstands.addsTo_of_placed keyword ?_
    have hplaced := placed_of_toRequest h _ hentry
    rwa [hcounter] at hplaced
  · exact hcomplete.toRequest_of_misplaced ⟨_, hentry, hmisplaced hadds hmisleads⟩
  · refine hstands.addsTo_of_placed keyword ?_
    obtain ⟨literal, -, -, hplaced, -⟩ := inline_eq_ok.mp h
    rwa [hcounter] at hplaced
  · obtain ⟨literal, hliteral⟩ := hliteral
    obtain ⟨p, hp, -⟩ := hstands.exists_use
    have hused := List.ne_nil_of_mem hp
    rw [inline, hliteral, ok_bind]
    simp only
    rw [if_neg (mt List.isEmpty_iff.mp hused), if_pos (hmisplaced hadds hmisleads)]

/-- A query whose value `p` adds one to a counter. -/
def addingOne (text : String) : Query :=
  (Query.of text).bind "p" ⟨.scalar .counter, .counterDelta 1⟩

theorem complete_addingOne {text : String}
    (hbound : ∀ p ∈ placeholders text, p.name = "p")
    (hused : (placeholders text).filter (·.name == "p") ≠ []) : (addingOne text).Complete where
  bound := by
    intro p hp
    rw [hbound p hp]
    rfl
  used := List.forall_mem_singleton.mpr hused
  encodes := List.forall_mem_singleton.mpr ⟨_, rfl⟩

/-- A counter is accepted behind a column and a sign, with a comment between them, and refused
behind an equals sign. -/
theorem counter_adds_to_column :
    (∃ request, (addingOne "UPDATE t SET c = c -- old\n + :p").toRequest = .ok request) ∧
    addsTo (· == "SET".toList) (segments "UPDATE t SET c = c -- old\n + ").reverse = true ∧
    (addingOne "UPDATE t SET c = :p").toRequest = .error .counterAssignment := by
  have hadded : StandsBehind "UPDATE t SET c = c -- old\n + :p" "p"
      (segments "UPDATE t SET c = c -- old\n + ").reverse := ⟨[], by decide +kernel⟩
  have hassigned : StandsBehind "UPDATE t SET c = :p" "p" (segments "UPDATE t SET c = ").reverse :=
    ⟨[], by decide +kernel⟩
  have hentry : ∀ text, ("p", ⟨.scalar .counter, .counterDelta 1⟩) ∈
      (addingOne text).params.entries := fun _ => List.mem_cons_self
  obtain ⟨request, h⟩ :
      ∃ request, (addingOne "UPDATE t SET c = c -- old\n + :p").toRequest = .ok request :=
    ⟨⟨"UPDATE t SET c = c -- old\n + :p", .standard, [("p", some [0, 0, 0, 0, 0, 0, 0, 1])]⟩,
      by decide +kernel⟩
  refine ⟨⟨request, h⟩, ?_, ?_⟩
  · rw [((counter_adds_iff _ rfl hadded).1 (hentry _)).1 request h]
    decide +kernel
  · have hcomplete := @complete_addingOne "UPDATE t SET c = :p"
      (by decide +kernel) (by decide +kernel)
    exact ((counter_adds_iff (· == "SET".toList) rfl hassigned).1 (hentry _)).2 hcomplete
      (by decide +kernel) (by decide +kernel)

/-- A counter is accepted behind a sign without an operand, which assigns it, and behind a sign in
a comment. -/
theorem counter_adds_to_nothing :
    ((∃ request, (addingOne "UPDATE t SET c = -:p").toRequest = .ok request) ∧
      StandsBehind "UPDATE t SET c = -:p" "p" (segments "UPDATE t SET c = -").reverse ∧
      ∀ keyword, addsTo keyword (segments "UPDATE t SET c = -").reverse = false) ∧
    ((∃ request, (addingOne "UPDATE t SET c = -- +\n :p").toRequest = .ok request) ∧
      StandsBehind "UPDATE t SET c = -- +\n :p" "p" (segments "UPDATE t SET c = -- +\n ").reverse ∧
      ∀ keyword, addsTo keyword (segments "UPDATE t SET c = -- +\n ").reverse = false) := by
  have hassigns : (segments "UPDATE t SET c = -").reverse =
      other '-' :: other ' ' :: other '=' :: (segments "UPDATE t SET c ").reverse := by
    decide +kernel
  have hcomments : (segments "UPDATE t SET c = -- +\n ").reverse =
      other ' ' :: other '\n' :: .comment "-- +".toList :: other ' ' :: other '=' ::
        (segments "UPDATE t SET c ").reverse := by
    decide +kernel
  refine ⟨⟨⟨⟨"UPDATE t SET c = -:p", .standard, [("p", some [0, 0, 0, 0, 0, 0, 0, 1])]⟩,
      by decide +kernel⟩, ⟨[], by decide +kernel⟩, ?_⟩,
    ⟨⟨"UPDATE t SET c = -- +\n :p", .standard, [("p", some [0, 0, 0, 0, 0, 0, 0, 1])]⟩,
      by decide +kernel⟩, ⟨[], by decide +kernel⟩, ?_⟩
  · intro keyword
    rw [hassigns]
    rfl
  · intro keyword
    rw [hcomments]
    rfl

end Query

end CqlClient
