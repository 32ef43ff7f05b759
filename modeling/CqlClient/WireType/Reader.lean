import CqlClient.Text.Blank
import CqlClient.Text.LetterCase
import CqlClient.WireType.Basic

/-!
Reading column types. Case does not matter, blanks may surround every type, and they may stand
between the name of a collection and its bracket.
-/

namespace CqlClient.WireType

/-- Why a text is not a column type. -/
inductive ReadError where
  | unknown (text : String)
  /-- A map type without a comma between key and value. -/
  | loneMapArgument (text : String)
  deriving DecidableEq, Repr

def ReadError.message : ReadError → String
  | .unknown text => "unknown wire type: " ++ text
  | .loneMapArgument text => "map type needs key and value: " ++ text

/-- What follows the characters `name` at the front. -/
def dropName? : List Char → List Char → Option (List Char)
  | [], cs => some cs
  | _ :: _, [] => none
  | n :: name, c :: cs => if n = c then dropName? name cs else none

/-- The characters without the last one, if that is a closing bracket. -/
def dropClosing? (cs : List Char) : Option (List Char) :=
  if cs.getLast? = some '>' then some cs.dropLast else none

/-- What stands in the brackets after the name of a collection. -/
def arguments? (name cs : List Char) : Option (List Char) :=
  match (dropName? name cs).map Text.trimLeft with
  | some ('<' :: rest) => dropClosing? rest
  | _ => none

/-- The parts before and after the first comma outside brackets, `depth` brackets being open. -/
def splitComma? (depth : Nat) : List Char → Option (List Char × List Char)
  | [] => none
  | c :: rest =>
    if c = ',' ∧ depth = 0 then some ([], rest)
    else
      let depth := if c = '<' then depth + 1 else if c = '>' then depth - 1 else depth
      (splitComma? depth rest).map fun (before, after) => (c :: before, after)

theorem length_dropName? {name cs rest : List Char} (h : dropName? name cs = some rest) :
    cs.length = name.length + rest.length := by
  induction name generalizing cs with
  | nil => cases h; simp
  | cons n name ih =>
    cases cs with
    | nil => cases h
    | cons c cs =>
      simp only [dropName?] at h
      split at h
      · simp [ih h]; omega
      · cases h

theorem length_trimLeft_le (cs : List Char) : (Text.trimLeft cs).length ≤ cs.length :=
  (List.dropWhile_sublist _).length_le

theorem length_trimChars_le (cs : List Char) : (Text.trimChars cs).length ≤ cs.length := by
  have inner := length_trimLeft_le (Text.trimLeft cs).reverse
  have outer := length_trimLeft_le cs
  simp only [Text.trimChars, Text.trimRight, List.length_reverse] at inner ⊢
  exact Nat.le_trans inner outer

theorem length_arguments?_lt {name cs inner : List Char} (h : arguments? name cs = some inner) :
    inner.length < cs.length := by
  simp only [arguments?] at h
  split at h
  · next rest found =>
    obtain ⟨after, dropped, trimmed⟩ := Option.map_eq_some_iff.mp found
    have shorter := length_dropName? dropped
    have blanks := length_trimLeft_le after
    rw [trimmed] at blanks
    simp only [dropClosing?] at h
    split at h
    · cases h
      simp only [List.length_cons, List.length_dropLast] at blanks ⊢
      omega
    · cases h
  · cases h

theorem length_splitComma?_lt {depth : Nat} {cs before after : List Char}
    (h : splitComma? depth cs = some (before, after)) :
    before.length < cs.length ∧ after.length < cs.length := by
  induction cs generalizing depth before after with
  | nil => cases h
  | cons c rest ih =>
    simp only [splitComma?] at h
    split at h
    · cases h; simp
    · obtain ⟨⟨b, a⟩, found, same⟩ := Option.map_eq_some_iff.mp h
      cases same
      have := ih found
      simp only [List.length_cons]
      omega

/-- The outermost type of a text, its arguments not yet read. -/
inductive Outline where
  | list (element : List Char)
  | set (element : List Char)
  | map (key value : List Char)
  | loneMapArgument
  /-- No collection: only the name of a scalar type is left to try. -/
  | name
  deriving DecidableEq, Repr

def outline (cs : List Char) : Outline :=
  match arguments? ['l', 'i', 's', 't'] cs, arguments? ['s', 'e', 't'] cs,
    arguments? ['m', 'a', 'p'] cs with
  | some element, _, _ => .list element
  | none, some element, _ => .set element
  | none, none, some both =>
    match splitComma? 0 both with
    | some (key, value) => .map key value
    | none => .loneMapArgument
  | none, none, none => .name

theorem length_lt_of_outline_list {cs element : List Char} (h : outline cs = .list element) :
    element.length < cs.length := by
  simp only [outline] at h
  split at h
  · cases h; exact length_arguments?_lt (by assumption)
  · cases h
  · split at h <;> cases h
  · cases h

theorem length_lt_of_outline_set {cs element : List Char} (h : outline cs = .set element) :
    element.length < cs.length := by
  simp only [outline] at h
  split at h
  · cases h
  · next found => cases h; exact length_arguments?_lt found
  · split at h <;> cases h
  · cases h

theorem length_lt_of_outline_map {cs key value : List Char} (h : outline cs = .map key value) :
    key.length < cs.length ∧ value.length < cs.length := by
  simp only [outline] at h
  split at h
  · cases h
  · cases h
  · next found =>
    split at h
    · next both =>
      cases h
      have := length_arguments?_lt found
      have := length_splitComma?_lt both
      omega
    · cases h
  · cases h

/-- Reads a type from characters in lower case. -/
def ofChars (cs : List Char) : Except ReadError WireType :=
  match _ : outline (Text.trimChars cs) with
  | .list element => (ofChars element).map list
  | .set element => (ofChars element).map set
  | .map key value => do return map (← ofChars key) (← ofChars value)
  | .loneMapArgument => .error (.loneMapArgument (String.ofList (Text.trimChars cs)))
  | .name =>
    match Scalar.ofName? (String.ofList (Text.trimChars cs)) with
    | some s => .ok (scalar s)
    | none => .error (.unknown (String.ofList (Text.trimChars cs)))
termination_by cs.length
decreasing_by
  · exact Nat.lt_of_lt_of_le (length_lt_of_outline_list (by assumption)) (length_trimChars_le cs)
  · exact Nat.lt_of_lt_of_le (length_lt_of_outline_set (by assumption)) (length_trimChars_le cs)
  · exact Nat.lt_of_lt_of_le (length_lt_of_outline_map (by assumption)).1 (length_trimChars_le cs)
  · exact Nat.lt_of_lt_of_le (length_lt_of_outline_map (by assumption)).2 (length_trimChars_le cs)

/-- Reads a type in any case. -/
def ofText (text : String) : Except ReadError WireType := ofChars (Text.lower text).toList

end CqlClient.WireType
