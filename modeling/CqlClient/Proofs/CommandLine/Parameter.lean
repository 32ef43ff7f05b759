import CqlClient.CommandLine.Parameter
import CqlClient.Proofs.Number.Reading
import CqlClient.Proofs.Time.Rfc3339
import CqlClient.Proofs.WireType.Grammar
import CqlClient.Value.Text

/-!
Parameters that are typed in as values are shown. A parameter is cut at its first equals sign and
what stands before it at the first colon, so neither may stand in a name, while a value may have
any number of them. No value is shown as the word for null, which is looked for first.
-/

namespace CqlClient

namespace Value

/-- The values that can be typed in for a type as they are shown. -/
inductive Typed : Scalar → Value → Prop where
  | int (n : Int32) : Typed .int (int n)
  | bigint (n : Int64) : Typed .bigint (bigint n)
  | counter (increment : Int64) : Typed .counter (counterDelta increment)
  | varint (n : Int) : Typed .varint (varint n)
  | boolean (b : Bool) : Typed .boolean (boolean b)
  | blob (bytes : Bytes) : Typed .blob (blob bytes)
  | uuid (id : Uuid) : Typed .uuid (uuid id)
  | timeuuid (id : Uuid) : Typed .timeuuid (timeuuid id)
  | timestamp (time : Instant) (plain : time.HasPlainYear) : Typed .timestamp (timestamp time)

/-- What a value is after it has been shown and typed in: a moment is the one that its text shows. -/
def typedBack : Value → Value
  | timestamp time => timestamp time.shown
  | v => v

end Value

namespace CommandLine

/-- Names that a parameter can have: without the marks that it is cut at and without blanks at
either end. -/
structure IsParameterName (name : String) : Prop where
  no_colon : ':' ∉ name.toList
  no_equals : '=' ∉ name.toList
  head : name.toList.head?.any Text.isBlank = false
  last : name.toList.getLast?.any Text.isBlank = false

/-! ## Cutting -/

theorem splitFirst?_append {mark : Char} {before : List Char} (h : mark ∉ before)
    (after : List Char) : splitFirst? mark (before ++ mark :: after) = some (before, after) := by
  have hbefore : ∀ c ∈ before, (c != mark) = true := by
    intro c hc
    apply bne_iff_ne.mpr
    rintro rfl
    exact h hc
  have hdrop : (mark :: after).dropWhile (· != mark) = mark :: after :=
    List.dropWhile_cons_of_neg (by simp)
  have htake : (mark :: after).takeWhile (· != mark) = [] := List.takeWhile_cons_of_neg (by simp)
  rw [splitFirst?, List.dropWhile_append_of_pos hbefore, List.takeWhile_append_of_pos hbefore,
    hdrop, htake, List.append_nil]

theorem IsParameterName.trim_eq {name : String} (h : IsParameterName name) :
    Text.trim name = name := by
  have hnone : ∀ c ∈ ([] : List Char), Text.isBlank c = true := by simp
  have hleft : Text.trimLeft name.toList = name.toList := Text.trimLeft_append hnone h.head
  have hright := Text.trimRight_append hnone h.last
  rw [List.append_nil] at hright
  rw [Text.trim, Text.trimChars, hleft, hright, String.ofList_toList]

/-! ## Values -/

theorem readTimestamp_text {t : Instant} (h : t.HasPlainYear) :
    readTimestamp t.text = .ok t.shown := by
  rw [readTimestamp, Instant.readInt64_text h]
  exact congrArg (orFail .badTimestamp) (Instant.read?_text h)

theorem blobOfHex_text (bytes : Bytes) :
    Value.blobOfHex ("0x" ++ Hex.encode bytes) = .ok (.blob bytes) := by
  have htext : ("0x" ++ Hex.encode bytes).toList = '0' :: 'x' :: bytes.flatMap Hex.ofOctet := by
    simp [Hex.encode]
  have hread : Hex.decode (String.ofList (bytes.flatMap Hex.ofOctet)) = .ok bytes :=
    Hex.decode_encode bytes
  rw [Value.blobOfHex, htext]
  simp only [hread]

/-- What a reader takes is not the word for null, if it refuses that word. -/
theorem ne_null_of_read {ε α : Type} {read : String → Except ε α} {text : String} {a : α}
    (h : read text = .ok a) (hnull : (read "null").isOk = false) : text ≠ "null" := by
  rintro rfl
  rw [h] at hnull
  cases hnull

theorem uuidText_ne_null (id : Uuid) : id.text ≠ "null" := by
  intro h
  have hlength := id.length_text
  rw [h] at hlength
  exact absurd hlength (by decide)

theorem display_ne_null {s : Scalar} {v : Value} (h : v.Typed s) : v.display ≠ "null" := by
  cases h with
  | int n => exact ne_null_of_read (Integer.readInt32_text n) (by decide)
  | bigint n => exact ne_null_of_read (Integer.readInt64_text n) (by decide)
  | counter n => exact ne_null_of_read (Integer.readInt64_signedText n) (by decide)
  | varint n => exact ne_null_of_read (Integer.readAny_text n) (by decide)
  | boolean b => cases b <;> decide
  | blob bytes => exact ne_null_of_read (blobOfHex_text bytes) (by decide)
  | uuid id => exact uuidText_ne_null id
  | timeuuid id => exact uuidText_ne_null id
  | timestamp t plain => exact ne_null_of_read (readTimestamp_text plain) (by decide)

/-- A value is read back from the text that it is shown as. -/
theorem readValue_display {s : Scalar} {v : Value} (h : v.Typed s) :
    readValue (.scalar s) v.display = .ok v.typedBack := by
  apply (if_neg (display_ne_null h)).trans
  cases h with
  | int n => exact congrArg (Value.int <$> orError .badInteger ·) (Integer.readInt32_text n)
  | bigint n => exact congrArg (Value.bigint <$> orError .badInteger ·) (Integer.readInt64_text n)
  | counter n =>
      exact congrArg (Value.counterDelta <$> orError .badInteger ·) (Integer.readInt64_signedText n)
  | varint n => exact congrArg (Value.varint <$> orError .badBigInteger ·) (Integer.readAny_text n)
  | boolean b => cases b <;> rfl
  | blob bytes => exact congrArg (orError .badBlob) (blobOfHex_text bytes)
  | uuid id => exact congrArg (Value.uuid <$> orFail .badUuid ·) (Uuid.read?_text id)
  | timeuuid id => exact congrArg (Value.timeuuid <$> orFail .badUuid ·) (Uuid.read?_text id)
  | timestamp t plain => exact congrArg (Value.timestamp <$> ·) (readTimestamp_text plain)

/-! ## Whole parameters -/

/-- A parameter in the form in which its type is shown has the value that its text gives. -/
theorem readParameter_of_readValue {name text : String} {s : Scalar} {v : Value}
    (hname : IsParameterName name) (hvalue : readValue (.scalar s) text = .ok v) :
    readParameter (name ++ ":" ++ (WireType.scalar s).text ++ "=" ++ text) =
      .ok (name, ⟨.scalar s, v⟩) := by
  have htype : '=' ∉ (WireType.scalar s).text.toList := by cases s <;> decide
  have hhead : '=' ∉ name.toList ++ ':' :: (WireType.scalar s).text.toList := by
    intro hmem
    rcases List.mem_append.mp hmem with hmem | hmem
    · exact hname.no_equals hmem
    · exact htype (List.mem_of_ne_of_mem (by decide) hmem)
  have htext : (name ++ ":" ++ (WireType.scalar s).text ++ "=" ++ text).toList =
      (name.toList ++ ':' :: (WireType.scalar s).text.toList) ++ '=' :: text.toList := by
    simp
  rw [readParameter, htext, splitFirst?_append hhead]
  show (orFail .missingType (splitFirst? ':' _) >>= _) = _
  rw [splitFirst?_append hname.no_colon]
  show (orError .badType (WireType.ofText (String.ofList _)) >>= _) = _
  rw [String.ofList_toList, WireType.ofText_text]
  show (readValue (.scalar s) (String.ofList _) >>= _) = _
  rw [String.ofList_toList, hvalue]
  show Except.ok (Text.trim (String.ofList _), _) = _
  rw [String.ofList_toList, hname.trim_eq]

/-- A name, a type and a value of this type, put together as a parameter in the form in which the
type and the value are shown, are read as this name, type and value. Of moments in the years 0 to
9999, leap seconds among them, what lies below the millisecond is lost, and those in a leap second
that does not end its minute become moments in the second that they are shown in. -/
theorem readParameter_display {name : String} {s : Scalar} {v : Value}
    (hname : IsParameterName name) (hv : v.Typed s) :
    readParameter (name ++ ":" ++ (WireType.scalar s).text ++ "=" ++ v.display) =
      .ok (name, ⟨.scalar s, v.typedBack⟩) :=
  readParameter_of_readValue hname (readValue_display hv)

/-- The end of the leap second before 2017. -/
def endOfLeapSecond : Instant := ⟨1483228799, 1999999999, by decide, by decide⟩

/-- A third of a second into the other half of a second that does not end its minute. -/
def inHiddenSecond : Instant := ⟨1483228744, 1333333333, by decide, by decide⟩

theorem typed_inHiddenSecond : (Value.timestamp inHiddenSecond).Typed .timestamp :=
  .timestamp inHiddenSecond ⟨by decide, by decide⟩

theorem display_inHiddenSecond :
    (Value.timestamp inHiddenSecond).display = "2016-12-31T23:59:05.333Z" := by
  decide

theorem readParameter_display_of_leap_second :
    ((Value.timestamp endOfLeapSecond).display = "2016-12-31T23:59:60.999Z" ∧
      endOfLeapSecond.cut = ⟨1483228799, 1999000000, by decide, by decide⟩ ∧
      readParameter "last second:timestamp=2016-12-31T23:59:60.999Z" =
        .ok ("last second", ⟨.scalar .timestamp, .timestamp endOfLeapSecond.cut⟩)) ∧
    (Value.timestamp inHiddenSecond).display = "2016-12-31T23:59:05.333Z" ∧
      readParameter "later:timestamp=2016-12-31T23:59:05.333Z" =
        .ok ("later", ⟨.scalar .timestamp,
          .timestamp ⟨1483228745, 333000000, by decide, by decide⟩⟩) := by
  have hname : IsParameterName "last second" := ⟨by decide, by decide, by decide, by decide⟩
  have hread := readParameter_display hname (.timestamp endOfLeapSecond ⟨by decide, by decide⟩)
  have hdisplay : (Value.timestamp endOfLeapSecond).display = "2016-12-31T23:59:60.999Z" := by
    decide
  have hcut : endOfLeapSecond.shown = endOfLeapSecond.cut := Instant.shown_eq_cut (.inr rfl)
  rw [hdisplay, Value.typedBack, hcut] at hread
  have hlater : IsParameterName "later" := ⟨by decide, by decide, by decide, by decide⟩
  have hhidden := readParameter_display hlater typed_inHiddenSecond
  rw [display_inHiddenSecond] at hhidden
  exact ⟨⟨hdisplay, rfl, hread⟩, display_inHiddenSecond, hhidden⟩

/-- A moment in a leap second that does not end its minute is not read back from its text. -/
theorem readParameter_ne_of_hidden_second :
    (Value.timestamp inHiddenSecond).Typed .timestamp ∧
      (Value.timestamp inHiddenSecond).display = "2016-12-31T23:59:05.333Z" ∧
      inHiddenSecond.cut = ⟨1483228744, 1333000000, by decide, by decide⟩ ∧
      readParameter "a:timestamp=2016-12-31T23:59:05.333Z" ≠
        .ok ("a", ⟨.scalar .timestamp, .timestamp inHiddenSecond.cut⟩) := by
  have hname : IsParameterName "a" := ⟨by decide, by decide, by decide, by decide⟩
  have hread := readParameter_of_readValue hname (readValue_display typed_inHiddenSecond)
  rw [display_inHiddenSecond] at hread
  refine ⟨typed_inHiddenSecond, display_inHiddenSecond, rfl, fun hcut => ?_⟩
  have hsame := hread.symm.trans hcut
  simp only [Value.typedBack, Except.ok.injEq, Prod.mk.injEq, TypedValue.mk.injEq,
    Value.timestamp.injEq, true_and] at hsame
  exact absurd hsame (by decide)

end CommandLine

end CqlClient
