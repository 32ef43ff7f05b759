import CqlClient.Message.Field
import CqlClient.Proofs.Bytes.Length
import CqlClient.Proofs.Failure
import CqlClient.Proofs.NameMap
import Mathlib.Algebra.Ring.Nat

/-!
Fields, written and read. A step takes a field if it reads from the front of any octets what the
field was written for; it yields a property if all it reads has it. Both are closed under putting
steps one after the other, so a message is followed field by field.
-/

namespace CqlClient.Field

variable {α β : Type}

/-- The step reads `a` off these octets and leaves what follows them. -/
def Takes (step : Reader α) (bytes : Bytes) (a : α) : Prop :=
  ∀ rest, step (bytes ++ rest) = .ok (a, rest)

/-- All that the step reads has the property. -/
def Yields (step : Reader α) (P : α → Prop) : Prop :=
  ∀ bytes a rest, step bytes = .ok (a, rest) → P a

theorem bind_apply (step : Reader α) (next : α → Reader β) (bytes : Bytes) :
    (step >>= next) bytes = step bytes >>= fun (a, rest) => next a rest := rfl

theorem pure_apply (a : α) (bytes : Bytes) : (pure a : Reader α) bytes = .ok (a, bytes) := rfl

theorem map_apply (f : α → β) (step : Reader α) (bytes : Bytes) :
    (f <$> step) bytes = step bytes >>= fun (a, rest) => .ok (f a, rest) := by
  rw [← bind_pure_comp]
  rfl

/-! ## Steps in a row -/

namespace Takes

theorem pure (a : α) : Takes (Pure.pure a) [] a := fun _ => rfl

theorem bind {step : Reader α} {next : α → Reader β} {first second : Bytes} {a : α} {b : β}
    (hfirst : Takes step first a) (hsecond : Takes (next a) second b) :
    Takes (step >>= next) (first ++ second) b := by
  intro rest
  rw [bind_apply, List.append_assoc, hfirst, ok_bind]
  exact hsecond rest

theorem map {step : Reader α} {bytes : Bytes} {a : α} (f : α → β) (h : Takes step bytes a) :
    Takes (f <$> step) bytes (f a) := by
  intro rest
  rw [map_apply, h, ok_bind]

theorem bind_pure {step : Reader α} {bytes : Bytes} {a : α} (f : α → β) (h : Takes step bytes a) :
    Takes (step >>= fun a => Pure.pure (f a)) bytes (f a) := by
  intro rest
  rw [bind_apply, h, ok_bind]
  rfl

/-- Steps that take one item each take a row of them. -/
theorem repeatFrom {step : Nat → Reader α} {write : α → Bytes} {items : List α} (start : Nat)
    (h : ∀ place, ∀ item ∈ items, Takes (step place) (write item) item) :
    Takes (Field.repeatFrom step start items.length) (items.flatMap write) items := by
  induction items generalizing start with
  | nil => exact Takes.pure []
  | cons item items ih =>
      simp only [List.forall_mem_cons] at h
      have hlater := ih (start + 1) fun place => (h place).2
      rw [List.flatMap_cons]
      exact (h start).1.bind (hlater.bind_pure _)

/-- The same, of steps that give an item according to its place. -/
theorem repeatFrom_zipIdx {step : Nat → Reader β} {write : α → Bytes} {give : Nat → α → β}
    {items : List α} (start : Nat)
    (h : ∀ place, ∀ item ∈ items, Takes (step place) (write item) (give place item)) :
    Takes (Field.repeatFrom step start items.length) (items.flatMap write)
      ((items.zipIdx start).map fun (item, place) => give place item) := by
  induction items generalizing start with
  | nil => exact Takes.pure []
  | cons item items ih =>
      simp only [List.forall_mem_cons] at h
      have hlater := ih (start + 1) fun place => (h place).2
      rw [List.flatMap_cons, List.zipIdx_cons, List.map_cons]
      exact (h start).1.bind (hlater.bind_pure _)

end Takes

namespace Yields

theorem mono {step : Reader α} {P Q : α → Prop} (h : Yields step P) (himp : ∀ a, P a → Q a) :
    Yields step Q :=
  fun bytes a rest hstep => himp a (h bytes a rest hstep)

theorem trivial (step : Reader α) : Yields step fun _ => True := fun _ _ _ _ => True.intro

theorem pure {a : α} {P : α → Prop} (h : P a) : Yields (Pure.pure a) P := by
  intro bytes b rest hstep
  cases hstep
  exact h

theorem fail (err : ProtocolError) (P : α → Prop) : Yields (Field.fail err) P := by
  intro bytes a rest hstep
  cases hstep

theorem bind {step : Reader α} {next : α → Reader β} {P : α → Prop} {Q : β → Prop}
    (hstep : Yields step P) (hnext : ∀ a, P a → Yields (next a) Q) : Yields (step >>= next) Q := by
  intro bytes b rest h
  rw [bind_apply] at h
  obtain ⟨⟨a, left⟩, ha, h⟩ := bind_eq_ok.mp h
  exact hnext a (hstep bytes a left ha) left b rest h

theorem map {step : Reader α} {f : α → β} {P : α → Prop} {Q : β → Prop} (h : Yields step P)
    (himp : ∀ a, P a → Q (f a)) : Yields (f <$> step) Q := by
  rw [← bind_pure_comp]
  exact h.bind fun a ha => Yields.pure (himp a ha)

/-- A row has as many items as asked for, each as the step at its place yields it. -/
theorem repeatFrom {step : Nat → Reader α} {P : α → Prop} {start count : Nat}
    (h : ∀ place, place < start + count → Yields (step place) P) :
    Yields (Field.repeatFrom step start count) fun items =>
      items.length = count ∧ ∀ item ∈ items, P item := by
  induction count generalizing start with
  | zero => exact Yields.pure ⟨rfl, by simp⟩
  | succ count ih =>
      rw [Field.repeatFrom]
      refine (h start (by omega)).bind ?_
      intro item hitem
      refine (ih fun place hplace => h place (by omega)).bind fun items hitems => Yields.pure ?_
      exact ⟨by rw [List.length_cons, hitems.1], List.forall_mem_cons.mpr ⟨hitem, hitems.2⟩⟩

end Yields

/-! ## Single fields -/

theorem takes_take {count : Nat} {bytes : Bytes} (what : String) (h : bytes.length = count) :
    Takes (take count what) bytes bytes := by
  intro rest
  subst h
  rw [take, Bytes.split?_append]

theorem takes_octet (what : String) (octet : UInt8) : Takes (Field.octet what) [octet] octet := by
  have h : Takes (take 1 what) [octet] [octet] := takes_take what rfl
  exact h.bind_pure fun bytes => bytes.headD 0

/-- A count or a length is taken modulo the range of its word. -/
theorem takes_word16_ofNat (what : String) (n : Nat) :
    Takes (word16 what) (Bytes.ofNat 2 n) (Bytes.toWord16 (Bytes.ofNat 2 n)) :=
  (takes_take what (Bytes.length_ofNat 2 n)).bind_pure Bytes.toWord16

theorem takes_word16 (what : String) (word : UInt16) :
    Takes (word16 what) (Bytes.ofWord16 word) word := by
  have h := takes_word16_ofNat what word.toNat
  rwa [← Bytes.ofWord16, Bytes.toWord16_ofWord16] at h

theorem takes_int32 (what : String) (n : Int32) : Takes (int32 what) (Bytes.ofInt32 n) n := by
  have h := (takes_take what (Bytes.length_ofInt32 n)).bind_pure Bytes.toInt32
  rwa [Bytes.toInt32_ofInt32] at h

theorem takes_int32_ofNat (what : String) (n : Nat) :
    Takes (int32 what) (Bytes.ofNat 4 n) (Bytes.toInt32 (Bytes.ofNat 4 n)) :=
  (takes_take what (Bytes.length_ofNat 4 n)).bind_pure Bytes.toInt32

theorem takes_utf8 (what text : String) :
    Takes (utf8 (Utf8.encode text).length what) (Utf8.encode text) text := by
  intro rest
  rw [utf8, bind_apply, takes_take what rfl, ok_bind]
  simp only [Utf8.decode?_encode]
  rfl

/-- How many octets a text has. -/
def octetLength (text : String) : Nat := (Utf8.encode text).length

theorem octetLength_ofList (cs : List Char) :
    octetLength (String.ofList cs) = (cs.map Char.utf8Size).sum := by
  have hoctets : octetLength (String.ofList cs) = (cs.flatMap String.utf8EncodeChar).length := by
    simp [octetLength, Utf8.encode, List.utf8Encode]
  rw [hoctets, List.length_flatMap]
  simp only [String.length_utf8EncodeChar]

theorem octetLength_replicate (n : Nat) (c : Char) :
    octetLength (String.ofList (List.replicate n c)) = n * c.utf8Size := by
  rw [octetLength_ofList, List.map_replicate, List.sum_replicate_nat]

/-- A character takes at most four octets. -/
theorem octetLength_ofList_le (cs : List Char) : octetLength (String.ofList cs) ≤ 4 * cs.length := by
  rw [octetLength_ofList]
  induction cs with
  | nil => exact Nat.le_refl 0
  | cons c cs ih =>
      have hc := c.utf8Size_le_four
      rw [List.map_cons, List.sum_cons, List.length_cons]
      omega

theorem takes_string (what : String) {text : String} (h : octetLength text ≤ 0xffff) :
    Takes (string what) (ofString text) text := by
  apply (takes_word16_ofNat what _).bind
  have hlength : (Bytes.toWord16 (Bytes.ofNat 2 (Utf8.encode text).length)).toNat =
      (Utf8.encode text).length := Bytes.toNat_toWord16_ofNat h
  rw [hlength]
  exact takes_utf8 what text

theorem takes_longString (what : String) {text : String} (h : octetLength text ≤ 0x7fffffff) :
    Takes (longString what) (ofLongString text) text := by
  rw [octetLength] at h
  apply (takes_int32_ofNat what _).bind
  rw [if_neg (Bytes.not_toInt32_ofNat_lt h), Bytes.toInt_toInt32_ofNat h]
  exact takes_utf8 what text

theorem takes_value (what : String) {value : Option Bytes}
    (h : ∀ octets, value = some octets → octets.length ≤ 0x7fffffff) :
    Takes (Field.value what) (ofValue value) value := by
  cases value with
  | none =>
      have hnegative : Bytes.toInt32 (Bytes.ofInt32 (-1)) < 0 := by decide
      have h := (takes_take what (Bytes.length_ofInt32 (-1))).bind_pure Bytes.toInt32
      rw [← List.append_nil (ofValue none)]
      apply h.bind
      rw [if_pos hnegative]
      exact Takes.pure none
  | some octets =>
      have hlength := h octets rfl
      apply (takes_int32_ofNat what _).bind
      rw [if_neg (Bytes.not_toInt32_ofNat_lt hlength), Bytes.toInt_toInt32_ofNat hlength]
      exact (takes_take what rfl).bind_pure some

theorem yields_take (count : Nat) (what : String) :
    Yields (take count what) fun bytes => bytes.length = count := by
  intro bytes head rest h
  rw [take] at h
  split at h
  · next hsplit =>
    cases h
    exact (Bytes.split?_eq_some_iff.mp hsplit).2
  · cases h

theorem yields_utf8 (count : Nat) (what : String) :
    Yields (utf8 count what) fun text => octetLength text = count := by
  refine (yields_take count what).bind ?_
  intro bytes hbytes
  split
  · next text htext =>
    apply Yields.pure
    rw [octetLength, ← Utf8.decode?_eq_some_iff.mp htext, hbytes]
  · exact Yields.fail _ _

theorem yields_string (what : String) :
    Yields (string what) fun text => octetLength text ≤ 0xffff := by
  refine (Yields.trivial _).bind fun length _ => (yields_utf8 _ what).mono ?_
  intro text htext
  have := length.toNat_lt
  omega

/-- A length that is not negative is one that a signed word can state. -/
theorem toNat_toInt_le (length : Int32) : length.toInt.toNat ≤ 0x7fffffff := by
  have hle := length.toInt_lt
  omega

theorem yields_longString (what : String) :
    Yields (longString what) fun text => octetLength text ≤ 0x7fffffff := by
  refine (Yields.trivial _).bind ?_
  intro length _
  split
  · exact Yields.fail _ _
  · exact (yields_utf8 _ what).mono fun text htext => htext ▸ toNat_toInt_le length

theorem yields_value (what : String) :
    Yields (Field.value what) fun value =>
      ∀ octets, value = some octets → octets.length ≤ 0x7fffffff := by
  refine (Yields.trivial _).bind ?_
  intro length _
  split
  · exact Yields.pure (by simp)
  · refine (yields_take _ what).bind fun bytes hbytes => Yields.pure ?_
    rintro octets ⟨⟩
    exact hbytes ▸ toNat_toInt_le length

/-! ## Rows with their number in front -/

/-- A row whose number a word of sixteen bits can state, of items that all have the property. -/
def Counted (P : α → Prop) (items : List α) : Prop :=
  items.length ≤ 0xffff ∧ ∀ item ∈ items, P item

instance {P : α → Prop} [DecidablePred P] (items : List α) : Decidable (Counted P items) :=
  inferInstanceAs (Decidable (items.length ≤ 0xffff ∧ ∀ item ∈ items, P item))

theorem Counted.of_perm {P : α → Prop} {items others : List α} (h : Counted P items)
    (order : others.Perm items) : Counted P others := by
  refine ⟨order.length_eq ▸ h.1, ?_⟩
  intro item hitem
  exact h.2 item (order.mem_iff.mp hitem)

/-- A map has no more entries than it is made of, and no others. -/
theorem Counted.ofList {P : String × α → Prop} {entries : List (String × α)}
    (h : Counted P entries) : Counted P (NameMap.ofList entries).entries := by
  refine ⟨Nat.le_trans (NameMap.size_ofList_le entries) h.1, ?_⟩
  intro entry hentry
  exact h.2 entry (NameMap.mem_of_mem_ofList hentry)

theorem takes_counted {step : Reader α} {write : α → Bytes} {P : α → Prop} {items : List α}
    (what : String) (f : List α → β) (h : Counted P items)
    (htakes : ∀ item, P item → Takes step (write item) item) :
    Takes (word16 what >>= fun count => times count.toNat step >>= fun items => pure (f items))
      (Bytes.ofNat 2 items.length ++ items.flatMap write) (f items) := by
  apply (takes_word16_ofNat what _).bind
  rw [Bytes.toNat_toWord16_ofNat h.1]
  refine Takes.bind_pure f (Takes.repeatFrom 0 ?_)
  intro _ item hitem
  exact htakes item (h.2 item hitem)

theorem yields_counted {step : Reader α} {P : α → Prop} {Q : β → Prop} (what : String)
    (f : List α → β) (h : Yields step P) (himp : ∀ items, Counted P items → Q (f items)) :
    Yields (word16 what >>= fun count => times count.toNat step >>= fun items => pure (f items))
      Q := by
  refine (Yields.trivial _).bind ?_
  intro count _
  have hcount := count.toNat_lt
  have hitems : Yields (times count.toNat step) _ := Yields.repeatFrom fun _ _ => h
  refine hitems.bind fun items ⟨hlength, hall⟩ => Yields.pure ?_
  exact himp items ⟨by omega, hall⟩

/-! ## Whole bodies -/

/-- A body is read whole if the step reads it and leaves nothing. -/
theorem read_finish_eq_ok {step : Reader α} {bytes : Bytes} {a : α} :
    read (do let a ← step; finish; return a) bytes = .ok a ↔ step bytes = .ok (a, []) := by
  show Except.map Prod.fst ((step >>= fun a => finish >>= fun _ => pure a) bytes) = _ ↔ _
  rw [bind_apply]
  rcases step bytes with err | ⟨b, rest⟩
  · simp [error_bind, Except.map]
  · rw [ok_bind]
    show Except.map Prod.fst ((finish >>= fun _ => pure b) rest) = _ ↔ _
    rw [bind_apply]
    by_cases hempty : rest = []
    · subst hempty
      simp [finish, ok_bind, pure_apply, Except.map]
    · simp [finish, hempty, error_bind, Except.map]

theorem read_eq_ok {step : Reader α} {bytes : Bytes} {a : α} :
    read step bytes = .ok a ↔ ∃ rest, step bytes = .ok (a, rest) := by
  show Except.map Prod.fst (step bytes) = _ ↔ _
  rcases step bytes with err | ⟨b, rest⟩
  · simp [Except.map]
  · simp [Except.map]

theorem Yields.finish {step : Reader α} {P : α → Prop} (h : Yields step P) :
    Yields (do let a ← step; Field.finish; return a) P :=
  h.bind fun _ ha => (Yields.trivial _).bind fun _ _ => Yields.pure ha

theorem Takes.finish {step : Reader α} {bytes : Bytes} {a : α} (h : Takes step bytes a) :
    (do let a ← step; Field.finish; return a : Reader α) bytes = .ok (a, []) := by
  have hwhole := h []
  rw [List.append_nil] at hwhole
  rw [bind_apply, hwhole, ok_bind]
  rfl

/-- A body that a step takes is read whole. -/
theorem Takes.read_finish {step : Reader α} {bytes : Bytes} {a : α} (h : Takes step bytes a) :
    read (do let a ← step; Field.finish; return a) bytes = .ok a :=
  read_eq_ok.mpr ⟨[], h.finish⟩

end CqlClient.Field
