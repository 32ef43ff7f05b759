import CqlClient.Proofs.Cell.Layout
import CqlClient.Proofs.Value.Increments

/-!
Octets that are read have one reading and one form. What is read has the shape of its type at every
depth and no null inside; and writing it, with its totals as increments, gives the octets back, if
the type has no integers of any size in it and no set or map holds an element or a key twice. An
integer of any size has many forms, of which the shortest one is written.
-/

namespace CqlClient

/-- The values that a column without elements is read as. -/
def Scalar.Returns : Scalar → Value → Prop
  | int, .int _ => True
  | bigint, .bigint _ => True
  | varint, .varint _ => True
  | float, .float _ => True
  | double, .double _ => True
  | boolean, .boolean _ => True
  | blob, .blob _ => True
  | ascii, .ascii _ => True
  | text, .text _ => True
  | varchar, .text _ => True
  | timestamp, .timestamp _ => True
  | uuid, .uuid _ => True
  | timeuuid, .timeuuid _ => True
  | counter, .counter _ => True
  | _, _ => False

theorem fixedLength_eq_ok {type : WireType} {length : Nat} {octets octets' : Bytes}
    (h : fixedLength type length octets = .ok octets') :
    octets.length = length ∧ octets' = octets := by
  rw [fixedLength] at h
  split at h
  · next hlength =>
    cases h
    exact ⟨hlength, rfl⟩
  · cases h

theorem decodeText_eq_ok {octets : Bytes} {text : String} (h : decodeText octets = .ok text) :
    octets = Utf8.encode text := by
  rw [decodeText] at h
  split at h
  · next hdecode =>
    cases h
    exact Utf8.decode?_eq_some_iff.mp hdecode
  · cases h

theorem decodeUuid_eq_ok {type : WireType} {octets : Bytes} {id : Uuid}
    (h : decodeUuid type octets = .ok id) : id.octets = octets := by
  rw [decodeUuid, Uuid.ofOctets?] at h
  split at h
  · next hsome =>
    split at hsome
    · cases hsome
      cases h
      rfl
    · cases hsome
  · cases h

/-- A number of milliseconds that makes an instant is what the instant has. -/
theorem Instant.millis_of_ofMillis? {n : Int} {t : Instant} (h : ofMillis? n = some t) :
    t.millis = n := by
  rw [ofMillis?, of?] at h
  split at h
  · cases h
    simp only [millis]
    omega
  · cases h

/-- Octets of fixed length and the value they are read as. -/
theorem read_fixedLength {α : Type} {type : WireType} {length : Nat} {octets : Bytes}
    {give : Bytes → α} {a : α}
    (h : (do return give (← fixedLength type length octets)) = Except.ok a) :
    octets.length = length ∧ a = give octets := by
  obtain ⟨octets', hfixed, hgive⟩ := bind_eq_ok.mp h
  obtain ⟨hlength, rfl⟩ := fixedLength_eq_ok hfixed
  cases hgive
  exact ⟨hlength, rfl⟩

/-- What is read has the kind of its type. It has one form, unless it is an integer of any size. -/
theorem Scalar.decode_eq_ok {s : Scalar} {octets : Bytes} {v : Value}
    (h : s.decode octets = .ok v) :
    s.Returns v ∧ (s ≠ .varint → s.encode v.increments = .ok octets) := by
  cases s with
  | decimal | inet => cases h
  | int =>
      obtain ⟨hlength, rfl⟩ := read_fixedLength h
      exact ⟨trivial, fun _ => congrArg Except.ok (Bytes.ofInt32_toInt32 hlength)⟩
  | bigint | counter =>
      obtain ⟨hlength, rfl⟩ := read_fixedLength h
      exact ⟨trivial, fun _ => congrArg Except.ok (Bytes.ofInt64_toInt64 hlength)⟩
  | float =>
      obtain ⟨hlength, rfl⟩ := read_fixedLength h
      exact ⟨trivial, fun _ => congrArg Except.ok (Bytes.ofWord32_toWord32 hlength)⟩
  | double =>
      obtain ⟨hlength, rfl⟩ := read_fixedLength h
      exact ⟨trivial, fun _ => congrArg Except.ok (Bytes.ofWord64_toWord64 hlength)⟩
  | varint =>
      rw [decode] at h
      split at h
      · cases h
      · cases h
        exact ⟨trivial, fun hs => absurd rfl hs⟩
  | boolean =>
      obtain ⟨octets', hfixed, hread⟩ := bind_eq_ok.mp h
      obtain ⟨-, rfl⟩ := fixedLength_eq_ok hfixed
      split at hread <;> cases hread <;> exact ⟨trivial, fun _ => rfl⟩
  | blob =>
      cases h
      exact ⟨trivial, fun _ => rfl⟩
  | ascii =>
      simp only [decode] at h
      split at h
      · cases h
      next hascii =>
      obtain ⟨content, htext, hread⟩ := bind_eq_ok.mp h
      cases hread
      refine ⟨trivial, fun _ => ?_⟩
      rw [decodeText_eq_ok htext] at hascii ⊢
      simp only [Value.increments, encode, hascii]
  | text | varchar =>
      obtain ⟨content, htext, hread⟩ := bind_eq_ok.mp h
      cases hread
      exact ⟨trivial, fun _ => congrArg Except.ok (decodeText_eq_ok htext).symm⟩
  | timestamp =>
      obtain ⟨octets', hfixed, hread⟩ := bind_eq_ok.mp h
      obtain ⟨hlength, rfl⟩ := fixedLength_eq_ok hfixed
      simp only at hread
      split at hread
      · next t hmillis =>
        cases hread
        refine ⟨trivial, fun _ => ?_⟩
        show Except.ok (Bytes.ofInt64 (Int64.ofInt t.millis)) = _
        rw [Instant.millis_of_ofMillis? hmillis, Int64.ofInt_toInt,
          Bytes.ofInt64_toInt64 hlength]
      · cases hread
  | uuid | timeuuid =>
      obtain ⟨id, hid, hread⟩ := bind_eq_ok.mp h
      cases hread
      exact ⟨trivial, fun _ => congrArg Except.ok (decodeUuid_eq_ok hid)⟩

/-- What a column without elements is read as has no elements and is no null. -/
theorem Scalar.Returns.plain {s : Scalar} {v : Value} (h : s.Returns v) :
    v.depth = 0 ∧ v ≠ .null ∧ ∀ n, v ≠ .counterDelta n := by
  fun_cases Scalar.Returns s v
  case case15 =>
    rw [Scalar.Returns] at h
    · exact h.elim
    all_goals assumption
  all_goals simp [Value.depth]

namespace WireType

/-- The values that a column is read as: of its own kind at every depth. -/
def Returns : WireType → Value → Prop
  | scalar s, v => s.Returns v
  | list e, .list items => ∀ v ∈ items, e.Returns v
  | set e, .set items => ∀ v ∈ items, e.Returns v
  | map k w, .map entries => ∀ entry ∈ entries, k.Returns entry.1 ∧ w.Returns entry.2
  | _, _ => False

/-- Whether a scalar type stands somewhere in a type. -/
def mentions (s : Scalar) : WireType → Bool
  | scalar s' => s' == s
  | list e => e.mentions s
  | set e => e.mentions s
  | map k w => k.mentions s || w.mentions s

theorem returns_of_decodeBody {t : WireType} {octets : Bytes} {v : Value}
    (h : t.decodeBody octets = .ok v) : t.Returns v := by
  induction t generalizing octets v with
  | scalar s => exact (Scalar.decode_eq_ok h).1
  | list e ih =>
      obtain ⟨items, bodies, rfl, -, hitems⟩ := decodeBody_list_iff.mp h
      intro v hv
      obtain ⟨body, -, hbody⟩ := exists_of_mem_right hitems v hv
      exact ih hbody
  | set e ih =>
      obtain ⟨items, bodies, rfl, -, hitems⟩ := decodeBody_set_iff.mp h
      intro v hv
      obtain ⟨body, -, hbody⟩ := exists_of_mem_right hitems v hv
      exact ih hbody
  | map k w ihk ihw =>
      obtain ⟨entries, bodies, rfl, -, hentries⟩ := decodeBody_map_iff.mp h
      intro entry hentry
      obtain ⟨body, -, hkey, hvalue⟩ := exists_of_mem_right hentries entry hentry
      exact ⟨ihk hkey, ihw hvalue⟩

/-- Nothing inside what a column is read as is a null or an increment. -/
theorem Returns.throughout {t : WireType} {v : Value} (h : t.Returns v) :
    v.Throughout fun u => u ≠ .null ∧ ∀ n, u ≠ .counterDelta n := by
  induction t generalizing v with
  | scalar s =>
      obtain ⟨hdepth, hplain⟩ := Scalar.Returns.plain h
      exact (Value.throughout_of_depth hdepth).mpr hplain
  | list e ih =>
      cases v with
      | list items => exact Value.throughout_list.mpr ⟨by simp, fun v hv => ih (h v hv)⟩
      | _ => exact h.elim
  | set e ih =>
      cases v with
      | set items => exact Value.throughout_set.mpr ⟨by simp, fun v hv => ih (h v hv)⟩
      | _ => exact h.elim
  | map k w ihk ihw =>
      cases v with
      | map entries =>
          exact Value.throughout_map.mpr
            ⟨by simp, fun entry hentry => ⟨ihk (h entry hentry).1, ihw (h entry hentry).2⟩⟩
      | _ => exact h.elim

theorem Returns.withoutIncrements {t : WireType} {v : Value} (h : t.Returns v) :
    v.WithoutIncrements := fun u hu => (h.throughout u hu).2

/-- The octets that a value was read off are those it is written as, with its totals as increments.
The induction is on the type: the elements of a collection were read one by one. -/
theorem encodeBody_increments {t : WireType} (ht : t.mentions .varint = false) {octets : Bytes}
    {v : Value} (hv : v.Unrepeated) (h : t.decodeBody octets = .ok v) :
    t.encodeBody v.increments = .ok octets := by
  induction t generalizing octets v with
  | scalar s =>
      refine (Scalar.decode_eq_ok h).2 ?_
      rintro rfl
      cases ht
  | list e ih =>
      obtain ⟨items, bodies, rfl, hrow, hitems⟩ := decodeBody_list_iff.mp h
      have hwrites : List.Forall₂ e.Writes (items.map Value.increments) bodies :=
        forall₂_map_of_mem hitems.flip fun v hmem body =>
          ih ht (Value.unrepeated_list.mp hv v hmem)
      rw [Value.increments, Value.incrementsItems_eq_map]
      exact encodeBody_list_iff.mpr ⟨_, bodies, rfl, hrow, hwrites⟩
  | set e ih =>
      obtain ⟨items, bodies, rfl, hrow, hitems⟩ := decodeBody_set_iff.mp h
      obtain ⟨hunique, hunrepeated⟩ := Value.unrepeated_set.mp hv
      have hplain := (Value.throughout_set.mp (returns_of_decodeBody h).withoutIncrements).2
      have hwrites : List.Forall₂ e.Writes (items.map Value.increments) bodies :=
        forall₂_map_of_mem hitems.flip fun v hmem body => ih ht (hunrepeated v hmem)
      rw [Value.increments, Value.incrementsItems_eq_map]
      exact encodeBody_set_iff.mpr
        ⟨_, bodies, rfl, (Value.hasRepeat_increments hplain).trans hunique, hrow, hwrites⟩
  | map k w ihk ihw =>
      obtain ⟨entries, bodies, rfl, hrow, hentries⟩ := decodeBody_map_iff.mp h
      obtain ⟨hunique, hunrepeated⟩ := Value.unrepeated_map.mp hv
      have hplain := (Value.throughout_map.mp (returns_of_decodeBody h).withoutIncrements).2
      rw [mentions, Bool.or_eq_false_iff] at ht
      have hwrites : List.Forall₂
          (fun entry body => k.Writes entry.1 body.1 ∧ w.Writes entry.2 body.2)
          (entries.map fun entry => (entry.1.increments, entry.2.increments)) bodies :=
        forall₂_map_of_mem hentries.flip fun entry hmem body hread =>
          ⟨ihk ht.1 (hunrepeated entry hmem).1 hread.1,
            ihw ht.2 (hunrepeated entry hmem).2 hread.2⟩
      have hkeys := Value.hasRepeat_keys_increments fun entry hmem => (hplain entry hmem).1
      rw [Value.increments, Value.incrementsEntries_eq_map]
      exact encodeBody_map_iff.mpr ⟨_, bodies, rfl, hkeys.trans hunique, hrow, hwrites⟩

/-- Octets that can be read are read as a value that has the kind of its type at every depth and no
null inside. Writing the value, with its totals as increments, gives the same octets, unless there
are integers of any size in the type, or sets or maps in the value that hold an element or a key
twice. -/
theorem encode_increments_of_decode {t : WireType} {octets : Bytes} {v : Value}
    (hlength : octets.length < 2 ^ 31) (h : t.decode (some octets) = .ok v) :
    t.Returns v ∧ (∀ u : Value, u.Inside v → u ≠ .null) ∧
      (t.mentions .varint = false → v.Unrepeated →
        t.encode v.increments = .ok (some octets)) := by
  have hreturns : t.Returns v := returns_of_decodeBody h
  refine ⟨hreturns, fun u hu => (hreturns.throughout u hu).1, fun ht hv => ?_⟩
  exact encode_some_iff.mpr ⟨encodeBody_increments ht hv h, Nat.le_of_lt_succ hlength⟩

/-- A map from a counter to a set of a negative zero and a not-a-number twice, which does not equal
itself. -/
theorem encode_increments_of_counted_set :
    let t : WireType := .map (.scalar .counter) (.set (.scalar .float))
    let v : Value := .map [
      (.counter (-3), .set [.float 0x80000000, .float 0x7fc00001, .float 0x7fc00001])]
    let octets : Bytes := [
      0, 0, 0, 1, 0, 0, 0, 8, 255, 255, 255, 255, 255, 255, 255, 253,
      0, 0, 0, 28, 0, 0, 0, 3, 0, 0, 0, 4, 128, 0, 0, 0,
      0, 0, 0, 4, 127, 192, 0, 1, 0, 0, 0, 4, 127, 192, 0, 1]
    octets.length < 2 ^ 31 ∧ t.decode (some octets) = .ok v ∧ t.mentions .varint = false ∧
      v.Unrepeated ∧ t.encode v.increments = .ok (some octets) := by
  intro t v octets
  have hlength : octets.length < 2 ^ 31 := by decide
  have hread : t.decode (some octets) = .ok v := by rfl
  have hunrepeated : v.Unrepeated := by
    simp only [v, Value.unrepeated_map, Value.unrepeated_set, List.forall_mem_cons,
      List.not_mem_nil, false_implies, implies_true, and_true]
    have hplain : ∀ bits, (Value.float bits).Unrepeated := fun _ => Value.unrepeated_of_depth rfl
    exact ⟨by decide, Value.unrepeated_of_depth rfl, by decide, hplain _, hplain _, hplain _⟩
  exact ⟨hlength, hread, rfl, hunrepeated,
    (encode_increments_of_decode hlength hread).2.2 rfl hunrepeated⟩

end WireType

/-! ## Integers of any size -/

namespace Scalar

open TwosComplement

/-- An integer of any size is written as its shortest form, and there is only one. All octets, if
there are any, are read as the integer that they stand for, and this is written as the same octets
without those at the front that only repeat the sign. -/
theorem varint_canonical :
    (∀ n, ∃ octets, varint.encode (.varint n) = .ok octets ∧ IsShortest octets n) ∧
    ∀ octets, octets ≠ [] →
      varint.decode octets = .ok (.varint (value octets)) ∧
      varint.encode (.varint (value octets)) = .ok (shortened octets) := by
  constructor
  · intro n
    exact ⟨TwosComplement.encode n, rfl, isShortest_encode n⟩
  · intro octets hne
    constructor
    · rw [decode, if_neg (by simpa using hne), decode_eq_value]
    · rw [encode, encode_value hne]

/-- The least integer of two octets behind two more that repeat its sign. -/
theorem varint_canonical_of_padded_octets :
    let octets : Bytes := [0xFF, 0xFF, 0x80, 0x00]
    octets ≠ [] ∧ varint.decode octets = .ok (.varint (-32768)) ∧
      varint.encode (.varint (-32768)) = .ok [0x80, 0x00] ∧ IsShortest [0x80, 0x00] (-32768) := by
  intro octets
  have hne : octets ≠ [] := by decide
  have hvalue : value octets = -32768 := by decide
  have hshortened : shortened octets = [0x80, 0x00] := by decide
  obtain ⟨hwrites, hreads⟩ := varint_canonical
  obtain ⟨hread, hagain⟩ := hreads octets hne
  obtain ⟨shortest, hwrite, hshortest⟩ := hwrites (value octets)
  cases hagain.symm.trans hwrite
  rw [hvalue, hshortened] at *
  exact ⟨hne, hread, hagain, hshortest⟩

end Scalar

end CqlClient
