import CqlClient.Cell.Decode
import CqlClient.Proofs.Bytes.Length
import CqlClient.Proofs.Bytes.TwosComplement
import CqlClient.Proofs.Failure
import CqlClient.Proofs.Value.Stored

/-!
Reading a cell gives what was stored in it. A reader is followed through what a writer wrote: the
count, then every element behind its own length, and what comes after is left alone.
-/

namespace CqlClient

open Value

theorem encodeCount_eq_ok {count : Nat} {bytes : Bytes} :
    encodeCount count = .ok bytes ↔ count ≤ Cell.limit ∧ bytes = Bytes.ofNat 4 count := by
  rw [encodeCount]
  split
  · next hfits => simp [hfits, eq_comm]
  · next hlarge => simp [hlarge]

theorem readLength_ofNat (collection : WireType) (n : Nat) (rest : Bytes) :
    readLength collection (Bytes.ofNat 4 n ++ rest) =
      .ok (Bytes.toInt32 (Bytes.ofNat 4 n), rest) := by
  rw [readLength, Bytes.split?_ofNat]

theorem readCount_ofNat (collection : WireType) {count : Nat} (h : count ≤ Cell.limit)
    (rest : Bytes) : readCount collection (Bytes.ofNat 4 count ++ rest) = .ok (count, rest) := by
  rw [readCount, readLength_ofNat, ok_bind]
  show (if Bytes.toInt32 (Bytes.ofNat 4 count) < 0 then _ else _) = _
  rw [if_neg (Bytes.not_toInt32_ofNat_lt h), Bytes.toInt_toInt32_ofNat h]
  rfl

/-- An element that was written is not null and stands behind its length. -/
theorem encodeElement_eq_ok {collection : WireType} {encode : Value → Except EncodeError Bytes}
    {v : Value} {bytes : Bytes} (h : encodeElement collection encode v = .ok bytes) :
    ∃ body, encode v = .ok body ∧ body.length ≤ Cell.limit ∧
      bytes = Bytes.ofNat 4 body.length ++ body := by
  rw [encodeElement] at h
  split at h
  · cases h
  · obtain ⟨body, hbody, h⟩ := bind_eq_ok.mp h
    obtain ⟨length, hlength, h⟩ := bind_eq_ok.mp h
    obtain ⟨hfits, rfl⟩ := encodeCount_eq_ok.mp hlength
    cases h
    exact ⟨body, hbody, hfits, rfl⟩

theorem readElement_ofNat (collection : WireType) {decode : Bytes → Except DecodeError Value}
    {body : Bytes} {v : Value} (hfits : body.length ≤ Cell.limit) (hbody : decode body = .ok v)
    (rest : Bytes) :
    readElement collection decode (Bytes.ofNat 4 body.length ++ body ++ rest) =
      .ok (v, rest) := by
  rw [readElement, List.append_assoc, readLength_ofNat, ok_bind]
  show (if Bytes.toInt32 (Bytes.ofNat 4 body.length) < 0 then _ else _) = _
  rw [if_neg (Bytes.not_toInt32_ofNat_lt hfits), Bytes.toInt_toInt32_ofNat hfits]
  rw [Int.toNat_natCast, Bytes.split?_append]
  simp only [hbody, ok_bind]
  rfl

/-- A reader undoes a writer on an item if it takes off the front what was written for it. -/
def Undoes {α β : Type} (read : Bytes → Except DecodeError (β × Bytes))
    (write : α → Except EncodeError Bytes) (x : α) (y : β) : Prop :=
  ∀ bytes rest, write x = .ok bytes → read (bytes ++ rest) = .ok (y, rest)

theorem Undoes.element {collection : WireType} {decode : Bytes → Except DecodeError Value}
    {encode : Value → Except EncodeError Bytes} {v w : Value}
    (h : ∀ body, encode v = .ok body → decode body = .ok w) :
    Undoes (readElement collection decode) (encodeElement collection encode) v w := by
  intro bytes rest hwrite
  obtain ⟨body, hbody, hfits, rfl⟩ := encodeElement_eq_ok hwrite
  exact readElement_ofNat collection hfits (h body hbody) rest

/-- Items that are undone one by one are undone in a row. -/
theorem readItems_encodeItems {read : Bytes → Except DecodeError (Value × Bytes)}
    {write : Value → Except EncodeError Bytes} {change : Value → Value} {items : List Value}
    (h : ∀ v ∈ items, Undoes read write v (change v)) :
    ∀ {bytes : Bytes}, encodeItems write items = .ok bytes → ∀ rest,
      readItems read items.length (bytes ++ rest) = .ok (items.map change, rest) := by
  induction items with
  | nil =>
      intro bytes hbytes rest
      cases hbytes
      rfl
  | cons v items ih =>
      intro bytes hbytes rest
      rw [List.forall_mem_cons] at h
      obtain ⟨first, hfirst, hbytes⟩ := bind_eq_ok.mp hbytes
      obtain ⟨later, hlater, hbytes⟩ := bind_eq_ok.mp hbytes
      cases hbytes
      rw [List.length_cons, readItems, List.append_assoc, h.1 first _ hfirst, ok_bind]
      simp only [ih h.2 hlater rest, ok_bind, pure_eq_ok, List.map_cons]

theorem readItems_encodeEntries {readKey readValue : Bytes → Except DecodeError (Value × Bytes)}
    {writeKey writeValue : Value → Except EncodeError Bytes} {change : Value → Value}
    {entries : List (Value × Value)}
    (h : ∀ entry ∈ entries, Undoes readKey writeKey entry.1 (change entry.1) ∧
      Undoes readValue writeValue entry.2 (change entry.2)) :
    ∀ {bytes : Bytes}, encodeEntries writeKey writeValue entries = .ok bytes → ∀ rest,
      readItems (readEntry readKey readValue) entries.length (bytes ++ rest) =
        .ok (entries.map fun entry => (change entry.1, change entry.2), rest) := by
  induction entries with
  | nil =>
      intro bytes hbytes rest
      cases hbytes
      rfl
  | cons entry entries ih =>
      intro bytes hbytes rest
      rw [List.forall_mem_cons] at h
      obtain ⟨key, hkey, hbytes⟩ := bind_eq_ok.mp hbytes
      obtain ⟨value, hvalue, hbytes⟩ := bind_eq_ok.mp hbytes
      obtain ⟨later, hlater, hbytes⟩ := bind_eq_ok.mp hbytes
      cases hbytes
      have hentry : readEntry readKey readValue (key ++ (value ++ (later ++ rest))) =
          .ok ((change entry.1, change entry.2), later ++ rest) := by
        rw [readEntry, h.1.1 key _ hkey, ok_bind]
        simp only [h.1.2 value _ hvalue, ok_bind, pure_eq_ok]
      rw [List.length_cons, readItems]
      simp only [List.append_assoc, hentry, ok_bind, ih h.2 hlater rest, pure_eq_ok,
        List.map_cons]

/-- A collection is read back if its elements are. -/
theorem readCollection_ofNat {α : Type} (collection : WireType)
    {read : Bytes → Except DecodeError (α × Bytes)} {count : Nat} {body : Bytes} {items : List α}
    (hcount : count ≤ Cell.limit)
    (hitems : ∀ rest, readItems read count (body ++ rest) = .ok (items, rest)) :
    readCollection collection read (Bytes.ofNat 4 count ++ body) = .ok items := by
  have hwhole := hitems []
  rw [List.append_nil] at hwhole
  rw [readCollection, readCount_ofNat collection hcount, ok_bind]
  simp only [hwhole, ok_bind]
  rfl

theorem fixedLength_ok {type : WireType} {length : Nat} {bytes : Bytes}
    (h : bytes.length = length) : fixedLength type length bytes = .ok bytes := by
  rw [fixedLength, if_pos h]

theorem decodeText_encode (text : String) : decodeText (Utf8.encode text) = .ok text := by
  rw [decodeText, Utf8.decode?_encode]

theorem decodeUuid_octets (type : WireType) (id : Uuid) : decodeUuid type id.octets = .ok id := by
  rw [decodeUuid, Uuid.ofOctets?, dif_pos id.length_octets]

/-- The milliseconds of an instant are far inside a signed word of eight octets. -/
theorem Instant.toInt_ofInt_millis (t : Instant) : (Int64.ofInt t.millis).toInt = t.millis := by
  obtain ⟨hfirst, hlast⟩ := t.seconds_mem
  have hnanos := t.nanos_lt
  simp only [firstSecond, lastSecond] at hfirst hlast
  apply Int64.toInt_ofInt_of_le
  · simp only [millis]
    omega
  · simp only [millis]
    omega

theorem Scalar.decode_encode {s : Scalar} {v : Value} {bytes : Bytes} (hv : v.InCalendar)
    (h : s.encode v = .ok bytes) : s.decode bytes = .ok v.stored := by
  fun_cases Scalar.encode s v <;>
    simp only [Scalar.encode, Except.ok.injEq, reduceCtorEq] at h
  case case5 n =>
    subst h
    rw [Scalar.decode, if_neg (by simpa using TwosComplement.encode_ne_nil n),
      TwosComplement.decode_encode]
    rfl
  case case8 b =>
    subst h
    cases b <;> rfl
  case case10 hposition => simp [hposition] at h
  case case11 content hascii =>
    simp only [hascii, Except.ok.injEq] at h
    subst h
    simp only [Scalar.decode, hascii, decodeText_encode, ok_bind, pure_eq_ok, stored]
  case case14 t =>
    subst h
    have hmillis := Instant.ofMillis?_millis hv
    simp only [Scalar.decode, fixedLength_ok (Bytes.length_ofInt64 _), ok_bind,
      Bytes.toInt64_ofInt64, Instant.toInt_ofInt_millis, hmillis, pure_eq_ok, stored]
  -- What is left has a fixed length or stands for itself.
  all_goals
    subst h
    simp [Scalar.decode, fixedLength_ok, decodeText_encode, decodeUuid_octets, ok_bind, pure_eq_ok,
      stored]

namespace WireType

theorem encodeBody_list_eq_ok {e : WireType} {v : Value} {bytes : Bytes}
    (h : (list e).encodeBody v = .ok bytes) :
    ∃ items body, v = .list items ∧ items.length ≤ Cell.limit ∧
      encodeItems (encodeElement (list e) e.encodeBody) items = .ok body ∧
      bytes = Bytes.ofNat 4 items.length ++ body := by
  cases v <;> try cases h
  next items =>
  rw [encodeBody] at h
  obtain ⟨count, hcount, h⟩ := bind_eq_ok.mp h
  obtain ⟨body, hbody, h⟩ := bind_eq_ok.mp h
  obtain ⟨hfits, rfl⟩ := encodeCount_eq_ok.mp hcount
  cases h
  exact ⟨items, body, rfl, hfits, hbody, rfl⟩

theorem encodeBody_set_eq_ok {e : WireType} {v : Value} {bytes : Bytes}
    (h : (set e).encodeBody v = .ok bytes) :
    ∃ items body, v = .set items ∧ hasRepeat items = false ∧ items.length ≤ Cell.limit ∧
      encodeItems (encodeElement (set e) e.encodeBody) items = .ok body ∧
      bytes = Bytes.ofNat 4 items.length ++ body := by
  cases v <;> try cases h
  next items =>
  rw [encodeBody] at h
  split at h
  · cases h
  next hunique =>
  obtain ⟨count, hcount, h⟩ := bind_eq_ok.mp h
  obtain ⟨body, hbody, h⟩ := bind_eq_ok.mp h
  obtain ⟨hfits, rfl⟩ := encodeCount_eq_ok.mp hcount
  cases h
  exact ⟨items, body, rfl, by simpa using hunique, hfits, hbody, rfl⟩

theorem encodeBody_map_eq_ok {k w : WireType} {v : Value} {bytes : Bytes}
    (h : (map k w).encodeBody v = .ok bytes) :
    ∃ entries body, v = .map entries ∧ hasRepeat (entries.map Prod.fst) = false ∧
      entries.length ≤ Cell.limit ∧
      encodeEntries (encodeElement (map k w) k.encodeBody)
        (encodeElement (map k w) w.encodeBody) entries = .ok body ∧
      bytes = Bytes.ofNat 4 entries.length ++ body := by
  cases v <;> try cases h
  next entries =>
  rw [encodeBody] at h
  split at h
  · cases h
  next hunique =>
  obtain ⟨count, hcount, h⟩ := bind_eq_ok.mp h
  obtain ⟨body, hbody, h⟩ := bind_eq_ok.mp h
  obtain ⟨hfits, rfl⟩ := encodeCount_eq_ok.mp hcount
  cases h
  exact ⟨entries, body, rfl, by simpa using hunique, hfits, hbody, rfl⟩

/-- The induction is on the type; the values of its elements are those of the element type. -/
theorem decodeBody_encodeBody {t : WireType} {v : Value} {bytes : Bytes} (hv : v.InCalendar)
    (h : t.encodeBody v = .ok bytes) : t.decodeBody bytes = .ok v.stored := by
  induction t generalizing v bytes with
  | scalar s => exact Scalar.decode_encode hv h
  | list e ih =>
      obtain ⟨items, body, rfl, hfits, hbody, rfl⟩ := encodeBody_list_eq_ok h
      have hitems := readItems_encodeItems
        (fun v hmem => Undoes.element fun _ => ih (itemsInCalendar_iff.mp hv v hmem)) hbody
      rw [decodeBody, readCollection_ofNat _ hfits hitems, stored, storedItems_eq_map]
      rfl
  | set e ih =>
      obtain ⟨items, body, rfl, -, hfits, hbody, rfl⟩ := encodeBody_set_eq_ok h
      have hitems := readItems_encodeItems
        (fun v hmem => Undoes.element fun _ => ih (itemsInCalendar_iff.mp hv v hmem)) hbody
      rw [decodeBody, readCollection_ofNat _ hfits hitems, stored, storedItems_eq_map]
      rfl
  | map k w ihk ihw =>
      obtain ⟨entries, body, rfl, -, hfits, hbody, rfl⟩ := encodeBody_map_eq_ok h
      have hentries := entriesInCalendar_iff.mp hv
      have hitems := readItems_encodeEntries
        (fun entry hmem => ⟨Undoes.element fun _ => ihk (hentries entry hmem).1,
          Undoes.element fun _ => ihw (hentries entry hmem).2⟩) hbody
      rw [decodeBody, readCollection_ofNat _ hfits hitems, stored, storedEntries_eq_map]
      rfl

/-- The cell of a value holds its octets, unless it is null. -/
theorem encode_eq_ok {t : WireType} {v : Value} {cell : Cell} (h : t.encode v = .ok cell) :
    (v = .null ∧ cell = none) ∨
      ∃ body, v ≠ .null ∧ t.encodeBody v = .ok body ∧ body.length ≤ Cell.limit ∧
        cell = some body := by
  rw [encode] at h
  by_cases hnull : v.isNull
  · rw [if_pos hnull] at h
    cases h
    cases v with
    | null => exact .inl ⟨rfl, rfl⟩
    | _ => cases hnull
  · rw [if_neg hnull] at h
    obtain ⟨body, hbody, h⟩ := bind_eq_ok.mp h
    split at h
    · next hfits =>
      cases h
      refine Or.inr ⟨body, ?_, hbody, hfits, rfl⟩
      rintro rfl
      exact hnull rfl
    · cases h

/-- The cell of a value is read as what the column has stored of it, for every type and at every
depth. A null, and nothing else, is the cell without octets, of every type. -/
theorem decode_eq_ok_stored {t : WireType} {v : Value} {cell : Cell} (hv : v.InCalendar)
    (h : t.encode v = .ok cell) :
    t.decode cell = .ok v.stored ∧ (v = .null ↔ cell = none) ∧
      t.encode .null = .ok none ∧ t.decode none = .ok .null := by
  rcases encode_eq_ok h with ⟨rfl, rfl⟩ | ⟨body, hnull, hbody, -, rfl⟩
  · exact ⟨rfl, by simp, rfl, rfl⟩
  · exact ⟨decodeBody_encodeBody hv hbody, by simp [hnull], rfl, rfl⟩

/-- A map from counters to lists of instants: the increment comes back as a total, and the instants,
one of them in a leap second before 1970, lose what lies below the millisecond. -/
theorem decode_stored_of_nested :
    let t : WireType := .map (.scalar .counter) (.list (.scalar .timestamp))
    let v : Value := .map [(.counterDelta (-3), .list [
      .timestamp ⟨-1, 1234567890, by decide, by decide⟩, .timestamp ⟨5, 7, by decide, by decide⟩])]
    let cell : Cell := some [
      0, 0, 0, 1, 0, 0, 0, 8, 255, 255, 255, 255, 255, 255, 255, 253,
      0, 0, 0, 28, 0, 0, 0, 2, 0, 0, 0, 8, 0, 0, 0, 0, 0, 0, 0, 234,
      0, 0, 0, 8, 0, 0, 0, 0, 0, 0, 19, 136]
    t.encode v = .ok cell ∧ t.decode cell = .ok v.stored := by
  refine ⟨by rfl, ?_⟩
  exact (decode_eq_ok_stored (by simp [InCalendar, EntriesInCalendar, ItemsInCalendar,
    Instant.InCalendar, lastSecond]) (by rfl)).1

end WireType

end CqlClient
