import CqlClient.Proofs.Cell.RoundTrip

/-!
The octets of a collection: how many elements there are, then every element behind its length.
Octets are laid out so in at most one way, and writing and reading a collection are said here in
terms of the octets of its elements, whichever way one goes.
-/

namespace CqlClient

/-- Octets whose number can stand in front of them. -/
abbrev Cell.Body := { octets : Bytes // octets.length ≤ Cell.limit }

/-- An element in its collection: its length and its octets. -/
def framed (body : Cell.Body) : Bytes := Bytes.ofNat 4 body.val.length ++ body.val

/-- An entry in its map: the key, then the value. -/
def framedEntry (entry : Cell.Body × Cell.Body) : Bytes := framed entry.1 ++ framed entry.2

/-- Whether octets are a count and so many parts, in a given form. -/
structure IsRow {α : Type} (form : α → Bytes) (octets : Bytes) (parts : List α) : Prop where
  count_le : parts.length ≤ Cell.limit
  eq : octets = Bytes.ofNat 4 parts.length ++ parts.flatMap form

/-- A form that can be told from whatever follows it. -/
def PrefixFree {α : Type} (form : α → Bytes) : Prop :=
  ∀ x y rest rest', form x ++ rest = form y ++ rest' → x = y ∧ rest = rest'

section

variable {α β : Type} {form : α → Bytes}

theorem ofNat_limit_inj {m n : Nat} (hm : m ≤ Cell.limit) (hn : n ≤ Cell.limit)
    (h : Bytes.ofNat 4 m = Bytes.ofNat 4 n) : m = n := by
  have hword : Cell.limit < Nat.pow 256 4 := by decide
  rw [← Bytes.toNat_ofNat_of_lt (Nat.lt_of_le_of_lt hm hword), h,
    Bytes.toNat_ofNat_of_lt (Nat.lt_of_le_of_lt hn hword)]

theorem prefixFree_framed : PrefixFree framed := by
  intro x y rest rest' h
  simp only [framed, List.append_assoc] at h
  obtain ⟨hlength, h⟩ := List.append_inj h (by simp)
  obtain ⟨hbody, hrest⟩ := List.append_inj h (ofNat_limit_inj x.property y.property hlength)
  exact ⟨Subtype.ext hbody, hrest⟩

theorem prefixFree_framedEntry : PrefixFree framedEntry := by
  intro x y rest rest' h
  simp only [framedEntry, List.append_assoc] at h
  obtain ⟨hkey, h⟩ := prefixFree_framed _ _ _ _ h
  obtain ⟨hvalue, hrest⟩ := prefixFree_framed _ _ _ _ h
  exact ⟨Prod.ext hkey hvalue, hrest⟩

theorem PrefixFree.flatMap_inj (hform : PrefixFree form) {xs ys : List α}
    (hlength : xs.length = ys.length) (h : xs.flatMap form = ys.flatMap form) : xs = ys := by
  induction xs generalizing ys with
  | nil => exact (List.eq_nil_of_length_eq_zero hlength.symm).symm
  | cons x xs ih =>
      cases ys with
      | nil => cases hlength
      | cons y ys =>
          rw [List.flatMap_cons, List.flatMap_cons] at h
          obtain ⟨hfirst, hlater⟩ := hform _ _ _ _ h
          rw [hfirst, ih (Nat.succ.inj hlength) hlater]

/-- The parts of a row are no others than these. -/
theorem IsRow.unique (hform : PrefixFree form) {octets : Bytes} {xs ys : List α}
    (hx : IsRow form octets xs) (hy : IsRow form octets ys) : xs = ys := by
  obtain ⟨hcount, hparts⟩ := List.append_inj (hx.eq.symm.trans hy.eq) (by simp)
  exact hform.flatMap_inj (ofNat_limit_inj hx.count_le hy.count_le hcount) hparts

/-! ## Steps that write or read one part -/

/-- What the step writes is the form of a part that belongs to the item. -/
def WritesPart (write : β → Except EncodeError Bytes) (form : α → Bytes) (Belongs : β → α → Prop) :
    Prop :=
  ∀ item octets, write item = .ok octets ↔ ∃ part, octets = form part ∧ Belongs item part

/-- What the step reads off the front is the form of a part that gives the item. -/
def ReadsPart (read : Bytes → Except DecodeError (β × Bytes)) (form : α → Bytes)
    (Gives : α → β → Prop) : Prop :=
  ∀ octets item rest, read octets = .ok (item, rest) ↔
    ∃ part, octets = form part ++ rest ∧ Gives part item

/-- A value that is written as octets is not null. -/
theorem isNull_of_encodeBody {t : WireType} {v : Value} {body : Bytes}
    (h : t.encodeBody v = .ok body) : v.isNull = false := by
  cases v with
  | null =>
      cases t with
      | scalar s => cases s <;> cases h
      | _ => cases h
  | _ => rfl

/-- A column without elements takes no value with elements. -/
theorem Scalar.depth_of_encode {s : Scalar} {v : Value} {octets : Bytes}
    (h : s.encode v = .ok octets) : v.depth = 0 := by
  cases v with
  | list | set | map => cases s <;> cases h
  | _ => rfl

theorem writes_element (collection e : WireType) :
    WritesPart (encodeElement collection e.encodeBody) framed
      fun v body => e.encodeBody v = .ok body.val := by
  intro v octets
  constructor
  · intro h
    obtain ⟨body, hbody, hfits, rfl⟩ := encodeElement_eq_ok h
    exact ⟨⟨body, hfits⟩, rfl, hbody⟩
  · rintro ⟨⟨body, hfits⟩, rfl, hbody⟩
    rw [encodeElement, isNull_of_encodeBody hbody, if_neg Bool.false_ne_true, hbody, ok_bind,
      encodeCount_eq_ok.mpr ⟨hfits, rfl⟩]
    rfl

theorem readLength_eq_ok {collection : WireType} {octets rest : Bytes} {length : Int32} :
    readLength collection octets = .ok (length, rest) ↔
      ∃ head, head.length = 4 ∧ octets = head ++ rest ∧ Bytes.toInt32 head = length := by
  rw [readLength]
  split
  · next head after hsplit =>
    obtain ⟨rfl, hlength⟩ := Bytes.split?_eq_some_iff.mp hsplit
    simp only [Except.ok.injEq, Prod.mk.injEq]
    constructor
    · rintro ⟨rfl, rfl⟩
      exact ⟨head, hlength, rfl, rfl⟩
    · rintro ⟨head', hlength', heq, rfl⟩
      obtain ⟨rfl, rfl⟩ := List.append_inj heq (hlength.trans hlength'.symm)
      exact ⟨rfl, rfl⟩
  · next hsplit =>
    have hshort := Bytes.split?_eq_none_iff.mp hsplit
    simp only [reduceCtorEq, false_iff]
    rintro ⟨head, hlength, rfl, -⟩
    rw [List.length_append] at hshort
    omega

theorem readCount_eq_ok {collection : WireType} {octets rest : Bytes} {count : Nat} :
    readCount collection octets = .ok (count, rest) ↔
      count ≤ Cell.limit ∧ octets = Bytes.ofNat 4 count ++ rest := by
  constructor
  · intro h
    obtain ⟨⟨length, after⟩, hlength, h⟩ := bind_eq_ok.mp h
    obtain ⟨head, hhead, rfl, rfl⟩ := readLength_eq_ok.mp hlength
    simp only at h
    split at h
    · cases h
    · next hpos =>
      cases h
      obtain ⟨hbytes, hle⟩ := Bytes.ofNat_toInt32 hhead hpos
      exact ⟨hle, by rw [hbytes]⟩
  · rintro ⟨hle, rfl⟩
    exact readCount_ofNat collection hle rest

theorem reads_element (collection : WireType) (decode : Bytes → Except DecodeError Value) :
    ReadsPart (readElement collection decode) framed fun body v => decode body.val = .ok v := by
  intro octets v rest
  constructor
  · intro h
    obtain ⟨⟨length, after⟩, hlength, hafter⟩ := bind_eq_ok.mp h
    obtain ⟨head, hhead, rfl, rfl⟩ := readLength_eq_ok.mp hlength
    simp only at hafter
    split at hafter
    · cases hafter
    next hpos =>
    obtain ⟨hbytes, hle⟩ := Bytes.ofNat_toInt32 hhead hpos
    split at hafter
    · cases hafter
    next body after' hsplit =>
    obtain ⟨rfl, hbody⟩ := Bytes.split?_eq_some_iff.mp hsplit
    obtain ⟨w, hw, hend⟩ := bind_eq_ok.mp hafter
    cases hend
    rw [← hbody] at hbytes hle
    refine ⟨⟨body, hle⟩, ?_, hw⟩
    rw [framed, hbytes, List.append_assoc]
  · rintro ⟨⟨body, hfits⟩, rfl, hbody⟩
    exact readElement_ofNat collection hfits hbody rest

/-! ## Rows of parts -/

theorem encodeItems_eq_ok {write : Value → Except EncodeError Bytes} {Belongs : Value → α → Prop}
    (hwrite : WritesPart write form Belongs) {items : List Value} {octets : Bytes} :
    encodeItems write items = .ok octets ↔
      ∃ parts, octets = parts.flatMap form ∧ List.Forall₂ Belongs items parts := by
  induction items generalizing octets with
  | nil =>
      constructor
      · intro h
        cases h
        exact ⟨[], rfl, .nil⟩
      · rintro ⟨parts, rfl, h⟩
        cases h
        rfl
  | cons v items ih =>
      rw [encodeItems]
      simp only [bind_eq_ok, pure_eq_ok, Except.ok.injEq]
      constructor
      · rintro ⟨first, hfirst, later, hlater, rfl⟩
        obtain ⟨part, rfl, hpart⟩ := (hwrite v first).mp hfirst
        obtain ⟨parts, rfl, hparts⟩ := ih.mp hlater
        exact ⟨part :: parts, rfl, .cons hpart hparts⟩
      · rintro ⟨_, rfl, hparts⟩
        cases hparts with
        | cons hpart hparts =>
            exact ⟨_, (hwrite v _).mpr ⟨_, rfl, hpart⟩, _, ih.mpr ⟨_, rfl, hparts⟩, rfl⟩

theorem encodeEntries_eq_ok {writeKey writeValue : Value → Except EncodeError Bytes}
    {KeyBelongs ValueBelongs : Value → Cell.Body → Prop}
    (hkey : WritesPart writeKey framed KeyBelongs)
    (hvalue : WritesPart writeValue framed ValueBelongs) {entries : List (Value × Value)}
    {octets : Bytes} :
    encodeEntries writeKey writeValue entries = .ok octets ↔
      ∃ parts, octets = parts.flatMap framedEntry ∧
        List.Forall₂ (fun entry part => KeyBelongs entry.1 part.1 ∧ ValueBelongs entry.2 part.2)
          entries parts := by
  induction entries generalizing octets with
  | nil =>
      constructor
      · intro h
        cases h
        exact ⟨[], rfl, .nil⟩
      · rintro ⟨parts, rfl, h⟩
        cases h
        rfl
  | cons entry entries ih =>
      rw [encodeEntries]
      simp only [bind_eq_ok, pure_eq_ok, Except.ok.injEq]
      constructor
      · rintro ⟨key, hk, value, hv, later, hlater, rfl⟩
        obtain ⟨k, rfl, hkpart⟩ := (hkey _ key).mp hk
        obtain ⟨v, rfl, hvpart⟩ := (hvalue _ value).mp hv
        obtain ⟨parts, rfl, hparts⟩ := ih.mp hlater
        exact ⟨(k, v) :: parts, by simp [framedEntry], .cons ⟨hkpart, hvpart⟩ hparts⟩
      · rintro ⟨_, rfl, hparts⟩
        cases hparts with
        | cons hpart hparts =>
            exact ⟨_, (hkey _ _).mpr ⟨_, rfl, hpart.1⟩, _, (hvalue _ _).mpr ⟨_, rfl, hpart.2⟩, _,
              ih.mpr ⟨_, rfl, hparts⟩, by simp [framedEntry]⟩

theorem reads_entry {readKey readValue : Bytes → Except DecodeError (Value × Bytes)}
    {KeyGives ValueGives : Cell.Body → Value → Prop} (hkey : ReadsPart readKey framed KeyGives)
    (hvalue : ReadsPart readValue framed ValueGives) :
    ReadsPart (readEntry readKey readValue) framedEntry fun part entry =>
      KeyGives part.1 entry.1 ∧ ValueGives part.2 entry.2 := by
  intro octets entry rest
  constructor
  · intro h
    obtain ⟨⟨key, after⟩, hk, h⟩ := bind_eq_ok.mp h
    obtain ⟨⟨value, after'⟩, hv, h⟩ := bind_eq_ok.mp h
    cases h
    obtain ⟨k, rfl, hkpart⟩ := (hkey _ _ _).mp hk
    obtain ⟨v, rfl, hvpart⟩ := (hvalue _ _ _).mp hv
    exact ⟨(k, v), by simp [framedEntry], hkpart, hvpart⟩
  · rintro ⟨part, rfl, hk, hv⟩
    rw [readEntry, framedEntry, List.append_assoc, (hkey _ _ _).mpr ⟨_, rfl, hk⟩, ok_bind]
    simp only [(hvalue _ _ _).mpr ⟨_, rfl, hv⟩, ok_bind]
    rfl

theorem readItems_eq_ok {read : Bytes → Except DecodeError (β × Bytes)} {Gives : α → β → Prop}
    (hread : ReadsPart read form Gives) {count : Nat} {octets rest : Bytes} {items : List β} :
    readItems read count octets = .ok (items, rest) ↔
      ∃ parts, parts.length = count ∧ octets = parts.flatMap form ++ rest ∧
        List.Forall₂ Gives parts items := by
  induction count generalizing octets items with
  | zero =>
      constructor
      · intro h
        cases h
        exact ⟨[], rfl, rfl, .nil⟩
      · rintro ⟨parts, hlength, rfl, hparts⟩
        obtain rfl := List.eq_nil_of_length_eq_zero hlength
        cases hparts
        rfl
  | succ count ih =>
      constructor
      · intro h
        obtain ⟨⟨item, after⟩, hitem, h⟩ := bind_eq_ok.mp h
        obtain ⟨⟨later, after'⟩, hlater, h⟩ := bind_eq_ok.mp h
        cases h
        obtain ⟨part, rfl, hpart⟩ := (hread _ _ _).mp hitem
        obtain ⟨parts, rfl, rfl, hparts⟩ := ih.mp hlater
        exact ⟨part :: parts, rfl, by simp, .cons hpart hparts⟩
      · rintro ⟨_, hlength, rfl, hparts⟩
        cases hparts with
        | nil => cases hlength
        | @cons part item parts later hpart hparts =>
            have hitem := (hread (form part ++ (parts.flatMap form ++ rest)) item _).mpr
              ⟨part, rfl, hpart⟩
            have hlater := ih.mpr ⟨parts, Nat.succ.inj hlength, rfl, hparts⟩
            rw [readItems, List.flatMap_cons, List.append_assoc, hitem, ok_bind]
            simp only [hlater, ok_bind]
            rfl

/-- A collection is read off octets that are a row of the parts of its items. -/
theorem readCollection_eq_ok {read : Bytes → Except DecodeError (β × Bytes)}
    {Gives : α → β → Prop} (hread : ReadsPart read form Gives) {collection : WireType}
    {octets : Bytes} {items : List β} :
    readCollection collection read octets = .ok items ↔
      ∃ parts, IsRow form octets parts ∧ List.Forall₂ Gives parts items := by
  constructor
  · intro h
    obtain ⟨⟨count, after⟩, hcount, hafter⟩ := bind_eq_ok.mp h
    obtain ⟨⟨items', rest⟩, hitems, hend⟩ := bind_eq_ok.mp hafter
    obtain ⟨hle, rfl⟩ := readCount_eq_ok.mp hcount
    obtain ⟨parts, rfl, rfl, hparts⟩ := (readItems_eq_ok hread).mp hitems
    simp only at hend
    split at hend
    · next hrest =>
      cases hend
      rw [List.isEmpty_iff.mp hrest]
      exact ⟨parts, ⟨hle, by simp⟩, hparts⟩
    · cases hend
  · rintro ⟨parts, ⟨hle, rfl⟩, hparts⟩
    exact readCollection_ofNat collection hle fun rest =>
      (readItems_eq_ok hread).mpr ⟨parts, rfl, rfl, hparts⟩

end

/-! ## Collections -/

namespace WireType

/-- The octets are those of the value. -/
def Writes (t : WireType) (v : Value) (body : Cell.Body) : Prop := t.encodeBody v = .ok body.val

/-- The octets are read as the value. -/
def Reads (t : WireType) (body : Cell.Body) (v : Value) : Prop := t.decodeBody body.val = .ok v

variable {t e k w : WireType} {v : Value} {octets : Bytes}

theorem encode_some_iff : t.encode v = .ok (some octets) ↔
    t.encodeBody v = .ok octets ∧ octets.length ≤ Cell.limit := by
  constructor
  · intro h
    rcases encode_eq_ok h with ⟨-, hcell⟩ | ⟨body, -, hbody, hfits, hcell⟩
    · cases hcell
    · cases hcell
      exact ⟨hbody, hfits⟩
  · rintro ⟨hbody, hfits⟩
    rw [encode, isNull_of_encodeBody hbody, if_neg Bool.false_ne_true, hbody, ok_bind,
      if_pos hfits]
    rfl

theorem encodeBody_list_iff : (list e).encodeBody v = .ok octets ↔
    ∃ items bodies, v = .list items ∧ IsRow framed octets bodies ∧
      List.Forall₂ e.Writes items bodies := by
  constructor
  · intro h
    obtain ⟨items, body, rfl, hfits, hbody, rfl⟩ := encodeBody_list_eq_ok h
    obtain ⟨bodies, rfl, hbodies⟩ := (encodeItems_eq_ok (writes_element _ e)).mp hbody
    exact ⟨items, bodies, rfl, ⟨hbodies.length_eq ▸ hfits, by rw [hbodies.length_eq]⟩, hbodies⟩
  · rintro ⟨items, bodies, rfl, ⟨hle, rfl⟩, hbodies⟩
    have hitems := (encodeItems_eq_ok (writes_element (list e) e)).mpr ⟨bodies, rfl, hbodies⟩
    rw [encodeBody, hbodies.length_eq, encodeCount_eq_ok.mpr ⟨hle, rfl⟩, hitems]
    rfl

theorem encodeBody_set_iff : (set e).encodeBody v = .ok octets ↔
    ∃ items bodies, v = .set items ∧ Value.hasRepeat items = false ∧ IsRow framed octets bodies ∧
      List.Forall₂ e.Writes items bodies := by
  constructor
  · intro h
    obtain ⟨items, body, rfl, hunique, hfits, hbody, rfl⟩ := encodeBody_set_eq_ok h
    obtain ⟨bodies, rfl, hbodies⟩ := (encodeItems_eq_ok (writes_element _ e)).mp hbody
    exact ⟨items, bodies, rfl, hunique,
      ⟨hbodies.length_eq ▸ hfits, by rw [hbodies.length_eq]⟩, hbodies⟩
  · rintro ⟨items, bodies, rfl, hunique, ⟨hle, rfl⟩, hbodies⟩
    have hitems := (encodeItems_eq_ok (writes_element (set e) e)).mpr ⟨bodies, rfl, hbodies⟩
    rw [encodeBody, hunique, if_neg Bool.false_ne_true, hbodies.length_eq,
      encodeCount_eq_ok.mpr ⟨hle, rfl⟩, hitems]
    rfl

theorem encodeBody_map_iff : (map k w).encodeBody v = .ok octets ↔
    ∃ entries bodies, v = .map entries ∧ Value.hasRepeat (entries.map Prod.fst) = false ∧
      IsRow framedEntry octets bodies ∧
      List.Forall₂ (fun entry body => k.Writes entry.1 body.1 ∧ w.Writes entry.2 body.2)
        entries bodies := by
  constructor
  · intro h
    obtain ⟨entries, body, rfl, hunique, hfits, hbody, rfl⟩ := encodeBody_map_eq_ok h
    obtain ⟨bodies, rfl, hbodies⟩ :=
      (encodeEntries_eq_ok (writes_element _ k) (writes_element _ w)).mp hbody
    exact ⟨entries, bodies, rfl, hunique,
      ⟨hbodies.length_eq ▸ hfits, by rw [hbodies.length_eq]⟩, hbodies⟩
  · rintro ⟨entries, bodies, rfl, hunique, ⟨hle, rfl⟩, hbodies⟩
    have hentries := (encodeEntries_eq_ok (writes_element (map k w) k)
      (writes_element (map k w) w)).mpr ⟨bodies, rfl, hbodies⟩
    rw [encodeBody, hunique, if_neg Bool.false_ne_true, hbodies.length_eq,
      encodeCount_eq_ok.mpr ⟨hle, rfl⟩, hentries]
    rfl

theorem decodeBody_list_iff : (list e).decodeBody octets = .ok v ↔
    ∃ items bodies, v = .list items ∧ IsRow framed octets bodies ∧
      List.Forall₂ e.Reads bodies items := by
  rw [decodeBody]
  simp only [bind_eq_ok, pure_eq_ok, Except.ok.injEq,
    readCollection_eq_ok (reads_element (list e) e.decodeBody)]
  constructor
  · rintro ⟨items, ⟨bodies, hrow, hitems⟩, rfl⟩
    exact ⟨items, bodies, rfl, hrow, hitems⟩
  · rintro ⟨items, bodies, rfl, hrow, hitems⟩
    exact ⟨items, ⟨bodies, hrow, hitems⟩, rfl⟩

theorem decodeBody_set_iff : (set e).decodeBody octets = .ok v ↔
    ∃ items bodies, v = .set items ∧ IsRow framed octets bodies ∧
      List.Forall₂ e.Reads bodies items := by
  rw [decodeBody]
  simp only [bind_eq_ok, pure_eq_ok, Except.ok.injEq,
    readCollection_eq_ok (reads_element (set e) e.decodeBody)]
  constructor
  · rintro ⟨items, ⟨bodies, hrow, hitems⟩, rfl⟩
    exact ⟨items, bodies, rfl, hrow, hitems⟩
  · rintro ⟨items, bodies, rfl, hrow, hitems⟩
    exact ⟨items, ⟨bodies, hrow, hitems⟩, rfl⟩

theorem decodeBody_map_iff : (map k w).decodeBody octets = .ok v ↔
    ∃ entries bodies, v = .map entries ∧ IsRow framedEntry octets bodies ∧
      List.Forall₂ (fun body entry => k.Reads body.1 entry.1 ∧ w.Reads body.2 entry.2)
        bodies entries := by
  rw [decodeBody]
  simp only [bind_eq_ok, pure_eq_ok, Except.ok.injEq, readCollection_eq_ok (reads_entry
    (reads_element (map k w) k.decodeBody) (reads_element (map k w) w.decodeBody))]
  constructor
  · rintro ⟨entries, ⟨bodies, hrow, hentries⟩, rfl⟩
    exact ⟨entries, bodies, rfl, hrow, hentries⟩
  · rintro ⟨entries, bodies, rfl, hrow, hentries⟩
    exact ⟨entries, ⟨bodies, hrow, hentries⟩, rfl⟩

end WireType

end CqlClient
