import CqlClient.Proofs.Cell.Canonical

/-!
Which cells hold no element twice. A set and the keys of a map are looked through for repeats before
they are written, and what instants lose when they are written can make two of them the same. So the
octets of the elements differ exactly when no two elements are stored as equals; then, and only
then, what is read can be written again, given that it can be read at all.
-/

namespace CqlClient

open Value

/-- An instant whose milliseconds lie in the calendar lies there itself. -/
theorem Instant.inCalendar_of_ofMillis? {t u : Instant} (h : ofMillis? t.millis = some u) :
    t.InCalendar := by
  rw [ofMillis?, of?] at h
  split at h
  · next hrange =>
    have hnanos := t.nanos_lt
    simp only [millis] at hrange
    simp only [InCalendar]
    omega
  · cases h

namespace Value

theorem numeric_stored {v : Value} (hv : v.Numeric) : v.stored.Numeric := by
  induction v using induction with
  | scalar v hdepth =>
      cases v with
      | list | set | map => cases hdepth
      | _ => exact hv
  | list items ih =>
      rw [stored, storedItems_eq_map]
      exact numericItems_iff.mpr (List.forall_mem_map.mpr fun v hmem =>
        ih v hmem (numericItems_iff.mp hv v hmem))
  | set items ih =>
      rw [stored, storedItems_eq_map]
      exact numericItems_iff.mpr (List.forall_mem_map.mpr fun v hmem =>
        ih v hmem (numericItems_iff.mp hv v hmem))
  | map entries ih =>
      rw [stored, storedEntries_eq_map]
      refine numericEntries_iff.mpr (List.forall_mem_map.mpr fun entry hmem => ?_)
      have hentry := numericEntries_iff.mp hv entry hmem
      exact ⟨(ih entry hmem).1 hentry.1, (ih entry hmem).2 hentry.2⟩

end Value

/-- Different values that are read off octets, none of which equals an earlier one, are read off
different octets. -/
theorem nodup_of_reads {e : WireType} {bodies : List Cell.Body} {items : List Value}
    (h : List.Forall₂ e.Reads bodies items) (hitems : ∀ v ∈ items, v.Numeric)
    (hunique : hasRepeat items = false) : bodies.Nodup := by
  induction h with
  | nil => exact List.nodup_nil
  | @cons body v bodies items hread hreads ih =>
      rw [List.forall_mem_cons] at hitems
      rw [hasRepeat, Bool.or_eq_false_iff, List.any_eq_false] at hunique
      refine List.nodup_cons.mpr ⟨fun hmem => ?_, ih hitems.2 hunique.2⟩
      obtain ⟨w, hw, hagain⟩ := exists_of_mem_right hreads.flip body hmem
      obtain rfl : v = w := Except.ok.inj (hread.symm.trans hagain)
      exact hunique.1 v hw (equivalenceOn_beq.refl hitems.1)

theorem Scalar.inCalendar_of_decode {s : Scalar} {v w : Value} {octets : Bytes}
    (h : s.encode v = .ok octets) (hread : s.decode octets = .ok w) : v.InCalendar := by
  cases v with
  | timestamp t =>
      cases s with
      | timestamp =>
          cases h
          simp only [decode, fixedLength_ok (Bytes.length_ofInt64 _), ok_bind,
            Bytes.toInt64_ofInt64, Instant.toInt_ofInt_millis] at hread
          split at hread
          · next hmillis => exact Instant.inCalendar_of_ofMillis? hmillis
          · cases hread
      | _ => cases h
  | list | set | map => cases s <;> cases h
  | _ => trivial

/-- What is stored of a value has the octets of the value. -/
theorem Scalar.encode_stored {s : Scalar} {v : Value} {octets : Bytes} (hv : v.InCalendar)
    (h : s.encode v = .ok octets) : s.encode v.stored.increments = .ok octets := by
  by_cases hs : s = .varint
  · subst hs
    cases v with
    | varint n => exact h
    | _ => cases h
  · exact (Scalar.decode_eq_ok (Scalar.decode_encode hv h)).2 hs

namespace WireType

/-- Whether the octets of a value hold, at every depth, sets with different octets for different
elements and maps with different octets for different keys. -/
def DistinctIn : WireType → Bytes → Prop
  | scalar _, _ => True
  | list e, octets => ∃ bodies : List Cell.Body, IsRow framed octets bodies ∧
      ∀ body ∈ bodies, e.DistinctIn body.val
  | set e, octets => ∃ bodies : List Cell.Body, IsRow framed octets bodies ∧ bodies.Nodup ∧
      ∀ body ∈ bodies, e.DistinctIn body.val
  | map k w, octets => ∃ entries : List (Cell.Body × Cell.Body),
      IsRow framedEntry octets entries ∧ (entries.map Prod.fst).Nodup ∧
        ∀ entry ∈ entries, k.DistinctIn entry.1.val ∧ w.DistinctIn entry.2.val

/-- Octets that are read as a value without repeats hold no element twice. -/
theorem distinctIn_of_decodeBody {t : WireType} {octets : Bytes} {v : Value} (hv : v.Numeric)
    (hunrepeated : v.Unrepeated) (h : t.decodeBody octets = .ok v) : t.DistinctIn octets := by
  induction t generalizing octets v with
  | scalar s => trivial
  | list e ih =>
      obtain ⟨items, bodies, rfl, hrow, hitems⟩ := decodeBody_list_iff.mp h
      have hnumeric := numericItems_iff.mp hv
      have hlater := unrepeated_list.mp hunrepeated
      refine ⟨bodies, hrow, fun body hbody => ?_⟩
      obtain ⟨v, hmem, hread⟩ := exists_of_mem_right hitems.flip body hbody
      exact ih (hnumeric v hmem) (hlater v hmem) hread
  | set e ih =>
      obtain ⟨items, bodies, rfl, hrow, hitems⟩ := decodeBody_set_iff.mp h
      have hnumeric := numericItems_iff.mp hv
      obtain ⟨hunique, hlater⟩ := unrepeated_set.mp hunrepeated
      refine ⟨bodies, hrow, nodup_of_reads hitems hnumeric hunique, fun body hbody => ?_⟩
      obtain ⟨v, hmem, hread⟩ := exists_of_mem_right hitems.flip body hbody
      exact ih (hnumeric v hmem) (hlater v hmem) hread
  | map k w ihk ihw =>
      obtain ⟨entries, bodies, rfl, hrow, hentries⟩ := decodeBody_map_iff.mp h
      have hnumeric := numericEntries_iff.mp hv
      obtain ⟨hunique, hlater⟩ := unrepeated_map.mp hunrepeated
      have hkeys : List.Forall₂ k.Reads (bodies.map Prod.fst) (entries.map Prod.fst) := by
        rw [List.forall₂_map_left_iff, List.forall₂_map_right_iff]
        exact hentries.imp fun _ _ hread => hread.1
      have hkeysNumeric := List.forall_mem_map.mpr fun entry hmem => (hnumeric entry hmem).1
      refine ⟨bodies, hrow, nodup_of_reads hkeys hkeysNumeric hunique, fun body hbody => ?_⟩
      obtain ⟨entry, hmem, hread⟩ := exists_of_mem_right hentries.flip body hbody
      exact ⟨ihk (hnumeric entry hmem).1 (hlater entry hmem).1 hread.1,
        ihw (hnumeric entry hmem).2 (hlater entry hmem).2 hread.2⟩

/-- A value that is written has no repeats. -/
theorem unrepeated_of_encodeBody {t : WireType} {v : Value} {octets : Bytes}
    (h : t.encodeBody v = .ok octets) : v.Unrepeated := by
  induction t generalizing v octets with
  | scalar s => exact unrepeated_of_depth (Scalar.depth_of_encode h)
  | list e ih =>
      obtain ⟨items, bodies, rfl, -, hitems⟩ := encodeBody_list_iff.mp h
      refine unrepeated_list.mpr fun v hmem => ?_
      obtain ⟨body, -, hwrite⟩ := exists_of_mem_right hitems.flip v hmem
      exact ih hwrite
  | set e ih =>
      obtain ⟨items, bodies, rfl, hunique, -, hitems⟩ := encodeBody_set_iff.mp h
      refine unrepeated_set.mpr ⟨hunique, fun v hmem => ?_⟩
      obtain ⟨body, -, hwrite⟩ := exists_of_mem_right hitems.flip v hmem
      exact ih hwrite
  | map k w ihk ihw =>
      obtain ⟨entries, bodies, rfl, hunique, -, hentries⟩ := encodeBody_map_iff.mp h
      refine unrepeated_map.mpr ⟨hunique, fun entry hmem => ?_⟩
      obtain ⟨body, -, hwrite⟩ := exists_of_mem_right hentries.flip entry hmem
      exact ⟨ihk hwrite.1, ihw hwrite.2⟩

/-- A value whose octets can be read lies in the calendar. -/
theorem inCalendar_of_decodeBody {t : WireType} {v w : Value} {octets : Bytes}
    (h : t.encodeBody v = .ok octets) (hread : t.decodeBody octets = .ok w) : v.InCalendar := by
  induction t generalizing v w octets with
  | scalar s => exact Scalar.inCalendar_of_decode h hread
  | list e ih =>
      obtain ⟨items, bodies, rfl, hrow, hitems⟩ := encodeBody_list_iff.mp h
      obtain ⟨items', bodies', rfl, hrow', hitems'⟩ := decodeBody_list_iff.mp hread
      obtain rfl := hrow.unique prefixFree_framed hrow'
      refine itemsInCalendar_iff.mpr fun v hmem => ?_
      obtain ⟨body, hbody, hwrite⟩ := exists_of_mem_right hitems.flip v hmem
      obtain ⟨u, -, hread⟩ := exists_of_mem_right hitems'.flip body hbody
      exact ih hwrite hread
  | set e ih =>
      obtain ⟨items, bodies, rfl, -, hrow, hitems⟩ := encodeBody_set_iff.mp h
      obtain ⟨items', bodies', rfl, hrow', hitems'⟩ := decodeBody_set_iff.mp hread
      obtain rfl := hrow.unique prefixFree_framed hrow'
      refine itemsInCalendar_iff.mpr fun v hmem => ?_
      obtain ⟨body, hbody, hwrite⟩ := exists_of_mem_right hitems.flip v hmem
      obtain ⟨u, -, hread⟩ := exists_of_mem_right hitems'.flip body hbody
      exact ih hwrite hread
  | map k w ihk ihw =>
      obtain ⟨entries, bodies, rfl, -, hrow, hentries⟩ := encodeBody_map_iff.mp h
      obtain ⟨entries', bodies', rfl, hrow', hentries'⟩ := decodeBody_map_iff.mp hread
      obtain rfl := hrow.unique prefixFree_framedEntry hrow'
      refine entriesInCalendar_iff.mpr fun entry hmem => ?_
      obtain ⟨body, hbody, hwrite⟩ := exists_of_mem_right hentries.flip entry hmem
      obtain ⟨entry', -, hread⟩ := exists_of_mem_right hentries'.flip body hbody
      exact ⟨ihk hwrite.1 hread.1, ihw hwrite.2 hread.2⟩

/-- What is stored of a value is written, with its totals as increments, as the value was, if there
are no repeats in it. -/
theorem encodeBody_stored {t : WireType} {v : Value} {octets : Bytes} (hv : v.InCalendar)
    (hunrepeated : v.stored.Unrepeated) (h : t.encodeBody v = .ok octets) :
    t.encodeBody v.stored.increments = .ok octets := by
  induction t generalizing v octets with
  | scalar s => exact Scalar.encode_stored hv h
  | list e ih =>
      obtain ⟨items, bodies, rfl, hrow, hitems⟩ := encodeBody_list_iff.mp h
      rw [stored, storedItems_eq_map] at hunrepeated ⊢
      rw [increments, incrementsItems_eq_map]
      have hlater := List.forall_mem_map.mp (unrepeated_list.mp hunrepeated)
      have hwrites : List.Forall₂ e.Writes ((items.map stored).map increments) bodies := by
        rw [List.map_map]
        exact forall₂_map_of_mem hitems fun v hmem body =>
          ih (itemsInCalendar_iff.mp hv v hmem) (hlater v hmem)
      exact encodeBody_list_iff.mpr ⟨_, bodies, rfl, hrow, hwrites⟩
  | set e ih =>
      have hplain := (returns_of_decodeBody (decodeBody_encodeBody hv h)).withoutIncrements
      obtain ⟨items, bodies, rfl, -, hrow, hitems⟩ := encodeBody_set_iff.mp h
      rw [stored, storedItems_eq_map] at hunrepeated hplain ⊢
      rw [increments, incrementsItems_eq_map]
      obtain ⟨hunique, hlater⟩ := unrepeated_set.mp hunrepeated
      rw [List.forall_mem_map] at hlater
      have hwrites : List.Forall₂ e.Writes ((items.map stored).map increments) bodies := by
        rw [List.map_map]
        exact forall₂_map_of_mem hitems fun v hmem body =>
          ih (itemsInCalendar_iff.mp hv v hmem) (hlater v hmem)
      rw [← hasRepeat_increments (throughout_set.mp hplain).2] at hunique
      exact encodeBody_set_iff.mpr ⟨_, bodies, rfl, hunique, hrow, hwrites⟩
  | map k w ihk ihw =>
      have hplain := (returns_of_decodeBody (decodeBody_encodeBody hv h)).withoutIncrements
      obtain ⟨entries, bodies, rfl, -, hrow, hentries⟩ := encodeBody_map_iff.mp h
      rw [stored, storedEntries_eq_map] at hunrepeated hplain ⊢
      rw [increments, incrementsEntries_eq_map]
      obtain ⟨hunique, hlater⟩ := unrepeated_map.mp hunrepeated
      rw [List.forall_mem_map] at hlater
      have hwrites : List.Forall₂
          (fun entry body => k.Writes entry.1 body.1 ∧ w.Writes entry.2 body.2)
          ((entries.map fun entry => (entry.1.stored, entry.2.stored)).map
            fun entry => (entry.1.increments, entry.2.increments)) bodies := by
        rw [List.map_map]
        refine forall₂_map_of_mem hentries fun entry hmem body hwrite => ?_
        have hcalendar := entriesInCalendar_iff.mp hv entry hmem
        exact ⟨ihk hcalendar.1 (hlater entry hmem).1 hwrite.1,
          ihw hcalendar.2 (hlater entry hmem).2 hwrite.2⟩
      rw [← hasRepeat_keys_increments fun entry hmem =>
        ((throughout_map.mp hplain).2 entry hmem).1] at hunique
      exact encodeBody_map_iff.mpr ⟨_, bodies, rfl, hunique, hrow, hwrites⟩

/-- The cell of a value without a not-a-number holds no element of a set and no key of a map twice,
and what is read from it can be written to the same cell, exactly if every instant in the value lies
in the calendar and no two elements of a set, or keys of a map, are equal once they are stored. -/
theorem encode_distinct_iff {t : WireType} {v : Value} {cell : Cell} (hv : v.Numeric)
    (h : t.encode v = .ok cell) :
    ((∀ octets, cell = some octets → t.DistinctIn octets) ∧
      ∃ w, t.decode cell = .ok w ∧ t.encode w.increments = .ok cell) ↔
        v.InCalendar ∧ v.stored.Unrepeated := by
  rcases encode_eq_ok h with ⟨rfl, rfl⟩ | ⟨octets, -, hbody, hfits, rfl⟩
  · exact iff_of_true ⟨by simp, .null, rfl, rfl⟩ ⟨trivial, unrepeated_of_depth rfl⟩
  constructor
  · rintro ⟨-, w, hread, hagain⟩
    have hcalendar : v.InCalendar := inCalendar_of_decodeBody hbody hread
    obtain rfl : v.stored = w :=
      Except.ok.inj ((decodeBody_encodeBody hcalendar hbody).symm.trans hread)
    have hplain := (returns_of_decodeBody hread).withoutIncrements
    have hwritten := unrepeated_of_encodeBody (encode_some_iff.mp hagain).1
    exact ⟨hcalendar, (unrepeated_increments hplain).mp hwritten⟩
  · rintro ⟨hcalendar, hunrepeated⟩
    have hread := decodeBody_encodeBody hcalendar hbody
    have hagain := encodeBody_stored hcalendar hunrepeated hbody
    refine ⟨?_, v.stored, hread, encode_some_iff.mpr ⟨hagain, hfits⟩⟩
    rintro _ ⟨⟩
    exact distinctIn_of_decodeBody (numeric_stored hv) hunrepeated hread

/-- A map from two instants, one of them cut to the second, to sets of numbers, one of them
empty. -/
theorem distinctIn_of_cut_keys :
    let t : WireType := .map (.scalar .timestamp) (.set (.scalar .double))
    let v : Value := .map [
      (.timestamp ⟨0, 1, by decide, by decide⟩, .set [.double 0x3ff0000000000000, .double 0]),
      (.timestamp ⟨0, 1000000, by decide, by decide⟩, .set [])]
    let octets : Bytes := [
      0, 0, 0, 2, 0, 0, 0, 8, 0, 0, 0, 0, 0, 0, 0, 0,
      0, 0, 0, 28, 0, 0, 0, 2, 0, 0, 0, 8, 63, 240, 0, 0, 0, 0, 0, 0,
      0, 0, 0, 8, 0, 0, 0, 0, 0, 0, 0, 0,
      0, 0, 0, 8, 0, 0, 0, 0, 0, 0, 0, 1, 0, 0, 0, 4, 0, 0, 0, 0]
    v.Numeric ∧ t.encode v = .ok (some octets) ∧ t.DistinctIn octets ∧
      ∃ w, t.decode (some octets) = .ok w ∧ t.encode w.increments = .ok (some octets) := by
  intro t v octets
  have hnumeric : v.Numeric := by
    simp only [v, Numeric, NumericEntries, NumericItems, and_true, true_and]
    decide
  have hwrite : t.encode v = .ok (some octets) := by rfl
  have hcalendar : v.InCalendar := by
    simp [v, InCalendar, EntriesInCalendar, ItemsInCalendar, Instant.InCalendar]
  have hunrepeated : v.stored.Unrepeated := by
    simp only [v, stored, storedEntries, storedItems, unrepeated_map, unrepeated_set,
      List.forall_mem_cons, List.not_mem_nil, false_implies, implies_true, and_true]
    have htime : ∀ time, (Value.timestamp time).Unrepeated := fun _ => unrepeated_of_depth rfl
    have hnumber : ∀ bits, (Value.double bits).Unrepeated := fun _ => unrepeated_of_depth rfl
    exact ⟨by decide, ⟨htime _, by decide, hnumber _, hnumber _⟩, htime _, by decide⟩
  obtain ⟨hdistinct, hagain⟩ :=
    (encode_distinct_iff hnumeric hwrite).mpr ⟨hcalendar, hunrepeated⟩
  exact ⟨hnumeric, hwrite, hdistinct octets rfl, hagain⟩

/-- Two instants in the same millisecond are different elements of a set, but have the same octets;
what is read from them cannot be written again. -/
theorem not_distinctIn_of_same_millisecond :
    let t : WireType := .set (.scalar .timestamp)
    let v : Value := .set [
      .timestamp ⟨0, 0, by decide, by decide⟩, .timestamp ⟨0, 1, by decide, by decide⟩]
    let octets : Bytes := [0, 0, 0, 2,
      0, 0, 0, 8, 0, 0, 0, 0, 0, 0, 0, 0, 0, 0, 0, 8, 0, 0, 0, 0, 0, 0, 0, 0]
    v.Numeric ∧ t.encode v = .ok (some octets) ∧ ¬ t.DistinctIn octets ∧
      ¬ ∃ w, t.decode (some octets) = .ok w ∧ t.encode w.increments = .ok (some octets) := by
  intro t v octets
  refine ⟨⟨trivial, trivial, trivial⟩, rfl, ?_, ?_⟩
  · rintro ⟨bodies, hrow, hdistinct, -⟩
    let body : Cell.Body := ⟨[0, 0, 0, 0, 0, 0, 0, 0], by decide⟩
    have hsame : IsRow framed octets [body, body] := ⟨by decide, by decide⟩
    rw [hrow.unique prefixFree_framed hsame] at hdistinct
    exact (List.nodup_cons.mp hdistinct).1 List.mem_cons_self
  · rintro ⟨w, hread, hagain⟩
    let first : Instant := ⟨0, 0, by decide, by decide⟩
    have hboth : t.decode (some octets) = .ok (.set [.timestamp first, .timestamp first]) := by
      rfl
    obtain rfl := Except.ok.inj (hboth.symm.trans hread)
    have hrefused : t.encode (.set [.timestamp first, .timestamp first]) =
        .error (.duplicateElement t) := by rfl
    cases hrefused.symm.trans hagain

end WireType

end CqlClient
