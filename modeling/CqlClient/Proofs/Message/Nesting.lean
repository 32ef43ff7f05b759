import CqlClient.Proofs.Message.TypeCode

/-!
Types read inside collections. The reader of a type goes by how many collections it already is in.
It gives back every type that nests no deeper than is left to it and refuses every deeper one for
its depth, in whichever branch of a map the deep part stands; and it reads a type off nothing but
the descriptor of that type.
-/

namespace CqlClient

namespace Field

variable {α β : Type}

/-- The step fails in one way on these octets, whatever follows them. -/
def Refuses (step : Reader α) (bytes : Bytes) (err : ProtocolError) : Prop :=
  ∀ rest, step (bytes ++ rest) = .error err

/-- Whatever the step reads, the octets that it takes off are a form of it. -/
def Faithful (step : Reader α) (form : Bytes → α → Prop) : Prop :=
  ∀ bytes a rest, step bytes = .ok (a, rest) → ∃ taken, bytes = taken ++ rest ∧ form taken a

/-! ## Refusing -/

namespace Refuses

variable {step : Reader α} {next : α → Reader β} {first second bytes : Bytes} {a : α}
  {err : ProtocolError}

theorem fail (bytes : Bytes) (err : ProtocolError) :
    Refuses (Field.fail err : Reader α) bytes err := fun _ => rfl

theorem bind (h : Refuses step first err) : Refuses (step >>= next) (first ++ second) err := by
  intro rest
  rw [bind_apply, List.append_assoc, h, error_bind]

theorem map (f : α → β) (h : Refuses step bytes err) : Refuses (f <$> step) bytes err := by
  intro rest
  rw [map_apply, h, error_bind]

/-- A step that takes its octets leaves the refusal to the next one. -/
theorem after (hfirst : Takes step first a) (h : Refuses (next a) second err) :
    Refuses (step >>= next) (first ++ second) err := by
  intro rest
  rw [bind_apply, List.append_assoc, hfirst, ok_bind]
  exact h rest

end Refuses

/-! ## Reading nothing but forms -/

namespace Faithful

theorem pure {a : α} {form : Bytes → α → Prop} (h : form [] a) : Faithful (Pure.pure a) form := by
  intro bytes b rest hstep
  cases hstep
  exact ⟨[], rfl, h⟩

theorem fail (err : ProtocolError) (form : Bytes → α → Prop) : Faithful (Field.fail err) form := by
  intro bytes a rest hstep
  cases hstep

/-- The octets of steps in a row stand one behind the other. -/
theorem bind {step : Reader α} {next : α → Reader β} {front : Bytes → α → Prop}
    {form : Bytes → β → Prop} (hstep : Faithful step front)
    (hnext : ∀ first a, front first a → Faithful (next a) fun second b => form (first ++ second) b) :
    Faithful (step >>= next) form := by
  intro bytes b rest h
  rw [bind_apply] at h
  obtain ⟨⟨a, left⟩, ha, hb⟩ := bind_eq_ok.mp h
  obtain ⟨first, rfl, hfirst⟩ := hstep bytes a left ha
  obtain ⟨second, rfl, hsecond⟩ := hnext first a hfirst left b rest hb
  exact ⟨first ++ second, (List.append_assoc ..).symm, hsecond⟩

theorem map {step : Reader α} {f : α → β} {front : Bytes → α → Prop} {form : Bytes → β → Prop}
    (h : Faithful step front) (himp : ∀ taken a, front taken a → form taken (f a)) :
    Faithful (f <$> step) form := by
  rw [← bind_pure_comp]
  refine h.bind fun first a hfirst => pure ?_
  rw [List.append_nil]
  exact himp first a hfirst

theorem take (count : Nat) (what : String) :
    Faithful (Field.take count what) fun taken octets => taken = octets ∧ octets.length = count := by
  intro bytes octets rest h
  have hlength := yields_take count what bytes octets rest h
  rw [Field.take] at h
  split at h
  · next hsplit =>
    cases h
    exact ⟨octets, (Bytes.split?_eq_some_iff.mp hsplit).1, rfl, hlength⟩
  · cases h

theorem word16 (what : String) :
    Faithful (Field.word16 what) fun taken word => taken = Bytes.ofWord16 word := by
  refine (take 2 what).bind ?_
  rintro taken octets ⟨rfl, hlength⟩
  apply pure
  rw [List.append_nil, Bytes.ofWord16_toWord16 hlength]

end Faithful

end Field

open CqlClient.Field

namespace WireType

/-! ## Inside collections -/

/-- Reads a type that stands inside as many collections. -/
def readInside (depth : Nat) : Field.Reader WireType := readDescriptor (maxDepth - depth)

/-- A collection inside as many as there may be is refused as soon as its identifier has been read;
in any other the types of the elements are read one collection further in. -/
theorem readInside_eq (depth : Nat) :
    readInside depth = (do
      let id ← Field.word16 "column type"
      if (id = listId ∨ id = mapId ∨ id = setId) ∧ maxDepth ≤ depth then
        Field.fail (.typeTooDeep maxDepth)
      else if id = listId then list <$> readInside (depth + 1)
      else if id = setId then set <$> readInside (depth + 1)
      else if id = mapId then
        let key ← readInside (depth + 1)
        map key <$> readInside (depth + 1)
      else scalarOfId id) := by
  simp only [readInside]
  by_cases hfull : maxDepth ≤ depth
  · simp only [Nat.sub_eq_zero_of_le hfull, hfull, and_true]
    refine bind_congr fun id => ?_
    by_cases hid : id = listId ∨ id = mapId ∨ id = setId
    · rw [if_pos hid, if_pos hid]
    · rw [if_neg hid, if_neg hid]
      simp only [not_or] at hid
      rw [if_neg hid.1, if_neg hid.2.2, if_neg hid.2.1]
  · have hlevels : maxDepth - depth = maxDepth - (depth + 1) + 1 := by omega
    simp only [hlevels, hfull, and_false, if_false]
    rfl

/-- A collection is refused if no more collections may stand where it stands, or if what follows its
identifier is refused. -/
theorem refuses_collection {id : UInt16} (hid : id = listId ∨ id = mapId ∨ id = setId) {depth : Nat}
    {elements : Bytes}
    (h : depth < maxDepth → Refuses
      (if id = listId then list <$> readInside (depth + 1)
      else if id = setId then set <$> readInside (depth + 1)
      else if id = mapId then readInside (depth + 1) >>= fun key => map key <$> readInside (depth + 1)
      else scalarOfId id) elements (.typeTooDeep maxDepth)) :
    Refuses (readInside depth) (Bytes.ofWord16 id ++ elements) (.typeTooDeep maxDepth) := by
  rw [readInside_eq]
  apply Refuses.after (takes_word16 _ id)
  rcases Nat.lt_or_ge depth maxDepth with hroom | hfull
  · rw [if_neg fun hfull => Nat.not_le.mpr hroom hfull.2]
    exact h hroom
  · rw [if_pos ⟨hid, hfull⟩]
    exact .fail _ _

/-- The induction is on the type: the collection that is one too many is met on the way down, and a
key that is not too deep is taken before the value is refused. -/
theorem refuses_readInside {type : WireType} {depth : Nat} (hdepth : depth ≤ maxDepth)
    (h : maxDepth < depth + type.depth) :
    Refuses (readInside depth) type.descriptor (.typeTooDeep maxDepth) := by
  induction type generalizing depth with
  | scalar s => exact absurd hdepth (Nat.not_le.mpr h)
  | list e ih =>
      have hdeep : maxDepth < depth + 1 + e.depth := by
        rw [WireType.depth] at h
        omega
      refine refuses_collection (.inl rfl) fun hroom => ?_
      rw [if_pos rfl]
      exact (ih hroom hdeep).map list
  | set e ih =>
      have hdeep : maxDepth < depth + 1 + e.depth := by
        rw [WireType.depth] at h
        omega
      refine refuses_collection (.inr (.inr rfl)) fun hroom => ?_
      rw [if_neg (by decide), if_pos rfl]
      exact (ih hroom hdeep).map set
  | map k v ihk ihv =>
      rw [descriptor, List.append_assoc]
      refine refuses_collection (.inr (.inl rfl)) fun hroom => ?_
      rw [if_neg (by decide), if_neg (by decide), if_pos rfl]
      by_cases hkey : maxDepth < depth + 1 + k.depth
      · exact (ihk hroom hkey).bind
      · have hvalue : maxDepth < depth + 1 + v.depth := by
          rw [WireType.depth] at h
          omega
        have htakes : Takes (readInside (depth + 1)) k.descriptor k :=
          takes_readDescriptor (by omega)
        exact .after htakes ((ihv hroom hvalue).map (WireType.map k))

/-! ## Nothing but descriptors -/

theorem faithful_scalarOfId (id : UInt16) :
    Faithful (scalarOfId id) fun taken type => Bytes.ofWord16 id ++ taken = type.descriptor := by
  rw [scalarOfId]
  split
  · next s hs =>
    apply Faithful.pure
    rw [descriptor, Scalar.typeId_of_ofTypeId? hs, List.append_nil]
  · exact .fail _ _

theorem faithful_readDescriptor (levels : Nat) :
    Faithful (readDescriptor levels) fun taken type => taken = type.descriptor := by
  induction levels with
  | zero =>
      refine (Faithful.word16 _).bind ?_
      rintro _ id rfl
      split
      · exact .fail _ _
      · exact faithful_scalarOfId id
  | succ levels ih =>
      refine (Faithful.word16 _).bind ?_
      rintro _ id rfl
      split
      · next hid =>
        subst hid
        exact ih.map fun taken e htaken => by rw [htaken, descriptor]
      split
      · next hid =>
        subst hid
        exact ih.map fun taken e htaken => by rw [htaken, descriptor]
      split
      · next hid =>
        subst hid
        refine ih.bind fun first k hfirst => ih.map fun second v hsecond => ?_
        rw [hfirst, hsecond, descriptor, List.append_assoc]
      · exact faithful_scalarOfId id

/-! ## Main statement -/

/-- Inside `depth` collections the descriptor of a type is read as the type, with all that follows it
left, if the collections in it are no more than may still be opened, and otherwise it is refused as
too deep. Whatever is read, the octets taken for it are its descriptor, and it is not too deep. -/
theorem readInside_descriptor {depth : Nat} (hdepth : depth ≤ maxDepth) :
    (∀ type rest, readInside depth (type.descriptor ++ rest) =
      if depth + type.depth ≤ maxDepth then .ok (type, rest)
      else .error (.typeTooDeep maxDepth)) ∧
    ∀ bytes type rest, readInside depth bytes = .ok (type, rest) →
      bytes = type.descriptor ++ rest ∧ depth + type.depth ≤ maxDepth := by
  constructor
  · intro type rest
    split
    · next hfits =>
      have htakes : Takes (readInside depth) type.descriptor type :=
        takes_readDescriptor (by omega)
      exact htakes rest
    · next hdeep => exact refuses_readInside hdepth (Nat.lt_of_not_le hdeep) rest
  · intro bytes type rest hread
    obtain ⟨taken, hbytes, rfl⟩ := faithful_readDescriptor _ bytes type rest hread
    have hlevels := yields_readDescriptor _ bytes type rest hread
    exact ⟨hbytes, by omega⟩

/-- A map whose values are lists has room inside fourteen collections and none inside fifteen, where
its key is still read. -/
theorem readInside_descriptor_of_lists_in_map :
    let type := map (.scalar .int) (list (.scalar .text))
    let bytes : Bytes := [0, 0x21, 0, 0x09, 0, 0x20, 0, 0x0A, 7]
    14 ≤ maxDepth ∧ readInside 14 (type.descriptor ++ [7]) = .ok (type, [7]) ∧
      15 ≤ maxDepth ∧ readInside 15 (type.descriptor ++ [7]) = .error (.typeTooDeep maxDepth) ∧
      readInside 14 bytes = .ok (type, [7]) ∧ bytes = type.descriptor ++ [7] := by
  intro type bytes
  have hfourteen : 14 ≤ maxDepth := by decide
  have hfifteen : 15 ≤ maxDepth := by decide
  have hread : readInside 14 bytes = .ok (type, [7]) := rfl
  obtain ⟨hfits, hfaithful⟩ := readInside_descriptor hfourteen
  obtain ⟨hdeep, -⟩ := readInside_descriptor hfifteen
  exact ⟨hfourteen, hfits type [7], hfifteen, hdeep type [7], hread, (hfaithful _ _ _ hread).1⟩

end WireType

end CqlClient
