import CqlClient.Message.TypeCode
import CqlClient.Proofs.Message.Field

/-!
Column types as they stand in metadata. A type is read back from its descriptor if its collections
nest no deeper than the reader goes, and no deeper type is ever read.
-/

namespace CqlClient

open CqlClient.Field

/-- No type without elements has the identifier of a collection. -/
theorem Scalar.typeId_ne (s : Scalar) :
    s.typeId ≠ WireType.listId ∧ s.typeId ≠ WireType.mapId ∧ s.typeId ≠ WireType.setId := by
  cases s <;> decide

namespace WireType

theorem scalarOfId_typeId (s : Scalar) : scalarOfId s.typeId = pure (scalar s) := by
  rw [scalarOfId, Scalar.ofTypeId?_typeId]

theorem takes_readDescriptor {type : WireType} {levels : Nat} (h : type.depth ≤ levels) :
    Takes (readDescriptor levels) type.descriptor type := by
  induction type generalizing levels with
  | scalar s =>
      obtain ⟨hlist, hmap, hset⟩ := s.typeId_ne
      rw [descriptor, ← List.append_nil (Bytes.ofWord16 _)]
      cases levels with
      | zero =>
          apply (takes_word16 _ _).bind
          rw [if_neg (by simp [hlist, hmap, hset]), scalarOfId_typeId]
          exact Takes.pure _
      | succ levels =>
          apply (takes_word16 _ _).bind
          rw [if_neg hlist, if_neg hset, if_neg hmap, scalarOfId_typeId]
          exact Takes.pure _
  | list e ih =>
      cases levels with
      | zero => cases h
      | succ levels =>
          apply (takes_word16 _ _).bind
          rw [if_pos rfl]
          exact (ih (Nat.le_of_succ_le_succ h)).map list
  | set e ih =>
      cases levels with
      | zero => cases h
      | succ levels =>
          apply (takes_word16 _ _).bind
          rw [if_neg (by decide), if_pos rfl]
          exact (ih (Nat.le_of_succ_le_succ h)).map set
  | map k v ihk ihv =>
      cases levels with
      | zero => cases h
      | succ levels =>
          have hboth := Nat.max_le.mp (Nat.le_of_succ_le_succ h)
          rw [descriptor, List.append_assoc]
          apply (takes_word16 _ _).bind
          rw [if_neg (by decide), if_neg (by decide), if_pos rfl]
          exact (ihk hboth.1).bind ((ihv hboth.2).map (WireType.map k))

theorem yields_scalarOfId (id : UInt16) : Yields (scalarOfId id) fun type => type.depth = 0 := by
  rw [scalarOfId]
  split
  · exact Yields.pure rfl
  · exact Yields.fail _ _

theorem yields_readDescriptor (levels : Nat) :
    Yields (readDescriptor levels) fun type => type.depth ≤ levels := by
  induction levels with
  | zero =>
      refine (Yields.trivial _).bind ?_
      intro id _
      split
      · exact Yields.fail _ _
      · exact (yields_scalarOfId id).mono fun type htype => Nat.le_of_eq htype
  | succ levels ih =>
      refine (Yields.trivial _).bind ?_
      intro id _
      split
      · exact ih.map fun _ hdepth => Nat.succ_le_succ hdepth
      split
      · exact ih.map fun _ hdepth => Nat.succ_le_succ hdepth
      split
      · refine ih.bind fun key hkey => ih.map fun value hvalue => ?_
        exact Nat.succ_le_succ (Nat.max_le.mpr ⟨hkey, hvalue⟩)
      · refine (yields_scalarOfId id).mono fun type htype => ?_
        rw [htype]
        exact Nat.zero_le _

end WireType

end CqlClient
