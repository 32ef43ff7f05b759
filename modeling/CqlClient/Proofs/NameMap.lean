import CqlClient.NameMap

/-!
Maps that are made of entries. A map is made of its own entries in whatever order they come, and a
map that is made of any entries holds no others.
-/

namespace CqlClient.NameMap

variable {α : Type}

/-! ## Entries in any order -/

theorem nodup_names (map : NameMap α) : map.names.Nodup := by
  rw [names, List.Nodup, List.pairwise_map]
  refine map.sorted.imp ?_
  intro a b hlt heq
  rw [heq] at hlt
  exact String.lt_irrefl _ hlt

/-- Two maps whose entries are the same, order aside, are one map. -/
theorem eq_of_perm {a b : NameMap α} (h : a.entries.Perm b.entries) : a = b := by
  have heq : a.entries = b.entries := by
    refine List.Perm.eq_of_pairwise ?_ a.sorted b.sorted h
    intro x y _ _ hxy hyx
    exact absurd hyx (String.lt_asymm hxy)
  cases a
  cases b
  cases heq
  rfl

theorem perm_place {name : String} (value : α) {entries : List (String × α)}
    (h : name ∉ entries.map Prod.fst) :
    (place name value entries).Perm ((name, value) :: entries) := by
  induction entries with
  | nil => exact .refl _
  | cons head rest ih =>
      obtain ⟨key, old⟩ := head
      rw [List.map_cons, List.mem_cons, not_or] at h
      rw [place]
      split
      · exact .refl _
      · rw [if_neg h.1]
        exact ((ih h.2).cons _).trans (.swap ..)

theorem perm_insertMany {map : NameMap α} {entries : List (String × α)}
    (h : ((map.entries ++ entries).map Prod.fst).Nodup) :
    (map.insertMany entries).entries.Perm (map.entries ++ entries) := by
  induction entries generalizing map with
  | nil =>
      rw [List.append_nil]
      exact .refl _
  | cons entry entries ih =>
      obtain ⟨name, value⟩ := entry
      have hmiddle : (map.entries ++ (name, value) :: entries).Perm
          ((name, value) :: (map.entries ++ entries)) := List.perm_middle
      have hnodup := (hmiddle.map Prod.fst).nodup_iff.mp h
      rw [List.map_cons, List.nodup_cons, List.map_append, List.mem_append, not_or] at hnodup
      have hplaced : ((map.insert name value).entries ++ entries).Perm
          ((name, value) :: (map.entries ++ entries)) :=
        (perm_place value hnodup.1.1).append_right entries
      have hrest := ih ((hplaced.trans hmiddle.symm).map Prod.fst |>.nodup_iff.mpr h)
      exact hrest.trans (hplaced.trans hmiddle.symm)

/-- A map is made of its entries, whatever their order. -/
theorem ofList_of_perm {map : NameMap α} {entries : List (String × α)}
    (h : entries.Perm map.entries) : ofList entries = map := by
  have hnodup : (entries.map Prod.fst).Nodup := (h.map Prod.fst).nodup_iff.mpr map.nodup_names
  have hmade : (ofList entries).entries.Perm entries := perm_insertMany hnodup
  exact eq_of_perm (hmade.trans h)

/-! ## What a name is bound to -/

section

variable {map a b : NameMap α} {entries : List (String × α)} {name : String} {value : α}

theorem lookup_cons_eq_ite (entry : String × α) (entries : List (String × α)) (name : String) :
    (entry :: entries).lookup name =
      if name = entry.1 then some entry.2 else entries.lookup name := by
  rw [List.lookup_cons]
  split
  · next h => rw [if_pos (eq_of_beq h)]
  · next h => rw [if_neg (ne_of_beq_false h)]

theorem lookup_eq_some_iff_mem (h : (entries.map Prod.fst).Nodup) :
    entries.lookup name = some value ↔ (name, value) ∈ entries := by
  induction entries with
  | nil => simp
  | cons entry entries ih =>
      obtain ⟨key, old⟩ := entry
      rw [List.map_cons, List.nodup_cons] at h
      rw [lookup_cons_eq_ite, List.mem_cons, Prod.mk.injEq]
      by_cases hname : name = key
      · have hnot : (name, value) ∉ entries := by
          intro hmem
          exact h.1 (List.mem_map.mpr ⟨_, hmem, hname⟩)
        rw [if_pos hname, Option.some.injEq, or_iff_left hnot, and_iff_right hname, eq_comm]
      · rw [if_neg hname, ih h.2, or_iff_right fun h => hname h.1]

theorem get?_eq_some_iff : map.get? name = some value ↔ (name, value) ∈ map.entries :=
  lookup_eq_some_iff_mem map.nodup_names

theorem nodup_entries (map : NameMap α) : map.entries.Nodup := by
  refine List.Pairwise.of_map Prod.fst ?_ map.nodup_names
  intro x y hne heq
  exact hne (congrArg Prod.fst heq)

/-- Two maps whose names are bound to the same are one map. -/
theorem eq_of_get?_eq (h : ∀ name, a.get? name = b.get? name) : a = b := by
  refine eq_of_perm ((List.perm_ext_iff_of_nodup a.nodup_entries b.nodup_entries).mpr ?_)
  rintro ⟨name, value⟩
  rw [← get?_eq_some_iff, ← get?_eq_some_iff, h]

theorem lookup_of_perm {others : List (String × α)} (h : entries.Perm others)
    (hnodup : (entries.map Prod.fst).Nodup) (name : String) :
    entries.lookup name = others.lookup name := by
  apply Option.ext
  intro value
  rw [lookup_eq_some_iff_mem hnodup,
    lookup_eq_some_iff_mem ((h.map Prod.fst).nodup_iff.mp hnodup), h.mem_iff]

theorem lookup_place (name : String) (value : α) (entries : List (String × α)) (other : String) :
    (place name value entries).lookup other =
      if other = name then some value else entries.lookup other := by
  induction entries with
  | nil => rw [place, lookup_cons_eq_ite]
  | cons head rest ih =>
      obtain ⟨key, old⟩ := head
      rw [place]
      split
      · rw [lookup_cons_eq_ite]
      split
      · next hkey =>
        subst hkey
        rw [lookup_cons_eq_ite, lookup_cons_eq_ite]
        split
        · rfl
        · rfl
      · next hkey =>
        rw [lookup_cons_eq_ite, lookup_cons_eq_ite, ih]
        by_cases hother : other = key
        · rw [if_pos hother, if_pos hother, if_neg fun h => hkey (h.symm.trans hother)]
        · rw [if_neg hother, if_neg hother]

/-- Of all entries of a name the last one is what the name is bound to. -/
theorem get?_insertMany (map : NameMap α) (entries : List (String × α)) (name : String) :
    (map.insertMany entries).get? name = (entries.reverse.lookup name).or (map.get? name) := by
  induction entries generalizing map with
  | nil => rfl
  | cons entry entries ih =>
      have hfirst : (map.insert entry.1 entry.2).get? name =
          ([entry].lookup name).or (map.get? name) := by
        rw [get?, insert, lookup_place, lookup_cons_eq_ite]
        split
        · rfl
        · rfl
      have hstep : map.insertMany (entry :: entries) =
          (map.insert entry.1 entry.2).insertMany entries := rfl
      rw [hstep, ih, hfirst, List.reverse_cons, List.lookup_append, Option.or_assoc]

theorem get?_ofList (entries : List (String × α)) (name : String) :
    (ofList entries).get? name = entries.reverse.lookup name :=
  (get?_insertMany ..).trans (Option.or_none ..)

theorem mem_names_iff : name ∈ map.names ↔ ∃ value, map.get? name = some value := by
  rw [names, List.mem_map]
  constructor
  · rintro ⟨⟨_, value⟩, hmem, rfl⟩
    exact ⟨value, get?_eq_some_iff.mpr hmem⟩
  · rintro ⟨value, hget⟩
    exact ⟨_, get?_eq_some_iff.mp hget, rfl⟩

/-- The names of a map are those of the entries it is made of. -/
theorem mem_names_ofList : name ∈ (ofList entries).names ↔ name ∈ entries.map Prod.fst := by
  rw [mem_names_iff, ← Option.isSome_iff_exists, get?_ofList, List.lookup_isSome_iff, List.mem_map]
  simp only [List.mem_reverse, beq_iff_eq, eq_comm (a := name)]

/-- An entry is found if no later one has its name. -/
theorem get?_ofList_of_last {place : Nat} (h : entries[place]? = some (name, value))
    (hlast : ∀ (later : Nat) (entry : String × α), place < later → entries[later]? = some entry →
      entry.1 ≠ name) :
    (ofList entries).get? name = some value := by
  obtain ⟨hplace, hentry⟩ := List.getElem?_eq_some_iff.mp h
  have hcut : entries = entries.take place ++ (name, value) :: entries.drop (place + 1) := by
    rw [← hentry, List.getElem_cons_drop, List.take_append_drop]
  have hlater : (entries.drop (place + 1)).reverse.lookup name = none := by
    rw [List.lookup_eq_none_iff]
    intro entry hmem
    obtain ⟨offset, hoffset⟩ := List.mem_iff_getElem?.mp (List.mem_reverse.mp hmem)
    rw [List.getElem?_drop] at hoffset
    exact bne_iff_ne.mpr (hlast _ entry (by omega) hoffset).symm
  rw [get?_ofList, hcut, List.reverse_append, List.reverse_cons, List.append_assoc,
    List.lookup_append, hlater, Option.none_or, List.singleton_append, lookup_cons_eq_ite,
    if_pos rfl]

end

/-! ## Any entries -/

theorem mem_insertMany {map : NameMap α} {entries : List (String × α)} {entry : String × α}
    (h : entry ∈ (map.insertMany entries).entries) : entry ∈ map.entries ∨ entry ∈ entries := by
  induction entries generalizing map with
  | nil => exact .inl h
  | cons first entries ih =>
      rcases ih h with hplaced | hlater
      · rcases mem_place hplaced with rfl | hold
        · exact .inr List.mem_cons_self
        · exact .inl hold
      · exact .inr (List.mem_cons_of_mem _ hlater)

theorem mem_of_mem_ofList {entries : List (String × α)} {entry : String × α}
    (h : entry ∈ (ofList entries).entries) : entry ∈ entries :=
  (mem_insertMany h).resolve_left List.not_mem_nil

theorem length_place_le (name : String) (value : α) (entries : List (String × α)) :
    (place name value entries).length ≤ entries.length + 1 := by
  induction entries with
  | nil => exact Nat.le_refl 1
  | cons head rest ih =>
      obtain ⟨key, old⟩ := head
      rw [place]
      split
      · exact Nat.le_refl _
      · split
        · exact Nat.le_succ _
        · exact Nat.succ_le_succ ih

theorem size_insertMany_le (map : NameMap α) (entries : List (String × α)) :
    (map.insertMany entries).size ≤ map.size + entries.length := by
  induction entries generalizing map with
  | nil => exact Nat.le_refl _
  | cons first entries ih =>
      have hplaced : (map.insert first.1 first.2).size ≤ map.size + 1 := length_place_le ..
      have hrest := ih (map.insert first.1 first.2)
      rw [List.length_cons]
      exact Nat.le_trans hrest (by omega)

theorem size_ofList_le (entries : List (String × α)) : (ofList entries).size ≤ entries.length := by
  have h := size_insertMany_le empty entries
  rwa [show (empty : NameMap α).size = 0 from rfl, Nat.zero_add] at h

end CqlClient.NameMap
