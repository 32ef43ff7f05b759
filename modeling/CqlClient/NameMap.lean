/-!
Maps from names, kept in the order of their names. Names are ordered by code point, which is also
the order of their UTF-8 octets. Two maps with the same entries are equal.
-/

namespace CqlClient

/-- A map from names to values, in strictly increasing order of names. -/
structure NameMap (α : Type) where
  entries : List (String × α)
  sorted : entries.Pairwise fun a b => a.1 < b.1

namespace NameMap

variable {α : Type}

def empty : NameMap α := ⟨[], .nil⟩

instance : Inhabited (NameMap α) := ⟨empty⟩

/-- Puts an entry in its place and replaces one of the same name. -/
def place (name : String) (value : α) : List (String × α) → List (String × α)
  | [] => [(name, value)]
  | (key, old) :: rest =>
    if name < key then (name, value) :: (key, old) :: rest
    else if name = key then (name, value) :: rest
    else (key, old) :: place name value rest

theorem mem_place {name : String} {value : α} {entries : List (String × α)} {entry : String × α}
    (h : entry ∈ place name value entries) : entry = (name, value) ∨ entry ∈ entries := by
  induction entries with
  | nil => simpa [place] using h
  | cons head rest ih =>
    obtain ⟨key, old⟩ := head
    simp only [place] at h
    split at h
    · simpa using h
    · split at h
      · rcases List.mem_cons.mp h with rfl | h
        · exact .inl rfl
        · exact .inr (List.mem_cons_of_mem _ h)
      · rcases List.mem_cons.mp h with rfl | h
        · exact .inr List.mem_cons_self
        · exact (ih h).imp_right (List.mem_cons_of_mem _)

theorem sorted_place (name : String) (value : α) {entries : List (String × α)}
    (sorted : entries.Pairwise fun a b => a.1 < b.1) :
    (place name value entries).Pairwise fun a b => a.1 < b.1 := by
  induction entries with
  | nil => simp [place]
  | cons head rest ih =>
    obtain ⟨key, old⟩ := head
    obtain ⟨above, tail⟩ := List.pairwise_cons.mp sorted
    simp only [place]
    split
    · next before =>
      refine List.pairwise_cons.mpr ⟨fun entry mem => ?_, List.pairwise_cons.mpr ⟨above, tail⟩⟩
      rcases List.mem_cons.mp mem with rfl | mem
      · exact before
      · exact String.lt_trans before (above _ mem)
    · split
      · next same => subst same; exact List.pairwise_cons.mpr ⟨above, tail⟩
      · next notBefore notSame =>
        refine List.pairwise_cons.mpr ⟨fun entry mem => ?_, ih tail⟩
        rcases mem_place mem with rfl | mem
        · refine Decidable.byContradiction fun notAfter => notSame ?_
          exact String.le_antisymm (String.not_lt.mp notAfter) (String.not_lt.mp notBefore)
        · exact above _ mem

/-- The map with an entry added or replaced. -/
def insert (map : NameMap α) (name : String) (value : α) : NameMap α :=
  ⟨place name value map.entries, sorted_place name value map.sorted⟩

def get? (map : NameMap α) (name : String) : Option α := map.entries.lookup name

def size (map : NameMap α) : Nat := map.entries.length

def isEmpty (map : NameMap α) : Bool := map.entries.isEmpty

def names (map : NameMap α) : List String := map.entries.map Prod.fst

/-- The map with all these entries added in turn, so that the last one of a name stays. -/
def insertMany (map : NameMap α) (entries : List (String × α)) : NameMap α :=
  entries.foldl (fun map (name, value) => map.insert name value) map

/-- The map of these entries, of which the last one of a name stays. -/
def ofList (entries : List (String × α)) : NameMap α := empty.insertMany entries

end NameMap

end CqlClient
