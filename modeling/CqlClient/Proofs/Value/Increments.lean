import CqlClient.Proofs.Value.Inside

/-!
Counters as increments. A counter is read as a total and can only be written as an increment; a
value that was read becomes one to write when every total in it is taken for an increment. That
keeps what equals what, so it keeps which sets and maps repeat an element or a key.
-/

namespace CqlClient.Value

mutual

/-- The value with an increment in place of every total of a counter. -/
def increments : Value → Value
  | counter total => counterDelta total
  | list items => list (incrementsItems items)
  | set items => set (incrementsItems items)
  | map entries => map (incrementsEntries entries)
  | v => v

def incrementsItems : List Value → List Value
  | [] => []
  | v :: rest => v.increments :: incrementsItems rest

def incrementsEntries : List (Value × Value) → List (Value × Value)
  | [] => []
  | (k, v) :: rest => (k.increments, v.increments) :: incrementsEntries rest

end

theorem incrementsItems_eq_map (items : List Value) :
    incrementsItems items = items.map increments := by
  induction items with
  | nil => rfl
  | cons v rest ih => rw [incrementsItems, ih, List.map_cons]

theorem incrementsEntries_eq_map (entries : List (Value × Value)) :
    incrementsEntries entries =
      entries.map fun entry => (entry.1.increments, entry.2.increments) := by
  induction entries with
  | nil => rfl
  | cons entry rest ih => rw [incrementsEntries, ih, List.map_cons]

mutual

theorem depth_increments (v : Value) : v.increments.depth = v.depth := by
  cases v with
  | list items => exact congrArg (· + 1) (depthOfItems_increments items)
  | set items => exact congrArg (· + 1) (depthOfItems_increments items)
  | map entries => exact congrArg (· + 1) (depthOfEntries_increments entries)
  | _ => rfl

theorem depthOfItems_increments (items : List Value) :
    depthOfItems (incrementsItems items) = depthOfItems items := by
  cases items with
  | nil => rfl
  | cons v rest =>
      rw [incrementsItems, depthOfItems, depthOfItems, depth_increments v,
        depthOfItems_increments rest]

theorem depthOfEntries_increments (entries : List (Value × Value)) :
    depthOfEntries (incrementsEntries entries) = depthOfEntries entries := by
  cases entries with
  | nil => rfl
  | cons entry rest =>
      rw [incrementsEntries, depthOfEntries, depthOfEntries, depth_increments entry.1,
        depth_increments entry.2, depthOfEntries_increments rest]

end

/-! ## Equality -/

section

variable {α β : Type} {f : α → β} {same : β → β → Bool} {a b : List α}

theorem sameList_map : sameList same (a.map f) (b.map f) =
    sameList (fun x y => same (f x) (f y)) a b := by
  induction a generalizing b with
  | nil => cases b <;> rfl
  | cons x a ih =>
      cases b with
      | nil => rfl
      | cons y b => rw [List.map_cons, List.map_cons, sameList, sameList, ih]

theorem sameElements_map : sameElements same (a.map f) (b.map f) =
    sameElements (fun x y => same (f x) (f y)) a b := by
  simp only [sameElements, List.length_map, List.all_map, List.countP_map, Function.comp_def]

end

theorem sameScalar_increments {a b : Value} (ha : ∀ n, a ≠ counterDelta n)
    (hb : ∀ n, b ≠ counterDelta n) : sameScalar a.increments b.increments = sameScalar a b := by
  cases a with
  | counterDelta n => exact absurd rfl (ha n)
  | counter n =>
      cases b with
      | counterDelta m => exact absurd rfl (hb m)
      | _ => rfl
  | _ =>
      cases b with
      | counterDelta m => exact absurd rfl (hb m)
      | _ => rfl

/-- Totals are equal if they are as increments. The induction is on the level: elements are compared
one level further down. -/
theorem sameWithin_increments (level : Nat) {a b : Value} (ha : a.WithoutIncrements)
    (hb : b.WithoutIncrements) :
    sameWithin level a.increments b.increments = sameWithin level a b := by
  induction level generalizing a b with
  | zero => exact sameScalar_increments ha.self hb.self
  | succ level ih =>
      cases a with
      | list a =>
          cases b with
          | list b =>
              have ha := (throughout_list.mp ha).2
              have hb := (throughout_list.mp hb).2
              simp only [increments, incrementsItems_eq_map, sameWithin, sameList_map]
              exact sameList_congr fun x hx y hy => ih (ha x hx) (hb y hy)
          | _ => rfl
      | set a =>
          cases b with
          | set b =>
              have hall := List.forall_mem_append.mpr
                ⟨(throughout_set.mp ha).2, (throughout_set.mp hb).2⟩
              simp only [increments, incrementsItems_eq_map, sameWithin, sameElements_map]
              exact sameElements_congr fun x hx y hy => ih (hall x hx) (hall y hy)
          | _ => rfl
      | map a =>
          cases b with
          | map b =>
              have hall := List.forall_mem_append.mpr
                ⟨(throughout_map.mp ha).2, (throughout_map.mp hb).2⟩
              simp only [increments, incrementsEntries_eq_map, sameWithin, sameElements_map]
              exact sameElements_congr fun x hx y hy => by
                rw [ih (hall x hx).1 (hall y hy).1, ih (hall x hx).2 (hall y hy).2]
          | _ => rfl
      | _ =>
          rw [sameWithin_of_depth rfl, sameWithin_of_depth rfl]
          exact sameScalar_increments ha.self hb.self

theorem beq_increments {a b : Value} (ha : a.WithoutIncrements) (hb : b.WithoutIncrements) :
    (a.increments == b.increments) = (a == b) := by
  show sameWithin _ _ _ = sameWithin _ _ _
  rw [depth_increments, depth_increments, sameWithin_increments _ ha hb]

theorem hasRepeat_increments {items : List Value} (h : ∀ v ∈ items, v.WithoutIncrements) :
    hasRepeat (items.map increments) = hasRepeat items := by
  induction items with
  | nil => rfl
  | cons v items ih =>
      rw [List.forall_mem_cons] at h
      have hfirst : (items.map increments).any (· == v.increments) = items.any (· == v) := by
        rw [List.any_map, Bool.eq_iff_iff, List.any_eq_true, List.any_eq_true]
        exact exists_congr fun w => and_congr_right fun hw => by
          rw [Function.comp_apply, beq_increments (h.2 w hw) h.1]
      rw [List.map_cons, hasRepeat, hasRepeat, hfirst, ih h.2]

theorem hasRepeat_keys_increments {entries : List (Value × Value)}
    (h : ∀ entry ∈ entries, entry.1.WithoutIncrements) :
    hasRepeat ((entries.map fun entry => (entry.1.increments, entry.2.increments)).map Prod.fst) =
      hasRepeat (entries.map Prod.fst) := by
  rw [← hasRepeat_increments (List.forall_mem_map.mpr h), List.map_map, List.map_map]
  rfl

/-- Totals repeat each other if they do as increments. -/
theorem unrepeated_increments {v : Value} (hv : v.WithoutIncrements) :
    v.increments.Unrepeated ↔ v.Unrepeated := by
  induction v using induction with
  | scalar v hdepth =>
      have hincrements : v.increments.depth = 0 := by rw [depth_increments, hdepth]
      exact iff_of_true (unrepeated_of_depth hincrements) (unrepeated_of_depth hdepth)
  | list items ih =>
      have hitems := (throughout_list.mp hv).2
      simp only [increments, incrementsItems_eq_map, unrepeated_list, List.forall_mem_map]
      exact forall₂_congr fun v hmem => ih v hmem (hitems v hmem)
  | set items ih =>
      have hitems := (throughout_set.mp hv).2
      simp only [increments, incrementsItems_eq_map, unrepeated_set, List.forall_mem_map,
        hasRepeat_increments hitems]
      exact and_congr_right fun _ => forall₂_congr fun v hmem => ih v hmem (hitems v hmem)
  | map entries ih =>
      have hentries := (throughout_map.mp hv).2
      have hkeys := hasRepeat_keys_increments fun entry h => (hentries entry h).1
      simp only [increments, incrementsEntries_eq_map, unrepeated_map, List.forall_mem_map, hkeys]
      exact and_congr_right fun _ => forall₂_congr fun entry hmem =>
        and_congr ((ih entry hmem).1 (hentries entry hmem).1)
          ((ih entry hmem).2 (hentries entry hmem).2)

end CqlClient.Value
