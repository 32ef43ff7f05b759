import Mathlib.Data.List.Forall2

/-!
Computations that can fail. A chain of them that has succeeded has succeeded at every link.
-/

namespace CqlClient

variable {ε α β : Type}

theorem ok_bind (a : α) (f : α → Except ε β) : (Except.ok a >>= f) = f a := rfl

theorem error_bind (e : ε) (f : α → Except ε β) : (Except.error e >>= f) = .error e := rfl

theorem bind_eq_ok {x : Except ε α} {f : α → Except ε β} {b : β} :
    (x >>= f) = .ok b ↔ ∃ a, x = .ok a ∧ f a = .ok b := by
  cases x with
  | error e => simp [error_bind]
  | ok a => simp [ok_bind]

theorem map_eq_ok {x : Except ε α} {f : α → β} {b : β} :
    x.map f = .ok b ↔ ∃ a, x = .ok a ∧ f a = b := by
  cases x <;> simp [Except.map]

theorem map_eq_error {x : Except ε α} {f : α → β} {e : ε} : x.map f = .error e ↔ x = .error e := by
  cases x <;> simp [Except.map]

theorem not_exists_error (e : ε) : ¬ ∃ a : α, Except.error e = .ok a := by simp

theorem exists_eq_ok_iff {x : Except ε α} : (∃ a, x = .ok a) ↔ ∀ e, x ≠ .error e := by
  cases x <;> simp

theorem toOption_eq_some {x : Except ε α} {a : α} : x.toOption = some a ↔ x = .ok a := by
  cases x <;> simp [Except.toOption]

theorem pure_eq_ok (a : α) : (pure a : Except ε α) = .ok a := rfl

/-- All links of a chain over a list succeed if the chain does, each with its own result. -/
theorem mapM_eq_ok {f : α → Except ε β} {xs : List α} {ys : List β} :
    xs.mapM f = .ok ys ↔ List.Forall₂ (fun x y => f x = .ok y) xs ys := by
  induction xs generalizing ys with
  | nil =>
      rw [List.mapM_nil, pure_eq_ok]
      constructor
      · intro h
        cases h
        exact .nil
      · intro h
        cases h
        rfl
  | cons x xs ih =>
      simp only [List.mapM_cons, bind_eq_ok, pure_eq_ok]
      constructor
      · rintro ⟨y, hy, rest, hrest, h⟩
        cases h
        exact .cons hy (ih.mp hrest)
      · intro h
        cases h with
        | cons hy hrest => exact ⟨_, hy, _, ih.mpr hrest, rfl⟩

/-- A chain over a list succeeds if each of its links does. -/
theorem exists_mapM_iff {f : α → Except ε β} {xs : List α} :
    (∃ ys, xs.mapM f = .ok ys) ↔ ∀ x ∈ xs, ∃ y, f x = .ok y := by
  induction xs with
  | nil => simp [pure_eq_ok]
  | cons x xs ih =>
      rw [List.forall_mem_cons, ← ih, List.mapM_cons]
      constructor
      · rintro ⟨ys, h⟩
        obtain ⟨y, hy, hlater⟩ := bind_eq_ok.mp h
        obtain ⟨rest, hrest, -⟩ := bind_eq_ok.mp hlater
        exact ⟨⟨y, hy⟩, rest, hrest⟩
      · rintro ⟨⟨y, hy⟩, rest, hrest⟩
        exact ⟨y :: rest, by rw [hy, hrest]; rfl⟩

/-- A chain over a list fails in one way if some link does and no link fails in another. -/
theorem mapM_eq_error {f : α → Except ε β} {xs : List α} {e : ε}
    (hlinks : ∀ x ∈ xs, (∃ y, f x = .ok y) ∨ f x = .error e) (hsome : ∃ x ∈ xs, f x = .error e) :
    xs.mapM f = .error e := by
  induction xs with
  | nil => simp at hsome
  | cons x xs ih =>
      rw [List.forall_mem_cons] at hlinks
      rw [List.mapM_cons]
      rcases hlinks.1 with ⟨y, hy⟩ | hfirst
      · obtain ⟨x', hx', herror⟩ := hsome
        have hlater : x' ∈ xs := by
          refine (List.mem_cons.mp hx').resolve_left ?_
          rintro rfl
          cases hy.symm.trans herror
        rw [hy, ok_bind, ih hlinks.2 ⟨x', hlater, herror⟩, error_bind]
      · rw [hfirst, error_bind]

/-- A chain over a list fails as its first link that fails. -/
theorem mapM_eq_error_iff {f : α → Except ε β} {xs : List α} {e : ε} :
    xs.mapM f = .error e ↔ ∃ front x back, xs = front ++ x :: back ∧
      (∀ y ∈ front, ∃ z, f y = .ok z) ∧ f x = .error e := by
  induction xs with
  | nil =>
      rw [List.mapM_nil, pure_eq_ok]
      simp
  | cons x xs ih =>
      rw [List.mapM_cons]
      cases hx : f x with
      | error e' =>
          rw [error_bind]
          constructor
          · intro h
            cases h
            exact ⟨[], x, xs, rfl, by simp, hx⟩
          · rintro ⟨front, y, back, hxs, hfront, hy⟩
            cases front with
            | nil =>
                cases hxs
                cases hx.symm.trans hy
                rfl
            | cons x' front =>
                cases hxs
                obtain ⟨z, hz⟩ := hfront x List.mem_cons_self
                cases hx.symm.trans hz
      | ok z =>
          have hlater : (xs.mapM f >>= fun zs => pure (z :: zs)) = .error e ↔
              xs.mapM f = .error e := by
            cases xs.mapM f <;> simp [ok_bind, error_bind, pure_eq_ok]
          rw [ok_bind, hlater, ih]
          constructor
          · rintro ⟨front, y, back, rfl, hfront, hy⟩
            exact ⟨x :: front, y, back, rfl, List.forall_mem_cons.mpr ⟨⟨z, hx⟩, hfront⟩, hy⟩
          · rintro ⟨front, y, back, hxs, hfront, hy⟩
            cases front with
            | nil =>
                cases hxs
                cases hx.symm.trans hy
            | cons x' front =>
                cases hxs
                exact ⟨front, y, back, rfl, (List.forall_mem_cons.mp hfront).2, hy⟩

/-- The same by places: the first link that fails has a place, and those in front of it succeed. -/
theorem mapM_eq_error_iff_place {f : α → Except ε β} {xs : List α} {e : ε} :
    xs.mapM f = .error e ↔ ∃ (place : Nat) (x : α), xs[place]? = some x ∧ f x = .error e ∧
      ∀ (earlier : Nat) (y : α), earlier < place → xs[earlier]? = some y → ∃ z, f y = .ok z := by
  rw [mapM_eq_error_iff]
  constructor
  · rintro ⟨front, x, back, rfl, hfront, hx⟩
    refine ⟨front.length, x, ?_, hx, ?_⟩
    · rw [List.getElem?_append_right (Nat.le_refl _), Nat.sub_self, List.getElem?_cons_zero]
    · intro earlier y hlt hy
      rw [List.getElem?_append_left hlt] at hy
      exact hfront y (List.mem_of_getElem? hy)
  · rintro ⟨place, x, hplace, hx, hearlier⟩
    refine ⟨xs.take place, x, xs.drop (place + 1), ?_, ?_, hx⟩
    · obtain ⟨hlt, rfl⟩ := List.getElem?_eq_some_iff.mp hplace
      rw [List.getElem_cons_drop, List.take_append_drop]
    · intro y hy
      obtain ⟨earlier, hget⟩ := List.mem_iff_getElem?.mp hy
      rw [List.getElem?_take] at hget
      split at hget
      · next hlt => exact hearlier earlier y hlt hget
      · cases hget

/-! ## Lists related place by place -/

section

variable {γ : Type} {R : α → β → Prop} {xs : List α} {ys : List β}

/-- Every item on the right has one on the left. -/
theorem exists_of_mem_right (h : List.Forall₂ R xs ys) : ∀ y ∈ ys, ∃ x ∈ xs, R x y := by
  induction h with
  | nil => simp
  | cons hfirst _ ih =>
      refine List.forall_mem_cons.mpr ⟨⟨_, List.mem_cons_self, hfirst⟩, fun y hy => ?_⟩
      obtain ⟨x, hx, hxy⟩ := ih y hy
      exact ⟨x, List.mem_cons_of_mem _ hx, hxy⟩

/-- What stands on the left in a place is related to what stands on the right in it. -/
theorem getElem?_of_forall₂ (h : List.Forall₂ R xs ys) {place : Nat} {x : α}
    (hx : xs[place]? = some x) : ∃ y, ys[place]? = some y ∧ R x y := by
  induction h generalizing place with
  | nil => cases hx
  | cons hfirst _ ih =>
      cases place with
      | zero =>
          cases hx
          exact ⟨_, rfl, hfirst⟩
      | succ place => exact ih hx

theorem forall₂_map_of_mem {S : γ → β → Prop} {change : α → γ} (h : List.Forall₂ R xs ys)
    (hchange : ∀ x ∈ xs, ∀ y, R x y → S (change x) y) : List.Forall₂ S (xs.map change) ys := by
  induction h with
  | nil => exact .nil
  | cons hfirst _ ih =>
      rw [List.forall_mem_cons] at hchange
      exact .cons (hchange.1 _ hfirst) (ih hchange.2)

theorem map_eq_of_forall₂ {f : α → β} (h : List.Forall₂ R xs ys)
    (hf : ∀ x ∈ xs, ∀ y, R x y → f x = y) : xs.map f = ys := by
  have heq : List.Forall₂ (fun x y => x = y) (xs.map f) ys := forall₂_map_of_mem h hf
  rwa [List.forall₂_eq_eq_eq] at heq

end

end CqlClient
