import CqlClient.Proofs.Value.Inside
import Mathlib.Data.Set.Finite.List

/-!
Equality of collections by equality of their elements. Lists are equal place by place; between
values that hold no not-a-number sets and maps are equal if one is, place by place, a permutation of
the other. With a not-a-number in a set, equality depends on which of two values is asked.
-/

namespace CqlClient.Value

/-! ## Equality of collections -/

theorem beq_list {a b : List Value} : (list a == list b) = sameList (· == ·) a b := by
  rw [← sameWithin_eq_same (Nat.succ_le_succ (Nat.le_max_left ..))
    (Nat.succ_le_succ (Nat.le_max_right (depthOfItems a) (depthOfItems b)))]
  exact sameList_congr fun x hx y hy => sameWithin_eq_same
    (depthOfItems_le_iff.mp (Nat.le_max_left ..) x hx)
    (depthOfItems_le_iff.mp (Nat.le_max_right ..) y hy)

theorem beq_set {a b : List Value} : (set a == set b) = sameElements (· == ·) a b := by
  have hdepth : ∀ x ∈ a ++ b, x.depth ≤ max (depthOfItems a) (depthOfItems b) :=
    List.forall_mem_append.mpr ⟨depthOfItems_le_iff.mp (Nat.le_max_left ..),
      depthOfItems_le_iff.mp (Nat.le_max_right ..)⟩
  rw [← sameWithin_eq_same (Nat.succ_le_succ (Nat.le_max_left ..))
    (Nat.succ_le_succ (Nat.le_max_right (depthOfItems a) (depthOfItems b)))]
  exact sameElements_congr fun x hx y hy => sameWithin_eq_same (hdepth x hx) (hdepth y hy)

theorem beq_map {a b : List (Value × Value)} :
    (map a == map b) = sameElements (fun x y => x.1 == y.1 && x.2 == y.2) a b := by
  have hdepth : ∀ x ∈ a ++ b, x.1.depth ≤ max (depthOfEntries a) (depthOfEntries b) ∧
      x.2.depth ≤ max (depthOfEntries a) (depthOfEntries b) :=
    List.forall_mem_append.mpr ⟨depthOfEntries_le_iff.mp (Nat.le_max_left ..),
      depthOfEntries_le_iff.mp (Nat.le_max_right ..)⟩
  rw [← sameWithin_eq_same (Nat.succ_le_succ (Nat.le_max_left ..))
    (Nat.succ_le_succ (Nat.le_max_right (depthOfEntries a) (depthOfEntries b)))]
  refine sameElements_congr fun x hx y hy => ?_
  rw [sameWithin_eq_same (hdepth x hx).1 (hdepth y hy).1,
    sameWithin_eq_same (hdepth x hx).2 (hdepth y hy).2]

theorem beq_list_iff {a b : List Value} : (list a == list b) = true ↔
    a.length = b.length ∧ ∀ i (ha : i < a.length) (hb : i < b.length), (a[i] == b[i]) = true := by
  rw [beq_list, sameList_iff, List.forall₂_iff_get]
  rfl

/-- Equality is an equivalence between values that hold no not-a-number. Lists are equal place by
place, sets and maps as they are permuted. -/
theorem beq_congruence :
    EquivalenceOn Numeric (· == · : Value → Value → Bool) ∧
    (∀ a b : List Value, (list a == list b) = true ↔ a.length = b.length ∧
      ∀ i (ha : i < a.length) (hb : i < b.length), (a[i] == b[i]) = true) ∧
    (∀ a b : List Value, (set a).Numeric → (set b).Numeric →
      ((set a == set b) = true ↔ ∃ c, c.Perm b ∧ List.Forall₂ (fun x y => x == y) a c)) ∧
    (∀ a b : List (Value × Value), (map a).Numeric → (map b).Numeric →
      ((map a == map b) = true ↔
        ∃ c, c.Perm b ∧ List.Forall₂ (fun x y => x.1 == y.1 ∧ x.2 == y.2) a c)) := by
  refine ⟨equivalenceOn_beq, fun a b => beq_list_iff, fun a b ha hb => ?_, fun a b ha hb => ?_⟩
  · rw [beq_set, sameElements_iff equivalenceOn_beq (numericItems_iff.mp ha)
      (numericItems_iff.mp hb)]
    simp only [and_comm]
  · rw [beq_map, sameElements_iff equivalenceOn_beq.pair (numericEntries_iff.mp ha)
      (numericEntries_iff.mp hb)]
    simp only [Bool.and_eq_true, and_comm]

/-- Two sets of lists, of which the second has the lists in the other order and the other zero. -/
theorem beq_of_permuted_lists :
    let a := [list [double 0, int 1], list [double 0x3ff0000000000000]]
    let b := [list [double 0x3ff0000000000000], list [double 0x8000000000000000, int 1]]
    (set a).Numeric ∧ (set b).Numeric ∧ (set a == set b) = true ∧ (set b == set a) = true := by
  intro a b
  have hnumeric : (set a).Numeric ∧ (set b).Numeric := by
    simp only [a, b, Numeric, NumericItems, and_true]
    decide
  obtain ⟨hequivalence, hlist, hset, -⟩ := beq_congruence
  have hab : (set a == set b) = true := by
    refine (hset a b hnumeric.1 hnumeric.2).mpr
      ⟨[list [double 0x8000000000000000, int 1], list [double 0x3ff0000000000000]], .swap .., ?_⟩
    refine .cons ?_ (.cons ?_ .nil)
    · decide
    · decide
  exact ⟨hnumeric.1, hnumeric.2, hab, hequivalence.symm hnumeric.1 hnumeric.2 hab⟩

/-! ## What equals what -/

/-- Equal values are equal as values without elements, or as collections of one kind. -/
theorem agree_of_beq {a b : Value} (h : (a == b) = true) : Agree (· == ·) a b := by
  have hagree : Agree (sameWithin (max a.depth b.depth)) a b := by
    rw [← sameWithin_succ_iff, sameWithin_eq_same (Nat.le_succ_of_le (Nat.le_max_left ..))
      (Nat.le_succ_of_le (Nat.le_max_right ..))]
    exact h
  cases hagree with
  | scalar hscalar => exact .scalar hscalar
  | list => exact .list (beq_list ▸ h)
  | set => exact .set (beq_set ▸ h)
  | map => exact .map (beq_map ▸ h)

theorem beq_of_sameScalar {a b : Value} (h : sameScalar a b = true) : (a == b) = true := by
  rw [← sameWithin_eq_same (Nat.le_of_eq (depth_of_sameScalar h).1)
    (Nat.le_of_eq (depth_of_sameScalar h).2)]
  exact h

section

variable {v : Value}

theorem exists_list_of_beq {items : List Value} (h : (list items == v) = true) :
    ∃ others, v = list others := by
  cases agree_of_beq h with
  | scalar hscalar => cases (depth_of_sameScalar hscalar).1
  | list => exact ⟨_, rfl⟩

theorem exists_set_of_beq {items : List Value} (h : (set items == v) = true) :
    ∃ others, v = set others := by
  cases agree_of_beq h with
  | scalar hscalar => cases (depth_of_sameScalar hscalar).1
  | set => exact ⟨_, rfl⟩

theorem exists_map_of_beq {entries : List (Value × Value)} (h : (map entries == v) = true) :
    ∃ others, v = map others := by
  cases agree_of_beq h with
  | scalar hscalar => cases (depth_of_sameScalar hscalar).1
  | map => exact ⟨_, rfl⟩

end

theorem sameElements_self {α : Type} (same : α → α → Bool) (a : List α) :
    sameElements same a a = true := by
  simp [sameElements]

/-- What equals anything equals itself. Sets and maps always do. -/
theorem beq_self_of_beq {a b : Value} (h : (a == b) = true) : (a == a) = true := by
  induction a using induction generalizing b with
  | scalar a hdepth =>
      have hscalar := (agree_of_beq h).of_depth hdepth
      exact beq_of_sameScalar (sameScalar_trans hscalar (sameScalar_symm hscalar))
  | list a ih =>
      obtain ⟨b, rfl⟩ := exists_list_of_beq h
      obtain ⟨hlength, hitems⟩ := beq_list_iff.mp h
      refine beq_list_iff.mpr ⟨rfl, fun i hi _ => ?_⟩
      exact ih _ (List.getElem_mem hi) (hitems i hi (hlength ▸ hi))
  | set a => rw [beq_set, sameElements_self]
  | map a => rw [beq_map, sameElements_self]

/-! ## Not-a-numbers -/

/-- Whether this set or map holds no not-a-number. -/
def HoldsNumbers : Value → Prop
  | set items => (set items).Numeric
  | map entries => (map entries).Numeric
  | _ => True

/-- Whether no set or map inside a value holds a not-a-number. -/
def Comparable (v : Value) : Prop := v.Throughout HoldsNumbers

theorem comparable_list {items : List Value} :
    (list items).Comparable ↔ ∀ v ∈ items, v.Comparable :=
  throughout_list.trans (and_iff_right trivial)

section

variable {a b c : Value}

/-- The induction is through lists; the sets and maps in them hold numbers only. -/
theorem beq_symm_of_comparable (ha : a.Comparable) (hb : b.Comparable) (h : (a == b) = true) :
    (b == a) = true := by
  induction a using induction generalizing b with
  | scalar a hdepth =>
      exact beq_of_sameScalar (sameScalar_symm ((agree_of_beq h).of_depth hdepth))
  | list a ih =>
      obtain ⟨b, rfl⟩ := exists_list_of_beq h
      rw [comparable_list] at ha hb
      obtain ⟨hlength, hitems⟩ := beq_list_iff.mp h
      refine beq_list_iff.mpr ⟨hlength.symm, fun i hi hi' => ?_⟩
      exact ih _ (List.getElem_mem hi') (ha _ (List.getElem_mem hi'))
        (hb _ (List.getElem_mem hi)) (hitems i hi' hi)
  | set a =>
      obtain ⟨b, rfl⟩ := exists_set_of_beq h
      exact equivalenceOn_beq.symm ha.self hb.self h
  | map a =>
      obtain ⟨b, rfl⟩ := exists_map_of_beq h
      exact equivalenceOn_beq.symm ha.self hb.self h

theorem beq_trans_of_comparable (ha : a.Comparable) (hb : b.Comparable) (hc : c.Comparable)
    (hab : (a == b) = true) (hbc : (b == c) = true) : (a == c) = true := by
  induction a using induction generalizing b c with
  | scalar a hdepth =>
      have hleft := (agree_of_beq hab).of_depth hdepth
      have hright := (agree_of_beq hbc).of_depth (depth_of_sameScalar hleft).2
      exact beq_of_sameScalar (sameScalar_trans hleft hright)
  | list a ih =>
      obtain ⟨b, rfl⟩ := exists_list_of_beq hab
      obtain ⟨c, rfl⟩ := exists_list_of_beq hbc
      rw [comparable_list] at ha hb hc
      obtain ⟨hlength, hleft⟩ := beq_list_iff.mp hab
      obtain ⟨hlength', hright⟩ := beq_list_iff.mp hbc
      refine beq_list_iff.mpr ⟨hlength.trans hlength', fun i hi hi' => ?_⟩
      have hmiddle := hlength ▸ hi
      exact ih _ (List.getElem_mem hi) (ha _ (List.getElem_mem hi))
        (hb _ (List.getElem_mem hmiddle)) (hc _ (List.getElem_mem hi'))
        (hleft i hi hmiddle) (hright i hmiddle hi')
  | set a =>
      obtain ⟨b, rfl⟩ := exists_set_of_beq hab
      obtain ⟨c, rfl⟩ := exists_set_of_beq hbc
      exact equivalenceOn_beq.trans ha.self hb.self hc.self hab hbc
  | map a =>
      obtain ⟨b, rfl⟩ := exists_map_of_beq hab
      obtain ⟨c, rfl⟩ := exists_map_of_beq hbc
      exact equivalenceOn_beq.trans ha.self hb.self hc.self hab hbc

end

theorem eq_of_varint_beq {n : Int} {v : Value} (h : (varint n == v) = true) : v = varint n := by
  rcases eq_of_sameScalar ((agree_of_beq h).of_depth rfl) with heq | ⟨_, _, heq, _⟩ | ⟨_, _, heq, _⟩
  · exact heq.symm
  · cases heq
  · cases heq

theorem eq_of_beq_varint {n : Int} {v : Value} (h : (v == varint n) = true) : v = varint n := by
  cases agree_of_beq h with
  | scalar hscalar => exact eq_of_varint_beq (beq_of_sameScalar (sameScalar_symm hscalar))

/-- There is a number that is not among the elements. -/
theorem exists_varint_notMem (items : List Value) : ∃ n, varint n ∉ items := by
  have hinjective : Function.Injective varint := fun _ _ h => by cases h; rfl
  have hinfinite : (Set.range varint).Infinite :=
    Set.infinite_of_injective_forall_mem hinjective Set.mem_range_self
  obtain ⟨_, ⟨n, rfl⟩, hn⟩ := hinfinite.exists_notMem_finite items.finite_toSet
  exact ⟨n, hn⟩

/-- A set with an element that is not equal to itself equals the set that has a new number in the
place of this element, as no element of the first is missing in the second. The number is missing in
the first. -/
theorem exists_beq_ne_of_mem {items : List Value} {x : Value} (hx : x ∈ items)
    (hself : (x == x) = false) :
    ∃ other, (set items == set other) = true ∧ (set other == set items) = false := by
  obtain ⟨n, hn⟩ := exists_varint_notMem items
  obtain ⟨front, back, rfl⟩ := List.append_of_mem hx
  refine ⟨front ++ varint n :: back, ?_, ?_⟩
  · rw [beq_set, sameElements, Bool.and_eq_true, List.all_eq_true]
    refine ⟨by simp, fun z hz => ?_⟩
    have hxz : (x == z) = false := by
      refine eq_false_of_ne_true fun h => ?_
      rw [beq_self_of_beq h] at hself
      cases hself
    have hnz : (varint n == z) = false := by
      refine eq_false_of_ne_true fun h => hn ?_
      rwa [← eq_of_varint_beq h]
    simp [hxz, hnz]
  · rw [beq_set, sameElements, Bool.and_eq_false_iff, List.all_eq_false]
    refine .inr ⟨varint n, by simp, ?_⟩
    have hnone : (front ++ x :: back).countP (· == varint n) = 0 := by
      rw [List.countP_eq_zero]
      intro z hz h
      exact hn (eq_of_beq_varint h ▸ hz)
    have hsome : 0 < (front ++ varint n :: back).countP (· == varint n) :=
      List.countP_pos_iff.mpr ⟨varint n, by simp, beq_of_sameScalar (beq_self_eq_true n)⟩
    rw [hnone]
    simpa using hsome.ne'

/-- Equality is symmetric and transitive between values in which every not-a-number stands outside
sets and maps. A set with an element that is not equal to itself equals another set that does not
equal it. -/
theorem beq_comm_and_trans {a b c : Value} (ha : a.Comparable) (hb : b.Comparable)
    (hc : c.Comparable) :
    (a == b) = (b == a) ∧ ((a == b) = true → (b == c) = true → (a == c) = true) ∧
      ∀ items, a ∈ items → (a == a) = false →
        ∃ other, (set items == other) = true ∧ (other == set items) = false := by
  refine ⟨?_, beq_trans_of_comparable ha hb hc, fun items hmem hself => ?_⟩
  · rw [Bool.eq_iff_iff]
    exact ⟨beq_symm_of_comparable ha hb, beq_symm_of_comparable hb ha⟩
  · obtain ⟨other, hother⟩ := exists_beq_ne_of_mem hmem hself
    exact ⟨_, hother⟩

/-- A list of a not-a-number and a set of two numbers is comparable, and the set equals another in
which the numbers come in the other order. -/
theorem beq_comm_and_trans_of_lists :
    let a := set [double 0, int 1]
    let b := set [int 1, double 0x8000000000000000]
    let c := set [int 1, double 0]
    let nans := list [double 0x7ff8000000000000, a]
    (a.Comparable ∧ b.Comparable ∧ c.Comparable ∧ nans.Comparable) ∧ (a == c) = true ∧
      (nans == list [b]) = (list [b] == nans) ∧
      ∃ other, (set [nans] == other) = true ∧ (other == set [nans]) = false := by
  intro a b c nans
  have hset : ∀ v ∈ [a, b, c], v.Comparable := by
    simp only [List.forall_mem_cons, List.not_mem_nil, false_implies, implies_true, and_true,
      a, b, c, Comparable, throughout_set, HoldsNumbers, Numeric, NumericItems,
      throughout_of_depth (show (double _).depth = 0 from rfl),
      throughout_of_depth (show (int _).depth = 0 from rfl)]
    decide
  have ha : a.Comparable := hset a (by simp)
  have hb : b.Comparable := hset b (by simp)
  have hc : c.Comparable := hset c (by simp)
  have hnans : nans.Comparable := by
    refine comparable_list.mpr (List.forall_mem_cons.mpr ⟨?_, List.forall_mem_singleton.mpr ha⟩)
    exact (throughout_of_depth rfl).mpr trivial
  have hlist : (list [b]).Comparable := comparable_list.mpr (List.forall_mem_singleton.mpr hb)
  obtain ⟨hcomm, -, hunlike⟩ := beq_comm_and_trans hnans hlist ha
  refine ⟨⟨ha, hb, hc, hnans⟩, ?_, hcomm, hunlike [nans] (List.mem_singleton_self _) (by decide)⟩
  exact (beq_comm_and_trans ha hb hc).2.1 (by decide) (by decide)

/-- A set of a not-a-number equals a set of a number, but not the other way round. With such sets in
sets, what equals an equal one need not be equal. -/
theorem beq_of_nan_in_sets :
    let nan : Value := double 0x7ff8000000000000
    let one : Value := double 0x3ff0000000000000
    ((set [nan] == set [one]) = true ∧ (set [one] == set [nan]) = false) ∧
    ((set [set [one], nan] == set [set [nan], nan]) = true ∧
      (set [set [nan], nan] == set [set [nan], set [one]]) = true ∧
      (set [set [one], nan] == set [set [nan], set [one]]) = false) := by
  decide

end CqlClient.Value
