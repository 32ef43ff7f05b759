import CqlClient.Value.Basic
import Mathlib.Data.List.Perm.Basic

/-!
Equality of values that hold no not-a-number. Between such values it is an equivalence, at every
depth: lists agree place by place, and sets and maps agree up to the order of their elements.
-/

namespace CqlClient

namespace Ieee.Format

/-- Whether a pattern denotes a number or an infinity. -/
def IsNumber (format : Format) (bits : Nat) : Prop := format.magnitude bits ≠ .notANumber

instance (format : Format) (bits : Nat) : Decidable (format.IsNumber bits) :=
  inferInstanceAs (Decidable (_ ≠ _))

/-- Whether a pattern denotes one of the two zeros. -/
def IsZero (format : Format) (bits : Nat) : Prop :=
  ∃ exponent, format.magnitude bits = .finite 0 exponent

variable {format : Format} {a b c : Nat}

theorem same_iff : format.same a b = true ↔
    format.IsNumber a ∧ format.IsNumber b ∧ (a = b ∨ format.IsZero a ∧ format.IsZero b) := by
  rw [same]
  split
  · next ha => simp [IsNumber, ha]
  · next hb _ => simp [IsNumber, hb]
  · next ha hb => simp [IsNumber, IsZero, ha, hb]
  · next ha hb hzero =>
    rw [beq_iff_eq]
    constructor
    · intro h
      exact ⟨fun hnan => ha hnan, fun hnan => hb hnan, .inl h⟩
    · rintro ⟨-, -, h | ⟨⟨_, hza⟩, _, hzb⟩⟩
      · exact h
      · exact absurd hzb (hzero _ _ hza)

theorem same_symm (h : format.same a b = true) : format.same b a = true := by
  obtain ⟨ha, hb, heq | ⟨hza, hzb⟩⟩ := same_iff.mp h
  · exact same_iff.mpr ⟨hb, ha, .inl heq.symm⟩
  · exact same_iff.mpr ⟨hb, ha, .inr ⟨hzb, hza⟩⟩

theorem same_trans (hab : format.same a b = true) (hbc : format.same b c = true) :
    format.same a c = true := by
  obtain ⟨ha, -, rfl | ⟨hza, hzb⟩⟩ := same_iff.mp hab
  · exact hbc
  obtain ⟨-, hc, rfl | ⟨-, hzc⟩⟩ := same_iff.mp hbc
  · exact hab
  · exact same_iff.mpr ⟨ha, hc, .inr ⟨hza, hzc⟩⟩

end Ieee.Format

/-- Whether a comparison is an equivalence between the things of which a condition holds. -/
structure EquivalenceOn {α : Type} (P : α → Prop) (same : α → α → Bool) : Prop where
  refl : ∀ {x}, P x → same x x
  symm : ∀ {x y}, P x → P y → same x y → same y x
  trans : ∀ {x y z}, P x → P y → P z → same x y → same y z → same x z

namespace EquivalenceOn

variable {α : Type} {P : α → Prop} {same : α → α → Bool} {a b c : List α}

theorem pair (h : EquivalenceOn P same) :
    EquivalenceOn (fun x : α × α => P x.1 ∧ P x.2)
      fun x y => same x.1 y.1 && same x.2 y.2 where
  refl hx := by simp [h.refl hx.1, h.refl hx.2]
  symm hx hy hxy := by
    rw [Bool.and_eq_true] at hxy ⊢
    exact ⟨h.symm hx.1 hy.1 hxy.1, h.symm hx.2 hy.2 hxy.2⟩
  trans hx hy hz hxy hyz := by
    rw [Bool.and_eq_true] at hxy hyz ⊢
    exact ⟨h.trans hx.1 hy.1 hz.1 hxy.1 hyz.1, h.trans hx.2 hy.2 hz.2 hxy.2 hyz.2⟩

/-- What equals one of two equal things equals the other. -/
theorem congr_right (h : EquivalenceOn P same) {x y z : α} (hx : P x) (hy : P y) (hz : P z)
    (hxy : same x y) : same x z = same y z := by
  rw [Bool.eq_iff_iff]
  exact ⟨h.trans hy hx hz (h.symm hx hy hxy), h.trans hx hy hz hxy⟩

/-- The relation of equal elements, place by place, is symmetric on lists of such elements. -/
theorem forall₂_symm (h : EquivalenceOn P same) (ha : ∀ x ∈ a, P x) (hb : ∀ x ∈ b, P x)
    (hab : List.Forall₂ (same · ·) a b) : List.Forall₂ (same · ·) b a := by
  induction hab with
  | nil => exact .nil
  | cons hxy _ ih =>
      rw [List.forall_mem_cons] at ha hb
      exact .cons (h.symm ha.1 hb.1 hxy) (ih ha.2 hb.2)

theorem forall₂_trans (h : EquivalenceOn P same) (ha : ∀ x ∈ a, P x) (hb : ∀ x ∈ b, P x)
    (hc : ∀ x ∈ c, P x) (hab : List.Forall₂ (same · ·) a b)
    (hbc : List.Forall₂ (same · ·) b c) : List.Forall₂ (same · ·) a c := by
  induction hab generalizing c with
  | nil =>
      cases hbc
      exact .nil
  | cons hxy _ ih =>
      cases hbc with
      | cons hyz hbc =>
          rw [List.forall_mem_cons] at ha hb hc
          exact .cons (h.trans ha.1 hb.1 hc.1 hxy hyz) (ih ha.2 hb.2 hc.2 hbc)

/-- Lists that agree place by place hold every thing equally often. -/
theorem countP_eq (h : EquivalenceOn P same) {z : α} (hz : P z) (ha : ∀ x ∈ a, P x)
    (hb : ∀ x ∈ b, P x) (hab : List.Forall₂ (same · ·) a b) :
    a.countP (same · z) = b.countP (same · z) := by
  induction hab with
  | nil => rfl
  | cons hxy _ ih =>
      rw [List.forall_mem_cons] at ha hb
      rw [List.countP_cons, List.countP_cons, ih ha.2 hb.2, h.congr_right ha.1 hb.1 hz hxy]

end EquivalenceOn

namespace Value

section

variable {α : Type} {P : α → Prop} {same : α → α → Bool} {a b : List α}

theorem sameList_iff : sameList same a b = true ↔ List.Forall₂ (same · ·) a b := by
  fun_induction sameList same a b with
  | case1 => simp
  | case2 x a y b ih => rw [Bool.and_eq_true, ih, List.forall₂_cons]
  | case3 a b hnil hcons =>
      refine iff_of_false Bool.false_ne_true fun h => ?_
      cases h with
      | nil => exact hnil rfl rfl
      | cons => exact hcons _ _ _ _ rfl rfl

theorem exists_perm_of_sameElements (h : EquivalenceOn P same) (ha : ∀ x ∈ a, P x)
    (hb : ∀ x ∈ b, P x) (hab : sameElements same a b = true) :
    ∃ c, List.Forall₂ (same · ·) a c ∧ c.Perm b := by
  simp only [sameElements, Bool.and_eq_true, beq_iff_eq, List.all_eq_true] at hab
  obtain ⟨hlength, hcount⟩ := hab
  induction a generalizing b with
  | nil => exact ⟨[], .nil, by rw [List.eq_nil_of_length_eq_zero hlength.symm]⟩
  | cons x a ih =>
      rw [List.forall_mem_cons] at ha
      -- The other list holds an element that equals the first one; it is taken out.
      have hpos : 0 < b.countP (same · x) := by
        rw [← hcount x List.mem_cons_self, List.countP_pos_iff]
        exact ⟨x, List.mem_cons_self, h.refl ha.1⟩
      obtain ⟨y, hmem, hyx⟩ := List.countP_pos_iff.mp hpos
      obtain ⟨front, back, rfl⟩ := List.append_of_mem hmem
      have hperm : (front ++ y :: back).Perm (y :: (front ++ back)) := List.perm_middle
      have hrest : ∀ z ∈ front ++ back, P z := fun z hz =>
        hb z (hperm.mem_iff.mpr (List.mem_cons_of_mem _ hz))
      have hxy : same x y := h.symm (hb y hmem) ha.1 hyx
      have hfewer : ∀ z ∈ a, a.countP (same · z) = (front ++ back).countP (same · z) := by
        intro z hz
        have hwhole := hcount z (List.mem_cons_of_mem _ hz)
        rw [hperm.countP_eq, List.countP_cons, List.countP_cons,
          h.congr_right ha.1 (hb y hmem) (ha.2 z hz) hxy] at hwhole
        exact Nat.add_right_cancel hwhole
      have hshorter : a.length = (front ++ back).length := by
        have := hperm.length_eq
        simp only [List.length_cons] at hlength this
        omega
      obtain ⟨c, hac, hc⟩ := ih ha.2 hrest hshorter hfewer
      exact ⟨y :: c, .cons hxy hac, (hc.cons y).trans hperm.symm⟩

/-- Between things of which equality is an equivalence, two lists have the same elements if one is,
place by place, a permutation of the other. -/
theorem sameElements_iff (h : EquivalenceOn P same) (ha : ∀ x ∈ a, P x) (hb : ∀ x ∈ b, P x) :
    sameElements same a b = true ↔ ∃ c, List.Forall₂ (same · ·) a c ∧ c.Perm b := by
  refine ⟨exists_perm_of_sameElements h ha hb, ?_⟩
  rintro ⟨c, hac, hcb⟩
  have hc : ∀ x ∈ c, P x := fun x hx => hb x (hcb.mem_iff.mp hx)
  simp only [sameElements, Bool.and_eq_true, beq_iff_eq, List.all_eq_true]
  refine ⟨hac.length_eq.trans hcb.length_eq, fun x hx => ?_⟩
  rw [h.countP_eq (ha x hx) ha hc hac, hcb.countP_eq]

theorem equivalenceOn_sameList (h : EquivalenceOn P same) :
    EquivalenceOn (fun a => ∀ x ∈ a, P x) (sameList same) where
  refl ha := sameList_iff.mpr (List.forall₂_same.mpr fun x hx => h.refl (ha x hx))
  symm ha hb hab := sameList_iff.mpr (h.forall₂_symm ha hb (sameList_iff.mp hab))
  trans ha hb hc hab hbc := sameList_iff.mpr
    (h.forall₂_trans ha hb hc (sameList_iff.mp hab) (sameList_iff.mp hbc))

theorem equivalenceOn_sameElements (h : EquivalenceOn P same) :
    EquivalenceOn (fun a => ∀ x ∈ a, P x) (sameElements same) where
  refl {a} ha := (sameElements_iff h ha ha).mpr
    ⟨a, List.forall₂_same.mpr fun x hx => h.refl (ha x hx), .refl a⟩
  symm {a b} ha hb hab := by
    obtain ⟨c, hac, hcb⟩ := (sameElements_iff h ha hb).mp hab
    have hca := h.forall₂_symm ha (fun x hx => hb x (hcb.mem_iff.mp hx)) hac
    exact (sameElements_iff h hb ha).mpr (List.perm_comp_forall₂ hcb.symm hca)
  trans {a b c} ha hb hc hab hbc := by
    obtain ⟨d, had, hdb⟩ := (sameElements_iff h ha hb).mp hab
    obtain ⟨e, hbe, hec⟩ := (sameElements_iff h hb hc).mp hbc
    obtain ⟨f, hdf, hfe⟩ := List.perm_comp_forall₂ hdb hbe
    have hd : ∀ x ∈ d, P x := fun x hx => hb x (hdb.mem_iff.mp hx)
    have hf : ∀ x ∈ f, P x := fun x hx => hc x ((hfe.trans hec).mem_iff.mp hx)
    exact (sameElements_iff h ha hc).mpr ⟨f, h.forall₂_trans ha hd hf had hdf, hfe.trans hec⟩

end

mutual

/-- Whether no floating-point number in a value, at any depth, is a not-a-number. -/
def Numeric : Value → Prop
  | double bits => Ieee.double.IsNumber bits.toNat
  | float bits => Ieee.single.IsNumber bits.toNat
  | list items => NumericItems items
  | set items => NumericItems items
  | map entries => NumericEntries entries
  | _ => True

def NumericItems : List Value → Prop
  | [] => True
  | v :: rest => v.Numeric ∧ NumericItems rest

def NumericEntries : List (Value × Value) → Prop
  | [] => True
  | (k, v) :: rest => (k.Numeric ∧ v.Numeric) ∧ NumericEntries rest

end

theorem numericItems_iff {items : List Value} :
    NumericItems items ↔ ∀ v ∈ items, v.Numeric := by
  induction items with
  | nil => simp [NumericItems]
  | cons v rest ih => rw [NumericItems, ih, List.forall_mem_cons]

theorem numericEntries_iff {entries : List (Value × Value)} :
    NumericEntries entries ↔ ∀ entry ∈ entries, entry.1.Numeric ∧ entry.2.Numeric := by
  induction entries with
  | nil => simp [NumericEntries]
  | cons entry rest ih => rw [NumericEntries, ih, List.forall_mem_cons]

theorem depthOfItems_le_iff {items : List Value} {level : Nat} :
    depthOfItems items ≤ level ↔ ∀ v ∈ items, v.depth ≤ level := by
  induction items with
  | nil => simp [depthOfItems]
  | cons v rest ih => rw [depthOfItems, Nat.max_le, ih, List.forall_mem_cons]

theorem depthOfEntries_le_iff {entries : List (Value × Value)} {level : Nat} :
    depthOfEntries entries ≤ level ↔
      ∀ entry ∈ entries, entry.1.depth ≤ level ∧ entry.2.depth ≤ level := by
  induction entries with
  | nil => simp [depthOfEntries]
  | cons entry rest ih =>
      rw [depthOfEntries, Nat.max_le, Nat.max_le, ih, List.forall_mem_cons]

theorem depth_le_of_items {items : List Value} {level : Nat}
    (h : depthOfItems items + 1 ≤ level + 1) : ∀ v ∈ items, v.depth ≤ level :=
  depthOfItems_le_iff.mp (Nat.le_of_succ_le_succ h)

theorem depth_le_of_entries {entries : List (Value × Value)} {level : Nat}
    (h : depthOfEntries entries + 1 ≤ level + 1) :
    ∀ entry ∈ entries, entry.1.depth ≤ level ∧ entry.2.depth ≤ level :=
  depthOfEntries_le_iff.mp (Nat.le_of_succ_le_succ h)

/-- The ways in which two values are equal: as values without elements, or as collections of one
kind whose elements are compared in turn. -/
inductive Agree (same : Value → Value → Bool) : Value → Value → Prop where
  | scalar {a b : Value} : sameScalar a b → Agree same a b
  | list {a b : List Value} : sameList same a b → Agree same (.list a) (.list b)
  | set {a b : List Value} : sameElements same a b → Agree same (.set a) (.set b)
  | map {a b : List (Value × Value)} :
      sameElements (fun x y => same x.1 y.1 && same x.2 y.2) a b → Agree same (.map a) (.map b)

theorem sameWithin_succ_iff {level : Nat} {a b : Value} :
    sameWithin (level + 1) a b = true ↔ Agree (sameWithin level) a b := by
  constructor
  · intro h
    unfold sameWithin at h
    split at h
    · next heq => cases heq; exact .list h
    · next heq => cases heq; exact .set h
    · next heq => cases heq; exact .map h
    · exact .scalar h
  · intro h
    cases h with
    | scalar h =>
        unfold sameWithin
        split
        · cases h
        · cases h
        · cases h
        · exact h
    | list h => exact h
    | set h => exact h
    | map h => exact h

/-- Values without elements are equal if they are the same, or numerically. -/
theorem eq_of_sameScalar {a b : Value} (h : sameScalar a b = true) :
    a = b ∨ (∃ x y, a = .double x ∧ b = .double y ∧ Ieee.double.same x.toNat y.toNat) ∨
      ∃ x y, a = .float x ∧ b = .float y ∧ Ieee.single.same x.toNat y.toNat := by
  fun_cases sameScalar a b <;> simp_all [sameScalar]

theorem sameScalar_symm {a b : Value} (h : sameScalar a b = true) : sameScalar b a = true := by
  rcases eq_of_sameScalar h with rfl | ⟨x, y, rfl, rfl, hxy⟩ | ⟨x, y, rfl, rfl, hxy⟩
  · exact h
  · exact Ieee.Format.same_symm hxy
  · exact Ieee.Format.same_symm hxy

theorem sameScalar_trans {a b c : Value} (hab : sameScalar a b = true)
    (hbc : sameScalar b c = true) : sameScalar a c = true := by
  rcases eq_of_sameScalar hab with rfl | ⟨x, y, rfl, rfl, hxy⟩ | ⟨x, y, rfl, rfl, hxy⟩
  · exact hbc
  · rcases eq_of_sameScalar hbc with rfl | ⟨_, z, hy, rfl, hyz⟩ | ⟨_, _, hy, -⟩
    · exact hab
    · cases hy
      exact Ieee.Format.same_trans hxy hyz
    · cases hy
  · rcases eq_of_sameScalar hbc with rfl | ⟨_, _, hy, -⟩ | ⟨_, z, hy, rfl, hyz⟩
    · exact hab
    · cases hy
    · cases hy
      exact Ieee.Format.same_trans hxy hyz

theorem depth_of_sameScalar {a b : Value} (h : sameScalar a b = true) :
    a.depth = 0 ∧ b.depth = 0 := by
  fun_cases sameScalar a b <;> simp_all [sameScalar, depth]

theorem sameScalar_self {v : Value} (hv : v.Numeric) (hdepth : v.depth = 0) :
    sameScalar v v = true := by
  cases v with
  | double bits => exact Ieee.Format.same_iff.mpr ⟨hv, hv, .inl rfl⟩
  | float bits => exact Ieee.Format.same_iff.mpr ⟨hv, hv, .inl rfl⟩
  | list items => cases hdepth
  | set items => cases hdepth
  | map entries => cases hdepth
  | _ => simp [sameScalar]

/-- Whether a value nests at most this many collections and holds no not-a-number. -/
def NumericWithin (level : Nat) (v : Value) : Prop := v.Numeric ∧ v.depth ≤ level

theorem numericWithin_of_items {level : Nat} {items : List Value}
    (h : NumericItems items ∧ depthOfItems items + 1 ≤ level + 1) :
    ∀ v ∈ items, NumericWithin level v := fun v hv =>
  ⟨numericItems_iff.mp h.1 v hv, depth_le_of_items h.2 v hv⟩

theorem numericWithin_of_entries {level : Nat} {entries : List (Value × Value)}
    (h : NumericEntries entries ∧ depthOfEntries entries + 1 ≤ level + 1) :
    ∀ entry ∈ entries, NumericWithin level entry.1 ∧ NumericWithin level entry.2 := by
  intro entry hentry
  have hnumeric := numericEntries_iff.mp h.1 entry hentry
  have hdepth := depth_le_of_entries h.2 entry hentry
  exact ⟨⟨hnumeric.1, hdepth.1⟩, hnumeric.2, hdepth.2⟩

section

variable {level : Nat} {same : Value → Value → Bool} {a b c : Value}

theorem Agree.refl (h : EquivalenceOn (NumericWithin level) same)
    (ha : NumericWithin (level + 1) a) : Agree same a a := by
  cases a with
  | list items => exact .list ((equivalenceOn_sameList h).refl (numericWithin_of_items ha))
  | set items => exact .set ((equivalenceOn_sameElements h).refl (numericWithin_of_items ha))
  | map entries =>
      exact .map ((equivalenceOn_sameElements h.pair).refl (numericWithin_of_entries ha))
  | _ => exact .scalar (sameScalar_self ha.1 rfl)

theorem Agree.symm (h : EquivalenceOn (NumericWithin level) same)
    (ha : NumericWithin (level + 1) a) (hb : NumericWithin (level + 1) b)
    (hab : Agree same a b) : Agree same b a := by
  cases hab with
  | scalar hab => exact .scalar (sameScalar_symm hab)
  | list hab =>
      exact .list ((equivalenceOn_sameList h).symm (numericWithin_of_items ha)
        (numericWithin_of_items hb) hab)
  | set hab =>
      exact .set ((equivalenceOn_sameElements h).symm (numericWithin_of_items ha)
        (numericWithin_of_items hb) hab)
  | map hab =>
      exact .map ((equivalenceOn_sameElements h.pair).symm (numericWithin_of_entries ha)
        (numericWithin_of_entries hb) hab)

/-- A value without elements agrees only with its like. -/
theorem Agree.of_depth (ha : a.depth = 0) (hab : Agree same a b) : sameScalar a b = true := by
  cases hab with
  | scalar hab => exact hab
  | list | set | map => cases ha

theorem Agree.trans (h : EquivalenceOn (NumericWithin level) same)
    (ha : NumericWithin (level + 1) a) (hb : NumericWithin (level + 1) b)
    (hc : NumericWithin (level + 1) c) (hab : Agree same a b) (hbc : Agree same b c) :
    Agree same a c := by
  cases hab with
  | scalar hab =>
      exact .scalar (sameScalar_trans hab (hbc.of_depth (depth_of_sameScalar hab).2))
  | list hab =>
      cases hbc with
      | scalar hbc => cases (depth_of_sameScalar hbc).1
      | list hbc =>
          exact .list ((equivalenceOn_sameList h).trans (numericWithin_of_items ha)
            (numericWithin_of_items hb) (numericWithin_of_items hc) hab hbc)
  | set hab =>
      cases hbc with
      | scalar hbc => cases (depth_of_sameScalar hbc).1
      | set hbc =>
          exact .set ((equivalenceOn_sameElements h).trans (numericWithin_of_items ha)
            (numericWithin_of_items hb) (numericWithin_of_items hc) hab hbc)
  | map hab =>
      cases hbc with
      | scalar hbc => cases (depth_of_sameScalar hbc).1
      | map hbc =>
          exact .map ((equivalenceOn_sameElements h.pair).trans (numericWithin_of_entries ha)
            (numericWithin_of_entries hb) (numericWithin_of_entries hc) hab hbc)

end

/-- The induction is on the level: elements are compared one level further down. -/
theorem equivalenceOn_sameWithin (level : Nat) :
    EquivalenceOn (NumericWithin level) (sameWithin level) := by
  induction level with
  | zero =>
      exact {
        refl := fun ha => sameScalar_self ha.1 (Nat.le_zero.mp ha.2)
        symm := fun _ _ => sameScalar_symm
        trans := fun _ _ _ => sameScalar_trans }
  | succ level ih =>
      exact {
        refl := fun ha => sameWithin_succ_iff.mpr (.refl ih ha)
        symm := fun ha hb hab => sameWithin_succ_iff.mpr
          (.symm ih ha hb (sameWithin_succ_iff.mp hab))
        trans := fun ha hb hc hab hbc => sameWithin_succ_iff.mpr
          (.trans ih ha hb hc (sameWithin_succ_iff.mp hab) (sameWithin_succ_iff.mp hbc)) }

section

variable {α : Type} {f g : α → α → Bool}

theorem sameList_congr {a b : List α} (h : ∀ x ∈ a, ∀ y ∈ b, f x y = g x y) :
    sameList f a b = sameList g a b := by
  induction a generalizing b with
  | nil => cases b <;> rfl
  | cons x a ih =>
      cases b with
      | nil => rfl
      | cons y b =>
          have hrest : ∀ x ∈ a, ∀ y ∈ b, f x y = g x y := fun x hx y hy =>
            h x (List.mem_cons_of_mem _ hx) y (List.mem_cons_of_mem _ hy)
          rw [sameList, sameList, ih hrest, h x List.mem_cons_self y List.mem_cons_self]

theorem sameElements_congr {a b : List α} (h : ∀ x ∈ a ++ b, ∀ y ∈ a ++ b, f x y = g x y) :
    sameElements f a b = sameElements g a b := by
  have hcount : ∀ x ∈ a,
      a.countP (f · x) = a.countP (g · x) ∧ b.countP (f · x) = b.countP (g · x) := by
    intro x hx
    have hx : x ∈ a ++ b := List.mem_append_left _ hx
    exact ⟨List.countP_congr fun y hy => by rw [h y (List.mem_append_left _ hy) x hx],
      List.countP_congr fun y hy => by rw [h y (List.mem_append_right _ hy) x hx]⟩
  rw [Bool.eq_iff_iff]
  simp only [sameElements, Bool.and_eq_true, List.all_eq_true, beq_iff_eq]
  exact and_congr_right fun _ => forall₂_congr fun x hx => by
    rw [(hcount x hx).1, (hcount x hx).2]

end

/-- Values without elements are compared alike at every level. -/
theorem sameWithin_of_depth {level : Nat} {a b : Value} (ha : a.depth = 0) :
    sameWithin level a b = sameScalar a b := by
  cases level with
  | zero => rfl
  | succ level =>
      cases a with
      | list | set | map => cases ha
      | _ => rfl

theorem sameWithin_eq_sameWithin {level other : Nat} {a b : Value} (ha : a.depth ≤ level)
    (hb : b.depth ≤ level) (ha' : a.depth ≤ other) (hb' : b.depth ≤ other) :
    sameWithin level a b = sameWithin other a b := by
  induction level generalizing other a b with
  | zero =>
      have hdepth : a.depth = 0 := Nat.le_zero.mp ha
      rw [sameWithin_of_depth hdepth, sameWithin_of_depth hdepth]
  | succ level ih =>
      by_cases hdepth : a.depth = 0
      · rw [sameWithin_of_depth hdepth, sameWithin_of_depth hdepth]
      obtain ⟨other, rfl⟩ : ∃ n, other = n + 1 :=
        Nat.exists_eq_succ_of_ne_zero (by omega)
      cases a with
      | list a =>
          cases b with
          | list b =>
              exact sameList_congr fun x hx y hy => ih (depth_le_of_items ha x hx)
                (depth_le_of_items hb y hy) (depth_le_of_items ha' x hx)
                (depth_le_of_items hb' y hy)
          | _ => rfl
      | set a =>
          cases b with
          | set b =>
              have hlevel := List.forall_mem_append.mpr
                ⟨depth_le_of_items ha, depth_le_of_items hb⟩
              have hother := List.forall_mem_append.mpr
                ⟨depth_le_of_items ha', depth_le_of_items hb'⟩
              exact sameElements_congr fun x hx y hy =>
                ih (hlevel x hx) (hlevel y hy) (hother x hx) (hother y hy)
          | _ => rfl
      | map a =>
          cases b with
          | map b =>
              have hlevel := List.forall_mem_append.mpr
                ⟨depth_le_of_entries ha, depth_le_of_entries hb⟩
              have hother := List.forall_mem_append.mpr
                ⟨depth_le_of_entries ha', depth_le_of_entries hb'⟩
              exact sameElements_congr fun x hx y hy => by
                rw [ih (hlevel x hx).1 (hlevel y hy).1 (hother x hx).1 (hother y hy).1,
                  ih (hlevel x hx).2 (hlevel y hy).2 (hother x hx).2 (hother y hy).2]
          | _ => rfl
      | _ => exact absurd rfl hdepth

/-- How far equality looks does not matter once it looks to the bottom. -/
theorem sameWithin_eq_same {level : Nat} {a b : Value} (ha : a.depth ≤ level)
    (hb : b.depth ≤ level) : sameWithin level a b = (a == b) :=
  sameWithin_eq_sameWithin ha hb (Nat.le_max_left ..) (Nat.le_max_right ..)

/-- Equality is an equivalence between values that hold no not-a-number. -/
theorem equivalenceOn_beq : EquivalenceOn Numeric (· == · : Value → Value → Bool) := by
  constructor
  · intro a ha
    have hself := (equivalenceOn_sameWithin a.depth).refl ⟨ha, Nat.le_refl _⟩
    rwa [sameWithin_eq_same (Nat.le_refl _) (Nat.le_refl _)] at hself
  · intro a b ha hb hab
    have hmax := Nat.max_le.mp (Nat.le_refl (max a.depth b.depth))
    rw [← sameWithin_eq_same hmax.1 hmax.2] at hab
    rw [← sameWithin_eq_same hmax.2 hmax.1]
    exact (equivalenceOn_sameWithin _).symm ⟨ha, hmax.1⟩ ⟨hb, hmax.2⟩ hab
  · intro a b c ha hb hc hab hbc
    have hmax := Nat.max_le.mp (Nat.le_refl (max (max a.depth b.depth) c.depth))
    have hleft := Nat.max_le.mp hmax.1
    rw [← sameWithin_eq_same hleft.1 hleft.2] at hab
    rw [← sameWithin_eq_same hleft.2 hmax.2] at hbc
    rw [← sameWithin_eq_same hleft.1 hmax.2]
    exact (equivalenceOn_sameWithin _).trans ⟨ha, hleft.1⟩ ⟨hb, hleft.2⟩ ⟨hc, hmax.2⟩ hab hbc

end Value

end CqlClient
