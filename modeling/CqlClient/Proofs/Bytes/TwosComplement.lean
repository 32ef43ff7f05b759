import CqlClient.Bytes.TwosComplement
import CqlClient.Proofs.Bytes.Length
import Mathlib.Data.List.Induction
import Mathlib.Tactic.Ring

/-!
The two's complement form of an integer of any size. Its width leaves room for the sign, so reading
the octets gives the integer back. It is the shortest form: no fewer octets stand for the integer,
and no others that are as few do. Any other form is this one behind octets that only repeat the sign.
-/

namespace CqlClient

theorem Bytes.toNat_cons (octet : UInt8) (bytes : Bytes) :
    toNat (octet :: bytes) = octet.toNat * Nat.pow 256 bytes.length + toNat bytes := by
  induction bytes using List.reverseRecOn with
  | nil => simp [toNat]
  | append_singleton bytes last ih =>
      rw [← List.cons_append, toNat_concat, ih, toNat_concat, List.length_append]
      show _ = octet.toNat * (Nat.pow 256 bytes.length * 256) + _
      ring

namespace TwosComplement

/-! ## Room for an integer -/

/-- The integer lies in the range of so many octets. -/
def Fits (width : Nat) (n : Int) : Prop :=
  -(Nat.pow 256 width : Int) ≤ 2 * n ∧ 2 * n < Nat.pow 256 width

theorem Fits.mono {width wider : Nat} {n : Int} (h : Fits width n) (hle : width ≤ wider) :
    Fits wider n := by
  have hpow : Nat.pow 256 width ≤ Nat.pow 256 wider := Nat.pow_le_pow_right (by decide) hle
  obtain ⟨hlow, hhigh⟩ := h
  constructor <;> omega

theorem magnitude_lt (n : Int) :
    (if n < 0 then (-n - 1).toNat else n.toNat) < 2 ^ magnitudeBits n := by
  simp only [magnitudeBits]
  generalize (if n < 0 then (-n - 1).toNat else n.toNat) = magnitude
  split
  · next hzero => simp [hzero]
  · exact Nat.lt_log2_self

theorem magnitudeBits_le {n : Int} {bits : Nat}
    (h : (if n < 0 then (-n - 1).toNat else n.toNat) < 2 ^ bits) : magnitudeBits n ≤ bits := by
  simp only [magnitudeBits]
  generalize (if n < 0 then (-n - 1).toNat else n.toNat) = magnitude at h ⊢
  split
  · exact Nat.zero_le _
  · next hne => exact (Nat.log2_lt hne).mpr h

theorem pow_256_succ (width : Nat) : Nat.pow 256 (width + 1) = 2 * 2 ^ (8 * width + 7) := by
  show 256 ^ (width + 1) = _
  rw [show (256 : Nat) = 2 ^ 8 from rfl, ← Nat.pow_mul, ← Nat.pow_succ']
  congr 1

/-- An integer lies in the range of its width. -/
theorem fits_width (n : Int) : Fits (width n) n := by
  have hbits : magnitudeBits n ≤ 8 * (magnitudeBits n / 8) + 7 := by omega
  have hlt := Nat.lt_of_lt_of_le (magnitude_lt n) (Nat.pow_le_pow_right (by decide) hbits)
  rw [Fits, width, pow_256_succ]
  generalize 2 ^ (8 * (magnitudeBits n / 8) + 7) = half at hlt ⊢
  split at hlt <;> omega

/-- It lies in the range of no fewer octets, of one or more. -/
theorem width_le {least : Nat} {n : Int} (h : Fits (least + 1) n) : width n ≤ least + 1 := by
  rw [Fits, pow_256_succ] at h
  have hbits : magnitudeBits n ≤ 8 * least + 7 := by
    apply magnitudeBits_le
    generalize 2 ^ (8 * least + 7) = half at h ⊢
    split <;> omega
  rw [width]
  omega

theorem decode_encode (n : Int) : decode (encode n) = n := by
  obtain ⟨hlow, hhigh⟩ := fits_width n
  simp only [decode, encode, Bytes.length_ofNat]
  generalize hrange : Nat.pow 256 (width n) = range at hlow hhigh ⊢
  have hpos : (0 : Int) < range := by omega
  have hnonneg := Int.emod_nonneg n (Int.ne_of_gt hpos)
  have hfits : (n % range).toNat < range := by
    have := Int.emod_lt_of_pos n hpos
    omega
  rw [Bytes.toNat_ofNat_of_lt (hrange ▸ hfits)]
  by_cases hsign : 0 ≤ n
  · rw [Int.emod_eq_of_lt hsign (by omega)]
    rw [if_pos (by omega), Int.toNat_of_nonneg hsign]
  · have hmod : n % (range : Int) = n + range := by
      rw [← Int.add_emod_right, Int.emod_eq_of_lt] <;> omega
    rw [hmod, if_neg (by omega)]
    omega

theorem encode_ne_nil (n : Int) : encode n ≠ [] := by
  intro hnil
  have hlength := congrArg List.length hnil
  simp [encode, width] at hlength

/-! ## What octets stand for -/

/-- The integer that octets stand for: the first octet counts with its sign, in the highest place in
base 256, and the others make a number behind it. -/
def value : Bytes → Int
  | [] => 0
  | first :: rest => first.toInt8.toInt * Nat.pow 256 rest.length + Bytes.toNat rest

theorem toInt_toInt8 (octet : UInt8) :
    octet.toInt8.toInt = if octet.toNat < 128 then (octet.toNat : Int) else octet.toNat - 256 := by
  show octet.toBitVec.toInt = _
  rw [BitVec.toInt_eq_toNat_cond]
  show (if 2 * octet.toNat < 256 then (octet.toNat : Int) else octet.toNat - (256 : Nat)) = _
  split <;> split <;> omega

theorem decode_eq_value (bytes : Bytes) : decode bytes = value bytes := by
  cases bytes with
  | nil => rfl
  | cons first rest =>
      have hrest := Bytes.toNat_lt rest
      have hplaces : Nat.pow 256 (rest.length + 1) = 256 * Nat.pow 256 rest.length := Nat.pow_succ'
      simp only [decode, value, toInt_toInt8, List.length_cons, Bytes.toNat_cons, hplaces]
      generalize Nat.pow 256 rest.length = place at hrest ⊢
      by_cases hsign : first.toNat < 128
      · have hsmall : first.toNat * place ≤ 127 * place := Nat.mul_le_mul_right _ (by omega)
        rw [if_pos hsign, if_pos (by omega)]
        push_cast
        rfl
      · have hgreat : 128 * place ≤ first.toNat * place := Nat.mul_le_mul_right _ (by omega)
        rw [if_neg hsign, if_neg (by omega)]
        push_cast
        ring

theorem fits_value (bytes : Bytes) : Fits bytes.length (value bytes) := by
  have hlt := Bytes.toNat_lt bytes
  rw [← decode_eq_value, decode, Fits]
  generalize Nat.pow 256 bytes.length = range at hlt ⊢
  split <;> omega

/-- Octets that are equally many and stand for one integer are the same. -/
theorem eq_of_value_eq {first second : Bytes} (hlength : first.length = second.length)
    (h : value first = value second) : first = second := by
  have hfirst := Bytes.toNat_lt first
  have hsecond := Bytes.toNat_lt second
  rw [← decode_eq_value, ← decode_eq_value, decode, decode, hlength] at h
  rw [hlength] at hfirst
  have hnumber : Bytes.toNat first = Bytes.toNat second := by
    generalize Nat.pow 256 second.length = range at hfirst hsecond h
    split at h <;> split at h <;> omega
  rw [← Bytes.ofNat_toNat first, ← Bytes.ofNat_toNat second, hnumber, hlength]

/-! ## Shortest forms -/

/-- The octets stand for the integer, no fewer do, and no others that are as many. -/
structure IsShortest (bytes : Bytes) (n : Int) : Prop where
  ne_nil : bytes ≠ []
  value_eq : value bytes = n
  length_le : ∀ other, other ≠ [] → value other = n → bytes.length ≤ other.length
  unique : ∀ other, other.length = bytes.length → value other = n → other = bytes

theorem IsShortest.eq {first second : Bytes} {n : Int} (hfirst : IsShortest first n)
    (hsecond : IsShortest second n) : first = second := by
  have hlength : first.length = second.length :=
    Nat.le_antisymm (hfirst.length_le second hsecond.ne_nil hsecond.value_eq)
      (hsecond.length_le first hfirst.ne_nil hfirst.value_eq)
  exact hsecond.unique first hlength hfirst.value_eq

/-- Octets are the shortest form of their integer if it has no room in fewer. -/
theorem isShortest_of_le {bytes : Bytes} (hne : bytes ≠ [])
    (hle : ∀ least, Fits (least + 1) (value bytes) → bytes.length ≤ least + 1) :
    IsShortest bytes (value bytes) where
  ne_nil := hne
  value_eq := rfl
  length_le := by
    intro other hother hvalue
    cases other with
    | nil => exact absurd rfl hother
    | cons first rest => exact hle rest.length (hvalue ▸ fits_value (first :: rest))
  unique := fun _ => eq_of_value_eq

theorem isShortest_encode (n : Int) : IsShortest (encode n) n := by
  have hvalue : value (encode n) = n := by rw [← decode_eq_value, decode_encode]
  have h : IsShortest (encode n) (value (encode n)) := by
    refine isShortest_of_le (encode_ne_nil n) fun least hfits => ?_
    rw [hvalue] at hfits
    rw [encode, Bytes.length_ofNat]
    exact width_le hfits
  rwa [hvalue] at h

/-! ## Octets that repeat the sign -/

/-- The first octet says no more than the sign that the second one has anyway. -/
def RepeatsSign (first second : UInt8) : Prop :=
  (first = 0x00 ∧ second < 0x80) ∨ (first = 0xFF ∧ 0x80 ≤ second)

instance (first second : UInt8) : Decidable (RepeatsSign first second) :=
  inferInstanceAs (Decidable ((first = 0x00 ∧ second < 0x80) ∨ (first = 0xFF ∧ 0x80 ≤ second)))

/-- The octets without those at the front that only repeat the sign. -/
def shortened : Bytes → Bytes
  | first :: second :: rest =>
    if RepeatsSign first second then shortened (second :: rest) else first :: second :: rest
  | bytes => bytes

/-- How many times the first octet adds the range of those behind it to what these stand for. -/
def surplus (first second : UInt8) : Int :=
  first.toInt8.toInt + if second < 0x80 then 0 else 1

theorem surplus_eq_zero_iff {first second : UInt8} :
    surplus first second = 0 ↔ RepeatsSign first second := by
  have hfirst := first.toNat_lt
  have hzero : first = 0x00 ↔ first.toNat = 0 := UInt8.toNat_inj.symm
  have hones : first = 0xFF ↔ first.toNat = 255 := UInt8.toNat_inj.symm
  rw [surplus, RepeatsSign, toInt_toInt8, hzero, hones, ← UInt8.not_lt]
  by_cases hsecond : second < 0x80
  · simp only [hsecond, if_true, and_true, not_true, and_false, or_false]
    split <;> omega
  · simp only [hsecond, if_false, and_false, not_false_eq_true, and_true, false_or]
    split <;> omega

theorem value_cons_cons (first second : UInt8) (rest : Bytes) :
    value (first :: second :: rest) =
      value (second :: rest) + surplus first second * Nat.pow 256 (rest.length + 1) := by
  have hsecond : second < 0x80 ↔ second.toNat < 128 := UInt8.lt_iff_toNat_lt
  have hplaces : Nat.pow 256 (rest.length + 1) = 256 * Nat.pow 256 rest.length := Nat.pow_succ'
  simp only [value, surplus, toInt_toInt8 second, Bytes.toNat_cons, List.length_cons, hplaces,
    hsecond]
  split <;> push_cast <;> ring

/-- An octet that adds more than the sign makes an integer that has no room in the octets behind it:
a whole range lies between it and the integer that these stand for. -/
theorem not_fits_of_surplus {first second : UInt8} (h : surplus first second ≠ 0) (rest : Bytes) :
    ¬ Fits (rest.length + 1) (value (first :: second :: rest)) := by
  rintro ⟨hlow, hhigh⟩
  obtain ⟨hlow', hhigh'⟩ : Fits (rest.length + 1) (value (second :: rest)) := fits_value _
  rw [value_cons_cons] at hlow hhigh
  have hrange : (0 : Int) ≤ Nat.pow 256 (rest.length + 1) := Int.natCast_nonneg _
  generalize (Nat.pow 256 (rest.length + 1) : Int) = range at *
  rcases Int.lt_or_gt_of_ne h with hnegative | hpositive
  · have hless : surplus first second * range ≤ -1 * range :=
      Int.mul_le_mul_of_nonneg_right (by omega) hrange
    omega
  · have hmore : 1 * range ≤ surplus first second * range :=
      Int.mul_le_mul_of_nonneg_right (by omega) hrange
    omega

/-- An octet is left out as long as it adds nothing, and the first that stays adds something, so that
there is no room in fewer. -/
theorem isShortest_shortened {bytes : Bytes} (hne : bytes ≠ []) :
    IsShortest (shortened bytes) (value bytes) := by
  fun_induction shortened bytes with
  | case1 first second rest hsign ih =>
      rw [value_cons_cons, surplus_eq_zero_iff.mpr hsign, Int.zero_mul, Int.add_zero]
      exact ih (List.cons_ne_nil _ _)
  | case2 first second rest hsign =>
      refine isShortest_of_le hne fun least hfits => ?_
      by_contra hleast
      have hless : least + 1 ≤ rest.length + 1 := by
        simp only [List.length_cons] at hleast
        omega
      exact not_fits_of_surplus (mt surplus_eq_zero_iff.mp hsign) rest (hfits.mono hless)
  | case3 bytes hshort =>
      refine isShortest_of_le hne fun least _ => ?_
      match bytes, hshort with
      | [], _ => exact absurd rfl hne
      | [first], _ => exact Nat.le_add_left 1 least
      | first :: second :: rest, hshort => exact absurd rfl (hshort first second rest)

theorem encode_value {bytes : Bytes} (hne : bytes ≠ []) : encode (value bytes) = shortened bytes :=
  (isShortest_encode _).eq (isShortest_shortened hne)

end TwosComplement

end CqlClient
