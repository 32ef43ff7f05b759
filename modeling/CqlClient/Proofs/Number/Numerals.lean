import CqlClient.Number.Shortest
import CqlClient.Uuid
import Mathlib.Data.List.TakeWhile
import Mathlib.Data.Nat.Digits.Defs

/-!
The characters of numbers and identifiers. A number is written with digits, letters and a decimal
point, at least one of them, and with a minus sign in front if it is negative. Integers, octets and
identifiers can be told from their texts.
-/

namespace CqlClient

/-- Digits, letters and the decimal point. -/
def isNumeral (c : Char) : Bool := c.isAlphanum || c == '.'

/-- Characters that are a number: numerals, with or without a minus sign in front. -/
def IsNumber (cs : List Char) : Prop :=
  ∃ numerals, numerals ≠ [] ∧ (∀ c ∈ numerals, isNumeral c = true) ∧
    (cs = numerals ∨ cs = '-' :: numerals)

namespace IsNumber

variable {cs : List Char}

theorem positive (hne : cs ≠ []) (h : ∀ c ∈ cs, isNumeral c = true) : IsNumber cs :=
  ⟨cs, hne, h, .inl rfl⟩

theorem signed {negative : Bool} (hne : cs ≠ []) (h : ∀ c ∈ cs, isNumeral c = true) :
    IsNumber ((if negative then ['-'] else []) ++ cs) := by
  cases negative with
  | true => exact ⟨cs, hne, h, .inr rfl⟩
  | false => exact positive hne h

end IsNumber

namespace Integer

theorem isNumeral_of_mem_digits {n : Nat} {c : Char} (h : c ∈ digits n) : isNumeral c = true := by
  have hdigit : c.isDigit = true := Nat.isDigit_of_mem_toDigits (by decide) (by decide) h
  simp [isNumeral, Char.isAlphanum, hdigit]

theorem isNumber_text (n : Int) : IsNumber (text n).toList := by
  rw [text, String.toList_ofList]
  have hdigits : ∀ c ∈ digits n.natAbs, isNumeral c = true := fun c => isNumeral_of_mem_digits
  split
  · exact ⟨_, Nat.toDigits_ne_nil, hdigits, .inr rfl⟩
  · exact .positive Nat.toDigits_ne_nil hdigits

theorem digits_inj {m n : Nat} (h : digits m = digits n) : m = n := by
  calc m = Nat.ofDigitChars 10 (Nat.toDigits 10 m) 0 := Nat.ofDigitChars_ten_toDigits.symm
    _ = Nat.ofDigitChars 10 (Nat.toDigits 10 n) 0 := congrArg (Nat.ofDigitChars 10 · 0) h
    _ = n := Nat.ofDigitChars_ten_toDigits

/-- The digits of a number do not start with a sign. -/
theorem digits_ne_hyphen_cons (n : Nat) (cs : List Char) : digits n ≠ '-' :: cs := by
  intro h
  have hhyphen : isNumeral '-' = true := isNumeral_of_mem_digits (h ▸ List.mem_cons_self)
  cases hhyphen

theorem text_inj {m n : Int} (h : text m = text n) : m = n := by
  have hchars := String.ofList_injective h
  split at hchars <;> split at hchars
  · have := digits_inj (List.cons.inj hchars).2
    omega
  · exact absurd hchars.symm (digits_ne_hyphen_cons _ _)
  · exact absurd hchars (digits_ne_hyphen_cons _ _)
  · have := digits_inj hchars
    omega

end Integer

namespace Ieee

theorem isNumeral_of_mem_replicate {count : Nat} {c : Char} (h : c ∈ List.replicate count '0') :
    isNumeral c = true := by
  rw [List.eq_of_mem_replicate h]
  rfl

/-- A decimal has a digit in front of its point, if it has a point. -/
theorem Decimal.positional_numerals (d : Decimal) :
    d.positional ≠ [] ∧ ∀ c ∈ d.positional, isNumeral c = true := by
  have hpos : 0 < (Integer.digits d.coefficient).length := Nat.length_toDigits_pos
  have hdigits : ∀ c ∈ Integer.digits d.coefficient, isNumeral c = true :=
    fun c => Integer.isNumeral_of_mem_digits
  simp only [positional]
  split
  · refine ⟨List.append_ne_nil_of_left_ne_nil (List.ne_nil_of_length_pos hpos) _, ?_⟩
    exact List.forall_mem_append.mpr ⟨hdigits, fun c => isNumeral_of_mem_replicate⟩
  · -- The digits are filled up in front until one stands before the point.
    set places := (-d.exponent).toNat
    set filled := List.replicate (places + 1 - (Integer.digits d.coefficient).length) '0' ++
      Integer.digits d.coefficient with hfilled
    have hlength : places < filled.length := by
      rw [hfilled, List.length_append, List.length_replicate]
      omega
    have hnumerals : ∀ c ∈ filled, isNumeral c = true :=
      List.forall_mem_append.mpr ⟨fun c => isNumeral_of_mem_replicate, hdigits⟩
    have hwhole : filled.take (filled.length - places) ≠ [] := by
      apply List.ne_nil_of_length_pos
      rw [List.length_take]
      omega
    have htake : ∀ c ∈ filled.take (filled.length - places), isNumeral c = true :=
      fun c hc => hnumerals c (List.mem_of_mem_take hc)
    split
    · exact ⟨hwhole, htake⟩
    · refine ⟨List.append_ne_nil_of_left_ne_nil hwhole _, ?_⟩
      refine List.forall_mem_append.mpr ⟨htake, List.forall_mem_cons.mpr ⟨rfl, fun c hc => ?_⟩⟩
      have hpart := (List.dropWhile_sublist _).mem (List.mem_reverse.mp hc)
      exact hnumerals c (List.mem_of_mem_drop (List.mem_reverse.mp hpart))

theorem Format.isNumber_text (format : Format) (bits : Nat) :
    IsNumber (format.text bits).toList := by
  simp only [Format.text]
  split
  · exact .positive (by decide) (List.all_eq_true.mp (by decide))
  · rw [String.toList_ofList]
    exact .signed (by decide) (List.all_eq_true.mp (by decide))
  · rw [String.toList_ofList]
    exact .signed (by decide) (List.all_eq_true.mp (by decide))
  · obtain ⟨hne, hnumerals⟩ := Decimal.positional_numerals _
    rw [String.toList_ofList]
    exact .signed hne hnumerals

end Ieee

namespace Hex

theorem isNumeral_digit {n : UInt8} (h : n.toNat < 16) : isNumeral (digit n) = true := by
  have hall : ∀ k : Fin 16, isNumeral (digit (UInt8.ofNat k)) = true := by decide
  have hn := hall ⟨n.toNat, h⟩
  rwa [UInt8.ofNat_toNat] at hn

theorem toNat_high_lt (octet : UInt8) : (octet >>> 4).toNat < 16 := by
  have hoctet := octet.toNat_lt
  rw [UInt8.toNat_shiftRight]
  show octet.toNat >>> 4 < 16
  omega

theorem toNat_low_lt (octet : UInt8) : (octet &&& 15).toNat < 16 := by
  rw [UInt8.toNat_and]
  exact Nat.lt_succ_of_le Nat.and_le_right

theorem isNumeral_of_mem_flatMap {bytes : Bytes} {c : Char} (h : c ∈ bytes.flatMap ofOctet) :
    isNumeral c = true := by
  obtain ⟨octet, -, h⟩ := List.mem_flatMap.mp h
  simp only [ofOctet, List.mem_cons, List.not_mem_nil, or_false] at h
  rcases h with rfl | rfl
  · exact isNumeral_digit (toNat_high_lt octet)
  · exact isNumeral_digit (toNat_low_lt octet)

theorem flatMap_ofOctet_ne_nil {bytes : Bytes} (h : bytes ≠ []) : bytes.flatMap ofOctet ≠ [] := by
  obtain ⟨octet, rest, rfl⟩ := List.exists_cons_of_ne_nil h
  rw [List.flatMap_cons]
  exact List.cons_ne_nil _ _

theorem digit_inj {m n : UInt8} (hm : m.toNat < 16) (hn : n.toNat < 16)
    (h : digit m = digit n) : m = n := by
  have hall : ∀ j k : Fin 16,
      digit (UInt8.ofNat j) = digit (UInt8.ofNat k) → j = k := by decide
  have hsame := hall ⟨m.toNat, hm⟩ ⟨n.toNat, hn⟩ (by rwa [UInt8.ofNat_toNat, UInt8.ofNat_toNat])
  exact UInt8.toNat_inj.mp (Fin.mk.inj hsame)

theorem ofOctet_inj {a b : UInt8} (h : ofOctet a = ofOctet b) : a = b := by
  obtain ⟨hhigh, hlow⟩ := List.cons.inj h
  have hhigh := congrArg UInt8.toNat (digit_inj (toNat_high_lt a) (toNat_high_lt b) hhigh)
  have hlow := congrArg UInt8.toNat
    (digit_inj (toNat_low_lt a) (toNat_low_lt b) (List.cons.inj hlow).1)
  rw [UInt8.toNat_shiftRight, UInt8.toNat_shiftRight] at hhigh
  rw [UInt8.toNat_and, UInt8.toNat_and] at hlow
  have hdiv : a.toNat / 16 = b.toNat / 16 := by
    simpa [Nat.shiftRight_eq_div_pow] using hhigh
  have hmod : a.toNat % 16 = b.toNat % 16 := by
    have hmask : ∀ n : Nat, n &&& 15 = n % 16 := Nat.and_two_pow_sub_one_eq_mod (n := 4)
    rwa [show (15 : UInt8).toNat = 15 from rfl, hmask, hmask] at hlow
  exact UInt8.toNat_inj.mp (by omega)

theorem flatMap_ofOctet_inj {a b : Bytes} (h : a.flatMap ofOctet = b.flatMap ofOctet) : a = b := by
  induction a generalizing b with
  | nil =>
      cases b with
      | nil => rfl
      | cons octet b => cases h
  | cons octet a ih =>
      cases b with
      | nil => cases h
      | cons octet' b =>
          rw [List.flatMap_cons, List.flatMap_cons] at h
          obtain ⟨hfirst, hlater⟩ := List.append_inj h rfl
          rw [ofOctet_inj hfirst, ih hlater]

end Hex

namespace Uuid

/-- The octets of the five groups of an identifier are all its octets. -/
theorem groups_append (id : Uuid) :
    (id.octets.drop 0).take 4 ++ (id.octets.drop 4).take 2 ++ (id.octets.drop 6).take 2 ++
      (id.octets.drop 8).take 2 ++ (id.octets.drop 10).take 6 = id.octets := by
  have hrest : ∀ start count, (id.octets.drop start).take count ++ id.octets.drop (start + count) =
      id.octets.drop start := fun start count => by
    rw [← List.drop_drop, List.take_append_drop]
  have hlast : (id.octets.drop 10).take 6 = id.octets.drop 10 :=
    List.take_of_length_le (by rw [List.length_drop, id.length_octets])
  simp only [List.append_assoc]
  rw [hlast, hrest 8 2, hrest 6 2, hrest 4 2, hrest 0 4, List.drop_zero]

/-- Without its hyphens, the text of an identifier is the digits of its octets. -/
theorem filter_text (id : Uuid) :
    id.text.toList.filter (· != '-') = id.octets.flatMap Hex.ofOctet := by
  have hgroup : ∀ bytes : Bytes, (bytes.flatMap Hex.ofOctet).filter (· != '-') =
      bytes.flatMap Hex.ofOctet := by
    refine fun bytes => List.filter_eq_self.mpr fun c hc => bne_iff_ne.mpr ?_
    rintro rfl
    cases Hex.isNumeral_of_mem_flatMap hc
  rw [text, String.toList_ofList]
  conv_rhs => rw [← groups_append id]
  simp only [List.filter_append, List.filter_cons, hgroup, List.flatMap_append]
  rfl

theorem text_inj {a b : Uuid} (h : a.text = b.text) : a = b := by
  have hdigits : a.octets.flatMap Hex.ofOctet = b.octets.flatMap Hex.ofOctet := by
    rw [← filter_text, ← filter_text, h]
  have hoctets := Hex.flatMap_ofOctet_inj hdigits
  cases a
  cases b
  congr

end Uuid

end CqlClient
