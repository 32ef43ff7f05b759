import CqlClient.Proofs.Number.Numerals
import CqlClient.Proofs.Text.Octets

/-!
Numbers, octets and identifiers that are read back from their texts. A reader of integers takes a run
of digits for the number that the digits stand for, as long as its range has it.
-/

namespace CqlClient

theorem toNat_lt_of_isNumeral {c : Char} (h : isNumeral c = true) : c.toNat < 128 := by
  have hle : ∀ d : Char, d.toNat < 128 → c.val ≤ d.val → c.toNat < 128 := fun d hd hle =>
    Nat.lt_of_le_of_lt (UInt32.le_iff_toNat_le.mp hle) hd
  rcases Bool.or_eq_true_iff.mp h with halphanum | hpoint
  · rcases Bool.or_eq_true_iff.mp halphanum with halpha | hdigit
    · rcases Bool.or_eq_true_iff.mp halpha with hupper | hlower
      · exact hle 'Z' (by decide) (of_decide_eq_true hupper).2
      · exact hle 'z' (by decide) (of_decide_eq_true (Bool.and_eq_true_iff.mp hlower).2)
    · exact hle '9' (by decide) (of_decide_eq_true (Bool.and_eq_true_iff.mp hdigit).2)
  · rw [beq_iff_eq.mp hpoint]
    decide

namespace Integer

/-- Characters that are decimal digits. -/
def AllDigits (cs : List Char) : Prop := ∀ c ∈ cs, c.isDigit = true

/-- The number that digits stand for when they follow the digits of another one. -/
def valueOnto (n : Nat) (cs : List Char) : Nat := Nat.ofDigitChars 10 cs n

theorem allDigits_digits (n : Nat) : AllDigits (digits n) :=
  fun _ => Nat.isDigit_of_mem_toDigits (by decide) (by decide)

theorem digits_ne_nil (n : Nat) : digits n ≠ [] := Nat.toDigits_ne_nil

@[simp] theorem valueOnto_digits (n : Nat) : valueOnto 0 (digits n) = n :=
  Nat.ofDigitChars_ten_toDigits

theorem valueOnto_cons (n : Nat) (c : Char) (cs : List Char) :
    valueOnto n (c :: cs) = valueOnto (n * 10 + (c.toNat - 48)) cs := by
  rw [valueOnto, Nat.ofDigitChars_cons, Nat.mul_comm]
  rfl

/-- More digits do not make a number smaller. -/
theorem le_valueOnto (n : Nat) (cs : List Char) : n ≤ valueOnto n cs := by
  induction cs generalizing n with
  | nil => exact Nat.le_refl n
  | cons c cs ih =>
      rw [valueOnto_cons]
      exact Nat.le_trans (by omega) (ih _)

theorem isDigit_iff {c : Char} : c.isDigit = true ↔ '0' ≤ c ∧ c ≤ '9' := by
  simp [Char.isDigit, Char.le_def]

theorem digit?_of_isDigit {c : Char} (h : c.isDigit = true) : digit? c = some (c.toNat - 48) := by
  rw [digit?, if_pos (isDigit_iff.mp h)]

theorem isSome_digit? (c : Char) : (digit? c).isSome = c.isDigit := by
  cases hc : c.isDigit with
  | true => rw [digit?_of_isDigit hc, Option.isSome_some]
  | false =>
      rw [digit?, if_neg fun h => Bool.false_ne_true (hc.symm.trans (isDigit_iff.mpr h))]
      rfl

/-- A reader that has come to a run of digits goes on behind it, if its range has their number. -/
theorem readOnto_append {limit n : Nat} {beyond : Error} {cs rest : List Char} (hcs : AllDigits cs)
    (hlimit : valueOnto n cs ≤ limit) :
    readOnto limit beyond n (cs ++ rest) = readOnto limit beyond (valueOnto n cs) rest := by
  induction cs generalizing n with
  | nil => rfl
  | cons c cs ih =>
      obtain ⟨hc, hcs⟩ := List.forall_mem_cons.mp hcs
      rw [valueOnto_cons] at hlimit ⊢
      have hle : n * 10 + (c.toNat - 48) ≤ limit := Nat.le_trans (le_valueOnto _ cs) hlimit
      rw [List.cons_append, readOnto, digit?_of_isDigit hc]
      show (if _ then _ else _) = _
      rw [if_pos hle]
      exact ih hcs hlimit

theorem readOnto_digits {limit n : Nat} (beyond : Error) (h : n ≤ limit) :
    readOnto limit beyond 0 (digits n) = .ok n := by
  have hlimit : valueOnto 0 (digits n) ≤ limit := by rwa [valueOnto_digits]
  calc readOnto limit beyond 0 (digits n)
      = readOnto limit beyond 0 (digits n ++ []) := by rw [List.append_nil]
    _ = readOnto limit beyond (valueOnto 0 (digits n)) [] :=
      readOnto_append (allDigits_digits n) hlimit
    _ = .ok n := by
      rw [valueOnto_digits]
      rfl

theorem mapM_digit? {cs : List Char} (hcs : AllDigits cs) :
    cs.mapM digit? = some (cs.map fun c => c.toNat - 48) := by
  induction cs with
  | nil => rfl
  | cons c cs ih =>
      obtain ⟨hc, hcs⟩ := List.forall_mem_cons.mp hcs
      rw [List.mapM_cons, digit?_of_isDigit hc, ih hcs]
      rfl

theorem foldl_chars (n : Nat) (cs : List Char) :
    cs.foldl (fun n c => n * 10 + (c.toNat - 48)) n = valueOnto n cs := by
  induction cs generalizing n with
  | nil => rfl
  | cons c cs ih => rw [List.foldl_cons, ih, valueOnto_cons]

theorem foldl_values (n : Nat) (cs : List Char) :
    (cs.map fun c => c.toNat - 48).foldl (fun n d => n * 10 + d) n = valueOnto n cs := by
  rw [List.foldl_map, foldl_chars]

/-! ## Signs -/

section

variable {lowest highest : Int} {text : String} {cs : List Char}

theorem readWithin_plus (htext : text.toList = '+' :: cs) (hne : cs ≠ []) :
    readWithin lowest highest text = (readOnto highest.toNat .tooLarge 0 cs).map Int.ofNat := by
  obtain ⟨c, cs, rfl⟩ := List.exists_cons_of_ne_nil hne
  rw [readWithin, htext]
  rfl

theorem readWithin_minus (htext : text.toList = '-' :: cs) (hne : cs ≠ []) (hlowest : lowest < 0) :
    readWithin lowest highest text =
      (readOnto lowest.natAbs .tooSmall 0 cs).map fun n => -(n : Int) := by
  obtain ⟨c, cs, rfl⟩ := List.exists_cons_of_ne_nil hne
  rw [readWithin, htext]
  exact if_pos hlowest

theorem readWithin_unsigned {rest : List Char} (htext : text.toList = cs ++ rest)
    (hcs : AllDigits cs) (hne : cs ≠ []) :
    readWithin lowest highest text =
      (readOnto highest.toNat .tooLarge 0 (cs ++ rest)).map Int.ofNat := by
  obtain ⟨c, cs, rfl⟩ := List.exists_cons_of_ne_nil hne
  have hc : c.isDigit = true := hcs c List.mem_cons_self
  have hplus : c ≠ '+' := by
    rintro rfl
    cases hc
  have hminus : c ≠ '-' := by
    rintro rfl
    cases hc
  rw [readWithin, htext]
  split <;> simp_all

/-- The digits of a negative number with a sign in front. -/
theorem readWithin_negative {n : Int} (htext : text.toList = '-' :: digits n.natAbs) (hneg : n < 0)
    (hlow : lowest ≤ n) : readWithin lowest highest text = .ok n := by
  rw [readWithin_minus htext (digits_ne_nil _) (by omega), readOnto_digits _ (by omega)]
  exact congrArg Except.ok (show -(n.natAbs : Int) = n by omega)

end

section

variable {lowest highest n : Int}

/-- The text of a number in range is read as this number. -/
theorem readWithin_text (hlow : lowest ≤ n) (hhigh : n ≤ highest) :
    readWithin lowest highest (text n) = .ok n := by
  by_cases hneg : n < 0
  · apply readWithin_negative _ hneg hlow
    rw [text, String.toList_ofList, if_pos hneg]
  · have htext : (text n).toList = digits n.natAbs ++ [] := by
      rw [text, String.toList_ofList, if_neg hneg, List.append_nil]
    rw [readWithin_unsigned htext (allDigits_digits _) (digits_ne_nil _), List.append_nil,
      readOnto_digits _ (by omega)]
    exact congrArg Except.ok (Int.natAbs_of_nonneg (Int.not_lt.mp hneg))

/-- So is the text with the sign written out. -/
theorem readWithin_signedText (hlow : lowest ≤ n) (hhigh : n ≤ highest) :
    readWithin lowest highest (signedText n) = .ok n := by
  by_cases hneg : n < 0
  · apply readWithin_negative _ hneg hlow
    rw [signedText, String.toList_ofList, if_pos hneg]
  · have htext : (signedText n).toList = '+' :: digits n.natAbs := by
      rw [signedText, String.toList_ofList, if_neg hneg]
    rw [readWithin_plus htext (digits_ne_nil _), readOnto_digits _ (by omega)]
    exact congrArg Except.ok (Int.natAbs_of_nonneg (Int.not_lt.mp hneg))

end

theorem readInt32_text (n : Int32) : readInt32 (text n.toInt) = .ok n := by
  rw [readInt32, readWithin_text n.minValue_le_toInt n.toInt_le]
  exact congrArg Except.ok n.ofInt_toInt

theorem readInt64_text (n : Int64) : readInt64 (text n.toInt) = .ok n := by
  rw [readInt64, readWithin_text n.minValue_le_toInt n.toInt_le]
  exact congrArg Except.ok n.ofInt_toInt

theorem readInt64_signedText (n : Int64) : readInt64 (signedText n.toInt) = .ok n := by
  rw [readInt64, readWithin_signedText n.minValue_le_toInt n.toInt_le]
  exact congrArg Except.ok n.ofInt_toInt

/-! ## Numbers of any size -/

theorem AllDigits.ne_cons {cs : List Char} (h : AllDigits cs) {d : Char} (hd : d.isDigit = false)
    (ds : List Char) : cs ≠ d :: ds := by
  rintro rfl
  exact Bool.false_ne_true (hd.symm.trans (h d List.mem_cons_self))

theorem readUnbounded_digits (n : Nat) : readUnbounded (digits n) = .ok n := by
  have hdigits := allDigits_digits n
  have hplain : (digits n).filter (· != '_') = digits n := by
    apply List.filter_eq_self.mpr
    intro c hc
    apply bne_iff_ne.mpr
    rintro rfl
    cases hdigits _ hc
  have hdrop : dropPlus (digits n) = digits n := by
    rw [dropPlus]
    · exact fun _ => hdigits.ne_cons rfl _
    · exact fun _ => hdigits.ne_cons rfl _
  rw [readUnbounded, hdrop]
  split
  · next hnil => exact absurd hnil (digits_ne_nil n)
  · next hunderscore => exact absurd hunderscore (hdigits.ne_cons rfl _)
  · rw [hplain, mapM_digit? hdigits]
    show Except.ok _ = _
    rw [foldl_values, valueOnto_digits]

theorem readAny_text (n : Int) : readAny (text n) = .ok n := by
  have hdigits := allDigits_digits n.natAbs
  by_cases hneg : n < 0
  · have htext : (text n).toList = '-' :: digits n.natAbs := by
      rw [text, String.toList_ofList, if_pos hneg]
    rw [readAny, htext]
    split
    · next h => exact absurd (List.cons.inj h).2 (hdigits.ne_cons rfl _)
    · next h =>
      rw [← (List.cons.inj h).2, readUnbounded_digits]
      exact congrArg Except.ok (show -(n.natAbs : Int) = n by omega)
    · next h => exact absurd rfl (h _)
  · have htext : (text n).toList = digits n.natAbs := by
      rw [text, String.toList_ofList, if_neg hneg]
    rw [readAny, htext]
    split
    · next h => exact absurd h (hdigits.ne_cons rfl _)
    · next h => exact absurd h (hdigits.ne_cons rfl _)
    · rw [readUnbounded_digits]
      exact congrArg Except.ok (Int.natAbs_of_nonneg (Int.not_lt.mp hneg))

/-! ## Fixed widths -/

section

variable {width n : Nat}

theorem length_padded (hpos : 0 < width) (h : n < 10 ^ width) : (padded width n).length = width := by
  have hle : (digits n).length ≤ width := (Nat.length_toDigits_le_iff (by decide) hpos).mpr h
  rw [padded, List.length_append, List.length_replicate]
  omega

theorem padded_ne_nil (width n : Nat) : padded width n ≠ [] :=
  List.append_ne_nil_of_right_ne_nil _ (digits_ne_nil n)

theorem allDigits_padded (width n : Nat) : AllDigits (padded width n) := by
  intro c hc
  rcases List.mem_append.mp hc with hzero | hdigit
  · rw [List.eq_of_mem_replicate hzero]
    rfl
  · exact allDigits_digits n c hdigit

@[simp] theorem valueOnto_padded (width n : Nat) : valueOnto 0 (padded width n) = n := by
  rw [valueOnto, padded, Nat.ofDigitChars_append, Nat.ofDigitChars_replicate_zero, Nat.mul_zero]
  exact valueOnto_digits n

end

end Integer

namespace Hex

theorem toNat_lt_of_mem_flatMap {bytes : Bytes} {c : Char} (h : c ∈ bytes.flatMap ofOctet) :
    c.toNat < 128 := toNat_lt_of_isNumeral (isNumeral_of_mem_flatMap h)

theorem value?_digit {n : UInt8} (h : n.toNat < 16) : value? (digit n).toUInt8 = some n := by
  have hall : ∀ k : Fin 16,
      value? (digit (UInt8.ofNat k)).toUInt8 = some (UInt8.ofNat k) := by decide
  have hn := hall ⟨n.toNat, h⟩
  rwa [UInt8.ofNat_toNat] at hn

/-- An octet is put together again from its halves. -/
theorem high_or_low (octet : UInt8) : (octet >>> 4) <<< 4 ||| (octet &&& 15) = octet := by
  have hall : ∀ k : Fin 256,
      (UInt8.ofNat k >>> 4) <<< 4 ||| (UInt8.ofNat k &&& 15) = UInt8.ofNat k := by decide +kernel
  have hoctet := hall ⟨octet.toNat, octet.toNat_lt⟩
  rwa [UInt8.ofNat_toNat] at hoctet

theorem decodePairs_digits (position : Nat) (done bytes : Bytes) :
    decodePairs position done ((bytes.flatMap ofOctet).map Char.toUInt8) =
      .ok (done.reverse ++ bytes) := by
  induction bytes generalizing position done with
  | nil =>
      rw [List.append_nil]
      rfl
  | cons octet bytes ih =>
      show decodePairs position done ((digit (octet >>> 4)).toUInt8 ::
        (digit (octet &&& 15)).toUInt8 :: (bytes.flatMap ofOctet).map Char.toUInt8) = _
      rw [decodePairs, value?_digit (toNat_high_lt octet), value?_digit (toNat_low_lt octet)]
      apply (ih _ _).trans
      rw [high_or_low, List.reverse_cons, List.append_assoc, List.singleton_append]

theorem length_flatMap_ofOctet (bytes : Bytes) :
    (bytes.flatMap ofOctet).length = 2 * bytes.length := by
  induction bytes with
  | nil => rfl
  | cons octet bytes ih =>
      rw [List.flatMap_cons, List.length_append, ih, List.length_cons]
      show 2 + _ = _
      omega

/-- Octets are read back from their digits. -/
theorem decode_encode (bytes : Bytes) : decode (encode bytes) = .ok bytes := by
  have heven : ((bytes.flatMap ofOctet).map Char.toUInt8).length % 2 ≠ 1 := by
    rw [List.length_map, length_flatMap_ofOctet]
    omega
  rw [decode, encode, Utf8.encode_ofList, Utf8.octets_of_ascii fun c => toNat_lt_of_mem_flatMap,
    decodeCodes, if_neg heven, decodePairs_digits]
  rfl

end Hex

namespace Uuid

theorem ofDigits?_flatMap (id : Uuid) : ofDigits? (id.octets.flatMap Hex.ofOctet) = some id := by
  have hdecode : Hex.decode (String.ofList (id.octets.flatMap Hex.ofOctet)) = .ok id.octets :=
    Hex.decode_encode id.octets
  rw [ofDigits?, hdecode]
  exact dif_pos id.length_octets

/-- Five groups of the lengths of those of an identifier, with hyphens between them. -/
theorem ofHyphenated?_groups {a b c d e : List Char} (ha : a.length = 8) (hb : b.length = 4)
    (hc : c.length = 4) (hd : d.length = 4) :
    ofHyphenated? (a ++ '-' :: b ++ '-' :: c ++ '-' :: d ++ '-' :: e) =
      ofDigits? (a ++ b ++ c ++ d ++ e) := by
  have hplaces : ([8, 13, 18, 23].all fun place =>
      (a ++ '-' :: b ++ '-' :: c ++ '-' :: d ++ '-' :: e)[place]? = some '-') = true := by
    simp [List.getElem?_append, ha, hb, hc, hd]
  apply (if_pos hplaces).trans
  simp [List.drop_append, List.drop_eq_nil_of_le, ha, hb, hc, hd]

theorem length_group (id : Uuid) {start count : Nat} (h : start + count ≤ 16) :
    (((id.octets.drop start).take count).flatMap Hex.ofOctet).length = 2 * count := by
  rw [Hex.length_flatMap_ofOctet, List.length_take, List.length_drop, id.length_octets]
  omega

theorem ofHyphenated?_text (id : Uuid) :
    ofHyphenated? id.text.toList = ofDigits? (id.octets.flatMap Hex.ofOctet) := by
  rw [text, String.toList_ofList]
  apply (ofHyphenated?_groups (id.length_group (by decide)) (id.length_group (by decide))
    (id.length_group (by decide)) (id.length_group (by decide))).trans
  conv_rhs => rw [← groups_append id]
  simp only [List.flatMap_append]

theorem toNat_lt_of_mem_text {id : Uuid} {c : Char} (h : c ∈ id.text.toList) : c.toNat < 128 := by
  by_cases hc : c = '-'
  · rw [hc]
    decide
  · apply Hex.toNat_lt_of_mem_flatMap
    rw [← filter_text]
    exact List.mem_filter.mpr ⟨h, bne_iff_ne.mpr hc⟩

theorem length_text (id : Uuid) : id.text.toList.length = 36 := by
  rw [text, String.toList_ofList]
  simp only [List.length_append, List.length_cons]
  rw [id.length_group (by decide), id.length_group (by decide), id.length_group (by decide),
    id.length_group (by decide), id.length_group (by decide)]

theorem utf8ByteSize_text (id : Uuid) : id.text.utf8ByteSize = 36 := by
  have hoctets : (Utf8.encode id.text).length = 36 := by
    rw [Utf8.encode_eq_octets, Utf8.octets_of_ascii fun c => toNat_lt_of_mem_text, List.length_map,
      length_text]
  exact hoctets

/-- An identifier is read back from its text. -/
theorem read?_text (id : Uuid) : read? id.text = some id := by
  rw [read?, utf8ByteSize_text]
  exact (ofHyphenated?_text id).trans (ofDigits?_flatMap id)

end Uuid

end CqlClient
