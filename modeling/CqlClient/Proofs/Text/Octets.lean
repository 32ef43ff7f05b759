import CqlClient.Text.Utf8
import Mathlib.Tactic.SplitIfs
import Mathlib.Tactic.Tauto

/-!
Texts as octets. A character of ASCII is one octet, and any other has only octets that are no
character of ASCII. So a class of characters that does not tell the others apart can be looked for
among the octets. What is cut out of a text from one character to another is a text, and texts are
in the order of their octets.
-/

namespace CqlClient.Utf8

/-- The UTF-8 octets of characters. -/
def octets (cs : List Char) : Bytes := cs.flatMap String.utf8EncodeChar

@[simp] theorem octets_nil : octets [] = [] := rfl

theorem octets_cons (c : Char) (cs : List Char) :
    octets (c :: cs) = String.utf8EncodeChar c ++ octets cs := rfl

theorem octets_append (a b : List Char) : octets (a ++ b) = octets a ++ octets b :=
  List.flatMap_append

theorem encode_ofList (cs : List Char) : encode (String.ofList cs) = octets cs := by
  simp [encode, octets, List.utf8Encode]

theorem encode_eq_octets (text : String) : encode text = octets text.toList := by
  rw [← encode_ofList, String.ofList_toList]

/-! ## Characters of ASCII and others -/

theorem toNat_ofUInt8 (b : UInt8) : (Char.ofUInt8 b).toNat = b.toNat :=
  UInt8.toNat_toUInt32 b

/-- A character of ASCII is one octet, which taken as a character is this character. -/
theorem utf8EncodeChar_of_ascii {c : Char} (h : c.toNat < 128) :
    String.utf8EncodeChar c = [c.toUInt8] ∧ Char.ofUInt8 c.toUInt8 = c := by
  have hle : c.val ≤ 127 := UInt32.le_iff_toNat_le.mpr (Nat.le_of_lt_succ h)
  refine ⟨String.utf8EncodeChar_eq_singleton (Char.utf8Size_eq_one_iff.mpr hle), ?_⟩
  apply Char.ext
  apply UInt32.toNat_inj.mp
  show c.val.toUInt8.toUInt32.toNat = c.val.toNat
  have hlt : c.val.toNat < 256 := Nat.lt_trans h (by decide)
  rw [UInt8.toNat_toUInt32, UInt32.toNat_toUInt8, Nat.mod_eq_of_lt hlt]

theorem octets_of_ascii {cs : List Char} (h : ∀ c ∈ cs, c.toNat < 128) :
    octets cs = cs.map Char.toUInt8 := by
  induction cs with
  | nil => rfl
  | cons c cs ih =>
      obtain ⟨hc, hcs⟩ := List.forall_mem_cons.mp h
      rw [octets_cons, (utf8EncodeChar_of_ascii hc).1, ih hcs]
      rfl

theorem ofUInt8_eq_iff {b : UInt8} {d : Char} (hd : d.toNat < 128) :
    Char.ofUInt8 b = d ↔ b = d.toUInt8 := by
  constructor
  · rintro rfl
    apply UInt8.toNat_inj.mp
    show _ = (Char.ofUInt8 b).val.toUInt8.toNat
    rw [UInt32.toNat_toUInt8, show (Char.ofUInt8 b).val.toNat = b.toNat from toNat_ofUInt8 b]
    exact (Nat.mod_eq_of_lt b.toNat_lt).symm
  · rintro rfl
    exact (utf8EncodeChar_of_ascii hd).2

/-- The octets of other characters are not below 128. -/
theorem le_toNat_of_mem {c : Char} (h : 128 ≤ c.toNat) {b : UInt8}
    (hb : b ∈ String.utf8EncodeChar c) : 128 ≤ b.toNat := by
  have hval : 128 ≤ c.val.toNat := h
  simp only [String.utf8EncodeChar] at hb
  split at hb
  · omega
  split at hb
  · simp only [List.mem_cons, List.not_mem_nil, or_false] at hb
    rcases hb with rfl | rfl <;> simp <;> omega
  split at hb
  · simp only [List.mem_cons, List.not_mem_nil, or_false] at hb
    rcases hb with rfl | rfl | rfl <;> simp <;> omega
  · simp only [List.mem_cons, List.not_mem_nil, or_false] at hb
    rcases hb with rfl | rfl | rfl | rfl <;> simp <;> omega

theorem utf8EncodeChar_ne_nil (c : Char) : String.utf8EncodeChar c ≠ [] := by
  refine List.ne_nil_of_length_pos ?_
  rw [String.length_utf8EncodeChar]
  exact c.utf8Size_pos

/-- Whether a class holds all characters beyond ASCII or none of them. -/
def Uniform (p : Char → Bool) : Prop := ∃ v, ∀ c : Char, 128 ≤ c.toNat → p c = v

section

variable {p : Char → Bool} {c : Char}

/-- Each octet of a character, taken as a character, is in the same uniform classes. -/
theorem Uniform.of_mem (hp : Uniform p) {b : UInt8} (hb : b ∈ String.utf8EncodeChar c) :
    p (Char.ofUInt8 b) = p c := by
  by_cases h : c.toNat < 128
  · obtain ⟨hone, hback⟩ := utf8EncodeChar_of_ascii h
    rw [hone, List.mem_singleton] at hb
    rw [hb, hback]
  · obtain ⟨v, hv⟩ := hp
    have hle : 128 ≤ c.toNat := Nat.le_of_not_lt h
    have hbeyond : 128 ≤ (Char.ofUInt8 b).toNat := by
      rw [toNat_ofUInt8]
      exact le_toNat_of_mem hle hb
    rw [hv c hle, hv _ hbeyond]

theorem Uniform.takeWhile_octets (hp : Uniform p) (cs : List Char) :
    (octets cs).takeWhile (fun b => p (Char.ofUInt8 b)) = octets (cs.takeWhile p) := by
  induction cs with
  | nil => rfl
  | cons c cs ih =>
      rw [octets_cons]
      cases hc : p c with
      | true =>
          rw [List.takeWhile_append_of_pos fun b hb => (hp.of_mem hb).trans hc, ih,
            List.takeWhile_cons_of_pos hc, octets_cons]
      | false =>
          obtain ⟨b, bs, hbs⟩ := List.exists_cons_of_ne_nil (utf8EncodeChar_ne_nil c)
          have hb : p (Char.ofUInt8 b) = false :=
            (hp.of_mem (hbs ▸ List.mem_cons_self)).trans hc
          rw [hbs, List.cons_append, List.takeWhile_cons_of_neg (by simp [hb]),
            List.takeWhile_cons_of_neg (by simp [hc]), octets_nil]

theorem Uniform.head?_octets (hp : Uniform p) (cs : List Char) :
    (octets cs).head?.any (fun b => p (Char.ofUInt8 b)) = cs.head?.any p := by
  cases cs with
  | nil => rfl
  | cons c cs =>
      obtain ⟨b, bs, hbs⟩ := List.exists_cons_of_ne_nil (utf8EncodeChar_ne_nil c)
      rw [octets_cons, hbs]
      exact hp.of_mem (hbs ▸ List.mem_cons_self)

end

theorem uniform_beq {d : Char} (hd : d.toNat < 128) : Uniform (· == d) := by
  refine ⟨false, fun c hc => beq_false_of_ne ?_⟩
  rintro rfl
  omega

theorem Uniform.or {p q : Char → Bool} (hp : Uniform p) (hq : Uniform q) :
    Uniform fun c => p c || q c := by
  obtain ⟨v, hv⟩ := hp
  obtain ⟨w, hw⟩ := hq
  exact ⟨v || w, fun c hc => by simp [hv c hc, hw c hc]⟩

theorem uniform_bne {d : Char} (hd : d.toNat < 128) : Uniform (· != d) := by
  obtain ⟨v, hv⟩ := uniform_beq hd
  exact ⟨!v, fun c hc => congrArg (! ·) (hv c hc)⟩

theorem not_le_of_ascii {c d : Char} (hc : 128 ≤ c.toNat) (hd : d.toNat < 128) : ¬ c ≤ d := by
  rw [Char.le_def, UInt32.le_iff_toNat_le]
  exact Nat.not_le.mpr (Nat.lt_of_lt_of_le hd hc)

/-! ## Cutting -/

/-- The text between two places among its octets, if both lie between characters. -/
def slice? (text : String) (start stop : Nat) : Option String :=
  if (⟨start⟩ : String.Pos.Raw).isValid text ∧ (⟨stop⟩ : String.Pos.Raw).isValid text ∧
      start ≤ stop then decode? (((encode text).take stop).drop start)
  else none

theorem isValid_of_append {text : String} {a b : List Char} (h : text.toList = a ++ b) :
    (⟨(octets a).length⟩ : String.Pos.Raw).isValid text := by
  rw [String.Pos.Raw.isValid_eq_true_iff, String.Pos.Raw.isValid_iff_exists_append]
  refine ⟨String.ofList a, String.ofList b, ?_, ?_⟩
  · rw [← String.ofList_append, ← h, String.ofList_toList]
  · rw [← encode_ofList]
    rfl

theorem slice?_of_append {text : String} {a b c : List Char} (h : text.toList = a ++ b ++ c) :
    slice? text (octets a).length (octets (a ++ b)).length = some (String.ofList b) := by
  have hle : (octets a).length ≤ (octets (a ++ b)).length := by
    rw [octets_append, List.length_append]
    exact Nat.le_add_right _ _
  rw [slice?, if_pos ⟨isValid_of_append (h.trans (List.append_assoc ..)), isValid_of_append h, hle⟩,
    encode_eq_octets, h, octets_append _ c, List.take_left, octets_append, List.drop_left,
    ← encode_ofList, decode?_encode]

/-! ## Order -/

/-- The smaller of two numbers has the smaller digit to the base 64 where their digits, from the
highest on, first differ. -/
theorem lt_digits {v w : Nat} (h : v < w) :
    v / 262144 < w / 262144 ∨ v / 262144 = w / 262144 ∧
      (v / 4096 % 64 < w / 4096 % 64 ∨ v / 4096 % 64 = w / 4096 % 64 ∧
        (v / 64 % 64 < w / 64 % 64 ∨ v / 64 % 64 = w / 64 % 64 ∧ v % 64 < w % 64)) := by
  have hhigh : v / 262144 < w / 262144 ∨
      v / 262144 = w / 262144 ∧ v % 262144 < w % 262144 := by omega
  have hmiddle : v % 262144 < w % 262144 → v / 4096 % 64 < w / 4096 % 64 ∨
      v / 4096 % 64 = w / 4096 % 64 ∧ v % 4096 < w % 4096 := by omega
  have hlow : v % 4096 < w % 4096 → v / 64 % 64 < w / 64 % 64 ∨
      v / 64 % 64 = w / 64 % 64 ∧ v % 64 < w % 64 := by omega
  refine hhigh.imp_right (And.imp_right fun h => ?_)
  exact (hmiddle h).imp_right (And.imp_right hlow)

/-- Characters are in the order of their octets, whatever follows them. -/
theorem utf8EncodeChar_append_lt {c d : Char} (h : c < d) (x y : Bytes) :
    String.utf8EncodeChar c ++ x < String.utf8EncodeChar d ++ y := by
  have hlt : c.val.toNat < d.val.toNat := UInt32.lt_iff_toNat_lt.mp h
  have hmax : d.val.toNat < 0x110000 := by
    have hvalid : d.val.toNat < 0xd800 ∨ 0xdfff < d.val.toNat ∧ d.val.toNat < 0x110000 := d.valid
    omega
  simp only [String.utf8EncodeChar]
  generalize c.val.toNat = v at hlt
  generalize d.val.toNat = w at hlt hmax
  rcases Nat.lt_or_ge 0xffff v with hwide | hnarrow
  · -- Both take four octets, which hold their digits to the base 64.
    have hv : ¬ v ≤ 0x7f ∧ ¬ v ≤ 0x7ff ∧ ¬ v ≤ 0xffff := by omega
    have hw : ¬ w ≤ 0x7f ∧ ¬ w ≤ 0x7ff ∧ ¬ w ≤ 0xffff := by omega
    have hdigits := lt_digits hlt
    rw [if_neg hv.1, if_neg hv.2.1, if_neg hv.2.2, if_neg hw.1, if_neg hw.2.1, if_neg hw.2.2]
    simp only [List.cons_append, List.nil_append, List.cons_lt_cons_iff, UInt8.lt_iff_toNat_lt,
      ← UInt8.toNat_inj, UInt8.toNat_ofNat']
    simp (disch := omega) only [Nat.mod_eq_of_lt, Nat.add_lt_add_iff_right,
      Nat.add_right_cancel_iff]
    tauto
  · split_ifs <;>
      simp only [List.cons_append, List.nil_append, List.cons_lt_cons_iff, UInt8.lt_iff_toNat_lt,
        ← UInt8.toNat_inj, UInt8.toNat_ofNat'] <;>
      omega

/-- Texts are in the order of their octets. -/
theorem encode_lt_encode {a b : String} (h : a < b) : encode a < encode b := by
  rw [encode_eq_octets, encode_eq_octets]
  have hchars : a.toList < b.toList := String.lt_iff.mp h
  generalize a.toList = cs at hchars
  generalize b.toList = ds at hchars
  induction hchars with
  | nil =>
      obtain ⟨o, os, hos⟩ := List.exists_cons_of_ne_nil (utf8EncodeChar_ne_nil _)
      rw [octets_cons, hos]
      exact List.nil_lt_cons _ _
  | cons _ ih => exact List.append_left_lt ih
  | rel hfirst => exact utf8EncodeChar_append_lt hfirst _ _

theorem encode_lt_encode_iff {a b : String} : encode a < encode b ↔ a < b := by
  refine ⟨fun h => Decidable.byContradiction fun hnot => ?_, encode_lt_encode⟩
  have hba : b ≤ a := String.not_lt.mp hnot
  have hab : a ≤ b := String.not_lt.mp fun hlt => List.lt_asymm h (encode_lt_encode hlt)
  rw [String.le_antisymm hab hba] at h
  exact List.lt_irrefl _ h

end CqlClient.Utf8
