/-!
Octet strings and big-endian words. A word of a given width has exactly one octet string of that
length, so writing and reading a word are inverse to each other.
-/

namespace CqlClient

/-- An octet string. -/
abbrev Bytes := List UInt8

namespace Bytes

/-- The `width` low octets of `n`, most significant first. -/
def ofNat : Nat → Nat → Bytes
  | 0, _ => []
  | width + 1, n => ofNat width (n / 256) ++ [UInt8.ofNat n]

/-- The number that an octet string denotes in base 256. -/
def toNat (bytes : Bytes) : Nat :=
  bytes.foldl (fun n octet => n * 256 + octet.toNat) 0

theorem toNat_concat (bytes : Bytes) (octet : UInt8) :
    toNat (bytes ++ [octet]) = toNat bytes * 256 + octet.toNat := by
  simp [toNat]

@[simp] theorem length_ofNat (width n : Nat) : (ofNat width n).length = width := by
  induction width generalizing n with
  | zero => rfl
  | succ width ih => simp [ofNat, ih]

/-- Reading back a written word gives the number modulo the word's range. -/
theorem toNat_ofNat (width n : Nat) : toNat (ofNat width n) = n % Nat.pow 256 width := by
  induction width generalizing n with
  | zero => simp [ofNat, toNat, Nat.mod_one]
  | succ width ih =>
    have powers : Nat.pow 256 (width + 1) = 256 * Nat.pow 256 width := Nat.mul_comm _ _
    rw [ofNat, toNat_concat, ih, powers, Nat.mod_mul]
    have octet : (UInt8.ofNat n).toNat = n % 256 := by simp
    omega

theorem toNat_ofNat_of_lt {width n : Nat} (fits : n < Nat.pow 256 width) :
    toNat (ofNat width n) = n := by
  rw [toNat_ofNat, Nat.mod_eq_of_lt fits]

/-- The octet string of the number that an octet string denotes is that octet string. -/
theorem ofNat_toNat (bytes : Bytes) : ofNat bytes.length (toNat bytes) = bytes := by
  induction h : bytes.length generalizing bytes with
  | zero => rw [List.length_eq_zero_iff] at h; subst h; rfl
  | succ width ih =>
    have nonempty : bytes ≠ [] := by intro empty; subst empty; simp at h
    rw [← List.dropLast_concat_getLast nonempty]
    have shorter : bytes.dropLast.length = width := by simp [h]
    have last := (bytes.getLast nonempty).toNat_lt
    rw [toNat_concat, ofNat]
    have high : (toNat bytes.dropLast * 256 + (bytes.getLast nonempty).toNat) / 256 =
        toNat bytes.dropLast := by omega
    rw [high, ih _ shorter]
    congr 2
    apply UInt8.toNat_inj.mp
    simp

/-- A 16-bit word. -/
def ofWord16 (word : UInt16) : Bytes := ofNat 2 word.toNat

/-- A 32-bit word. -/
def ofWord32 (word : UInt32) : Bytes := ofNat 4 word.toNat

/-- A 64-bit word. -/
def ofWord64 (word : UInt64) : Bytes := ofNat 8 word.toNat

def toWord16 (bytes : Bytes) : UInt16 := UInt16.ofNat (toNat bytes)

def toWord32 (bytes : Bytes) : UInt32 := UInt32.ofNat (toNat bytes)

def toWord64 (bytes : Bytes) : UInt64 := UInt64.ofNat (toNat bytes)

/-- A signed 16-bit number in two's complement. -/
def ofInt16 (n : Int16) : Bytes := ofWord16 n.toUInt16

/-- A signed 32-bit number in two's complement. -/
def ofInt32 (n : Int32) : Bytes := ofWord32 n.toUInt32

/-- A signed 64-bit number in two's complement. -/
def ofInt64 (n : Int64) : Bytes := ofWord64 n.toUInt64

def toInt16 (bytes : Bytes) : Int16 := (toWord16 bytes).toInt16

def toInt32 (bytes : Bytes) : Int32 := (toWord32 bytes).toInt32

def toInt64 (bytes : Bytes) : Int64 := (toWord64 bytes).toInt64

@[simp] theorem length_ofWord16 (word : UInt16) : (ofWord16 word).length = 2 := by
  simp [ofWord16]

@[simp] theorem length_ofWord32 (word : UInt32) : (ofWord32 word).length = 4 := by
  simp [ofWord32]

@[simp] theorem length_ofWord64 (word : UInt64) : (ofWord64 word).length = 8 := by
  simp [ofWord64]

@[simp] theorem toWord16_ofWord16 (word : UInt16) : toWord16 (ofWord16 word) = word := by
  rw [toWord16, ofWord16, toNat_ofNat_of_lt word.toNat_lt, UInt16.ofNat_toNat]

@[simp] theorem toWord32_ofWord32 (word : UInt32) : toWord32 (ofWord32 word) = word := by
  rw [toWord32, ofWord32, toNat_ofNat_of_lt word.toNat_lt, UInt32.ofNat_toNat]

@[simp] theorem toWord64_ofWord64 (word : UInt64) : toWord64 (ofWord64 word) = word := by
  rw [toWord64, ofWord64, toNat_ofNat_of_lt word.toNat_lt, UInt64.ofNat_toNat]

@[simp] theorem toInt16_ofInt16 (n : Int16) : toInt16 (ofInt16 n) = n := by
  simp [toInt16, ofInt16]

@[simp] theorem toInt32_ofInt32 (n : Int32) : toInt32 (ofInt32 n) = n := by
  simp [toInt32, ofInt32]

@[simp] theorem toInt64_ofInt64 (n : Int64) : toInt64 (ofInt64 n) = n := by
  simp [toInt64, ofInt64]

/-- The first `n` octets and the rest, when there are that many. -/
def split? (n : Nat) (bytes : Bytes) : Option (Bytes × Bytes) :=
  let (head, rest) := bytes.splitAt n
  if head.length = n then some (head, rest) else none

theorem split?_append (head rest : Bytes) :
    split? head.length (head ++ rest) = some (head, rest) := by
  simp [split?]

theorem split?_eq_some_iff {n : Nat} {bytes head rest : Bytes} :
    split? n bytes = some (head, rest) ↔ bytes = head ++ rest ∧ head.length = n := by
  constructor
  · intro h
    simp only [split?, List.splitAt_eq] at h
    split at h
    · next enough =>
      obtain ⟨rfl, rfl⟩ := Prod.mk.inj (Option.some.inj h)
      exact ⟨(List.take_append_drop n bytes).symm, enough⟩
    · cases h
  · rintro ⟨rfl, rfl⟩
    exact split?_append head rest

theorem split?_eq_none_iff {n : Nat} {bytes : Bytes} :
    split? n bytes = none ↔ bytes.length < n := by
  simp only [split?, List.splitAt_eq, List.length_take]
  split <;> simp <;> omega

end Bytes

end CqlClient
