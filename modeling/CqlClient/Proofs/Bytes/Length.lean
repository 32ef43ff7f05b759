import CqlClient.Bytes.Basic

/-!
Lengths in front of octet strings. A length that its word can state is read back as it was written,
and a step that takes so many octets takes exactly those that the length was written for.
-/

namespace CqlClient.Bytes

@[simp] theorem length_ofInt32 (n : Int32) : (ofInt32 n).length = 4 := length_ofWord32 _

@[simp] theorem length_ofInt64 (n : Int64) : (ofInt64 n).length = 8 := length_ofWord64 _

theorem toInt_toInt32_ofNat {n : Nat} (h : n ≤ 0x7fffffff) :
    (toInt32 (ofNat 4 n)).toInt = n := by
  have hword : n < Nat.pow 256 4 := by
    show n < 4294967296
    omega
  rw [toInt32, toWord32, toNat_ofNat_of_lt hword]
  show (BitVec.ofNat 32 n).toInt = n
  rw [BitVec.toInt_ofNat', Int.bmod_eq_of_le] <;> omega

/-- A length that a signed word can state is no negative number. -/
theorem not_toInt32_ofNat_lt {n : Nat} (h : n ≤ 0x7fffffff) : ¬ toInt32 (ofNat 4 n) < 0 := by
  rw [Int32.lt_iff_toInt_lt, toInt_toInt32_ofNat h]
  simp

theorem toNat_toWord16_ofNat {n : Nat} (h : n ≤ 0xffff) : (toWord16 (ofNat 2 n)).toNat = n := by
  have hword : n < Nat.pow 256 2 := by
    show n < 65536
    omega
  rw [toWord16, toNat_ofNat_of_lt hword, UInt16.toNat_ofNat_of_lt' hword]

/-- An octet string denotes a number in the range of its width. -/
theorem toNat_lt (bytes : Bytes) : toNat bytes < Nat.pow 256 bytes.length := by
  rw [← ofNat_toNat bytes, toNat_ofNat, length_ofNat]
  exact Nat.mod_lt _ (Nat.pow_pos (by decide))

/-- Two octets are the form of the number that is read from them. -/
theorem ofWord16_toWord16 {bytes : Bytes} (h : bytes.length = 2) :
    ofWord16 (toWord16 bytes) = bytes := by
  have hlt := toNat_lt bytes
  rw [h] at hlt
  rw [ofWord16, toWord16, UInt16.toNat_ofNat_of_lt' hlt, ← h, ofNat_toNat]

theorem ofWord32_toWord32 {bytes : Bytes} (h : bytes.length = 4) :
    ofWord32 (toWord32 bytes) = bytes := by
  have hlt := toNat_lt bytes
  rw [h] at hlt
  rw [ofWord32, toWord32, UInt32.toNat_ofNat_of_lt' hlt, ← h, ofNat_toNat]

theorem ofWord64_toWord64 {bytes : Bytes} (h : bytes.length = 8) :
    ofWord64 (toWord64 bytes) = bytes := by
  have hlt := toNat_lt bytes
  rw [h] at hlt
  rw [ofWord64, toWord64, UInt64.toNat_ofNat_of_lt' hlt, ← h, ofNat_toNat]

theorem ofInt16_toInt16 {bytes : Bytes} (h : bytes.length = 2) :
    ofInt16 (toInt16 bytes) = bytes := by
  rw [ofInt16, toInt16, UInt16.toUInt16_toInt16, ofWord16_toWord16 h]

theorem ofInt32_toInt32 {bytes : Bytes} (h : bytes.length = 4) :
    ofInt32 (toInt32 bytes) = bytes := by
  rw [ofInt32, toInt32, UInt32.toUInt32_toInt32, ofWord32_toWord32 h]

theorem ofInt64_toInt64 {bytes : Bytes} (h : bytes.length = 8) :
    ofInt64 (toInt64 bytes) = bytes := by
  rw [ofInt64, toInt64, UInt64.toUInt64_toInt64, ofWord64_toWord64 h]

/-- Four octets that are no negative number are the form of a length that a signed word can state. -/
theorem ofNat_toInt32 {bytes : Bytes} (h : bytes.length = 4) (hpos : ¬ toInt32 bytes < 0) :
    ofNat 4 (toInt32 bytes).toInt.toNat = bytes ∧ (toInt32 bytes).toInt.toNat ≤ 0x7fffffff := by
  have hnumber : (toInt32 bytes).toUInt32.toNat = (toInt32 bytes).toInt.toNat :=
    Int32.toNat_toUInt32_of_le (Int32.not_lt.mp hpos)
  have hbytes : ofNat 4 (toInt32 bytes).toUInt32.toNat = bytes := ofInt32_toInt32 h
  have hlt := (toInt32 bytes).toInt_lt
  rw [hnumber] at hbytes
  exact ⟨hbytes, by omega⟩

/-- A written word is split off whole. -/
theorem split?_ofNat (width n : Nat) (rest : Bytes) :
    split? width (ofNat width n ++ rest) = some (ofNat width n, rest) := by
  rw [split?_eq_some_iff]
  exact ⟨rfl, length_ofNat width n⟩

end CqlClient.Bytes
