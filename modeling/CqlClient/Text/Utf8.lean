import CqlClient.Bytes.Basic

/-!
Text as UTF-8 octets. Decoding accepts exactly what encoding writes.
-/

namespace CqlClient.Utf8

/-- The UTF-8 octets of a text. -/
def encode (text : String) : Bytes := text.toUTF8.data.toList

/-- The text with these UTF-8 octets, when they are well formed. -/
def decode? (bytes : Bytes) : Option String := String.fromUTF8? ⟨bytes.toArray⟩

theorem decode?_eq_some_iff {bytes : Bytes} {text : String} :
    decode? bytes = some text ↔ bytes = encode text := by
  constructor
  · intro h
    simp only [decode?, String.fromUTF8?] at h
    split at h
    · next valid =>
      cases h
      simp [encode, String.fromUTF8]
    · cases h
  · rintro rfl
    have whole : (⟨(encode text).toArray⟩ : ByteArray) = text.toUTF8 := by simp [encode]
    simp only [decode?, whole, String.fromUTF8?]
    exact dif_pos text.isValidUTF8

@[simp] theorem decode?_encode (text : String) : decode? (encode text) = some text :=
  decode?_eq_some_iff.mpr rfl

theorem encode_injective {a b : String} (h : encode a = encode b) : a = b := by
  have := decode?_encode a
  rw [h, decode?_encode] at this
  exact (Option.some.inj this).symm

/-- The octets of a concatenation are those of its parts in order. -/
@[simp] theorem encode_append (a b : String) : encode (a ++ b) = encode a ++ encode b := by
  simp [encode]

end CqlClient.Utf8
