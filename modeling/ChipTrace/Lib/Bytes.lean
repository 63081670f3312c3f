/-
Byte strings and their UTF-8 texts.
-/
import Mathlib.Data.String.Basic

abbrev Bytes := List UInt8

namespace Bytes

/-- The UTF-8 bytes of a text. -/
def encode (text : List Char) : Bytes := text.flatMap String.utf8EncodeChar

/-- The text of valid UTF-8 bytes. -/
def decode? (bytes : Bytes) : Option (List Char) :=
  (String.fromUTF8? bytes.toByteArray).map String.toList

@[simp] theorem encode_nil : encode [] = [] := rfl

theorem encode_append (left right : List Char) :
    encode (left ++ right) = encode left ++ encode right := List.flatMap_append

theorem fromUTF8?_toByteArray (s : String) : String.fromUTF8? s.toByteArray = some s := by
  rw [String.fromUTF8?, dif_pos s.isValidUTF8]
  rfl

@[simp] theorem decode?_encode (text : List Char) : decode? (encode text) = some text := by
  have hbytes : (encode text).toByteArray = (String.ofList text).toByteArray :=
    (String.toByteArray_ofList (l := text)).symm
  rw [decode?, hbytes, fromUTF8?_toByteArray, Option.map_some, String.toList_ofList]

/-- Only valid UTF-8 has a text, so the text determines the bytes. -/
theorem encode_of_decode? {bytes : Bytes} {text : List Char} (h : decode? bytes = some text) :
    encode text = bytes := by
  rw [decode?, Option.map_eq_some_iff] at h
  obtain ⟨read, hread, rfl⟩ := h
  rw [String.fromUTF8?] at hread
  split at hread
  · rename_i hvalid
    obtain rfl := Option.some.inj hread
    have hbytes : (encode (String.fromUTF8 bytes.toByteArray hvalid).toList).toByteArray =
        bytes.toByteArray := by
      rw [encode, ← List.utf8Encode, ← String.toByteArray_ofList, String.ofList_toList]
      rfl
    exact List.toByteArray_inj.mp hbytes
  · cases hread

theorem encode_injective {left right : List Char} (h : encode left = encode right) :
    left = right := by
  have hdecode := decode?_encode left
  rw [h, decode?_encode, Option.some.injEq] at hdecode
  exact hdecode.symm

/-- An ASCII byte in an encoded character is the whole character. -/
theorem ascii_of_mem_encodeChar {c : Char} {b : UInt8} (hb : b ∈ String.utf8EncodeChar c)
    (hascii : b.toNat < 128) : c.toNat = b.toNat := by
  have hval : c.val.toNat = c.toNat := rfl
  simp only [String.utf8EncodeChar, hval] at hb
  split_ifs at hb with h1 h2 h3
  · rw [List.mem_singleton] at hb
    rw [hb, UInt8.toNat_ofNat']
    omega
  all_goals
    simp only [List.mem_cons, List.not_mem_nil, or_false] at hb
    rcases hb with rfl | rfl | rfl | rfl <;>
      rw [UInt8.toNat_ofNat'] at hascii <;> omega

/-- An ASCII byte of an encoded text stands for that character in the text. -/
theorem ascii_mem_encode {text : List Char} {b : UInt8} (hb : b ∈ encode text)
    (hascii : b.toNat < 128) : ∃ c ∈ text, c.toNat = b.toNat := by
  obtain ⟨c, hc, hmem⟩ := List.mem_flatMap.mp hb
  exact ⟨c, hc, ascii_of_mem_encodeChar hmem hascii⟩

/-- A text without control characters has no control bytes. -/
theorem encode_printable {text : List Char} (hprintable : ∀ c ∈ text, 32 ≤ c.toNat) :
    ∀ b ∈ encode text, 32 ≤ b.toNat := by
  intro b hb
  by_contra hlow
  obtain ⟨c, hc, hsame⟩ := ascii_mem_encode hb (by omega)
  have := hprintable c hc
  omega

end Bytes
