/-
The size of a value's text in bytes: a field contributes its own size, whatever the
other fields hold.
-/
import ChipTrace.Lib.Json.Text
import ChipTrace.Lib.Bytes

namespace Json

def byteSize (value : Json) : Nat := (Bytes.encode (print value)).length

/-- The size of a string's text between its quotes. -/
def escapedSize (text : String) : Nat := (Bytes.encode (text.toList.flatMap escapeChar)).length

def keySize (key : String) : Nat := (Bytes.encode (printString key)).length

/-- A field with its colon and the separator or bracket behind it. -/
def fieldSize (key : String) (value : Json) : Nat := keySize key + byteSize value + 2

theorem encode_cons_length {c : Char} (hascii : String.utf8EncodeChar c = [UInt8.ofNat c.toNat])
    (text : List Char) : (Bytes.encode (c :: text)).length = (Bytes.encode text).length + 1 := by
  rw [Bytes.encode, List.flatMap_cons, hascii]
  simp [Bytes.encode, Nat.add_comm]

theorem encode_append_length (left right : List Char) :
    (Bytes.encode (left ++ right)).length =
      (Bytes.encode left).length + (Bytes.encode right).length := by
  rw [Bytes.encode_append, List.length_append]

theorem printFields_size (fields : List (String × Json)) :
    (Bytes.encode (printFields fields)).length = OrdMap.weigh fieldSize fields + 1 := by
  induction fields with
  | nil => rfl
  | cons field rest ih =>
      obtain ⟨key, value⟩ := field
      rw [printFields, encode_cons_length rfl, encode_append_length, encode_cons_length rfl,
        encode_append_length, ih]
      simp only [OrdMap.weigh, List.map_cons, List.sum_cons, fieldSize, keySize, byteSize]
      omega

theorem byteSize_obj {fields : List (String × Json)} (hne : fields ≠ []) :
    byteSize (.obj fields) = OrdMap.weigh fieldSize fields + 1 := by
  cases fields with
  | nil => exact absurd rfl hne
  | cons field rest =>
      obtain ⟨key, value⟩ := field
      rw [byteSize, print, encode_cons_length rfl, encode_append_length, encode_cons_length rfl,
        encode_append_length, printFields_size]
      simp only [OrdMap.weigh, List.map_cons, List.sum_cons, fieldSize, keySize, byteSize]
      omega

/-- The size of values behind one another, each with a separator or bracket behind it. -/
def itemsSize (items : List Json) : Nat := (items.map fun item => byteSize item + 1).sum

@[simp] theorem itemsSize_nil : itemsSize [] = 0 := rfl

theorem itemsSize_append (left right : List Json) :
    itemsSize (left ++ right) = itemsSize left + itemsSize right := by
  rw [itemsSize, List.map_append, List.sum_append, ← itemsSize, ← itemsSize]

@[simp] theorem itemsSize_singleton (item : Json) : itemsSize [item] = byteSize item + 1 := by
  rw [itemsSize, List.map_singleton, List.sum_singleton]

theorem printItems_size (items : List Json) :
    (Bytes.encode (printItems items)).length = itemsSize items + 1 := by
  induction items with
  | nil => rfl
  | cons item rest ih =>
      rw [printItems, encode_cons_length rfl, encode_append_length, ih]
      simp only [itemsSize, List.map_cons, List.sum_cons, byteSize]
      omega

theorem byteSize_arr {items : List Json} (hne : items ≠ []) :
    byteSize (.arr items) = itemsSize items + 1 := by
  cases items with
  | nil => exact absurd rfl hne
  | cons item rest =>
      rw [byteSize, print, encode_cons_length rfl, encode_append_length, printItems_size]
      simp only [itemsSize, List.map_cons, List.sum_cons, byteSize]
      omega

theorem byteSize_str (text : String) : byteSize (.str text) = escapedSize text + 2 := by
  rw [byteSize, print, printString, encode_cons_length rfl, encode_append_length, escapedSize]
  rfl

/-- Replacing a field changes the size of the object by the change of its value. -/
theorem byteSize_insert {fields : List (String × Json)} (hsorted : OrdMap.Sorted fields)
    {key : String} {old : Json} (hold : OrdMap.lookup key fields = some old) (value : Json) :
    byteSize (.obj (OrdMap.insert key value fields)) + byteSize old =
      byteSize (.obj fields) + byteSize value := by
  have hne : fields ≠ [] := by
    rintro rfl
    cases hold
  have hnew : OrdMap.insert key value fields ≠ [] := by
    intro hnil
    have hlookup := OrdMap.lookup_insert_self key value fields
    rw [hnil] at hlookup
    cases hlookup
  have hweigh : OrdMap.weigh fieldSize (OrdMap.insert key value fields) + fieldSize key old =
      OrdMap.weigh fieldSize fields + fieldSize key value := by
    have hinsert : OrdMap.weigh fieldSize (OrdMap.insert key value fields) + _ = _ :=
      OrdMap.weigh_insert hsorted key value
    rw [hold] at hinsert
    exact hinsert
  rw [byteSize_obj hne, byteSize_obj hnew]
  simp only [fieldSize] at hweigh
  omega

end Json
