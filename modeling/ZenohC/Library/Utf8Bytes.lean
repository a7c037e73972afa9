import Mathlib.Tactic.TypeStar

/-! The bytes that encode a string.
A list of bytes is decoded as a whole: it is the encoding of one string or of none.
-/

namespace ZenohC.Library

/-- The bytes of a string. -/
def utf8 (text : String) : List UInt8 :=
  text.toByteArray.data.toList

/-- `std::str::from_utf8` without its error. -/
def decodeUtf8 (bytes : List UInt8) : Option String :=
  String.fromUTF8? ⟨bytes.toArray⟩

theorem utf8_injective {left right : String} (same : utf8 left = utf8 right) : left = right := by
  apply String.toByteArray_inj.mp
  apply ByteArray.ext
  exact Array.toList_inj.mp same

theorem decodeUtf8_eq_some_iff {bytes : List UInt8} {text : String}
    : decodeUtf8 bytes = some text ↔ utf8 text = bytes := by
  rw [decodeUtf8, String.fromUTF8?]
  constructor
  · intro decoded
    split at decoded
    case isTrue valid =>
      cases decoded
      rfl
    case isFalse => cases decoded
  · rintro rfl
    have valid : ByteArray.IsValidUTF8 ⟨(utf8 text).toArray⟩ := text.isValidUTF8
    rw [dif_pos valid]
    rfl

@[simp]
theorem decodeUtf8_utf8 (text : String) : decodeUtf8 (utf8 text) = some text :=
  decodeUtf8_eq_some_iff.mpr rfl

@[simp]
theorem utf8_append (left right : String) : utf8 (left ++ right) = utf8 left ++ utf8 right := by
  simp [utf8]

theorem length_utf8 (text : String) : (utf8 text).length = text.utf8ByteSize := by
  simp [utf8]

/-- Bytes at the front of a string that are a string themselves end between two characters. -/
theorem exists_append_of_utf8_front {head text : String} (front : utf8 head <+: utf8 text)
    : ∃ tail, text = head ++ tail := by
  obtain ⟨rest, bytes⟩ := front
  let cut : String.Pos.Raw := ⟨head.utf8ByteSize⟩
  have extracted : text.toByteArray.extract 0 cut.byteIdx = head.toByteArray := by
    apply ByteArray.ext
    apply Array.toList_inj.mp
    rw [ByteArray.data_extract, Array.toList_extract]
    change (utf8 text).extract 0 head.utf8ByteSize = utf8 head
    rw [← bytes, ← length_utf8, List.extract_eq_take_drop]
    simp
  have valid : cut.IsValid text := by
    refine String.Pos.Raw.isValid_iff_isValidUTF8_extract_zero.mpr ⟨?_, ?_⟩
    · have shorter := congrArg List.length bytes
      rw [List.length_append, length_utf8, length_utf8] at shorter
      rw [String.Pos.Raw.le_iff]
      simp only [cut, String.byteIdx_rawEndPos]
      omega
    · rw [extracted]
      exact head.isValidUTF8
  obtain ⟨start, tail, rfl, ends⟩ := String.Pos.Raw.isValid_iff_exists_append.mp valid
  have size : (utf8 head).length = (utf8 start).length := by
    rw [length_utf8, length_utf8]
    exact congrArg String.Pos.Raw.byteIdx ends
  rw [utf8_append] at bytes
  exact ⟨tail, by rw [utf8_injective (List.append_inj bytes size).1]⟩

/-- Bytes at the front of a string decode exactly if they end between two characters. -/
theorem decodeUtf8_take_eq_some_iff {text head : String} {offset : Nat}
    : decodeUtf8 ((utf8 text).take offset) = some head
      ↔ (utf8 head).length = min offset (utf8 text).length ∧ ∃ tail, text = head ++ tail := by
  rw [decodeUtf8_eq_some_iff]
  constructor
  · intro taken
    have front : utf8 head <+: utf8 text := by
      rw [taken]
      exact List.take_prefix offset (utf8 text)
    exact ⟨by rw [taken, List.length_take], exists_append_of_utf8_front front⟩
  · rintro ⟨size, tail, rfl⟩
    rw [utf8_append, List.length_append] at size
    rw [utf8_append]
    rcases Nat.le_total offset ((utf8 head).length + (utf8 tail).length) with cut | all
    · rw [Nat.min_eq_left cut] at size
      rw [← size, List.take_left]
    · have empty : utf8 tail = [] := List.eq_nil_of_length_eq_zero (by omega)
      rw [empty, List.append_nil, List.take_of_length_le (by omega)]

theorem length_utf8_replicate (count : Nat) (char : Char)
    : (utf8 (String.ofList (List.replicate count char))).length = count * char.utf8Size := by
  induction count with
  | zero => simp [utf8]
  | succ count ih =>
      have front : String.ofList (List.replicate (count + 1) char)
          = String.ofList [char] ++ String.ofList (List.replicate count char) := by
        rw [← String.ofList_append]
        rfl
      rw [front, utf8_append, List.length_append, ih, length_utf8]
      simp [Nat.succ_mul, Nat.add_comm]

end ZenohC.Library
