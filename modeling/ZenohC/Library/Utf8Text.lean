import Mathlib.Algebra.BigOperators.Group.List.Basic
import Mathlib.Algebra.GroupWithZero.Nat
import ZenohC.Library.TextSearch

/-! Texts in UTF-8.
A text is a list of characters. Offsets into it are counted in bytes, and a text can only be
cut at an offset where a character starts.
-/

namespace ZenohC.Library

/-- The characters with the property `White_Space`. -/
def isWhitespace (char : Char) : Bool :=
  let code := char.toNat
  (9 ≤ code && code ≤ 13) || code == 0x20 || code == 0x85 || code == 0xA0 || code == 0x1680
    || (0x2000 ≤ code && code ≤ 0x200A) || code == 0x2028 || code == 0x2029 || code == 0x202F
    || code == 0x205F || code == 0x3000

/-- The tables of Unicode that are left open outside ASCII: the alphanumeric characters, and
the classes of word characters and of decimal digits.
-/
structure UnicodeTables where
  isAlphanumeric : Char → Bool
  isWord : Char → Bool
  isDigit : Char → Bool
  asciiAlphanumeric : ∀ char, char.toNat < 128 → isAlphanumeric char = char.isAlphanum
  asciiWord : ∀ char, char.toNat < 128 → isWord char = (char.isAlphanum || char == '_')
  asciiDigit : ∀ char, char.toNat < 128 → isDigit char = char.isDigit
  wordNotWhitespace : ∀ char, isWord char = true → isWhitespace char = false
  digitIsWord : ∀ char, isDigit char = true → isWord char = true

theorem isUpper_eq (char : Char)
    : char.isUpper = decide (char.val ≥ 'A'.val ∧ char.val ≤ 'Z'.val) :=
  rfl

theorem isLower_eq (char : Char)
    : char.isLower = (decide (char.val ≥ 'a'.val) && decide (char.val ≤ 'z'.val)) :=
  rfl

theorem isAlpha_eq (char : Char) : char.isAlpha = (char.isUpper || char.isLower) :=
  rfl

theorem isAlphanum_bounds {char : Char} (alphanumeric : char.isAlphanum = true)
    : 48 ≤ char.toNat ∧ char.toNat ≤ 122 := by
  simp only [Char.isAlphanum, isAlpha_eq, isUpper_eq, isLower_eq, Char.isDigit,
    Bool.or_eq_true, Bool.and_eq_true, decide_eq_true_eq, UInt32.le_iff_toNat_le]
    at alphanumeric
  simp only [Char.toNat]
  grind

theorem isWhitespace_of_bounds {char : Char} (bounds : 48 ≤ char.toNat ∧ char.toNat ≤ 122)
    : isWhitespace char = false := by
  simp only [isWhitespace, Bool.or_eq_false_iff, Bool.and_eq_false_iff, beq_eq_false_iff_ne,
    decide_eq_false_iff_not]
  omega

/-- A letter, a digit or an underscore. -/
def isNameChar (char : Char) : Bool :=
  char.isAlphanum || char == '_'

theorem isNameChar_bounds {char : Char} (valid : isNameChar char = true)
    : 48 ≤ char.toNat ∧ char.toNat ≤ 122 := by
  rcases (Bool.or_eq_true _ _).mp valid with alphanumeric | underscore
  · exact isAlphanum_bounds alphanumeric
  · obtain rfl := beq_iff_eq.mp underscore
    decide

theorem not_isWhitespace_of_isNameChar {char : Char} (valid : isNameChar char = true)
    : isWhitespace char = false :=
  isWhitespace_of_bounds (isNameChar_bounds valid)

/-- The tables cut down to ASCII. -/
def UnicodeTables.ascii : UnicodeTables where
  isAlphanumeric := Char.isAlphanum
  isWord := fun char => char.isAlphanum || char == '_'
  isDigit := Char.isDigit
  asciiAlphanumeric := fun _ _ => rfl
  asciiWord := fun _ _ => rfl
  asciiDigit := fun _ _ => rfl
  wordNotWhitespace := by
    intro char word
    exact not_isWhitespace_of_isNameChar word
  digitIsWord := by
    intro char digit
    simp [Char.isAlphanum, digit]

-----------------------------------------------------------------------------------------
-- Bytes
-----------------------------------------------------------------------------------------

/-- The number of bytes of a text. -/
def byteLen (text : List Char) : Nat :=
  (text.map Char.utf8Size).sum

/-- Cut a text at a byte offset: there is nothing to cut inside a character or behind the
end of the text.
-/
def splitAtByte : Nat → List Char → Option (List Char × List Char)
  | 0, text => some ([], text)
  | _ + 1, [] => none
  | offset + 1, char :: rest =>
      if char.utf8Size ≤ offset + 1 then
        (splitAtByte (offset + 1 - char.utf8Size) rest).map fun (head, tail) =>
          (char :: head, tail)
      else none

/-- The text from one byte offset to another. -/
def slice (start stop : Nat) (text : List Char) : Option (List Char) := do
  let (head, _) ← splitAtByte stop text
  let (_, part) ← splitAtByte start head
  pure part

/-- The byte offset of the first occurrence of a pattern. -/
def find (pattern text : List Char) : Option Nat :=
  (before pattern text).map byteLen

variable {text head tail : List Char}

@[simp]
theorem byteLen_nil : byteLen [] = 0 :=
  rfl

@[simp]
theorem byteLen_cons (char : Char) : byteLen (char :: text) = char.utf8Size + byteLen text := by
  simp [byteLen]

@[simp]
theorem byteLen_append : byteLen (head ++ tail) = byteLen head + byteLen tail := by
  simp [byteLen]

@[simp]
theorem byteLen_reverse : byteLen text.reverse = byteLen text := by
  simp [byteLen, List.sum_reverse]

theorem byteLen_eq_zero_iff : byteLen text = 0 ↔ text = [] := by
  cases text with
  | nil => simp
  | cons char rest =>
      have positive := char.utf8Size_pos
      simp only [byteLen_cons, reduceCtorEq, iff_false]
      omega

/-- A fold over the sizes of the characters counts bytes. -/
theorem foldl_utf8Size (start : Nat)
    : text.foldl (fun len char => len + char.utf8Size) start = start + byteLen text := by
  induction text generalizing start with
  | nil => simp
  | cons char rest ih =>
      simp only [List.foldl_cons, ih, byteLen_cons]
      omega

/-- A text can be cut at an offset exactly if a part of it has that many bytes. -/
theorem splitAtByte_eq_some_iff {offset : Nat}
    : splitAtByte offset text = some (head, tail)
      ↔ text = head ++ tail ∧ byteLen head = offset := by
  induction text generalizing offset head with
  | nil =>
      cases offset with
      | zero =>
          simp only [splitAtByte, Option.some.injEq, Prod.mk.injEq, List.nil_eq,
            List.append_eq_nil_iff, byteLen_eq_zero_iff]
          tauto
      | succ offset =>
          simp only [splitAtByte, reduceCtorEq, List.nil_eq, List.append_eq_nil_iff, false_iff]
          rintro ⟨⟨rfl, rfl⟩, len⟩
          cases len
  | cons char rest ih =>
      have positive := char.utf8Size_pos
      cases offset with
      | zero =>
          simp only [splitAtByte, Option.some.injEq, Prod.mk.injEq, byteLen_eq_zero_iff]
          constructor
          · rintro ⟨rfl, rfl⟩
            exact ⟨rfl, rfl⟩
          · rintro ⟨same, rfl⟩
            exact ⟨rfl, same⟩
      | succ offset =>
          simp only [splitAtByte]
          cases head with
          | nil =>
              split <;> simp
          | cons first head =>
              split
              case isTrue fits =>
                simp only [Option.map_eq_some_iff, Prod.mk.injEq, List.cons.injEq, Prod.exists,
                  List.cons_append, byteLen_cons]
                constructor
                · rintro ⟨inner, outer, cut, ⟨rfl, rfl⟩, rfl⟩
                  obtain ⟨rfl, len⟩ := ih.mp cut
                  exact ⟨⟨rfl, rfl⟩, by omega⟩
                · rintro ⟨⟨rfl, rfl⟩, len⟩
                  exact ⟨head, tail, ih.mpr ⟨rfl, by omega⟩, ⟨rfl, rfl⟩, rfl⟩
              case isFalse tooLong =>
                simp only [reduceCtorEq, List.cons_append, List.cons.injEq, byteLen_cons,
                  false_iff]
                rintro ⟨⟨rfl, -⟩, len⟩
                omega

theorem splitAtByte_append : splitAtByte (byteLen head) (head ++ tail) = some (head, tail) :=
  splitAtByte_eq_some_iff.mpr ⟨rfl, rfl⟩

/-- Two front parts of a text with as many bytes are the same. -/
theorem eq_of_byteLen_eq {left right : List Char} (leftFront : left <+: text)
    (rightFront : right <+: text) (same : byteLen left = byteLen right)
    : left = right := by
  obtain ⟨leftRest, rfl⟩ := leftFront
  obtain ⟨rightRest, again⟩ := rightFront
  have leftCut : splitAtByte (byteLen left) (left ++ leftRest) = some (left, leftRest) :=
    splitAtByte_append
  have rightCut : splitAtByte (byteLen left) (left ++ leftRest) = some (right, rightRest) :=
    splitAtByte_eq_some_iff.mpr ⟨again.symm, same.symm⟩
  rw [leftCut] at rightCut
  exact (Prod.mk.inj (Option.some.inj rightCut)).1

theorem slice_eq_some_iff {start stop : Nat} {part : List Char}
    : slice start stop text = some part
      ↔ ∃ before rest,
          text = before ++ part ++ rest
          ∧ byteLen before = start
          ∧ byteLen before + byteLen part = stop := by
  simp only [slice, Option.bind_eq_bind, Option.bind_eq_some_iff, Prod.exists, Option.pure_def,
    Option.some.injEq, exists_eq_right, splitAtByte_eq_some_iff]
  constructor
  · rintro ⟨front, rest, ⟨rfl, stopped⟩, before, rfl, started⟩
    exact ⟨before, rest, rfl, started, by simpa using stopped⟩
  · rintro ⟨before, rest, rfl, started, stopped⟩
    exact ⟨before ++ part, rest, ⟨rfl, by simpa using stopped⟩, before, rfl, started⟩

/-- A slice is a part of the text. -/
theorem slice_inside {start stop : Nat} {part : List Char}
    (sliced : slice start stop text = some part)
    : part <:+: text := by
  obtain ⟨before, rest, rfl, -⟩ := slice_eq_some_iff.mp sliced
  exact ⟨before, rest, rfl⟩

theorem slice_append (before part : List Char)
    : slice (byteLen before) (byteLen before + byteLen part) (before ++ part ++ tail)
      = some part :=
  slice_eq_some_iff.mpr ⟨before, tail, rfl, rfl, rfl⟩

end ZenohC.Library
