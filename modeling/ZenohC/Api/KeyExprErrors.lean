import ZenohC.Api.KeyExprAgreement

/-! What canonizing in place leaves behind when it fails.
The bytes are canonized before the text is validated, and nothing is undone; the length is
written on success only.
-/

namespace ZenohC.KeyExpr

open Library

variable {crate : KeyExprCrate} {start : CharPtr} {len : Nat}

/-- The bytes that canonizing a text in place leaves in its slice. -/
def canonizedSlice (crate : KeyExprCrate) (text : String) : List UInt8 :=
  utf8 (crate.canonizeMut text).1 ++ (crate.canonizeMut text).2

/-- The slice is a string whose bytes canonizing changes. -/
def Rewrites (crate : KeyExprCrate) (slice : List UInt8) : Prop :=
  ∃ text, decodeUtf8 slice = some text ∧ canonizedSlice crate text ≠ slice

/-- What a failed call has left of the buffer and of `*len`. -/
structure LeftOnError (crate : KeyExprCrate) (start : CharPtr) (len : Nat) (call : BufferCall)
    : Prop where
  sameLen : call.len = len
  behind : call.buffer.bytes.drop len = start.bytes.drop len
  unchanged_iff
    : call.buffer = start
      ↔ start.address.isNull = true ∨ ¬Rewrites crate (start.bytes.take len)
  rewritten
    : start.address.isNull = false
      → ∀ text,
          decodeUtf8 (start.bytes.take len) = some text
          → call.buffer.bytes.take len = canonizedSlice crate text

/-- The slice after the helper has run in place, whether it succeeds or not. -/
theorem keyexprCreate_slice (name : List UInt8)
    : (keyexprCreate crate name true false).2
      = ((decodeUtf8 name).map (canonizedSlice crate)).getD name := by
  rw [keyexprCreate]
  cases decodeUtf8 name with
  | none => rfl
  | some text => rfl

/-- Canonizing works within the slice. -/
theorem keyexprCreate_slice_length
    (within : ∀ text, (canonizedSlice crate text).length = (utf8 text).length)
    (name : List UInt8)
    : (keyexprCreate crate name true false).2.length = name.length := by
  rw [keyexprCreate_slice]
  cases decoded : decodeUtf8 name with
  | none => rfl
  | some text =>
      rw [Option.map_some, Option.getD_some, within, decodeUtf8_eq_some_iff.mp decoded]

theorem keyexprCreate_slice_eq_iff {name : List UInt8}
    : (keyexprCreate crate name true false).2 = name ↔ ¬Rewrites crate name := by
  rw [keyexprCreate_slice, Rewrites]
  cases decoded : decodeUtf8 name with
  | none => simp
  | some text => simp

theorem withSlice_take {slice : List UInt8} (length : slice.length = len)
    : (start.withSlice len slice).bytes.take len = slice :=
  List.take_left' length

theorem withSlice_drop {slice : List UInt8} (length : slice.length = len)
    : (start.withSlice len slice).bytes.drop len = start.bytes.drop len :=
  List.drop_left' length

theorem withSlice_eq_iff {slice : List UInt8} (length : slice.length = len)
    : start.withSlice len slice = start ↔ slice = start.bytes.take len := by
  constructor
  · intro same
    rw [← congrArg (fun buffer => buffer.bytes.take len) same]
    exact (withSlice_take length).symm
  · rintro rfl
    rw [CharPtr.withSlice, List.take_append_drop]

/-- A failed call behind a non-null pointer leaves the canonized slice. -/
theorem leftOnError_of_live
    (within : ∀ text, (canonizedSlice crate text).length = (utf8 text).length)
    (live : start.address.isNull = false) (inside : len ≤ start.bytes.length)
    {call : BufferCall} (sameLen : call.len = len)
    (buffer
      : call.buffer = start.withSlice len (keyexprCreate crate (start.bytes.take len) true false).2)
    : LeftOnError crate start len call := by
  have length : (keyexprCreate crate (start.bytes.take len) true false).2.length = len := by
    rw [keyexprCreate_slice_length within, List.length_take, Nat.min_eq_left inside]
  constructor
  case sameLen => exact sameLen
  case behind => rw [buffer, withSlice_drop length]
  case unchanged_iff =>
    rw [buffer, withSlice_eq_iff length, keyexprCreate_slice_eq_iff]
    simp [live]
  case rewritten =>
    intro _ text decoded
    rw [buffer, withSlice_take length, keyexprCreate_slice, decoded]
    rfl

theorem leftOnError_of_null (isNull : start.address.isNull = true) {call : BufferCall}
    (sameLen : call.len = len) (buffer : call.buffer = start)
    : LeftOnError crate start len call := by
  refine ⟨sameLen, by rw [buffer], by simp [buffer, isNull], ?_⟩
  intro live
  rw [live] at isNull
  cases isNull

/-- The aliasing constructor, when it fails. -/
theorem zViewKeyexprFromSubstrAutocanonize_left
    (within : ∀ text, (canonizedSlice crate text).length = (utf8 text).length)
    (inside : len ≤ start.bytes.length)
    (failed : (zViewKeyexprFromSubstrAutocanonize crate start len).code ≠ zOk)
    : LeftOnError crate start len
        (zViewKeyexprFromSubstrAutocanonize crate start len).toBufferCall := by
  rw [zViewKeyexprFromSubstrAutocanonize] at failed ⊢
  cases live : start.address.isNull with
  | true =>
      rw [fromSubstr, if_pos live]
      exact leftOnError_of_null live rfl rfl
  | false =>
      cases created : (keyexprCreate crate (start.bytes.take len) true false).1 with
      | ok ke =>
          rw [fromSubstr_ok live created] at failed
          exact absurd rfl failed
      | error refusal =>
          rw [fromSubstr_error live created]
          exact leftOnError_of_live within live inside rfl rfl

theorem zKeyexprCanonize_left
    (within : ∀ text, (canonizedSlice crate text).length = (utf8 text).length)
    (inside : len ≤ start.bytes.length)
    (failed : (zKeyexprCanonize crate start len).code ≠ zOk)
    : LeftOnError crate start len (zKeyexprCanonize crate start len) := by
  cases live : start.address.isNull with
  | true =>
      rw [zKeyexprCanonize, if_pos live]
      exact leftOnError_of_null live rfl rfl
  | false =>
      rw [zKeyexprCanonize_eq live] at failed ⊢
      exact zViewKeyexprFromSubstrAutocanonize_left within inside failed

theorem terminate_of_failed {call : BufferCall} (failed : call.code ≠ zOk)
    : terminate call = call :=
  if_neg failed

theorem strlenOrZero_le (start : CharPtr) : start.strlenOrZero ≤ start.bytes.length := by
  rw [CharPtr.strlenOrZero]
  split
  · exact Nat.zero_le _
  · exact (List.takeWhile_prefix _).length_le

/-- When canonizing in place fails, `*len` and what lies behind the slice are as before, and
the buffer is as before if and only if the slice is not a string that canonizing changes;
otherwise it holds what canonizing has made of that string.
-/
theorem canonize_errors_leave
    (within : ∀ text, (canonizedSlice crate text).length = (utf8 text).length)
    (start : CharPtr)
    : (∀ len ≤ start.bytes.length,
        ((zKeyexprCanonize crate start len).code ≠ zOk
          → LeftOnError crate start len (zKeyexprCanonize crate start len))
        ∧ ((zViewKeyexprFromSubstrAutocanonize crate start len).code ≠ zOk
          → LeftOnError crate start len
              (zViewKeyexprFromSubstrAutocanonize crate start len).toBufferCall))
      ∧ ((zKeyexprCanonizeNullTerminated crate start).code ≠ zOk
        → LeftOnError crate start start.strlenOrZero (zKeyexprCanonizeNullTerminated crate start))
      ∧ ((zViewKeyexprFromStrAutocanonize crate start).code ≠ zOk
        → LeftOnError crate start start.strlenOrZero
            (zViewKeyexprFromStrAutocanonize crate start).toBufferCall) := by
  have inside := strlenOrZero_le start
  refine ⟨fun len inside => ⟨zKeyexprCanonize_left within inside,
    zViewKeyexprFromSubstrAutocanonize_left within inside⟩, ?_, ?_⟩
  · intro failed
    rw [zKeyexprCanonizeNullTerminated, terminate_code] at failed
    rw [zKeyexprCanonizeNullTerminated, terminate_of_failed failed]
    exact zKeyexprCanonize_left within inside failed
  · intro failed
    have inner : (zViewKeyexprFromSubstrAutocanonize crate start start.strlenOrZero).code ≠ zOk :=
      fun succeeded => failed ((terminate_code _).trans succeeded)
    have same : (zViewKeyexprFromStrAutocanonize crate start).toBufferCall
        = (zViewKeyexprFromSubstrAutocanonize crate start start.strlenOrZero).toBufferCall :=
      terminate_of_failed inner
    rw [same]
    exact zViewKeyexprFromSubstrAutocanonize_left within inside inner

/-- A doubled wildcard in front of a character that no key expression has. -/
def hashBuffer : CharPtr :=
  { address := 1, bytes := utf8 "a/**/**/c#" ++ [0] }

theorem canonize_errors_leave_hash
    : (zKeyexprCanonize wildcardCrate hashBuffer 10).len = 10
      ∧ (zKeyexprCanonize wildcardCrate hashBuffer 10).buffer.bytes.drop 10 = [0] := by
  have within : ∀ text, (canonizedSlice wildcardCrate text).length = (utf8 text).length := by
    intro text
    rw [canonizedSlice, List.length_append]
    exact wildcardCrate_laws.within text
  obtain ⟨buffers, -⟩ := canonize_errors_leave within hashBuffer
  have left := (buffers 10 (by decide +kernel)).1 (by decide +kernel)
  exact ⟨left.sameLen, left.behind.trans (by decide +kernel)⟩

/-- The call fails, and the buffer is not what it was. -/
theorem failed_canonize_changes_buffer
    : (zKeyexprCanonize wildcardCrate hashBuffer 10).code = zEinval
      ∧ (zKeyexprCanonize wildcardCrate hashBuffer 10).buffer
        = { address := 1, bytes := utf8 "a/**/c#" ++ [0, 0, 0, 0] }
      ∧ (zKeyexprCanonize wildcardCrate hashBuffer 10).buffer ≠ hashBuffer := by
  decide +kernel

end ZenohC.KeyExpr
