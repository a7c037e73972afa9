import ZenohC.Api.KeyExpr
import ZenohC.Library.TextSearch

/-! The constructors of key expressions agree with each other.
Copying and canonizing in place give the same code, length and text, and the strict entry
points accept that text as it is.
-/

namespace ZenohC.KeyExpr

open Library

variable {crate : KeyExprCrate}

/-- What is assumed of the crate: a `String` and a `&mut str` are canonized to the same text,
in place within the slice, `autocanonize` validates the canonized text, and the conversion of
a `String` validates it as it is.
-/
structure CanonizeLaws (crate : KeyExprCrate) : Prop where
  sameText : ∀ text, (crate.canonizeMut text).1 = crate.canonize text
  within
    : ∀ text,
        (utf8 (crate.canonizeMut text).1).length + (crate.canonizeMut text).2.length
        = (utf8 text).length
  autocanonize_eq
    : ∀ text,
        crate.autocanonize text = (crate.new (crate.canonize text)).map fun _ => crate.canonize text
  tryFrom_eq : ∀ text, crate.tryFrom text = (crate.new text).map fun _ => text

-----------------------------------------------------------------------------------------
-- The shared helper
-----------------------------------------------------------------------------------------

theorem map_const_eq_ok_iff {ε α β : Type} {outcome : Except ε α} {given value : β}
    : (outcome.map fun _ => given) = .ok value ↔ outcome.isOk = true ∧ given = value := by
  cases outcome with
  | error error => simp [Except.map, Except.isOk, Except.toBool]
  | ok result => simp [Except.map, Except.isOk, Except.toBool]

/-- A copy is canonized to the same result as the bytes themselves. -/
theorem keyexprCreate_copy (laws : CanonizeLaws crate) (name : List UInt8)
    : (keyexprCreate crate name true true).1 = (keyexprCreate crate name true false).1 := by
  rw [keyexprCreate, keyexprCreate]
  cases decodeUtf8 name with
  | none => rfl
  | some text =>
      simp only [keyexprCreateInner, if_true, Bool.false_eq_true, if_false,
        laws.autocanonize_eq, laws.sameText]

/-- What canonizing in place leaves in the slice when it succeeds. -/
theorem keyexprCreate_inPlace (laws : CanonizeLaws crate) {name : List UInt8} {ke : String}
    (created : (keyexprCreate crate name true false).1 = .ok ke)
    : (crate.new ke).isOk = true
      ∧ ∃ behind,
          (keyexprCreate crate name true false).2 = utf8 ke ++ behind
          ∧ (utf8 ke).length + behind.length = name.length := by
  rw [keyexprCreate] at created ⊢
  cases decoded : decodeUtf8 name with
  | none =>
      rw [decoded] at created
      cases created
  | some text =>
      simp only [decoded, keyexprCreateInner, Bool.false_eq_true, if_false, if_true,
        mapError_eq_ok_iff, map_const_eq_ok_iff] at created ⊢
      obtain ⟨valid, rfl⟩ := created
      refine ⟨valid, _, rfl, ?_⟩
      rw [← decodeUtf8_eq_some_iff.mp decoded]
      exact laws.within text

/-- A valid text is accepted by the strict paths, and its bytes stay as they are. -/
theorem keyexprCreate_strict (laws : CanonizeLaws crate) {ke : String}
    (valid : (crate.new ke).isOk = true) (shouldCopy : Bool)
    : keyexprCreate crate (utf8 ke) false shouldCopy = (.ok ke, utf8 ke) := by
  have accepted : ((crate.new ke).map fun _ => ke) = .ok ke :=
    map_const_eq_ok_iff.mpr ⟨valid, rfl⟩
  cases shouldCopy <;>
    simp [keyexprCreate, keyexprCreateInner, laws.tryFrom_eq, accepted, mapError_ok]

-----------------------------------------------------------------------------------------
-- The entry points
-----------------------------------------------------------------------------------------

/-- Behind a non-null pointer, canonizing in place is the aliasing constructor without its
destination.
-/
theorem zKeyexprCanonize_eq {start : CharPtr} (live : start.address.isNull = false) (len : Nat)
    : zKeyexprCanonize crate start len
      = (zViewKeyexprFromSubstrAutocanonize crate start len).toBufferCall := by
  simp only [zKeyexprCanonize, zViewKeyexprFromSubstrAutocanonize, fromSubstr, live,
    Bool.false_eq_true, if_false, if_true]
  cases (keyexprCreate crate (start.bytes.take len) true false).1 <;> rfl

/-- A constructor succeeds with a key expression if and only if the helper does. -/
theorem fromSubstr_ok {shouldAutoCanonize shouldCopy : Bool} {start : CharPtr} {len : Nat}
    {ke : String} (live : start.address.isNull = false)
    (created
      : (keyexprCreate crate (start.bytes.take len) shouldAutoCanonize shouldCopy).1 = .ok ke)
    : fromSubstr crate shouldAutoCanonize shouldCopy start len
      = { code := zOk
          reported := none
          buffer :=
            start.withSlice len
              (keyexprCreate crate (start.bytes.take len) shouldAutoCanonize shouldCopy).2
          len := if shouldAutoCanonize then (utf8 ke).length else len
          this := some ke } := by
  simp only [fromSubstr, live, Bool.false_eq_true, if_false, created]

theorem fromSubstr_error {shouldAutoCanonize shouldCopy : Bool} {start : CharPtr} {len : Nat}
    {refusal : Refusal} (live : start.address.isNull = false)
    (refused
      : (keyexprCreate crate (start.bytes.take len) shouldAutoCanonize shouldCopy).1
        = .error refusal)
    : fromSubstr crate shouldAutoCanonize shouldCopy start len
      = { code := refusal.code
          reported := refusal.reported
          buffer :=
            start.withSlice len
              (keyexprCreate crate (start.bytes.take len) shouldAutoCanonize shouldCopy).2
          len
          this := none } := by
  simp only [fromSubstr, live, Bool.false_eq_true, if_false, refused]

/-- No refusal of the helper carries the code of success. -/
theorem keyexprCreate_refused {name : List UInt8} {shouldAutoCanonize shouldCopy : Bool}
    : Refused (keyexprCreate crate name shouldAutoCanonize shouldCopy).1 := by
  intro refusal refused
  rw [keyexprCreate] at refused
  cases decoded : decodeUtf8 name with
  | none =>
      simp only [decoded, Except.error.injEq] at refused
      rw [← refused]
      exact (by decide : zEparse ≠ zOk)
  | some text =>
      simp only [decoded] at refused
      cases made : (keyexprCreateInner crate text shouldAutoCanonize shouldCopy).1 with
      | error error =>
          simp only [made, mapError_error, Except.error.injEq] at refused
          rw [← refused]
          exact (by decide : zEinval ≠ zOk)
      | ok ke => simp [made, mapError_ok] at refused

/-- Success of a constructor comes from the helper. -/
theorem created_of_code {shouldAutoCanonize shouldCopy : Bool} {start : CharPtr} {len : Nat}
    (live : start.address.isNull = false)
    (succeeded : (fromSubstr crate shouldAutoCanonize shouldCopy start len).code = zOk)
    : ∃ ke,
        (keyexprCreate crate (start.bytes.take len) shouldAutoCanonize shouldCopy).1 = .ok ke := by
  cases made : (keyexprCreate crate (start.bytes.take len) shouldAutoCanonize shouldCopy).1 with
  | ok ke => exact ⟨ke, rfl⟩
  | error refusal =>
      rw [fromSubstr_error live made] at succeeded
      exact absurd succeeded (keyexprCreate_refused refusal made)

/-- All three constructors have made this text, and the strict entry points accept it. -/
structure Agreement (crate : KeyExprCrate) (start : CharPtr) (len : Nat) (text : String)
    : Prop where
  notLonger : (utf8 text).length ≤ len
  owned
    : (zKeyexprFromSubstrAutocanonize crate start len).len = (utf8 text).length
      ∧ (zKeyexprFromSubstrAutocanonize crate start len).this = some text
  view
    : (zViewKeyexprFromSubstrAutocanonize crate start len).len = (utf8 text).length
      ∧ (zViewKeyexprFromSubstrAutocanonize crate start len).this = some text
      ∧ utf8 text <+: (zViewKeyexprFromSubstrAutocanonize crate start len).buffer.bytes
  inPlace
    : (zKeyexprCanonize crate start len).len = (utf8 text).length
      ∧ utf8 text <+: (zKeyexprCanonize crate start len).buffer.bytes
  strict
    : ∀ buffer : CharPtr,
        buffer.address.isNull = false
        → utf8 text <+: buffer.bytes
        → zKeyexprIsCanon crate buffer (utf8 text).length
            = { code := zOk, reported := none, buffer, len := (utf8 text).length }
          ∧ zKeyexprFromSubstr crate buffer (utf8 text).length
            = { code := zOk
                reported := none
                buffer
                len := (utf8 text).length
                this := some text }
          ∧ zViewKeyexprFromSubstr crate buffer (utf8 text).length
            = { code := zOk
                reported := none
                buffer
                len := (utf8 text).length
                this := some text }

/-- The strict entry points leave a buffer that starts with a valid text as it is. -/
theorem strict_of_valid (laws : CanonizeLaws crate) {text : String}
    (valid : (crate.new text).isOk = true) {buffer : CharPtr}
    (live : buffer.address.isNull = false) (starts : utf8 text <+: buffer.bytes)
    : zKeyexprIsCanon crate buffer (utf8 text).length
          = { code := zOk, reported := none, buffer, len := (utf8 text).length }
        ∧ ∀ shouldCopy,
            fromSubstr crate false shouldCopy buffer (utf8 text).length
            = { code := zOk
                reported := none
                buffer
                len := (utf8 text).length
                this := some text } := by
  have slice : buffer.bytes.take (utf8 text).length = utf8 text :=
    (List.prefix_iff_eq_take.mp starts).symm
  have same : buffer.withSlice (utf8 text).length (utf8 text) = buffer := by
    have whole := List.take_append_drop (utf8 text).length buffer.bytes
    rw [slice] at whole
    rw [CharPtr.withSlice, whole]
  constructor
  · simp only [zKeyexprIsCanon, slice, keyexprCreate_strict laws valid, same]
  · intro shouldCopy
    have created := keyexprCreate_strict laws valid shouldCopy
    rw [← slice] at created
    have made := fromSubstr_ok live (congrArg Prod.fst created)
    rw [congrArg Prod.snd created] at made
    simpa [slice, same] using made

/-- Where the helper succeeds, all three constructors agree on its text. -/
theorem agreement (laws : CanonizeLaws crate) {start : CharPtr}
    (live : start.address.isNull = false) {len : Nat} (inside : len ≤ start.bytes.length)
    {text : String}
    (created : (keyexprCreate crate (start.bytes.take len) true false).1 = .ok text)
    : Agreement crate start len text := by
  obtain ⟨valid, behind, slice, length⟩ := keyexprCreate_inPlace laws created
  have owned : (keyexprCreate crate (start.bytes.take len) true true).1 = .ok text :=
    (keyexprCreate_copy laws _).trans created
  have made := fromSubstr_ok live created
  have inBuffer
      : utf8 text <+: (zViewKeyexprFromSubstrAutocanonize crate start len).buffer.bytes := by
    rw [zViewKeyexprFromSubstrAutocanonize, made, CharPtr.withSlice, slice, List.append_assoc]
    exact List.prefix_append _ _
  rw [List.length_take, Nat.min_eq_left inside] at length
  constructor
  case notLonger => omega
  case owned =>
    rw [zKeyexprFromSubstrAutocanonize, fromSubstr_ok live owned]
    exact ⟨rfl, rfl⟩
  case view =>
    refine ⟨?_, ?_, inBuffer⟩
    all_goals
      simp [zViewKeyexprFromSubstrAutocanonize, made]
  case inPlace =>
    rw [zKeyexprCanonize_eq live]
    exact ⟨by simp [zViewKeyexprFromSubstrAutocanonize, made], inBuffer⟩
  case strict =>
    intro buffer bufferLive starts
    obtain ⟨isCanon, constructed⟩ := strict_of_valid laws valid bufferLive starts
    exact ⟨isCanon, constructed true, constructed false⟩

/-- The three constructors return the same code. -/
theorem codes_agree (laws : CanonizeLaws crate) {start : CharPtr}
    (live : start.address.isNull = false) (len : Nat)
    : (zKeyexprFromSubstrAutocanonize crate start len).code
          = (zViewKeyexprFromSubstrAutocanonize crate start len).code
      ∧ (zKeyexprCanonize crate start len).code
          = (zViewKeyexprFromSubstrAutocanonize crate start len).code := by
  rw [zKeyexprCanonize_eq live]
  refine ⟨?_, rfl⟩
  have copied := keyexprCreate_copy laws (start.bytes.take len)
  rw [zKeyexprFromSubstrAutocanonize, zViewKeyexprFromSubstrAutocanonize]
  cases created : (keyexprCreate crate (start.bytes.take len) true false).1 with
  | ok ke =>
      rw [fromSubstr_ok live created, fromSubstr_ok live (copied.trans created)]
  | error refusal =>
      rw [fromSubstr_error live created, fromSubstr_error live (copied.trans created)]

/-- The terminator goes directly behind the text. -/
theorem terminate_bytes {call : BufferCall} {text : String} (succeeded : call.code = zOk)
    (starts : utf8 text <+: call.buffer.bytes) (len : call.len = (utf8 text).length)
    (room : (utf8 text).length < call.buffer.bytes.length)
    : utf8 text ++ [0] <+: (terminate call).buffer.bytes := by
  obtain ⟨rest, whole⟩ := starts
  cases rest with
  | nil => simp [← whole] at room
  | cons byte rest =>
      refine ⟨rest, ?_⟩
      simp [terminate, succeeded, len, ← whole]

theorem terminate_code (call : BufferCall) : (terminate call).code = call.code := by
  rw [terminate]
  split <;> rfl

theorem strlenOrZero_lt {start : CharPtr} (terminated : 0 ∈ start.bytes)
    (live : start.address.isNull = false)
    : start.strlenOrZero < start.bytes.length := by
  obtain ⟨front, rest, whole, absent⟩ := List.eq_append_cons_of_mem terminated
  have same : start.bytes.takeWhile (· != 0) = front := by
    rw [whole, takeWhile_bne_append absent]
  rw [CharPtr.strlenOrZero, live, if_neg Bool.false_ne_true, same, whole]
  simp

/-- The null-terminated forms have ended the string exactly behind the text. -/
structure Terminated (crate : KeyExprCrate) (start : CharPtr) (text : String) : Prop where
  view : (zViewKeyexprFromStrAutocanonize crate start).this = some text
  viewEnds : utf8 text ++ [0] <+: (zViewKeyexprFromStrAutocanonize crate start).buffer.bytes
  inPlaceEnds : utf8 text ++ [0] <+: (zKeyexprCanonizeNullTerminated crate start).buffer.bytes

theorem terminated (laws : CanonizeLaws crate) {start : CharPtr}
    (live : start.address.isNull = false) (hasEnd : 0 ∈ start.bytes) {text : String}
    (created
      : (keyexprCreate crate (start.bytes.take start.strlenOrZero) true false).1 = .ok text)
    : Terminated crate start text := by
  have short := strlenOrZero_lt hasEnd live
  have agrees := agreement laws live short.le created
  have made := fromSubstr_ok live created
  obtain ⟨-, behind, slice, length⟩ := keyexprCreate_inPlace laws created
  have room
      : (utf8 text).length
        < (zViewKeyexprFromSubstrAutocanonize crate start
            start.strlenOrZero).buffer.bytes.length := by
    rw [List.length_take, Nat.min_eq_left short.le] at length
    rw [zViewKeyexprFromSubstrAutocanonize, made, CharPtr.withSlice, slice]
    simp only [List.length_append, List.length_drop]
    omega
  have succeeded : (zViewKeyexprFromSubstrAutocanonize crate start start.strlenOrZero).code
      = zOk := by
    rw [zViewKeyexprFromSubstrAutocanonize, made]
  have ends := terminate_bytes succeeded agrees.view.2.2 agrees.view.1 room
  refine ⟨agrees.view.2.1, ends, ?_⟩
  rw [zKeyexprCanonizeNullTerminated, zKeyexprCanonize_eq live]
  exact ends

/-- Behind a non-null pointer the canonizing constructors return the same code and, where they
succeed, agree on the text; the null-terminated forms do what the others do at the string's
length, and end the string behind the text.
-/
theorem keyexpr_constructors_agree (laws : CanonizeLaws crate) {start : CharPtr}
    (live : start.address.isNull = false)
    : (∀ len ≤ start.bytes.length,
        (zKeyexprFromSubstrAutocanonize crate start len).code
            = (zViewKeyexprFromSubstrAutocanonize crate start len).code
        ∧ (zKeyexprCanonize crate start len).code
            = (zViewKeyexprFromSubstrAutocanonize crate start len).code
        ∧ ((zViewKeyexprFromSubstrAutocanonize crate start len).code = zOk
          → ∃ text, Agreement crate start len text))
      ∧ (0 ∈ start.bytes →
        (zViewKeyexprFromStrAutocanonize crate start).code
            = (zViewKeyexprFromSubstrAutocanonize crate start start.strlenOrZero).code
        ∧ (zKeyexprCanonizeNullTerminated crate start).code
            = (zViewKeyexprFromSubstrAutocanonize crate start start.strlenOrZero).code
        ∧ ((zViewKeyexprFromSubstrAutocanonize crate start start.strlenOrZero).code = zOk
          → ∃ text,
              Agreement crate start start.strlenOrZero text ∧ Terminated crate start text)) := by
  constructor
  · intro len inside
    obtain ⟨copied, inPlace⟩ := codes_agree laws live len
    refine ⟨copied, inPlace, fun succeeded => ?_⟩
    obtain ⟨text, created⟩ := created_of_code live succeeded
    exact ⟨text, agreement laws live inside created⟩
  · intro hasEnd
    refine ⟨terminate_code _, ?_, fun succeeded => ?_⟩
    · rw [zKeyexprCanonizeNullTerminated, terminate_code]
      exact (codes_agree laws live _).2
    · obtain ⟨text, created⟩ := created_of_code live succeeded
      exact ⟨text, agreement laws live (strlenOrZero_lt hasEnd live).le created,
        terminated laws live hasEnd created⟩

/-- The text of a doubled wildcard, and what it collapses to. -/
def collapse (text : String) : String :=
  if text = "a/**/**/c" then "a/**/c"
  else if text = "a/**/**/c#" then "a/**/c#"
  else text

/-- A crate that knows two texts with a doubled wildcard; the bytes behind are zeroed. -/
def wildcardCrate : KeyExprCrate where
  canonize := collapse
  canonizeMut := fun text =>
    (collapse text, List.replicate ((utf8 text).length - (utf8 (collapse text)).length) 0)
  new := fun text => if '#' ∈ text.toList then .error "forbidden character" else .ok ()
  tryFrom := fun text =>
    if '#' ∈ text.toList then .error "forbidden character" else .ok text
  autocanonize := fun text =>
    if '#' ∈ (collapse text).toList then .error "forbidden character" else .ok (collapse text)
  utf8Error := fun _ => "invalid utf-8 sequence"

theorem wildcardCrate_laws : CanonizeLaws wildcardCrate where
  sameText := fun _ => rfl
  within := by
    intro text
    have shorter : (utf8 (collapse text)).length ≤ (utf8 text).length := by
      rw [collapse]
      split
      case isTrue same =>
        subst same
        decide +kernel
      case isFalse =>
        split
        case isTrue same =>
          subst same
          decide +kernel
        case isFalse => exact Nat.le_refl _
    simp only [wildcardCrate, List.length_replicate]
    omega
  autocanonize_eq := by
    intro text
    simp only [wildcardCrate]
    split <;> rfl
  tryFrom_eq := by
    intro text
    simp only [wildcardCrate]
    split <;> rfl

def wildcardBuffer : CharPtr :=
  { address := 1, bytes := utf8 "a/**/**/c" ++ [0] }

theorem keyexpr_constructors_agree_wildcard
    : (zKeyexprCanonize wildcardCrate wildcardBuffer 9).code = zOk
      ∧ (zKeyexprFromSubstrAutocanonize wildcardCrate wildcardBuffer 9).code = zOk
      ∧ (zKeyexprCanonizeNullTerminated wildcardCrate wildcardBuffer).code = zOk
      ∧ ∃ text, Terminated wildcardCrate wildcardBuffer text := by
  obtain ⟨buffers, strings⟩ := keyexpr_constructors_agree wildcardCrate_laws
    (rfl : wildcardBuffer.address.isNull = false)
  obtain ⟨copied, inPlace, -⟩ := buffers 9 (by decide +kernel)
  obtain ⟨-, inPlaceString, ends⟩ := strings (by decide +kernel)
  have succeeded
      : (zViewKeyexprFromSubstrAutocanonize wildcardCrate wildcardBuffer 9).code = zOk := by
    decide +kernel
  have length : wildcardBuffer.strlenOrZero = 9 := by decide +kernel
  rw [length] at inPlaceString ends
  obtain ⟨text, -, terminated⟩ := ends succeeded
  exact ⟨inPlace.trans succeeded, copied.trans succeeded, inPlaceString.trans succeeded, text,
    terminated⟩

end ZenohC.KeyExpr
