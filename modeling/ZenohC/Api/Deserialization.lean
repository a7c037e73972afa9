import ZenohC.Api.Constructed
import ZenohC.Library.Utf8Bytes

/-! Reading typed values out of a payload.
A one-shot form expects the whole payload to be one value; a streaming form leaves what stands
behind the value to the next read. The encoding itself is that of `zenoh_ext`, a parameter.
-/

namespace ZenohC

open Library

inductive Arithmetic where
  | uint8
  | uint16
  | uint32
  | uint64
  | int8
  | int16
  | int32
  | int64
  | float
  | double
  | bool
  deriving DecidableEq, Repr

abbrev Arithmetic.Value : Arithmetic → Type
  | .uint8 => UInt8
  | .uint16 => UInt16
  | .uint32 => UInt32
  | .uint64 => UInt64
  | .int8 => Int8
  | .int16 => Int16
  | .int32 => Int32
  | .int64 => Int64
  | .float => Float32
  | .double => Float
  | .bool => Bool

/-- The types that are read both ways. -/
inductive Element where
  | arithmetic (type : Arithmetic)
  | slice
  | string
  deriving DecidableEq, Repr

/-- The type on the Rust side: `Vec<u8>` for a slice, `String` for a string. -/
abbrev Element.Value : Element → Type
  | .arithmetic type => type.Value
  | .slice => List UInt8
  | .string => String

/-- An owned slice or string by its bytes, or its gravestone. -/
abbrev OwnedBytes := MaybeUninit (Option (List UInt8))

/-- What the destination of a read is: a number is overwritten, an owned type constructed. -/
abbrev Element.Dst : Element → Type
  | .arithmetic type => type.Value
  | .slice => OwnedBytes
  | .string => OwnedBytes

/-- The two texts of an error, `{:?}` and `{}`. -/
structure ZDeserializeError where
  debug : String
  display : String
  deriving DecidableEq, Repr

/-- A deserializer stands somewhere in its payload; this is what it has not read yet. -/
structure ZDeserializer where
  unread : List UInt8
  deriving DecidableEq, Repr

def ZDeserializer.new (payload : List UInt8) : ZDeserializer :=
  { unread := payload }

def ZDeserializer.done (deserializer : ZDeserializer) : Bool :=
  deserializer.unread.isEmpty

/-- The trait `Deserialize` at the types above, and the error about bytes that remain. A read
may move the deserializer also when it fails.
-/
structure ZenohExt where
  deserialize
    : (type : Element)
      → ZDeserializer
      → Except ZDeserializeError type.Value × ZDeserializer
  bytesRemain : ZDeserializeError

variable (ext : ZenohExt)

/-- `z_deserialize`. -/
def ZenohExt.zDeserialize (type : Element) (payload : List UInt8)
    : Except ZDeserializeError type.Value :=
  match ext.deserialize type (ZDeserializer.new payload) with
  | (.ok value, deserializer) =>
      if deserializer.done then .ok value else .error ext.bytesRemain
  | (.error e, _) => .error e

/-- The common end of the reads of a number, with the code that a failure is given. -/
def overwriteOnOk {α : Type} (failure : ZResult) (val : α)
    : Except ZDeserializeError α → Finished α
  | .ok v => { code := zOk, reported := none, dst := v }
  | .error e =>
      { code := failure
        reported := some s!"Failed to deserialize the payload: {e.debug}"
        dst := val }

/-- The common end of the reads into an owned type; `into` gives the bytes that are kept. -/
def writeRead {α : Type} (into : α → List UInt8)
    : Except ZDeserializeError α → Finished OwnedBytes
  | .ok s => { code := zOk, reported := none, dst := .written (some (into s)) }
  | .error e =>
      { code := zEdeserialize
        reported := some s!"Failed to deserialize the payload: {e.display}"
        dst := .written gravestone }

-----------------------------------------------------------------------------------------
-- The one-shot forms
-----------------------------------------------------------------------------------------

def zeDeserializeArithmetic (type : Arithmetic) (this : List UInt8) (val : type.Value)
    : Finished type.Value :=
  overwriteOnOk zEparse val (ext.zDeserialize (.arithmetic type) this)

def zeDeserializeUint8 := zeDeserializeArithmetic ext .uint8

def zeDeserializeUint16 := zeDeserializeArithmetic ext .uint16

def zeDeserializeUint32 := zeDeserializeArithmetic ext .uint32

def zeDeserializeUint64 := zeDeserializeArithmetic ext .uint64

def zeDeserializeInt8 := zeDeserializeArithmetic ext .int8

def zeDeserializeInt16 := zeDeserializeArithmetic ext .int16

def zeDeserializeInt32 := zeDeserializeArithmetic ext .int32

def zeDeserializeInt64 := zeDeserializeArithmetic ext .int64

def zeDeserializeFloat := zeDeserializeArithmetic ext .float

def zeDeserializeDouble := zeDeserializeArithmetic ext .double

def zeDeserializeBool := zeDeserializeArithmetic ext .bool

def zeDeserializeSlice (this : List UInt8) (_slice : OwnedBytes) : Finished OwnedBytes :=
  writeRead id (ext.zDeserialize .slice this)

def zeDeserializeString (this : List UInt8) (_str : OwnedBytes) : Finished OwnedBytes :=
  writeRead utf8 (ext.zDeserialize .string this)

-----------------------------------------------------------------------------------------
-- The streaming forms
-----------------------------------------------------------------------------------------

def zeDeserializerFromBytes (this : List UInt8) : ZDeserializer :=
  ZDeserializer.new this

def zeDeserializerIsDone (this : ZDeserializer) : Bool :=
  this.done

/-- A failure has not the code of the one-shot form. -/
def zeDeserializerDeserializeArithmetic (type : Arithmetic) (this : ZDeserializer)
    (val : type.Value)
    : Finished type.Value × ZDeserializer :=
  let (result, moved) := ext.deserialize (.arithmetic type) this
  (overwriteOnOk zEdeserialize val result, moved)

def zeDeserializerDeserializeUint8 := zeDeserializerDeserializeArithmetic ext .uint8

def zeDeserializerDeserializeUint16 := zeDeserializerDeserializeArithmetic ext .uint16

def zeDeserializerDeserializeUint32 := zeDeserializerDeserializeArithmetic ext .uint32

def zeDeserializerDeserializeUint64 := zeDeserializerDeserializeArithmetic ext .uint64

def zeDeserializerDeserializeInt8 := zeDeserializerDeserializeArithmetic ext .int8

def zeDeserializerDeserializeInt16 := zeDeserializerDeserializeArithmetic ext .int16

def zeDeserializerDeserializeInt32 := zeDeserializerDeserializeArithmetic ext .int32

def zeDeserializerDeserializeInt64 := zeDeserializerDeserializeArithmetic ext .int64

def zeDeserializerDeserializeFloat := zeDeserializerDeserializeArithmetic ext .float

def zeDeserializerDeserializeDouble := zeDeserializerDeserializeArithmetic ext .double

def zeDeserializerDeserializeBool := zeDeserializerDeserializeArithmetic ext .bool

def zeDeserializerDeserializeSlice (this : ZDeserializer) (_slice : OwnedBytes)
    : Finished OwnedBytes × ZDeserializer :=
  let (result, moved) := ext.deserialize .slice this
  (writeRead id result, moved)

def zeDeserializerDeserializeString (this : ZDeserializer) (_str : OwnedBytes)
    : Finished OwnedBytes × ZDeserializer :=
  let (result, moved) := ext.deserialize .string this
  (writeRead utf8 result, moved)

/-- The one-shot form of a type. -/
def zeDeserialize : (type : Element) → List UInt8 → type.Dst → Finished type.Dst
  | .arithmetic .uint8 => zeDeserializeUint8 ext
  | .arithmetic .uint16 => zeDeserializeUint16 ext
  | .arithmetic .uint32 => zeDeserializeUint32 ext
  | .arithmetic .uint64 => zeDeserializeUint64 ext
  | .arithmetic .int8 => zeDeserializeInt8 ext
  | .arithmetic .int16 => zeDeserializeInt16 ext
  | .arithmetic .int32 => zeDeserializeInt32 ext
  | .arithmetic .int64 => zeDeserializeInt64 ext
  | .arithmetic .float => zeDeserializeFloat ext
  | .arithmetic .double => zeDeserializeDouble ext
  | .arithmetic .bool => zeDeserializeBool ext
  | .slice => zeDeserializeSlice ext
  | .string => zeDeserializeString ext

/-- The streaming form of a type. -/
def zeDeserializerDeserialize
    : (type : Element) → ZDeserializer → type.Dst → Finished type.Dst × ZDeserializer
  | .arithmetic .uint8 => zeDeserializerDeserializeUint8 ext
  | .arithmetic .uint16 => zeDeserializerDeserializeUint16 ext
  | .arithmetic .uint32 => zeDeserializerDeserializeUint32 ext
  | .arithmetic .uint64 => zeDeserializerDeserializeUint64 ext
  | .arithmetic .int8 => zeDeserializerDeserializeInt8 ext
  | .arithmetic .int16 => zeDeserializerDeserializeInt16 ext
  | .arithmetic .int32 => zeDeserializerDeserializeInt32 ext
  | .arithmetic .int64 => zeDeserializerDeserializeInt64 ext
  | .arithmetic .float => zeDeserializerDeserializeFloat ext
  | .arithmetic .double => zeDeserializerDeserializeDouble ext
  | .arithmetic .bool => zeDeserializerDeserializeBool ext
  | .slice => zeDeserializerDeserializeSlice ext
  | .string => zeDeserializerDeserializeString ext

variable {ext}

theorem zeDeserialize_arithmetic (type : Arithmetic)
    : zeDeserialize ext (.arithmetic type) = zeDeserializeArithmetic ext type := by
  cases type <;> rfl

theorem zeDeserializerDeserialize_arithmetic (type : Arithmetic)
    : zeDeserializerDeserialize ext (.arithmetic type)
      = zeDeserializerDeserializeArithmetic ext type := by
  cases type <;> rfl

-----------------------------------------------------------------------------------------
-- Agreement
-----------------------------------------------------------------------------------------

/-- A one-shot read agrees with a streamed one, after which the deserializer is done or not. -/
structure Finished.Agrees {δ : Type} (oneShot streamed : Finished δ) (done : Bool) : Prop where
  ok_iff : oneShot.code = zOk ↔ streamed.code = zOk ∧ done = true
  sameValue : oneShot.code = zOk → oneShot.dst = streamed.dst
  sameFailure
    : streamed.code ≠ zOk → oneShot.code = streamed.code ∧ oneShot.dst = streamed.dst

/-- The two forms agree on a payload and a destination. -/
def FormsAgree (ext : ZenohExt) (type : Element) (payload : List UInt8) (dst : type.Dst)
    : Prop :=
  let (streamed, moved) :=
    zeDeserializerDeserialize ext type (zeDeserializerFromBytes payload) dst
  (zeDeserialize ext type payload dst).Agrees streamed (zeDeserializerIsDone moved)

/-- The payload starts with a value of the type. -/
def Readable (ext : ZenohExt) (type : Element) (payload : List UInt8) : Prop :=
  ∃ value, (ext.deserialize type (ZDeserializer.new payload)).1 = .ok value

theorem code_overwriteOnOk_eq_zOk_iff {α : Type} {failure : ZResult} {val : α}
    {result : Except ZDeserializeError α} (fails : failure ≠ zOk)
    : (overwriteOnOk failure val result).code = zOk ↔ ∃ v, result = .ok v := by
  cases result with
  | ok v => simp [overwriteOnOk]
  | error e => simp [overwriteOnOk, fails]

theorem code_writeRead_eq_zOk_iff {α : Type} {into : α → List UInt8}
    {result : Except ZDeserializeError α}
    : (writeRead into result).code = zOk ↔ ∃ s, result = .ok s := by
  cases result with
  | ok s => simp [writeRead]
  | error e =>
      have fails : zEdeserialize ≠ zOk := by decide
      simp [writeRead, fails]

/-- When the read fails, the two forms are compared by how they end. -/
theorem agrees_of_failed_iff {δ : Type} {oneShot streamed : Finished δ} {done : Bool}
    (failed : oneShot.code ≠ zOk) (streamFailed : streamed.code ≠ zOk)
    : oneShot.Agrees streamed done
      ↔ oneShot.code = streamed.code ∧ oneShot.dst = streamed.dst := by
  constructor
  · intro agrees
    exact agrees.sameFailure streamFailed
  · intro same
    exact
      { ok_iff := by simp [failed, streamFailed]
        sameValue := fun ok => absurd ok failed
        sameFailure := fun _ => same }

/-- When the read succeeds, the one-shot form hands out the same unless bytes remain. -/
theorem agrees_of_given {δ : Type} {given remain : Finished δ} {done : Bool}
    (ok : given.code = zOk) (failed : remain.code ≠ zOk)
    : (if done then given else remain).Agrees given done := by
  cases done with
  | true =>
      exact
        { ok_iff := by simp
          sameValue := fun _ => rfl
          sameFailure := fun _ => ⟨rfl, rfl⟩ }
  | false =>
      exact
        { ok_iff := by simp [failed]
          sameValue := fun same => absurd same failed
          sameFailure := fun bad => absurd ok bad }

/-- Where both forms hand out what they read in the same way, they agree unless the read
fails and they give a failure different ends.
-/
theorem agrees_iff {δ : Type} {type : Element} {payload : List UInt8}
    {once streamed : Except ZDeserializeError type.Value → Finished δ}
    (handOut : ∀ value, once (.ok value) = streamed (.ok value))
    (once_ok : ∀ result, (once result).code = zOk ↔ ∃ value, result = .ok value)
    (streamed_ok : ∀ result, (streamed result).code = zOk ↔ ∃ value, result = .ok value)
    : (once (ext.zDeserialize type payload)).Agrees
        (streamed (ext.deserialize type (ZDeserializer.new payload)).1)
        (ext.deserialize type (ZDeserializer.new payload)).2.done
      ↔ Readable ext type payload
        ∨ ∃ e,
            (once (.error e)).code = (streamed (.error e)).code
            ∧ (once (.error e)).dst = (streamed (.error e)).dst
            ∧ (ext.deserialize type (ZDeserializer.new payload)).1 = .error e := by
  rcases read : ext.deserialize type (ZDeserializer.new payload) with ⟨result, moved⟩
  rw [ZenohExt.zDeserialize, Readable, read]
  cases result with
  | error e =>
      rw [agrees_of_failed_iff (by simp [once_ok]) (by simp [streamed_ok])]
      constructor
      · rintro ⟨code, dst⟩
        exact .inr ⟨e, code, dst, rfl⟩
      · rintro (⟨value, ok⟩ | ⟨e, code, dst, same⟩)
        · cases ok
        · cases same
          exact ⟨code, dst⟩
  | ok value =>
      have given : (streamed (.ok value)).code = zOk := (streamed_ok _).mpr ⟨value, rfl⟩
      have refused : (once (.error ext.bytesRemain)).code ≠ zOk := by simp [once_ok]
      refine iff_of_true ?_ (.inl ⟨value, rfl⟩)
      rw [apply_ite once, handOut]
      exact agrees_of_given given refused

theorem formsAgree_arithmetic_iff {type : Arithmetic} {payload : List UInt8} {dst : type.Value}
    : FormsAgree ext (.arithmetic type) payload dst
      ↔ Readable ext (.arithmetic type) payload := by
  have oneShot : zEparse ≠ zOk := by decide
  have streaming : zEdeserialize ≠ zOk := by decide
  have differ : zEparse ≠ zEdeserialize := by decide
  rw [FormsAgree, zeDeserialize_arithmetic, zeDeserializerDeserialize_arithmetic]
  have agrees :=
    @agrees_iff ext type.Value (.arithmetic type) payload (overwriteOnOk zEparse dst)
      (overwriteOnOk zEdeserialize dst) (fun _ => rfl)
      (fun _ => code_overwriteOnOk_eq_zOk_iff oneShot)
      (fun _ => code_overwriteOnOk_eq_zOk_iff streaming)
  refine agrees.trans ?_
  simp [overwriteOnOk, differ]

/-- A read into an owned type ends in the same way in both forms. -/
theorem agrees_writeRead (type : Element) (payload : List UInt8)
    (into : type.Value → List UInt8)
    : (writeRead into (ext.zDeserialize type payload)).Agrees
        (writeRead into (ext.deserialize type (ZDeserializer.new payload)).1)
        (ext.deserialize type (ZDeserializer.new payload)).2.done := by
  refine (agrees_iff (fun _ => rfl) (fun _ => code_writeRead_eq_zOk_iff)
    (fun _ => code_writeRead_eq_zOk_iff)).mpr ?_
  rw [Readable]
  cases (ext.deserialize type (ZDeserializer.new payload)).1 with
  | ok value => exact .inl ⟨value, rfl⟩
  | error e => exact .inr ⟨e, rfl, rfl, rfl⟩

/-- The two forms agree exactly on the owned types and on the payloads that start with a
number of the type: what remains behind it makes no difference.
-/
theorem oneShot_agrees_iff (ext : ZenohExt) (type : Element) (payload : List UInt8)
    (dst : type.Dst)
    : FormsAgree ext type payload dst
      ↔ type = .slice ∨ type = .string ∨ Readable ext type payload := by
  cases type with
  | arithmetic type => simpa using formsAgree_arithmetic_iff
  | slice => exact iff_of_true (agrees_writeRead .slice payload id) (.inl rfl)
  | string => exact iff_of_true (agrees_writeRead .string payload utf8) (.inr (.inl rfl))

/-- Only the front of the payload is looked at, and nothing is read from an empty one. -/
def byteExt : ZenohExt where
  deserialize
    | .arithmetic .uint8, ⟨byte :: rest⟩ => (.ok byte, ⟨rest⟩)
    | _, deserializer => (.error { debug := "ZDeserializeError", display := "" }, deserializer)
  bytesRemain := { debug := "ZDeserializeError", display := "" }

/-- An empty payload holds no `uint8_t`: the one-shot form fails with `Z_EPARSE`, the
streaming form with `Z_EDESERIALIZE`.
-/
theorem truncated_number_codes_differ
    : ¬∀ (ext : ZenohExt) (type : Element) (payload : List UInt8) (dst : type.Dst),
        FormsAgree ext type payload dst := by
  intro agree
  have agrees := agree byteExt (.arithmetic .uint8) [] 0
  obtain ⟨sameCode, -⟩ := agrees.sameFailure (by decide)
  exact absurd sameCode (by decide)

end ZenohC
