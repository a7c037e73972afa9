import ZenohC.Api.Deserialization
import ZenohC.Api.NullBuffers

/-! Writing typed values into a payload.
A serializer collects what it is given until its payload is taken. The serializer and the
encoding are those of `zenoh_ext`, parameters; what is proved is that a payload gives back, value
by value, what was put into it.
-/

namespace ZenohC

open Library

/-- The function `z_serialize`, the type `ZSerializer` with the trait `Serialize`, and both
directions of `VarInt<usize>`.
-/
structure SerialCrates extends ZenohExt, BufferCrates where
  serializeArithmetic : (type : Arithmetic) → type.Value → List UInt8
  serializeVarInt : UInt64 → List UInt8
  deserializeVarInt : ZDeserializer → Except ZDeserializeError UInt64 × ZDeserializer
  ZSerializer : Type
  newSerializer : ZSerializer
  finishSerializer : ZSerializer → List UInt8
  serializeInto : (type : Element) → ZSerializer → type.Value → ZSerializer
  serializeVarIntInto : ZSerializer → UInt64 → ZSerializer

variable (crates : SerialCrates)

/-- `z_serialize`. -/
def SerialCrates.zSerialize : (type : Element) → type.Value → List UInt8
  | .arithmetic type => crates.serializeArithmetic type
  | .slice => crates.serializeSlice
  | .string => crates.serializeStr

/-- The payload of a new serializer is empty, and that of a write is the old bytes followed by
those of the value.
-/
structure SerialCrates.Appends : Prop where
  new : crates.finishSerializer crates.newSerializer = []
  element
    : ∀ (type : Element) (this : crates.ZSerializer) (value : type.Value),
        crates.finishSerializer (crates.serializeInto type this value)
        = crates.finishSerializer this ++ crates.zSerialize type value
  varInt
    : ∀ (this : crates.ZSerializer) (len : UInt64),
        crates.finishSerializer (crates.serializeVarIntInto this len)
        = crates.finishSerializer this ++ crates.serializeVarInt len

-----------------------------------------------------------------------------------------
-- The serializer as an owned type
-----------------------------------------------------------------------------------------

def zeSerializerEmpty (_this : MaybeUninit (Option crates.ZSerializer))
    : Finished (MaybeUninit (Option crates.ZSerializer)) :=
  { code := zOk, reported := none, dst := .written (some crates.newSerializer) }

def zeInternalSerializerNull (_this : MaybeUninit (Option crates.ZSerializer))
    : MaybeUninit (Option crates.ZSerializer) :=
  .written none

def zeInternalSerializerCheck (this : Option crates.ZSerializer) : Bool :=
  this.isSome

def zeSerializerDrop (this : Option crates.ZSerializer) : Option crates.ZSerializer :=
  (takeRustType this).2

/-- There is no serializer to borrow behind a gravestone. -/
def zeSerializerLoanMut (this : Option crates.ZSerializer) : Option crates.ZSerializer :=
  this

/-- The payload, and what is left in the slot. -/
def zeSerializerFinish (this : Option crates.ZSerializer)
    : Option (List UInt8 × Option crates.ZSerializer) :=
  let (taken, left) := takeRustType this
  taken.map fun serializer => (crates.finishSerializer serializer, left)

-----------------------------------------------------------------------------------------
-- The one-shot forms
-----------------------------------------------------------------------------------------

def zeSerializeArithmetic (type : Arithmetic) (val : type.Value) : Finished (List UInt8) :=
  { code := zOk, reported := none, dst := crates.zSerialize (.arithmetic type) val }

def zeSerializeUint8 := zeSerializeArithmetic crates .uint8

def zeSerializeUint16 := zeSerializeArithmetic crates .uint16

def zeSerializeUint32 := zeSerializeArithmetic crates .uint32

def zeSerializeUint64 := zeSerializeArithmetic crates .uint64

def zeSerializeInt8 := zeSerializeArithmetic crates .int8

def zeSerializeInt16 := zeSerializeArithmetic crates .int16

def zeSerializeInt32 := zeSerializeArithmetic crates .int32

def zeSerializeInt64 := zeSerializeArithmetic crates .int64

def zeSerializeFloat := zeSerializeArithmetic crates .float

def zeSerializeDouble := zeSerializeArithmetic crates .double

def zeSerializeBool := zeSerializeArithmetic crates .bool

/-- A loaned slice or string is given by its bytes. -/
def zeSerializeSlice (slice : List UInt8) : Finished (List UInt8) :=
  { code := zOk, reported := none, dst := crates.zSerialize .slice slice }

/-- A failure constructs the empty payload. -/
def zeSerializeString (str : List UInt8) : Finished (List UInt8) :=
  match decodeUtf8 str with
  | some s => { code := zOk, reported := none, dst := crates.zSerialize .string s }
  | none => { code := zEutf8, reported := some (crates.utf8Error str), dst := [] }

-----------------------------------------------------------------------------------------
-- The streaming forms
-----------------------------------------------------------------------------------------

def zeSerializerSerializeArithmetic (type : Arithmetic) (this : crates.ZSerializer)
    (val : type.Value)
    : Finished crates.ZSerializer :=
  { code := zOk, reported := none, dst := crates.serializeInto (.arithmetic type) this val }

def zeSerializerSerializeUint8 := zeSerializerSerializeArithmetic crates .uint8

def zeSerializerSerializeUint16 := zeSerializerSerializeArithmetic crates .uint16

def zeSerializerSerializeUint32 := zeSerializerSerializeArithmetic crates .uint32

def zeSerializerSerializeUint64 := zeSerializerSerializeArithmetic crates .uint64

def zeSerializerSerializeInt8 := zeSerializerSerializeArithmetic crates .int8

def zeSerializerSerializeInt16 := zeSerializerSerializeArithmetic crates .int16

def zeSerializerSerializeInt32 := zeSerializerSerializeArithmetic crates .int32

def zeSerializerSerializeInt64 := zeSerializerSerializeArithmetic crates .int64

def zeSerializerSerializeFloat := zeSerializerSerializeArithmetic crates .float

def zeSerializerSerializeDouble := zeSerializerSerializeArithmetic crates .double

def zeSerializerSerializeBool := zeSerializerSerializeArithmetic crates .bool

def zeSerializerSerializeSlice (this : crates.ZSerializer) (slice : List UInt8)
    : Finished crates.ZSerializer :=
  { code := zOk, reported := none, dst := crates.serializeInto .slice this slice }

def zeSerializerSerializeBuf : crates.ZSerializer → CharPtr → Nat
    → Option (Finished crates.ZSerializer) :=
  NullBuffers.zeSerializerSerializeBuf (crates.serializeInto .slice)

/-- A failure leaves the serializer as it was. -/
def zeSerializerSerializeString (this : crates.ZSerializer) (str : List UInt8)
    : Finished crates.ZSerializer :=
  match decodeUtf8 str with
  | some s => { code := zOk, reported := none, dst := crates.serializeInto .string this s }
  | none => { code := zEutf8, reported := some (crates.utf8Error str), dst := this }

def zeSerializerSerializeSubstr : crates.ZSerializer → CharPtr → Nat
    → Option (Finished crates.ZSerializer) :=
  NullBuffers.zeSerializerSerializeSubstr crates.toBufferCrates (crates.serializeInto .string)

def zeSerializerSerializeStr : crates.ZSerializer → CharPtr
    → Option (Finished crates.ZSerializer) :=
  NullBuffers.zeSerializerSerializeStr crates.toBufferCrates (crates.serializeInto .string)

def zeSerializerSerializeSequenceLength (this : crates.ZSerializer) (len : UInt64)
    : Finished crates.ZSerializer :=
  { code := zOk, reported := none, dst := crates.serializeVarIntInto this len }

/-- A failure overwrites the length with zero. -/
def zeDeserializerDeserializeSequenceLength (this : ZDeserializer) (_len : UInt64)
    : Finished UInt64 × ZDeserializer :=
  match crates.deserializeVarInt this with
  | (.ok l, moved) => ({ code := zOk, reported := none, dst := l }, moved)
  | (.error e, moved) =>
      ({ code := zEdeserialize
         reported := some s!"Failed to read the sequence length: {e.display}"
         dst := 0 }, moved)

/-- The one-shot form for a number. -/
def zeSerialize : (type : Arithmetic) → type.Value → Finished (List UInt8)
  | .uint8 => zeSerializeUint8 crates
  | .uint16 => zeSerializeUint16 crates
  | .uint32 => zeSerializeUint32 crates
  | .uint64 => zeSerializeUint64 crates
  | .int8 => zeSerializeInt8 crates
  | .int16 => zeSerializeInt16 crates
  | .int32 => zeSerializeInt32 crates
  | .int64 => zeSerializeInt64 crates
  | .float => zeSerializeFloat crates
  | .double => zeSerializeDouble crates
  | .bool => zeSerializeBool crates

/-- The streaming form for a number. -/
def zeSerializerSerialize
    : (type : Arithmetic) → crates.ZSerializer → type.Value → Finished crates.ZSerializer
  | .uint8 => zeSerializerSerializeUint8 crates
  | .uint16 => zeSerializerSerializeUint16 crates
  | .uint32 => zeSerializerSerializeUint32 crates
  | .uint64 => zeSerializerSerializeUint64 crates
  | .int8 => zeSerializerSerializeInt8 crates
  | .int16 => zeSerializerSerializeInt16 crates
  | .int32 => zeSerializerSerializeInt32 crates
  | .int64 => zeSerializerSerializeInt64 crates
  | .float => zeSerializerSerializeFloat crates
  | .double => zeSerializerSerializeDouble crates
  | .bool => zeSerializerSerializeBool crates

/-- What the entry points for values are given. -/
inductive SerialArgument where
  | arithmetic (type : Arithmetic) (val : type.Value)
  | slice (slice : List UInt8)
  | buf (data : CharPtr) (len : Nat)
  | string (str : List UInt8)
  | substr (start : CharPtr) (len : Nat)
  | str (str : CharPtr)

/-- The one-shot call for an argument; on a null buffer it has no result. -/
def SerialArgument.serializeAlone : SerialArgument → Option (Finished (List UInt8))
  | .arithmetic type val => some (zeSerialize crates type val)
  | .slice bytes => some (zeSerializeSlice crates bytes)
  | .buf data len => NullBuffers.zeSerializeBuf crates.toBufferCrates data len
  | .string bytes => some (zeSerializeString crates bytes)
  | .substr start len => NullBuffers.zeSerializeSubstr crates.toBufferCrates start len
  | .str text => NullBuffers.zeSerializeStr crates.toBufferCrates text

/-- The streaming call for an argument. -/
def SerialArgument.serializeInto (this : crates.ZSerializer)
    : SerialArgument → Option (Finished crates.ZSerializer)
  | .arithmetic type val => some (zeSerializerSerialize crates type this val)
  | .slice bytes => some (zeSerializerSerializeSlice crates this bytes)
  | .buf data len => zeSerializerSerializeBuf crates this data len
  | .string bytes => some (zeSerializerSerializeString crates this bytes)
  | .substr start len => zeSerializerSerializeSubstr crates this start len
  | .str text => zeSerializerSerializeStr crates this text

-----------------------------------------------------------------------------------------
-- What the calls mean
-----------------------------------------------------------------------------------------

/-- A value in a payload. -/
inductive Item where
  | element (type : Element) (value : type.Value)
  | sequenceLength (len : UInt64)

def Item.bytes : Item → List UInt8
  | .element type value => crates.zSerialize type value
  | .sequenceLength len => crates.serializeVarInt len

/-- A value as a read leaves it in its destination. -/
def Element.keep : (type : Element) → type.Value → type.Dst
  | .arithmetic _, value => value
  | .slice, value => .written (some value)
  | .string, value => .written (some (utf8 value))

/-- The read of the item's type succeeds with its value, whatever the destination held. -/
def Item.ReadAs (start moved : ZDeserializer) : Item → Prop
  | .element type value =>
      ∀ dst,
        zeDeserializerDeserialize crates.toZenohExt type start dst
        = ({ code := zOk, reported := none, dst := type.keep value }, moved)
  | .sequenceLength len =>
      ∀ dst,
        zeDeserializerDeserializeSequenceLength crates start dst
        = ({ code := zOk, reported := none, dst := len }, moved)

/-- The items can be read one after the other, and the deserializer is done when, and only
when, none is left.
-/
def ReadsBack : ZDeserializer → List Item → Prop
  | start, [] => zeDeserializerIsDone start = true
  | start, item :: rest =>
      zeDeserializerIsDone start = false
      ∧ ∃ moved, item.ReadAs crates start moved ∧ ReadsBack moved rest

/-- Reading inverts writing also when more is behind, and nothing is written as no bytes. -/
structure Invertible {α : Type} (write : α → List UInt8)
    (read : ZDeserializer → Except ZDeserializeError α × ZDeserializer) : Prop where
  reads : ∀ value rest, read ⟨write value ++ rest⟩ = (.ok value, ⟨rest⟩)
  nonempty : ∀ value, write value ≠ []

/-- The encoding of the item's type can be read back. -/
def SerialCrates.Reads : Item → Prop
  | .element type _ =>
      Invertible (crates.zSerialize type) (crates.toZenohExt.deserialize type)
  | .sequenceLength _ => Invertible crates.serializeVarInt crates.deserializeVarInt

/-- The item that an argument stands for; bytes that are not UTF-8 are no string. -/
def SerialArgument.item : SerialArgument → Option Item
  | .arithmetic type val => some (.element (.arithmetic type) val)
  | .slice bytes => some (.element .slice bytes)
  | .buf data len => some (.element .slice (data.bytes.take len))
  | .string bytes => (decodeUtf8 bytes).map (.element .string)
  | .substr start len => (decodeUtf8 (start.bytes.take len)).map (.element .string)
  | .str text => (decodeUtf8 (text.bytes.take text.strlenOrZero)).map (.element .string)

/-- The buffer of the argument, if it has one, is not at the null pointer. -/
def SerialArgument.nonnull : SerialArgument → Bool
  | .buf data _ => !data.address.isNull
  | .substr start _ => !start.address.isNull
  | .str text => !text.address.isNull
  | _ => true

def SerialArgument.code (argument : SerialArgument) : ZResult :=
  if argument.item.isSome then zOk else zEutf8

variable {crates}

@[simp]
theorem zeSerialize_eq (type : Arithmetic)
    : zeSerialize crates type = zeSerializeArithmetic crates type := by
  cases type <;> rfl

@[simp]
theorem zeSerializerSerialize_eq (type : Arithmetic)
    : zeSerializerSerialize crates type = zeSerializerSerializeArithmetic crates type := by
  cases type <;> rfl

/-- The bytes that an argument adds. -/
def SerialArgument.bytes (crates : SerialCrates) (argument : SerialArgument) : List UInt8 :=
  (argument.item.map (Item.bytes crates)).getD []

/-- What a call leaves: the code, and what it wrote. -/
def Finished.outcome {δ : Type} (finished : Finished δ) : ZResult × δ :=
  (finished.code, finished.dst)

/-- What a streaming call leaves: the code, and the payload that the serializer would give. -/
def Finished.payload (finished : Finished crates.ZSerializer) : ZResult × List UInt8 :=
  (finished.code, crates.finishSerializer finished.dst)

/-- The entry point for a substring is the one for its bytes, where there is a slice. -/
theorem zeSerializerSerializeSubstr_eq (this : crates.ZSerializer) (start : CharPtr) (len : Nat)
    : zeSerializerSerializeSubstr crates this start len
      = (start.fromRawParts len).map (zeSerializerSerializeString crates this) := by
  rw [zeSerializerSerializeSubstr, NullBuffers.zeSerializerSerializeSubstr]
  cases start.fromRawParts len with
  | none => rfl
  | some slice =>
      simp only [Option.bind_eq_bind, Option.bind_some, Option.map_some,
        zeSerializerSerializeString]
      cases decodeUtf8 slice <;> rfl

theorem zeSerializeSubstr_eq (start : CharPtr) (len : Nat)
    : NullBuffers.zeSerializeSubstr crates.toBufferCrates start len
      = (start.fromRawParts len).map (zeSerializeString crates) := by
  rw [NullBuffers.zeSerializeSubstr]
  cases start.fromRawParts len with
  | none => rfl
  | some slice =>
      simp only [Option.bind_eq_bind, Option.bind_some, Option.map_some, zeSerializeString]
      cases decodeUtf8 slice <;> rfl

theorem zeSerializerSerializeString_payload (appends : crates.Appends)
    (this : crates.ZSerializer) (bytes : List UInt8)
    : (zeSerializerSerializeString crates this bytes).payload
      = ((SerialArgument.string bytes).code,
        crates.finishSerializer this ++ (SerialArgument.string bytes).bytes crates) := by
  rw [zeSerializerSerializeString, SerialArgument.code, SerialArgument.bytes, SerialArgument.item]
  cases decodeUtf8 bytes with
  | none => simp [Finished.payload]
  | some text => simp [Finished.payload, Item.bytes, appends.element]

theorem zeSerializeString_outcome (bytes : List UInt8)
    : (zeSerializeString crates bytes).outcome
      = ((SerialArgument.string bytes).code, (SerialArgument.string bytes).bytes crates) := by
  rw [zeSerializeString, SerialArgument.code, SerialArgument.bytes, SerialArgument.item]
  cases decodeUtf8 bytes with
  | none => rfl
  | some text => rfl

/-- A call on a buffer has a result where the buffer has a slice. -/
theorem map_fromRawParts_eq {α : Type} (start : CharPtr) (len : Nat) (call : List UInt8 → α)
    : (start.fromRawParts len).map call
      = if !start.address.isNull then some (call (start.bytes.take len)) else none := by
  rw [CharPtr.fromRawParts]
  cases start.address.isNull <;> rfl

/-- The streaming call appends what its argument stands for, and nothing when it fails. -/
theorem serializeInto_payload (appends : crates.Appends) (this : crates.ZSerializer)
    (argument : SerialArgument)
    : (argument.serializeInto crates this).map Finished.payload
      = if argument.nonnull then
          some (argument.code, crates.finishSerializer this ++ argument.bytes crates)
        else none := by
  have sliced (bytes : List UInt8) : (zeSerializerSerializeSlice crates this bytes).payload
      = (zOk, crates.finishSerializer this ++ crates.zSerialize .slice bytes) := by
    rw [Finished.payload, zeSerializerSerializeSlice, appends.element]
  cases argument with
  | arithmetic type val =>
      rw [SerialArgument.serializeInto, zeSerializerSerialize_eq, Option.map_some,
        Finished.payload, zeSerializerSerializeArithmetic, appends.element]
      rfl
  | slice bytes =>
      rw [SerialArgument.serializeInto, Option.map_some, sliced]
      rfl
  | string bytes =>
      rw [SerialArgument.serializeInto, Option.map_some,
        zeSerializerSerializeString_payload appends]
      rfl
  | buf data len =>
      have same : SerialArgument.serializeInto crates this (.buf data len)
          = (data.fromRawParts len).map (zeSerializerSerializeSlice crates this) := by
        rw [SerialArgument.serializeInto, zeSerializerSerializeBuf,
          NullBuffers.zeSerializerSerializeBuf]
        cases data.fromRawParts len <;> rfl
      rw [same, Option.map_map, map_fromRawParts_eq, Function.comp_apply, sliced]
      rfl
  | substr start len =>
      rw [SerialArgument.serializeInto, zeSerializerSerializeSubstr_eq, Option.map_map,
        map_fromRawParts_eq, Function.comp_apply, zeSerializerSerializeString_payload appends]
      rfl
  | str text =>
      have same : SerialArgument.serializeInto crates this (.str text)
          = zeSerializerSerializeSubstr crates this text text.strlenOrZero := rfl
      rw [same, zeSerializerSerializeSubstr_eq, Option.map_map, map_fromRawParts_eq,
        Function.comp_apply, zeSerializerSerializeString_payload appends]
      rfl

/-- The one-shot call gives the payload of a serializer that was given nothing else. -/
theorem serializeAlone_outcome (argument : SerialArgument)
    : (argument.serializeAlone crates).map Finished.outcome
      = if argument.nonnull then some (argument.code, argument.bytes crates) else none := by
  cases argument with
  | arithmetic type val =>
      rw [SerialArgument.serializeAlone, zeSerialize_eq]
      rfl
  | slice bytes => rfl
  | string bytes =>
      rw [SerialArgument.serializeAlone, Option.map_some, zeSerializeString_outcome]
      rfl
  | buf data len =>
      have sliced := map_fromRawParts_eq data len (zeSerializeSlice crates)
      have same : SerialArgument.serializeAlone crates (.buf data len)
          = (data.fromRawParts len).map (zeSerializeSlice crates) := by
        rw [SerialArgument.serializeAlone, NullBuffers.zeSerializeBuf]
        cases data.fromRawParts len <;> rfl
      rw [same, sliced, SerialArgument.nonnull]
      cases data.address.isNull <;> rfl
  | substr start len =>
      rw [SerialArgument.serializeAlone, zeSerializeSubstr_eq, Option.map_map, map_fromRawParts_eq,
        Function.comp_apply, zeSerializeString_outcome]
      rfl
  | str text =>
      rw [SerialArgument.serializeAlone, NullBuffers.zeSerializeStr, zeSerializeSubstr_eq,
        Option.map_map, map_fromRawParts_eq, Function.comp_apply, zeSerializeString_outcome]
      rfl

-----------------------------------------------------------------------------------------
-- Reading back
-----------------------------------------------------------------------------------------

/-- What the crate reads, the entry point of the type hands out. -/
theorem zeDeserializerDeserialize_ok {type : Element} {start moved : ZDeserializer}
    {value : type.Value}
    (read : crates.toZenohExt.deserialize type start = (.ok value, moved)) (dst : type.Dst)
    : zeDeserializerDeserialize crates.toZenohExt type start dst
      = ({ code := zOk, reported := none, dst := type.keep value }, moved) := by
  cases type with
  | arithmetic type =>
      rw [zeDeserializerDeserialize_arithmetic, zeDeserializerDeserializeArithmetic, read]
      rfl
  | slice =>
      change zeDeserializerDeserializeSlice crates.toZenohExt start dst = _
      rw [zeDeserializerDeserializeSlice, read]
      rfl
  | string =>
      change zeDeserializerDeserializeString crates.toZenohExt start dst = _
      rw [zeDeserializerDeserializeString, read]
      rfl

/-- The read of an item takes its bytes off the front. -/
theorem readAs_of_reads {item : Item} (reads : crates.Reads item) (rest : List UInt8)
    : item.ReadAs crates ⟨item.bytes crates ++ rest⟩ ⟨rest⟩ := by
  cases item with
  | element type value => exact zeDeserializerDeserialize_ok (reads.reads value rest)
  | sequenceLength len =>
      intro dst
      rw [Item.bytes, zeDeserializerDeserializeSequenceLength, reads.reads len rest]

theorem bytes_ne_nil {item : Item} (reads : crates.Reads item) : item.bytes crates ≠ [] := by
  cases item with
  | element type value => exact reads.nonempty value
  | sequenceLength len => exact reads.nonempty len

/-- The bytes of items give the items back, by induction on the items. -/
theorem readsBack_bytes {items : List Item} (reads : ∀ item ∈ items, crates.Reads item)
    : ReadsBack crates (zeDeserializerFromBytes (items.flatMap (Item.bytes crates))) items := by
  induction items with
  | nil => rfl
  | cons item rest ih =>
      have first := reads item (List.mem_cons_self ..)
      refine ⟨?_, ⟨rest.flatMap (Item.bytes crates)⟩, ?_, ?_⟩
      · have filled := bytes_ne_nil first
        simp [zeDeserializerFromBytes, zeDeserializerIsDone, ZDeserializer.new,
          ZDeserializer.done, filled]
      · exact readAs_of_reads first _
      · exact ih fun other within => reads other (List.mem_cons_of_mem item within)

end ZenohC
