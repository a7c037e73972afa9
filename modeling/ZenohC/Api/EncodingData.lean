import ZenohC.Api.Query

/-! Encodings taken apart for the bindings and put together again.
An optional schema is handed over as a pointer and a length. The parts of an encoding are
stored as they are given, and two encodings are equal when their parts are.
-/

namespace ZenohC

structure Encoding where
  id : UInt16
  schema : Option (List UInt8)
  deriving DecidableEq, Repr

/-- `zc_internal_encoding_data_t`; the pointer comes with the bytes that it refers to. -/
structure EncodingData where
  id : UInt16
  schemaPtr : CharPtr
  schemaLen : Nat
  deriving DecidableEq, Repr

/-- What the parts stand for: an id, and the bytes of the schema. -/
def EncodingData.denotes (data : EncodingData) : UInt16 × List UInt8 :=
  (data.id,
    if data.schemaPtr.address.isNull then [] else data.schemaPtr.bytes.take data.schemaLen)

/-- Where the bytes of a schema stand. A Rust slice is never at the null pointer, whether it
is empty or not.
-/
structure SchemaPlace where
  address : Ptr
  nonnull : address.isNull = false

namespace Encoding

def zcInternalEncodingGetData (this : Encoding) (place : SchemaPlace) : EncodingData :=
  match this.schema with
  | some s =>
      { id := this.id
        schemaPtr := { address := place.address, bytes := s }
        schemaLen := s.length }
  | none =>
      { id := this.id, schemaPtr := { address := Ptr.null, bytes := [] }, schemaLen := 0 }

/-- The slice is an argument of `then_some`, so it is formed whatever the test says; without
a slice the call has no result.
-/
def zcInternalEncodingFromData (data : EncodingData) : Option Encoding := do
  let slice ← data.schemaPtr.fromRawParts data.schemaLen
  let schema :=
    if !data.schemaPtr.address.isNull && data.schemaLen > 0 then some slice else none
  pure { id := data.id, schema }

/-- Putting the parts together has a result, and it denotes what the parts do. -/
def PartsKept (data : EncodingData) : Prop :=
  ∃ made,
    zcInternalEncodingFromData data = some made
    ∧ ∀ place, (zcInternalEncodingGetData made place).denotes = data.denotes

variable {this made : Encoding} {place : SchemaPlace} {data : EncodingData}

/-- Putting parts together needs a pointer, and an empty schema is no schema. -/
theorem fromData_eq_some_iff
    : zcInternalEncodingFromData data = some made
      ↔ data.schemaPtr.address.isNull = false
        ∧ made
          = { id := data.id
              schema :=
                if data.schemaLen > 0 then some (data.schemaPtr.bytes.take data.schemaLen)
                else none } := by
  rw [zcInternalEncodingFromData, CharPtr.fromRawParts]
  cases null : data.schemaPtr.address.isNull with
  | true => simp
  | false => simp [eq_comm]

theorem getData_some {id : UInt16} {schema : List UInt8}
    : zcInternalEncodingGetData { id, schema := some schema } place
      = { id
          schemaPtr := { address := place.address, bytes := schema }
          schemaLen := schema.length } :=
  rfl

theorem getData_none {id : UInt16}
    : zcInternalEncodingGetData { id, schema := none } place
      = { id, schemaPtr := { address := Ptr.null, bytes := [] }, schemaLen := 0 } :=
  rfl

/-- An encoding denotes its id and the bytes of its schema, if it has one. -/
theorem denotes_getData
    : (zcInternalEncodingGetData this place).denotes = (this.id, this.schema.getD []) := by
  rcases this with ⟨id, schema⟩
  cases schema with
  | none => simp [getData_none, EncodingData.denotes]
  | some schema => simp [getData_some, EncodingData.denotes, place.nonnull]

theorem fromData_getData_iff
    : zcInternalEncodingFromData (zcInternalEncodingGetData this place) = some this
      ↔ ∃ schema, this.schema = some schema ∧ schema ≠ [] := by
  rcases this with ⟨id, schema⟩
  rw [fromData_eq_some_iff]
  cases schema with
  | none =>
      have null : Ptr.isNull Ptr.null = true := rfl
      simp [getData_none, null]
  | some schema =>
      rw [getData_some]
      cases schema with
      | nil => simp
      | cons byte rest => simp [place.nonnull]

theorem partsKept_iff : PartsKept data ↔ data.schemaPtr.address.isNull = false := by
  rw [PartsKept]
  simp only [fromData_eq_some_iff, denotes_getData]
  constructor
  · rintro ⟨made, ⟨nonnull, -⟩, -⟩
    exact nonnull
  · intro nonnull
    refine ⟨_, ⟨nonnull, rfl⟩, fun _ => ?_⟩
    rw [EncodingData.denotes, nonnull]
    cases data.schemaLen with
    | zero => simp
    | succ len => simp

/-- An encoding survives being taken apart exactly if it has a schema that is not empty, and
parts survive being put together exactly if their pointer is not null.
-/
theorem encoding_round_trips_iff (this : Encoding) (place : SchemaPlace) (data : EncodingData)
    : (zcInternalEncodingFromData (zcInternalEncodingGetData this place) = some this
        ↔ ∃ schema, this.schema = some schema ∧ schema ≠ [])
      ∧ (PartsKept data ↔ data.schemaPtr.address.isNull = false) :=
  ⟨fromData_getData_iff, partsKept_iff⟩

/-- Without a schema the parts hold the null pointer, where no slice is. -/
theorem absent_schema_not_rebuilt
    : ¬∀ (this : Encoding) (place : SchemaPlace) (data : EncodingData),
        zcInternalEncodingFromData (zcInternalEncodingGetData this place) = some this
        ∧ PartsKept data := by
  intro survives
  have rebuilt :=
    (survives { id := 0, schema := none } { address := 1, nonnull := rfl }
      { id := 0, schemaPtr := { address := 1, bytes := [] }, schemaLen := 0 }).1
  exact absurd rebuilt (by decide)

end Encoding

end ZenohC
