import ZenohC.Api.KeyExpr

/-! The entry points that take a buffer as a pointer and a length.
Most of them form a Rust slice at once. There is none at the null pointer, whatever the length
is, so a call that forms it there has no result.
-/

namespace ZenohC

open Library

/-- What other crates make of the bytes and texts they are given. Writing leaves the writer
somewhere also when it fails.
-/
structure BufferCrates extends KeyExprCrate where
  serializeSlice : List UInt8 → List UInt8
  serializeStr : String → List UInt8
  concat : String → String → Except String String
  writeAll : List UInt8 → List UInt8 → Bool × List UInt8

namespace NullBuffers

variable (crates : BufferCrates)

def zeSerializeBuf (data : CharPtr) (len : Nat) : Option (Finished (List UInt8)) := do
  let slice ← data.fromRawParts len
  pure { code := zOk, reported := none, dst := crates.serializeSlice slice }

/-- A failure constructs the empty payload. -/
def zeSerializeSubstr (start : CharPtr) (len : Nat) : Option (Finished (List UInt8)) := do
  let slice ← start.fromRawParts len
  match decodeUtf8 slice with
  | some s => pure { code := zOk, reported := none, dst := crates.serializeStr s }
  | none => pure { code := zEutf8, reported := some (crates.utf8Error slice), dst := [] }

def zeSerializeStr (str : CharPtr) : Option (Finished (List UInt8)) :=
  zeSerializeSubstr crates str str.strlenOrZero

/-- `serialize` is what the crate makes of a serializer that is given a slice. -/
def zeSerializerSerializeBuf {σ : Type} (serialize : σ → List UInt8 → σ) (this : σ)
    (data : CharPtr) (len : Nat)
    : Option (Finished σ) := do
  let slice ← data.fromRawParts len
  pure { code := zOk, reported := none, dst := serialize this slice }

/-- A failure leaves the serializer as it was. -/
def zeSerializerSerializeSubstr {σ : Type} (serialize : σ → String → σ) (this : σ)
    (start : CharPtr) (len : Nat)
    : Option (Finished σ) := do
  let slice ← start.fromRawParts len
  match decodeUtf8 slice with
  | some s => pure { code := zOk, reported := none, dst := serialize this s }
  | none => pure { code := zEutf8, reported := some (crates.utf8Error slice), dst := this }

def zeSerializerSerializeStr {σ : Type} (serialize : σ → String → σ) (this : σ) (str : CharPtr)
    : Option (Finished σ) :=
  zeSerializerSerializeSubstr crates serialize this str str.strlenOrZero

/-- A serializer by its bytes, after a slice or a text. -/
def appendSlice (this slice : List UInt8) : List UInt8 :=
  this ++ crates.serializeSlice slice

def appendStr (this : List UInt8) (s : String) : List UInt8 :=
  this ++ crates.serializeStr s

def zKeyexprIsCanon (start : CharPtr) (len : Nat) : Option BufferCall := do
  let _ ← start.fromRawParts len
  pure (KeyExpr.zKeyexprIsCanon crates.toKeyExprCrate start len)

/-- A hexadecimal digit. -/
def hexDigit (value : Nat) : Char :=
  "0123456789abcdef".toList.getD value '0'

/-- The format `{:02x?}` of bytes. -/
def debugHex (bytes : List UInt8) : String :=
  let byte (value : UInt8) : String :=
    String.ofList [hexDigit (value.toNat / 16), hexDigit (value.toNat % 16)]
  "[" ++ String.intercalate ", " (bytes.map byte) ++ "]"

/-- The gravestone is written on both error paths. -/
def zKeyexprConcat (left : String) (rightStart : CharPtr) (rightLen : Nat)
    : Option (Finished (Option String)) := do
  let right ← rightStart.fromRawParts rightLen
  match decodeUtf8 right with
  | none =>
      pure
        { code := zEinval
          reported :=
            some
              (s!"Couldn't concatenate {debugHex right} to {left} because it is not valid "
                ++ s!"UTF8: {crates.utf8Error right}")
          dst := none }
  | some right =>
      match crates.concat left right with
      | .ok result => pure { code := zOk, reported := none, dst := some result }
      | .error e => pure { code := zEgeneric, reported := some e, dst := none }

/-- The one entry point here that looks at the pointer first. -/
def zKeyexprFromSubstr (expr : CharPtr) (len : Nat) : Option KeyExprCall :=
  if expr.address.isNull then
    some { code := zEinval, reported := none, buffer := expr, len, this := none }
  else do
    let _ ← expr.fromRawParts len
    pure (KeyExpr.zKeyexprFromSubstr crates.toKeyExprCrate expr len)

def zBytesWriterWriteAll (this : List UInt8) (src : CharPtr) (len : Nat)
    : Option (Finished (List UInt8)) := do
  let slice ← src.fromRawParts len
  let (written, this) := crates.writeAll this slice
  pure { code := if written then zOk else zEio, reported := none, dst := this }

/-- The entry points that take a buffer, with the object that each works on. -/
inductive EntryPoint where
  | zeSerializeBuf
  | zeSerializeSubstr
  | zeSerializeStr
  | zeSerializerSerializeBuf (this : List UInt8)
  | zeSerializerSerializeSubstr (this : List UInt8)
  | zeSerializerSerializeStr (this : List UInt8)
  | zKeyexprIsCanon
  | zKeyexprConcat (left : String)
  | zKeyexprFromSubstr
  | zBytesWriterWriteAll (this : List UInt8)
  deriving DecidableEq, Repr

/-- What a call leaves besides its code. -/
inductive Product where
  | bytes (written : List UInt8)
  | keyexpr (this : Option String)
  | nothing
  deriving DecidableEq, Repr

/-- A call with a buffer; the entry points for strings find its length themselves. -/
def EntryPoint.call (start : CharPtr) (len : Nat) : EntryPoint → Option (Finished Product)
  | .zeSerializeBuf => (NullBuffers.zeSerializeBuf crates start len).map (Finished.map .bytes)
  | .zeSerializeSubstr =>
      (NullBuffers.zeSerializeSubstr crates start len).map (Finished.map .bytes)
  | .zeSerializeStr => (NullBuffers.zeSerializeStr crates start).map (Finished.map .bytes)
  | .zeSerializerSerializeBuf this =>
      (NullBuffers.zeSerializerSerializeBuf (appendSlice crates) this start len).map
        (Finished.map .bytes)
  | .zeSerializerSerializeSubstr this =>
      (NullBuffers.zeSerializerSerializeSubstr crates (appendStr crates) this start len).map
        (Finished.map .bytes)
  | .zeSerializerSerializeStr this =>
      (NullBuffers.zeSerializerSerializeStr crates (appendStr crates) this start).map
        (Finished.map .bytes)
  | .zKeyexprIsCanon =>
      (NullBuffers.zKeyexprIsCanon crates start len).map fun call =>
        { code := call.code, reported := call.reported, dst := .nothing }
  | .zKeyexprConcat left =>
      (NullBuffers.zKeyexprConcat crates left start len).map (Finished.map .keyexpr)
  | .zKeyexprFromSubstr =>
      (NullBuffers.zKeyexprFromSubstr crates start len).map fun call =>
        { code := call.code, reported := call.reported, dst := .keyexpr call.this }
  | .zBytesWriterWriteAll this =>
      (NullBuffers.zBytesWriterWriteAll crates this start len).map (Finished.map .bytes)

/-- The call has a result, and if the pointer is null it is an error or the result of the
empty buffer.
-/
def NullHandled (entry : EntryPoint) (start : CharPtr) (len : Nat) : Prop :=
  ∃ finished,
    entry.call crates start len = some finished
    ∧ (start.address.isNull = true
      → finished.code < 0
        ∨ ∀ address : Ptr,
            address.isNull = false
            → entry.call crates { address, bytes := [0] } 0 = some finished)

variable {crates} {start : CharPtr} {len : Nat}

/-- What goes on with a slice has a result if and only if there is a slice. -/
theorem isSome_bind_fromRawParts {α : Type} {rest : List UInt8 → Option α}
    (total : ∀ slice, (rest slice).isSome = true)
    : (start.fromRawParts len >>= rest).isSome = !start.address.isNull := by
  rw [CharPtr.fromRawParts]
  cases start.address.isNull with
  | true => rfl
  | false => exact total (start.bytes.take len)

@[simp]
theorem zeSerializeBuf_isSome
    : (zeSerializeBuf crates start len).isSome = !start.address.isNull :=
  isSome_bind_fromRawParts fun _ => rfl

@[simp]
theorem zeSerializeSubstr_isSome
    : (zeSerializeSubstr crates start len).isSome = !start.address.isNull := by
  apply isSome_bind_fromRawParts
  intro slice
  cases decodeUtf8 slice <;> rfl

@[simp]
theorem zeSerializerSerializeBuf_isSome {σ : Type} {serialize : σ → List UInt8 → σ} {this : σ}
    : (zeSerializerSerializeBuf serialize this start len).isSome = !start.address.isNull :=
  isSome_bind_fromRawParts fun _ => rfl

@[simp]
theorem zeSerializerSerializeSubstr_isSome {σ : Type} {serialize : σ → String → σ} {this : σ}
    : (zeSerializerSerializeSubstr crates serialize this start len).isSome
      = !start.address.isNull := by
  apply isSome_bind_fromRawParts
  intro slice
  cases decodeUtf8 slice <;> rfl

@[simp]
theorem zKeyexprIsCanon_isSome
    : (zKeyexprIsCanon crates start len).isSome = !start.address.isNull :=
  isSome_bind_fromRawParts fun _ => rfl

@[simp]
theorem zKeyexprConcat_isSome {left : String}
    : (zKeyexprConcat crates left start len).isSome = !start.address.isNull := by
  apply isSome_bind_fromRawParts
  intro slice
  cases decodeUtf8 slice with
  | none => rfl
  | some right =>
      simp only
      cases crates.concat left right <;> rfl

@[simp]
theorem zBytesWriterWriteAll_isSome {this : List UInt8}
    : (zBytesWriterWriteAll crates this start len).isSome = !start.address.isNull :=
  isSome_bind_fromRawParts fun _ => rfl

@[simp]
theorem zKeyexprFromSubstr_isSome : (zKeyexprFromSubstr crates start len).isSome = true := by
  rw [zKeyexprFromSubstr, CharPtr.fromRawParts]
  cases start.address.isNull <;> rfl

/-- Whatever its length, a buffer at the null pointer has a result at one entry point only. -/
theorem call_isSome {entry : EntryPoint}
    : (entry.call crates start len).isSome
      = (!start.address.isNull || entry == .zKeyexprFromSubstr) := by
  cases entry <;> simp [EntryPoint.call, zeSerializeStr, zeSerializerSerializeStr]

/-- The null pointer is handled exactly where a buffer is given, and by the constructor that
looks at the pointer.
-/
theorem null_handled_iff (crates : BufferCrates) (entry : EntryPoint) (start : CharPtr)
    (len : Nat)
    : NullHandled crates entry start len
      ↔ start.address.isNull = false ∨ entry = .zKeyexprFromSubstr := by
  have defined_iff : (entry.call crates start len).isSome = true
      ↔ start.address.isNull = false ∨ entry = .zKeyexprFromSubstr := by
    simp [call_isSome]
  constructor
  · rintro ⟨finished, called, -⟩
    exact defined_iff.mp (Option.isSome_of_eq_some called)
  · intro handled
    obtain ⟨finished, called⟩ := Option.isSome_iff_exists.mp (defined_iff.mpr handled)
    refine ⟨finished, called, fun null => .inl ?_⟩
    rcases handled with nonnull | rfl
    · rw [null] at nonnull
      cases nonnull
    · simp only [EntryPoint.call, zKeyexprFromSubstr, null, if_true, Option.map_some,
        Option.some.injEq] at called
      rw [← called]
      exact (by decide : zEinval < 0)

/-- Crates that keep every byte and every text as it is. -/
def plainCrates : BufferCrates where
  canonize := id
  canonizeMut := fun text => (text, [])
  new := fun _ => .ok ()
  tryFrom := .ok
  autocanonize := .ok
  utf8Error := fun _ => "invalid utf-8 sequence"
  serializeSlice := id
  serializeStr := utf8
  concat := fun left right => .ok (left ++ right)
  writeAll := fun written slice => (true, written ++ slice)

/-- The length of an absent string is zero, and its slice is formed all the same. -/
theorem absent_string_sliced
    : ¬∀ (crates : BufferCrates) (entry : EntryPoint) (start : CharPtr) (len : Nat),
        (start.address.isNull = true → len = 0) → NullHandled crates entry start len := by
  intro handled
  obtain ⟨finished, called, -⟩ :=
    handled plainCrates .zeSerializeStr { address := Ptr.null, bytes := [] } 0 (fun _ => rfl)
  have undefined
      : EntryPoint.zeSerializeStr.call plainCrates { address := Ptr.null, bytes := [] } 0
        = none :=
    rfl
  rw [undefined] at called
  cases called

end NullBuffers

end ZenohC
