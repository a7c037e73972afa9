import ZenohC.Api.Constructed
import ZenohC.Api.Query
import ZenohC.Library.Utf8Bytes

/-! Key expressions from buffers of the caller.
The copying entry points canonize a copy, the aliasing ones the caller's own bytes. What is
valid and what is canon is decided by the crate of the key expressions, which is a parameter.
-/

namespace ZenohC

open Library

/-- What the crate answers. `canonizeMut` works on the slice itself: the text that is left of
it, and the bytes that then stand behind the text.
-/
structure KeyExprCrate where
  canonize : String → String
  canonizeMut : String → String × List UInt8
  new : String → Except String Unit
  tryFrom : String → Except String String
  autocanonize : String → Except String String
  utf8Error : List UInt8 → String

/-- `strlen_or_zero`, on memory in which a string is terminated. -/
def CharPtr.strlenOrZero (text : CharPtr) : Nat :=
  if text.address.isNull then 0 else (text.bytes.takeWhile (· != 0)).length

/-- The memory after the first `len` bytes have been overwritten by as many others. -/
def CharPtr.withSlice (start : CharPtr) (len : Nat) (slice : List UInt8) : CharPtr :=
  { start with bytes := slice ++ start.bytes.drop len }

/-- A call on a buffer: the code, what is reported, and the buffer and `*len` afterwards. -/
structure BufferCall where
  code : ZResult
  reported : Option String
  buffer : CharPtr
  len : Nat
  deriving DecidableEq, Repr

/-- A call that also writes a key expression, or the gravestone, on every path. -/
structure KeyExprCall extends BufferCall where
  this : Option String
  deriving DecidableEq, Repr

namespace KeyExpr

variable (crate : KeyExprCrate)

/-- `keyexpr_create_inner`, with the bytes of the slice afterwards. -/
def keyexprCreateInner (name : String) (shouldAutoCanonize shouldCopy : Bool)
    : Except String String × List UInt8 :=
  if shouldCopy then
    (if shouldAutoCanonize then crate.autocanonize name else crate.tryFrom name, utf8 name)
  else if shouldAutoCanonize then
    let (text, behind) := crate.canonizeMut name
    ((crate.new text).map fun _ => text, utf8 text ++ behind)
  else ((crate.new name).map fun _ => name, utf8 name)

/-- `keyexpr_create`, with the bytes of the slice afterwards. -/
def keyexprCreate (name : List UInt8) (shouldAutoCanonize shouldCopy : Bool)
    : Except Refusal String × List UInt8 :=
  match decodeUtf8 name with
  | some text =>
      let (created, slice) := keyexprCreateInner crate text shouldAutoCanonize shouldCopy
      (created.mapError fun error =>
        { code := zEinval, reported := some s!"Couldn't construct keyexpr: {error}" }, slice)
  | none =>
      (.error
        { code := zEparse
          reported :=
            some s!"Key expression is not a valid utf-8 string: {crate.utf8Error name}" }, name)

/-- The body of the constructors from a substring. -/
def fromSubstr (shouldAutoCanonize shouldCopy : Bool) (start : CharPtr) (len : Nat)
    : KeyExprCall :=
  if start.address.isNull then
    { code := zEinval, reported := none, buffer := start, len, this := none }
  else
    let (created, slice) :=
      keyexprCreate crate (start.bytes.take len) shouldAutoCanonize shouldCopy
    let buffer := start.withSlice len slice
    match created with
    | .ok ke =>
        { code := zOk
          reported := none
          buffer
          len := if shouldAutoCanonize then (utf8 ke).length else len
          this := some ke }
    | .error refusal =>
        { code := refusal.code, reported := refusal.reported, buffer, len, this := none }

def zKeyexprFromSubstr (expr : CharPtr) (len : Nat) : KeyExprCall :=
  fromSubstr crate false true expr len

def zViewKeyexprFromSubstr (expr : CharPtr) (len : Nat) : KeyExprCall :=
  fromSubstr crate false false expr len

def zKeyexprFromSubstrAutocanonize (start : CharPtr) (len : Nat) : KeyExprCall :=
  fromSubstr crate true true start len

def zViewKeyexprFromSubstrAutocanonize (start : CharPtr) (len : Nat) : KeyExprCall :=
  fromSubstr crate true false start len

def zKeyexprFromStrAutocanonize (expr : CharPtr) : KeyExprCall :=
  zKeyexprFromSubstrAutocanonize crate expr expr.strlenOrZero

/-- The terminator is written behind the text when the call succeeds. -/
def terminate (call : BufferCall) : BufferCall :=
  if call.code = zOk then
    { call with buffer := { call.buffer with bytes := call.buffer.bytes.set call.len 0 } }
  else call

def zViewKeyexprFromStrAutocanonize (expr : CharPtr) : KeyExprCall :=
  let call := zViewKeyexprFromSubstrAutocanonize crate expr expr.strlenOrZero
  { call with toBufferCall := terminate call.toBufferCall }

/-- `z_keyexpr_is_canon` has no null check. -/
def zKeyexprIsCanon (start : CharPtr) (len : Nat) : BufferCall :=
  let (created, slice) := keyexprCreate crate (start.bytes.take len) false false
  let buffer := start.withSlice len slice
  match created with
  | .ok _ => { code := zOk, reported := none, buffer, len }
  | .error refusal => { code := refusal.code, reported := refusal.reported, buffer, len }

def zKeyexprCanonize (start : CharPtr) (len : Nat) : BufferCall :=
  if start.address.isNull then
    { code := zEinval
      reported := some "Key expression can not be constructed from null string"
      buffer := start
      len }
  else
    let (created, slice) := keyexprCreate crate (start.bytes.take len) true false
    let buffer := start.withSlice len slice
    match created with
    | .ok ke => { code := zOk, reported := none, buffer, len := (utf8 ke).length }
    | .error refusal => { code := refusal.code, reported := refusal.reported, buffer, len }

def zKeyexprCanonizeNullTerminated (start : CharPtr) : BufferCall :=
  terminate (zKeyexprCanonize crate start start.strlenOrZero)

end KeyExpr

end ZenohC
