import Mathlib.Algebra.GroupWithZero.Nat
import ZenohC.Collections.CSlice
import ZenohC.Library.SharedCells

/-! The C program's slots and the slice, string, string-array and bytes calls on them.
A constructor writes its destination without dropping what was there; what it overwrites is
kept in `forgotten`, which no call reads. Deleters run in the order of `calls`.
-/

namespace ZenohC

-----------------------------------------------------------------------------------------
-- Slots
-----------------------------------------------------------------------------------------

/-- An owned C slice, with the number of the construction it came from.
The number is history only: no call reads it.
-/
structure Owned where
  slice : CSlice
  origin : Nat
  deriving DecidableEq, Repr

/-- A deleter invocation, with the construction whose buffer it frees. -/
structure Release where
  origin : Nat
  call : DeleterCall
  deriving DecidableEq, Repr

/-- Dropping an owned slice makes at most one deleter call. -/
def Owned.releases (content : Owned) : List Release :=
  (content.slice.dropCall.map fun call => { origin := content.origin, call }).toList

def Owned.gravestone : Owned :=
  { slice := ZenohC.gravestone, origin := 0 }

/-- Slices and strings are the same struct behind differently named C types. -/
inductive TextKind where
  | slice
  | string
  deriving DecidableEq, Repr

/-- What a slot of the C program holds. `bytes` lists the shared slices of a `ZBytes`. -/
inductive Slot where
  | uninit
  | owned (kind : TextKind) (content : Owned)
  | view (kind : TextKind) (content : CSlice)
  | array (elements : List Owned)
  | bytes (buffers : List Nat)
  deriving DecidableEq, Repr

/-- The gravestone that a take leaves; views are not taken from. -/
def Slot.gravestone? : Slot → Option Slot
  | .owned kind _ => some (.owned kind Owned.gravestone)
  | .array _ => some (.array [])
  | .bytes _ => some (.bytes [])
  | .uninit | .view _ _ => none

/-- A C slice behind the reference count that the bytes values sharing it keep. -/
abbrev SharedSlice :=
  Library.SharedCell Owned

structure SliceStore where
  slots : List Slot
  forgotten : List Slot
  shared : List SharedSlice
  next : Nat
  calls : List Release
  deriving DecidableEq, Repr

/-- A borrowed string or slice: a loaned slot, or an element of a loaned string array. -/
inductive Loan where
  | slot (index : Nat)
  | element (array index : Nat)
  deriving DecidableEq, Repr

/-- A loaned bytes value: a slot, or one of `len` bytes that the crate lends, such as the payload
of a sample.
-/
inductive Payload where
  | slot (index : Nat)
  | lent (len : Nat)
  deriving DecidableEq, Repr

namespace SliceStore

def init : SliceStore :=
  { slots := [], forgotten := [], shared := [], next := 0, calls := [] }

-----------------------------------------------------------------------------------------
-- Writing, moving and dropping slots
-----------------------------------------------------------------------------------------

/-- `MaybeUninit::write` forgets the old content of the destination. -/
def construct (store : SliceStore) (dst : Nat) (content : Slot) : Option SliceStore :=
  store.slots[dst]?.map fun old =>
    { store with
      slots := store.slots.set dst content
      forgotten := store.forgotten ++ [old] }

def dropOwned (store : SliceStore) (content : Owned) : SliceStore :=
  { store with calls := store.calls ++ content.releases }

/-- Dropping one reference frees the slice with the last of them. -/
def releaseBuffer (store : SliceStore) (buffer : Nat) : SliceStore :=
  match store.shared[buffer]? with
  | none => store
  | some cell =>
      let rest :=
        { store with
          shared := store.shared.set buffer { cell with refs := cell.refs - 1 } }
      if cell.refs == 1 then rest.dropOwned cell.content else rest

def retainBuffer (store : SliceStore) (buffer : Nat) : SliceStore :=
  match store.shared[buffer]? with
  | none => store
  | some cell =>
      { store with shared := store.shared.set buffer { cell with refs := cell.refs + 1 } }

/-- The generated `Drop` of each owned type, on a value already moved out of its slot. -/
def dropContent (store : SliceStore) : Slot → SliceStore
  | .owned _ content => store.dropOwned content
  | .array elements => elements.foldl dropOwned store
  | .bytes buffers => buffers.foldl releaseBuffer store
  | .uninit | .view _ _ => store

/-- `take_c_type` on a moved argument: read the slot and leave its gravestone. -/
def takeContent (store : SliceStore) (src : Nat) : Option (Slot × SliceStore) := do
  let content ← store.slots[src]?
  let tomb ← content.gravestone?
  some (content, { store with slots := store.slots.set src tomb })

/-- The generated inline `z_xxx_take`: `*this_ = x->_this`, then null `x->_this`. -/
def take (store : SliceStore) (dst src : Nat) : Option SliceStore := do
  let content ← store.slots[src]?
  let tomb ← content.gravestone?
  let old ← store.slots[dst]?
  some
    { store with
      slots := (store.slots.set dst content).set src tomb
      forgotten := store.forgotten ++ [old] }

/-- `z_slice_drop`, `z_string_drop`, `z_string_array_drop` and `z_bytes_drop`. -/
def drop (store : SliceStore) (target : Nat) : Option SliceStore :=
  (store.takeContent target).map fun (content, rest) => rest.dropContent content

def loan (store : SliceStore) : Loan → Option CSlice
  | .slot index =>
      match store.slots[index]? with
      | some (.owned _ content) => some content.slice
      | some (.view _ slice) => some slice
      | _ => none
  | .element array index =>
      match store.slots[array]? with
      | some (.array elements) => elements[index]?.map Owned.slice
      | _ => none

-----------------------------------------------------------------------------------------
-- Slice and string constructors
-----------------------------------------------------------------------------------------

/-- The shape of every fallible slice or string constructor: write the new value, or its
gravestone with the error code.
-/
def constructOwned (store : SliceStore) (kind : TextKind) (dst : Nat)
    (made : Except Failure CSlice)
    : Option (ZResult × SliceStore) :=
  match made with
  | .ok slice =>
      ({ store with next := store.next + 1 }.construct dst
        (.owned kind { slice, origin := store.next })).map (zOk, ·)
  | .error failure =>
      (store.construct dst (.owned kind Owned.gravestone)).map (failure.code, ·)

def constructView (store : SliceStore) (kind : TextKind) (dst : Nat)
    (made : Except Failure CSlice)
    : Option (ZResult × SliceStore) :=
  match made with
  | .ok slice => (store.construct dst (.view kind slice)).map (zOk, ·)
  | .error failure =>
      (store.construct dst (.view kind ZenohC.gravestone)).map (failure.code, ·)

/-- `strlen_or_zero`, given what `strlen` finds at a non-null pointer. -/
def strlenOrZero (str : Ptr) (strlen : Nat) : Nat :=
  if str.isNull then 0 else strlen

variable (allocator : Allocator)

/-- The `write(s.into())` of a vector or string that the crate has made, of `len` bytes. -/
def constructBoxed (store : SliceStore) (kind : TextKind) (dst : Nat) (made : Except Failure Nat)
    : Option (ZResult × SliceStore) :=
  store.constructOwned kind dst
    (made.map fun len => CSlice.fromVec len (allocator.address store.next))

def zSliceEmpty (store : SliceStore) (dst : Nat) : Option SliceStore :=
  store.construct dst (.owned .slice Owned.gravestone)

def zInternalSliceNull (store : SliceStore) (dst : Nat) : Option SliceStore :=
  store.zSliceEmpty dst

def zStringEmpty (store : SliceStore) (dst : Nat) : Option SliceStore :=
  store.construct dst (.owned .string Owned.gravestone)

def zInternalStringNull (store : SliceStore) (dst : Nat) : Option SliceStore :=
  store.construct dst (.owned .string Owned.gravestone)

def zViewSliceEmpty (store : SliceStore) (dst : Nat) : Option SliceStore :=
  store.construct dst (.view .slice ZenohC.gravestone)

def zViewStringEmpty (store : SliceStore) (dst : Nat) : Option SliceStore :=
  store.construct dst (.view .string ZenohC.gravestone)

def zSliceCopyFromBuf (store : SliceStore) (dst : Nat) (start : Ptr) (len : Nat)
    : Option (ZResult × SliceStore) :=
  store.constructOwned .slice dst
    (CSlice.newOwned start len (allocator.address store.next))

def zSliceFromBuf (store : SliceStore) (dst : Nat) (data : Ptr) (len : Nat)
    (drop : Option Deleter) (context : Ptr)
    : Option (ZResult × SliceStore) :=
  store.constructOwned .slice dst (CSlice.new data len drop context)

def zStringCopyFromSubstr (store : SliceStore) (dst : Nat) (str : Ptr) (len : Nat)
    : Option (ZResult × SliceStore) :=
  store.constructOwned .string dst
    (CSlice.newOwned str len (allocator.address store.next))

def zStringCopyFromStr (store : SliceStore) (dst : Nat) (str : Ptr) (strlen : Nat)
    : Option (ZResult × SliceStore) :=
  store.zStringCopyFromSubstr allocator dst str (strlenOrZero str strlen)

def zStringFromStr (store : SliceStore) (dst : Nat) (str : Ptr) (strlen : Nat)
    (drop : Option Deleter) (context : Ptr)
    : Option (ZResult × SliceStore) :=
  store.constructOwned .string dst
    (CSlice.new str (strlenOrZero str strlen) drop context)

def zViewSliceFromBuf (store : SliceStore) (dst : Nat) (start : Ptr) (len : Nat)
    : Option (ZResult × SliceStore) :=
  store.constructView .slice dst (CSlice.newBorrowed start len)

def zViewStringFromSubstr (store : SliceStore) (dst : Nat) (str : Ptr) (len : Nat)
    : Option (ZResult × SliceStore) :=
  store.constructView .string dst (CSlice.newBorrowed str len)

def zViewStringFromStr (store : SliceStore) (dst : Nat) (str : Ptr) (strlen : Nat)
    : Option (ZResult × SliceStore) :=
  store.constructView .string dst (CSlice.newBorrowed str (strlenOrZero str strlen))

/-- The shape of `z_slice_clone` and `z_string_clone`. -/
def cloneInto (store : SliceStore) (kind : TextKind) (dst : Nat) (src : Loan)
    : Option SliceStore := do
  let slice ← store.loan src
  let made := .ok (slice.cloneToOwned (allocator.address store.next))
  (store.constructOwned kind dst made).map Prod.snd

def zSliceClone (store : SliceStore) (dst : Nat) (src : Loan) : Option SliceStore :=
  store.cloneInto allocator .slice dst src

def zStringClone (store : SliceStore) (dst : Nat) (src : Loan) : Option SliceStore :=
  store.cloneInto allocator .string dst src

-----------------------------------------------------------------------------------------
-- Bytes
-----------------------------------------------------------------------------------------

/-- `ZBytes::from(CSlice)` shares the slice, or drops it at once when it is empty. -/
def zbytesFrom (store : SliceStore) (content : Owned) : List Nat × SliceStore :=
  if content.slice.isEmpty then ([], store.dropOwned content)
  else
    ([store.shared.length],
      { store with shared := store.shared ++ [{ content, refs := 1 }] })

/-- The shape of the bytes constructors that build a C slice first. -/
def constructBytes (store : SliceStore) (dst : Nat) (made : Except Failure CSlice)
    : Option (ZResult × SliceStore) :=
  match made with
  | .ok slice =>
      let (buffers, rest) :=
        { store with next := store.next + 1 }.zbytesFrom { slice, origin := store.next }
      (rest.construct dst (.bytes buffers)).map (zOk, ·)
  | .error _ => (store.construct dst (.bytes [])).map (zEinval, ·)

def zBytesEmpty (store : SliceStore) (dst : Nat) : Option SliceStore :=
  store.construct dst (.bytes [])

/-- The shape of `z_bytes_from_slice` and `z_bytes_from_string`. -/
def bytesFromOwned (store : SliceStore) (kind : TextKind) (dst src : Nat)
    : Option SliceStore := do
  let (content, taken) ← store.takeContent src
  match content with
  | .owned found content =>
      if found = kind then
        let (buffers, rest) := taken.zbytesFrom content
        rest.construct dst (.bytes buffers)
      else none
  | _ => none

def zBytesFromSlice (store : SliceStore) (dst src : Nat) : Option SliceStore :=
  store.bytesFromOwned .slice dst src

def zBytesFromString (store : SliceStore) (dst src : Nat) : Option SliceStore :=
  store.bytesFromOwned .string dst src

def zBytesFromBuf (store : SliceStore) (dst : Nat) (data : Ptr) (len : Nat)
    (deleter : Option Deleter) (context : Ptr)
    : Option (ZResult × SliceStore) :=
  store.constructBytes dst (CSlice.new data len deleter context)

def zBytesFromStaticBuf (store : SliceStore) (dst : Nat) (data : Ptr) (len : Nat)
    : Option (ZResult × SliceStore) :=
  store.constructBytes dst (CSlice.new data len none Ptr.null)

def zBytesCopyFromBuf (store : SliceStore) (dst : Nat) (data : Ptr) (len : Nat)
    : Option (ZResult × SliceStore) :=
  store.constructBytes dst (CSlice.newOwned data len (allocator.address store.next))

def zBytesFromStr (store : SliceStore) (dst : Nat) (str : Ptr) (strlen : Nat)
    (deleter : Option Deleter) (context : Ptr)
    : Option (ZResult × SliceStore) :=
  store.constructBytes dst (CSlice.new str (strlenOrZero str strlen) deleter context)

def zBytesFromStaticStr (store : SliceStore) (dst : Nat) (str : Ptr) (strlen : Nat)
    : Option (ZResult × SliceStore) :=
  store.constructBytes dst (CSlice.new str (strlenOrZero str strlen) none Ptr.null)

def zBytesCopyFromStr (store : SliceStore) (dst : Nat) (str : Ptr) (strlen : Nat)
    : Option (ZResult × SliceStore) :=
  store.constructBytes dst
    (CSlice.newOwned str (strlenOrZero str strlen) (allocator.address store.next))

/-- `z_bytes_copy_from_slice` and `z_bytes_copy_from_string`. -/
def zBytesCopyFromLoaned (store : SliceStore) (dst : Nat) (src : Loan)
    : Option SliceStore := do
  let slice ← store.loan src
  let made := .ok (slice.cloneToOwned (allocator.address store.next))
  (store.constructBytes dst made).map Prod.snd

/-- A shallow copy: every shared slice gains one reference. -/
def zBytesClone (store : SliceStore) (dst src : Nat) : Option SliceStore :=
  match store.slots[src]? with
  | some (.bytes buffers) =>
      (buffers.foldl retainBuffer store).construct dst (.bytes buffers)
  | _ => none

/-- The length of a bytes value is that of its slices together. -/
def bytesLen (store : SliceStore) (buffers : List Nat) : Nat :=
  (buffers.map fun buffer =>
    (store.shared[buffer]?.map fun cell => cell.content.slice.len).getD 0).sum

def payloadLen (store : SliceStore) : Payload → Option Nat
  | .slot index =>
      match store.slots[index]? with
      | some (.bytes buffers) => some (store.bytesLen buffers)
      | _ => none
  | .lent len => some len

def zBytesToSlice (store : SliceStore) (src : Payload) (dst : Nat)
    : Option (ZResult × SliceStore) := do
  let len ← store.payloadLen src
  store.constructBoxed allocator .slice dst (.ok len)

/-- `decoded` is the verdict of `try_to_string`: nothing, or the text of its error. -/
def zBytesToString (store : SliceStore) (src : Payload) (dst : Nat)
    (decoded : Except String Unit)
    : Option (ZResult × SliceStore) := do
  let len ← store.payloadLen src
  store.constructBoxed allocator .string dst
    (match decoded with
    | .ok () => .ok len
    | .error text =>
        .error { code := zEinval, reported := "Failed to convert the payload: " ++ text })

-----------------------------------------------------------------------------------------
-- Strings and slices that the crate makes
-----------------------------------------------------------------------------------------

/-- The shape of the four functions that deserialize a slice or a string: `read` is what the
deserializer of the crate makes of the payload, the length or the text of its error.
-/
def deserializeInto (store : SliceStore) (kind : TextKind) (dst : Nat)
    (read : Except String Nat)
    : Option (ZResult × SliceStore) :=
  store.constructBoxed allocator kind dst
    (read.mapError fun text =>
      { code := zEdeserialize, reported := "Failed to deserialize the payload: " ++ text })

def zeDeserializeSlice (store : SliceStore) (dst : Nat) (read : Except String Nat)
    : Option (ZResult × SliceStore) :=
  store.deserializeInto allocator .slice dst read

def zeDeserializeString (store : SliceStore) (dst : Nat) (read : Except String Nat)
    : Option (ZResult × SliceStore) :=
  store.deserializeInto allocator .string dst read

def zeDeserializerDeserializeSlice (store : SliceStore) (dst : Nat) (read : Except String Nat)
    : Option (ZResult × SliceStore) :=
  store.deserializeInto allocator .slice dst read

def zeDeserializerDeserializeString (store : SliceStore) (dst : Nat) (read : Except String Nat)
    : Option (ZResult × SliceStore) :=
  store.deserializeInto allocator .string dst read

/-- `len` is the length of the text that the crate formats, here and below. -/
def zIdToString (store : SliceStore) (dst len : Nat) : Option SliceStore :=
  (store.constructBoxed allocator .string dst (.ok len)).map Prod.snd

def zLinkSrc (store : SliceStore) (dst len : Nat) : Option SliceStore :=
  (store.constructBoxed allocator .string dst (.ok len)).map Prod.snd

def zLinkDst (store : SliceStore) (dst len : Nat) : Option SliceStore :=
  (store.constructBoxed allocator .string dst (.ok len)).map Prod.snd

/-- What a link may lack is written as the gravestone. -/
def constructOptional (store : SliceStore) (dst : Nat) : Option Nat → Option SliceStore
  | some len => (store.constructBoxed allocator .string dst (.ok len)).map Prod.snd
  | none => store.construct dst (.owned .string Owned.gravestone)

def zLinkGroup (store : SliceStore) (dst : Nat) (group : Option Nat) : Option SliceStore :=
  store.constructOptional allocator dst group

def zLinkAuthIdentifier (store : SliceStore) (dst : Nat) (identifier : Option Nat)
    : Option SliceStore :=
  store.constructOptional allocator dst identifier

/-- The code of the copy is not looked at. -/
def copyText (store : SliceStore) (dst : Nat) (text : Ptr) (len : Nat) : Option SliceStore :=
  (store.zStringCopyFromSubstr allocator dst text len).map Prod.snd

def zEncodingToString (store : SliceStore) (dst : Nat) (text : Ptr) (len : Nat)
    : Option SliceStore :=
  store.copyText allocator dst text len

/-- `keyText` is the verdict of `from_utf8` on the key, `value` what the configuration has. -/
def zcConfigGetFromSubstr (store : SliceStore) (key : Ptr) (keyText : Except String String)
    (value : Option (Ptr × Nat)) (dst : Nat)
    : Option (ZResult × SliceStore) :=
  if key.isNull then
    store.constructOwned .string dst
      (.error { code := zEinval, reported := "Key should not be null" })
  else
    match keyText, value with
    | .error text, _ =>
        store.constructOwned .string dst
          (.error
            { code := zEinval, reported := "Config key is not a valid utf-8 string: " ++ text })
    | .ok _, some (text, len) => (store.copyText allocator dst text len).map (zOk, ·)
    | .ok key, none =>
        store.constructOwned .string dst
          (.error
            { code := zEunavailable,
              reported := "No value was found in the config for key: '" ++ key ++ "'" })

/-- A null key has no length, and then the same refusal. -/
def zcConfigGetFromStr (store : SliceStore) (key : Ptr) (keyText : Except String String)
    (value : Option (Ptr × Nat)) (dst : Nat)
    : Option (ZResult × SliceStore) :=
  store.zcConfigGetFromSubstr allocator key keyText value dst

/-- `made` is the text of the configuration, or the text of the serializer's error. -/
def zcConfigToString (store : SliceStore) (made : Except String (Ptr × Nat)) (dst : Nat)
    : Option (ZResult × SliceStore) :=
  match made with
  | .ok (text, len) => (store.copyText allocator dst text len).map (zOk, ·)
  | .error text =>
      store.constructOwned .string dst
        (.error { code := zEparse, reported := "Config is not a valid json5: " ++ text })

-----------------------------------------------------------------------------------------
-- String arrays
-----------------------------------------------------------------------------------------

def zStringArrayNew (store : SliceStore) (dst : Nat) : Option SliceStore :=
  store.construct dst (.array [])

/-- Push an element in place; the result is the new length. -/
def pushElement (store : SliceStore) (array : Nat) (slice : CSlice)
    : Option (Nat × SliceStore) :=
  match store.slots[array]? with
  | some (.array elements) =>
      let pushed := elements ++ [{ slice, origin := store.next }]
      some (pushed.length,
        { store with
          slots := store.slots.set array (.array pushed)
          next := store.next + 1 })
  | _ => none

def zStringArrayPushByCopy (store : SliceStore) (array : Nat) (value : Loan)
    : Option (Nat × SliceStore) := do
  let slice ← store.loan value
  store.pushElement array (slice.cloneToOwned (allocator.address store.next))

def zStringArrayPushByAlias (store : SliceStore) (array : Nat) (value : Loan)
    : Option (Nat × SliceStore) := do
  let slice ← store.loan value
  store.pushElement array slice.cloneToBorrowed

/-- `Vec::clone` copies element by element, aliases included. -/
def cloneElements : Nat → List Owned → List Owned
  | _, [] => []
  | next, element :: rest =>
      { slice := element.slice.clone (allocator.address next), origin := next }
      :: cloneElements (next + 1) rest

def zStringArrayClone (store : SliceStore) (dst src : Nat) : Option SliceStore :=
  match store.slots[src]? with
  | some (.array elements) =>
      { store with next := store.next + elements.length }.construct dst
        (.array (cloneElements allocator store.next elements))
  | _ => none

-----------------------------------------------------------------------------------------
-- Programs
-----------------------------------------------------------------------------------------

/-- One call of a C program, or the declaration of one more slot variable.
Arguments are the C arguments; `strlen` is what `strlen` finds at a non-null string.
-/
inductive Call where
  | declare
  | zSliceEmpty (dst : Nat)
  | zInternalSliceNull (dst : Nat)
  | zStringEmpty (dst : Nat)
  | zInternalStringNull (dst : Nat)
  | zViewSliceEmpty (dst : Nat)
  | zViewStringEmpty (dst : Nat)
  | zSliceCopyFromBuf (dst : Nat) (start : Ptr) (len : Nat)
  | zSliceFromBuf (dst : Nat) (data : Ptr) (len : Nat) (drop : Option Deleter) (context : Ptr)
  | zStringCopyFromSubstr (dst : Nat) (str : Ptr) (len : Nat)
  | zStringCopyFromStr (dst : Nat) (str : Ptr) (strlen : Nat)
  | zStringFromStr (dst : Nat) (str : Ptr) (strlen : Nat) (drop : Option Deleter)
    (context : Ptr)
  | zViewSliceFromBuf (dst : Nat) (start : Ptr) (len : Nat)
  | zViewStringFromSubstr (dst : Nat) (str : Ptr) (len : Nat)
  | zViewStringFromStr (dst : Nat) (str : Ptr) (strlen : Nat)
  | zSliceClone (dst : Nat) (src : Loan)
  | zStringClone (dst : Nat) (src : Loan)
  | take (dst src : Nat)
  | drop (target : Nat)
  | zBytesEmpty (dst : Nat)
  | zBytesFromSlice (dst src : Nat)
  | zBytesFromString (dst src : Nat)
  | zBytesFromBuf (dst : Nat) (data : Ptr) (len : Nat) (deleter : Option Deleter)
    (context : Ptr)
  | zBytesFromStaticBuf (dst : Nat) (data : Ptr) (len : Nat)
  | zBytesCopyFromBuf (dst : Nat) (data : Ptr) (len : Nat)
  | zBytesFromStr (dst : Nat) (str : Ptr) (strlen : Nat) (deleter : Option Deleter)
    (context : Ptr)
  | zBytesFromStaticStr (dst : Nat) (str : Ptr) (strlen : Nat)
  | zBytesCopyFromStr (dst : Nat) (str : Ptr) (strlen : Nat)
  | zBytesCopyFromLoaned (dst : Nat) (src : Loan)
  | zBytesClone (dst src : Nat)
  | zBytesToSlice (src : Payload) (dst : Nat)
  | zBytesToString (src : Payload) (dst : Nat) (decoded : Except String Unit)
  | zeDeserializeSlice (dst : Nat) (read : Except String Nat)
  | zeDeserializeString (dst : Nat) (read : Except String Nat)
  | zeDeserializerDeserializeSlice (dst : Nat) (read : Except String Nat)
  | zeDeserializerDeserializeString (dst : Nat) (read : Except String Nat)
  | zIdToString (dst len : Nat)
  | zLinkSrc (dst len : Nat)
  | zLinkDst (dst len : Nat)
  | zLinkGroup (dst : Nat) (group : Option Nat)
  | zLinkAuthIdentifier (dst : Nat) (identifier : Option Nat)
  | zEncodingToString (dst : Nat) (text : Ptr) (len : Nat)
  | zcConfigGetFromStr (key : Ptr) (keyText : Except String String)
    (value : Option (Ptr × Nat)) (dst : Nat)
  | zcConfigGetFromSubstr (key : Ptr) (keyText : Except String String)
    (value : Option (Ptr × Nat)) (dst : Nat)
  | zcConfigToString (made : Except String (Ptr × Nat)) (dst : Nat)
  | zStringArrayNew (dst : Nat)
  | zStringArrayPushByCopy (array : Nat) (value : Loan)
  | zStringArrayPushByAlias (array : Nat) (value : Loan)
  | zStringArrayClone (dst src : Nat)

/-- Run one call; a function without a result code counts as returning `Z_OK`. -/
def exec (store : SliceStore) : Call → Option (ZResult × SliceStore)
  | .declare => some (zOk, { store with slots := store.slots ++ [.uninit] })
  | .zSliceEmpty dst => (store.zSliceEmpty dst).map (zOk, ·)
  | .zInternalSliceNull dst => (store.zInternalSliceNull dst).map (zOk, ·)
  | .zStringEmpty dst => (store.zStringEmpty dst).map (zOk, ·)
  | .zInternalStringNull dst => (store.zInternalStringNull dst).map (zOk, ·)
  | .zViewSliceEmpty dst => (store.zViewSliceEmpty dst).map (zOk, ·)
  | .zViewStringEmpty dst => (store.zViewStringEmpty dst).map (zOk, ·)
  | .zSliceCopyFromBuf dst start len => store.zSliceCopyFromBuf allocator dst start len
  | .zSliceFromBuf dst data len drop context => store.zSliceFromBuf dst data len drop context
  | .zStringCopyFromSubstr dst str len => store.zStringCopyFromSubstr allocator dst str len
  | .zStringCopyFromStr dst str strlen => store.zStringCopyFromStr allocator dst str strlen
  | .zStringFromStr dst str strlen drop context =>
      store.zStringFromStr dst str strlen drop context
  | .zViewSliceFromBuf dst start len => store.zViewSliceFromBuf dst start len
  | .zViewStringFromSubstr dst str len => store.zViewStringFromSubstr dst str len
  | .zViewStringFromStr dst str strlen => store.zViewStringFromStr dst str strlen
  | .zSliceClone dst src => (store.zSliceClone allocator dst src).map (zOk, ·)
  | .zStringClone dst src => (store.zStringClone allocator dst src).map (zOk, ·)
  | .take dst src => (store.take dst src).map (zOk, ·)
  | .drop target => (store.drop target).map (zOk, ·)
  | .zBytesEmpty dst => (store.zBytesEmpty dst).map (zOk, ·)
  | .zBytesFromSlice dst src => (store.zBytesFromSlice dst src).map (zOk, ·)
  | .zBytesFromString dst src => (store.zBytesFromString dst src).map (zOk, ·)
  | .zBytesFromBuf dst data len deleter context =>
      store.zBytesFromBuf dst data len deleter context
  | .zBytesFromStaticBuf dst data len => store.zBytesFromStaticBuf dst data len
  | .zBytesCopyFromBuf dst data len => store.zBytesCopyFromBuf allocator dst data len
  | .zBytesFromStr dst str strlen deleter context =>
      store.zBytesFromStr dst str strlen deleter context
  | .zBytesFromStaticStr dst str strlen => store.zBytesFromStaticStr dst str strlen
  | .zBytesCopyFromStr dst str strlen => store.zBytesCopyFromStr allocator dst str strlen
  | .zBytesCopyFromLoaned dst src =>
      (store.zBytesCopyFromLoaned allocator dst src).map (zOk, ·)
  | .zBytesClone dst src => (store.zBytesClone dst src).map (zOk, ·)
  | .zBytesToSlice src dst => store.zBytesToSlice allocator src dst
  | .zBytesToString src dst decoded => store.zBytesToString allocator src dst decoded
  | .zeDeserializeSlice dst read => store.zeDeserializeSlice allocator dst read
  | .zeDeserializeString dst read => store.zeDeserializeString allocator dst read
  | .zeDeserializerDeserializeSlice dst read =>
      store.zeDeserializerDeserializeSlice allocator dst read
  | .zeDeserializerDeserializeString dst read =>
      store.zeDeserializerDeserializeString allocator dst read
  | .zIdToString dst len => (store.zIdToString allocator dst len).map (zOk, ·)
  | .zLinkSrc dst len => (store.zLinkSrc allocator dst len).map (zOk, ·)
  | .zLinkDst dst len => (store.zLinkDst allocator dst len).map (zOk, ·)
  | .zLinkGroup dst group => (store.zLinkGroup allocator dst group).map (zOk, ·)
  | .zLinkAuthIdentifier dst identifier =>
      (store.zLinkAuthIdentifier allocator dst identifier).map (zOk, ·)
  | .zEncodingToString dst text len =>
      (store.zEncodingToString allocator dst text len).map (zOk, ·)
  | .zcConfigGetFromStr key keyText value dst =>
      store.zcConfigGetFromStr allocator key keyText value dst
  | .zcConfigGetFromSubstr key keyText value dst =>
      store.zcConfigGetFromSubstr allocator key keyText value dst
  | .zcConfigToString made dst => store.zcConfigToString allocator made dst
  | .zStringArrayNew dst => (store.zStringArrayNew dst).map (zOk, ·)
  | .zStringArrayPushByCopy array value =>
      (store.zStringArrayPushByCopy allocator array value).map fun (_, next) => (zOk, next)
  | .zStringArrayPushByAlias array value =>
      (store.zStringArrayPushByAlias array value).map fun (_, next) => (zOk, next)
  | .zStringArrayClone dst src => (store.zStringArrayClone allocator dst src).map (zOk, ·)

/-- Run one call and leave its result code to the caller. -/
def step (store : SliceStore) (call : Call) : Option SliceStore :=
  (store.exec allocator call).map Prod.snd

/-- Programs over the slots: any sequence of calls from a program without variables. -/
def machine : Library.Machine SliceStore Call where
  init := init
  step := step allocator

end SliceStore

end ZenohC
