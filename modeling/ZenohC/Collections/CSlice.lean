import ZenohC.Transmute

/-! The C slice: a buffer, its length, and an optional deleter with its context.
Owned, viewed and aliased buffers share this one struct; only `drop` tells them apart.
-/

namespace ZenohC

/-- A deleter is a C function pointer of the user, or the crate's own for boxed copies. -/
inductive Deleter where
  | user (function : Nat)
  | zDropCSliceDefault
  deriving DecidableEq, Repr

structure CSlice where
  data : Ptr
  len : Nat
  drop : Option Deleter
  context : Ptr
  deriving DecidableEq, Repr

/-- One invocation of a deleter, with the two pointers it receives. -/
structure DeleterCall where
  deleter : Deleter
  data : Ptr
  context : Ptr
  deriving DecidableEq, Repr

/-- Where the global allocator puts the boxes of copied buffers, in allocation order;
the address of a box is never null.
-/
structure Allocator where
  address : Nat → Ptr
  nonnull : ∀ index, address index ≠ Ptr.null

namespace CSlice

def newUnchecked (data : Ptr) (len : Nat) (drop : Option Deleter) (context : Ptr) : CSlice :=
  { data, len, drop, context }

def newBorrowedUnchecked (data : Ptr) (len : Nat) : CSlice :=
  newUnchecked data len none Ptr.null

def new (data : Ptr) (len : Nat) (drop : Option Deleter) (context : Ptr)
    : Except Failure CSlice :=
  if data.isNull && len > 0 then
    .error { code := zEinval, reported := "Non zero-length array should not be NULL" }
  else
    .ok (newUnchecked data len drop context)

def newBorrowed (data : Ptr) (len : Nat) : Except Failure CSlice :=
  if data.isNull && len > 0 then
    .error { code := zEinval, reported := "Non zero-length arra should not be NULL" }
  else
    .ok (newBorrowedUnchecked data len)

instance : Gravestone CSlice where
  gravestone := { data := Ptr.null, len := 0, drop := none, context := Ptr.null }
  isGravestone slice := slice.data.isNull
  gravestone_isGravestone := rfl

/-- A leaked box remembers its length in the context pointer. -/
def wrap (data : Ptr) (len : Nat) : CSlice :=
  newUnchecked data len (some .zDropCSliceDefault) len

/-- `fresh` is the address of the box that receives the copied bytes. -/
def newOwnedUnchecked (_data : Ptr) (len : Nat) (fresh : Ptr) : CSlice :=
  if len == 0 then gravestone else wrap fresh len

def newOwned (data : Ptr) (len : Nat) (fresh : Ptr) : Except Failure CSlice :=
  if data.isNull && len > 0 then
    .error { code := zEinval, reported := "Non zero-length array should not be NULL" }
  else
    .ok (newOwnedUnchecked data len fresh)

def isEmpty (slice : CSlice) : Bool :=
  slice.len == 0

def isOwned (slice : CSlice) : Bool :=
  slice.drop.isSome

def cloneToBorrowed (slice : CSlice) : CSlice :=
  newBorrowedUnchecked slice.data slice.len

def cloneToOwned (slice : CSlice) (fresh : Ptr) : CSlice :=
  newOwnedUnchecked slice.data slice.len fresh

/-- `Clone for CSlice` copies the bytes, whoever owned the original. -/
def clone (slice : CSlice) (fresh : Ptr) : CSlice :=
  newOwnedUnchecked slice.data slice.len fresh

/-- The address of a leaked empty box: dangling, aligned to one byte, and not null. -/
def danglingBox : Ptr := 1

/-- `From<Vec<u8>>` and `From<String>`: the box is wrapped also when it is empty. -/
def fromVec (len : Nat) (fresh : Ptr) : CSlice :=
  wrap (if len == 0 then danglingBox else fresh) len

/-- `Drop for CSlice`: the call that dropping the struct makes, if any. -/
def dropCall (slice : CSlice) : Option DeleterCall :=
  slice.drop.map fun deleter => { deleter, data := slice.data, context := slice.context }

@[simp]
theorem dropCall_gravestone : dropCall gravestone = none :=
  rfl

@[simp]
theorem dropCall_newBorrowedUnchecked (data : Ptr) (len : Nat)
    : (newBorrowedUnchecked data len).dropCall = none :=
  rfl

@[simp]
theorem dropCall_cloneToBorrowed (slice : CSlice) : slice.cloneToBorrowed.dropCall = none :=
  rfl

@[simp]
theorem dropCall_newUnchecked (data : Ptr) (len : Nat) (drop : Option Deleter) (context : Ptr)
    : (newUnchecked data len drop context).dropCall
      = drop.map (fun deleter => { deleter, data, context }) :=
  rfl

@[simp]
theorem dropCall_wrap (data : Ptr) (len : Nat)
    : (wrap data len).dropCall
      = some { deleter := .zDropCSliceDefault, data, context := len } :=
  rfl

theorem dropCall_newOwnedUnchecked (data : Ptr) (len : Nat) (fresh : Ptr)
    : (newOwnedUnchecked data len fresh).dropCall
      = if len == 0 then none
        else some { deleter := .zDropCSliceDefault, data := fresh, context := len } := by
  unfold newOwnedUnchecked
  split <;> rfl

theorem new_eq_ok_iff {data : Ptr} {len : Nat} {drop : Option Deleter} {context : Ptr}
    {slice : CSlice}
    : new data len drop context = .ok slice
      ↔ ¬(data.isNull && len > 0) ∧ newUnchecked data len drop context = slice := by
  unfold new
  split <;> simp_all

theorem newOwned_eq_ok_iff {data : Ptr} {len : Nat} {fresh : Ptr} {slice : CSlice}
    : newOwned data len fresh = .ok slice
      ↔ ¬(data.isNull && len > 0) ∧ newOwnedUnchecked data len fresh = slice := by
  unfold newOwned
  split <;> simp_all

end CSlice

end ZenohC
