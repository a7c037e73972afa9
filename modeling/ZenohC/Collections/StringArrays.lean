import ZenohC.Collections.CSlice
import ZenohC.Library.Machine
import ZenohC.Library.Memory

/-! String arrays and the memory that their elements show.
An element is a C string, which is a C slice: a copied one owns a box of its own, an aliased one
shows memory of the program. The rest of the program takes buffers into use and gives them back.
-/

namespace ZenohC

open Library

namespace CSlice

/-- The addresses whose bytes a slice shows. -/
def region (slice : CSlice) : Span :=
  { start := slice.data, len := slice.len }

/-- `CSlice::slice`, which reads nothing when the length is zero. -/
def slice (memory : Memory UInt8) (this : CSlice) : Option (List UInt8) :=
  if this.len == 0 then some [] else memory.read this.region

/-- The box that dropping a slice frees: `_z_drop_c_slice_default` finds its length in the
context.
-/
def box (slice : CSlice) : Option Span :=
  match slice.dropCall with
  | some { deleter := .zDropCSliceDefault, data, context } =>
      some { start := data, len := context }
  | _ => none

/-- `Clone for CSlice` and `clone_to_owned`, with the memory in which the copy is made. -/
def copy (memory : Memory UInt8) (slice : CSlice) (fresh : Ptr)
    : Option (CSlice × Memory UInt8) :=
  if slice.len == 0 then some (slice.clone fresh, memory)
  else do
    let bytes ← memory.read slice.region
    pure (slice.clone fresh, memory.place fresh bytes)

def free (memory : Memory UInt8) (slice : CSlice) : Memory UInt8 :=
  match slice.box with
  | some box => memory.release box
  | none => memory

end CSlice

/-- `ZVector`, whose elements are slices behind the type of strings. -/
abbrev ZVector := List CSlice

def zStringArrayNew : ZVector :=
  []

def zStringArrayLen (this : ZVector) : Nat :=
  this.length

/-- An element, or `NULL`. -/
def zStringArrayGet (this : ZVector) (index : Nat) : Option CSlice :=
  if index ≥ this.length then none else this[index]?

/-- The new length, with the array and the memory afterwards. -/
def zStringArrayPushByCopy (memory : Memory UInt8) (this : ZVector) (value : CSlice)
    (fresh : Ptr)
    : Option (Nat × ZVector × Memory UInt8) := do
  let (v, memory) ← value.copy memory fresh
  let this := this ++ [v]
  pure (this.length, this, memory)

def zStringArrayPushByAlias (this : ZVector) (value : CSlice) : Nat × ZVector :=
  let this := this ++ [value.cloneToBorrowed]
  (this.length, this)

/-- The clone of a vector clones its elements in order; each copy gets a box of its own. -/
def zStringArrayClone (memory : Memory UInt8)
    : ZVector → List Ptr → Option (ZVector × Memory UInt8)
  | [], _ => some ([], memory)
  | _ :: _, [] => none
  | slice :: rest, fresh :: places => do
      let (copied, memory) ← slice.copy memory fresh
      let (copies, memory) ← zStringArrayClone memory rest places
      pure (copied :: copies, memory)

/-- The vector is taken and dropped with its elements; the empty one stays. -/
def zStringArrayDrop (memory : Memory UInt8) (this : ZVector) : ZVector × Memory UInt8 :=
  ([], this.foldl CSlice.free memory)

namespace StringArrays

/-- The arrays of the program, and the memory. -/
structure Store where
  memory : Memory UInt8
  arrays : List ZVector

/-- The calls on string arrays with what the allocator hands out for them, and what the rest
of the program does to the memory. A value is any string that the caller has a loan of.
-/
inductive Event where
  | zStringArrayNew
  | zStringArrayPushByCopy (array : Nat) (value : CSlice) (fresh : Ptr)
  | zStringArrayPushByAlias (array : Nat) (value : CSlice)
  | zStringArrayClone (array : Nat) (fresh : List Ptr)
  | zStringArrayDrop (array : Nat)
  | provide (start : Ptr) (bytes : List UInt8)
  | withdraw (span : Span)
  deriving DecidableEq, Repr

def Store.step (store : Store) : Event → Option Store
  | .zStringArrayNew => some { store with arrays := store.arrays ++ [ZenohC.zStringArrayNew] }
  | .zStringArrayPushByCopy array value fresh => do
      let this ← store.arrays[array]?
      let (_, this, memory) ← ZenohC.zStringArrayPushByCopy store.memory this value fresh
      pure { memory, arrays := store.arrays.set array this }
  | .zStringArrayPushByAlias array value => do
      let this ← store.arrays[array]?
      let (_, this) := ZenohC.zStringArrayPushByAlias this value
      pure { store with arrays := store.arrays.set array this }
  | .zStringArrayClone array fresh => do
      let this ← store.arrays[array]?
      let (dst, memory) ← ZenohC.zStringArrayClone store.memory this fresh
      pure { memory, arrays := store.arrays ++ [dst] }
  | .zStringArrayDrop array => do
      let this ← store.arrays[array]?
      let (this, memory) := ZenohC.zStringArrayDrop store.memory this
      pure { memory, arrays := store.arrays.set array this }
  | .provide start bytes => some { store with memory := store.memory.place start bytes }
  | .withdraw span => some { store with memory := store.memory.release span }

-----------------------------------------------------------------------------------------
-- What the arrays are for
-----------------------------------------------------------------------------------------

/-- The list model: each array is a list of byte strings. -/
abbrev Model := List (List (List UInt8))

/-- What a call does to the lists, given the memory in which its value is read. -/
def Event.onModel (memory : Memory UInt8) (model : Model) : Event → Model
  | .zStringArrayNew => model ++ [[]]
  | .zStringArrayPushByCopy array value _ | .zStringArrayPushByAlias array value =>
      model.set array (model[array]?.getD [] ++ [(value.slice memory).getD []])
  | .zStringArrayClone array _ => model ++ [model[array]?.getD []]
  | .zStringArrayDrop array => model.set array []
  | .provide _ _ | .withdraw _ => model

/-- The boxes for the copies of a vector. -/
def boxesFor (this : ZVector) (fresh : List Ptr) : List Span :=
  List.zipWith (fun slice place => { start := place, len := slice.len }) this fresh

/-- What the caller and the allocator keep to. Values can be read, and what is handed out is
not in use. A buffer that an element shows is given back only after its array: by the program
neither while an alias shows it, nor where it is the box of a copy, and with an array only
boxes that no other array shows by alias.
-/
def Legal (store : Store) : Event → Prop
  | .zStringArrayNew => True
  | .zStringArrayPushByCopy array value fresh =>
      array < store.arrays.length
      ∧ (value.slice store.memory).isSome = true
      ∧ store.memory.Free { start := fresh, len := value.len }
  | .zStringArrayPushByAlias array value =>
      array < store.arrays.length ∧ (value.slice store.memory).isSome = true
  | .zStringArrayClone array fresh =>
      array < store.arrays.length
      ∧ fresh.length = (store.arrays[array]?.getD []).length
      ∧ (∀ box ∈ boxesFor (store.arrays[array]?.getD []) fresh, store.memory.Free box)
      ∧ (boxesFor (store.arrays[array]?.getD []) fresh).Pairwise Span.Apart
  | .zStringArrayDrop array =>
      array < store.arrays.length
      ∧ ∀ mine ∈ (store.arrays[array]?.getD []).filterMap CSlice.box,
          ∀ other ∈ (store.arrays.eraseIdx array).flatten,
            other.isOwned = false → other.region.Apart mine
  | .provide start bytes => store.memory.Free { start, len := bytes.length }
  | .withdraw span => ∀ slice ∈ store.arrays.flatten, slice.region.Apart span

instance (store : Store) : (event : Event) → Decidable (Legal store event)
  | .zStringArrayNew => inferInstanceAs (Decidable True)
  | .zStringArrayPushByCopy _ _ _ => inferInstanceAs (Decidable (_ ∧ _ ∧ Memory.Free _ _))
  | .zStringArrayPushByAlias _ _ => inferInstanceAs (Decidable (_ ∧ _))
  | .zStringArrayClone _ _ =>
      inferInstanceAs (Decidable (_ ∧ _ ∧ (∀ box ∈ _, Memory.Free _ box) ∧ List.Pairwise _ _))
  | .zStringArrayDrop _ =>
      inferInstanceAs
        (Decidable
          (_ ∧ ∀ mine ∈ List.filterMap _ _, ∀ other ∈ List.flatten _,
            CSlice.isOwned other = false → Span.Apart _ mine))
  | .provide _ _ => inferInstanceAs (Decidable (Memory.Free _ _))
  | .withdraw _ => inferInstanceAs (Decidable (∀ slice ∈ List.flatten _, Span.Apart _ _))

/-- The store and the list model side by side. -/
structure Joint where
  store : Store
  model : Model

def machine : Machine Joint Event where
  init := { store := { memory := Memory.empty, arrays := [] }, model := [] }
  step := fun joint event =>
    (joint.store.step event).map fun store =>
      { store, model := event.onModel joint.store.memory joint.model }

/-- Every event of a run is legal where it happens. -/
def LegalHere (joint : Joint) (event : Event) : Prop :=
  Legal joint.store event

instance (joint : Joint) (event : Event) : Decidable (LegalHere joint event) :=
  inferInstanceAs (Decidable (Legal joint.store event))

/-- The event is about this array, and is no clone of it. -/
def Event.Changes (array : Nat) : Event → Prop
  | .zStringArrayPushByCopy target _ _ => target = array
  | .zStringArrayPushByAlias target _ => target = array
  | .zStringArrayDrop target => target = array
  | _ => False

/-- A legal event that leaves an array alone. -/
def Spares (array : Nat) (joint : Joint) (event : Event) : Prop :=
  LegalHere joint event ∧ ¬event.Changes array

/-- What the elements of an array show. -/
def Store.contents (store : Store) (array : Nat) : Option (List (Option (List UInt8))) :=
  store.arrays[array]?.map (List.map (CSlice.slice store.memory))

/-- Length and elements are those of the lists, and there is no element behind the end. -/
structure Agrees (store : Store) (model : Model) : Prop where
  arrays : store.arrays.length = model.length
  len
    : ∀ (array : Nat) (this : ZVector) (strings : List (List UInt8)),
        store.arrays[array]? = some this
        → model[array]? = some strings
        → zStringArrayLen this = strings.length
  get
    : ∀ (array : Nat) (this : ZVector) (strings : List (List UInt8)),
        store.arrays[array]? = some this
        → model[array]? = some strings
        → ∀ index,
            (zStringArrayGet this index).map (CSlice.slice store.memory)
            = strings[index]?.map some

/-- A pushed copy shows what its argument shows, in memory of which nothing was in use before: no
buffer of the argument.
-/
structure PushedApart (before after : Store) (value copy : CSlice) : Prop where
  same : copy.slice after.memory = value.slice before.memory
  unused : before.memory.Free copy.region
  apart : value.region.Apart copy.region

/-- A clone shows what its source shows, in memory of which nothing was in use before: no
buffer of the source, and none that the source shows by alias.
-/
structure ClonedApart (before after : Store) (source clone : ZVector) : Prop where
  same : clone.map (CSlice.slice after.memory) = source.map (CSlice.slice before.memory)
  unused : ∀ copy ∈ clone, before.memory.Free copy.region
  apart : ∀ copy ∈ clone, ∀ slice ∈ source, slice.region.Apart copy.region

end StringArrays

end ZenohC
