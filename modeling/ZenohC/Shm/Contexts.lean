import ZenohC.Library.SharedCells
import ZenohC.Shm.Provider

/-! The contexts that a C program hands to the shared-memory entry points by value.
A raw context is a C struct and has no destructor: `delete_fn` runs when what it was
converted into, a `Context` or a `ThreadsafeContext`, goes away.
-/

namespace ZenohC

open Library (SharedCell)
open Library.SharedCells (share retain release)

-----------------------------------------------------------------------------------------
-- Slots and places
-----------------------------------------------------------------------------------------

/-- `zc_context_t` and `zc_threadsafe_context_t` are the same pair of pointers. -/
structure ZcContext where
  context : Ptr
  deleteFn : Nat
  deriving DecidableEq, Repr

/-- A context with the number of the call that it was passed to.
The number is history only: no call reads it.
-/
structure PassedContext where
  value : ZcContext
  origin : Nat
  deriving DecidableEq, Repr

/-- A user function that is handed a context: one of the callbacks, or `delete_fn`. -/
inductive ContextEvent where
  | callback (content : PassedContext)
  | delete (content : PassedContext)
  deriving DecidableEq, Repr

/-- A dynamic backend owns the context of its callbacks; a POSIX backend has none. -/
abbrev ProviderOf : ShmBackend → Type
  | .posix => Unit
  | .dynamic | .dynamicThreadsafe => PassedContext

def CSHMProvider.context? : CSHMProvider ProviderOf → Option PassedContext
  | .posix _ | .sharedPosix _ => none
  | .dynamic context | .dynamicThreadsafe context => some context

/-- A layout borrows its provider; the borrow is the slot that the provider lies in. -/
abbrev LayoutOf : ShmBackend → Type :=
  fun _ => Nat

/-- The layout that `alloc_layout` makes for the provider in `slot`. -/
def CSHMProvider.layoutAt (slot : Nat) : CSHMProvider ProviderOf → CSHMLayout LayoutOf
  | .posix _ | .sharedPosix _ => .posix slot
  | .dynamic _ => .dynamic slot
  | .dynamicThreadsafe _ => .dynamicThreadsafe slot

/-- The owned C types that a context can end up in. -/
inductive ShmKind where
  | provider
  | layout
  | ptrInSegment
  | chunkAllocResult
  | shmMut
  deriving DecidableEq, Repr

/-- What a slot of the C program holds. A pointer names the cell of its segment's context. -/
inductive ShmSlot where
  | uninit
  | provider (content : Option (CSHMProvider ProviderOf))
  | layout (content : Option (CSHMLayout LayoutOf))
  | ptrInSegment (content : Option (PtrInSegment Nat))
  | chunkAllocResult (content : Option (Except ZAllocError (AllocatedChunk Nat)))
  | shmMut (content : Option (PtrInSegment Nat))

def ShmSlot.kind? : ShmSlot → Option ShmKind
  | .uninit => none
  | .provider _ => some .provider
  | .layout _ => some .layout
  | .ptrInSegment _ => some .ptrInSegment
  | .chunkAllocResult _ => some .chunkAllocResult
  | .shmMut _ => some .shmMut

def ShmKind.gravestone : ShmKind → ShmSlot
  | .provider => .provider none
  | .layout => .layout none
  | .ptrInSegment => .ptrInSegment none
  | .chunkAllocResult => .chunkAllocResult none
  | .shmMut => .shmMut none

/-- What Rust holds on its own: a chunk that the crate was given, or a spawned allocation. -/
inductive ShmPlace where
  | chunk (data : PtrInSegment Nat)
  | task (provider : Nat) (resultContext : PassedContext) (called : Bool)

/-- What goes away together with one owner: a context, and a reference to a segment. -/
structure ShmBelongings where
  context : Option PassedContext
  ptr : Option (PtrInSegment Nat)
  deriving DecidableEq, Repr

def ShmBelongings.nothing : ShmBelongings :=
  { context := none, ptr := none }

def ShmSlot.belongings : ShmSlot → ShmBelongings
  | .provider (some found) => { context := found.context?, ptr := none }
  | .ptrInSegment content | .shmMut content => { context := none, ptr := content }
  | .chunkAllocResult (some (.ok chunk)) => { context := none, ptr := some chunk.data }
  | .uninit | .provider none | .layout _ | .chunkAllocResult none
  | .chunkAllocResult (some (.error _)) =>
      .nothing

def ShmPlace.belongings : Option ShmPlace → ShmBelongings
  | none => .nothing
  | some (.chunk data) => { context := none, ptr := some data }
  | some (.task _ resultContext _) => { context := some resultContext, ptr := none }

/-- `forgotten` keeps what constructors overwrote, `stranded` the raw contexts that went out
of scope; no call reads either. User functions run in the order of `log`.
-/
structure ShmStore where
  slots : List ShmSlot
  forgotten : List ShmSlot
  places : List (Option ShmPlace)
  segments : List (SharedCell PassedContext)
  next : Nat
  stranded : List PassedContext
  log : List ContextEvent

namespace ShmStore

def init : ShmStore :=
  { slots := [], forgotten := [], places := [], segments := [], next := 0, stranded := [],
    log := [] }

/-- A context arrives by value, still as the raw C struct. -/
def pass (store : ShmStore) (value : ZcContext) : PassedContext × ShmStore :=
  ({ value, origin := store.next }, { store with next := store.next + 1 })

/-- The end of a raw context: the C struct has no destructor. -/
def dropRaw (store : ShmStore) (content : PassedContext) : ShmStore :=
  { store with stranded := store.stranded ++ [content] }

/-- `Drop` of `Context` and of `ThreadsafeContext`. -/
def dropContext (store : ShmStore) (content : PassedContext) : ShmStore :=
  { store with log := store.log ++ [.delete content] }

def runCallback (store : ShmStore) (content : PassedContext) : ShmStore :=
  { store with log := store.log ++ [.callback content] }

/-- Dropping a pointer; the last one drops the context of its segment. -/
def dropPtr (store : ShmStore) (ptr : PtrInSegment Nat) : ShmStore :=
  let (content, segments) := release store.segments ptr.segment
  match content with
  | none => { store with segments }
  | some content => { store with segments }.dropContext content

def dropBelongings (store : ShmStore) (belongings : ShmBelongings) : ShmStore :=
  let rest :=
    match belongings.context with
    | none => store
    | some content => store.dropContext content
  match belongings.ptr with
  | none => rest
  | some ptr => rest.dropPtr ptr

/-- `MaybeUninit::write` forgets the old content of the destination. -/
def construct (store : ShmStore) (dst : Nat) (content : ShmSlot) : Option ShmStore :=
  store.slots[dst]?.map fun old =>
    { store with
      slots := store.slots.set dst content
      forgotten := store.forgotten ++ [old] }

/-- `take_rust_type` on a moved argument. -/
def takeContent (store : ShmStore) (src : Nat) : Option (ShmSlot × ShmStore) := do
  let content ← store.slots[src]?
  let kind ← content.kind?
  some (content, { store with slots := store.slots.set src kind.gravestone })

/-- The generated inline `z_xxx_take`. -/
def take (store : ShmStore) (dst src : Nat) : Option ShmStore := do
  let content ← store.slots[src]?
  let kind ← content.kind?
  let old ← store.slots[dst]?
  some
    { store with
      slots := (store.slots.set dst content).set src kind.gravestone
      forgotten := store.forgotten ++ [old] }

/-- `z_shm_provider_drop`, `z_precomputed_layout_drop`, `z_ptr_in_segment_drop`,
`z_chunk_alloc_result_drop` and `z_shm_mut_drop`.
-/
def drop (store : ShmStore) (target : Nat) : Option ShmStore :=
  (store.takeContent target).map fun (content, rest) => rest.dropBelongings content.belongings

/-- A loaned provider; loaning the gravestone is undefined. -/
def providerAt (store : ShmStore) (slot : Nat) : Option (CSHMProvider ProviderOf) :=
  match store.slots[slot]? with
  | some (.provider content) => content
  | _ => none

def layoutAt (store : ShmStore) (slot : Nat) : Option (CSHMLayout LayoutOf) :=
  match store.slots[slot]? with
  | some (.layout content) => content
  | _ => none

def zShmProviderNew (store : ShmStore) (this : Nat) (context : ZcContext) : Option ShmStore :=
  let (context, rest) := store.pass context
  rest.construct this (.provider (some (.dynamic context)))

def zShmProviderThreadsafeNew (store : ShmStore) (this : Nat) (context : ZcContext)
    : Option ShmStore :=
  let (context, rest) := store.pass context
  rest.construct this (.provider (some (.dynamicThreadsafe context)))

/-- `backend` is what the crate answers; an error leaves the destination alone. -/
def zShmProviderDefaultNew (store : ShmStore) (this : Nat) (backend : Except String Unit)
    : Option (ZResult × ShmStore) :=
  match backend with
  | .ok provider => (store.construct this (.provider (some (.posix provider)))).map (zOk, ·)
  | .error _ => some (zEinval, store)

/-- `z_posix_shm_provider_new` and `z_posix_shm_provider_with_layout_new`. -/
def zPosixShmProviderNew (store : ShmStore) (this : Nat) (backend : Except String Unit)
    : Option (ZResult × ShmStore) :=
  match backend with
  | .ok provider => (store.construct this (.provider (some (.posix provider)))).map (zOk, ·)
  | .error _ => (store.construct this (.provider none)).map (zEinval, ·)

/-- `z_obtain_shm_provider`; `obtained` is the session's provider, if it is there by then. -/
def zObtainShmProvider (store : ShmStore) (outProvider : Nat) (obtained : Option Unit)
    : Option (ZResult × ShmStore) :=
  match obtained with
  | some provider =>
      (store.construct outProvider (.provider (some (.sharedPosix provider)))).map (zOk, ·)
  | none => some (zEunavailable, store)

/-- Only a shared POSIX provider can be cloned. -/
def zSharedShmProviderClone (store : ShmStore) (dst this : Nat) : Option ShmStore :=
  match store.providerAt this with
  | some (.sharedPosix provider) =>
      store.construct dst (.provider (some (.sharedPosix provider)))
  | _ => none

/-- `alloc_layout`; `layout` is what the memory layout and the backend answer. -/
def allocLayout (store : ShmStore) (this provider : Nat) (layout : Except ZLayoutError Unit)
    : Option (ZResult × ShmStore) := do
  let found ← store.providerAt provider
  match layout with
  | .ok () => (store.construct this (.layout (some (found.layoutAt provider)))).map (zOk, ·)
  | .error _ => some (zEinval, store)

/-- The crate calls one of the backend's functions while it works for a loaned provider. -/
def useBackend (store : ShmStore) (provider : Nat) : Option ShmStore :=
  (store.providerAt provider).map fun found =>
    match found.context? with
    | none => store
    | some context => store.runCallback context

-----------------------------------------------------------------------------------------
-- Segments and chunks
-----------------------------------------------------------------------------------------

def zPtrInSegmentNew (store : ShmStore) (this : Nat) (ptr : Ptr) (segment : ZcContext)
    : Option ShmStore :=
  let (segment, rest) := store.pass segment
  { rest with segments := share rest.segments segment }.construct this
    (.ptrInSegment (some { ptr, segment := rest.segments.length }))

def zPtrInSegmentClone (store : ShmStore) (out this : Nat) : Option ShmStore :=
  match store.slots[this]? with
  | some (.ptrInSegment (some ptr)) =>
      { store with segments := retain store.segments ptr.segment }.construct out
        (.ptrInSegment (some ptr))
  | _ => none

/-- `TryFrom<z_allocated_chunk_t>` on the slot behind the moved pointer. A failure drops what
has been taken out of the slot.
-/
def convertChunk (store : ShmStore) (descriptpr : ZChunkDescriptor) (ptr : Nat)
    : Option (Option (AllocatedChunk Nat) × ShmStore) :=
  match store.slots[ptr]? with
  | some (.ptrInSegment content) =>
      let (chunk, slot) := ({ descriptpr, ptr := content } : ZAllocatedChunk Nat).tryInto
      let taken := { store with slots := store.slots.set ptr (.ptrInSegment slot) }
      match chunk with
      | none => some (none, taken.dropBelongings { context := none, ptr := content })
      | some chunk => some (some chunk, taken)
  | _ => none

/-- `mapped` is what the provider answers; it drops a chunk that it cannot map. -/
def zShmProviderMap (store : ShmStore) (outResult provider : Nat)
    (descriptpr : ZChunkDescriptor) (ptr : Nat) (mapped : Except String Unit)
    : Option (ZResult × ShmStore) := do
  let _ ← store.providerAt provider
  let (chunk, rest) ← store.convertChunk descriptpr ptr
  match chunk, mapped with
  | none, _ => some (zEinval, rest)
  | some chunk, .ok () => (rest.construct outResult (.shmMut (some chunk.data))).map (zOk, ·)
  | some chunk, .error _ => some (zEinval, rest.dropPtr chunk.data)

def zChunkAllocResultNewOk (store : ShmStore) (this : Nat) (descriptpr : ZChunkDescriptor)
    (ptr : Nat)
    : Option (ZResult × ShmStore) := do
  let (chunk, rest) ← store.convertChunk descriptpr ptr
  match chunk with
  | none => some (zEinval, rest)
  | some chunk =>
      (rest.construct this (.chunkAllocResult (some (.ok chunk)))).map (zOk, ·)

def zChunkAllocResultNewError (store : ShmStore) (this : Nat) (allocError : ZAllocError)
    : Option ShmStore :=
  store.construct this (.chunkAllocResult (some (.error allocError)))

/-- The crate takes an allocation result of a backend, or a buffer, from its slot. -/
def consume (store : ShmStore) (src : Nat) : Option ShmStore := do
  let (content, rest) ← store.takeContent src
  match content with
  | .chunkAllocResult _ | .shmMut _ =>
      some { rest with places := rest.places ++ [content.belongings.ptr.map .chunk] }
  | _ => none

/-- The crate turns a chunk that it holds into the buffer of an allocation result. -/
def giveBuffer (store : ShmStore) (place outResult : Nat) : Option ShmStore :=
  match store.places[place]? with
  | some (some (.chunk data)) =>
      { store with places := store.places.set place none }.construct outResult
        (.shmMut (some data))
  | _ => none

/-- `alloc_async_impl` spawns a task that owns the context of the result callback. -/
def allocAsyncImpl (store : ShmStore) (provider : Nat) (resultContext : PassedContext)
    : ShmStore :=
  { store with places := store.places ++ [some (.task provider resultContext false)] }

/-- `alloc_async` of a provider; its context has been converted by the caller. -/
def allocAsync (store : ShmStore) (provider : Nat) (resultContext : PassedContext)
    : Option (ZResult × ShmStore) :=
  (store.providerAt provider).map fun found =>
    match found with
    | .posix _ => (zOk, store.allocAsyncImpl provider resultContext)
    | .sharedPosix _ => (zOk, store.allocAsyncImpl provider resultContext)
    | .dynamic _ => (zEinval, store.dropContext resultContext)
    | .dynamicThreadsafe _ => (zOk, store.allocAsyncImpl provider resultContext)

/-- `z_shm_provider_alloc_gc_defrag_async`, and its aligned form. -/
def zShmProviderAllocGcDefragAsync (store : ShmStore) (provider : Nat)
    (resultContext : ZcContext)
    : Option (ZResult × ShmStore) :=
  let (resultContext, rest) := store.pass resultContext
  rest.allocAsync provider resultContext

/-- `alloc_async` of a precomputed layout; its context is still the raw struct, which only
`alloc_async_impl` converts.
-/
def allocAsyncLayout (store : ShmStore) (layout : Nat) (resultContext : PassedContext)
    : Option (ZResult × ShmStore) :=
  (store.layoutAt layout).map fun found =>
    match found with
    | .posix provider => (zOk, store.allocAsyncImpl provider resultContext)
    | .dynamic _ => (zEinval, store.dropRaw resultContext)
    | .dynamicThreadsafe provider => (zOk, store.allocAsyncImpl provider resultContext)

/-- Also called by the deprecated `z_alloc_layout_threadsafe_alloc_gc_defrag_async`. -/
def zPrecomputedLayoutThreadsafeAllocGcDefragAsync (store : ShmStore) (layout : Nat)
    (resultContext : ZcContext)
    : Option (ZResult × ShmStore) :=
  let (resultContext, rest) := store.pass resultContext
  rest.allocAsyncLayout layout resultContext

/-- A spawned allocation is over: its result goes to the result callback. -/
def finishAlloc (store : ShmStore) (place : Nat) : Option ShmStore :=
  match store.places[place]? with
  | some (some (.task provider resultContext false)) => do
      let rest ← store.useBackend provider
      some
        ({ rest with
            places :=
              rest.places.set place (some (.task provider resultContext true)) }.runCallback
          resultContext)
  | _ => none

/-- A chunk or a spawned allocation goes away; a runtime may drop a task at any time. -/
def dropPlace (store : ShmStore) (place : Nat) : Option ShmStore :=
  store.places[place]?.map fun content =>
    { store with places := store.places.set place none }.dropBelongings
      (ShmPlace.belongings content)

-----------------------------------------------------------------------------------------
-- Programs
-----------------------------------------------------------------------------------------

/-- One call of a C program, or one step of the crate or of a task that it spawned. -/
inductive ShmOperation where
  | declare
  | zInternalNull (this : Nat) (kind : ShmKind)
  | take (dst src : Nat)
  | drop (target : Nat)
  | zShmProviderNew (this : Nat) (context : ZcContext)
  | zShmProviderThreadsafeNew (this : Nat) (context : ZcContext)
  | zShmProviderDefaultNew (this : Nat) (backend : Except String Unit)
  | zPosixShmProviderNew (this : Nat) (backend : Except String Unit)
  | zObtainShmProvider (outProvider : Nat) (obtained : Option Unit)
  | zSharedShmProviderClone (dst this : Nat)
  | allocLayout (this provider : Nat) (layout : Except ZLayoutError Unit)
  | useBackend (provider : Nat)
  | zPtrInSegmentNew (this : Nat) (ptr : Ptr) (segment : ZcContext)
  | zPtrInSegmentClone (out this : Nat)
  | zShmProviderMap (outResult provider : Nat) (descriptpr : ZChunkDescriptor) (ptr : Nat)
    (mapped : Except String Unit)
  | zChunkAllocResultNewOk (this : Nat) (descriptpr : ZChunkDescriptor) (ptr : Nat)
  | zChunkAllocResultNewError (this : Nat) (allocError : ZAllocError)
  | consume (src : Nat)
  | giveBuffer (place outResult : Nat)
  | zShmProviderAllocGcDefragAsync (provider : Nat) (resultContext : ZcContext)
  | zPrecomputedLayoutThreadsafeAllocGcDefragAsync (layout : Nat)
    (resultContext : ZcContext)
  | finishAlloc (place : Nat)
  | dropPlace (place : Nat)

/-- Run one operation; a function without a result code counts as returning `Z_OK`. -/
def exec (store : ShmStore) : ShmOperation → Option (ZResult × ShmStore)
  | .declare => some (zOk, { store with slots := store.slots ++ [.uninit] })
  | .zInternalNull this kind => (store.construct this kind.gravestone).map (zOk, ·)
  | .take dst src => (store.take dst src).map (zOk, ·)
  | .drop target => (store.drop target).map (zOk, ·)
  | .zShmProviderNew this context => (store.zShmProviderNew this context).map (zOk, ·)
  | .zShmProviderThreadsafeNew this context =>
      (store.zShmProviderThreadsafeNew this context).map (zOk, ·)
  | .zShmProviderDefaultNew this backend => store.zShmProviderDefaultNew this backend
  | .zPosixShmProviderNew this backend => store.zPosixShmProviderNew this backend
  | .zObtainShmProvider outProvider obtained => store.zObtainShmProvider outProvider obtained
  | .zSharedShmProviderClone dst this => (store.zSharedShmProviderClone dst this).map (zOk, ·)
  | .allocLayout this provider layout => store.allocLayout this provider layout
  | .useBackend provider => (store.useBackend provider).map (zOk, ·)
  | .zPtrInSegmentNew this ptr segment =>
      (store.zPtrInSegmentNew this ptr segment).map (zOk, ·)
  | .zPtrInSegmentClone out this => (store.zPtrInSegmentClone out this).map (zOk, ·)
  | .zShmProviderMap outResult provider descriptpr ptr mapped =>
      store.zShmProviderMap outResult provider descriptpr ptr mapped
  | .zChunkAllocResultNewOk this descriptpr ptr =>
      store.zChunkAllocResultNewOk this descriptpr ptr
  | .zChunkAllocResultNewError this allocError =>
      (store.zChunkAllocResultNewError this allocError).map (zOk, ·)
  | .consume src => (store.consume src).map (zOk, ·)
  | .giveBuffer place outResult => (store.giveBuffer place outResult).map (zOk, ·)
  | .zShmProviderAllocGcDefragAsync provider resultContext =>
      store.zShmProviderAllocGcDefragAsync provider resultContext
  | .zPrecomputedLayoutThreadsafeAllocGcDefragAsync layout resultContext =>
      store.zPrecomputedLayoutThreadsafeAllocGcDefragAsync layout resultContext
  | .finishAlloc place => (store.finishAlloc place).map (zOk, ·)
  | .dropPlace place => (store.dropPlace place).map (zOk, ·)

/-- Any interleaving of the calls of a program with the steps of the crate and its tasks. -/
def machine : Library.Machine ShmStore ShmOperation where
  init := init
  step := fun store operation => (store.exec operation).map Prod.snd

-----------------------------------------------------------------------------------------
-- The same calls on a destination by itself
-----------------------------------------------------------------------------------------

variable {ℓ : ShmBackend → Type} {μ β : Type} {store next : ShmStore} {code : ZResult}
  {descriptpr : ZChunkDescriptor} {ptr : Nat} {content : Option (PtrInSegment Nat)}

theorem convertChunk_eq {chunk : Option (AllocatedChunk Nat)}
    (there : store.slots[ptr]? = some (.ptrInSegment content))
    (converted : store.convertChunk descriptpr ptr = some (chunk, next))
    : chunk = (ZAllocatedChunk.mk descriptpr content).tryInto.1 := by
  simp only [convertChunk, there] at converted
  cases made : (ZAllocatedChunk.mk descriptpr content).tryInto.1 with
  | none =>
      rw [made] at converted
      exact (Prod.mk.inj (Option.some.inj converted)).1.symm
  | some chunk =>
      rw [made] at converted
      exact (Prod.mk.inj (Option.some.inj converted)).1.symm

theorem einval_code (this : MaybeUninit (Option β)) (outcome : Except String β)
    : (writeOnOk this (einval outcome)).code = if outcome.toBool then zOk else zEinval := by
  cases outcome <;> rfl

/-- In a store the call returns what it returns by itself, for a crate that answers alike. -/
theorem zShmProviderMap_code (shm : ShmCrate ProviderOf ℓ μ β Nat)
    (this : MaybeUninit (Option β)) {outResult provider len : Nat}
    {mapped : Except String Unit} {found : CSHMProvider ProviderOf}
    (answers
      : ∀ backend provider chunk,
          (shm.map backend provider chunk len).toBool = mapped.toBool)
    (loaned : store.providerAt provider = some found)
    (there : store.slots[ptr]? = some (.ptrInSegment content))
    (ran : store.zShmProviderMap outResult provider descriptpr ptr mapped = some (code, next))
    : code = (Shm.zShmProviderMap shm this found { descriptpr, ptr := content } len).1.code := by
  simp only [zShmProviderMap, loaned, Option.bind_eq_bind, Option.bind_some,
    Option.bind_eq_some_iff] at ran
  obtain ⟨⟨chunk, rest⟩, converted, ran⟩ := ran
  have same := convertChunk_eq there converted
  simp only [Shm.zShmProviderMap, Shm.map, ← same]
  cases chunk with
  | none =>
      cases ran
      rfl
  | some chunk =>
      have coded : code = if mapped.toBool then zOk else zEinval := by
        cases mapped with
        | ok done => exact (map_code_eq_some_iff.mp ran).2
        | error text =>
            cases ran
            rfl
      rw [coded]
      -- each variant asks its own backend, and the crate answers alike for all of them
      cases found with
      | posix backend =>
          exact answers .posix backend chunk ▸ (einval_code this _).symm
      | sharedPosix backend =>
          exact answers .posix backend chunk ▸ (einval_code this _).symm
      | dynamic context =>
          exact answers .dynamic context chunk ▸ (einval_code this _).symm
      | dynamicThreadsafe context =>
          exact answers .dynamicThreadsafe context chunk ▸ (einval_code this _).symm

theorem zChunkAllocResultNewOk_code {this : Nat}
    (slot : MaybeUninit (Option (Except ZAllocError (AllocatedChunk Nat))))
    (there : store.slots[ptr]? = some (.ptrInSegment content))
    (ran : store.zChunkAllocResultNewOk this descriptpr ptr = some (code, next))
    : code = (Shm.zChunkAllocResultNewOk slot { descriptpr, ptr := content }).1.code := by
  simp only [zChunkAllocResultNewOk, Option.bind_eq_bind, Option.bind_eq_some_iff] at ran
  obtain ⟨⟨chunk, rest⟩, converted, ran⟩ := ran
  have same := convertChunk_eq there converted
  simp only [Shm.zChunkAllocResultNewOk, ← same]
  cases chunk with
  | none =>
      cases ran
      rfl
  | some chunk => exact (map_code_eq_some_iff.mp ran).2

end ShmStore

end ZenohC
