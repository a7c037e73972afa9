import ZenohC.Api.Constructed

/-! Shared-memory providers, layouts and chunks, and the constructors that make them.
What the shared-memory crate answers is a parameter: each backend decides for itself whether
it accepts a layout or a chunk.
-/

namespace ZenohC

/-- The backends a provider can have; each has its own provider and layout types. -/
inductive ShmBackend where
  | posix
  | dynamic
  | dynamicThreadsafe
  deriving DecidableEq, Repr

/-- `CSHMProvider`; a shared provider is a counted reference to a POSIX one. -/
inductive CSHMProvider (π : ShmBackend → Type) where
  | posix (provider : π .posix)
  | sharedPosix (provider : π .posix)
  | dynamic (provider : π .dynamic)
  | dynamicThreadsafe (provider : π .dynamicThreadsafe)

/-- `CSHMLayout`; layouts of a shared provider are POSIX layouts. -/
inductive CSHMLayout (ℓ : ShmBackend → Type) where
  | posix (layout : ℓ .posix)
  | dynamic (layout : ℓ .dynamic)
  | dynamicThreadsafe (layout : ℓ .dynamicThreadsafe)

inductive ZLayoutError where
  | incorrectLayoutArgs
  | providerIncompatibleLayout
  deriving DecidableEq, Repr

def ZLayoutError.debug : ZLayoutError → String
  | .incorrectLayoutArgs => "IncorrectLayoutArgs"
  | .providerIncompatibleLayout => "ProviderIncompatibleLayout"

inductive ZAllocError where
  | needDefragment
  | outOfMemory
  | other
  deriving DecidableEq, Repr

/-- `z_alloc_alignment_t`, transmuted to the crate's `AllocAlignment` as it is. -/
structure ZAllocAlignment where
  pow : UInt8
  deriving DecidableEq, Repr

structure ZChunkDescriptor where
  segment : UInt32
  chunk : UInt32
  len : Nat
  deriving DecidableEq, Repr

/-- The crate's descriptor: its length is a `NonZeroUsize`. -/
structure ChunkDescriptor where
  segment : UInt32
  chunk : UInt32
  len : Nat
  len_pos : 0 < len
  deriving DecidableEq, Repr

def ZChunkDescriptor.tryInto (value : ZChunkDescriptor) : Option ChunkDescriptor :=
  if positive : 0 < value.len then
    some { segment := value.segment, chunk := value.chunk, len := value.len, len_pos := positive }
  else none

/-- A pointer into a segment, with a counted reference `σ` to what keeps the segment alive. -/
structure PtrInSegment (σ : Type) where
  ptr : Ptr
  segment : σ
  deriving DecidableEq, Repr

/-- `z_allocated_chunk_t`, with the slot behind its moved pointer in place of the pointer. -/
structure ZAllocatedChunk (σ : Type) where
  descriptpr : ZChunkDescriptor
  ptr : Option (PtrInSegment σ)
  deriving DecidableEq, Repr

structure AllocatedChunk (σ : Type) where
  descriptor : ChunkDescriptor
  data : PtrInSegment σ
  deriving DecidableEq, Repr

/-- `TryFrom<z_allocated_chunk_t>`: both failures are told apart only by what happens to the
pointer. The second component is the slot of the pointer afterwards.
-/
def ZAllocatedChunk.tryInto {σ : Type} (value : ZAllocatedChunk σ)
    : Option (AllocatedChunk σ) × Option (PtrInSegment σ) :=
  let (taken, slot) := takeRustType value.ptr
  let chunk := do
    let ptr ← taken
    let descriptor ← value.descriptpr.tryInto
    some { descriptor, data := ptr }
  (chunk, slot)

variable {π ℓ : ShmBackend → Type} {μ β σ : Type}

/-- What the shared-memory crate answers; `μ` is its memory layouts, `β` its buffers. -/
structure ShmCrate (π ℓ : ShmBackend → Type) (μ β σ : Type) where
  allocAlignmentNew : UInt8 → Except ZLayoutError ZAllocAlignment
  memoryLayoutNew : Nat → ZAllocAlignment → Except ZLayoutError μ
  defaultBackend : Nat → Except String (π .posix)
  posixBackend : Nat → Except String (π .posix)
  posixBackendWithLayout : μ → Except String (π .posix)
  allocLayout : (backend : ShmBackend) → π backend → μ → Except ZLayoutError (ℓ backend)
  map : (backend : ShmBackend) → π backend → AllocatedChunk σ → Nat → Except String β

/-- The error branch that reports the error's debug text and returns `Z_EINVAL`. -/
def einval {α : Type} (outcome : Except String α) : Except Refusal α :=
  outcome.mapError fun text => { code := zEinval, reported := some text }

/-- The same branch for the layout errors of the crate. -/
def einvalLayout {α : Type} (outcome : Except ZLayoutError α) : Except Refusal α :=
  einval (outcome.mapError ZLayoutError.debug)

/-- An error branch that returns `Z_EINVAL` without a report. -/
def einvalSilent {α : Type} : Option α → Except Refusal α
  | none => .error { code := zEinval, reported := none }
  | some value => .ok value

namespace Shm

def zMemoryLayoutNew (shm : ShmCrate π ℓ μ β σ) (this : MaybeUninit (Option μ)) (size : Nat)
    (alignment : ZAllocAlignment)
    : Constructed μ :=
  let createMemoryLayout := do
    let alignment ← shm.allocAlignmentNew alignment.pow
    shm.memoryLayoutNew size alignment
  writeOnOk this (einvalLayout createMemoryLayout)

/-- `z_chunk_alloc_result_new_ok`, with the slot of the moved pointer afterwards. -/
def zChunkAllocResultNewOk (this : MaybeUninit (Option (Except ZAllocError (AllocatedChunk σ))))
    (allocatedChunk : ZAllocatedChunk σ)
    : Constructed (Except ZAllocError (AllocatedChunk σ)) × Option (PtrInSegment σ) :=
  let (chunk, slot) := allocatedChunk.tryInto
  (writeOnOk this (einvalSilent (chunk.map .ok)), slot)

def zShmProviderDefaultNew (shm : ShmCrate π ℓ μ β σ) (this : MaybeUninit (Option (CSHMProvider π)))
    (size : Nat)
    : Constructed (CSHMProvider π) :=
  writeOnOk this (einval ((shm.defaultBackend size).map .posix))

def zPosixShmProviderNew (shm : ShmCrate π ℓ μ β σ) (size : Nat) : Constructed (CSHMProvider π) :=
  writeOrNull (einval ((shm.posixBackend size).map .posix))

def zPosixShmProviderWithLayoutNew (shm : ShmCrate π ℓ μ β σ) (layout : μ)
    : Constructed (CSHMProvider π) :=
  writeOrNull (einval ((shm.posixBackendWithLayout layout).map .posix))

def allocLayout (shm : ShmCrate π ℓ μ β σ) (this : MaybeUninit (Option (CSHMLayout ℓ)))
    (provider : CSHMProvider π) (size : Nat) (alignment : ZAllocAlignment)
    : Constructed (CSHMLayout ℓ) :=
  writeOnOk this do
    let memLayout ← einvalLayout (shm.memoryLayoutNew size alignment)
    match provider with
    | .posix provider =>
        einvalLayout ((shm.allocLayout .posix provider memLayout).map .posix)
    | .dynamic provider =>
        einvalLayout ((shm.allocLayout .dynamic provider memLayout).map .dynamic)
    | .dynamicThreadsafe provider =>
        einvalLayout
          ((shm.allocLayout .dynamicThreadsafe provider memLayout).map .dynamicThreadsafe)
    | .sharedPosix provider =>
        einvalLayout ((shm.allocLayout .posix provider memLayout).map .posix)

def zShmProviderAllocLayout (shm : ShmCrate π ℓ μ β σ) (this : MaybeUninit (Option (CSHMLayout ℓ)))
    (provider : CSHMProvider π) (size : Nat)
    : Constructed (CSHMLayout ℓ) :=
  allocLayout shm this provider size { pow := 0 }

def zShmProviderAllocLayoutAligned (shm : ShmCrate π ℓ μ β σ)
    (this : MaybeUninit (Option (CSHMLayout ℓ))) (provider : CSHMProvider π) (size : Nat)
    (alignment : ZAllocAlignment)
    : Constructed (CSHMLayout ℓ) :=
  allocLayout shm this provider size alignment

/-- `map`, with the slot of the chunk's moved pointer afterwards. -/
def map (shm : ShmCrate π ℓ μ β σ) (outResult : MaybeUninit (Option β))
    (provider : CSHMProvider π) (allocatedChunk : ZAllocatedChunk σ) (len : Nat)
    : Constructed β × Option (PtrInSegment σ) :=
  let (chunk, slot) := allocatedChunk.tryInto
  let mapping := do
    let chunk ← einvalSilent chunk
    match provider with
    | .posix provider => einval (shm.map .posix provider chunk len)
    | .sharedPosix provider => einval (shm.map .posix provider chunk len)
    | .dynamic provider => einval (shm.map .dynamic provider chunk len)
    | .dynamicThreadsafe provider => einval (shm.map .dynamicThreadsafe provider chunk len)
  (writeOnOk outResult mapping, slot)

def zShmProviderMap (shm : ShmCrate π ℓ μ β σ) (outResult : MaybeUninit (Option β))
    (provider : CSHMProvider π) (allocatedChunk : ZAllocatedChunk σ) (len : Nat)
    : Constructed β × Option (PtrInSegment σ) :=
  map shm outResult provider allocatedChunk len

/-- `z_shm_client_storage_new`; `build` is the crate's builder, told whether to start from
its default clients.
-/
def zShmClientStorageNew {κ ς : Type} (build : Bool → List κ → ς)
    (this : MaybeUninit (Option ς)) (clients : List κ) (addDefaultClientSet : Bool)
    : Constructed ς :=
  writeOnOk this
    (einvalSilent
      (if clients.isEmpty then none else some (build addDefaultClientSet clients)))

end Shm

/-- A chunk converts when its pointer is live and its length is not zero; the pointer is
taken either way.
-/
theorem ZAllocatedChunk.tryInto_eq (value : ZAllocatedChunk σ)
    : value.tryInto
      = (value.ptr.bind fun ptr =>
          value.descriptpr.tryInto.map fun descriptor => { descriptor, data := ptr }, none) := by
  cases found : value.ptr with
  | none => simp [tryInto, takeRustType, found]
  | some ptr =>
      cases converted : value.descriptpr.tryInto with
      | none => simp [tryInto, takeRustType, found, converted]
      | some descriptor => simp [tryInto, takeRustType, found, converted]

theorem ZAllocatedChunk.tryInto_isSome_iff {value : ZAllocatedChunk σ}
    : value.tryInto.1.isSome = true ↔ value.ptr.isSome = true ∧ 0 < value.descriptpr.len := by
  rw [tryInto_eq]
  cases value.ptr with
  | none => simp
  | some ptr =>
      by_cases positive : 0 < value.descriptpr.len
      · simp [ZChunkDescriptor.tryInto, positive]
      · simp [ZChunkDescriptor.tryInto, positive]

/-- The moved pointer of a chunk is consumed by the conversion on every path. -/
@[simp]
theorem ZAllocatedChunk.tryInto_slot (value : ZAllocatedChunk σ) : value.tryInto.2 = none := by
  rw [tryInto_eq]

end ZenohC
