import Mathlib.Algebra.Group.Nat.Defs
import ZenohC.Shm.Provider

/-! Which alignments reach the shared-memory crate.
A C alignment is any power of two that a byte can name. Only one entry point sends it through
the checked constructor of the crate; the others reinterpret it.
-/

namespace ZenohC

variable {π ℓ : ShmBackend → Type} {μ β σ α γ : Type}

/-- A result, with the alignments that have been handed to the crate on the way. -/
structure Handing (α : Type) where
  handed : List ZAllocAlignment
  result : α
  deriving DecidableEq, Repr

def Handing.map (f : α → γ) (handing : Handing α) : Handing γ :=
  { handed := handing.handed, result := f handing.result }

/-- The policies that the entry points name. -/
inductive AllocPolicy where
  | justAlloc
  | unsafeGarbageCollect
  | defragment (inner : AllocPolicy)
  | deallocate (limit : Nat) (inner : AllocPolicy)
  | blockOn (inner : AllocPolicy)
  deriving DecidableEq, Repr

inductive ZLayoutAllocError where
  | alloc (error : ZAllocError)
  | layout (error : ZLayoutError)
  deriving DecidableEq, Repr

inductive ZcBufLayoutAllocStatus where
  | ok
  | allocError
  | layoutError
  deriving DecidableEq, Repr

structure ZBufLayoutAllocResult (β : Type) where
  status : ZcBufLayoutAllocStatus
  buf : Option β
  allocError : ZAllocError
  layoutError : ZLayoutError
  deriving DecidableEq, Repr

def ZBufLayoutAllocResult.from : Except ZLayoutAllocError β → ZBufLayoutAllocResult β
  | .ok val =>
      { status := .ok
        buf := some val
        allocError := .other
        layoutError := .providerIncompatibleLayout }
  | .error (.alloc alloc) =>
      { status := .allocError
        buf := none
        allocError := alloc
        layoutError := .providerIncompatibleLayout }
  | .error (.layout layout) =>
      { status := .layoutError
        buf := none
        allocError := .other
        layoutError := layout }

/-- The crate, with the allocations of a provider. -/
structure ShmAllocCrate (π ℓ : ShmBackend → Type) (μ β σ : Type)
    extends ShmCrate π ℓ μ β σ where
  alloc
    : (backend : ShmBackend)
      → AllocPolicy → π backend → Nat → ZAllocAlignment → Except ZLayoutAllocError β

/-- What an asynchronous allocation returns at once, and what its task delivers. -/
structure AsyncAllocated (β : Type) where
  code : ZResult
  delivered : Option (ZBufLayoutAllocResult β)
  deriving DecidableEq, Repr

namespace Shm

/-- `z_memory_layout_new`, with what it hands over. -/
def memoryLayoutNewHanding (shm : ShmAllocCrate π ℓ μ β σ) (this : MaybeUninit (Option μ))
    (size : Nat) (alignment : ZAllocAlignment)
    : Handing (Constructed μ) :=
  match shm.allocAlignmentNew alignment.pow with
  | .error error => { handed := [], result := writeOnOk this (einvalLayout (.error error)) }
  | .ok alignment =>
      { handed := [alignment]
        result := writeOnOk this (einvalLayout (shm.memoryLayoutNew size alignment)) }

/-- `alloc_layout`, with what it hands over: the alignment as it is. -/
def allocLayoutHanding (shm : ShmAllocCrate π ℓ μ β σ) (this : MaybeUninit (Option (CSHMLayout ℓ)))
    (provider : CSHMProvider π) (size : Nat) (alignment : ZAllocAlignment)
    : Handing (Constructed (CSHMLayout ℓ)) :=
  { handed := [alignment]
    result := allocLayout shm.toShmCrate this provider size alignment }

def allocImpl (shm : ShmAllocCrate π ℓ μ β σ) (policy : AllocPolicy) (backend : ShmBackend)
    (provider : π backend) (size : Nat) (alignment : ZAllocAlignment)
    : Handing (ZBufLayoutAllocResult β) :=
  { handed := [alignment]
    result := .from (shm.alloc backend policy provider size alignment) }

def alloc (shm : ShmAllocCrate π ℓ μ β σ) (policy : AllocPolicy) (provider : CSHMProvider π)
    (size : Nat) (alignment : ZAllocAlignment)
    : Handing (ZBufLayoutAllocResult β) :=
  match provider with
  | .posix provider => allocImpl shm policy .posix provider size alignment
  | .sharedPosix provider => allocImpl shm policy .posix provider size alignment
  | .dynamic provider => allocImpl shm policy .dynamic provider size alignment
  | .dynamicThreadsafe provider =>
      allocImpl shm policy .dynamicThreadsafe provider size alignment

/-- The task that `alloc_async_impl` spawns runs the same allocation. -/
def allocAsyncImpl (shm : ShmAllocCrate π ℓ μ β σ) (policy : AllocPolicy) (backend : ShmBackend)
    (provider : π backend) (size : Nat) (alignment : ZAllocAlignment)
    : Handing (AsyncAllocated β) :=
  (allocImpl shm policy backend provider size alignment).map fun result =>
    { code := zOk, delivered := some result }

def allocAsync (shm : ShmAllocCrate π ℓ μ β σ) (policy : AllocPolicy) (provider : CSHMProvider π)
    (size : Nat) (alignment : ZAllocAlignment)
    : Handing (AsyncAllocated β) :=
  match provider with
  | .posix provider => allocAsyncImpl shm policy .posix provider size alignment
  | .sharedPosix provider => allocAsyncImpl shm policy .posix provider size alignment
  | .dynamic _ => { handed := [], result := { code := zEinval, delivered := none } }
  | .dynamicThreadsafe provider =>
      allocAsyncImpl shm policy .dynamicThreadsafe provider size alignment

/-- `z_shm_provider_alloc_aligned` -/
def zShmProviderAllocAligned (shm : ShmAllocCrate π ℓ μ β σ)
    : CSHMProvider π → Nat → ZAllocAlignment → Handing (ZBufLayoutAllocResult β) :=
  alloc shm .justAlloc

def zShmProviderAllocGcAligned (shm : ShmAllocCrate π ℓ μ β σ)
    : CSHMProvider π → Nat → ZAllocAlignment → Handing (ZBufLayoutAllocResult β) :=
  alloc shm .unsafeGarbageCollect

def zShmProviderAllocGcDefragAligned (shm : ShmAllocCrate π ℓ μ β σ)
    : CSHMProvider π → Nat → ZAllocAlignment → Handing (ZBufLayoutAllocResult β) :=
  alloc shm (.defragment .unsafeGarbageCollect)

def zShmProviderAllocGcDefragDeallocAligned (shm : ShmAllocCrate π ℓ μ β σ)
    : CSHMProvider π → Nat → ZAllocAlignment → Handing (ZBufLayoutAllocResult β) :=
  alloc shm (.deallocate 100 (.defragment .unsafeGarbageCollect))

def zShmProviderAllocGcDefragBlockingAligned (shm : ShmAllocCrate π ℓ μ β σ)
    : CSHMProvider π → Nat → ZAllocAlignment → Handing (ZBufLayoutAllocResult β) :=
  alloc shm (.blockOn (.defragment .unsafeGarbageCollect))

def zShmProviderAllocGcDefragAlignedAsync (shm : ShmAllocCrate π ℓ μ β σ)
    : CSHMProvider π → Nat → ZAllocAlignment → Handing (AsyncAllocated β) :=
  allocAsync shm (.blockOn (.defragment .unsafeGarbageCollect))

end Shm

open Shm

-----------------------------------------------------------------------------------------
-- The entry points with an explicit alignment
-----------------------------------------------------------------------------------------

/-- `z_alloc_layout_with_alignment_new` only calls the entry point for aligned layouts. -/
inductive AlignedEntry where
  | memoryLayoutNew
  | allocLayoutAligned
  | allocAligned
  | allocGcAligned
  | allocGcDefragAligned
  | allocGcDefragDeallocAligned
  | allocGcDefragBlockingAligned
  | allocGcDefragAlignedAsync
  deriving DecidableEq, Repr

inductive AlignedOutcome (ℓ : ShmBackend → Type) (μ β : Type) where
  | memoryLayout (made : Constructed μ)
  | layout (made : Constructed (CSHMLayout ℓ))
  | allocated (outResult : ZBufLayoutAllocResult β)
  | async (started : AsyncAllocated β)

/-- The alignment is refused with this error: by the code and the report of a constructor, or
by the error fields of an allocation's result.
-/
def AlignedOutcome.Refuses (error : ZLayoutError) : AlignedOutcome ℓ μ β → Prop
  | .memoryLayout made => made.code = zEinval ∧ made.reported = some error.debug
  | .layout made => made.code = zEinval ∧ made.reported = some error.debug
  | .allocated outResult => outResult = .from (.error (.layout error))
  | .async started =>
      started.code = zEinval ∧ started.delivered = none
      ∨ started.delivered = some (.from (.error (.layout error)))

/-- A call of an entry point. The destinations are for the entry points that write them. -/
structure AlignedCall (π ℓ : ShmBackend → Type) (μ : Type) where
  entry : AlignedEntry
  provider : CSHMProvider π
  size : Nat
  alignment : ZAllocAlignment
  memoryLayout : MaybeUninit (Option μ)
  layout : MaybeUninit (Option (CSHMLayout ℓ))

def AlignedCall.run (shm : ShmAllocCrate π ℓ μ β σ) (call : AlignedCall π ℓ μ)
    : Handing (AlignedOutcome ℓ μ β) :=
  let { entry, provider, size, alignment, memoryLayout, layout } := call
  match entry with
  | .memoryLayoutNew => (memoryLayoutNewHanding shm memoryLayout size alignment).map .memoryLayout
  | .allocLayoutAligned => (allocLayoutHanding shm layout provider size alignment).map .layout
  | .allocAligned => (zShmProviderAllocAligned shm provider size alignment).map .allocated
  | .allocGcAligned => (zShmProviderAllocGcAligned shm provider size alignment).map .allocated
  | .allocGcDefragAligned =>
      (zShmProviderAllocGcDefragAligned shm provider size alignment).map .allocated
  | .allocGcDefragDeallocAligned =>
      (zShmProviderAllocGcDefragDeallocAligned shm provider size alignment).map .allocated
  | .allocGcDefragBlockingAligned =>
      (zShmProviderAllocGcDefragBlockingAligned shm provider size alignment).map .allocated
  | .allocGcDefragAlignedAsync =>
      (zShmProviderAllocGcDefragAlignedAsync shm provider size alignment).map .async

/-- Only alignments that the checked constructor accepts are handed over, and an alignment that
it refuses is refused with its error.
-/
structure AlignmentValidated (shm : ShmAllocCrate π ℓ μ β σ) (call : AlignedCall π ℓ μ)
    : Prop where
  accepted : ∀ handed ∈ (call.run shm).handed, shm.allocAlignmentNew handed.pow = .ok handed
  refused
    : ∀ error,
        shm.allocAlignmentNew call.alignment.pow = .error error
        → (call.run shm).result.Refuses error

/-- The calls that do not use an alignment which they have not checked: those for a memory
layout, and asynchronous allocations on a provider that is not thread-safe, which fail.
-/
def AlignedCall.Checks (call : AlignedCall π ℓ μ) : Prop :=
  call.entry = .memoryLayoutNew
  ∨ call.entry = .allocGcDefragAlignedAsync ∧ ∃ dynamic, call.provider = .dynamic dynamic

/-- Without a check the alignment of the call is handed over as it is. -/
theorem handed_unchecked {shm : ShmAllocCrate π ℓ μ β σ} {call : AlignedCall π ℓ μ}
    (unchecked : ¬call.Checks)
    : (call.run shm).handed = [call.alignment] := by
  obtain ⟨entry, provider, size, alignment, memoryLayout, layout⟩ := call
  cases entry
  case memoryLayoutNew => exact absurd (.inl rfl) unchecked
  case allocLayoutAligned => rfl
  case allocGcDefragAlignedAsync =>
    cases provider
    case dynamic dynamic => exact absurd (.inr ⟨rfl, dynamic, rfl⟩) unchecked
    all_goals rfl
  all_goals
    cases provider <;> rfl

/-- The checked constructor hands nothing over when it refuses. -/
theorem memoryLayoutNewHanding_refused {shm : ShmAllocCrate π ℓ μ β σ}
    {alignment : ZAllocAlignment} {error : ZLayoutError}
    (refused : shm.allocAlignmentNew alignment.pow = .error error)
    (this : MaybeUninit (Option μ)) (size : Nat)
    : memoryLayoutNewHanding shm this size alignment
      = { handed := []
          result := { code := zEinval, slot := this, reported := some error.debug } } := by
  rw [memoryLayoutNewHanding, refused]
  rfl

theorem memoryLayoutNewHanding_accepted {shm : ShmAllocCrate π ℓ μ β σ}
    {alignment accepted : ZAllocAlignment}
    (isAccepted : shm.allocAlignmentNew alignment.pow = .ok accepted)
    (this : MaybeUninit (Option μ)) (size : Nat)
    : (memoryLayoutNewHanding shm this size alignment).handed = [accepted] := by
  rw [memoryLayoutNewHanding, isAccepted]

/-- Apart from what is handed over this is the constructor itself. -/
theorem memoryLayoutNewHanding_result (shm : ShmAllocCrate π ℓ μ β σ)
    (this : MaybeUninit (Option μ)) (size : Nat) (alignment : ZAllocAlignment)
    : (memoryLayoutNewHanding shm this size alignment).result
      = zMemoryLayoutNew shm.toShmCrate this size alignment := by
  rw [memoryLayoutNewHanding, zMemoryLayoutNew]
  cases shm.allocAlignmentNew alignment.pow <;> rfl

/-- What is assumed of `AllocAlignment::new`: it keeps the powers of two that fit in `usize`,
and refuses the others.
-/
structure ChecksAlignment (shm : ShmAllocCrate π ℓ μ β σ) (usizeBits : Nat) : Prop where
  keeps : ∀ pow : UInt8, 2 ^ pow.toNat < 2 ^ usizeBits → shm.allocAlignmentNew pow = .ok { pow }
  refuses
    : ∀ pow : UInt8,
        ¬2 ^ pow.toNat < 2 ^ usizeBits → ∃ error, shm.allocAlignmentNew pow = .error error

section

variable {shm : ShmAllocCrate π ℓ μ β σ} {usizeBits : Nat} {call : AlignedCall π ℓ μ}

theorem ChecksAlignment.accepted_iff (checked : ChecksAlignment shm usizeBits)
    {alignment accepted : ZAllocAlignment}
    : shm.allocAlignmentNew alignment.pow = .ok accepted
      ↔ 2 ^ alignment.pow.toNat < 2 ^ usizeBits ∧ accepted = alignment := by
  by_cases fits : 2 ^ alignment.pow.toNat < 2 ^ usizeBits
  · simp only [checked.keeps _ fits, Except.ok.injEq, fits, true_and]
    exact eq_comm
  · obtain ⟨error, refused⟩ := checked.refuses _ fits
    simp [refused, fits]

theorem validated_of_checks (checked : ChecksAlignment shm usizeBits) (checks : call.Checks)
    : AlignmentValidated shm call := by
  obtain ⟨entry, provider, size, alignment, memoryLayout, layout⟩ := call
  rcases checks with same | ⟨same, dynamic, isDynamic⟩
  · dsimp only at same
    subst same
    constructor
    · intro handed member
      cases outcome : shm.allocAlignmentNew alignment.pow with
      | error error =>
          simp only [AlignedCall.run, Handing.map,
            memoryLayoutNewHanding_refused outcome] at member
          cases member
      | ok accepted =>
          obtain ⟨-, rfl⟩ := checked.accepted_iff.mp outcome
          simp only [AlignedCall.run, Handing.map,
            memoryLayoutNewHanding_accepted outcome] at member
          exact List.mem_singleton.mp member ▸ outcome
    · intro error refused
      simp only [AlignedCall.run, Handing.map, memoryLayoutNewHanding_refused refused]
      exact ⟨rfl, rfl⟩
  · dsimp only at same isDynamic
    subst same
    subst isDynamic
    exact ⟨fun handed member => absurd member List.not_mem_nil, fun _ _ => .inl ⟨rfl, rfl⟩⟩

/-- An entry point validates its alignment if and only if the alignment fits or the entry point
checks it before anything else.
-/
theorem alignment_validated_iff (checked : ChecksAlignment shm usizeBits)
    : AlignmentValidated shm call
      ↔ 2 ^ call.alignment.pow.toNat < 2 ^ usizeBits ∨ call.Checks := by
  by_cases checks : call.Checks
  · simp only [validated_of_checks checked checks, checks, or_true]
  · have handed : (call.run shm).handed = [call.alignment] := handed_unchecked checks
    rw [or_iff_left checks]
    constructor
    · intro validated
      have accepted := validated.accepted call.alignment (by simp [handed])
      exact (checked.accepted_iff.mp accepted).1
    · intro fits
      have accepted := checked.keeps _ fits
      constructor
      · intro alignment member
        rw [handed] at member
        exact List.mem_singleton.mp member ▸ accepted
      · intro error refused
        rw [accepted] at refused
        cases refused

end

/-- A crate whose providers accept every layout that is not empty. -/
def permissiveCrate : ShmAllocCrate (fun _ => Unit) (fun _ => Unit) Nat Nat Unit where
  allocAlignmentNew := fun pow =>
    if pow.toNat < 64 then .ok { pow } else .error .incorrectLayoutArgs
  memoryLayoutNew := fun size _ => if size = 0 then .error .incorrectLayoutArgs else .ok size
  defaultBackend := fun _ => .ok ()
  posixBackend := fun _ => .ok ()
  posixBackendWithLayout := fun _ => .ok ()
  allocLayout := fun _ _ _ => .ok ()
  map := fun _ _ _ len => .ok len
  alloc := fun _ _ _ size _ =>
    if size = 0 then .error (.layout .incorrectLayoutArgs) else .ok size

theorem permissiveCrate_checks : ChecksAlignment permissiveCrate 64 where
  keeps := by
    intro pow fits
    exact if_pos ((Nat.pow_lt_pow_iff_right (by decide)).mp fits)
  refuses := by
    intro pow unfit
    have large : ¬pow.toNat < 64 := fun small =>
      unfit ((Nat.pow_lt_pow_iff_right (by decide)).mpr small)
    exact ⟨_, if_neg large⟩

def alignedCall (pow : UInt8) : AlignedCall (fun _ => Unit) (fun _ => Unit) Nat :=
  { entry := .allocAligned
    provider := .posix ()
    size := 8
    alignment := { pow }
    memoryLayout := .uninit
    layout := .uninit }

theorem alignment_validated_iff_words : AlignmentValidated permissiveCrate (alignedCall 3) :=
  (alignment_validated_iff permissiveCrate_checks).mpr (.inl (by decide))

/-- An alignment of `2 ^ 64` is handed to the crate, which would not have made it. -/
theorem unfit_alignment_handed
    : ChecksAlignment permissiveCrate 64
      ∧ ¬AlignmentValidated permissiveCrate (alignedCall 64) := by
  refine ⟨permissiveCrate_checks, fun validated => ?_⟩
  have handed : ({ pow := 64 } : ZAllocAlignment) ∈ ((alignedCall 64).run permissiveCrate).handed :=
    List.mem_singleton_self _
  have accepted := validated.accepted _ handed
  cases accepted

end ZenohC
