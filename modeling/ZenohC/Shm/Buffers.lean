import Mathlib.Data.Multiset.AddSub
import ZenohC.Library.Machine
import ZenohC.Transmute

/-! The shared-memory buffers of a C program, immutable and mutable.
What zenoh does with a buffer is a parameter: it hands out references and takes them back, and it
is asked whether a reference is the only one. A buffer may be written through a handle of a mutable
type, and through any other mutable loan where the answer is yes.
-/

namespace ZenohC

-----------------------------------------------------------------------------------------
-- Slots
-----------------------------------------------------------------------------------------

/-- A slice of a payload: bytes of its own, or a buffer. -/
inductive PayloadSlice where
  | plain (bytes : List UInt8)
  | shm (buffer : Nat)
  deriving DecidableEq, Repr

def PayloadSlice.buffer? : PayloadSlice → Option Nat
  | .plain _ => none
  | .shm buffer => some buffer

/-- The buffers that a payload refers to. -/
def payloadBuffers (payload : List PayloadSlice) : List Nat :=
  payload.filterMap PayloadSlice.buffer?

/-- What a slot of the C program holds: `ZShm` and `ZShmMut` are handles of a buffer. -/
inductive BufferSlot where
  | uninit
  | shm (content : Option Nat)
  | shmMut (content : Option Nat)
  | bytes (content : List PayloadSlice)
  deriving DecidableEq, Repr

/-- The gravestone of the type that lies in the slot. -/
def BufferSlot.gravestone? : BufferSlot → Option BufferSlot
  | .uninit => none
  | .shm _ => some (.shm none)
  | .shmMut _ => some (.shmMut none)
  | .bytes _ => some (.bytes [])

/-- Dropping the content gives up a reference for each of these. -/
def BufferSlot.buffers : BufferSlot → List Nat
  | .uninit => []
  | .shm content | .shmMut content => content.toList
  | .bytes content => payloadBuffers content

/-- `z_loaned_shm_t`, from an owned buffer or out of a payload, by `z_bytes_as_loaned_shm` or by
`z_bytes_as_mut_loaned_shm`.
-/
inductive ShmLoan where
  | owned (slot : Nat)
  | payload (slot : Nat)
  | payloadMut (slot : Nat)
  deriving DecidableEq, Repr

/-- `z_loaned_shm_mut_t`: from an owned mutable buffer, by `z_shm_try_mut`, or by
`z_shm_try_reloan_mut` from any mutable loan.
-/
inductive ShmMutLoan where
  | owned (slot : Nat)
  | tryMut (slot : Nat)
  | tryReloanMut (loan : ShmLoan)
  deriving DecidableEq, Repr

def ShmLoan.slot : ShmLoan → Nat
  | .owned slot | .payload slot | .payloadMut slot => slot

def ShmMutLoan.slot : ShmMutLoan → Nat
  | .owned slot | .tryMut slot => slot
  | .tryReloanMut loan => loan.slot

-----------------------------------------------------------------------------------------
-- The crate
-----------------------------------------------------------------------------------------

/-- What the calls use of zenoh. `isUnique` is the answer of `try_from` and of `try_into`, asked
about a buffer in a content; for a payload it includes that of `as_shm_mut`. An event is what
zenoh and the other processes do on their own.
-/
structure ShmBufferCrate (σ ε : Type) where
  start : σ
  data : σ → Nat → List UInt8
  alloc : σ → Nat → Option (Nat × σ)
  toOwned : σ → Nat → σ
  dropShm : σ → Nat → σ
  cloneBytes : σ → List PayloadSlice → σ
  dropBytes : σ → List PayloadSlice → σ
  isUnique : σ → BufferSlot → Nat → Bool
  asShm : σ → List PayloadSlice → Option Nat
  asShmMut : σ → List PayloadSlice → Option Nat
  write : σ → Nat → List UInt8 → σ
  send : σ → List PayloadSlice → σ
  receive : σ → ε → Option (List PayloadSlice × σ)
  step : σ → ε → σ

namespace ShmBufferCrate

variable {σ ε : Type}

/-- Dropping a content gives back its references; a gravestone has none. -/
def drop (crate : ShmBufferCrate σ ε) (state : σ) : BufferSlot → σ
  | .shm (some buffer) | .shmMut (some buffer) => crate.dropShm state buffer
  | .bytes payload => crate.dropBytes state payload
  | .shm none | .shmMut none | .uninit => state

variable (crate : ShmBufferCrate σ ε) (handed : σ → Multiset Nat) (own : σ → Nat → Prop)

/-- While the program has a reference to a buffer, zenoh does not come to refer to it and does not
write to it.
-/
structure Spares (state next : σ) : Prop where
  own : ∀ buffer ∈ handed state, own next buffer → own state buffer
  data : ∀ buffer ∈ handed state, crate.data next buffer = crate.data state buffer

/-- What the calls rely on. `handed` are the references that the program has got and not given
back, and `own` are the buffers that zenoh and other processes refer to: each function hands out
or takes back the references of its name, a new buffer is new, a payload is received from zenoh
and sent to it, a reference that is said to be the only one is so, and the buffers of the program
are spared.
-/
structure Contract : Prop where
  start : handed crate.start = 0
  alloc
    : ∀ state size buffer next,
        crate.alloc state size = some (buffer, next)
        → buffer ∉ handed state
          ∧ ¬own next buffer
          ∧ handed next = handed state + {buffer}
          ∧ crate.Spares handed own state next
  toOwned
    : ∀ state buffer,
        handed (crate.toOwned state buffer) = handed state + {buffer}
        ∧ crate.Spares handed own state (crate.toOwned state buffer)
  drop
    : ∀ state content,
        (content.buffers : Multiset Nat) ≤ handed state
        → handed (crate.drop state content) + content.buffers = handed state
          ∧ crate.Spares handed own state (crate.drop state content)
  cloneBytes
    : ∀ state payload,
        handed (crate.cloneBytes state payload) = handed state + payloadBuffers payload
        ∧ crate.Spares handed own state (crate.cloneBytes state payload)
  unique
    : ∀ state content buffer,
        crate.isUnique state content buffer = true
        → (handed state).count buffer = 1 ∧ ¬own state buffer
  asShm
    : ∀ state payload buffer,
        crate.asShm state payload = some buffer → buffer ∈ payloadBuffers payload
  asShmMut
    : ∀ state payload buffer,
        crate.asShmMut state payload = some buffer → buffer ∈ payloadBuffers payload
  write
    : ∀ state buffer data,
        handed (crate.write state buffer data) = handed state
        ∧ ∀ other,
            (own (crate.write state buffer data) other → own state other)
            ∧ (other ≠ buffer
              → crate.data (crate.write state buffer data) other = crate.data state other)
  send
    : ∀ state payload,
        (payloadBuffers payload : Multiset Nat) ≤ handed state
        → handed (crate.send state payload) + payloadBuffers payload = handed state
          ∧ ∀ buffer ∈ handed state,
              (own (crate.send state payload) buffer
                → own state buffer ∨ buffer ∈ payloadBuffers payload)
              ∧ crate.data (crate.send state payload) buffer = crate.data state buffer
  receive
    : ∀ state event payload next,
        crate.receive state event = some (payload, next)
        → (∀ buffer ∈ payloadBuffers payload, own state buffer)
          ∧ handed next = handed state + payloadBuffers payload
          ∧ crate.Spares handed own state next
  step
    : ∀ state event,
        handed (crate.step state event) = handed state
        ∧ crate.Spares handed own state (crate.step state event)

end ShmBufferCrate

-----------------------------------------------------------------------------------------
-- Calls
-----------------------------------------------------------------------------------------

/-- `forgotten` keeps what constructors overwrote, and no call reads it. -/
structure BufferStore (σ : Type) where
  slots : List BufferSlot
  forgotten : List BufferSlot
  crate : σ
  deriving DecidableEq

namespace BufferStore

variable {σ ε : Type} (crate : ShmBufferCrate σ ε)

/-- `MaybeUninit::write` forgets the old content of the destination. -/
def construct (store : BufferStore σ) (dst : Nat) (content : BufferSlot)
    : Option (BufferStore σ) :=
  store.slots[dst]?.map fun old =>
    { store with
      slots := store.slots.set dst content
      forgotten := store.forgotten ++ [old] }

/-- `take_rust_type` on a moved argument. -/
def takeContent (store : BufferStore σ) (src : Nat) : Option (BufferSlot × BufferStore σ) := do
  let content ← store.slots[src]?
  let gravestone ← content.gravestone?
  some (content, { store with slots := store.slots.set src gravestone })

/-- The generated inline `z_xxx_take`. -/
def take (store : BufferStore σ) (dst src : Nat) : Option (BufferStore σ) := do
  let content ← store.slots[src]?
  let gravestone ← content.gravestone?
  let old ← store.slots[dst]?
  some
    { store with
      slots := (store.slots.set dst content).set src gravestone
      forgotten := store.forgotten ++ [old] }

/-- `z_shm_drop`, `z_shm_mut_drop` and `z_bytes_drop`. -/
def drop (store : BufferStore σ) (target : Nat) : Option (BufferStore σ) :=
  (store.takeContent target).map fun (content, rest) =>
    { rest with crate := crate.drop rest.crate content }

/-- `z_internal_shm_null`, `z_internal_shm_mut_null`, and `z_bytes_empty` with its null form. -/
def zInternalNull (store : BufferStore σ) (this : Nat) (gravestone : BufferSlot)
    : Option (BufferStore σ) :=
  if gravestone ∈ [.shm none, .shmMut none, .bytes []] then store.construct this gravestone
  else none

def zShmFromMut (store : BufferStore σ) (this that : Nat) : Option (BufferStore σ) := do
  let (content, rest) ← store.takeContent that
  match content with
  | .shmMut shm => rest.construct this (.shm shm)
  | _ => none

def zShmMutTryFromImmut (store : BufferStore σ) (this that immut : Nat)
    : Option (ZResult × BufferStore σ) := do
  let (content, rest) ← store.takeContent that
  match content with
  | .shm (some shm) =>
      if crate.isUnique rest.crate content shm then
        (rest.construct this (.shmMut (some shm))).map (zOk, ·)
      else (rest.construct immut (.shm (some shm))).map (zEunavailable, ·)
  | .shm none => some (zEinval, rest)
  | _ => none

/-- The buffer behind a loan and the content it lies in; loaning a gravestone is undefined. A loan
out of a payload is there after `Z_OK`.
-/
def loanedShm (store : BufferStore σ) (loan : ShmLoan) : Option (BufferSlot × Nat) := do
  let content ← store.slots[loan.slot]?
  match loan, content with
  | .owned _, .shm (some buffer) => some (content, buffer)
  | .payload _, .bytes payload => (crate.asShm store.crate payload).map (content, ·)
  | .payloadMut _, .bytes payload => (crate.asShmMut store.crate payload).map (content, ·)
  | _, _ => none

/-- `try_into` on a loan: its buffer, where the reference is the only one. -/
def tryInto (store : BufferStore σ) (loan : ShmLoan) : Option Nat :=
  ((store.loanedShm crate loan).filter fun (content, buffer) =>
    crate.isUnique store.crate content buffer).map Prod.snd

/-- The buffer that a mutable loan gives access to, unless the loan is null. -/
def loanedShmMut (store : BufferStore σ) : ShmMutLoan → Option Nat
  | .owned slot =>
      match store.slots[slot]? with
      | some (.shmMut content) => content
      | _ => none
  | .tryMut slot => store.tryInto crate (.owned slot)
  | .tryReloanMut loan => store.tryInto crate loan

def zShmClone (store : BufferStore σ) (out : Nat) (this : ShmLoan) : Option (BufferStore σ) := do
  let (_, shm) ← store.loanedShm crate this
  { store with crate := crate.toOwned store.crate shm }.construct out (.shm (some shm))

def zBytesToOwnedShm (store : BufferStore σ) (this dst : Nat)
    : Option (ZResult × BufferStore σ) :=
  match store.slots[this]? with
  | some (.bytes payload) =>
      match crate.asShm store.crate payload with
      | some shm =>
          ({ store with crate := crate.toOwned store.crate shm }.construct dst
            (.shm (some shm))).map (zOk, ·)
      | none => (store.construct dst (.shm none)).map (zEinval, ·)
  | _ => none

/-- What both kinds of buffers become. -/
def bytesFrom (store : BufferStore σ) (this : Nat) : Option Nat → Option (ZResult × BufferStore σ)
  | some buffer => (store.construct this (.bytes [.shm buffer])).map (zOk, ·)
  | none => (store.construct this (.bytes [])).map (zEnull, ·)

def zBytesFromShm (store : BufferStore σ) (this shm : Nat)
    : Option (ZResult × BufferStore σ) := do
  let (content, rest) ← store.takeContent shm
  match content with
  | .shm shm => rest.bytesFrom this shm
  | _ => none

def zBytesFromShmMut (store : BufferStore σ) (this shm : Nat)
    : Option (ZResult × BufferStore σ) := do
  let (content, rest) ← store.takeContent shm
  match content with
  | .shmMut shm => rest.bytesFrom this shm
  | _ => none

/-- The slices of the copy are those of the payload. -/
def zBytesClone (store : BufferStore σ) (dst this : Nat) : Option (BufferStore σ) :=
  match store.slots[this]? with
  | some (.bytes payload) =>
      { store with crate := crate.cloneBytes store.crate payload }.construct dst (.bytes payload)
  | _ => none

/-- The program writes through `z_shm_mut_data_mut`, as many bytes as there are. It asks for the
loan when it writes: a mutable loan is not kept across another use of its slot.
-/
def write (store : BufferStore σ) (loan : ShmMutLoan) (data : List UInt8)
    : Option (BufferStore σ) := do
  let buffer ← store.loanedShmMut crate loan
  if data.length = (crate.data store.crate buffer).length then
    some { store with crate := crate.write store.crate buffer data }
  else none

/-- A provider allocates a buffer for the program. -/
def alloc (store : BufferStore σ) (dst size : Nat) : Option (BufferStore σ) := do
  let (buffer, next) ← crate.alloc store.crate size
  { store with crate := next }.construct dst (.shmMut (some buffer))

/-- Zenoh takes a payload, as a put does. -/
def send (store : BufferStore σ) (src : Nat) : Option (BufferStore σ) := do
  let (content, rest) ← store.takeContent src
  match content with
  | .bytes payload => some { rest with crate := crate.send rest.crate payload }
  | _ => none

/-- Zenoh hands over a payload. -/
def receive (store : BufferStore σ) (dst : Nat) (event : ε) : Option (BufferStore σ) := do
  let (payload, next) ← crate.receive store.crate event
  { store with crate := next }.construct dst (.bytes payload)

-----------------------------------------------------------------------------------------
-- Programs
-----------------------------------------------------------------------------------------

/-- A call of the program, or a step of zenoh or of another process. -/
inductive Operation (ε : Type) where
  | declare
  | zInternalNull (this : Nat) (gravestone : BufferSlot)
  | take (dst src : Nat)
  | drop (target : Nat)
  | zShmFromMut (this that : Nat)
  | zShmMutTryFromImmut (this that immut : Nat)
  | zShmClone (out : Nat) (this : ShmLoan)
  | zBytesToOwnedShm (this dst : Nat)
  | zBytesFromShm (this shm : Nat)
  | zBytesFromShmMut (this shm : Nat)
  | zBytesClone (dst this : Nat)
  | write (loan : ShmMutLoan) (data : List UInt8)
  | alloc (dst size : Nat)
  | send (src : Nat)
  | receive (dst : Nat) (event : ε)
  | crate (event : ε)

/-- Run one operation; a function without a result code counts as returning `Z_OK`. -/
def exec (store : BufferStore σ) : Operation ε → Option (ZResult × BufferStore σ)
  | .declare => some (zOk, { store with slots := store.slots ++ [.uninit] })
  | .zInternalNull this gravestone => (store.zInternalNull this gravestone).map (zOk, ·)
  | .take dst src => (store.take dst src).map (zOk, ·)
  | .drop target => (store.drop crate target).map (zOk, ·)
  | .zShmFromMut this that => (store.zShmFromMut this that).map (zOk, ·)
  | .zShmMutTryFromImmut this that immut => store.zShmMutTryFromImmut crate this that immut
  | .zShmClone out this => (store.zShmClone crate out this).map (zOk, ·)
  | .zBytesToOwnedShm this dst => store.zBytesToOwnedShm crate this dst
  | .zBytesFromShm this shm => store.zBytesFromShm this shm
  | .zBytesFromShmMut this shm => store.zBytesFromShmMut this shm
  | .zBytesClone dst this => (store.zBytesClone crate dst this).map (zOk, ·)
  | .write loan data => (store.write crate loan data).map (zOk, ·)
  | .alloc dst size => (store.alloc crate dst size).map (zOk, ·)
  | .send src => (store.send crate src).map (zOk, ·)
  | .receive dst event => (store.receive crate dst event).map (zOk, ·)
  | .crate event => some (zOk, { store with crate := crate.step store.crate event })

/-- Any interleaving of the calls of a program with the steps of zenoh and other processes. -/
def machine : Library.Machine (BufferStore σ) (Operation ε) where
  init := { slots := [], forgotten := [], crate := crate.start }
  step := fun store operation => (store.exec crate operation).map Prod.snd

end BufferStore

end ZenohC
