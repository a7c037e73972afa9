import ZenohC.Api.Query
import ZenohC.Shm.Provider

/-! The fallible constructors of the API and the destinations they leave behind.
What the underlying operation answers is an input of each call: the environment, the file
system, the network and the shared-memory crate may answer in any way.
-/

namespace ZenohC

-----------------------------------------------------------------------------------------
-- The constructors outside the shared-memory API
-----------------------------------------------------------------------------------------

/-- `zenoh::config` and the UTF-8 check, with the texts of their errors. -/
structure ConfigCrate (γ : Type) where
  fromEnv : Except String γ
  fromFile : String → Except String γ
  fromJson5 : String → Except String γ
  utf8Error : List UInt8 → String

/-- The builder that `_declare_subscriber_inner` fills in. -/
structure SubscriberBuilder (κ : Type) where
  keyExpr : String
  callback : κ
  allowedOrigin : Option Locality
  deriving DecidableEq, Repr

/-- The builder of the transport and of the link events listeners; only the latter can be
restricted to one transport.
-/
structure EventsListenerBuilder (κ ρ : Type) where
  callback : κ
  history : Option Bool
  transport : Option ρ
  deriving DecidableEq, Repr

/-- `z_link_events_listener_options_t`, with the slot behind its moved transport in place of
the pointer.
-/
structure ZLinkEventsListenerOptions (ρ : Type) where
  history : Bool
  transport : Option (Option ρ)
  deriving DecidableEq, Repr

namespace Constructors

variable {α γ κ ρ : Type} [Gravestone κ]

/-- `std::str::from_utf8` on the bytes of an argument. -/
def fromUtf8 (crate : ConfigCrate γ) (text : CharPtr) (len : Nat) : Except String String :=
  match String.fromUTF8? ⟨(text.bytes.take len).toArray⟩ with
  | some text => .ok text
  | none => .error (crate.utf8Error (text.bytes.take len))

/-- An error branch with the code and the text of its `report_error!`. -/
def refuse (code : ZResult) (text : String → String) (outcome : Except String α)
    : Except Refusal α :=
  outcome.mapError fun error => { code, reported := some (text error) }

def zcConfigFromEnv (crate : ConfigCrate γ) (this : MaybeUninit (Option γ)) : Constructed γ :=
  writeOnOk this (refuse zEio (fun error => s!"Close error: {error}") crate.fromEnv)

/-- `zc_config_from_substr`: the gravestone is written before anything else. -/
def zcConfigFromSubstr (crate : ConfigCrate γ) (s : CharPtr) (len : Nat) : Constructed γ :=
  writeOnOk (.written none)
    (if s.address.isNull then
      .error { code := zEinval, reported := some "String should not be NULL" }
    else do
      let confStr ←
        refuse zEinval (fun error => s!"Config should be a valid utf-8 string {error}")
          (fromUtf8 crate s len)
      refuse zEparse (fun error => s!"Invalid config string: {error}") (crate.fromJson5 confStr))

def zcConfigFromFileSubstr (crate : ConfigCrate γ) (path : CharPtr) (len : Nat)
    : Constructed γ :=
  writeOnOk (.written none)
    (if path.address.isNull then
      .error { code := zEinval, reported := some "Path should be NULL" }
    else do
      let pathStr ←
        refuse zEinval (fun error => s!"Path should be a valid utf-8 string {error}")
          (fromUtf8 crate path len)
      refuse zEparse (fun error => s!"Failed to read config from {pathStr}: {error}")
        (crate.fromFile pathStr))

/-- `z_open`, with the slot of the moved configuration afterwards. -/
def zOpen {ς : Type} (open' : γ → Except String ς) (config : Option γ)
    : Constructed ς × Option γ :=
  let (taken, slot) := takeRustType config
  let opened := do
    let config ←
      match taken with
      | none => .error { code := zEinval, reported := some "Config not provided" }
      | some config => .ok config
    refuse zEnetwork (fun error => s!"Error opening session: {error}") (open' config)
  (writeOrNull opened, slot)

/-- `z_declare_subscriber`, with the slot of the moved callback afterwards. -/
def zDeclareSubscriber (wait : SubscriberBuilder κ → Except String α) (keyExpr : String)
    (callback : κ) (options : Option Locality)
    : Constructed α × κ :=
  let (callback, slot) := takeRustType callback
  let subscriber := { keyExpr, callback, allowedOrigin := options }
  (writeOrNull (refuse zEgeneric id (wait subscriber)), slot)

/-- `z_declare_transport_events_listener`; the options hold the history flag. -/
def zDeclareTransportEventsListener
    (wait : EventsListenerBuilder κ ρ → Except String α) (listener : MaybeUninit (Option α))
    (callback : κ) (options : Option Bool)
    : Constructed α × κ :=
  let (callback, slot) := takeRustType callback
  let builder := { callback, history := options, transport := none }
  let declared :=
    refuse zEgeneric (fun error => s!"Failed to declare transport events listener: {error}")
      (wait builder)
  (writeOnOk listener declared, slot)

/-- `z_declare_link_events_listener`, with the callback's slot and the options afterwards. A
moved transport is taken in any case, and ignored if it was a gravestone.
-/
def zDeclareLinkEventsListener
    (wait : EventsListenerBuilder κ ρ → Except String α) (listener : MaybeUninit (Option α))
    (callback : κ) (options : Option (ZLinkEventsListenerOptions ρ))
    : Constructed α × κ × Option (ZLinkEventsListenerOptions ρ) :=
  let (callback, slot) := takeRustType callback
  let builder :=
    { callback
      history := options.map ZLinkEventsListenerOptions.history
      transport := do (← (← options).transport) }
  let declared :=
    refuse zEgeneric (fun error => s!"Failed to declare link events listener: {error}")
      (wait builder)
  (writeOnOk listener declared, slot, options.map fun options => { options with transport := none })

end Constructors

-----------------------------------------------------------------------------------------
-- The family of constructors
-----------------------------------------------------------------------------------------

open Constructors Shm

/-- A call of a fallible constructor of an owned object, with everything but its destination. -/
inductive FallibleCall : Type → Type 1 where
  | zcConfigFromEnv {γ : Type} (crate : ConfigCrate γ) : FallibleCall γ
  | zcConfigFromSubstr {γ : Type} (crate : ConfigCrate γ) (s : CharPtr) (len : Nat)
    : FallibleCall γ
  | zcConfigFromFileSubstr {γ : Type} (crate : ConfigCrate γ) (path : CharPtr) (len : Nat)
    : FallibleCall γ
  | zOpen {γ ς : Type} (open' : γ → Except String ς) (config : Option γ) : FallibleCall ς
  | zDeclareSubscriber {κ α : Type} [Gravestone κ]
      (wait : SubscriberBuilder κ → Except String α) (keyExpr : String) (callback : κ)
      (options : Option Locality)
    : FallibleCall α
  | zDeclareTransportEventsListener {κ ρ α : Type} [Gravestone κ]
      (wait : EventsListenerBuilder κ ρ → Except String α) (callback : κ)
      (options : Option Bool)
    : FallibleCall α
  | zDeclareLinkEventsListener {κ ρ α : Type} [Gravestone κ]
      (wait : EventsListenerBuilder κ ρ → Except String α) (callback : κ)
      (options : Option (ZLinkEventsListenerOptions ρ))
    : FallibleCall α
  | zMemoryLayoutNew {π ℓ : ShmBackend → Type} {μ β σ : Type} (shm : ShmCrate π ℓ μ β σ)
      (size : Nat) (alignment : ZAllocAlignment)
    : FallibleCall μ
  | zChunkAllocResultNewOk {σ : Type} (allocatedChunk : ZAllocatedChunk σ)
    : FallibleCall (Except ZAllocError (AllocatedChunk σ))
  | zShmProviderDefaultNew {π ℓ : ShmBackend → Type} {μ β σ : Type}
      (shm : ShmCrate π ℓ μ β σ) (size : Nat)
    : FallibleCall (CSHMProvider π)
  | zPosixShmProviderNew {π ℓ : ShmBackend → Type} {μ β σ : Type}
      (shm : ShmCrate π ℓ μ β σ) (size : Nat)
    : FallibleCall (CSHMProvider π)
  | zPosixShmProviderWithLayoutNew {π ℓ : ShmBackend → Type} {μ β σ : Type}
      (shm : ShmCrate π ℓ μ β σ) (layout : μ)
    : FallibleCall (CSHMProvider π)
  | zShmProviderAllocLayout {π ℓ : ShmBackend → Type} {μ β σ : Type}
      (shm : ShmCrate π ℓ μ β σ) (provider : CSHMProvider π) (size : Nat)
    : FallibleCall (CSHMLayout ℓ)
  | zShmProviderAllocLayoutAligned {π ℓ : ShmBackend → Type} {μ β σ : Type}
      (shm : ShmCrate π ℓ μ β σ) (provider : CSHMProvider π) (size : Nat)
      (alignment : ZAllocAlignment)
    : FallibleCall (CSHMLayout ℓ)
  | zShmProviderMap {π ℓ : ShmBackend → Type} {μ β σ : Type} (shm : ShmCrate π ℓ μ β σ)
      (provider : CSHMProvider π) (allocatedChunk : ZAllocatedChunk σ) (len : Nat)
    : FallibleCall β
  | zShmClientStorageNew {κ ς : Type} (build : Bool → List κ → ς) (clients : List κ)
      (addDefaultClientSet : Bool)
    : FallibleCall ς

/-- The provider's backend accepts the memory layout. -/
def CSHMProvider.Lays {π ℓ : ShmBackend → Type} {μ β σ : Type} (shm : ShmCrate π ℓ μ β σ)
    (layout : μ)
    : CSHMProvider π → Prop
  | .posix provider | .sharedPosix provider =>
      (shm.allocLayout .posix provider layout).toBool = true
  | .dynamic provider => (shm.allocLayout .dynamic provider layout).toBool = true
  | .dynamicThreadsafe provider =>
      (shm.allocLayout .dynamicThreadsafe provider layout).toBool = true

/-- The provider's backend maps the chunk. -/
def CSHMProvider.Maps {π ℓ : ShmBackend → Type} {μ β σ : Type} (shm : ShmCrate π ℓ μ β σ)
    (chunk : AllocatedChunk σ) (len : Nat)
    : CSHMProvider π → Prop
  | .posix provider | .sharedPosix provider =>
      (shm.map .posix provider chunk len).toBool = true
  | .dynamic provider => (shm.map .dynamic provider chunk len).toBool = true
  | .dynamicThreadsafe provider =>
      (shm.map .dynamicThreadsafe provider chunk len).toBool = true

namespace FallibleCall

variable {α : Type}

def run : {α : Type} → FallibleCall α → MaybeUninit (Option α) → Constructed α
  | _, .zcConfigFromEnv crate, slot => Constructors.zcConfigFromEnv crate slot
  | _, .zcConfigFromSubstr crate s len, _ => Constructors.zcConfigFromSubstr crate s len
  | _, .zcConfigFromFileSubstr crate path len, _ =>
      Constructors.zcConfigFromFileSubstr crate path len
  | _, .zOpen open' config, _ => (Constructors.zOpen open' config).1
  | _, @zDeclareSubscriber _ _ _ wait keyExpr callback options, _ =>
      (Constructors.zDeclareSubscriber wait keyExpr callback options).1
  | _, @zDeclareTransportEventsListener _ _ _ _ wait callback options, slot =>
      (Constructors.zDeclareTransportEventsListener wait slot callback options).1
  | _, @zDeclareLinkEventsListener _ _ _ _ wait callback options, slot =>
      (Constructors.zDeclareLinkEventsListener wait slot callback options).1
  | _, .zMemoryLayoutNew shm size alignment, slot =>
      Shm.zMemoryLayoutNew shm slot size alignment
  | _, .zChunkAllocResultNewOk allocatedChunk, slot =>
      (Shm.zChunkAllocResultNewOk slot allocatedChunk).1
  | _, .zShmProviderDefaultNew shm size, slot => Shm.zShmProviderDefaultNew shm slot size
  | _, .zPosixShmProviderNew shm size, _ => Shm.zPosixShmProviderNew shm size
  | _, .zPosixShmProviderWithLayoutNew shm layout, _ =>
      Shm.zPosixShmProviderWithLayoutNew shm layout
  | _, .zShmProviderAllocLayout shm provider size, slot =>
      Shm.zShmProviderAllocLayout shm slot provider size
  | _, .zShmProviderAllocLayoutAligned shm provider size alignment, slot =>
      Shm.zShmProviderAllocLayoutAligned shm slot provider size alignment
  | _, .zShmProviderMap shm provider allocatedChunk len, slot =>
      (Shm.zShmProviderMap shm slot provider allocatedChunk len).1
  | _, .zShmClientStorageNew build clients addDefaultClientSet, slot =>
      Shm.zShmClientStorageNew build slot clients addDefaultClientSet

/-- The inputs on which the underlying operation of a constructor succeeds. -/
def Accepted : {α : Type} → FallibleCall α → Prop
  | _, .zcConfigFromEnv crate => crate.fromEnv.toBool = true
  | _, .zcConfigFromSubstr crate s len =>
      s.address.isNull = false
      ∧ ∃ text, fromUtf8 crate s len = .ok text ∧ (crate.fromJson5 text).toBool = true
  | _, .zcConfigFromFileSubstr crate path len =>
      path.address.isNull = false
      ∧ ∃ text, fromUtf8 crate path len = .ok text ∧ (crate.fromFile text).toBool = true
  | _, .zOpen open' config => ∃ taken, config = some taken ∧ (open' taken).toBool = true
  | _, @zDeclareSubscriber _ _ _ wait keyExpr callback options =>
      (wait { keyExpr, callback, allowedOrigin := options }).toBool = true
  | _, @zDeclareTransportEventsListener _ _ _ _ wait callback options =>
      (wait { callback, history := options, transport := none }).toBool = true
  | _, @zDeclareLinkEventsListener _ _ _ _ wait callback options =>
      (wait
        { callback
          history := options.map ZLinkEventsListenerOptions.history
          transport := do (← (← options).transport) }).toBool = true
  | _, .zMemoryLayoutNew shm size alignment =>
      ∃ valid, shm.allocAlignmentNew alignment.pow = .ok valid
        ∧ (shm.memoryLayoutNew size valid).toBool = true
  | _, .zChunkAllocResultNewOk allocatedChunk =>
      allocatedChunk.ptr.isSome = true ∧ 0 < allocatedChunk.descriptpr.len
  | _, .zShmProviderDefaultNew shm size => (shm.defaultBackend size).toBool = true
  | _, .zPosixShmProviderNew shm size => (shm.posixBackend size).toBool = true
  | _, .zPosixShmProviderWithLayoutNew shm layout =>
      (shm.posixBackendWithLayout layout).toBool = true
  | _, .zShmProviderAllocLayout shm provider size =>
      ∃ layout, shm.memoryLayoutNew size { pow := 0 } = .ok layout ∧ provider.Lays shm layout
  | _, .zShmProviderAllocLayoutAligned shm provider size alignment =>
      ∃ layout, shm.memoryLayoutNew size alignment = .ok layout ∧ provider.Lays shm layout
  | _, .zShmProviderMap shm provider allocatedChunk len =>
      ∃ chunk, allocatedChunk.tryInto.1 = some chunk ∧ provider.Maps shm chunk len
  | _, .zShmClientStorageNew _ clients _ => clients ≠ []

/-- The constructors that write the gravestone, before they start or when they fail. -/
def WritesGravestone : {α : Type} → FallibleCall α → Prop
  | _, .zcConfigFromSubstr _ _ _ | _, .zcConfigFromFileSubstr _ _ _ | _, .zOpen _ _
  | _, @zDeclareSubscriber _ _ _ _ _ _ _ | _, .zPosixShmProviderNew _ _
  | _, .zPosixShmProviderWithLayoutNew _ _ =>
      True
  | _, .zcConfigFromEnv _ | _, @zDeclareTransportEventsListener _ _ _ _ _ _ _
  | _, @zDeclareLinkEventsListener _ _ _ _ _ _ _ | _, .zMemoryLayoutNew _ _ _
  | _, .zChunkAllocResultNewOk _ | _, .zShmProviderDefaultNew _ _
  | _, .zShmProviderAllocLayout _ _ _ | _, .zShmProviderAllocLayoutAligned _ _ _ _
  | _, .zShmProviderMap _ _ _ _ | _, .zShmClientStorageNew _ _ _ =>
      False

end FallibleCall

end ZenohC
