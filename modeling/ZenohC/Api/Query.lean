import Mathlib.Logic.Function.Basic
import ZenohC.Collections.CSlice

/-! The query entry points and the owned arguments they consume.
A moved argument is a pointer to an owned slot of the caller. Each entry point takes its
arguments one field at a time, on every path that leaves it.
-/

namespace ZenohC

inductive QueryTarget where
  | bestMatching
  | all
  | allComplete
  deriving DecidableEq, Repr

inductive ConsolidationMode where
  | auto
  | none
  | monotonic
  | latest
  deriving DecidableEq, Repr

inductive CongestionControl where
  | block
  | drop
  | blockFirst
  deriving DecidableEq, Repr

inductive Locality where
  | any
  | sessionLocal
  | remote
  deriving DecidableEq, Repr

inductive ReplyKeyExpr where
  | any
  | matchingQuery
  deriving DecidableEq, Repr

inductive Priority where
  | realTime
  | interactiveHigh
  | interactiveLow
  | dataHigh
  | data
  | dataLow
  | background
  deriving DecidableEq, Repr

/-- The caller's owned slots, by the address of their moved pointers: bytes, encodings,
cancellation tokens and reply closures.
-/
structure MovedSlots (β ε τ κ : Type) where
  bytes : Nat → β
  encoding : Nat → ε
  cancellationToken : Nat → Option τ
  closureReply : Nat → κ

/-- The fields of `z_get_options_t` that are passed on as they are. -/
structure QuerySettings where
  target : QueryTarget
  consolidation : ConsolidationMode
  congestionControl : CongestionControl
  isExpress : Bool
  allowedDestination : Locality
  acceptReplies : ReplyKeyExpr
  priority : Priority
  deriving DecidableEq, Repr

/-- `z_get_options_t`; the moved fields are addresses of owned slots. -/
structure ZGetOptions (ι : Type) where
  settings : QuerySettings
  payload : Option Nat
  encoding : Option Nat
  sourceInfo : Option ι
  attachment : Option Nat
  timeoutMs : Nat
  cancellationToken : Option Nat
  deriving DecidableEq, Repr

structure ZQuerierGetOptions (ι : Type) where
  payload : Option Nat
  encoding : Option Nat
  sourceInfo : Option ι
  attachment : Option Nat
  cancellationToken : Option Nat
  deriving DecidableEq, Repr

/-- The query builder that an entry point fills in before it waits. -/
structure QueryBuilder (β ε τ ι : Type) where
  keyExpr : String
  parameters : String
  payload : Option β
  encoding : Option ε
  sourceInfo : Option ι
  attachment : Option β
  settings : Option QuerySettings
  timeoutMs : Option Nat
  cancellationToken : Option τ
  deriving DecidableEq, Repr

/-- The errors of the underlying operation that the entry points tell apart. -/
inductive QueryError where
  | sessionClosed
  | other
  deriving DecidableEq, Repr

/-- A C string argument: its address, and the bytes found there. -/
structure CharPtr where
  address : Ptr
  bytes : List UInt8
  deriving DecidableEq, Repr

/-- `TryFrom<&CStringView> for &str` on a view that was accepted. -/
def CharPtr.tryIntoStr (text : CharPtr) (len : Nat) : Option String :=
  if text.address.isNull then some ""
  else String.fromUTF8? ⟨(text.bytes.take len).toArray⟩

/-- `slice::from_raw_parts`: there is no slice at the null pointer, not even an empty one. -/
def CharPtr.fromRawParts (data : CharPtr) (len : Nat) : Option (List UInt8) :=
  if data.address.isNull then none else some (data.bytes.take len)

namespace Query

variable {β ε τ κ ι : Type} [Gravestone β] [Gravestone ε] [Gravestone κ]

/-- Actions of the library on the caller's slots. -/
abbrev Action (β ε τ κ α : Type) := StateM (MovedSlots β ε τ κ) α

def takeBytes (moved : Option Nat) : Action β ε τ κ (Option β) := fun slots =>
  match moved with
  | none => (none, slots)
  | some slot =>
      let (content, rest) := takeRustType (slots.bytes slot)
      (some content, { slots with bytes := Function.update slots.bytes slot rest })

def takeEncoding (moved : Option Nat) : Action β ε τ κ (Option ε) := fun slots =>
  match moved with
  | none => (none, slots)
  | some slot =>
      let (content, rest) := takeRustType (slots.encoding slot)
      (some content, { slots with encoding := Function.update slots.encoding slot rest })

/-- A taken gravestone gives no token, as an absent argument does. -/
def takeCancellationToken (moved : Option Nat) : Action β ε τ κ (Option τ) := fun slots =>
  match moved with
  | none => (none, slots)
  | some slot =>
      let (content, rest) := takeRustType (slots.cancellationToken slot)
      (content,
        { slots with cancellationToken := Function.update slots.cancellationToken slot rest })

def takeClosureReply (slot : Nat) : Action β ε τ κ κ := fun slots =>
  let (content, rest) := takeRustType (slots.closureReply slot)
  (content, { slots with closureReply := Function.update slots.closureReply slot rest })

/-- `z_get_options_t::clear`. -/
def clearGetOptions (options : ZGetOptions ι) : Action β ε τ κ (ZGetOptions ι) := do
  let _ ← takeBytes options.payload
  let _ ← takeEncoding options.encoding
  let _ ← takeBytes options.attachment
  let _ ← takeCancellationToken options.cancellationToken
  pure { options with
    payload := none, encoding := none, attachment := none, cancellationToken := none }

/-- `z_querier_get_options_t::clear`. -/
def clearQuerierGetOptions (options : ZQuerierGetOptions ι)
    : Action β ε τ κ (ZQuerierGetOptions ι) := do
  let _ ← takeBytes options.payload
  let _ ← takeEncoding options.encoding
  let _ ← takeBytes options.attachment
  let _ ← takeCancellationToken options.cancellationToken
  pure { options with
    payload := none, encoding := none, attachment := none, cancellationToken := none }

/-- `if let Some(o) = options`, on an optional pointer to an options struct. -/
def withOptions {γ : Type} (options : Option γ) (use : γ → Action β ε τ κ γ)
    : Action β ε τ κ (Option γ) :=
  match options with
  | none => pure none
  | some options => some <$> use options

/-- What `session.get(Selector::from((key_expr, parameters)))` starts from. -/
def newBuilder (keyExpr parameters : String) : QueryBuilder β ε τ ι :=
  { keyExpr, parameters, payload := none, encoding := none, sourceInfo := none,
    attachment := none, settings := none, timeoutMs := none, cancellationToken := none }

def nonzero (timeoutMs : Nat) : Option Nat :=
  if timeoutMs ≠ 0 then some timeoutMs else none

def getResult : Except QueryError Unit → ZResult
  | .ok () => zOk
  | .error .sessionClosed => zEsessionClosed
  | .error .other => zEgeneric

/-- The options of `z_get_with_parameters_substr` on their way into the builder. -/
def applyGetOptions (builder : QueryBuilder β ε τ ι) (options : ZGetOptions ι)
    : Action β ε τ κ (QueryBuilder β ε τ ι × ZGetOptions ι) := do
  let payload ← takeBytes options.payload
  let encoding ← takeEncoding options.encoding
  let attachment ← takeBytes options.attachment
  let token ← takeCancellationToken options.cancellationToken
  pure
    ({ builder with
        payload := payload
        encoding := encoding
        sourceInfo := options.sourceInfo
        attachment := attachment
        settings := some options.settings
        timeoutMs := nonzero options.timeoutMs
        cancellationToken := token },
      { options with
        payload := none, encoding := none, attachment := none, cancellationToken := none })

/-- The options of `z_querier_get_with_parameters_substr`. -/
def applyQuerierGetOptions (builder : QueryBuilder β ε τ ι) (options : ZQuerierGetOptions ι)
    : Action β ε τ κ (QueryBuilder β ε τ ι × ZQuerierGetOptions ι) := do
  let payload ← takeBytes options.payload
  let encoding ← takeEncoding options.encoding
  let attachment ← takeBytes options.attachment
  let token ← takeCancellationToken options.cancellationToken
  pure
    ({ builder with
        payload := payload
        encoding := encoding
        sourceInfo := options.sourceInfo
        attachment := attachment
        cancellationToken := token },
      { options with
        payload := none, encoding := none, attachment := none, cancellationToken := none })

/-- The options of `ze_querying_subscriber_get`, which takes no cancellation token. -/
def applyFetchOptions (builder : QueryBuilder β ε τ ι) (options : ZGetOptions ι)
    : Action β ε τ κ (QueryBuilder β ε τ ι × ZGetOptions ι) := do
  let payload ← takeBytes options.payload
  let encoding ← takeEncoding options.encoding
  let attachment ← takeBytes options.attachment
  pure
    ({ builder with
        payload := payload
        encoding := encoding
        attachment := attachment
        settings := some options.settings
        sourceInfo := options.sourceInfo
        timeoutMs := nonzero options.timeoutMs },
      { options with payload := none, encoding := none, attachment := none })

/-- `if let Some(options) = options`, on the way into the builder. -/
def applyOptions {γ : Type} (builder : QueryBuilder β ε τ ι) (options : Option γ)
    (apply : QueryBuilder β ε τ ι → γ → Action β ε τ κ (QueryBuilder β ε τ ι × γ))
    : Action β ε τ κ (QueryBuilder β ε τ ι × Option γ) :=
  match options with
  | none => pure (builder, none)
  | some options => do
      let (builder, options) ← apply builder options
      pure (builder, some options)

/-- `wait` is the network's answer to the finished query and its reply closure. -/
def zGetWithParametersSubstr (wait : QueryBuilder β ε τ ι → κ → Except QueryError Unit)
    (keyExpr : String) (parameters : CharPtr) (parametersLen callback : Nat)
    (options : Option (ZGetOptions ι))
    : Action β ε τ κ (ZResult × Option (ZGetOptions ι)) := do
  let callback ← takeClosureReply callback
  match CSlice.newBorrowed parameters.address parametersLen with
  | .error failure =>
      let options ← withOptions options clearGetOptions
      pure (failure.code, options)
  | .ok _ =>
      match parameters.tryIntoStr parametersLen with
      | none =>
          let options ← withOptions options clearGetOptions
          pure (zEinval, options)
      | some parameters =>
          let (builder, options) ←
            applyOptions (newBuilder keyExpr parameters) options applyGetOptions
          pure (getResult (wait builder callback), options)

/-- `keyExpr` is the key expression of the querier. -/
def zQuerierGetWithParametersSubstr
    (wait : QueryBuilder β ε τ ι → κ → Except QueryError Unit) (keyExpr : String)
    (parameters : CharPtr) (parametersLen callback : Nat)
    (options : Option (ZQuerierGetOptions ι))
    : Action β ε τ κ (ZResult × Option (ZQuerierGetOptions ι)) := do
  let callback ← takeClosureReply callback
  match CSlice.newBorrowed parameters.address parametersLen with
  | .error failure =>
      let options ← withOptions options clearQuerierGetOptions
      pure (failure.code, options)
  | .ok _ =>
      match parameters.tryIntoStr parametersLen with
      | none =>
          let options ← withOptions options clearQuerierGetOptions
          pure (zEinval, options)
      | some parameters =>
          let (builder, options) ←
            applyOptions (newBuilder keyExpr "") options applyQuerierGetOptions
          let builder := if parameters ≠ "" then { builder with parameters } else builder
          pure (getResult (wait builder callback), options)

/-- The request that `ze_querying_subscriber_get` hands to `fetch`. -/
def fetchRequest (wait : QueryBuilder β ε τ ι → Except QueryError Unit) (selector : String)
    (options : Option (ZGetOptions ι))
    : Action β ε τ κ (Except QueryError Unit × Option (ZGetOptions ι)) := do
  let (builder, options) ← applyOptions (newBuilder selector "") options applyFetchOptions
  pure (wait builder, options)

/-- `fetch` stands for `FetchingSubscriber::fetch` followed by `wait`. -/
def zeQueryingSubscriberGet
    (fetch
      : Action β ε τ κ (Except QueryError Unit × Option (ZGetOptions ι))
        → Action β ε τ κ (Except QueryError Unit × Option (ZGetOptions ι)))
    (wait : QueryBuilder β ε τ ι → Except QueryError Unit) (selector : String)
    (options : Option (ZGetOptions ι))
    : Action β ε τ κ (ZResult × Option (ZGetOptions ι)) := do
  match ← fetch (fetchRequest wait selector options) with
  | (.error _, options) => pure (zEgeneric, options)
  | (.ok (), options) => pure (zOk, options)

end Query

end ZenohC
