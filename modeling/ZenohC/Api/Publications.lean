import ZenohC.Api.Query
import ZenohC.Library.Handover

/-! The calls that publish or reply, and the owned values that they consume.
Payloads, attachments and encodings are passed by moved pointers. A builder of the crate takes
their contents, whatever the network answers in the end.
-/

namespace ZenohC

open Library

inductive Reliability where
  | bestEffort
  | reliable
  deriving DecidableEq, Repr

/-- An owned slot of the program. The content is the value that was constructed there, or
nothing in the gravestone state.
-/
inductive OwnedValue where
  | bytes (content : Option Nat)
  | encoding (content : Option Nat)
  deriving DecidableEq, Repr

/-- The fields of the options that are passed on as they are, where a builder has them. -/
structure PublicationSettings where
  congestionControl : Option CongestionControl
  priority : Option Priority
  isExpress : Option Bool
  reliability : Option Reliability
  allowedDestination : Option Locality
  deriving DecidableEq, Repr

inductive PublicationKind where
  | put
  | delete
  | reply
  | replyErr
  | replyDel
  deriving DecidableEq, Repr

/-- The builder that a call has filled in when it waits. A field that was not set is left to
the crate.
-/
structure Publication (τ ι : Type) where
  kind : PublicationKind
  keyExpr : String
  payload : Option (Option Nat)
  encoding : Option (Option Nat)
  attachment : Option (Option Nat)
  timestamp : Option τ
  sourceInfo : Option ι
  settings : PublicationSettings
  deriving DecidableEq, Repr

/-- `z_put_options_t`; the moved fields are indices of owned slots. -/
structure ZPutOptions (τ ι : Type) where
  encoding : Option Nat
  congestionControl : CongestionControl
  priority : Priority
  isExpress : Bool
  timestamp : Option τ
  reliability : Reliability
  allowedDestination : Locality
  sourceInfo : Option ι
  attachment : Option Nat
  deriving DecidableEq, Repr

structure ZDeleteOptions (τ : Type) where
  congestionControl : CongestionControl
  priority : Priority
  isExpress : Bool
  timestamp : Option τ
  reliability : Reliability
  allowedDestination : Locality
  deriving DecidableEq, Repr

/-- `ze_advanced_publisher_put_options_t` wraps it. -/
structure ZPublisherPutOptions (τ ι : Type) where
  encoding : Option Nat
  timestamp : Option τ
  sourceInfo : Option ι
  attachment : Option Nat
  deriving DecidableEq, Repr

/-- `ze_advanced_publisher_delete_options_t` wraps it. -/
structure ZPublisherDeleteOptions (τ : Type) where
  timestamp : Option τ
  deriving DecidableEq, Repr

/-- The deprecated fields, which no call reads, are left out. -/
structure ZQueryReplyOptions (τ ι : Type) where
  encoding : Option Nat
  isExpress : Bool
  timestamp : Option τ
  sourceInfo : Option ι
  attachment : Option Nat
  deriving DecidableEq, Repr

structure ZQueryReplyErrOptions where
  encoding : Option Nat
  deriving DecidableEq, Repr

structure ZQueryReplyDelOptions (τ ι : Type) where
  isExpress : Bool
  timestamp : Option τ
  sourceInfo : Option ι
  attachment : Option Nat
  deriving DecidableEq, Repr

/-- What a call leaves: its result, the builder it waited for, and the options of the caller. -/
structure Sent (τ ι γ : Type) where
  result : ZResult
  handed : Publication τ ι
  options : Option γ
  deriving DecidableEq, Repr

namespace Publications

variable {τ ι : Type}

abbrev Action (α : Type) :=
  CellAction OwnedValue α

/-- `take_rust_type` on moved bytes. -/
def takeBytes (moved : Nat) : Action (Option Nat) := fun slots =>
  match slots[moved]? with
  | some (.bytes content) => some (content, slots.set moved (.bytes none))
  | _ => none

/-- `take_rust_type` on a moved encoding. -/
def takeEncoding (moved : Nat) : Action (Option Nat) := fun slots =>
  match slots[moved]? with
  | some (.encoding content) => some (content, slots.set moved (.encoding none))
  | _ => none

/-- `if let Some(x) = options.x.take()`, and then the take of what `x` points to. -/
def takeOptional (take : Nat → Action (Option Nat)) : Option Nat → Action (Option (Option Nat))
  | none => pure none
  | some moved => do
      let content ← take moved
      pure (some content)

def noSettings : PublicationSettings :=
  { congestionControl := none, priority := none, isExpress := none, reliability := none,
    allowedDestination := none }

/-- A builder to which nothing has been added yet. -/
def newPublication (kind : PublicationKind) (keyExpr : String) (payload : Option (Option Nat))
    : Publication τ ι :=
  { kind, keyExpr, payload, encoding := none, attachment := none, timestamp := none,
    sourceInfo := none, settings := noSettings }

/-- The result where errors of the network are not told apart. -/
def plainResult : Except QueryError Unit → ZResult
  | .ok () => zOk
  | .error _ => zEgeneric

-----------------------------------------------------------------------------------------
-- The calls
-----------------------------------------------------------------------------------------

variable (wait : Publication τ ι → Except QueryError Unit)

def zPut (keyExpr : String) (payload : Nat) (options : Option (ZPutOptions τ ι))
    : Action (Sent τ ι (ZPutOptions τ ι)) := do
  let content ← takeBytes payload
  let put := newPublication .put keyExpr (some content)
  match options with
  | none => pure { result := Query.getResult (wait put), handed := put, options := none }
  | some options => do
      let encoding ← takeOptional takeEncoding options.encoding
      let attachment ← takeOptional takeBytes options.attachment
      let put : Publication τ ι :=
        { put with
          encoding
          attachment
          timestamp := options.timestamp
          sourceInfo := options.sourceInfo
          settings :=
            { congestionControl := some options.congestionControl
              priority := some options.priority
              isExpress := some options.isExpress
              reliability := some options.reliability
              allowedDestination := some options.allowedDestination } }
      pure
        { result := Query.getResult (wait put)
          handed := put
          options := some { options with encoding := none, attachment := none } }

/-- A closed session is an error like any other here. -/
def zDelete (keyExpr : String) (options : Option (ZDeleteOptions τ))
    : Action (Sent τ ι (ZDeleteOptions τ)) :=
  let del := newPublication .delete keyExpr none
  let del : Publication τ ι :=
    match options with
    | none => del
    | some options =>
        { del with
          timestamp := options.timestamp
          settings :=
            { congestionControl := some options.congestionControl
              priority := some options.priority
              isExpress := some options.isExpress
              reliability := some options.reliability
              allowedDestination := some options.allowedDestination } }
  pure { result := plainResult (wait del), handed := del, options }

def applyPublisherPutOptions (builder : Publication τ ι) (options : ZPublisherPutOptions τ ι)
    : Action (Publication τ ι × ZPublisherPutOptions τ ι) := do
  let encoding ← takeOptional takeEncoding options.encoding
  let attachment ← takeOptional takeBytes options.attachment
  pure
    ({ builder with
       encoding
       attachment
       sourceInfo := options.sourceInfo
       timestamp := options.timestamp },
     { options with encoding := none, attachment := none })

/-- The source info of the options is not looked at. -/
def applyAdvancedPublisherPutOptions (builder : Publication τ ι)
    (options : ZPublisherPutOptions τ ι)
    : Action (Publication τ ι × ZPublisherPutOptions τ ι) := do
  let encoding ← takeOptional takeEncoding options.encoding
  let attachment ← takeOptional takeBytes options.attachment
  pure
    ({ builder with encoding, attachment, timestamp := options.timestamp },
     { options with encoding := none, attachment := none })

/-- The two kinds of publishers differ in what they do with the options. `keyExpr` is the key
expression of the publisher.
-/
def publisherPut
    (apply
      : Publication τ ι
        → ZPublisherPutOptions τ ι
        → Action (Publication τ ι × ZPublisherPutOptions τ ι))
    (keyExpr : String) (payload : Nat) (options : Option (ZPublisherPutOptions τ ι))
    : Action (Sent τ ι (ZPublisherPutOptions τ ι)) := do
  let content ← takeBytes payload
  let put := newPublication .put keyExpr (some content)
  match options with
  | none => pure { result := Query.getResult (wait put), handed := put, options := none }
  | some options => do
      let (put, options) ← apply put options
      pure { result := Query.getResult (wait put), handed := put, options := some options }

def zPublisherPut
    : String → Nat → Option (ZPublisherPutOptions τ ι)
      → Action (Sent τ ι (ZPublisherPutOptions τ ι)) :=
  publisherPut wait applyPublisherPutOptions

def zeAdvancedPublisherPut
    : String → Nat → Option (ZPublisherPutOptions τ ι)
      → Action (Sent τ ι (ZPublisherPutOptions τ ι)) :=
  publisherPut wait applyAdvancedPublisherPutOptions

def applyPublisherDeleteOptions (builder : Publication τ ι) (options : ZPublisherDeleteOptions τ)
    : Publication τ ι :=
  { builder with timestamp := options.timestamp }

def zPublisherDelete (keyExpr : String) (options : Option (ZPublisherDeleteOptions τ))
    : Action (Sent τ ι (ZPublisherDeleteOptions τ)) :=
  let del := newPublication .delete keyExpr none
  let del : Publication τ ι :=
    match options with
    | none => del
    | some options => applyPublisherDeleteOptions del options
  pure { result := plainResult (wait del), handed := del, options }

/-- The same steps on an advanced publisher. -/
def zeAdvancedPublisherDelete
    : String → Option (ZPublisherDeleteOptions τ)
      → Action (Sent τ ι (ZPublisherDeleteOptions τ)) :=
  zPublisherDelete wait

def zQueryReply (keyExpr : String) (payload : Nat) (options : Option (ZQueryReplyOptions τ ι))
    : Action (Sent τ ι (ZQueryReplyOptions τ ι)) := do
  let content ← takeBytes payload
  let reply := newPublication .reply keyExpr (some content)
  match options with
  | none => pure { result := plainResult (wait reply), handed := reply, options := none }
  | some options => do
      let encoding ← takeOptional takeEncoding options.encoding
      let attachment ← takeOptional takeBytes options.attachment
      let reply : Publication τ ι :=
        { reply with
          encoding
          attachment
          timestamp := options.timestamp
          sourceInfo := options.sourceInfo
          settings := { noSettings with isExpress := some options.isExpress } }
      pure
        { result := plainResult (wait reply)
          handed := reply
          options := some { options with encoding := none, attachment := none } }

/-- Without an encoding in the options, the default one is set, which is the gravestone. -/
def zQueryReplyErr (payload : Nat) (options : Option ZQueryReplyErrOptions)
    : Action (Sent τ ι ZQueryReplyErrOptions) := do
  let content ← takeBytes payload
  let encoding ← takeOptional takeEncoding (options.bind ZQueryReplyErrOptions.encoding)
  let reply : Publication τ ι :=
    { newPublication .replyErr "" (some content) with encoding := some (encoding.getD none) }
  pure
    { result := plainResult (wait reply)
      handed := reply
      options := options.map fun _ => { encoding := none } }

def zQueryReplyDel (keyExpr : String) (options : Option (ZQueryReplyDelOptions τ ι))
    : Action (Sent τ ι (ZQueryReplyDelOptions τ ι)) := do
  let reply := newPublication .replyDel keyExpr none
  match options with
  | none => pure { result := plainResult (wait reply), handed := reply, options := none }
  | some options => do
      let attachment ← takeOptional takeBytes options.attachment
      let reply : Publication τ ι :=
        { reply with
          attachment
          timestamp := options.timestamp
          sourceInfo := options.sourceInfo
          settings := { noSettings with isExpress := some options.isExpress } }
      pure
        { result := plainResult (wait reply)
          handed := reply
          options := some { options with attachment := none } }

-----------------------------------------------------------------------------------------
-- Runs of a program
-----------------------------------------------------------------------------------------

/-- A call with its arguments; a moved argument is the index of an owned slot. -/
inductive Call (τ ι : Type) where
  | zPut (keyExpr : String) (payload : Nat) (options : Option (ZPutOptions τ ι))
  | zDelete (keyExpr : String) (options : Option (ZDeleteOptions τ))
  | zPublisherPut (keyExpr : String) (payload : Nat)
    (options : Option (ZPublisherPutOptions τ ι))
  | zPublisherDelete (keyExpr : String) (options : Option (ZPublisherDeleteOptions τ))
  | zeAdvancedPublisherPut (keyExpr : String) (payload : Nat)
    (options : Option (ZPublisherPutOptions τ ι))
  | zeAdvancedPublisherDelete (keyExpr : String) (options : Option (ZPublisherDeleteOptions τ))
  | zQueryReply (keyExpr : String) (payload : Nat) (options : Option (ZQueryReplyOptions τ ι))
  | zQueryReplyErr (payload : Nat) (options : Option ZQueryReplyErrOptions)
  | zQueryReplyDel (keyExpr : String) (options : Option (ZQueryReplyDelOptions τ ι))

/-- A call as its caller sees it: the moved pointers that its options still have. -/
structure Outcome (τ ι : Type) where
  result : ZResult
  handed : Publication τ ι
  pointers : List Nat
  deriving DecidableEq, Repr

def outcome {γ : Type} (moved : γ → List Nat) (sent : Sent τ ι γ) : Outcome τ ι :=
  { result := sent.result
    handed := sent.handed
    pointers := (sent.options.map moved).getD [] }

def Call.execute (wait : Publication τ ι → Except QueryError Unit)
    : Call τ ι → Action (Outcome τ ι)
  | .zPut keyExpr payload options =>
      outcome (fun left => left.encoding.toList ++ left.attachment.toList)
        <$> Publications.zPut wait keyExpr payload options
  | .zDelete keyExpr options =>
      outcome (fun _ => []) <$> Publications.zDelete wait keyExpr options
  | .zPublisherPut keyExpr payload options =>
      outcome (fun left => left.encoding.toList ++ left.attachment.toList)
        <$> Publications.zPublisherPut wait keyExpr payload options
  | .zPublisherDelete keyExpr options =>
      outcome (fun _ => []) <$> Publications.zPublisherDelete wait keyExpr options
  | .zeAdvancedPublisherPut keyExpr payload options =>
      outcome (fun left => left.encoding.toList ++ left.attachment.toList)
        <$> Publications.zeAdvancedPublisherPut wait keyExpr payload options
  | .zeAdvancedPublisherDelete keyExpr options =>
      outcome (fun _ => []) <$> Publications.zeAdvancedPublisherDelete wait keyExpr options
  | .zQueryReply keyExpr payload options =>
      outcome (fun left => left.encoding.toList ++ left.attachment.toList)
        <$> Publications.zQueryReply wait keyExpr payload options
  | .zQueryReplyErr payload options =>
      outcome (fun left => left.encoding.toList)
        <$> Publications.zQueryReplyErr wait payload options
  | .zQueryReplyDel keyExpr options =>
      outcome (fun left => left.attachment.toList)
        <$> Publications.zQueryReplyDel wait keyExpr options

/-- The owned slots of a program, what it has published or replied so far, and what was
dropped. Constructed values are numbered.
-/
structure Store (τ ι : Type) where
  slots : List OwnedValue
  handed : List (Publication τ ι)
  dropped : List Nat
  next : Nat

/-- Constructions go to new slots. -/
inductive Event (τ ι : Type) where
  | constructBytes
  | constructEncoding
  | zBytesDrop (slot : Nat)
  | zEncodingDrop (slot : Nat)
  | call (call : Call τ ι)

namespace Store

def init : Store τ ι :=
  { slots := [], handed := [], dropped := [], next := 0 }

def construct (store : Store τ ι) (value : Option Nat → OwnedValue) : Store τ ι :=
  { store with slots := store.slots ++ [value (some store.next)], next := store.next + 1 }

def drop (store : Store τ ι) (take : Action (Option Nat)) : Option (Store τ ι) := do
  let (content, slots) ← take store.slots
  some { store with slots, dropped := store.dropped ++ content.toList }

def step (wait : Publication τ ι → Except QueryError Unit) (store : Store τ ι)
    : Event τ ι → Option (Store τ ι)
  | .constructBytes => some (store.construct .bytes)
  | .constructEncoding => some (store.construct .encoding)
  | .zBytesDrop slot => store.drop (takeBytes slot)
  | .zEncodingDrop slot => store.drop (takeEncoding slot)
  | .call call => do
      let (outcome, slots) ← call.execute wait store.slots
      some { store with slots, handed := store.handed ++ [outcome.handed] }

def machine (wait : Publication τ ι → Except QueryError Unit)
    : Machine (Store τ ι) (Event τ ι) :=
  { init := init, step := step wait }

end Store

end Publications

end ZenohC
