import ZenohC.Library.Machine
import ZenohC.Transmute

/-! The sample closure of the C API and the programs that move it around.
A closure is a plain triple of nullable pointers; copies of it live in C slots and, once an
entry point has consumed a moved argument, in places owned by Rust.
-/

namespace ZenohC

/-- `z_owned_closure_sample_t`; `κ` stands for the functions that `_call` may point to. -/
structure ClosureSample (κ : Type) where
  context : Ptr
  call : Option κ
  drop : Option Nat
  deriving DecidableEq, Repr

namespace ClosureSample

variable {κ : Type}

def isEmpty (closure : ClosureSample κ) : Bool :=
  closure.call.isNone && closure.drop.isNone && closure.context.isNull

instance : Gravestone (ClosureSample κ) where
  gravestone := { context := Ptr.null, call := none, drop := none }
  isGravestone := isEmpty
  gravestone_isGravestone := rfl

def zInternalClosureSampleCheck (closure : ClosureSample κ) : Bool :=
  !closure.isEmpty

/-- All three pointers of an empty closure are null. -/
theorem isEmpty_iff {closure : ClosureSample κ}
    : closure.isEmpty = true
      ↔ closure.call = none ∧ closure.drop = none ∧ closure.context = Ptr.null := by
  simp only [isEmpty, Ptr.isNull, Bool.and_eq_true, Option.isNone_iff_eq_none, beq_iff_eq,
    and_assoc]

end ClosureSample

/-- A closure with the number of its construction, which is history and never read. -/
structure HeldClosure (κ : Type) where
  closure : ClosureSample κ
  origin : Nat
  deriving DecidableEq, Repr

def HeldClosure.gravestone {κ : Type} : HeldClosure κ :=
  { closure := ZenohC.gravestone, origin := 0 }

/-- An invocation of one of the user's two functions, with the closure it belongs to. -/
inductive Invocation (κ : Type) where
  | call (content : HeldClosure κ)
  | drop (content : HeldClosure κ)
  deriving DecidableEq, Repr

/-- The C program's closure slots, the closures that Rust owns, and the user functions that
have been invoked, in order. A Rust place is `none` once its closure has been dropped.
-/
structure ClosureStore (κ : Type) where
  slots : List (MaybeUninit (HeldClosure κ))
  places : List (Option (HeldClosure κ))
  next : Nat
  log : List (Invocation κ)
  deriving DecidableEq, Repr

namespace ClosureStore

variable {κ : Type}

def init : ClosureStore κ :=
  { slots := [], places := [], next := 0, log := [] }

/-- Calling through a null `_call` only reports an error. -/
def invokeCall (store : ClosureStore κ) (content : HeldClosure κ) : ClosureStore κ :=
  match content.closure.call with
  | some _ => { store with log := store.log ++ [.call content] }
  | none => store

/-- `Drop for z_owned_closure_sample_t`. -/
def invokeDrop (store : ClosureStore κ) (content : HeldClosure κ) : ClosureStore κ :=
  match content.closure.drop with
  | some _ => { store with log := store.log ++ [.drop content] }
  | none => store

/-- The closure behind a pointer to an owned slot; an uninitialised slot has none. -/
def content? (store : ClosureStore κ) (slot : Nat) : Option (HeldClosure κ) :=
  match store.slots[slot]? with
  | some (.written content) => some content
  | _ => none

def write (store : ClosureStore κ) (dst : Nat) (content : HeldClosure κ)
    : Option (ClosureStore κ) :=
  store.slots[dst]?.map fun _ => { store with slots := store.slots.set dst (.written content) }

def zClosureSample (store : ClosureStore κ) (dst : Nat) (call : Option κ) (drop : Option Nat)
    (context : Ptr)
    : Option (ClosureStore κ) :=
  { store with next := store.next + 1 }.write dst
    { closure := { context, call, drop }, origin := store.next }

def zInternalClosureSampleNull (store : ClosureStore κ) (dst : Nat) : Option (ClosureStore κ) :=
  store.write dst HeldClosure.gravestone

/-- `z_closure_sample_call` on the loan of an owned slot. -/
def zClosureSampleCall (store : ClosureStore κ) (closure : Nat) : Option (ClosureStore κ) :=
  (store.content? closure).map store.invokeCall

/-- `take_c_type` is `std::mem::take`, which leaves the default closure behind. -/
def takeCType (store : ClosureStore κ) (src : Nat)
    : Option (HeldClosure κ × ClosureStore κ) := do
  let content ← store.content? src
  let rest ← store.write src HeldClosure.gravestone
  some (content, rest)

/-- The generated inline `z_closure_sample_take`: copy the triple, then null the source. -/
def zClosureSampleTake (store : ClosureStore κ) (dst src : Nat) : Option (ClosureStore κ) := do
  let content ← store.content? src
  let copied ← store.write dst content
  copied.zInternalClosureSampleNull src

def zClosureSampleDrop (store : ClosureStore κ) (closure : Nat) : Option (ClosureStore κ) :=
  (store.takeCType closure).map fun (content, rest) => rest.invokeDrop content

/-- An entry point that consumes a moved closure keeps it in a place of its own. -/
def consume (store : ClosureStore κ) (src : Nat) : Option (ClosureStore κ) :=
  (store.takeCType src).map fun (content, rest) =>
    { rest with places := rest.places ++ [some content] }

def callPlace (store : ClosureStore κ) (place : Nat) : Option (ClosureStore κ) :=
  match store.places[place]? with
  | some (some content) => some (store.invokeCall content)
  | _ => none

/-- Rust drops each value it owns once; the place is dead afterwards. -/
def dropPlace (store : ClosureStore κ) (place : Nat) : Option (ClosureStore κ) :=
  match store.places[place]? with
  | some (some content) =>
      some ({ store with places := store.places.set place none }.invokeDrop content)
  | _ => none

/-- One operation on closures, by the C program or by Rust on what it owns. -/
inductive Operation (κ : Type) where
  | declare
  | zClosureSample (dst : Nat) (call : Option κ) (drop : Option Nat) (context : Ptr)
  | zInternalClosureSampleNull (dst : Nat)
  | zClosureSampleCall (closure : Nat)
  | zClosureSampleTake (dst src : Nat)
  | zClosureSampleDrop (closure : Nat)
  | consume (src : Nat)
  | callPlace (place : Nat)
  | dropPlace (place : Nat)

def exec (store : ClosureStore κ) : Operation κ → Option (ClosureStore κ)
  | .declare => some { store with slots := store.slots ++ [.uninit] }
  | .zClosureSample dst call drop context => store.zClosureSample dst call drop context
  | .zInternalClosureSampleNull dst => store.zInternalClosureSampleNull dst
  | .zClosureSampleCall closure => store.zClosureSampleCall closure
  | .zClosureSampleTake dst src => store.zClosureSampleTake dst src
  | .zClosureSampleDrop closure => store.zClosureSampleDrop closure
  | .consume src => store.consume src
  | .callPlace place => store.callPlace place
  | .dropPlace place => store.dropPlace place

/-- A slot may be overwritten while it is uninitialised, null or taken. -/
def Overwritable (store : ClosureStore κ) (dst : Nat) : Prop :=
  ∀ content, store.content? dst = some content → content.closure.isEmpty = true

instance (store : ClosureStore κ) (dst : Nat) : Decidable (store.Overwritable dst) :=
  match found : store.content? dst with
  | none => .isTrue (by simp [Overwritable, found])
  | some content =>
      if empty : content.closure.isEmpty = true then
        .isTrue (by simpa [Overwritable, found] using empty)
      else .isFalse (by simpa [Overwritable, found] using empty)

/-- The rule of the API for the operations that write a slot without dropping it. -/
def Respects (store : ClosureStore κ) : Operation κ → Prop
  | .zClosureSample dst _ _ _ | .zInternalClosureSampleNull dst
  | .zClosureSampleTake dst _ =>
      store.Overwritable dst
  | _ => True

instance (store : ClosureStore κ)
    : (operation : Operation κ) → Decidable (store.Respects operation)
  | .zClosureSample dst _ _ _ | .zInternalClosureSampleNull dst
  | .zClosureSampleTake dst _ =>
      inferInstanceAs (Decidable (store.Overwritable dst))
  | .declare | .zClosureSampleCall _ | .zClosureSampleDrop _ | .consume _ | .callPlace _
  | .dropPlace _ =>
      .isTrue trivial

/-- Programs that overwrite a slot only when the rule allows it. -/
def machine : Library.Machine (ClosureStore κ) (Operation κ) where
  init := init
  step store operation := if store.Respects operation then store.exec operation else none

end ClosureStore

end ZenohC
