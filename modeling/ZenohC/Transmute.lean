import Mathlib.Tactic.TypeStar

/-! Result codes, pointers, and the gravestone protocol shared by every owned C type.
A moved argument is a pointer to an owned slot: taking it reads the content out and leaves
the gravestone of that type behind.
-/

namespace ZenohC

/-- `z_result_t`, an `i8`; every constant below fits it. -/
abbrev ZResult := Int

def zOk : ZResult := 0

def zEinval : ZResult := -1

def zEparse : ZResult := -2

def zEio : ZResult := -3

def zEnetwork : ZResult := -4

def zEnull : ZResult := -5

def zEunavailable : ZResult := -6

def zEdeserialize : ZResult := -7

def zEsessionClosed : ZResult := -8

def zEutf8 : ZResult := -9

def zEbusyMutex : ZResult := -16

def zEinvalMutex : ZResult := -22

/-- The source gives a poisoned mutex the same code as an invalid one. -/
def zEpoisonMutex : ZResult := -22

def zEgeneric : ZResult := -128

/-- An error return: the code, and the text handed to `report_error!` on the way out. -/
structure Failure where
  code : ZResult
  reported : String
  deriving DecidableEq, Repr

/-- The `?` operator: a chain succeeds exactly when each of its parts does. -/
theorem bind_eq_ok_iff {ε α β : Type} {first : Except ε α} {rest : α → Except ε β} {value : β}
    : first >>= rest = .ok value ↔ ∃ middle, first = .ok middle ∧ rest middle = .ok value := by
  cases first with
  | error failure => simp [bind, Except.bind]
  | ok middle => simp [bind, Except.bind]

theorem mapError_error {ε δ α : Type} (f : ε → δ) (error : ε)
    : (Except.error error : Except ε α).mapError f = .error (f error) :=
  rfl

theorem mapError_ok {ε δ α : Type} (f : ε → δ) (value : α)
    : (Except.ok value : Except ε α).mapError f = .ok value :=
  rfl

theorem mapError_eq_ok_iff {ε δ α : Type} {outcome : Except ε α} {f : ε → δ} {value : α}
    : outcome.mapError f = .ok value ↔ outcome = .ok value := by
  cases outcome with
  | error error => simp [mapError_error]
  | ok result => simp [mapError_ok]

/-- A call that always returns the same code only has its state to tell. -/
theorem map_code_eq_some_iff {σ : Type} {made : Option σ} {given code : ZResult} {next : σ}
    : made.map (given, ·) = some (code, next) ↔ made = some next ∧ code = given := by
  cases made with
  | none => simp
  | some state => simp [eq_comm, and_comm]

/-- An address; only its being null is ever inspected. -/
abbrev Ptr := Nat

def Ptr.null : Ptr := 0

def Ptr.isNull (pointer : Ptr) : Bool :=
  pointer == Ptr.null

/-- The trait `Gravestone`, together with the one law its users rely on. -/
class Gravestone (α : Type*) where
  gravestone : α
  isGravestone : α → Bool
  gravestone_isGravestone : isGravestone gravestone = true

export Gravestone (gravestone isGravestone)

attribute [simp] Gravestone.gravestone_isGravestone

instance (α : Type*) : Gravestone (Option α) where
  gravestone := none
  isGravestone := Option.isNone
  gravestone_isGravestone := rfl

@[simp]
theorem gravestone_option (α : Type*) : (gravestone : Option α) = none :=
  rfl

@[simp]
theorem isGravestone_option {α : Type*} (value : Option α)
    : isGravestone value = value.isNone :=
  rfl

/-- `take_rust_type`: the content moves out, and the slot is left with the gravestone. -/
def takeRustType {α : Type*} [Gravestone α] (slot : α) : α × α :=
  (slot, gravestone)

@[simp]
theorem takeRustType_left {α : Type*} [Gravestone α] (slot : α)
    : isGravestone (takeRustType slot).2 = true :=
  Gravestone.gravestone_isGravestone

/-- Storage handed to a constructor: its memory may hold no valid value yet. -/
inductive MaybeUninit (α : Type*) where
  | uninit
  | written (value : α)
  deriving DecidableEq, Repr

end ZenohC
