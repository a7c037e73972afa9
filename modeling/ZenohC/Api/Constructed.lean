import ZenohC.Transmute

/-! What a fallible constructor leaves behind in the destination it was given.
A destination is memory of the caller that may hold no value yet: asking whether it is valid
and dropping it have a meaning only once something has been written there.
-/

namespace ZenohC

variable {α : Type}

/-- What a fallible constructor hands back: the result code, the destination, and the text
reported on the way out.
-/
structure Constructed (α : Type) where
  code : ZResult
  slot : MaybeUninit (Option α)
  reported : Option String
  deriving DecidableEq, Repr

/-- A call that is over: the code, the reported text, and what it was given to write to. -/
structure Finished (δ : Type) where
  code : ZResult
  reported : Option String
  dst : δ
  deriving DecidableEq, Repr

def Finished.map {δ γ : Type} (f : δ → γ) (finished : Finished δ) : Finished γ :=
  { code := finished.code, reported := finished.reported, dst := f finished.dst }

/-- An error return of a constructor; some of them report nothing. -/
structure Refusal where
  code : ZResult
  reported : Option String
  deriving DecidableEq, Repr

/-- `z_internal_xxx_check`; it has no answer on memory that holds no value. -/
def MaybeUninit.check : MaybeUninit (Option α) → Option Bool
  | .uninit => none
  | .written content => some content.isSome

/-- `z_xxx_drop`: the content goes away and the gravestone stays. -/
def MaybeUninit.drop : MaybeUninit (Option α) → Option (MaybeUninit (Option α))
  | .uninit => none
  | .written content => some (.written (takeRustType content).2)

/-- The constructors that write the destination on success only. -/
def writeOnOk (slot : MaybeUninit (Option α)) : Except Refusal α → Constructed α
  | .ok value => { code := zOk, slot := .written (some value), reported := none }
  | .error refusal => { code := refusal.code, slot, reported := refusal.reported }

/-- The constructors that write the gravestone when they fail. -/
def writeOrNull : Except Refusal α → Constructed α
  | .ok value => { code := zOk, slot := .written (some value), reported := none }
  | .error refusal =>
      { code := refusal.code, slot := .written none, reported := refusal.reported }

/-- After the call the destination can be checked and dropped, and it holds a valid object
or the gravestone as the code says.
-/
structure Constructed.Settled (result : Constructed α) : Prop where
  valid_iff : result.slot.check = some true ↔ result.code = zOk
  gravestone_iff : result.slot.check = some false ↔ result.code ≠ zOk
  droppable : result.slot.drop.isSome = true

namespace Constructed

variable {result : Constructed α}

/-- A destination that holds what the code says is settled. -/
theorem settled_of_written {content : Option α} (written : result.slot = .written content)
    (agrees : content.isSome = true ↔ result.code = zOk)
    : result.Settled := by
  constructor
  · rw [written, ← agrees]
    simp only [MaybeUninit.check, Option.some.injEq]
  · rw [written, ne_eq, ← agrees]
    simp only [MaybeUninit.check, Option.some.injEq, Bool.not_eq_true]
  · rw [written]
    rfl

/-- A failed call is settled only if its destination holds the gravestone. -/
theorem Settled.gravestone (settled : result.Settled) (failed : result.code ≠ zOk)
    : result.slot = .written none := by
  have invalid := settled.gravestone_iff.mpr failed
  cases found : result.slot with
  | uninit => simp [found, MaybeUninit.check] at invalid
  | written content =>
      cases content with
      | none => rfl
      | some value => simp [found, MaybeUninit.check] at invalid

end Constructed

/-- No error return carries the code of success. -/
def Refused (outcome : Except Refusal α) : Prop :=
  ∀ refusal, outcome = .error refusal → refusal.code ≠ zOk

/-- Writing the gravestone on failure settles the destination whatever the outcome. -/
theorem writeOrNull_settled {outcome : Except Refusal α} (refused : Refused outcome)
    : (writeOrNull outcome).Settled := by
  cases outcome with
  | ok value => exact Constructed.settled_of_written rfl (by simp [writeOrNull])
  | error refusal =>
      have failed : refusal.code ≠ zOk := refused refusal rfl
      exact Constructed.settled_of_written rfl (by simp [writeOrNull, failed])

/-- Writing on success only settles the destination when the call succeeds, or when the
caller had put the gravestone there.
-/
theorem writeOnOk_settled_iff {slot : MaybeUninit (Option α)} {outcome : Except Refusal α}
    (refused : Refused outcome)
    : (writeOnOk slot outcome).Settled ↔ outcome.toBool = true ∨ slot = .written none := by
  cases outcome with
  | ok value =>
      have settled : (writeOnOk slot (.ok value)).Settled :=
        Constructed.settled_of_written rfl (by simp [writeOnOk])
      simp only [settled, Except.toBool, true_or]
  | error refusal =>
      have failed : refusal.code ≠ zOk := refused refusal rfl
      constructor
      · intro settled
        exact Or.inr (settled.gravestone failed)
      · intro outcome
        rcases outcome with succeeded | rfl
        · cases succeeded
        · exact Constructed.settled_of_written rfl (by simp [writeOnOk, failed])

/-- The code of a constructor that writes on success only tells whether it succeeded. -/
theorem writeOnOk_code_iff {slot : MaybeUninit (Option α)} {outcome : Except Refusal α}
    (refused : Refused outcome)
    : (writeOnOk slot outcome).code = zOk ↔ outcome.toBool = true := by
  cases outcome with
  | ok value => simp [writeOnOk, Except.toBool]
  | error refusal => simp [writeOnOk, Except.toBool, refused refusal rfl]

end ZenohC
