import Mathlib.Data.Option.Basic
import ZenohC.Library.Machine

/-! Two machines that take every event together.
Each event is refused by both or accepted by both, and accepting it keeps their states related;
a whole run is then accepted by both or by none.
-/

namespace ZenohC.Library

/-- Both results are absent, or both are there and related. -/
abbrev Together {σ τ : Type*} (related : σ → τ → Prop) : Option σ → Option τ → Prop :=
  Option.Rel related

/-- The machines start related, and one event keeps them related or is refused by both. -/
structure LockStep {σ τ ε : Type*} (spec : Machine σ ε) (machine : Machine τ ε)
    (related : σ → τ → Prop) : Prop where
  start : related spec.init machine.init
  each
    : ∀ ideal state event,
        related ideal state
        → Together related (spec.step ideal event) (machine.step state event)

namespace LockStep

variable {σ τ ε : Type*} {spec : Machine σ ε} {machine : Machine τ ε} {related : σ → τ → Prop}

/-- From related states the machines accept the same runs, by induction on the events. -/
theorem runFrom (lockStep : LockStep spec machine related) {ideal : σ} {state : τ}
    (events : List ε) (now : related ideal state)
    : Together related (spec.runFrom ideal events) (machine.runFrom state events) := by
  induction events generalizing ideal state with
  | nil => exact .some now
  | cons event rest ih =>
      have stepped := lockStep.each ideal state event now
      simp only [Machine.runFrom]
      cases left : spec.step ideal event with
      | none =>
          cases right : machine.step state event with
          | none => exact .none
          | some next => rw [left, right] at stepped; cases stepped
      | some nextIdeal =>
          cases right : machine.step state event with
          | none => rw [left, right] at stepped; cases stepped
          | some next =>
              rw [left, right] at stepped
              cases stepped with
              | some kept => exact ih kept

theorem run (lockStep : LockStep spec machine related) (events : List ε)
    : Together related (spec.run events) (machine.run events) :=
  lockStep.runFrom events lockStep.start

/-- What the specification accepts, the machine accepts, and they end related. -/
theorem run_follows (lockStep : LockStep spec machine related) {events : List ε} {ideal : σ}
    (ran : spec.run events = some ideal)
    : ∃ state, machine.run events = some state ∧ related ideal state := by
  have together := lockStep.run events
  rw [ran] at together
  cases found : machine.run events with
  | none => rw [found] at together; cases together
  | some state =>
      rw [found] at together
      cases together with
      | some kept => exact ⟨state, rfl, kept⟩

/-- Neither machine gets further than the other. -/
theorem isSome_run (lockStep : LockStep spec machine related) (events : List ε)
    : (machine.run events).isSome = (spec.run events).isSome := by
  have together := lockStep.run events
  cases left : spec.run events with
  | none =>
      cases right : machine.run events with
      | none => rfl
      | some state => rw [left, right] at together; cases together
  | some ideal =>
      cases right : machine.run events with
      | none => rw [left, right] at together; cases together
      | some state => rfl

end LockStep

end ZenohC.Library
