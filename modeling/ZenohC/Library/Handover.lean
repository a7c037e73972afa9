import Mathlib.Control.Lawful
import ZenohC.Library.Custody

/-! Actions that take tokens out of the cells of a store.
An action may refuse. What it takes out of the cells is owned by its result, and the cells
that it empties are known from its arguments.
-/

namespace ZenohC.Library

variable {τ γ α β : Type}

abbrev CellAction (γ α : Type) :=
  StateT (List γ) Option α

/-- An action that follows another starts from its result and its cells. -/
theorem cellAction_bind_eq_some_iff {action : CellAction γ α} {next : α → CellAction γ β}
    {cells after : List γ} {result : β}
    : (action >>= next) cells = some (result, after)
      ↔ ∃ value middle,
          action cells = some (value, middle) ∧ next value middle = some (result, after) := by
  simp only [bind, StateT.bind, Option.bind_eq_some_iff, Prod.exists]

theorem cellAction_map_eq_some_iff {f : α → β} {action : CellAction γ α}
    {cells after : List γ} {result : β}
    : (f <$> action) cells = some (result, after)
      ↔ ∃ value, action cells = some (value, after) ∧ f value = result := by
  rw [map_eq_pure_bind, cellAction_bind_eq_some_iff]
  constructor
  · rintro ⟨value, middle, ran, finished⟩
    cases finished
    exact ⟨value, ran, rfl⟩
  · rintro ⟨value, ran, rfl⟩
    exact ⟨value, after, ran, rfl⟩

theorem cellAction_bind_runs {action : CellAction γ α} {next : α → CellAction γ β}
    {cells middle after : List γ} {value : α} (now : action cells = some (value, middle))
    (later : ∃ result, next value middle = some (result, after))
    : ∃ result, (action >>= next) cells = some (result, after) := by
  obtain ⟨result, later⟩ := later
  exact ⟨result, cellAction_bind_eq_some_iff.mpr ⟨value, middle, now, later⟩⟩

/-- The second action runs whatever the first one results in. -/
theorem cellAction_bind_runs_of_forall {action : CellAction γ α} {next : α → CellAction γ β}
    {cells middle after : List γ} (now : ∃ value, action cells = some (value, middle))
    (later : ∀ value, ∃ result, next value middle = some (result, after))
    : ∃ result, (action >>= next) cells = some (result, after) := by
  obtain ⟨value, now⟩ := now
  exact cellAction_bind_runs now (later value)

/-- The result owns what the action was given and what it has taken. -/
def HandsOver (holds : γ → Multiset τ) (given : Multiset τ) (action : CellAction γ α)
    (owned : α → Multiset τ)
    : Prop :=
  ∀ cells result after,
    action cells = some (result, after)
    → tally holds after + owned result = tally holds cells + given

/-- Exactly the listed cells are emptied. -/
def Empties (empty : γ → γ) (action : CellAction γ α) (indices : List Nat) : Prop :=
  ∀ cells result after,
    action cells = some (result, after)
    → ∀ index,
        after[index]? = if index ∈ indices then cells[index]?.map empty else cells[index]?

section HandsOver

variable {holds : γ → Multiset τ} {given : Multiset τ} {action : CellAction γ α}
  {middle owned : α → Multiset τ}

theorem HandsOver.pure (result : α) : HandsOver holds (owned result) (Pure.pure result) owned := by
  intro cells other after ran
  cases ran
  rfl

theorem HandsOver.bind {next : α → CellAction γ β} {last : β → Multiset τ}
    (first : HandsOver holds given action middle)
    (rest : ∀ value, HandsOver holds (middle value) (next value) last)
    : HandsOver holds given (action >>= next) last := by
  intro cells result after ran
  obtain ⟨value, between, now, later⟩ := cellAction_bind_eq_some_iff.mp ran
  rw [rest value between result after later, first cells value between now]

/-- What the action does not use stays with the result. -/
theorem HandsOver.frame (more : Multiset τ) (moves : HandsOver holds 0 action owned)
    : HandsOver holds more action (fun result => more + owned result) := by
  intro cells result after ran
  rw [add_left_comm, moves cells result after ran, add_zero, add_comm]

end HandsOver

section Empties

variable {empty : γ → γ} {action : CellAction γ α} {indices more : List Nat}

theorem Empties.pure (result : α) : Empties empty (Pure.pure result) [] := by
  intro cells other after ran index
  cases ran
  rfl

/-- A cell that is emptied twice is emptied. -/
theorem Empties.bind (idempotent : ∀ cell, empty (empty cell) = empty cell)
    {next : α → CellAction γ β} (first : Empties empty action indices)
    (rest : ∀ value, Empties empty (next value) more)
    : Empties empty (action >>= next) (indices ++ more) := by
  intro cells result after ran index
  obtain ⟨value, between, now, later⟩ := cellAction_bind_eq_some_iff.mp ran
  rw [rest value between result after later index, first cells value between now index]
  by_cases early : index ∈ indices <;> by_cases late : index ∈ more
  · simp [early, late, Function.comp_def, idempotent]
  · simp [early, late]
  · simp [early, late]
  · simp [early, late]

end Empties

end ZenohC.Library
