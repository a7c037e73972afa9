import Mathlib.Data.List.Basic

/-! Actions that reach goals and never lose one.
When every action of a program keeps the goals that hold already, a sequence reaches what
its parts reach together, whatever branch is taken in between.
-/

namespace ZenohC.Library

variable {σ ι α β : Type}

/-- The action keeps every goal that holds before it, and afterwards all of `goals` hold. -/
structure Establishes (holds : ι → σ → Prop) (action : StateM σ α) (goals : List ι)
    : Prop where
  keeps : ∀ state goal, holds goal state → holds goal (action state).2
  reaches : ∀ state, ∀ goal ∈ goals, holds goal (action state).2

namespace Establishes

variable {holds : ι → σ → Prop} {action : StateM σ α} {goals more : List ι}

theorem pure (value : α) : Establishes holds (Pure.pure value) [] :=
  ⟨fun _ _ held => held, fun _ _ member => absurd member List.not_mem_nil⟩

/-- A sequence reaches what its two parts reach: the second part keeps what the first did. -/
theorem bind {next : α → StateM σ β} (first : Establishes holds action goals)
    (rest : ∀ value, Establishes holds (next value) more)
    : Establishes holds (action >>= next) (goals ++ more) := by
  constructor
  · intro state goal held
    exact (rest _).keeps _ goal (first.keeps state goal held)
  · intro state goal member
    rcases List.mem_append.mp member with earlier | later
    · exact (rest _).keeps _ goal (first.reaches state goal earlier)
    · exact (rest _).reaches _ goal later

end Establishes

end ZenohC.Library
