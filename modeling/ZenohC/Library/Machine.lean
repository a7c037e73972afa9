import Mathlib.Algebra.Group.Defs

/-! Guarded executable machines and the induction rules for their runs.
A machine names nothing of the program it describes; invariants and accounting laws are
proved for one step and lifted to whole runs by the rules of this module.
-/

namespace ZenohC.Library

/-- A guarded step function: `none` refuses the event, `some` yields the next state. -/
structure Machine (σ ε : Type*) where
  init : σ
  step : σ → ε → Option σ

namespace Machine

variable {σ ε : Type*} (machine : Machine σ ε)

/-- Replay events in order; one refused event refuses the whole run. -/
def runFrom : σ → List ε → Option σ
  | state, [] => some state
  | state, event :: rest => (machine.step state event).bind (fun next => runFrom next rest)

/-- Replay events from the machine's initial state. -/
def run (events : List ε) : Option σ :=
  machine.runFrom machine.init events

/-- Every event of the run meets `guard` in the state where it is accepted. -/
def RunMeets (guard : σ → ε → Prop) : σ → List ε → Prop
  | _, [] => True
  | state, event :: rest =>
      guard state event
      ∧ ∀ next, machine.step state event = some next → RunMeets guard next rest

/-- A concrete run is checked against a decidable guard by running it. -/
instance decidableRunMeets {guard : σ → ε → Prop} [∀ state event, Decidable (guard state event)]
    : (state : σ) → (events : List ε) → Decidable (machine.RunMeets guard state events)
  | _, [] => isTrue trivial
  | state, event :: rest =>
      match stepped : machine.step state event with
      | none =>
          decidable_of_iff (guard state event)
            ⟨fun met => ⟨met, fun _ same => by rw [stepped] at same; cases same⟩, And.left⟩
      | some next =>
          have : Decidable (machine.RunMeets guard next rest) := decidableRunMeets next rest
          decidable_of_iff (guard state event ∧ machine.RunMeets guard next rest)
            ⟨fun met => ⟨met.1, fun _ same => by rw [stepped] at same; cases same; exact met.2⟩,
              fun met => ⟨met.1, met.2 next stepped⟩⟩

/-- What `contribution` adds up to along a run, in the order of the events. -/
def collect {μ : Type*} [AddMonoid μ] (contribution : σ → ε → μ) : σ → List ε → μ
  | _, [] => 0
  | state, event :: rest =>
      contribution state event
      + ((machine.step state event).map (fun next => collect contribution next rest)).getD 0

variable {machine}

@[simp]
theorem runFrom_nil {state : σ} : machine.runFrom state [] = some state :=
  rfl

theorem runFrom_cons_iff {state last : σ} {event : ε} {rest : List ε}
    : machine.runFrom state (event :: rest) = some last
      ↔ ∃ next, machine.step state event = some next
          ∧ machine.runFrom next rest = some last := by
  simp only [runFrom, Option.bind_eq_some_iff]

/-- A run splits at any point of its event list, by induction on the first part. -/
theorem runFrom_append_iff {state last : σ} {first rest : List ε}
    : machine.runFrom state (first ++ rest) = some last
      ↔ ∃ middle, machine.runFrom state first = some middle
          ∧ machine.runFrom middle rest = some last := by
  induction first generalizing state with
  | nil => simp
  | cons event first ih =>
      simp only [List.cons_append, runFrom_cons_iff, ih]
      constructor
      · intro splits
        rcases splits with ⟨next, stepped, middle, ran, ended⟩
        exact ⟨middle, ⟨next, stepped, ran⟩, ended⟩
      · intro splits
        rcases splits with ⟨middle, ⟨next, stepped, ran⟩, ended⟩
        exact ⟨next, stepped, middle, ran, ended⟩

/-- A property kept by every step whose event meets the guard is kept by every run whose
events all meet it. Witness: induction on the event list.
-/
theorem RunMeets.preserves {guard : σ → ε → Prop} {property : σ → Prop}
    (keeps
      : ∀ state event next,
          property state
          → guard state event
          → machine.step state event = some next
          → property next)
    {state last : σ} {events : List ε} (meets : machine.RunMeets guard state events)
    (ran : machine.runFrom state events = some last) (start : property state)
    : property last := by
  induction events generalizing state with
  | nil =>
      cases ran
      exact start
  | cons event rest ih =>
      obtain ⟨next, stepped, ended⟩ := runFrom_cons_iff.mp ran
      exact ih (meets.2 next stepped) ended (keeps state event next start meets.1 stepped)

/-- Where every event that meets the guard is accepted, a run whose events all meet it gets to
its end. Witness: induction on the event list.
-/
theorem RunMeets.completes {guard : σ → ε → Prop} {property : σ → Prop}
    (accepts
      : ∀ state event,
          property state
          → guard state event
          → ∃ next, machine.step state event = some next ∧ property next)
    {state : σ} {events : List ε} (meets : machine.RunMeets guard state events)
    (start : property state)
    : ∃ last, machine.runFrom state events = some last ∧ property last := by
  induction events generalizing state with
  | nil => exact ⟨state, rfl, start⟩
  | cons event rest ih =>
      obtain ⟨next, stepped, holds⟩ := accepts state event start meets.1
      obtain ⟨last, ended, kept⟩ := ih (meets.2 next stepped) holds
      exact ⟨last, runFrom_cons_iff.mpr ⟨next, stepped, ended⟩, kept⟩

/-- Every run meets the guard that asks nothing. -/
theorem runMeets_true (state : σ) (events : List ε)
    : machine.RunMeets (fun _ _ => True) state events := by
  induction events generalizing state with
  | nil => trivial
  | cons event rest ih => exact ⟨trivial, fun next _ => ih next⟩

/-- A property kept by every step is kept by every run. -/
theorem runFrom_preserves {property : σ → Prop}
    (keeps
      : ∀ state event next,
          property state → machine.step state event = some next → property next)
    {state last : σ} {events : List ε} (ran : machine.runFrom state events = some last)
    (start : property state)
    : property last :=
  (runMeets_true state events).preserves
    (fun state event next holds _ stepped => keeps state event next holds stepped) ran start

theorem collect_cons {μ : Type*} [AddMonoid μ] {contribution : σ → ε → μ} {state next : σ}
    {event : ε} (rest : List ε) (stepped : machine.step state event = some next)
    : machine.collect contribution state (event :: rest)
      = contribution state event + machine.collect contribution next rest := by
  simp only [collect, stepped, Option.map_some, Option.getD_some]

/-- An account that every step changes by exactly its contribution changes over a run by
the sum of the contributions. Witness: induction on the events, carrying the invariant
that each step's accounting may rely on.
-/
theorem runFrom_account {μ : Type*} [AddMonoid μ] {account : σ → μ}
    {contribution : σ → ε → μ} {property : σ → Prop}
    (each
      : ∀ state event next,
          property state
          → machine.step state event = some next
          → property next ∧ account next = account state + contribution state event)
    {state last : σ} {events : List ε} (ran : machine.runFrom state events = some last)
    (start : property state)
    : account last = account state + machine.collect contribution state events := by
  induction events generalizing state with
  | nil =>
      cases ran
      simp only [collect, add_zero]
  | cons event rest ih =>
      obtain ⟨next, stepped, ended⟩ := runFrom_cons_iff.mp ran
      obtain ⟨kept, changed⟩ := each state event next start stepped
      rw [collect_cons rest stepped, ih ended kept, changed, add_assoc]

/-- From the initial state, an account that starts at zero ends at what the whole run
contributed, and the invariant that the accounting relies on still holds.
-/
theorem run_account {μ : Type*} [AddMonoid μ] {account : σ → μ} {contribution : σ → ε → μ}
    {property : σ → Prop}
    (each
      : ∀ state event next,
          property state
          → machine.step state event = some next
          → property next ∧ account next = account state + contribution state event)
    {last : σ} {events : List ε} (ran : machine.run events = some last)
    (start : property machine.init) (empty : account machine.init = 0)
    : property last ∧ account last = machine.collect contribution machine.init events := by
  constructor
  · refine runFrom_preserves ?_ ran start
    intro state event next holds stepped
    exact (each state event next holds stepped).1
  · have accounted := runFrom_account each ran start
    rwa [empty, zero_add] at accounted

end Machine

end ZenohC.Library
