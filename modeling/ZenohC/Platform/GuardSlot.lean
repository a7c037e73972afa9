import ZenohC.Platform.Synchronization

/-! The guard slot of a mutex follows the standard mutex through every interleaving.
A guard is either in the hands of the thread that acquired it or in the slot, and then its
owner holds the mutex. Each atomic step moves at most one guard.
-/

namespace ZenohC

open Library

namespace LoanedMutex

variable {state next : LoanedMutex} {thread : Nat}

/-- The guard that a thread has in its hands. -/
def hand (state : LoanedMutex) (thread : Nat) : Option MutexGuard :=
  (state.phase thread).hand

/-- No thread stands between two steps that move a guard. -/
def Quiet (state : LoanedMutex) : Prop :=
  ∀ thread, state.hand thread = none

/-- What every step relies on and keeps. -/
structure Disciplined (state : LoanedMutex) : Prop where
  inHand
    : ∀ thread guard,
        state.hand thread = some guard
        → state.inner = some guard ∧ guard.owner = thread ∧ state.slot = none
  inSlot
    : ∀ guard,
        state.slot = some guard
        → state.inner = some guard ∧ state.holds guard.owner = true
  holder
    : ∀ thread,
        state.holds thread = true
        → state.phase thread = .idle ∧ ∃ guard, state.slot = some guard ∧ guard.owner = thread
  locked
    : ∀ guard,
        state.inner = some guard
        → state.slot = some guard ∨ state.hand guard.owner = some guard
  forgotten : state.forgotten = []
  overwritten : state.overwritten = []

/-- What an atomic step can do to the mutex, its slot and the phases of the threads. -/
inductive Effect (state : LoanedMutex) (thread : Nat) : LoanedMutex → Prop where
  | acquire {phase : ThreadPhase} {guard : MutexGuard} (free : state.inner = none)
      (owner : guard.owner = thread) (hand : phase.hand = some guard)
    : Effect state thread
        ({ state with inner := some guard, next := state.next + 1 }.moveTo thread phase)
  | fill {guard : MutexGuard} (hand : state.hand thread = some guard)
    : Effect state thread
        (({ state with slot := some guard }.setHolds thread true).moveTo thread .idle)
  | clear {phase : ThreadPhase} {guard : MutexGuard} (holds : state.holds thread = true)
      (found : state.slot = some guard) (hand : phase.hand = some guard)
    : Effect state thread
        (({ state with slot := none }.setHolds thread false).moveTo thread phase)
  | release {phase : ThreadPhase} {guard : MutexGuard} (hand : state.hand thread = some guard)
      (free : phase.hand = none)
    : Effect state thread (state.releaseGuard.moveTo thread phase)
  | wake {waiter condvar : Nat} (blocked : state.phase waiter = .blocked condvar)
    : Effect state thread (state.moveTo waiter .woken)
  | rest : Effect state thread state
  | poison : Effect state thread { state with poisoned := true }

theorem hand_of_phase {phase : ThreadPhase} (found : state.phase thread = phase)
    : state.hand thread = phase.hand := by
  rw [hand, found]

@[simp]
theorem hand_moveTo_self (state : LoanedMutex) (thread : Nat) (phase : ThreadPhase)
    : (state.moveTo thread phase).hand thread = phase.hand := by
  simp only [hand, moveTo, Function.update_self]

theorem hand_moveTo_of_ne {other : Nat} (different : other ≠ thread) (state : LoanedMutex)
    (phase : ThreadPhase)
    : (state.moveTo thread phase).hand other = state.hand other := by
  simp only [hand, moveTo, Function.update_of_ne different]

theorem phase_moveTo_of_ne {other : Nat} (different : other ≠ thread) (state : LoanedMutex)
    (phase : ThreadPhase)
    : (state.moveTo thread phase).phase other = state.phase other := by
  simp only [moveTo, Function.update_of_ne different]

/-- Sending an idle thread back to idle changes nothing. -/
theorem moveTo_idle (idle : state.phase thread = .idle) : state.moveTo thread .idle = state := by
  unfold moveTo
  rw [← idle, Function.update_eq_self]

-----------------------------------------------------------------------------------------
-- Consequences of the discipline
-----------------------------------------------------------------------------------------

namespace Disciplined

theorem zMutexInit : zMutexInit.Disciplined := by
  constructor
  · intro thread guard found
    cases found
  · intro guard found
    cases found
  · intro thread holds
    cases holds
  · intro guard found
    cases found
  · rfl
  · rfl

variable (disciplined : state.Disciplined)
include disciplined

/-- A free mutex has no guard in its slot, no holder, and no guard in anybody's hands. -/
theorem free (unlocked : state.inner = none)
    : state.slot = none
      ∧ (∀ thread, state.holds thread ≠ true)
      ∧ ∀ thread, state.hand thread = none := by
  have empty : state.slot = none := by
    cases found : state.slot with
    | none => rfl
    | some guard =>
        have locked := (disciplined.inSlot guard found).1
        rw [unlocked] at locked
        cases locked
  refine ⟨empty, ?_, ?_⟩
  · intro thread holds
    obtain ⟨_, guard, found, _⟩ := disciplined.holder thread holds
    rw [empty] at found
    cases found
  · intro thread
    cases found : state.hand thread with
    | none => rfl
    | some guard =>
        have locked := (disciplined.inHand thread guard found).1
        rw [unlocked] at locked
        cases locked

/-- While a guard is in somebody's hands nobody holds the mutex. -/
theorem no_holder {guard : MutexGuard} (found : state.hand thread = some guard) (other : Nat)
    : state.holds other ≠ true := by
  intro holds
  obtain ⟨_, kept, inSlot, _⟩ := disciplined.holder other holds
  rw [(disciplined.inHand thread guard found).2.2] at inSlot
  cases inSlot

/-- Only one thread has a guard in its hands. -/
theorem one_hand {other : Nat} {guard kept : MutexGuard}
    (found : state.hand thread = some guard) (also : state.hand other = some kept)
    : other = thread := by
  obtain ⟨locked, owner, _⟩ := disciplined.inHand thread guard found
  obtain ⟨lockedToo, ownerToo, _⟩ := disciplined.inHand other kept also
  rw [locked] at lockedToo
  rw [← owner, ← ownerToo, Option.some.inj lockedToo]

/-- While a guard is in the slot no thread has one in its hands. -/
theorem no_hand {guard : MutexGuard} (found : state.slot = some guard) (thread : Nat)
    : state.hand thread = none := by
  cases inHand : state.hand thread with
  | none => rfl
  | some kept =>
      have empty := (disciplined.inHand thread kept inHand).2.2
      rw [found] at empty
      cases empty

/-- Two threads never hold the mutex together. -/
theorem one_holder {other : Nat} (holds : state.holds thread = true)
    (also : state.holds other = true)
    : other = thread := by
  obtain ⟨_, guard, found, owner⟩ := disciplined.holder thread holds
  obtain ⟨_, kept, foundToo, ownerToo⟩ := disciplined.holder other also
  rw [found] at foundToo
  rw [← owner, ← ownerToo, Option.some.inj foundToo]

-----------------------------------------------------------------------------------------
-- Every effect keeps the discipline
-----------------------------------------------------------------------------------------

/-- A thread acquires a free mutex, and has its guard in its hands. -/
theorem acquire {phase : ThreadPhase} {guard : MutexGuard} (unlocked : state.inner = none)
    (owner : guard.owner = thread) (inHand : phase.hand = some guard)
    : ({ state with inner := some guard, next := state.next + 1 }.moveTo thread
        phase).Disciplined := by
  obtain ⟨empty, noHolder, noHand⟩ := disciplined.free unlocked
  constructor
  · intro other kept found
    by_cases same : other = thread
    · subst same
      rw [hand_moveTo_self, inHand] at found
      cases found
      exact ⟨rfl, owner, empty⟩
    · rw [hand_moveTo_of_ne same] at found
      exact absurd ((noHand other).symm.trans found) (by simp)
  · intro kept found
    exact absurd (empty.symm.trans found) (by simp)
  · intro other holds
    exact absurd holds (noHolder other)
  · intro kept found
    cases found
    right
    rw [owner, hand_moveTo_self, inHand]
  · exact disciplined.forgotten
  · exact disciplined.overwritten

/-- The guard in hand goes into the empty slot. -/
theorem fill {guard : MutexGuard} (inHand : state.hand thread = some guard)
    : (({ state with slot := some guard }.setHolds thread true).moveTo thread
        .idle).Disciplined := by
  obtain ⟨locked, owner, empty⟩ := disciplined.inHand thread guard inHand
  constructor
  · intro other kept found
    by_cases same : other = thread
    · subst same
      rw [hand_moveTo_self] at found
      cases found
    · rw [hand_moveTo_of_ne same] at found
      exact absurd (disciplined.one_hand inHand found) same
  · intro kept found
    cases found
    refine ⟨locked, ?_⟩
    simp only [moveTo, setHolds, owner, Function.update_self]
  · intro other holds
    by_cases same : other = thread
    · subst same
      refine ⟨?_, guard, rfl, owner⟩
      simp only [moveTo, Function.update_self]
    · simp only [moveTo, setHolds, Function.update_of_ne same] at holds
      exact absurd holds (disciplined.no_holder inHand other)
  · intro kept found
    exact Or.inl (locked.symm.trans found)
  · exact disciplined.forgotten
  · exact disciplined.overwritten

/-- The holder takes its guard out of the slot, into its hands. -/
theorem clear {phase : ThreadPhase} {guard : MutexGuard} (holds : state.holds thread = true)
    (found : state.slot = some guard) (inHand : phase.hand = some guard)
    : (({ state with slot := none }.setHolds thread false).moveTo thread
        phase).Disciplined := by
  obtain ⟨_, kept, foundToo, owner⟩ := disciplined.holder thread holds
  obtain rfl : guard = kept := Option.some.inj (found.symm.trans foundToo)
  have locked := (disciplined.inSlot guard found).1
  constructor
  · intro other kept handed
    by_cases same : other = thread
    · subst same
      rw [hand_moveTo_self, inHand] at handed
      cases handed
      exact ⟨locked, owner, rfl⟩
    · rw [hand_moveTo_of_ne same] at handed
      exact absurd ((disciplined.no_hand found other).symm.trans handed) (by simp)
  · intro kept inSlot
    cases inSlot
  · intro other still
    by_cases same : other = thread
    · subst same
      simp [moveTo, setHolds] at still
    · simp only [moveTo, setHolds, Function.update_of_ne same] at still
      exact absurd (disciplined.one_holder holds still) same
  · intro kept lockedBy
    obtain rfl : guard = kept := Option.some.inj (locked.symm.trans lockedBy)
    right
    rw [owner, hand_moveTo_self, inHand]
  · exact disciplined.forgotten
  · exact disciplined.overwritten

/-- The guard in hand is dropped, and the mutex is free. -/
theorem release {phase : ThreadPhase} {guard : MutexGuard}
    (inHand : state.hand thread = some guard) (free : phase.hand = none)
    : (state.releaseGuard.moveTo thread phase).Disciplined := by
  have empty := (disciplined.inHand thread guard inHand).2.2
  constructor
  · intro other kept found
    by_cases same : other = thread
    · subst same
      rw [hand_moveTo_self, free] at found
      cases found
    · rw [hand_moveTo_of_ne same] at found
      exact absurd (disciplined.one_hand inHand found) same
  · intro kept found
    exact absurd (empty.symm.trans found) (by simp)
  · intro other holds
    exact absurd holds (disciplined.no_holder inHand other)
  · intro kept found
    cases found
  · exact disciplined.forgotten
  · exact disciplined.overwritten

/-- Waking a blocked thread moves no guard. -/
theorem wake {waiter condvar : Nat} (blocked : state.phase waiter = .blocked condvar)
    : (state.moveTo waiter .woken).Disciplined := by
  have sameHand : ∀ other, (state.moveTo waiter .woken).hand other = state.hand other := by
    intro other
    by_cases same : other = waiter
    · rw [same, hand_moveTo_self, hand, blocked]
      rfl
    · exact hand_moveTo_of_ne same state .woken
  constructor
  · intro other kept found
    rw [sameHand] at found
    exact disciplined.inHand other kept found
  · exact disciplined.inSlot
  · intro other holds
    obtain ⟨idle, kept⟩ := disciplined.holder other holds
    refine ⟨?_, kept⟩
    by_cases same : other = waiter
    · rw [same, blocked] at idle
      cases idle
    · rw [phase_moveTo_of_ne same]
      exact idle
  · intro kept found
    rw [sameHand]
    exact disciplined.locked kept found
  · exact disciplined.forgotten
  · exact disciplined.overwritten

/-- Whatever a step does keeps the discipline. -/
theorem effect (happened : state.Effect thread next) : next.Disciplined := by
  cases happened with
  | acquire free owner hand => exact disciplined.acquire free owner hand
  | fill hand => exact disciplined.fill hand
  | clear holds found hand => exact disciplined.clear holds found hand
  | release hand free => exact disciplined.release hand free
  | wake blocked => exact disciplined.wake blocked
  | rest => exact disciplined
  | poison =>
      exact ⟨disciplined.inHand, disciplined.inSlot, disciplined.holder, disciplined.locked,
        disciplined.forgotten, disciplined.overwritten⟩

/-- Whatever a thread does leaves the hold of every other thread, and its guard in the
slot, as they were.
-/
theorem effect_frame (happened : state.Effect thread next) {other : Nat}
    (different : other ≠ thread)
    : next.holds other = state.holds other
      ∧ (state.holds other = true
          → next.slot = state.slot ∧ next.inner = state.inner) := by
  cases happened with
  | acquire free owner hand =>
      exact ⟨rfl, fun holds => absurd holds ((disciplined.free free).2.1 other)⟩
  | fill hand =>
      refine ⟨?_, fun holds => absurd holds (disciplined.no_holder hand other)⟩
      simp only [moveTo, setHolds, Function.update_of_ne different]
  | clear holds found hand =>
      refine ⟨?_, fun also => absurd (disciplined.one_holder holds also) different⟩
      simp only [moveTo, setHolds, Function.update_of_ne different]
  | release hand free =>
      exact ⟨rfl, fun holds => absurd holds (disciplined.no_holder hand other)⟩
  | wake blocked => exact ⟨rfl, fun _ => ⟨rfl, rfl⟩⟩
  | rest => exact ⟨rfl, fun _ => ⟨rfl, rfl⟩⟩
  | poison => exact ⟨rfl, fun _ => ⟨rfl, rfl⟩⟩

end Disciplined

-----------------------------------------------------------------------------------------
-- Every step has one of the effects
-----------------------------------------------------------------------------------------

theorem acquire_effect {call : MutexCall} {fill : MutexGuard → ThreadPhase}
    (free : state.inner = none) (fills : ∀ guard, (fill guard).hand = some guard)
    : state.Effect thread (state.acquire thread call fill) := by
  refine .acquire free rfl ?_
  split
  · rfl
  · exact fills _

theorem returns_rest {call : MutexCall} {result : ZResult} (idle : state.phase thread = .idle)
    : state.Effect thread (state.returns thread call result).2 := by
  have same : (state.returns thread call result).2 = state := moveTo_idle idle
  rw [same]
  exact .rest

/-- A step that respects the rule has one of the effects, for the thread that runs it. The
slot is empty when a guard is written to it, so nothing is forgotten or overwritten.
-/
theorem exec_effect {step : Step} {outcome : Outcome} (disciplined : state.Disciplined)
    (respects : state.Respects step) (ran : state.exec step = some outcome)
    : state.Effect (step.thread?.getD 0) outcome.2 := by
  cases step with
  | lockAcquire thread =>
      obtain ⟨⟨_, free⟩, same⟩ := Option.ite_none_right_eq_some.mp ran
      cases same
      exact acquire_effect free (fun _ => rfl)
  | tryLockAcquire thread =>
      obtain ⟨idle, same⟩ := Option.ite_none_right_eq_some.mp ran
      split at same
      · next free =>
          cases same
          exact acquire_effect free (fun _ => rfl)
      · cases same
        exact returns_rest idle
  | fillSlot thread =>
      simp only [exec, fillSlot] at ran
      split at ran
      · next call guard phase =>
          cases ran
          have inHand : state.hand thread = some guard := hand_of_phase phase
          have empty := (disciplined.inHand thread guard inHand).2.2
          simp only [returns, empty, Option.toList_none, List.append_nil]
          exact .fill inHand
      · cases ran
  | dropRefused thread =>
      simp only [exec, dropRefused] at ran
      split at ran
      · next call guard phase =>
          cases ran
          have inHand : state.hand thread = some guard := hand_of_phase phase
          exact .release inHand rfl
      · cases ran
  | unlockClear thread =>
      obtain ⟨idle, same⟩ := Option.ite_none_right_eq_some.mp ran
      split at same
      · cases same
        exact returns_rest idle
      · next guard found =>
          cases same
          exact .clear respects found rfl
  | unlockRelease thread =>
      simp only [exec, unlockRelease] at ran
      split at ran
      · next guard phase =>
          cases ran
          have inHand : state.hand thread = some guard := hand_of_phase phase
          exact .release inHand rfl
      · cases ran
  | waitTake thread condvar =>
      obtain ⟨idle, same⟩ := Option.ite_none_right_eq_some.mp ran
      split at same
      · cases same
        exact returns_rest idle
      · next guard found =>
          cases same
          exact .clear respects found rfl
  | waitBlock thread =>
      simp only [exec, waitBlock] at ran
      split at ran
      · next condvar guard phase =>
          cases ran
          have inHand : state.hand thread = some guard := hand_of_phase phase
          exact .release inHand rfl
      · cases ran
  | wakeSpuriously thread =>
      simp only [exec, wakeSpuriously] at ran
      split at ran
      · next condvar phase =>
          cases ran
          exact .wake phase
      · cases ran
  | zCondvarSignal thread condvar waiter =>
      obtain ⟨idle, same⟩ := Option.ite_none_right_eq_some.mp ran
      split at same
      · cases same
        exact returns_rest idle
      · next waiter =>
          obtain ⟨blocked, same⟩ := Option.ite_none_right_eq_some.mp same
          cases same
          have others : thread ≠ waiter := by
            intro both
            rw [both, blocked] at idle
            cases idle
          have stays : (state.moveTo waiter .woken).phase thread = .idle := by
            rw [phase_moveTo_of_ne others, idle]
          simp only [returns, moveTo_idle stays]
          exact .wake blocked
  | waitReacquire thread =>
      obtain ⟨⟨_, free⟩, same⟩ := Option.ite_none_right_eq_some.mp ran
      cases same
      exact acquire_effect free (fun _ => rfl)
  | waitRefill thread =>
      simp only [exec, waitRefill] at ran
      split at ran
      · next guard phase =>
          cases ran
          have inHand : state.hand thread = some guard := hand_of_phase phase
          have empty := (disciplined.inHand thread guard inHand).2.2
          simp only [returns, empty, Option.toList_none, List.append_nil, Option.isSome_none,
            Bool.false_eq_true, if_false]
          exact .fill inHand
      · cases ran
  | poison =>
      cases ran
      exact .poison

theorem step_cases {step : Step} (stepped : machine.step state step = some next)
    : state.Respects step ∧ ∃ returned, state.exec step = some (returned, next) := by
  simp only [machine, Option.ite_none_right_eq_some, Option.map_eq_some_iff] at stepped
  obtain ⟨respects, ⟨returned, after⟩, ran, rfl⟩ := stepped
  exact ⟨respects, returned, ran⟩

theorem step_disciplined {step : Step} (disciplined : state.Disciplined)
    (stepped : machine.step state step = some next)
    : next.Disciplined := by
  obtain ⟨respects, returned, ran⟩ := step_cases stepped
  exact disciplined.effect (exec_effect disciplined respects ran)

/-- A step leaves the hold and the guard of every thread but its own as they were. -/
theorem step_frame {step : Step} (disciplined : state.Disciplined)
    (stepped : machine.step state step = some next) {other : Nat}
    (different : step.thread? ≠ some other)
    : next.holds other = state.holds other
      ∧ (state.holds other = true
          → next.slot = state.slot ∧ next.inner = state.inner) := by
  obtain ⟨respects, returned, ran⟩ := step_cases stepped
  cases thread : step.thread? with
  | some thread =>
      have happened := exec_effect disciplined respects ran
      rw [thread, Option.getD_some] at happened
      refine disciplined.effect_frame happened ?_
      intro same
      exact different (thread.trans (congrArg some same.symm))
  | none =>
      cases step with
      | poison =>
          cases ran
          exact ⟨rfl, fun _ => ⟨rfl, rfl⟩⟩
      | lockAcquire _ | tryLockAcquire _ | fillSlot _ | dropRefused _ | unlockClear _
      | unlockRelease _ | waitTake _ _ | waitBlock _ | wakeSpuriously _
      | zCondvarSignal _ _ _ | waitReacquire _ | waitRefill _ =>
          cases thread

/-- A wait that returns an error has released the mutex, and its slot is empty. -/
theorem failed_wait {step : Step} {code : ZResult} (disciplined : state.Disciplined)
    (respects : state.Respects step)
    (ran : state.exec step = some (some (thread, .zCondvarWait, code), next))
    (failed : code ≠ zOk)
    : next.inner = none ∧ next.slot = none ∧ next.holds thread = false := by
  cases step with
  | dropRefused runner =>
      simp only [exec, dropRefused] at ran
      split at ran
      · next call guard phase =>
          simp only [returns, Option.some.injEq, Prod.mk.injEq] at ran
          obtain ⟨⟨rfl, _, _⟩, rfl⟩ := ran
          have inHand : state.hand runner = some guard := hand_of_phase phase
          refine ⟨rfl, (disciplined.inHand runner guard inHand).2.2, ?_⟩
          exact Bool.eq_false_iff.mpr (disciplined.no_holder inHand runner)
      · cases ran
  | waitTake runner condvar =>
      obtain ⟨_, kept, found, _⟩ := disciplined.holder runner respects
      obtain ⟨idle, same⟩ := Option.ite_none_right_eq_some.mp ran
      split at same
      · next empty =>
          rw [found] at empty
          cases empty
      · cases same
  | waitRefill runner =>
      simp only [exec, waitRefill] at ran
      split at ran
      · simp only [returns, Option.some.injEq, Prod.mk.injEq] at ran
        exact absurd ran.1.2.2.symm failed
      · cases ran
  | fillSlot runner =>
      simp only [exec, fillSlot] at ran
      split at ran
      · simp only [returns, Option.some.injEq, Prod.mk.injEq] at ran
        exact absurd ran.1.2.2.symm failed
      · cases ran
  | lockAcquire runner =>
      obtain ⟨_, same⟩ := Option.ite_none_right_eq_some.mp ran
      cases same
  | tryLockAcquire runner =>
      obtain ⟨_, same⟩ := Option.ite_none_right_eq_some.mp ran
      split at same
      · cases same
      · cases same
  | unlockClear runner =>
      obtain ⟨_, same⟩ := Option.ite_none_right_eq_some.mp ran
      split at same
      · cases same
      · cases same
  | unlockRelease runner =>
      simp only [exec, unlockRelease] at ran
      split at ran
      · cases ran
      · cases ran
  | waitBlock runner =>
      simp only [exec, waitBlock] at ran
      split at ran
      · cases ran
      · cases ran
  | wakeSpuriously runner =>
      simp only [exec, wakeSpuriously] at ran
      split at ran
      · cases ran
      · cases ran
  | zCondvarSignal runner condvar waiter =>
      obtain ⟨_, same⟩ := Option.ite_none_right_eq_some.mp ran
      split at same
      · cases same
      · obtain ⟨_, same⟩ := Option.ite_none_right_eq_some.mp same
        cases same
  | waitReacquire runner =>
      obtain ⟨_, same⟩ := Option.ite_none_right_eq_some.mp ran
      cases same
  | poison => cases ran

/-- The standard mutex is locked by a guard of `thread`, which holds it alone. -/
def HeldAloneBy (state : LoanedMutex) (thread : Nat) : Prop :=
  (∃ guard, state.inner = some guard ∧ guard.owner = thread)
  ∧ state.holds thread = true
  ∧ ∀ other, state.holds other = true → other = thread

/-- Between calls a locked mutex has its guard in the slot. -/
theorem Disciplined.locked_of_quiet (disciplined : state.Disciplined) (quiet : state.Quiet)
    {guard : MutexGuard} (locked : state.inner = some guard)
    : state.slot = some guard := by
  rcases disciplined.locked guard locked with inSlot | inHand
  · exact inSlot
  · rw [quiet guard.owner] at inHand
    cases inHand

theorem Disciplined.slot_isSome_iff (disciplined : state.Disciplined) (quiet : state.Quiet)
    : state.slot.isSome = true ↔ ∃ thread, state.HeldAloneBy thread := by
  constructor
  · intro filled
    obtain ⟨guard, found⟩ := Option.isSome_iff_exists.mp filled
    obtain ⟨locked, holds⟩ := disciplined.inSlot guard found
    exact ⟨guard.owner, ⟨guard, locked, rfl⟩, holds,
      fun other also => disciplined.one_holder holds also⟩
  · intro held
    rcases held with ⟨thread, ⟨guard, locked, _⟩, _⟩
    exact Option.isSome_iff_exists.mpr ⟨guard, disciplined.locked_of_quiet quiet locked⟩

/-- In every interleaving in which unlock and wait are called by the thread that holds the
mutex, the slot has a guard between calls exactly when one thread holds the standard mutex;
no guard is forgotten or overwritten; the mutex is never locked without a holder; no step
changes another thread's hold or guard; and a failing wait has released both.
-/
theorem guard_slot_follows_mutex {steps : List Step} {state : LoanedMutex}
    (ran : machine.run steps = some state)
    : (state.Quiet
        → (state.slot.isSome = true ↔ ∃ thread, state.HeldAloneBy thread))
      ∧ (state.Quiet
          → state.inner.isSome = true
          → ∃ thread, state.holds thread = true)
      ∧ state.forgotten = []
      ∧ state.overwritten = []
      ∧ (∀ step next other,
          machine.step state step = some next
          → step.thread? ≠ some other
          → next.holds other = state.holds other
            ∧ (state.holds other = true
                → next.slot = state.slot ∧ next.inner = state.inner))
      ∧ ∀ step next thread code,
          state.Respects step
          → state.exec step = some (some (thread, .zCondvarWait, code), next)
          → code ≠ zOk
          → next.inner = none ∧ next.slot = none ∧ next.holds thread = false := by
  have disciplined : state.Disciplined :=
    Machine.runFrom_preserves
      (fun state step next disciplined stepped => step_disciplined disciplined stepped) ran
      Disciplined.zMutexInit
  refine ⟨disciplined.slot_isSome_iff, ?_, disciplined.forgotten, disciplined.overwritten,
    ?_, ?_⟩
  · intro quiet locked
    obtain ⟨guard, found⟩ := Option.isSome_iff_exists.mp locked
    have inSlot := disciplined.locked_of_quiet quiet found
    exact ⟨guard.owner, (disciplined.inSlot guard inSlot).2⟩
  · intro step next other stepped different
    exact step_frame disciplined stepped different
  · intro step next thread code respects returned failed
    exact failed_wait disciplined respects returned failed

/-- One thread waits, another locks, signals and unlocks, and the first gets the mutex back. -/
theorem guard_slot_follows_mutex_wait_and_signal
    : ∃ state,
        machine.run
            [.lockAcquire 0, .fillSlot 0, .waitTake 0 5, .waitBlock 0, .lockAcquire 1,
              .tryLockAcquire 2, .fillSlot 1, .zCondvarSignal 1 5 (some 0), .unlockClear 1,
              .unlockRelease 1, .waitReacquire 0, .waitRefill 0]
          = some state
        ∧ state.forgotten = []
        ∧ state.overwritten = [] := by
  obtain ⟨state, ran⟩
      : ∃ state,
          machine.run
              [.lockAcquire 0, .fillSlot 0, .waitTake 0 5, .waitBlock 0, .lockAcquire 1,
                .tryLockAcquire 2, .fillSlot 1, .zCondvarSignal 1 5 (some 0), .unlockClear 1,
                .unlockRelease 1, .waitReacquire 0, .waitRefill 0]
            = some state :=
    ⟨_, rfl⟩
  obtain ⟨_, _, forgotten, overwritten, _⟩ := guard_slot_follows_mutex ran
  exact ⟨state, ran, forgotten, overwritten⟩

end LoanedMutex

end ZenohC
