import Mathlib.Logic.Function.Basic
import ZenohC.Library.Machine
import ZenohC.Transmute

/-! The mutex and the condition variable of the C API, one atomic step at a time.
A loaned mutex is a standard mutex and, beside it, a plain slot for its guard. Each call
touches the slot before or after the standard mutex, and other threads run in between.
-/

namespace ZenohC

/-- The guard of the standard mutex, with the thread that acquired it. -/
structure MutexGuard where
  owner : Nat
  stamp : Nat
  deriving DecidableEq, Repr

inductive MutexCall where
  | zMutexLock
  | zMutexTryLock
  | zMutexUnlock
  | zCondvarWait
  | zCondvarSignal
  deriving DecidableEq, Repr

/-- Where a thread stands between two atomic steps of a call. -/
inductive ThreadPhase where
  | idle
  | filling (call : MutexCall) (guard : MutexGuard)
  | refused (call : MutexCall) (guard : MutexGuard)
  | unlocking (guard : MutexGuard)
  | releasing (condvar : Nat) (guard : MutexGuard)
  | blocked (condvar : Nat)
  | woken
  | refilling (guard : MutexGuard)
  deriving DecidableEq, Repr

/-- The guard that a thread has in its hands, outside the slot. -/
def ThreadPhase.hand : ThreadPhase → Option MutexGuard
  | .filling _ guard | .refused _ guard | .unlocking guard | .releasing _ guard
  | .refilling guard =>
      some guard
  | .idle | .blocked _ | .woken => none

/-- One mutex and the threads that use it. `inner` is the guard that keeps the standard mutex
locked. The last four fields are history: which threads hold the mutex as far as the
results they got can tell, and the guards that were forgotten or overwritten.
-/
structure LoanedMutex where
  inner : Option MutexGuard
  poisoned : Bool
  slot : Option MutexGuard
  phase : Nat → ThreadPhase
  holds : Nat → Bool
  next : Nat
  forgotten : List MutexGuard
  overwritten : List MutexGuard

namespace LoanedMutex

/-- `z_mutex_init`, before any thread has called anything. -/
def zMutexInit : LoanedMutex :=
  { inner := none, poisoned := false, slot := none, phase := fun _ => .idle,
    holds := fun _ => false, next := 0, forgotten := [], overwritten := [] }

def moveTo (state : LoanedMutex) (thread : Nat) (phase : ThreadPhase) : LoanedMutex :=
  { state with phase := Function.update state.phase thread phase }

def setHolds (state : LoanedMutex) (thread : Nat) (holds : Bool) : LoanedMutex :=
  { state with holds := Function.update state.holds thread holds }

/-- The standard mutex is acquired; a poisoned one gives the guard inside an error. -/
def acquire (state : LoanedMutex) (thread : Nat) (call : MutexCall)
    (fill : MutexGuard → ThreadPhase)
    : LoanedMutex :=
  let guard := { owner := thread, stamp := state.next }
  { state with inner := some guard, next := state.next + 1 }.moveTo thread
    (if state.poisoned then .refused call guard else fill guard)

/-- Dropping a guard releases the standard mutex. -/
def releaseGuard (state : LoanedMutex) : LoanedMutex :=
  { state with inner := none }

/-- A step may be the last of its call, which then returns a result. -/
abbrev Outcome := Option (Nat × MutexCall × ZResult) × LoanedMutex

def continues (state : LoanedMutex) : Outcome :=
  (none, state)

def returns (state : LoanedMutex) (thread : Nat) (call : MutexCall) (result : ZResult)
    : Outcome :=
  (some (thread, call, result), state.moveTo thread .idle)

/-- `this.0.lock()` returns once the standard mutex is free. -/
def lockAcquire (state : LoanedMutex) (thread : Nat) : Option Outcome :=
  if state.phase thread = .idle ∧ state.inner = none then
    some (state.acquire thread .zMutexLock (.filling .zMutexLock)).continues
  else none

/-- `this.0.try_lock()` fails at once on a locked mutex. -/
def tryLockAcquire (state : LoanedMutex) (thread : Nat) : Option Outcome :=
  if state.phase thread = .idle then
    if state.inner = none then
      some (state.acquire thread .zMutexTryLock (.filling .zMutexTryLock)).continues
    else some (state.returns thread .zMutexTryLock zEbusyMutex)
  else none

/-- `this.1.replace(new_lock)`, then `mem::forget` of the old content of the slot. -/
def fillSlot (state : LoanedMutex) (thread : Nat) : Option Outcome :=
  match state.phase thread with
  | .filling call guard =>
      some (({ state with
        slot := some guard
        forgotten := state.forgotten ++ state.slot.toList }.setHolds thread true).returns
          thread call zOk)
  | _ => none

/-- The guard inside a poison error is dropped on the way out. -/
def dropRefused (state : LoanedMutex) (thread : Nat) : Option Outcome :=
  match state.phase thread with
  | .refused call _ =>
      some (state.releaseGuard.returns thread call
        (if call = .zMutexTryLock then zEbusyMutex else zEpoisonMutex))
  | _ => none

/-- `z_mutex_unlock` up to `this.1.take()`. -/
def unlockClear (state : LoanedMutex) (thread : Nat) : Option Outcome :=
  if state.phase thread = .idle then
    match state.slot with
    | none => some (state.returns thread .zMutexUnlock zEinvalMutex)
    | some guard =>
        some (({ state with slot := none }.setHolds thread false).moveTo thread
          (.unlocking guard)).continues
  else none

/-- The guard taken from the slot is dropped at the end of the statement. -/
def unlockRelease (state : LoanedMutex) (thread : Nat) : Option Outcome :=
  match state.phase thread with
  | .unlocking _ => some (state.releaseGuard.returns thread .zMutexUnlock zOk)
  | _ => none

/-- `z_condvar_wait` up to `m.1.take()`. -/
def waitTake (state : LoanedMutex) (thread condvar : Nat) : Option Outcome :=
  if state.phase thread = .idle then
    match state.slot with
    | none => some (state.returns thread .zCondvarWait zEinvalMutex)
    | some guard =>
        some (({ state with slot := none }.setHolds thread false).moveTo thread
          (.releasing condvar guard)).continues
  else none

/-- `this.wait(lock)` releases the standard mutex and blocks in one step. -/
def waitBlock (state : LoanedMutex) (thread : Nat) : Option Outcome :=
  match state.phase thread with
  | .releasing condvar _ => some (state.releaseGuard.moveTo thread (.blocked condvar)).continues
  | _ => none

/-- A blocked thread may also wake up without a notification. -/
def wakeSpuriously (state : LoanedMutex) (thread : Nat) : Option Outcome :=
  match state.phase thread with
  | .blocked _ => some (state.moveTo thread .woken).continues
  | _ => none

/-- `notify_one`: `waiter` is the thread that the condition variable picks, if one waits. -/
def zCondvarSignal (state : LoanedMutex) (thread condvar : Nat) (waiter : Option Nat)
    : Option Outcome :=
  if state.phase thread = .idle then
    match waiter with
    | none => some (state.returns thread .zCondvarSignal zOk)
    | some waiter =>
        if state.phase waiter = .blocked condvar then
          some ((state.moveTo waiter .woken).returns thread .zCondvarSignal zOk)
        else none
  else none

def waitReacquire (state : LoanedMutex) (thread : Nat) : Option Outcome :=
  if state.phase thread = .woken ∧ state.inner = none then
    some (state.acquire thread .zCondvarWait .refilling).continues
  else none

/-- `m.1 = Some(new_lock)` drops what it overwrites, and with a guard its lock. -/
def waitRefill (state : LoanedMutex) (thread : Nat) : Option Outcome :=
  match state.phase thread with
  | .refilling guard =>
      some (({ state with
        inner := if state.slot.isSome then none else state.inner
        slot := some guard
        overwritten := state.overwritten ++ state.slot.toList }.setHolds thread true).returns
          thread .zCondvarWait zOk)
  | _ => none

/-- One atomic step of a thread, or a thread of the program poisoning the mutex. -/
inductive Step where
  | lockAcquire (thread : Nat)
  | tryLockAcquire (thread : Nat)
  | fillSlot (thread : Nat)
  | dropRefused (thread : Nat)
  | unlockClear (thread : Nat)
  | unlockRelease (thread : Nat)
  | waitTake (thread condvar : Nat)
  | waitBlock (thread : Nat)
  | wakeSpuriously (thread : Nat)
  | zCondvarSignal (thread condvar : Nat) (waiter : Option Nat)
  | waitReacquire (thread : Nat)
  | waitRefill (thread : Nat)
  | poison
  deriving DecidableEq, Repr

/-- The thread that runs the step. -/
def Step.thread? : Step → Option Nat
  | .lockAcquire thread | .tryLockAcquire thread | .fillSlot thread | .dropRefused thread
  | .unlockClear thread | .unlockRelease thread | .waitTake thread _ | .waitBlock thread
  | .wakeSpuriously thread | .zCondvarSignal thread _ _ | .waitReacquire thread
  | .waitRefill thread =>
      some thread
  | .poison => none

def exec (state : LoanedMutex) : Step → Option Outcome
  | .lockAcquire thread => state.lockAcquire thread
  | .tryLockAcquire thread => state.tryLockAcquire thread
  | .fillSlot thread => state.fillSlot thread
  | .dropRefused thread => state.dropRefused thread
  | .unlockClear thread => state.unlockClear thread
  | .unlockRelease thread => state.unlockRelease thread
  | .waitTake thread condvar => state.waitTake thread condvar
  | .waitBlock thread => state.waitBlock thread
  | .wakeSpuriously thread => state.wakeSpuriously thread
  | .zCondvarSignal thread condvar waiter => state.zCondvarSignal thread condvar waiter
  | .waitReacquire thread => state.waitReacquire thread
  | .waitRefill thread => state.waitRefill thread
  | .poison => some { state with poisoned := true }.continues

/-- The rule of the API: unlock and wait are called by the thread that holds the mutex. -/
def Respects (state : LoanedMutex) : Step → Prop
  | .unlockClear thread | .waitTake thread _ => state.holds thread = true
  | _ => True

instance (state : LoanedMutex) : (step : Step) → Decidable (state.Respects step)
  | .unlockClear thread | .waitTake thread _ =>
      inferInstanceAs (Decidable (state.holds thread = true))
  | .lockAcquire _ | .tryLockAcquire _ | .fillSlot _ | .dropRefused _ | .unlockRelease _
  | .waitBlock _ | .wakeSpuriously _ | .zCondvarSignal _ _ _ | .waitReacquire _
  | .waitRefill _ | .poison =>
      .isTrue trivial

/-- All interleavings of calls that respect the rule. -/
def machine : Library.Machine LoanedMutex Step where
  init := zMutexInit
  step state step := if state.Respects step then (state.exec step).map Prod.snd else none

end LoanedMutex

end ZenohC
