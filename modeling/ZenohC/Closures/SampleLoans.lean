import Mathlib.Data.List.Basic
import ZenohC.Closures.ClosureSample

/-! Mutably loaned samples and the closures they are passed to.
The object behind a loaned pointer is a sample inside one of three storage layouts.
The send end of a channel reads it as an `Option<Sample>` and takes from it.
-/

namespace ZenohC

/-- Where the storage behind a loaned sample pointer was allocated. -/
inductive SampleStorage where
  | owned
  | callback
  | reply
  deriving DecidableEq, Repr

/-- The bits behind the pointer. `Option<Sample>` represents `None` by a bit pattern that is
no sample, so both types read the same memory.
-/
inductive SampleMemory (σ : Type) where
  | sample (content : σ)
  | niche
  deriving DecidableEq, Repr

/-- The memory read as an `Option<Sample>`. -/
def SampleMemory.asOption {σ : Type} : SampleMemory σ → Option σ
  | .sample content => some content
  | .niche => none

structure SampleCell (σ : Type) where
  storage : SampleStorage
  memory : SampleMemory σ
  deriving DecidableEq, Repr

/-- Owned slots and slots of callbacks hold `Some` sample, and a reply holds a sample. -/
def SampleCell.Valid {σ : Type} (cell : SampleCell σ) : Prop :=
  match cell.storage with
  | .owned | .callback => ∃ content, cell.memory.asOption = some content
  | .reply => ∃ content, cell.memory = .sample content

theorem SampleCell.valid_iff {σ : Type} {cell : SampleCell σ}
    : cell.Valid ↔ ∃ content, cell.memory = .sample content := by
  have same : ∀ content, cell.memory.asOption = some content ↔ cell.memory = .sample content := by
    intro content
    cases cell.memory with
    | sample found => simp [SampleMemory.asOption]
    | niche => simp [SampleMemory.asOption]
  cases storage : cell.storage with
  | owned => simp only [Valid, storage, same]
  | callback => simp only [Valid, storage, same]
  | reply => simp only [Valid, storage]

/-- What `__z_handler_sample_send` has passed on, and what a user took from a loan. -/
structure SampleLoans (σ : Type) where
  cells : List (SampleCell σ)
  sent : List (Ptr × σ)
  taken : List σ
  deriving DecidableEq, Repr

/-- Undefined behaviour: `unwrap_unchecked` on `None`, or bits read as a sample they are not. -/
inductive SampleFault where
  | unwrapUncheckedOnNone
  | invalidSample
  | danglingPointer
  deriving DecidableEq, Repr

/-- What the body of a user's function does with the loaned sample it receives: it may read
it, take from it, and pass it to closures of all kinds.
-/
inductive SampleBody where
  | ret
  | read (rest : SampleBody)
  | zSampleTakeFromLoaned (rest : SampleBody)
  | callEmpty (rest : SampleBody)
  | callUser (body rest : SampleBody)
  | callSend (context : Ptr) (rest : SampleBody)
  deriving DecidableEq, Repr

/-- The body passes the sample to a channel, itself or in a nested call. -/
def SampleBody.Sends : SampleBody → Prop
  | .ret => False
  | .read rest | .zSampleTakeFromLoaned rest | .callEmpty rest => rest.Sends
  | .callUser body rest => body.Sends ∨ rest.Sends
  | .callSend _ _ => True

/-- The functions that a sample closure may point to. -/
inductive SampleFunction where
  | user (body : SampleBody)
  | zHandlerSampleSend
  deriving DecidableEq, Repr

/-- The closures that `z_fifo_channel_sample_new` and `z_ring_channel_sample_new` make; the
context is the boxed callback of the channel.
-/
def zChannelSampleNew (callback : Ptr) (drop : Nat) : ClosureSample SampleFunction :=
  { context := callback, call := some .zHandlerSampleSend, drop := some drop }

namespace SampleLoans

variable {σ : Type} (emptySample : σ)

def memory? (loans : SampleLoans σ) (sample : Nat) : Except SampleFault (SampleMemory σ) :=
  match loans.cells[sample]? with
  | some cell => .ok cell.memory
  | none => .error .danglingPointer

def setMemory (loans : SampleLoans σ) (sample : Nat) (memory : SampleMemory σ)
    : SampleLoans σ :=
  { loans with cells := loans.cells.modify sample fun cell => { cell with memory } }

/-- Any accessor of a loaned sample. -/
def read (loans : SampleLoans σ) (sample : Nat) : Except SampleFault σ := do
  match ← loans.memory? sample with
  | .sample content => .ok content
  | .niche => .error .invalidSample

/-- `mem::replace(src, Sample::empty())`, and the old sample goes to a slot of the user. -/
def zSampleTakeFromLoaned (loans : SampleLoans σ) (sample : Nat)
    : Except SampleFault (SampleLoans σ) := do
  let content ← loans.read sample
  .ok { loans.setMemory sample (.sample emptySample) with taken := loans.taken ++ [content] }

/-- The loaned sample is transmuted to an `Option<Sample>`, and its content is taken. -/
def zHandlerSampleSend (loans : SampleLoans σ) (sample : Nat) (context : Ptr)
    : Except SampleFault (SampleLoans σ) := do
  match ← loans.memory? sample with
  | .sample content =>
      .ok { loans.setMemory sample .niche with sent := loans.sent ++ [(context, content)] }
  | .niche => .error .unwrapUncheckedOnNone

/-- The user's function on the loaned sample; a nested call is `z_closure_sample_call`. -/
def runBody (sample : Nat) : SampleBody → SampleLoans σ → Except SampleFault (SampleLoans σ)
  | .ret, loans => .ok loans
  | .read rest, loans => do
      let _ ← loans.read sample
      runBody sample rest loans
  | .zSampleTakeFromLoaned rest, loans => do
      let loans ← loans.zSampleTakeFromLoaned emptySample sample
      runBody sample rest loans
  | .callEmpty rest, loans => runBody sample rest loans
  | .callUser body rest, loans => do
      let loans ← runBody sample body loans
      runBody sample rest loans
  | .callSend context rest, loans => do
      let loans ← loans.zHandlerSampleSend sample context
      runBody sample rest loans

def zClosureSampleCall (loans : SampleLoans σ) (closure : ClosureSample SampleFunction)
    (sample : Nat)
    : Except SampleFault (SampleLoans σ) :=
  match closure.call with
  | some (.user body) => runBody emptySample sample body loans
  | some .zHandlerSampleSend => loans.zHandlerSampleSend sample closure.context
  | none => .ok loans

/-- One call of a closure on a loaned sample, by the client or by a subscriber. -/
structure SampleCall where
  closure : ClosureSample SampleFunction
  sample : Nat
  deriving DecidableEq, Repr

/-- Sequences of calls; a call that runs into undefined behaviour has no next state. -/
def machine (start : SampleLoans σ) : Library.Machine (SampleLoans σ) SampleCall where
  init := start
  step loans call :=
    (loans.zClosureSampleCall emptySample call.closure call.sample).toOption

-----------------------------------------------------------------------------------------
-- Calls that keep samples valid
-----------------------------------------------------------------------------------------

/-- Every object that a loaned pointer refers to is a valid sample. -/
def Valid (loans : SampleLoans σ) : Prop :=
  ∀ cell ∈ loans.cells, cell.Valid

variable {emptySample} {loans next : SampleLoans σ} {sample : Nat}

theorem memory?_of_getElem? {cell : SampleCell σ} (found : loans.cells[sample]? = some cell)
    : loans.memory? sample = .ok cell.memory := by
  simp only [memory?, found]

/-- A pointer into the storage of a valid state refers to a sample. -/
theorem Valid.memory? (valid : loans.Valid) (inside : sample < loans.cells.length)
    : ∃ content, loans.memory? sample = .ok (.sample content) := by
  have found := List.getElem?_eq_getElem inside
  obtain ⟨content, holds⟩ := SampleCell.valid_iff.mp (valid _ (List.getElem_mem inside))
  exact ⟨content, holds ▸ memory?_of_getElem? found⟩

@[simp]
theorem setMemory_length (loans : SampleLoans σ) (sample : Nat) (memory : SampleMemory σ)
    : (loans.setMemory sample memory).cells.length = loans.cells.length := by
  simp only [setMemory, List.length_modify]

theorem Valid.setMemory (valid : loans.Valid) (sample : Nat) (content : σ)
    : (loans.setMemory sample (.sample content)).Valid := by
  intro cell inside
  obtain ⟨index, found⟩ := List.mem_iff_getElem?.mp inside
  simp only [SampleLoans.setMemory, List.getElem?_modify, Option.map_eq_map,
    Option.map_eq_some_iff] at found
  obtain ⟨old, before, rfl⟩ := found
  split
  · exact SampleCell.valid_iff.mpr ⟨content, rfl⟩
  · exact valid old (List.mem_of_getElem? before)

/-- The memory behind a pointer right after it has been written. -/
theorem memory?_setMemory {old memory : SampleMemory σ}
    (found : loans.memory? sample = .ok old)
    : (loans.setMemory sample memory).memory? sample = .ok memory := by
  unfold SampleLoans.memory? at found ⊢
  cases at_ : loans.cells[sample]? with
  | none => simp only [at_, reduceCtorEq] at found
  | some cell => simp [setMemory, at_]

theorem read_eq_ok_iff {content : σ}
    : loans.read sample = .ok content ↔ loans.memory? sample = .ok (.sample content) := by
  cases found : loans.memory? sample with
  | error fault => simp [read, found, bind, Except.bind]
  | ok memory =>
      cases memory with
      | sample other => simp [read, found, bind, Except.bind]
      | niche => simp [read, found, bind, Except.bind]

theorem zSampleTakeFromLoaned_eq_ok_iff
    : loans.zSampleTakeFromLoaned emptySample sample = .ok next
      ↔ ∃ content,
          loans.memory? sample = .ok (.sample content)
          ∧ next
            = { loans.setMemory sample (.sample emptySample) with
                taken := loans.taken ++ [content] } := by
  cases found : loans.read sample with
  | error fault =>
      have never : ∀ content, loans.memory? sample ≠ .ok (.sample content) := by
        intro content holds
        rw [← read_eq_ok_iff, found] at holds
        cases holds
      simp [zSampleTakeFromLoaned, found, bind, Except.bind, never]
  | ok content =>
      have holds := read_eq_ok_iff.mp found
      simp [zSampleTakeFromLoaned, found, bind, Except.bind, holds, eq_comm]

theorem zHandlerSampleSend_eq_ok_iff {context : Ptr}
    : loans.zHandlerSampleSend sample context = .ok next
      ↔ ∃ content,
          loans.memory? sample = .ok (.sample content)
          ∧ next
            = { loans.setMemory sample .niche with
                sent := loans.sent ++ [(context, content)] } := by
  cases found : loans.memory? sample with
  | error fault => simp [zHandlerSampleSend, found, bind, Except.bind]
  | ok memory =>
      cases memory with
      | sample content => simp [zHandlerSampleSend, found, bind, Except.bind, eq_comm]
      | niche => simp [zHandlerSampleSend, found, bind, Except.bind]

/-- A body that sends nothing runs to its end and keeps every sample valid, by induction on
the body.
-/
theorem runBody_valid (emptySample : σ) {body : SampleBody} (quiet : ¬body.Sends) (valid : loans.Valid)
    (inside : sample < loans.cells.length)
    : ∃ after,
        runBody emptySample sample body loans = .ok after
        ∧ after.Valid
        ∧ after.cells.length = loans.cells.length := by
  induction body generalizing loans with
  | ret => exact ⟨loans, rfl, valid, rfl⟩
  | read rest ih =>
      obtain ⟨content, holds⟩ := valid.memory? inside
      obtain ⟨after, ran, kept⟩ := ih quiet valid inside
      exact ⟨after, bind_eq_ok_iff.mpr ⟨content, read_eq_ok_iff.mpr holds, ran⟩, kept⟩
  | zSampleTakeFromLoaned rest ih =>
      obtain ⟨content, holds⟩ := valid.memory? inside
      let taken : SampleLoans σ :=
        { loans.setMemory sample (.sample emptySample) with taken := loans.taken ++ [content] }
      have stays : taken.cells.length = loans.cells.length := setMemory_length ..
      have takenValid : taken.Valid := valid.setMemory sample emptySample
      obtain ⟨after, ran, kept, length⟩ := ih quiet takenValid (stays ▸ inside)
      have took : loans.zSampleTakeFromLoaned emptySample sample = .ok taken :=
        zSampleTakeFromLoaned_eq_ok_iff.mpr ⟨content, holds, rfl⟩
      exact ⟨after, bind_eq_ok_iff.mpr ⟨taken, took, ran⟩, kept, length.trans stays⟩
  | callEmpty rest ih => exact ih quiet valid inside
  | callUser body rest bodyIh restIh =>
      have bodyQuiet : ¬body.Sends := fun sends => quiet (Or.inl sends)
      have restQuiet : ¬rest.Sends := fun sends => quiet (Or.inr sends)
      obtain ⟨middle, called, middleValid, middleLength⟩ := bodyIh bodyQuiet valid inside
      obtain ⟨after, ran, kept, length⟩ :=
        restIh restQuiet middleValid (middleLength ▸ inside)
      exact ⟨after, bind_eq_ok_iff.mpr ⟨middle, called, ran⟩, kept, length.trans middleLength⟩
  | callSend context rest ih => exact absurd trivial quiet

/-- A `None` is no sample, whatever its content should be. -/
theorem niche_ne_sample (gone : loans.memory? sample = .ok .niche) (content : σ)
    : loans.memory? sample ≠ .ok (.sample content) := by
  rw [gone]
  intro same
  cases same

/-- Nothing that a body does makes a sample of a `None` again, by induction on the body. -/
theorem runBody_niche {body : SampleBody} (gone : loans.memory? sample = .ok .niche)
    (ran : runBody emptySample sample body loans = .ok next)
    : next.memory? sample = .ok .niche := by
  induction body generalizing loans next with
  | ret =>
      cases ran
      exact gone
  | read rest ih =>
      obtain ⟨content, holds, _⟩ := bind_eq_ok_iff.mp ran
      exact absurd (read_eq_ok_iff.mp holds) (niche_ne_sample gone content)
  | zSampleTakeFromLoaned rest ih =>
      obtain ⟨taken, took, _⟩ := bind_eq_ok_iff.mp ran
      obtain ⟨content, holds, _⟩ := zSampleTakeFromLoaned_eq_ok_iff.mp took
      exact absurd holds (niche_ne_sample gone content)
  | callEmpty rest ih => exact ih gone ran
  | callUser body rest bodyIh restIh =>
      obtain ⟨middle, called, ran⟩ := bind_eq_ok_iff.mp ran
      exact restIh (bodyIh gone called) ran
  | callSend context rest ih =>
      obtain ⟨sent, send, _⟩ := bind_eq_ok_iff.mp ran
      obtain ⟨content, holds, _⟩ := zHandlerSampleSend_eq_ok_iff.mp send
      exact absurd holds (niche_ne_sample gone content)

theorem zHandlerSampleSend_niche {context : Ptr}
    (sent : loans.zHandlerSampleSend sample context = .ok next)
    : next.memory? sample = .ok .niche := by
  obtain ⟨content, holds, rfl⟩ := zHandlerSampleSend_eq_ok_iff.mp sent
  exact memory?_setMemory holds

/-- A body that sends leaves a `None` behind if it ends at all, by induction on the body. -/
theorem runBody_sends {body : SampleBody} (sends : body.Sends)
    (ran : runBody emptySample sample body loans = .ok next)
    : next.memory? sample = .ok .niche := by
  induction body generalizing loans next with
  | ret => cases sends
  | read rest ih =>
      obtain ⟨content, _, ran⟩ := bind_eq_ok_iff.mp ran
      exact ih sends ran
  | zSampleTakeFromLoaned rest ih =>
      obtain ⟨taken, _, ran⟩ := bind_eq_ok_iff.mp ran
      exact ih sends ran
  | callEmpty rest ih => exact ih sends ran
  | callUser body rest bodyIh restIh =>
      obtain ⟨middle, called, ran⟩ := bind_eq_ok_iff.mp ran
      rcases sends with bodySends | restSends
      · exact runBody_niche (bodyIh bodySends called) ran
      · exact restIh restSends ran
  | callSend context rest ih =>
      obtain ⟨sent, send, ran⟩ := bind_eq_ok_iff.mp ran
      exact runBody_niche (zHandlerSampleSend_niche send) ran

-----------------------------------------------------------------------------------------
-- Sequences of calls
-----------------------------------------------------------------------------------------

/-- The call reaches the send end of a channel. -/
def SampleCall.Sends (call : SampleCall) : Prop :=
  match call.closure.call with
  | some (.user body) => body.Sends
  | some .zHandlerSampleSend => True
  | none => False

/-- A call that sends nothing returns, with every sample still valid. -/
theorem step_valid (emptySample : σ) (start : SampleLoans σ) {call : SampleCall}
    (quiet : ¬call.Sends) (valid : loans.Valid) (inside : call.sample < loans.cells.length)
    : ∃ after,
        (machine emptySample start).step loans call = some after
        ∧ after.Valid
        ∧ after.cells.length = loans.cells.length := by
  cases function : call.closure.call with
  | none =>
      refine ⟨loans, ?_, valid, rfl⟩
      simp only [machine, zClosureSampleCall, function, Except.toOption]
  | some target =>
      cases target with
      | zHandlerSampleSend => simp [SampleCall.Sends, function] at quiet
      | user body =>
          have bodyQuiet : ¬body.Sends := by
            simpa only [SampleCall.Sends, function] using quiet
          obtain ⟨after, ran, kept⟩ :=
            runBody_valid emptySample bodyQuiet valid inside
          refine ⟨after, ?_, kept⟩
          simp only [machine, zClosureSampleCall, function, ran, Except.toOption]

/-- A call that sends leaves an object that is no valid sample, if it returns at all. -/
theorem step_sends {start : SampleLoans σ} {call : SampleCall} (sends : call.Sends)
    (stepped : (machine emptySample start).step loans call = some next)
    : ¬next.Valid := by
  have ran : loans.zClosureSampleCall emptySample call.closure call.sample = .ok next := by
    cases outcome : loans.zClosureSampleCall emptySample call.closure call.sample with
    | error fault => simp [machine, outcome, Except.toOption] at stepped
    | ok after =>
        simp only [machine, outcome, Except.toOption, Option.some.injEq] at stepped
        rw [stepped]
  have gone : next.memory? call.sample = .ok .niche := by
    unfold zClosureSampleCall at ran
    unfold SampleCall.Sends at sends
    split at ran
    · next body function =>
        simp only [function] at sends
        exact runBody_sends sends ran
    · exact zHandlerSampleSend_niche ran
    · next function =>
        simp only [function] at sends
  intro valid
  cases found : next.cells[call.sample]? with
  | none => simp [SampleLoans.memory?, found] at gone
  | some cell =>
      obtain ⟨content, holds⟩ := SampleCell.valid_iff.mp (valid cell (List.mem_of_getElem? found))
      rw [memory?_of_getElem? found, holds] at gone
      cases gone

/-- After every call of the sequence the objects behind the pointers are valid samples; in
particular no call runs into undefined behaviour.
-/
def StaysValid (emptySample : σ) (start : SampleLoans σ) (calls : List SampleCall) : Prop :=
  ∀ done rest,
    calls = done ++ rest
    → ∃ reached, (machine emptySample start).run done = some reached ∧ reached.Valid

/-- Calls that send nothing keep the samples valid, by induction on the calls. -/
theorem runFrom_valid {start : SampleLoans σ} {calls : List SampleCall} (valid : loans.Valid)
    (obtained : ∀ call ∈ calls, call.sample < loans.cells.length)
    (quiet : ∀ call ∈ calls, ¬call.Sends)
    : ∃ reached,
        (machine emptySample start).runFrom loans calls = some reached ∧ reached.Valid := by
  induction calls generalizing loans with
  | nil => exact ⟨loans, rfl, valid⟩
  | cons call rest ih =>
      obtain ⟨next, stepped, nextValid, length⟩ :=
        step_valid emptySample start (quiet call List.mem_cons_self) valid
          (obtained call List.mem_cons_self)
      obtain ⟨reached, ran, reachedValid⟩ := ih nextValid
        (fun other member => length ▸ obtained other (List.mem_cons_of_mem call member))
        (fun other member => quiet other (List.mem_cons_of_mem call member))
      exact ⟨reached, Library.Machine.runFrom_cons_iff.mpr ⟨next, stepped, ran⟩, reachedValid⟩

/-- A sequence of closure calls on valid loaned samples keeps them valid after every call if
and only if none of the calls, nested ones included, reaches the send end of a channel.
-/
theorem samples_stay_valid_iff {start : SampleLoans σ} {calls : List SampleCall}
    (valid : start.Valid) (obtained : ∀ call ∈ calls, call.sample < start.cells.length)
    : StaysValid emptySample start calls ↔ ∀ call ∈ calls, ¬call.Sends := by
  constructor
  · intro stays call member sends
    obtain ⟨done, rest, rfl⟩ := List.append_of_mem member
    obtain ⟨last, ran, lastValid⟩ := stays (done ++ [call]) rest (by simp)
    obtain ⟨reached, _, continued⟩ := Library.Machine.runFrom_append_iff.mp ran
    obtain ⟨next, stepped, ended⟩ := Library.Machine.runFrom_cons_iff.mp continued
    cases ended
    exact step_sends sends stepped lastValid
  · intro quiet done rest split
    subst split
    exact runFrom_valid valid
      (fun call member => obtained call (List.mem_append_left rest member))
      (fun call member => quiet call (List.mem_append_left rest member))

/-- Two calls of one user closure that reads a reply's sample and takes from it. -/
theorem samples_stay_valid_iff_user_closure
    : let start : SampleLoans Nat :=
        { cells := [{ storage := .reply, memory := .sample 5 }], sent := [], taken := [] }
      let body := SampleBody.read (.zSampleTakeFromLoaned (.read .ret))
      let call : SampleCall :=
        { closure := { context := 9, call := some (.user body), drop := none }, sample := 0 }
      StaysValid 0 start [call, call] := by
  intro start body call
  refine (samples_stay_valid_iff ?_ ?_).mpr ?_
  · intro cell member
    cases List.mem_singleton.mp member
    exact ⟨5, rfl⟩
  · intro other member
    have same : other = call := by simpa using member
    subst same
    exact Nat.zero_lt_one
  · intro other member sends
    have same : other = call := by simpa using member
    subst same
    exact sends

/-- The closure of a channel leaves the client's own sample slot with a `None`, and a second
call on the same pointer unwraps it.
-/
theorem channel_closure_takes_owned_sample
    : let start : SampleLoans Nat :=
        { cells := [{ storage := .owned, memory := .sample 5 }], sent := [], taken := [] }
      let after : SampleLoans Nat :=
        { cells := [{ storage := .owned, memory := .niche }], sent := [(8, 5)], taken := [] }
      let closure := zChannelSampleNew 8 1
      start.zClosureSampleCall 0 closure 0 = .ok after
      ∧ after.zClosureSampleCall 0 closure 0 = .error .unwrapUncheckedOnNone
      ∧ ¬StaysValid 0 start [{ closure, sample := 0 }] := by
  intro start after closure
  refine ⟨rfl, rfl, fun stays => ?_⟩
  obtain ⟨reached, ran, valid⟩ := stays [{ closure, sample := 0 }] [] rfl
  cases ran
  obtain ⟨content, holds⟩ := SampleCell.valid_iff.mp (valid _ List.mem_cons_self)
  cases holds

end SampleLoans

end ZenohC
