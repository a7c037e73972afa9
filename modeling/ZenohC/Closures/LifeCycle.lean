import ZenohC.Closures.ClosureSample
import ZenohC.Library.Custody

/-! The life cycle of a closure: every drop callback runs once, and no call follows it.
A closure with a drop callback is in the custody of the slot or place that holds its copy;
moving it between them and dropping it keep the account of the store.
-/

namespace ZenohC

open Library

variable {κ : Type}

/-- What the holder of a closure owes: one run of the drop callback, if there is one. -/
def HeldClosure.owed (content : HeldClosure κ) : Multiset (HeldClosure κ) :=
  if content.closure.drop.isSome then {content} else 0

theorem HeldClosure.owed_of_isEmpty {content : HeldClosure κ}
    (empty : content.closure.isEmpty = true)
    : content.owed = 0 := by
  obtain ⟨_, noDrop, _⟩ := ClosureSample.isEmpty_iff.mp empty
  simp only [owed, noDrop, Option.isSome_none, Bool.false_eq_true, if_false]

theorem HeldClosure.mem_owed {content other : HeldClosure κ}
    : other ∈ content.owed ↔ other = content ∧ content.closure.drop.isSome = true := by
  unfold owed
  split
  · next owing => simp only [Multiset.mem_singleton, owing, and_true]
  · next idle =>
      constructor
      · intro member
        exact absurd member (Multiset.notMem_zero other)
      · intro owed
        rcases owed with ⟨_, owing⟩
        exact absurd owing idle

def slotOwed : MaybeUninit (HeldClosure κ) → Multiset (HeldClosure κ)
  | .uninit => 0
  | .written content => content.owed

def placeOwed : Option (HeldClosure κ) → Multiset (HeldClosure κ)
  | none => 0
  | some content => content.owed

/-- The closure whose drop callback an invocation was. -/
def Invocation.dropped? : Invocation κ → Option (HeldClosure κ)
  | .call _ => none
  | .drop content => some content

/-- A drop callback is not followed by a call of the same closure. -/
def Invocation.InOrder (earlier later : Invocation κ) : Prop :=
  ∀ content, earlier = .drop content → later ≠ .call content

namespace ClosureStore

variable {store next : ClosureStore κ}

def held (store : ClosureStore κ) : Multiset (HeldClosure κ) :=
  tally slotOwed store.slots + tally placeOwed store.places

def dropped (store : ClosureStore κ) : Multiset (HeldClosure κ) :=
  store.log.filterMap Invocation.dropped?

def account (store : ClosureStore κ) : Multiset (HeldClosure κ) :=
  store.held + store.dropped

/-- The closures that an operation constructs, of those that have a drop callback. -/
def registers (store : ClosureStore κ) : Operation κ → Multiset (HeldClosure κ)
  | .zClosureSample _ call drop context =>
      if drop.isSome then {{ closure := { context, call, drop }, origin := store.next }} else 0
  | _ => 0

/-- How many numbers the constructions of an operation use up. -/
def Operation.constructions : Operation κ → Nat
  | .zClosureSample _ _ _ _ => 1
  | _ => 0

/-- Some slot of the program or some place of Rust holds the closure. -/
def Holds (store : ClosureStore κ) (content : HeldClosure κ) : Prop :=
  (∃ slot, store.content? slot = some content)
  ∨ ∃ place : Nat, store.places[place]? = some (some content)

theorem content?_eq_some_iff {slot : Nat} {content : HeldClosure κ}
    : store.content? slot = some content ↔ store.slots[slot]? = some (.written content) := by
  unfold content?
  cases store.slots[slot]? with
  | none => simp
  | some found => cases found <;> simp

-----------------------------------------------------------------------------------------
-- What each primitive does to the account
-----------------------------------------------------------------------------------------

theorem write_cases {dst : Nat} {content : HeldClosure κ}
    (written : store.write dst content = some next)
    : (∃ old,
        store.slots[dst]? = some old
        ∧ next.account + slotOwed old = store.account + content.owed)
      ∧ next.content? dst = some content
      ∧ (∀ other, other ≠ dst → next.content? other = store.content? other)
      ∧ next.log = store.log
      ∧ next.next = store.next := by
  obtain ⟨old, found, rfl⟩ := Option.map_eq_some_iff.mp written
  have inside := (List.getElem?_eq_some_iff.mp found).1
  have exchanged := tally_set slotOwed found (.written content)
  refine ⟨⟨old, found, ?_⟩, ?_, ?_, rfl, rfl⟩
  · have owed : slotOwed (.written content) = content.owed := rfl
    rw [owed] at exchanged
    simp only [account, held, dropped]
    calc
      _ = (tally slotOwed (store.slots.set dst (.written content)) + slotOwed old)
          + tally placeOwed store.places
          + (store.log.filterMap Invocation.dropped? : Multiset (HeldClosure κ)) := by ac_rfl
      _ = _ := by rw [exchanged]; ac_rfl
  · exact content?_eq_some_iff.mpr (List.getElem?_set_self inside)
  · intro other different
    simp only [content?, List.getElem?_set_ne different.symm]

/-- Writing an overwritable slot adds what the new closure owes. -/
theorem write_account {dst : Nat} {content : HeldClosure κ} (free : store.Overwritable dst)
    (written : store.write dst content = some next)
    : next.account = store.account + content.owed := by
  obtain ⟨⟨old, found, exchanged⟩, _⟩ := write_cases written
  have nothing : slotOwed old = 0 := by
    cases old with
    | uninit => rfl
    | written old => exact HeldClosure.owed_of_isEmpty (free old (content?_eq_some_iff.mpr found))
  rw [nothing, add_zero] at exchanged
  exact exchanged

/-- Writing the gravestone over a closure takes what it owes out of the account. -/
theorem write_gravestone_account {src : Nat} {content : HeldClosure κ}
    (source : store.content? src = some content)
    (written : store.write src HeldClosure.gravestone = some next)
    : next.account + content.owed = store.account := by
  obtain ⟨⟨old, found, exchanged⟩, _⟩ := write_cases written
  have same : old = .written content :=
    Option.some.inj (found.symm.trans (content?_eq_some_iff.mp source))
  subst same
  rw [HeldClosure.owed_of_isEmpty rfl, add_zero] at exchanged
  exact exchanged

theorem takeCType_cases {src : Nat} {content : HeldClosure κ}
    (taken : store.takeCType src = some (content, next))
    : store.content? src = some content
      ∧ next.account + content.owed = store.account
      ∧ next.content? src = some HeldClosure.gravestone
      ∧ next.log = store.log
      ∧ next.next = store.next := by
  simp only [takeCType, Option.bind_eq_bind, Option.bind_eq_some_iff, Option.some.injEq,
    Prod.mk.injEq] at taken
  obtain ⟨found, source, rest, written, rfl, rfl⟩ := taken
  obtain ⟨_, now, _, sameLog, sameNext⟩ := write_cases written
  exact ⟨source, write_gravestone_account source written, now, sameLog, sameNext⟩

@[simp]
theorem invokeCall_account (store : ClosureStore κ) (content : HeldClosure κ)
    : (store.invokeCall content).account = store.account := by
  unfold invokeCall
  split
  · simp only [account, held, dropped, List.filterMap_append, List.filterMap_cons,
      Invocation.dropped?, List.filterMap_nil, List.append_nil]
  · rfl

theorem invokeDrop_account (store : ClosureStore κ) (content : HeldClosure κ)
    : (store.invokeDrop content).account = store.account + content.owed := by
  cases owing : content.closure.drop with
  | none => simp [invokeDrop, owing, HeldClosure.owed]
  | some function =>
      simp only [invokeDrop, owing, account, held, dropped, List.filterMap_append,
        List.filterMap_cons, Invocation.dropped?, List.filterMap_nil, HeldClosure.owed,
        Option.isSome_some, if_true, ← Multiset.coe_add, Multiset.coe_singleton]
      ac_rfl

theorem invokeCall_frame (store : ClosureStore κ) (content : HeldClosure κ)
    : (store.invokeCall content).slots = store.slots
      ∧ (store.invokeCall content).places = store.places
      ∧ (store.invokeCall content).next = store.next := by
  unfold invokeCall
  split <;> exact ⟨rfl, rfl, rfl⟩

theorem invokeDrop_frame (store : ClosureStore κ) (content : HeldClosure κ)
    : (store.invokeDrop content).slots = store.slots
      ∧ (store.invokeDrop content).places = store.places
      ∧ (store.invokeDrop content).next = store.next := by
  unfold invokeDrop
  split <;> exact ⟨rfl, rfl, rfl⟩

/-- Invoking a closure at most appends its call to the log. -/
theorem invokeCall_log (store : ClosureStore κ) (content : HeldClosure κ)
    : (store.invokeCall content).log = store.log
      ∨ (store.invokeCall content).log = store.log ++ [.call content] := by
  unfold invokeCall
  split
  · exact Or.inr rfl
  · exact Or.inl rfl

theorem invokeDrop_log (store : ClosureStore κ) (content : HeldClosure κ)
    : (store.invokeDrop content).log = store.log
      ∨ (store.invokeDrop content).log = store.log ++ [.drop content] := by
  unfold invokeDrop
  split
  · exact Or.inr rfl
  · exact Or.inl rfl

-----------------------------------------------------------------------------------------
-- What one operation does to the account
-----------------------------------------------------------------------------------------

theorem zClosureSample_account {dst : Nat} {call : Option κ} {drop : Option Nat}
    {context : Ptr} (free : store.Overwritable dst)
    (made : store.zClosureSample dst call drop context = some next)
    : next.account = store.account + store.registers (.zClosureSample dst call drop context)
      ∧ next.next = store.next + 1 := by
  obtain ⟨_, _, _, _, sameNext⟩ := write_cases made
  have bumped : { store with next := store.next + 1 }.Overwritable dst := free
  exact ⟨write_account bumped made, sameNext⟩

/-- A take moves what the source owes to the destination, or nothing onto itself. -/
theorem zClosureSampleTake_cases {dst src : Nat} (free : store.Overwritable dst)
    (taken : store.zClosureSampleTake dst src = some next)
    : next.account = store.account
      ∧ next.content? src = some HeldClosure.gravestone
      ∧ next.log = store.log
      ∧ next.next = store.next := by
  simp only [zClosureSampleTake, Option.bind_eq_bind, Option.bind_eq_some_iff] at taken
  obtain ⟨content, source, copied, written, nulled⟩ := taken
  obtain ⟨_, target, others, copiedLog, copiedNext⟩ := write_cases written
  have still : copied.content? src = some content := by
    by_cases same : src = dst
    · rw [same, target]
    · rw [others src same, source]
  obtain ⟨_, now, _, nulledLog, nulledNext⟩ := write_cases nulled
  refine ⟨?_, now, nulledLog.trans copiedLog, nulledNext.trans copiedNext⟩
  have moved := write_gravestone_account still nulled
  rw [write_account free written] at moved
  exact add_right_cancel moved

theorem zClosureSampleDrop_cases {closure : Nat}
    (dropped : store.zClosureSampleDrop closure = some next)
    : ∃ content rest,
        store.takeCType closure = some (content, rest) ∧ next = rest.invokeDrop content := by
  obtain ⟨⟨content, rest⟩, taken, rfl⟩ := Option.map_eq_some_iff.mp dropped
  exact ⟨content, rest, taken, rfl⟩

/-- Dropping a slot turns what it owes into an invocation; a dropped slot owes nothing. -/
theorem zClosureSampleDrop_account {closure : Nat}
    (dropped : store.zClosureSampleDrop closure = some next)
    : next.account = store.account ∧ next.next = store.next := by
  obtain ⟨content, rest, taken, rfl⟩ := zClosureSampleDrop_cases dropped
  obtain ⟨_, account, _, _, sameNext⟩ := takeCType_cases taken
  exact ⟨(invokeDrop_account rest content).trans account,
    (invokeDrop_frame rest content).2.2.trans sameNext⟩

theorem consume_cases {src : Nat} (consumed : store.consume src = some next)
    : next.account = store.account
      ∧ next.content? src = some HeldClosure.gravestone
      ∧ next.log = store.log
      ∧ next.next = store.next := by
  obtain ⟨⟨content, rest⟩, taken, rfl⟩ := Option.map_eq_some_iff.mp consumed
  obtain ⟨_, account, now, sameLog, sameNext⟩ := takeCType_cases taken
  refine ⟨?_, now, sameLog, sameNext⟩
  rw [← account]
  simp only [ClosureStore.account, held, tally_append, tally_cons, tally_nil, placeOwed,
    add_zero, dropped]
  ac_rfl

theorem callPlace_cases {place : Nat} (called : store.callPlace place = some next)
    : ∃ content,
        store.places[place]? = some (some content) ∧ next = store.invokeCall content := by
  unfold callPlace at called
  split at called
  · next content found => exact ⟨content, found, (Option.some.inj called).symm⟩
  · cases called

theorem dropPlace_cases {place : Nat} (dropped : store.dropPlace place = some next)
    : ∃ content,
        store.places[place]? = some (some content)
        ∧ next
          = { store with places := store.places.set place none }.invokeDrop content := by
  unfold dropPlace at dropped
  split at dropped
  · next content found => exact ⟨content, found, (Option.some.inj dropped).symm⟩
  · cases dropped

theorem dropPlace_account {place : Nat} (dropped : store.dropPlace place = some next)
    : next.account = store.account ∧ next.next = store.next := by
  obtain ⟨content, found, rfl⟩ := dropPlace_cases dropped
  refine ⟨?_, (invokeDrop_frame _ content).2.2⟩
  have exchanged := tally_set placeOwed found none
  have owed : placeOwed (some content) = content.owed := rfl
  have nothing : placeOwed (none : Option (HeldClosure κ)) = 0 := rfl
  rw [owed, nothing, add_zero] at exchanged
  rw [invokeDrop_account]
  simp only [account, held, ← exchanged, ClosureStore.dropped]
  ac_rfl

/-- An operation that respects the rule adds its registrations to the account, and the
counter moves past them.
-/
theorem exec_account {operation : Operation κ} (respects : store.Respects operation)
    (ran : store.exec operation = some next)
    : next.account = store.account + store.registers operation
      ∧ next.next = store.next + operation.constructions := by
  cases operation with
  | declare =>
      cases ran
      refine ⟨?_, rfl⟩
      simp only [account, held, tally_append, tally_cons, tally_nil, slotOwed, add_zero,
        registers, dropped]
  | zClosureSample dst call drop context => exact zClosureSample_account respects ran
  | zInternalClosureSampleNull dst =>
      obtain ⟨_, _, _, _, sameNext⟩ := write_cases ran
      exact ⟨write_account respects ran, sameNext⟩
  | zClosureSampleCall closure =>
      obtain ⟨content, source, rfl⟩ := Option.map_eq_some_iff.mp ran
      exact ⟨(invokeCall_account store content).trans (add_zero _).symm,
        (invokeCall_frame _ _).2.2⟩
  | zClosureSampleTake dst src =>
      obtain ⟨account, _, _, sameNext⟩ := zClosureSampleTake_cases respects ran
      exact ⟨account.trans (add_zero _).symm, sameNext⟩
  | zClosureSampleDrop closure =>
      obtain ⟨account, sameNext⟩ := zClosureSampleDrop_account ran
      exact ⟨account.trans (add_zero _).symm, sameNext⟩
  | consume src =>
      obtain ⟨account, _, _, sameNext⟩ := consume_cases ran
      exact ⟨account.trans (add_zero _).symm, sameNext⟩
  | callPlace place =>
      obtain ⟨content, found, rfl⟩ := callPlace_cases ran
      exact ⟨(invokeCall_account store content).trans (add_zero _).symm,
        (invokeCall_frame _ _).2.2⟩
  | dropPlace place =>
      obtain ⟨account, sameNext⟩ := dropPlace_account ran
      exact ⟨account.trans (add_zero _).symm, sameNext⟩

-----------------------------------------------------------------------------------------
-- Whole programs
-----------------------------------------------------------------------------------------

/-- What every operation may rely on and keeps. -/
structure Sound (store : ClosureStore κ) : Prop where
  stamped : Stamped HeldClosure.origin store.next store.account
  owing : ∀ content ∈ store.account, content.closure.drop.isSome = true
  ordered : store.log.Pairwise Invocation.InOrder

theorem init_sound : (init : ClosureStore κ).Sound :=
  ⟨Stamped.empty HeldClosure.origin 0, fun content member => absurd member
    (Multiset.notMem_zero content), List.Pairwise.nil⟩

theorem dropped?_eq_some_iff {invocation : Invocation κ} {content : HeldClosure κ}
    : invocation.dropped? = some content ↔ invocation = .drop content := by
  cases invocation <;> simp [Invocation.dropped?]

/-- A drop callback in the log has released its closure. -/
theorem mem_dropped_iff {content : HeldClosure κ}
    : content ∈ store.dropped ↔ .drop content ∈ store.log :=
  mem_released fun _ => dropped?_eq_some_iff

theorem mem_held_iff {content : HeldClosure κ}
    : content ∈ store.held ↔ store.Holds content ∧ content.closure.drop.isSome = true := by
  constructor
  · intro member
    rcases Multiset.mem_add.mp member with inSlot | inPlace
    · obtain ⟨slot, inside, owed⟩ := mem_tally.mp inSlot
      cases slot with
      | uninit => cases Multiset.notMem_zero content owed
      | written found =>
          obtain ⟨rfl, owing⟩ := HeldClosure.mem_owed.mp owed
          obtain ⟨index, at_⟩ := List.mem_iff_getElem?.mp inside
          exact ⟨Or.inl ⟨index, content?_eq_some_iff.mpr at_⟩, owing⟩
    · obtain ⟨place, inside, owed⟩ := mem_tally.mp inPlace
      cases place with
      | none => cases Multiset.notMem_zero content owed
      | some found =>
          obtain ⟨rfl, owing⟩ := HeldClosure.mem_owed.mp owed
          obtain ⟨index, at_⟩ := List.mem_iff_getElem?.mp inside
          exact ⟨Or.inr ⟨index, at_⟩, owing⟩
  · intro held
    rcases held with ⟨holds, owing⟩
    have owed : content ∈ content.owed := HeldClosure.mem_owed.mpr ⟨rfl, owing⟩
    rcases holds with ⟨slot, found⟩ | ⟨place, found⟩
    · have inside := List.mem_of_getElem? (content?_eq_some_iff.mp found)
      exact Multiset.mem_add.mpr (Or.inl (mem_tally.mpr ⟨_, inside, owed⟩))
    · have inside := List.mem_of_getElem? found
      exact Multiset.mem_add.mpr (Or.inr (mem_tally.mpr ⟨_, inside, owed⟩))

/-- The drop callback of a closure that is still held has not run. -/
theorem Sound.not_dropped (sound : store.Sound) {content : HeldClosure κ}
    (holds : store.Holds content)
    : .drop content ∉ store.log := by
  intro logged
  have released := mem_dropped_iff.mpr logged
  have owing := sound.owing content (Multiset.mem_add.mpr (Or.inr released))
  have balanced : Balanced store.held store.dropped store.account :=
    ⟨rfl, sound.stamped.nodup⟩
  exact balanced.held_not_released (mem_held_iff.mpr ⟨holds, owing⟩) released

/-- Calling a closure that is still held keeps the order of the log. -/
theorem Sound.invokeCall_ordered (sound : store.Sound) {content : HeldClosure κ}
    (holds : store.Holds content)
    : (store.invokeCall content).log.Pairwise Invocation.InOrder := by
  rcases invokeCall_log store content with same | appended
  · rw [same]
    exact sound.ordered
  · rw [appended]
    refine ordered_push sound.ordered ?_
    intro earlier member other isDrop isCall
    cases isCall
    cases isDrop
    exact sound.not_dropped holds member

/-- A drop callback may follow anything. -/
theorem invokeDrop_ordered (content : HeldClosure κ)
    (ordered : store.log.Pairwise Invocation.InOrder)
    : (store.invokeDrop content).log.Pairwise Invocation.InOrder := by
  rcases invokeDrop_log store content with same | appended
  · rw [same]
    exact ordered
  · rw [appended]
    refine ordered_push ordered ?_
    intro earlier member other isDrop isCall
    cases isCall

theorem exec_ordered {operation : Operation κ} (sound : store.Sound)
    (respects : store.Respects operation) (ran : store.exec operation = some next)
    : next.log.Pairwise Invocation.InOrder := by
  cases operation with
  | declare =>
      cases ran
      exact sound.ordered
  | zClosureSample dst call drop context =>
      obtain ⟨_, _, _, sameLog, _⟩ := write_cases ran
      exact sameLog ▸ sound.ordered
  | zInternalClosureSampleNull dst =>
      obtain ⟨_, _, _, sameLog, _⟩ := write_cases ran
      exact sameLog ▸ sound.ordered
  | zClosureSampleCall closure =>
      obtain ⟨content, source, rfl⟩ := Option.map_eq_some_iff.mp ran
      exact sound.invokeCall_ordered (Or.inl ⟨closure, source⟩)
  | zClosureSampleTake dst src =>
      obtain ⟨_, _, sameLog, _⟩ := zClosureSampleTake_cases respects ran
      exact sameLog ▸ sound.ordered
  | zClosureSampleDrop closure =>
      obtain ⟨content, rest, taken, rfl⟩ := zClosureSampleDrop_cases ran
      obtain ⟨_, _, _, sameLog, _⟩ := takeCType_cases taken
      exact invokeDrop_ordered content (sameLog ▸ sound.ordered)
  | consume src =>
      obtain ⟨_, _, sameLog, _⟩ := consume_cases ran
      exact sameLog ▸ sound.ordered
  | callPlace place =>
      obtain ⟨content, found, rfl⟩ := callPlace_cases ran
      exact sound.invokeCall_ordered (Or.inr ⟨place, found⟩)
  | dropPlace place =>
      obtain ⟨content, found, rfl⟩ := dropPlace_cases ran
      exact invokeDrop_ordered content sound.ordered

/-- One accepted operation keeps the store sound and adds exactly its registrations. -/
theorem step_sound {operation : Operation κ} (sound : store.Sound)
    (stepped : machine.step store operation = some next)
    : next.Sound ∧ next.account = store.account + store.registers operation := by
  simp only [machine, Option.ite_none_right_eq_some] at stepped
  obtain ⟨respects, ran⟩ := stepped
  obtain ⟨account, counter⟩ := exec_account respects ran
  refine ⟨⟨?_, ?_, exec_ordered sound respects ran⟩, account⟩
  · rw [account, counter]
    cases operation with
    | zClosureSample dst call drop context =>
        simp only [registers, Operation.constructions]
        split
        · exact sound.stamped.issue rfl
        · rw [add_zero]
          exact sound.stamped.skip (Nat.le_succ _)
    | declare | zInternalClosureSampleNull _ | zClosureSampleCall _ | zClosureSampleTake _ _
    | zClosureSampleDrop _ | consume _ | callPlace _ | dropPlace _ =>
        exact (add_zero store.account).symm ▸ sound.stamped
  · intro content member
    rw [account] at member
    rcases Multiset.mem_add.mp member with old | new
    · exact sound.owing content old
    · cases operation with
      | zClosureSample dst call drop context =>
          simp only [registers] at new
          split at new
          · next owing =>
              cases Multiset.mem_singleton.mp new
              exact owing
          · cases Multiset.notMem_zero content new
      | declare | zInternalClosureSampleNull _ | zClosureSampleCall _
      | zClosureSampleTake _ _ | zClosureSampleDrop _ | consume _ | callPlace _
      | dropPlace _ =>
          cases Multiset.notMem_zero content new

/-- Over every program, what is held and what has been dropped is what was constructed. -/
theorem run_balanced {operations : List (Operation κ)}
    (ran : machine.run operations = some store)
    : store.Sound
      ∧ Balanced store.held store.dropped (machine.collect registers init operations) := by
  obtain ⟨sound, accounted⟩ :=
    Machine.run_account
      (fun state operation next sound stepped => step_sound sound stepped) ran init_sound rfl
  exact ⟨sound, ⟨accounted, accounted ▸ sound.stamped.nodup⟩⟩

/-- The log lists a closure's drop callback as often as the closure was dropped. -/
theorem count_dropped [DecidableEq κ] (content : HeldClosure κ)
    : store.dropped.count content = store.log.count (.drop content) :=
  count_released (fun _ => dropped?_eq_some_iff) store.log

-----------------------------------------------------------------------------------------
-- Gravestones and the life cycle
-----------------------------------------------------------------------------------------

/-- The operations that call, drop or take a given slot. -/
def Operation.Uses (slot : Nat) : Operation κ → Prop
  | .zClosureSampleCall closure | .zClosureSampleDrop closure => closure = slot
  | .zClosureSampleTake _ src | .consume src => src = slot
  | .declare | .zClosureSample _ _ _ _ | .zInternalClosureSampleNull _ | .callPlace _
  | .dropPlace _ =>
      False

/-- Using a slot in the gravestone state invokes no user function and leaves it so. -/
theorem gravestone_inert {operation : Operation κ} {slot : Nat} {content : HeldClosure κ}
    (found : store.content? slot = some content) (empty : content.closure.isEmpty = true)
    (uses : operation.Uses slot) (ran : machine.step store operation = some next)
    : next.log = store.log
      ∧ ∃ after, next.content? slot = some after ∧ after.closure.isEmpty = true := by
  simp only [machine, Option.ite_none_right_eq_some] at ran
  obtain ⟨respects, ran⟩ := ran
  obtain ⟨noCall, noDrop, _⟩ := ClosureSample.isEmpty_iff.mp empty
  cases operation with
  | zClosureSampleCall closure =>
      cases uses
      obtain ⟨other, source, rfl⟩ := Option.map_eq_some_iff.mp ran
      cases Option.some.inj (source.symm.trans found)
      have silent : store.invokeCall content = store := by
        simp only [invokeCall, noCall]
      rw [silent]
      exact ⟨rfl, content, found, empty⟩
  | zClosureSampleDrop closure =>
      cases uses
      obtain ⟨other, rest, taken, rfl⟩ := zClosureSampleDrop_cases ran
      obtain ⟨source, _, now, sameLog, _⟩ := takeCType_cases taken
      cases Option.some.inj (source.symm.trans found)
      have silent : rest.invokeDrop content = rest := by
        simp only [invokeDrop, noDrop]
      rw [silent]
      exact ⟨sameLog, HeldClosure.gravestone, now, rfl⟩
  | zClosureSampleTake dst src =>
      cases uses
      obtain ⟨_, now, sameLog, _⟩ := zClosureSampleTake_cases respects ran
      exact ⟨sameLog, HeldClosure.gravestone, now, rfl⟩
  | consume src =>
      cases uses
      obtain ⟨_, now, sameLog, _⟩ := consume_cases ran
      exact ⟨sameLog, HeldClosure.gravestone, now, rfl⟩
  | declare | zClosureSample _ _ _ _ | zInternalClosureSampleNull _ | callPlace _
  | dropPlace _ =>
      cases uses

/-- In every program a closure's drop callback runs at most once, exactly once when no slot
or place holds the closure any more, and never before a call of it; a slot in the gravestone
state invokes nothing and stays in that state.
-/
theorem closure_life_cycle [DecidableEq κ] {operations : List (Operation κ)}
    {store : ClosureStore κ} (ran : machine.run operations = some store)
    (content : HeldClosure κ)
    : store.log.count (.drop content) ≤ 1
      ∧ (store.Holds content → .drop content ∉ store.log)
      ∧ (content ∈ machine.collect registers init operations
          → ¬store.Holds content
          → store.log.count (.drop content) = 1)
      ∧ (∀ before after,
          store.log = before ++ .drop content :: after → .call content ∉ after)
      ∧ ∀ slot operation next,
          store.content? slot = some content
          → content.closure.isEmpty = true
          → operation.Uses slot
          → machine.step store operation = some next
          → next.log = store.log
            ∧ ∃ after, next.content? slot = some after ∧ after.closure.isEmpty = true := by
  obtain ⟨sound, balanced⟩ := run_balanced ran
  refine ⟨?_, fun holds => sound.not_dropped holds, ?_, ?_, ?_⟩
  · rw [← count_dropped]
    exact balanced.released_once content
  · intro constructed unheld
    rw [← count_dropped]
    exact balanced.released_exactly_once constructed
      (fun held => unheld (mem_held_iff.mp held).1)
  · intro before after split called
    have ordered := sound.ordered
    rw [split] at ordered
    exact ordered_after ordered called content rfl rfl
  · intro slot operation next found empty uses stepped
    exact gravestone_inert found empty uses stepped

/-- A closure that is called, moved, dropped and dropped again. -/
theorem closure_life_cycle_moved_and_dropped_twice
    : let operations : List (Operation Nat) :=
        [.declare, .declare, .zClosureSample 0 (some 3) (some 4) 9, .zClosureSampleCall 0,
          .zClosureSampleTake 1 0, .zClosureSampleDrop 0, .zClosureSampleDrop 1,
          .zClosureSampleDrop 1]
      let content : HeldClosure Nat :=
        { closure := { context := 9, call := some 3, drop := some 4 }, origin := 0 }
      let gone := MaybeUninit.written HeldClosure.gravestone
      let store : ClosureStore Nat :=
        { slots := [gone, gone], places := [], next := 1, log := [.call content, .drop content] }
      machine.run operations = some store ∧ store.log.count (.drop content) = 1 := by
  intro operations content gone store
  have ran : machine.run operations = some store := by decide
  have constructed : content ∈ machine.collect registers init operations := by decide
  refine ⟨ran, (closure_life_cycle ran content).2.2.1 constructed ?_⟩
  intro holds
  rcases holds with ⟨slot, found⟩ | ⟨place, found⟩
  · have absent : MaybeUninit.written content ∉ store.slots := by decide
    exact absent (List.mem_of_getElem? (content?_eq_some_iff.mp found))
  · cases found

end ClosureStore

end ZenohC
