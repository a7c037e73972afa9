import Mathlib.Data.Multiset.Range
import Mathlib.Tactic.Abel
import ZenohC.Api.PublicationCalls

/-! Where the owned values of a program go when it publishes.
Over a run, each constructed value stays in one slot, is handed over once, or is dropped once.
-/

namespace ZenohC.Publications

open Library

variable {τ ι : Type} {wait : Publication τ ι → Except QueryError Unit}
  {take : Nat → Action (Option Nat)}

/-- Each value that was constructed is in a slot, was handed over, or was dropped. -/
def InOnePlace (store : Store τ ι) : Prop :=
  Balanced (tally holds store.slots) (tally carried store.handed + ↑store.dropped)
    (Multiset.range store.next)

theorem init_inOnePlace : InOnePlace (Store.init : Store τ ι) :=
  { conserved := rfl, distinct := Multiset.nodup_range 0 }

variable {store next : Store τ ι}

theorem construct_inOnePlace (sound : InOnePlace store) {value : Option Nat → OwnedValue}
    (kept : ∀ made, content (value made) = made)
    : InOnePlace (store.construct value) := by
  refine { conserved := ?_, distinct := Multiset.nodup_range _ }
  have added : tally holds (store.slots ++ [value (some store.next)])
      = tally holds store.slots + {store.next} := by
    simp [holds, kept, tokens]
  calc tally holds (store.slots ++ [value (some store.next)])
        + (tally carried store.handed + ↑store.dropped)
      = {store.next} + (tally holds store.slots + (tally carried store.handed + ↑store.dropped)) := by
        rw [added, add_comm (tally holds store.slots), add_assoc]
    _ = {store.next} + Multiset.range store.next := by rw [sound.conserved]
    _ = Multiset.range (store.next + 1) := by rw [Multiset.range_succ, Multiset.singleton_add]

theorem drop_inOnePlace (sound : InOnePlace store) (takes : Takes take) {slot : Nat}
    (dropped : store.drop (take slot) = some next)
    : InOnePlace next := by
  obtain ⟨⟨taken, slots⟩, ran, made⟩ := Option.bind_eq_some_iff.mp dropped
  cases made
  have moved := takes.handsOver slot store.slots taken slots ran
  have asList : ((taken.toList : List Nat) : Multiset Nat) = tokens taken := by
    cases taken <;> rfl
  refine { conserved := ?_, distinct := sound.distinct }
  rw [← sound.conserved, ← add_zero (tally holds store.slots), ← moved, ← Multiset.coe_add, asList]
  abel

theorem call_inOnePlace (sound : InOnePlace store) {call : Call τ ι} {outcome : Outcome τ ι}
    {slots : List OwnedValue} (ran : call.execute wait store.slots = some (outcome, slots))
    : InOnePlace
        { store with slots, handed := store.handed ++ [outcome.handed] } := by
  have moved := execute_handsOver call store.slots outcome slots ran
  refine { conserved := ?_, distinct := sound.distinct }
  rw [← sound.conserved, ← add_zero (tally holds store.slots), ← moved, tally_append, tally_cons,
    tally_nil]
  abel

theorem step_inOnePlace {event : Event τ ι} (sound : InOnePlace store)
    (stepped : store.step wait event = some next)
    : InOnePlace next := by
  cases event with
  | constructBytes =>
      cases stepped
      exact construct_inOnePlace sound fun made => rfl
  | constructEncoding =>
      cases stepped
      exact construct_inOnePlace sound fun made => rfl
  | zBytesDrop slot => exact drop_inOnePlace sound takeBytes_takes stepped
  | zEncodingDrop slot => exact drop_inOnePlace sound takeEncoding_takes stepped
  | call call =>
      obtain ⟨⟨outcome, slots⟩, ran, made⟩ := Option.bind_eq_some_iff.mp stepped
      cases made
      exact call_inOnePlace sound ran

theorem run_inOnePlace {events : List (Event τ ι)}
    (ran : (Store.machine wait).run events = some store)
    : InOnePlace store := by
  refine @Machine.runFrom_preserves _ _ (Store.machine wait) InOnePlace ?_ _ _ _ ran init_inOnePlace
  intro store event next sound stepped
  exact step_inOnePlace sound stepped

/-- Over every run, with every behaviour of the network, a constructed value is in one slot, in
one field of one publication, or dropped once, and in no two of these.
-/
theorem each_value_published_once {events : List (Event τ ι)}
    (ran : (Store.machine wait).run events = some store) (value : Nat)
    : (tally holds store.slots).count value + (tally carried store.handed).count value
        + store.dropped.count value
      = if value < store.next then 1 else 0 := by
  have sound := run_inOnePlace ran
  have counted := congrArg (Multiset.count value) sound.conserved
  rw [Multiset.count_add, Multiset.count_add, Multiset.coe_count, ← add_assoc] at counted
  rw [counted]
  split
  case isTrue issued =>
    exact Multiset.count_eq_one_of_mem sound.distinct (Multiset.mem_range.mpr issued)
  case isFalse unissued =>
    exact Multiset.count_eq_zero_of_notMem fun member => unissued (Multiset.mem_range.mp member)

/-- The reply fails, and its values are gone all the same. -/
theorem each_value_published_once_failing
    : ∃ store,
        (Store.machine failingWait).run
            [.constructBytes, .constructEncoding, .constructBytes, .call aliasingReply,
              .zBytesDrop 2]
          = some store
        ∧ (tally holds store.slots).count 1 + (tally carried store.handed).count 1
            + store.dropped.count 1
          = 1 := by
  have ran
      : ∃ store,
          (Store.machine failingWait).run
              [.constructBytes, .constructEncoding, .constructBytes, .call aliasingReply,
                .zBytesDrop 2]
            = some store
          ∧ store.next = 3 :=
    ⟨_, rfl, rfl⟩
  obtain ⟨store, ran, made⟩ := ran
  have counted := each_value_published_once ran 1
  rw [made] at counted
  exact ⟨store, ran, counted⟩

end ZenohC.Publications
