import ZenohC.Library.CriticalSections
import ZenohC.Storage.Answers

/-! The callbacks of the storage example on any number of threads.
Samples and queries arrive on threads of their own, and each callback locks the storage. A
query that takes many steps to answer is not disturbed by the samples that arrive meanwhile.
-/

namespace ZenohC.Storage

open Library

variable {ω : Type}

instance (storage : Storage ω) (received : Received ω) : Decidable (received.Allowed storage) :=
  match received with
  | .put sample allocation =>
      decidable_of_iff
        ((storage.heap allocation.address).isNone = true ∧ 0 ∉ sample.keyexpr)
        (and_congr_left fun _ => Option.isNone_iff_eq_none)
  | .delete _ => isTrue trivial

/-- A call of `sub_handler` or of `query_handler`. -/
inductive Callback (ω : Type) where
  | sample (received : Received ω)
  | query (intersects : List UInt8 → Bool)

/-- How far a callback is that has the lock. -/
inductive Place (ω : Type) where
  | received (received : Received ω)
  | starting (intersects : List UInt8 → Bool)
  | answering (intersects : List UInt8 → Bool) (it : Iterator) (replies : List (Sample ω))

variable (signedChar : Bool) (fuel : Nat)

/-- The callbacks between `z_mutex_lock` and `z_mutex_unlock`; the loop of `query_handler` takes
one step a turn. An allocator that hands out memory in use has no step.
-/
def callbacks : Sections (Storage ω) (Callback ω) (Place ω) (List (Sample ω)) where
  enter
    | .sample received => .received received
    | .query intersects => .starting intersects
  step storage
    | .received sample =>
        if sample.Allowed storage then
          (subHandler signedChar fuel storage sample).map fun storage => (storage, .inr [])
        else none
    | .starting intersects =>
        some (storage, .inl (.answering intersects (storageBegin storage) []))
    | .answering intersects it replies =>
        if isEnd storage it then some (storage, .inr replies)
        else
          (answerAt intersects storage it).map fun (answer, it) =>
            (storage, .inl (.answering intersects it (replies ++ answer)))

/-- The samples among the completed callbacks. -/
def samplesOf (completed : List (Sections.Completed (Callback ω) (List (Sample ω))))
    : List (Received ω) :=
  completed.filterMap fun completed =>
    match completed.job with
    | .sample received => some received
    | .query _ => none

/-- Where a callback needs memory, the allocator has an allowed answer. -/
def Place.Allowed (storage : Storage ω) : Place ω → Prop
  | .received sample => sample.Allowed storage
  | .starting _ | .answering _ _ _ => True

variable {signedChar : Bool} {fuel : Nat} {storage last : Storage ω} {place : Place ω}

/-- What a query has answered so far, and what the rest of the loop will answer, is the whole
answer.
-/
def Answering (intersects : List UInt8 → Bool) (storage : Storage ω) (it : Iterator)
    (replies : List (Sample ω))
    : Prop :=
  ∀ turns whole, queryHandler turns intersects storage = some whole
    → ∃ left rest,
        answersFrom intersects storage left it = some rest ∧ replies ++ rest = whole

theorem reaches_received {received : Received ω} {first : Place ω}
    (reached : (callbacks signedChar fuel).Reaches storage first last place)
    (start : first = .received received)
    : last = storage ∧ place = .received received := by
  induction reached with
  | refl => exact ⟨rfl, start⟩
  | step _ stepped ih =>
      obtain ⟨rfl, rfl⟩ := ih start
      simp only [callbacks] at stepped
      split at stepped
      · obtain ⟨_, -, same⟩ := Option.map_eq_some_iff.mp stepped
        cases same
      · cases stepped

/-- One turn of the loop leaves the rest of the answer to the other turns. -/
theorem Answering.step {intersects : List UInt8 → Bool} {it next : Iterator}
    {replies answer : List (Sample ω)} (answering : Answering intersects storage it replies)
    (inside : isEnd storage it = false)
    (answered : answerAt intersects storage it = some (answer, next))
    : Answering intersects storage next (replies ++ answer) := by
  intro turns whole ran
  obtain ⟨left, rest, later, same⟩ := answering turns whole ran
  cases left with
  | zero => cases later
  | succ left =>
      simp only [answersFrom, inside, Bool.false_eq_true, if_false, answered, bind,
        Option.bind_some, Option.bind_eq_some_iff] at later
      obtain ⟨others, further, shape⟩ := later
      refine ⟨left, others, further, ?_⟩
      rw [List.append_assoc, Option.some.inj shape, same]

/-- A query changes nothing, and is somewhere in its loop. -/
theorem reaches_starting {intersects : List UInt8 → Bool} {first : Place ω}
    (reached : (callbacks signedChar fuel).Reaches storage first last place)
    (start : first = .starting intersects)
    : last = storage
      ∧ (place = .starting intersects
        ∨ ∃ it replies,
            place = .answering intersects it replies
            ∧ Answering intersects storage it replies) := by
  induction reached with
  | refl => exact ⟨rfl, .inl start⟩
  | step _ stepped ih =>
      obtain ⟨rfl, rfl | ⟨it, replies, rfl, answering⟩⟩ := ih start
      · obtain ⟨rfl, same⟩ := Prod.mk.inj (Option.some.inj stepped)
        obtain rfl := Sum.inl.inj same
        refine ⟨rfl, .inr ⟨_, [], rfl, ?_⟩⟩
        exact fun turns whole ran => ⟨turns, whole, ran, rfl⟩
      · simp only [callbacks] at stepped
        split at stepped
        · cases Option.some.inj stepped
        · next inside =>
            obtain ⟨⟨answer, next⟩, answered, same⟩ := Option.map_eq_some_iff.mp stepped
            obtain ⟨rfl, shape⟩ := Prod.mk.inj same
            refine ⟨rfl, .inr ⟨next, replies ++ answer, (Sum.inl.inj shape).symm, ?_⟩⟩
            exact answering.step (Bool.eq_false_iff.mpr inside) answered

theorem completes_sample {received : Received ω} {result : List (Sample ω)}
    (completes : (callbacks signedChar fuel).Completes storage (.sample received) last result)
    : received.Allowed storage ∧ subHandler signedChar fuel storage received = some last := by
  obtain ⟨middle, place, reached, stepped⟩ := completes
  obtain ⟨rfl, rfl⟩ := reaches_received reached rfl
  simp only [callbacks] at stepped
  split at stepped
  · next allowed =>
      obtain ⟨_, ran, same⟩ := Option.map_eq_some_iff.mp stepped
      obtain ⟨rfl, -⟩ := Prod.mk.inj same
      exact ⟨allowed, ran⟩
  · cases stepped

/-- A completed query has given the whole answer, and changed nothing. -/
theorem completes_query {intersects : List UInt8 → Bool} {result : List (Sample ω)}
    (completes : (callbacks signedChar fuel).Completes storage (.query intersects) last result)
    : last = storage
      ∧ ∀ turns whole, queryHandler turns intersects storage = some whole → result = whole := by
  obtain ⟨middle, place, reached, stepped⟩ := completes
  obtain ⟨rfl, rfl | ⟨it, replies, rfl, answering⟩⟩ := reaches_starting reached rfl
  · cases (Prod.mk.inj (Option.some.inj stepped)).2
  · simp only [callbacks] at stepped
    split at stepped
    · next atEnd =>
        obtain ⟨rfl, same⟩ := Prod.mk.inj (Option.some.inj stepped)
        obtain rfl := Sum.inr.inj same
        refine ⟨rfl, ?_⟩
        intro turns whole ran
        obtain ⟨left, rest, later, shape⟩ := answering turns whole ran
        cases left with
        | zero => cases later
        | succ left =>
            simp only [answersFrom, atEnd, if_true, Option.some.injEq] at later
            rw [← shape, ← later, List.append_nil]
    · obtain ⟨_, -, same⟩ := Option.map_eq_some_iff.mp stepped
      cases (Prod.mk.inj same).2

theorem samplesOf_append (left right : List (Sections.Completed (Callback ω) (List (Sample ω))))
    : samplesOf (left ++ right) = samplesOf left ++ samplesOf right :=
  List.filterMap_append

/-- Callbacks run one at a time make the map of the samples among them. -/
theorem sequential_invariant {numBins : Nat} (bins : 0 < numBins)
    {completed : List (Sections.Completed (Callback ω) (List (Sample ω)))}
    (history
      : (callbacks signedChar fuel).Sequential (storageNew numBins) completed last)
    (enough : completed.length < fuel)
    : ∃ chains,
        Invariant signedChar last (contentsAfter (samplesOf completed)) chains
        ∧ chains ≠ []
        ∧ last.cloned ≤ completed.length := by
  induction history with
  | nil =>
      refine ⟨_, Invariant.new signedChar numBins, ?_, Nat.le_refl 0⟩
      simpa using Nat.ne_of_gt bins
  | @concat middle last before new earlier completes ih =>
      rw [List.length_append, List.length_singleton] at enough
      obtain ⟨chains, invariant, nonempty, few⟩ := ih (Nat.lt_of_succ_lt enough)
      rw [samplesOf_append, contentsAfter, List.foldl_append]
      obtain ⟨thread, job, result⟩ := new
      cases job with
      | sample received =>
          obtain ⟨allowed, ran⟩ := completes_sample completes
          obtain ⟨next, after, again, kept, binned, cloned⟩ :=
            invariant.receive nonempty allowed (show middle.cloned < fuel by omega)
          obtain rfl := Option.some.inj (ran.symm.trans again)
          have counted : [received].countP Received.isPut ≤ 1 := List.countP_le_length
          refine ⟨after, kept, binned, ?_⟩
          rw [List.length_append, List.length_singleton]
          omega
      | query intersects =>
          obtain ⟨rfl, -⟩ := completes_query completes
          refine ⟨chains, invariant, nonempty, ?_⟩
          rw [List.length_append]
          exact Nat.le_add_right_of_le few

/-- A callback that has the lock can go on. -/
theorem exists_step {contents : List UInt8 → Option ω} {chains : List (List (Entry ω))}
    {middle : Storage ω} {job : Callback ω}
    (invariant : Invariant signedChar middle contents chains) (nonempty : chains ≠ [])
    (few : middle.cloned < fuel)
    (reached
      : (callbacks signedChar fuel).Reaches middle ((callbacks signedChar fuel).enter job) last
          place)
    (allowed : place.Allowed last)
    : ∃ outcome, (callbacks signedChar fuel).step last place = some outcome := by
  cases job with
  | sample received =>
      obtain ⟨rfl, rfl⟩ := reaches_received reached rfl
      have may : received.Allowed last := allowed
      obtain ⟨next, -, ran, -⟩ := invariant.receive nonempty may few
      exact ⟨(next, .inr []), by simp [callbacks, may, ran]⟩
  | query intersects =>
      obtain ⟨rfl, rfl | ⟨it, replies, rfl, answering⟩⟩ := reaches_starting reached rfl
      · exact ⟨_, rfl⟩
      · have whole := queryHandler_eq invariant.laid (Nat.lt_succ_self _) intersects
        obtain ⟨left, rest, later, -⟩ := answering _ _ whole
        cases left with
        | zero => cases later
        | succ left =>
            cases atEnd : isEnd last it with
            | true => exact ⟨(last, .inr replies), by simp [callbacks, atEnd]⟩
            | false =>
                simp only [answersFrom, atEnd, Bool.false_eq_true, if_false, bind,
                  Option.bind_eq_some_iff] at later
                obtain ⟨⟨answer, next⟩, answered, -⟩ := later
                exact ⟨_, by simp [callbacks, atEnd, answered]; rfl⟩

/-- Whatever the threads and the schedule are, each query is answered from the map of the samples
that were stored before it, once for each stored key that it intersects; each thread's callbacks
are completed in their order; and a callback that has the lock can go on.
-/
theorem callbacks_take_turns (signedChar : Bool) {fuel numBins : Nat} (bins : 0 < numBins)
    (jobs : List (List (Callback ω))) {schedule : List Nat}
    {last : Sections.System (Storage ω) (Callback ω) (Place ω) (List (Sample ω))}
    (ran
      : ((callbacks signedChar fuel).machine (storageNew numBins) jobs).run schedule = some last)
    (enough : schedule.length < fuel)
    : (∀ before completed after intersects,
          last.completed = before ++ completed :: after → completed.job = .query intersects
          → (completed.result.map Sample.keyexpr).Nodup
            ∧ ∀ key payload,
                ⟨key, payload⟩ ∈ completed.result
                ↔ contentsAfter (samplesOf before) key = some payload ∧ intersects key = true)
      ∧ Sections.InOrder jobs last
      ∧ (last.locked = false
          → ∀ key,
              storageFind signedChar fuel last.shared key
                = some
                  ((contentsAfter (samplesOf last.completed) key).map fun payload =>
                    ⟨key, payload⟩))
      ∧ ∀ thread job place todo,
          last.threads[thread]? = some (.inside job place todo) → place.Allowed last.shared
          → ∃ next, (callbacks signedChar fuel).stepThread last thread = some next := by
  obtain ⟨exclusive, inOrder⟩ := Sections.run_exclusive ran
  have length : last.completed.length < fuel := by
    have most := Sections.completed_length_le ran
    simp only [Sections.machine, List.length_nil] at most
    omega
  refine ⟨?_, inOrder, ?_, ?_⟩
  · intro before completed after intersects shape query
    have history
        : ∃ end_,
            (callbacks signedChar fuel).Sequential (storageNew numBins) last.completed end_ := by
      cases exclusive with
      | free _ _ history => exact ⟨_, history⟩
      | held _ _ _ history => exact ⟨_, history⟩
    obtain ⟨end_, history⟩ := history
    rw [shape] at history length
    obtain ⟨middle, reached, earlier, completes⟩ := history.split
    have fewer : before.length < fuel := by
      simp only [List.length_append, List.length_cons] at length
      omega
    obtain ⟨chains, invariant, -, -⟩ := sequential_invariant bins earlier fewer
    rw [query] at completes
    obtain ⟨-, whole⟩ := completes_query completes
    rw [whole _ _ (queryHandler_eq invariant.laid (Nat.lt_succ_self _) intersects)]
    exact ⟨answers_nodup invariant.holds.keys intersects, fun key payload =>
      invariant.holds.mem_answers⟩
  · intro unlocked key
    cases exclusive with
    | held locked => exact absurd (unlocked.symm.trans locked) Bool.false_ne_true
    | free _ _ history =>
        obtain ⟨chains, invariant, nonempty, few⟩ := sequential_invariant bins history length
        exact invariant.storageFind nonempty (by omega) key
  · intro thread job place todo found allowed
    cases exclusive with
    | free _ nobody => exact absurd trivial (nobody _ (List.mem_of_getElem? found))
    | held _ inside alone history reached =>
        obtain rfl := alone _ _ found trivial
        rw [found] at inside
        obtain ⟨rfl, rfl, rfl⟩ := Sections.Thread.inside.inj (Option.some.inj inside)
        obtain ⟨chains, invariant, nonempty, few⟩ := sequential_invariant bins history length
        obtain ⟨outcome, stepped⟩ := exists_step invariant nonempty (by omega) reached allowed
        exact ⟨_, by simp [Sections.stepThread, found, stepped]; rfl⟩

/-- One thread stores two samples, the other asks for all that is stored. -/
def storeAndAsk : List (List (Callback Nat)) :=
  [ [ .sample (.put ⟨[97], 1⟩ ⟨10, ⟨none, none, none⟩⟩),
      .sample (.put ⟨[98], 2⟩ ⟨20, ⟨none, none, none⟩⟩) ],
    [.query fun _ => true] ]

theorem callbacks_take_turns_store_and_ask
    : ∃ last,
        ((callbacks true 20).machine (storageNew 1) storeAndAsk).run [0, 0, 1, 1, 1, 1, 0, 0]
          = some last
        ∧ last.completed.map Sections.Completed.result = [[], [⟨[97], 1⟩], []]
        ∧ Sections.InOrder storeAndAsk last := by
  have ran
      : ((callbacks true 20).machine (storageNew 1) storeAndAsk).run [0, 0, 1, 1, 1, 1, 0, 0]
        = some _ :=
    rfl
  exact ⟨_, ran, rfl, (callbacks_take_turns true (by decide) storeAndAsk ran (by decide)).2.1⟩

end ZenohC.Storage
