import ZenohC.Storage.Contents

/-! What the storage answers, and what is left when it is dropped.
The iterator goes through the chains in order, and through each chain from its head. Dropping
the storage frees every node once and drops every sample that is still stored.
-/

namespace ZenohC.Storage

open Library

variable {ω : Type}

/-- The samples of a chain that a query asks for. -/
def answers (intersects : List UInt8 → Bool) (entries : List (Entry ω)) : List (Sample ω) :=
  (entries.map fun entry => entry.2.sample).filter fun sample => intersects sample.keyexpr

section Iteration

variable {intersects : List UInt8 → Bool} {storage : Storage ω} {fuel : Nat}
  {chains front behind : List (List (Entry ω))}

theorem answers_cons (entry : Entry ω) (entries : List (Entry ω))
    : answers intersects (entry :: entries)
      = (if intersects entry.2.sample.keyexpr then [entry.2.sample] else [])
        ++ answers intersects entries := by
  cases wanted : intersects entry.2.sample.keyexpr <;> simp [answers, wanted]

/-- From the first bin that is not empty the loop answers for all that is left, if it does so
from any node; by induction on the bins.
-/
theorem answersFrom_go (intersects : List UInt8 → Bool) (laid : Laid storage (front ++ behind))
    (fromNode
      : ∀ front entries behind entry,
          Laid storage (front ++ (entry :: entries) :: behind)
          → (entry :: entries ++ behind.flatten).length < fuel
          → answersFrom intersects storage fuel ⟨front.length, some entry.1⟩
            = some (answers intersects (entry :: entries ++ behind.flatten)))
    (enough : behind.flatten.length < fuel)
    : answersFrom intersects storage fuel
          (firstNonEmptyBin.go front.length (behind.map head))
        = some (answers intersects behind.flatten) := by
  induction behind generalizing front with
  | nil =>
      obtain ⟨fuel, rfl⟩ := Nat.exists_eq_succ_of_ne_zero (Nat.ne_zero_of_lt enough)
      have length : storage.nodes.length = front.length := by
        rw [laid.nodes]
        simp
      simp [firstNonEmptyBin.go, answersFrom, isEnd, length, answers]
  | cons entries behind ih =>
      cases entries with
      | nil =>
          have moved : Laid storage ((front ++ [[]]) ++ behind) := by simpa using laid
          have later := ih moved (by simpa using enough)
          rw [List.length_append, List.length_singleton] at later
          simpa [firstNonEmptyBin.go, head, occupied] using later
      | cons entry entries => exact fromNode front entries behind entry laid enough

/-- From a node the loop answers for the rest of the chain and for the bins behind it, by
induction on what is left.
-/
theorem answersFrom_node (done : List (Entry ω)) {todo : List (Entry ω)} {entry : Entry ω}
    (laid : Laid storage (front ++ (done ++ entry :: todo) :: behind))
    (enough : (entry :: todo ++ behind.flatten).length < fuel)
    : answersFrom intersects storage fuel ⟨front.length, some entry.1⟩
      = some (answers intersects (entry :: todo ++ behind.flatten)) := by
  induction fuel generalizing front done todo behind entry with
  | zero => exact absurd enough (Nat.not_lt_zero _)
  | succ fuel ih =>
      have segment := laid.segment
      rw [occupied_append, occupied_cons] at segment
      have cell
          : storage.heap entry.1
            = some ⟨some entry.2, head todo, Linked.lastOf none (occupied done)⟩ :=
        segment.node
      have inside : isEnd storage ⟨front.length, some entry.1⟩ = false := by
        simp [isEnd, laid.nodes]
      have value : iteratorValue storage ⟨front.length, some entry.1⟩ = some entry.2.sample := by
        simp [iteratorValue, cell, loan]
      obtain ⟨it, moves, rest⟩
          : ∃ it,
              iteratorNext storage ⟨front.length, some entry.1⟩ = some it
              ∧ answersFrom intersects storage fuel it
                = some (answers intersects (todo ++ behind.flatten)) := by
        cases todo with
        | nil =>
            have moved : Laid storage ((front ++ [done ++ [entry]]) ++ behind) := by
              simpa using laid
            have later := answersFrom_go intersects moved
              (fun front entries behind entry laid enough => ih [] laid enough)
              (by simpa using Nat.lt_of_succ_lt_succ enough)
            have dropped : storage.nodes.drop (front.length + 1) = behind.map head := by
              rw [moved.nodes, List.map_append]
              exact List.drop_left' (by simp)
            rw [List.length_append, List.length_singleton] at later
            refine ⟨firstNonEmptyBin storage (front.length + 1), ?_, ?_⟩
            · simp [iteratorNext, cell, head, occupied]
            · simpa [firstNonEmptyBin, dropped] using later
        | cons next todo =>
            have moved : Laid storage (front ++ ((done ++ [entry]) ++ next :: todo) :: behind) := by
              simpa using laid
            refine ⟨⟨front.length, some next.1⟩, ?_, ?_⟩
            · simp [iteratorNext, cell, head, occupied]
            · exact ih (done ++ [entry]) moved (Nat.lt_of_succ_lt_succ enough)
      rw [answersFrom, inside, List.cons_append, answers_cons]
      simp [answerAt, value, moves, rest]

/-- The query handler answers for all chains. -/
theorem queryHandler_eq (laid : Laid storage chains) (enough : chains.flatten.length < fuel)
    (intersects : List UInt8 → Bool)
    : queryHandler fuel intersects storage = some (answers intersects chains.flatten) := by
  have start : storageBegin storage = firstNonEmptyBin.go 0 (chains.map head) := by
    simp [storageBegin, firstNonEmptyBin, laid.nodes]
  rw [queryHandler, start]
  have whole : Laid storage ([] ++ chains) := laid
  exact answersFrom_go intersects whole
    (fun front entries behind entry laid enough => answersFrom_node [] laid enough) enough

end Iteration

section Dropping

variable {storage : Storage ω} {fuel : Nat}

/-- The nodes of a chain are freed one after the other, by induction on the chain. -/
theorem dropBin_eq {before : Option Nat} {entries : List (Entry ω)}
    (segment : Linked.Segment storage.heap before (occupied entries) none)
    (distinct : (entries.map Prod.fst).Nodup) (enough : entries.length < fuel)
    : ∃ heap,
        dropBin fuel (head entries) storage
          = some { storage with heap, dropped := storage.dropped ++ entries.map Entry.stamp }
        ∧ (∀ address ∈ entries.map Prod.fst, heap address = none)
        ∧ ∀ address, address ∉ entries.map Prod.fst → heap address = storage.heap address := by
  induction entries generalizing storage before fuel with
  | nil =>
      obtain ⟨fuel, rfl⟩ := Nat.exists_eq_succ_of_ne_zero (Nat.ne_zero_of_lt enough)
      exact ⟨storage.heap, by simp [dropBin, head, occupied], by simp, by simp⟩
  | cons entry entries ih =>
      obtain ⟨fuel, rfl⟩ := Nat.exists_eq_succ_of_ne_zero (Nat.ne_zero_of_lt enough)
      obtain ⟨fresh, others⟩ := List.nodup_cons.mp distinct
      have outside : entry.1 ∉ (occupied entries).map Prod.fst := by
        rwa [addresses_occupied]
      have cell : storage.heap entry.1 = some ⟨some entry.2, head entries, before⟩ := segment.1
      let without : Storage ω :=
        { storage with
          heap := Function.update storage.heap entry.1 none
          dropped := storage.dropped ++ [entry.stamp] }
      have rest : Linked.Segment without.heap (some entry.1) (occupied entries) none :=
        segment.2.update outside none
      obtain ⟨heap, ran, freed, frame⟩ := ih rest others (Nat.lt_of_succ_lt_succ enough)
      have start : head (entry :: entries) = some entry.1 := rfl
      refine ⟨heap, ?_, ?_, ?_⟩
      · rw [start, dropBin]
        simp only [dropSample_eq cell, bind, Option.bind_some, Function.update_self, free,
          Function.update_idem]
        simpa [Entry.stamp, without] using ran
      · intro address listed
        by_cases first : address = entry.1
        · subst first
          rw [frame _ fresh]
          exact Function.update_self _ _ _
        · exact freed address ((List.mem_cons.mp listed).resolve_left first)
      · intro address unlisted
        obtain ⟨elsewhere, notLater⟩ := not_or.mp (List.mem_cons.not.mp unlisted)
        rw [frame address notLater]
        exact Function.update_of_ne elsewhere _ _

/-- The bins are dropped one after the other, by induction on the bins. -/
theorem dropBins_eq {chains : List (List (Entry ω))}
    (linked : ∀ entries ∈ chains, Linked.Segment storage.heap none (occupied entries) none)
    (distinct : (chains.flatten.map Prod.fst).Nodup)
    (enough : ∀ entries ∈ chains, entries.length < fuel)
    : ∃ heap,
        (chains.map head).foldlM (fun storage head => dropBin fuel head storage) storage
          = some
            { storage with heap, dropped := storage.dropped ++ chains.flatten.map Entry.stamp }
        ∧ (∀ address ∈ chains.flatten.map Prod.fst, heap address = none)
        ∧ ∀ address, address ∉ chains.flatten.map Prod.fst → heap address = storage.heap address := by
  induction chains generalizing storage with
  | nil => exact ⟨storage.heap, by simp, by simp, by simp⟩
  | cons entries chains ih =>
      obtain ⟨first, later⟩ := List.forall_mem_cons.mp linked
      obtain ⟨short, enough⟩ := List.forall_mem_cons.mp enough
      rw [List.flatten_cons, List.map_append] at distinct
      obtain ⟨own, others, apart⟩ := List.nodup_append'.mp distinct
      obtain ⟨middle, ran, freed, frame⟩ := dropBin_eq first own short
      let emptied : Storage ω :=
        { storage with
          heap := middle, dropped := storage.dropped ++ entries.map Entry.stamp }
      have kept
          : ∀ chain ∈ chains, Linked.Segment emptied.heap none (occupied chain) none := by
        intro chain member
        refine (later chain member).congr ?_
        intro entry inside
        have listed : entry.1 ∈ chain.map Prod.fst := by
          rw [← addresses_occupied]
          exact List.mem_map_of_mem inside
        obtain ⟨held, here, same⟩ := List.mem_map.mp listed
        have further : entry.1 ∈ chains.flatten.map Prod.fst :=
          List.mem_map.mpr ⟨held, List.mem_flatten.mpr ⟨chain, member, here⟩, same⟩
        exact frame _ fun early => apart early further
      obtain ⟨heap, ranLater, freedLater, frameLater⟩ := ih kept others enough
      refine ⟨heap, ?_, ?_, ?_⟩
      · rw [List.map_cons, List.foldlM_cons, ran]
        simpa [emptied] using ranLater
      · intro address listed
        rw [List.flatten_cons, List.map_append] at listed
        by_cases further : address ∈ chains.flatten.map Prod.fst
        · exact freedLater address further
        · rw [frameLater address further]
          exact freed address ((List.mem_append.mp listed).resolve_right further)
      · intro address unlisted
        rw [List.flatten_cons, List.map_append] at unlisted
        obtain ⟨notHere, notLater⟩ := not_or.mp (List.mem_append.not.mp unlisted)
        rw [frameLater address notLater]
        exact frame address notHere

end Dropping

-----------------------------------------------------------------------------------------
-- Whole runs
-----------------------------------------------------------------------------------------

/-- A sample replaces what is stored for its key, or deletes it. -/
def Received.onContents (contents : List UInt8 → Option ω)
    : Received ω → List UInt8 → Option ω
  | .put sample _ => Function.update contents sample.keyexpr (some sample.payload)
  | .delete keyexpr => Function.update contents keyexpr none

/-- What the samples received so far say about each key. -/
def contentsAfter (received : List (Received ω)) : List UInt8 → Option ω :=
  received.foldl Received.onContents fun _ => none

/-- The samples that are to be stored. -/
def Received.isPut : Received ω → Bool
  | .put _ _ => true
  | .delete _ => false

/-- The allocator answers with memory that is not in use, and key expressions are without null
characters.
-/
def Received.Allowed (storage : Storage ω) : Received ω → Prop
  | .put sample allocation => storage.heap allocation.address = none ∧ 0 ∉ sample.keyexpr
  | .delete _ => True

section Runs

variable {signedChar : Bool} {fuel numBins : Nat} {storage : Storage ω}
  {contents : List UInt8 → Option ω} {chains : List (List (Entry ω))}

theorem Invariant.new (signedChar : Bool) (numBins : Nat)
    : Invariant signedChar (storageNew numBins : Storage ω) (fun _ => none)
        (List.replicate numBins []) where
  laid := by
    refine ⟨by simp [storageNew, head, occupied], ?_, by simp, fun _ inUse => absurd rfl inUse⟩
    intro entries member
    rw [List.eq_of_mem_replicate member]
    trivial
  holds := by
    refine ⟨?_, by simp, by simp, by simp⟩
    intro bin entries found
    rw [List.eq_of_mem_replicate (List.mem_of_getElem? found)]
    simp
  accounted := by
    refine ⟨?_, Multiset.nodup_range _⟩
    simp [storageNew]

/-- One sample more: the storage follows the map. -/
theorem Invariant.receive (invariant : Invariant signedChar storage contents chains)
    (bins : chains ≠ []) {received : Received ω} (allowed : received.Allowed storage)
    (enough : storage.cloned < fuel)
    : ∃ next after,
        subHandler signedChar fuel storage received = some next
        ∧ Invariant signedChar next (received.onContents contents) after
        ∧ after ≠ []
        ∧ next.cloned = storage.cloned + [received].countP Received.isPut := by
  cases received with
  | put sample allocation =>
      obtain ⟨next, after, ran, kept, length, cloned⟩ :=
        invariant.put bins allowed.2 allowed.1 enough
      refine ⟨next, after, ran, kept, ?_, cloned⟩
      rwa [ne_eq, ← List.length_eq_zero_iff, length, List.length_eq_zero_iff]
  | delete keyexpr =>
      obtain ⟨next, after, ran, kept, length, cloned⟩ := invariant.delete bins enough
      refine ⟨next, after, ran, kept, ?_, cloned⟩
      rwa [ne_eq, ← List.length_eq_zero_iff, length, List.length_eq_zero_iff]

/-- Any number of samples, by induction on them. -/
theorem Invariant.run (invariant : Invariant signedChar storage contents chains)
    (bins : chains ≠ []) {received : List (Received ω)}
    (allowed
      : (machine signedChar fuel numBins).RunMeets
          Received.Allowed storage received)
    (enough : storage.cloned + received.length < fuel)
    : ∃ last after,
        (machine signedChar fuel numBins).runFrom storage received = some last
        ∧ Invariant signedChar last (received.foldl Received.onContents contents) after
        ∧ after ≠ []
        ∧ last.cloned = storage.cloned + received.countP Received.isPut := by
  induction received generalizing storage contents chains with
  | nil => exact ⟨storage, chains, rfl, invariant, bins, rfl⟩
  | cons first received ih =>
      rw [List.length_cons] at enough
      obtain ⟨next, after, ran, kept, remaining, cloned⟩ :=
        invariant.receive bins allowed.1 (show storage.cloned < fuel by omega)
      have counted : [first].countP Received.isPut ≤ 1 := List.countP_le_length
      obtain ⟨last, final, ranLater, keptLater, some, clonedLater⟩ :=
        ih kept remaining (allowed.2 next ran) (by omega)
      refine ⟨last, final, Machine.runFrom_cons_iff.mpr ⟨next, ran, ranLater⟩, keptLater, some, ?_⟩
      rw [clonedLater, cloned, add_assoc, ← List.countP_append, List.singleton_append]

/-- A key is found in its own bin, or nowhere. -/
theorem Invariant.storageFind (invariant : Invariant signedChar storage contents chains)
    (bins : chains ≠ []) (enough : storage.cloned < fuel) (key : List UInt8)
    : Storage.storageFind signedChar fuel storage key
      = some ((contents key).map fun payload => ⟨key, payload⟩) := by
  obtain ⟨laid, holds, accounted⟩ := invariant
  obtain ⟨front, entries, behind, rfl, own⟩ := laid.own bins signedChar key
  have length : storage.nodes.length = (front ++ entries :: behind).length := by
    rw [laid.nodes, List.length_map]
  have inside : ∀ entry ∈ entries, entry ∈ (front ++ entries :: behind).flatten := by
    intro entry member
    exact List.mem_flatten.mpr ⟨entries, by simp, member⟩
  have short : entries.length < fuel := by
    have most := accounted.length_le
    simp only [List.flatten_append, List.flatten_cons, List.length_append] at most
    omega
  have located := find_eq laid.segment short key
  rw [find?_compareString (fun entry member => holds.plain entry (inside entry member)) key]
    at located
  cases found : entries.find? (fun entry => entry.key = key) with
  | some entry =>
      have same : entry.key = key := by simpa using List.find?_some found
      have member := List.mem_of_find?_eq_some found
      have node : (entry.1, some entry.2) ∈ occupied entries := List.mem_map_of_mem member
      obtain ⟨next, prev, cell⟩ := laid.segment.lookup node
      have shape : entry.2.sample = ⟨key, entry.2.sample.payload⟩ := by
        rw [← same]
        rfl
      have stored := (holds.contents key entry.2.sample.payload).mpr
        ⟨entry, inside entry member, shape⟩
      rw [found] at located
      simp [Storage.storageFind, own, laid.pointer, located, cell, loan, stored, ← shape]
  | none =>
      have unlisted : key ∉ entries.map Entry.key := by
        intro listed
        obtain ⟨entry, member, same⟩ := List.mem_map.mp listed
        simpa [same] using List.find?_eq_none.mp found entry member
      have absent := holds.absent (by rw [← length, own]) unlisted
      have nothing : contents key = none := by
        cases stored : contents key with
        | none => rfl
        | some payload =>
            obtain ⟨entry, member, same⟩ := (holds.contents key payload).mp stored
            have listed : entry.key ∈ (front ++ entries :: behind).flatten.map Entry.key :=
              List.mem_map_of_mem member
            rw [key_of_sample same] at listed
            exact absurd listed absent
      rw [found] at located
      simp [Storage.storageFind, own, laid.pointer, located, nothing]

theorem answers_nodup {entries : List (Entry ω)} (keys : (entries.map Entry.key).Nodup)
    (intersects : List UInt8 → Bool)
    : ((answers intersects entries).map Sample.keyexpr).Nodup := by
  have sublist
      : ((answers intersects entries).map Sample.keyexpr).Sublist (entries.map Entry.key) := by
    have shape : entries.map Entry.key = (entries.map fun entry => entry.2.sample).map Sample.keyexpr := by
      rw [List.map_map]
      rfl
    rw [shape]
    exact List.filter_sublist.map _
  exact keys.sublist sublist

theorem Holds.mem_answers (holds : Holds signedChar contents chains)
    {intersects : List UInt8 → Bool} {key : List UInt8} {payload : ω}
    : ⟨key, payload⟩ ∈ answers intersects chains.flatten
      ↔ contents key = some payload ∧ intersects key = true := by
  rw [answers, List.mem_filter, List.mem_map, holds.contents]

/-- Whatever samples come in, the storage answers as the map does that the samples make: a key is
found exactly if it is stored, with the payload that came last, and a query is answered once
for each stored key that it intersects. No step reads or frees what it must not.
-/
theorem storage_follows_map (signedChar : Bool) {fuel numBins : Nat} (bins : 0 < numBins)
    {received : List (Received ω)}
    (allowed
      : (machine signedChar fuel numBins).RunMeets Received.Allowed (storageNew numBins) received)
    (enough : received.length < fuel)
    : ∃ storage,
        (machine signedChar fuel numBins).run received = some storage
        ∧ (∀ key,
            storageFind signedChar fuel storage key
              = some ((contentsAfter received key).map fun payload => ⟨key, payload⟩))
        ∧ ∀ intersects, ∃ replies,
            queryHandler fuel intersects storage = some replies
            ∧ (replies.map Sample.keyexpr).Nodup
            ∧ ∀ key payload,
                ⟨key, payload⟩ ∈ replies
                ↔ contentsAfter received key = some payload ∧ intersects key = true := by
  have nonempty : List.replicate numBins ([] : List (Entry ω)) ≠ [] := by
    simpa using Nat.ne_of_gt bins
  obtain ⟨storage, chains, ran, invariant, binned, cloned⟩ :=
    (Invariant.new signedChar numBins).run nonempty allowed (by simpa [storageNew] using enough)
  have few : storage.cloned < fuel := by
    have most : received.countP Received.isPut ≤ received.length := List.countP_le_length
    simp only [storageNew] at cloned
    omega
  refine ⟨storage, ran, invariant.storageFind binned few, ?_⟩
  intro intersects
  have short : chains.flatten.length < fuel :=
    Nat.lt_of_le_of_lt invariant.accounted.length_le few
  exact ⟨_, queryHandler_eq invariant.laid short intersects,
    answers_nodup invariant.holds.keys intersects, fun key payload => invariant.holds.mem_answers⟩

/-- A table of one bin that has received two samples of one key and one of another. -/
def collidingSamples : List (Received Nat) :=
  [ .put ⟨[97], 1⟩ ⟨10, ⟨none, none, none⟩⟩, .put ⟨[98], 2⟩ ⟨20, ⟨none, some 5, none⟩⟩,
    .put ⟨[97], 3⟩ ⟨30, ⟨none, none, none⟩⟩, .delete [98] ]

theorem collidingSamples_allowed
    : (machine true 5 1).RunMeets Received.Allowed (storageNew 1) collidingSamples := by
  refine ⟨⟨rfl, by decide⟩, ?_⟩
  rintro _ ⟨⟩
  refine ⟨⟨rfl, by decide⟩, ?_⟩
  rintro _ ⟨⟩
  refine ⟨⟨rfl, by decide⟩, ?_⟩
  rintro _ ⟨⟩
  exact ⟨trivial, fun _ _ => trivial⟩

theorem storage_follows_map_colliding
    : ∃ storage,
        (machine true 5 1).run collidingSamples = some storage
        ∧ ∀ key,
            storageFind true 5 storage key
              = some ((contentsAfter collidingSamples key).map fun payload => ⟨key, payload⟩) := by
  obtain ⟨storage, ran, found, -⟩ :=
    storage_follows_map true (by decide) collidingSamples_allowed (by decide)
  exact ⟨storage, ran, found⟩

/-- Every sample that was ever cloned into the storage is dropped exactly once, before or when
the storage is dropped, and no node is left in memory.
-/
theorem storage_drops_each_sample_once (signedChar : Bool) {fuel numBins : Nat}
    (bins : 0 < numBins) {received : List (Received ω)}
    (allowed
      : (machine signedChar fuel numBins).RunMeets Received.Allowed (storageNew numBins) received)
    (enough : received.length < fuel)
    : ∃ storage last,
        (machine signedChar fuel numBins).run received = some storage
        ∧ storageDrop fuel storage = some last
        ∧ (∀ address, last.heap address = none)
        ∧ ∀ stamp, last.dropped.count stamp = if stamp < received.countP Received.isPut then 1 else 0 := by
  have nonempty : List.replicate numBins ([] : List (Entry ω)) ≠ [] := by
    simpa using Nat.ne_of_gt bins
  obtain ⟨storage, chains, ran, ⟨laid, holds, accounted⟩, binned, cloned⟩ :=
    (Invariant.new signedChar numBins).run nonempty allowed (by simpa [storageNew] using enough)
  simp only [storageNew, Nat.zero_add] at cloned
  have short : ∀ entries ∈ chains, entries.length < fuel := by
    intro entries member
    have inside := (List.sublist_flatten_of_mem member).length_le
    have most := accounted.length_le
    have counted : received.countP Received.isPut ≤ received.length := List.countP_le_length
    omega
  obtain ⟨heap, dropped, freed, frame⟩ := dropBins_eq laid.linked laid.apart short
  refine
    ⟨storage,
      { storage with
        heap
        nodes := []
        dropped := storage.dropped ++ chains.flatten.map Entry.stamp },
      ran, ?_, ?_, ?_⟩
  · simp [storageDrop, laid.nodes, dropped]
  · intro address
    by_cases listed : address ∈ chains.flatten.map Prod.fst
    · exact freed address listed
    · refine (frame address listed).trans ?_
      by_contra inUse
      exact listed (laid.used address inUse)
  · intro stamp
    have total := congrArg (Multiset.count stamp) accounted.conserved
    simp only [Multiset.count_add, Multiset.coe_count, cloned] at total
    rw [List.count_append, Nat.add_comm, total]
    split
    · next below =>
        exact Multiset.count_eq_one_of_mem (Multiset.nodup_range _) (Multiset.mem_range.mpr below)
    · next beyond =>
        exact Multiset.count_eq_zero_of_notMem (mt Multiset.mem_range.mp beyond)

theorem storage_drops_each_sample_once_colliding
    : ∃ storage last,
        (machine true 5 1).run collidingSamples = some storage
        ∧ storageDrop 5 storage = some last
        ∧ last.dropped.count 0 = 1
        ∧ last.dropped.count 1 = 1
        ∧ last.dropped.count 2 = 1 := by
  obtain ⟨storage, last, ran, dropped, -, once⟩ :=
    storage_drops_each_sample_once true (by decide) collidingSamples_allowed (by decide)
  exact ⟨storage, last, ran, dropped, once 0, once 1, once 2⟩

end Runs

end ZenohC.Storage
