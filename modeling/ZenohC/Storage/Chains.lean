import Mathlib.Data.List.Nodup
import ZenohC.Storage.Table

/-! The chains of the hash table.
The table is described by the chains of its bins, which lie in memory one beside the other.
Every callback changes one chain, and does not touch the nodes of the others.
-/

namespace ZenohC.Storage

open Library

variable {ω : Type}

/-- A node of a chain: its address and the sample it holds. -/
abbrev Entry (ω : Type) := Nat × Clone ω

def Entry.key (entry : Entry ω) : List UInt8 :=
  entry.2.sample.keyexpr

/-- The nodes as they stand in memory, each with its sample. -/
def occupied (entries : List (Entry ω)) : List (Nat × Option (Clone ω)) :=
  entries.map fun entry => (entry.1, some entry.2)

/-- The pointer to a chain. -/
def head (entries : List (Entry ω)) : Option Nat :=
  Linked.firstOf (occupied entries) none

/-- The chains lie in memory one beside the other, and there is nothing else. -/
structure Laid (storage : Storage ω) (chains : List (List (Entry ω))) : Prop where
  nodes : storage.nodes = chains.map head
  linked : ∀ entries ∈ chains, Linked.Segment storage.heap none (occupied entries) none
  apart : (chains.flatten.map Prod.fst).Nodup
  used : ∀ address, storage.heap address ≠ none → address ∈ chains.flatten.map Prod.fst

-----------------------------------------------------------------------------------------
-- Comparing and finding keys
-----------------------------------------------------------------------------------------

/-- Without null characters the comparison goes to the end, by induction on both strings. -/
theorem strncmp_eq_zero_iff {left right : List UInt8} (length : left.length = right.length)
    (plain : 0 ∉ left)
    : strncmp left.length left right = 0 ↔ left = right := by
  induction left generalizing right with
  | nil =>
      rw [List.length_eq_zero_iff.mp length.symm]
      simp [strncmp]
  | cons c left ih =>
      cases right with
      | nil => simp at length
      | cons d right =>
          obtain ⟨notNull, rest⟩ := not_or.mp (List.mem_cons.not.mp plain)
          rw [List.length_cons, strncmp]
          by_cases same : c = d
          · subst same
            simp only [ne_eq, not_true_eq_false, if_false, Ne.symm notNull,
              ih (Nat.succ.inj length) rest, List.cons.injEq, true_and]
          · have apart : c.toNat ≠ d.toNat := fun equal => same (UInt8.toNat_inj.mp equal)
            simp only [ne_eq, same, not_false_eq_true, if_true, List.cons.injEq, false_and,
              iff_false]
            omega

theorem compareString_iff {left right : List UInt8} (plain : 0 ∉ left)
    : compareString left right = true ↔ left = right := by
  simp only [compareString, Bool.and_eq_true, beq_iff_eq]
  constructor
  · rintro ⟨length, compared⟩
    exact (strncmp_eq_zero_iff length plain).mp compared
  · rintro rfl
    exact ⟨rfl, (strncmp_eq_zero_iff rfl plain).mpr rfl⟩

/-- The search goes through the chain, by induction on its nodes. -/
theorem find_eq {heap : Heap ω} {before : Option Nat} {entries : List (Entry ω)} {fuel : Nat}
    (segment : Linked.Segment heap before (occupied entries) none)
    (enough : entries.length < fuel) (key : List UInt8)
    : find heap key fuel (head entries)
      = some ((entries.find? fun entry => compareString entry.key key).map Prod.fst) := by
  induction entries generalizing before fuel with
  | nil =>
      obtain ⟨fuel, rfl⟩ := Nat.exists_eq_succ_of_ne_zero (Nat.ne_of_gt enough)
      rfl
  | cons entry entries ih =>
      obtain ⟨fuel, rfl⟩ := Nat.exists_eq_succ_of_ne_zero (Nat.ne_zero_of_lt enough)
      obtain ⟨found, rest⟩ := segment
      have later := ih rest (Nat.lt_of_succ_lt_succ enough)
      have start : head (entry :: entries) = some entry.1 := rfl
      rw [start, find]
      simp only [found, loan, Option.map_some, bind, Option.bind_some, List.find?_cons,
        Entry.key]
      cases compareString entry.2.sample.keyexpr key with
      | true => rfl
      | false =>
          simp only [Bool.false_eq_true, if_false]
          exact later

/-- The walk ends at the last node, by induction on the nodes before it. -/
theorem walkToLast_eq {heap : Heap ω} {before : Option Nat} {entries : List (Entry ω)}
    {entry : Entry ω} {first fuel : Nat}
    (segment : Linked.Segment heap before (occupied (entries ++ [entry])) none)
    (start : head (entries ++ [entry]) = some first) (enough : entries.length < fuel)
    : walkToLast heap fuel first = some entry.1 := by
  obtain ⟨fuel, rfl⟩ := Nat.exists_eq_succ_of_ne_zero (Nat.ne_zero_of_lt enough)
  induction entries generalizing before first fuel with
  | nil =>
      obtain ⟨found, -⟩ := segment
      obtain rfl : entry.1 = first := Option.some.inj start
      rw [walkToLast]
      simp only [found, bind, Option.bind_some]
      rfl
  | cons other entries ih =>
      obtain ⟨fuel, rfl⟩ :=
        Nat.exists_eq_succ_of_ne_zero (Nat.ne_zero_of_lt (Nat.lt_of_succ_lt_succ enough))
      obtain ⟨found, rest⟩ := segment
      obtain rfl : other.1 = first := Option.some.inj start
      obtain ⟨next, following⟩ : ∃ next, head (entries ++ [entry]) = some next := by
        cases entries with
        | nil => exact ⟨entry.1, rfl⟩
        | cons second entries => exact ⟨second.1, rfl⟩
      have later := ih rest following fuel (Nat.lt_of_succ_lt_succ enough)
      have cell : heap other.1 = some ⟨some other.2, head (entries ++ [entry]), before⟩ := found
      rw [following] at cell
      rw [walkToLast]
      simp only [cell, bind, Option.bind_some, later]

-----------------------------------------------------------------------------------------
-- One chain among the others
-----------------------------------------------------------------------------------------

theorem occupied_append (left right : List (Entry ω))
    : occupied (left ++ right) = occupied left ++ occupied right :=
  List.map_append

theorem occupied_cons (entry : Entry ω) (entries : List (Entry ω))
    : occupied (entry :: entries) = (entry.1, some entry.2) :: occupied entries :=
  rfl

theorem addresses_occupied (entries : List (Entry ω))
    : (occupied entries).map Prod.fst = entries.map Prod.fst := by
  simp [occupied, Function.comp_def]

section Exchange

variable {storage next : Storage ω} {front behind : List (List (Entry ω))}
  {entries others : List (Entry ω)}

theorem getElem?_middle {α : Type} (front behind : List α) (middle : α)
    : (front ++ middle :: behind)[front.length]? = some middle := by
  simp

/-- The addresses of the chains that are left alone. -/
def spared (front behind : List (List (Entry ω))) : List Nat :=
  (front.flatten ++ behind.flatten).map Prod.fst

theorem Laid.segment (laid : Laid storage (front ++ entries :: behind))
    : Linked.Segment storage.heap none (occupied entries) none :=
  laid.linked entries (by simp)

theorem addresses_perm (front behind : List (List (Entry ω))) (entries : List (Entry ω))
    : ((front ++ entries :: behind).flatten.map Prod.fst).Perm
        (entries.map Prod.fst ++ spared front behind) := by
  simp only [spared, List.flatten_append, List.flatten_cons, List.map_append]
  refine List.Perm.trans (List.perm_append_comm_assoc _ _ _) ?_
  exact .rfl

theorem Laid.parts (laid : Laid storage (front ++ entries :: behind))
    : (entries.map Prod.fst).Nodup ∧ (spared front behind).Nodup
      ∧ (entries.map Prod.fst).Disjoint (spared front behind) := by
  have apart := ((addresses_perm front behind entries).nodup_iff).mp laid.apart
  obtain ⟨own, rest, disjoint⟩ := List.nodup_append'.mp apart
  exact ⟨own, rest, disjoint⟩

/-- One chain is exchanged for another, at addresses that no other chain uses. -/
theorem Laid.exchange (laid : Laid storage (front ++ entries :: behind))
    (nodes : next.nodes = storage.nodes.set front.length (head others))
    (segment : Linked.Segment next.heap none (occupied others) none)
    (frame : ∀ address ∈ spared front behind, next.heap address = storage.heap address)
    (distinct : (others.map Prod.fst).Nodup)
    (apart : (others.map Prod.fst).Disjoint (spared front behind))
    (used
      : ∀ address, next.heap address ≠ none
          → address ∈ others.map Prod.fst ∨ address ∈ spared front behind)
    : Laid next (front ++ others :: behind) := by
  have own := addresses_perm front behind others
  refine ⟨?_, ?_, ?_, ?_⟩
  · rw [nodes, laid.nodes]
    simp
  · intro chain member
    have kept (listed : chain ∈ front ∨ chain ∈ behind)
        : Linked.Segment next.heap none (occupied chain) none := by
      have old : chain ∈ front ++ entries :: behind := by
        rcases listed with early | late
        · exact List.mem_append_left _ early
        · exact List.mem_append_right _ (List.mem_cons_of_mem _ late)
      refine (laid.linked chain old).congr ?_
      intro entry inside
      refine frame entry.1 ?_
      have address : entry.1 ∈ chain.map Prod.fst := by
        rw [← addresses_occupied]
        exact List.mem_map_of_mem inside
      obtain ⟨held, member, same⟩ := List.mem_map.mp address
      refine List.mem_map.mpr ⟨held, ?_, same⟩
      rcases listed with early | late
      · exact List.mem_append_left _ (List.mem_flatten.mpr ⟨chain, early, member⟩)
      · exact List.mem_append_right _ (List.mem_flatten.mpr ⟨chain, late, member⟩)
    rcases List.mem_append.mp member with early | here
    · exact kept (.inl early)
    · rcases List.mem_cons.mp here with rfl | late
      · exact segment
      · exact kept (.inr late)
  · exact own.nodup_iff.mpr (List.nodup_append'.mpr ⟨distinct, laid.parts.2.1, apart⟩)
  · intro address inUse
    exact own.mem_iff.mpr (List.mem_append.mpr (used address inUse))

/-- The nodes of all chains are in use. -/
theorem Laid.inUse {chains : List (List (Entry ω))} (laid : Laid storage chains) {address : Nat}
    (listed : address ∈ chains.flatten.map Prod.fst)
    : storage.heap address ≠ none := by
  obtain ⟨entry, member, rfl⟩ := List.mem_map.mp listed
  obtain ⟨chain, inside, here⟩ := List.mem_flatten.mp member
  have node : (entry.1, some entry.2) ∈ occupied chain := List.mem_map_of_mem here
  obtain ⟨next, prev, found⟩ := (laid.linked chain inside).lookup node
  simp [found]

theorem Laid.used_or (laid : Laid storage (front ++ entries :: behind)) {address : Nat}
    (inUse : storage.heap address ≠ none)
    : address ∈ entries.map Prod.fst ∨ address ∈ spared front behind :=
  List.mem_append.mp ((addresses_perm front behind entries).mem_iff.mp (laid.used address inUse))

end Exchange

-----------------------------------------------------------------------------------------
-- What the callbacks do to the chains
-----------------------------------------------------------------------------------------

section Changes

variable {storage : Storage ω} {front behind : List (List (Entry ω))}
  {left right entries : List (Entry ω)} {address : Nat} {clone : Clone ω}

theorem dropSample_eq {next prev : Option Nat}
    (found : storage.heap address = some ⟨some clone, next, prev⟩)
    : dropSample storage address
      = some
        { storage with
          heap := Function.update storage.heap address (some ⟨none, next, prev⟩)
          dropped := storage.dropped ++ [clone.stamp] } := by
  simp [dropSample, found]

theorem apart_of_occupied {left right : List (Entry ω)} {entry : Entry ω}
    (distinct : ((left ++ entry :: right).map Prod.fst).Nodup)
    : ((occupied left ++ (entry.1, some entry.2) :: occupied right).map Prod.fst).Nodup := by
  rwa [← occupied_cons, ← occupied_append, addresses_occupied]

theorem Laid.nodes_eq (laid : Laid storage (front ++ entries :: behind))
    {others : List (Entry ω)} (same : head others = head entries)
    : storage.nodes = storage.nodes.set front.length (head others) := by
  rw [laid.nodes, same]
  simp

/-- A write to the node at an address of the chain spares the other chains. -/
theorem Laid.spares (laid : Laid storage (front ++ entries :: behind))
    (member : address ∈ entries.map Prod.fst) (node : Option (Node ω))
    : ∀ other ∈ spared front behind,
        Function.update storage.heap address node other = storage.heap other := by
  intro other kept
  refine Function.update_of_ne ?_ _ _
  rintro rfl
  exact laid.parts.2.2 member kept

/-- A stored sample is dropped and cloned anew in its place. -/
theorem Laid.replace (laid : Laid storage (front ++ (left ++ (address, clone) :: right) :: behind))
    (sample : Sample ω)
    : ∃ next,
        (dropSample storage address >>= fun storage => cloneSample storage address sample)
          = some next
        ∧ Laid next
            (front ++ (left ++ (address, ⟨sample, storage.cloned⟩) :: right) :: behind)
        ∧ next.cloned = storage.cloned + 1
        ∧ next.dropped = storage.dropped ++ [clone.stamp] := by
  obtain ⟨distinct, -, apart⟩ := laid.parts
  have segment := laid.segment
  rw [occupied_append, occupied_cons] at segment
  have found := segment.node
  have replaced := segment.setValue (apart_of_occupied distinct) (some ⟨sample, storage.cloned⟩)
  rw [← occupied_cons (address, ⟨sample, storage.cloned⟩), ← occupied_append] at replaced
  have member : address ∈ (left ++ (address, clone) :: right).map Prod.fst := by simp
  have same
      : (left ++ (address, (⟨sample, storage.cloned⟩ : Clone ω)) :: right).map Prod.fst
        = (left ++ (address, clone) :: right).map Prod.fst := by
    simp
  have ran
      : (dropSample storage address >>= fun storage => cloneSample storage address sample)
        = some
          { storage with
            heap :=
              Function.update storage.heap address
                (some ⟨some ⟨sample, storage.cloned⟩, Linked.firstOf (occupied right) none,
                  Linked.lastOf none (occupied left)⟩)
            cloned := storage.cloned + 1
            dropped := storage.dropped ++ [clone.stamp] } := by
    simp [dropSample, cloneSample, found]
  refine ⟨_, ran, ?_, rfl, rfl⟩
  refine laid.exchange ?_ replaced (laid.spares member _) (same ▸ distinct) (same ▸ apart) ?_
  · refine laid.nodes_eq ?_
    cases left with
    | nil => rfl
    | cons entry left => rfl
  · intro other inUse
    rw [same]
    by_cases equal : other = address
    · exact .inl (equal ▸ member)
    · simp only [ne_eq, Function.update_of_ne equal] at inUse
      exact laid.used_or inUse

/-- What the table looks like once a new node stands at the end of a chain. -/
theorem Laid.extend (laid : Laid storage (front ++ entries :: behind)) {next : Storage ω}
    {fresh : Clone ω} (unused : storage.heap address = none)
    (nodes : next.nodes = storage.nodes.set front.length (head (entries ++ [(address, fresh)])))
    (segment : Linked.Segment next.heap none (occupied (entries ++ [(address, fresh)])) none)
    (frame
      : ∀ other, other ∉ entries.map Prod.fst → other ≠ address
          → next.heap other = storage.heap other)
    : Laid next (front ++ (entries ++ [(address, fresh)]) :: behind) := by
  obtain ⟨distinct, -, apart⟩ := laid.parts
  have unlisted : address ∉ entries.map Prod.fst ++ spared front behind := fun listed =>
    laid.inUse ((addresses_perm front behind entries).mem_iff.mpr listed) unused
  obtain ⟨notOwn, notSpared⟩ := not_or.mp (List.mem_append.not.mp unlisted)
  have longer
      : (entries ++ [(address, fresh)]).map Prod.fst = entries.map Prod.fst ++ [address] := by
    simp
  refine laid.exchange nodes segment ?_ ?_ ?_ ?_
  · intro other kept
    refine frame other (fun own => apart own kept) ?_
    rintro rfl
    exact notSpared kept
  · rw [longer]
    exact List.nodup_append'.mpr ⟨distinct, List.nodup_singleton _, by simpa using notOwn⟩
  · rw [longer, List.disjoint_append_left]
    exact ⟨apart, by simpa using notSpared⟩
  · intro other inUse
    rw [longer, List.mem_append, List.mem_singleton]
    by_cases own : other ∈ entries.map Prod.fst
    · exact .inl (.inl own)
    by_cases new : other = address
    · exact .inl (.inr new)
    · rw [frame other own new] at inUse
      exact (laid.used_or inUse).imp .inl id

/-- The node goes into an empty bin. -/
theorem Laid.insertFirst {signedChar : Bool} {fuel : Nat} {sample : Sample ω}
    {allocation : Allocation ω} (laid : Laid storage (front ++ [] :: behind))
    (bin : binOf signedChar storage.nodes.length sample.keyexpr = front.length)
    (enough : 0 < fuel) (unused : storage.heap allocation.address = none)
    : ∃ next,
        storageInsert signedChar fuel storage sample allocation = some next
        ∧ Laid next
            (front ++ ([] ++ [(allocation.address, ⟨sample, storage.cloned⟩)]) :: behind)
        ∧ next.cloned = storage.cloned + 1
        ∧ next.dropped = storage.dropped := by
  have pointer : storage.nodes[front.length]? = some none := by
    rw [laid.nodes]
    simp [head, occupied]
  have search := find_eq laid.segment enough sample.keyexpr
  have ran
      : storageInsert signedChar fuel storage sample allocation
        = some
          { storage with
            heap :=
              Function.update storage.heap allocation.address
                (some ⟨some ⟨sample, storage.cloned⟩, none, none⟩)
            nodes := storage.nodes.set front.length (some allocation.address)
            cloned := storage.cloned + 1 } := by
    simp only [head, occupied, List.map_nil, Linked.firstOf_nil, List.find?_nil,
      Option.map_none] at search
    simp [storageInsert, bin, pointer, search, malloc, Linked.setPrev, Linked.setNext,
      cloneSample]
  refine ⟨_, ran, laid.extend unused rfl ?_ ?_, rfl, rfl⟩
  · exact ⟨Function.update_self _ _ _, trivial⟩
  · intro other _ elsewhere
    exact Function.update_of_ne elsewhere _ _

/-- The node goes behind the last one of its bin. -/
theorem Laid.insertLast {signedChar : Bool} {fuel : Nat} {sample : Sample ω}
    {allocation : Allocation ω} {last : Entry ω}
    (laid : Laid storage (front ++ (entries ++ [last]) :: behind))
    (bin : binOf signedChar storage.nodes.length sample.keyexpr = front.length)
    (enough : (entries ++ [last]).length < fuel)
    (absent
      : (entries ++ [last]).find? (fun entry => compareString entry.key sample.keyexpr) = none)
    (unused : storage.heap allocation.address = none)
    : ∃ next,
        storageInsert signedChar fuel storage sample allocation = some next
        ∧ Laid next
            (front ++ ((entries ++ [last]) ++ [(allocation.address, ⟨sample, storage.cloned⟩)])
              :: behind)
        ∧ next.cloned = storage.cloned + 1
        ∧ next.dropped = storage.dropped := by
  obtain ⟨first, start⟩ : ∃ first, head (entries ++ [last]) = some first := by
    cases entries with
    | nil => exact ⟨last.1, rfl⟩
    | cons entry entries => exact ⟨entry.1, rfl⟩
  have pointer : storage.nodes[front.length]? = some (some first) := by
    rw [laid.nodes]
    simp [start]
  have search := find_eq laid.segment enough sample.keyexpr
  rw [start, absent] at search
  have walk := walkToLast_eq laid.segment start (by simp at enough; omega : entries.length < fuel)
  have unlisted : allocation.address ∉ (entries ++ [last]).map Prod.fst := fun listed =>
    laid.inUse ((addresses_perm front behind _).mem_iff.mpr (List.mem_append_left _ listed)) unused
  have outside : allocation.address ∉ (occupied (entries ++ [last])).map Prod.fst := by
    rwa [addresses_occupied]
  have allocated := laid.segment.update outside (some allocation.content)
  have distinct := laid.parts.1
  rw [← addresses_occupied] at distinct
  rw [occupied_append] at allocated distinct
  obtain ⟨heap, wrote, linked, frame⟩ := allocated.setNext distinct (some allocation.address)
  have apart : allocation.address ≠ last.1 := fun equal => unlisted (by simp [equal])
  have found : heap allocation.address = some allocation.content := by
    rw [frame _ apart, Function.update_self]
  have ran
      : storageInsert signedChar fuel storage sample allocation
        = some
          { storage with
            heap :=
              Function.update heap allocation.address
                (some ⟨some ⟨sample, storage.cloned⟩, none, some last.1⟩)
            cloned := storage.cloned + 1 } := by
    have back
        : Linked.setPrev heap (some allocation.address) (some last.1)
          = some
            (Function.update heap allocation.address
              (some { allocation.content with prev := some last.1 })) := by
      simp [Linked.setPrev, found]
    have ends
        : Linked.setNext
              (Function.update heap allocation.address
                (some { allocation.content with prev := some last.1 }))
              (some allocation.address) none
          = some
            (Function.update heap allocation.address
              (some { allocation.content with prev := some last.1, next := none })) := by
      simp [Linked.setNext]
    simp [storageInsert, bin, pointer, search, walk, malloc, wrote, back, ends, cloneSample]
  refine ⟨_, ran, laid.extend unused ?_ ?_ ?_, rfl, rfl⟩
  · refine laid.nodes_eq ?_
    cases entries with
    | nil => rfl
    | cons entry entries => rfl
  · rw [occupied_append]
    refine Linked.segment_append.mpr ⟨?_, ?_, trivial⟩
    · rw [occupied_append]
      exact linked.update (by rwa [occupied_append] at outside) _
    · rw [occupied_append]
      simp [occupied]
  · intro other own elsewhere
    have notLast : other ≠ last.1 := by
      rintro rfl
      exact own (by simp)
    simp only [Function.update_of_ne elsewhere, frame other notLast]

/-- The pointer to a node is made to point behind it. -/
theorem Laid.unlinkBefore (laid : Laid storage (front ++ (left ++ (address, clone) :: right) :: behind))
    : ∃ next,
        Storage.unlinkBefore storage front.length
            ⟨some clone, head right, Linked.lastOf none (occupied left)⟩
          = some next
        ∧ Linked.Segment next.heap none (occupied left) (head right)
        ∧ (∀ other, other ∉ left.map Prod.fst → next.heap other = storage.heap other)
        ∧ next.nodes = storage.nodes.set front.length (head (left ++ right))
        ∧ next.cloned = storage.cloned
        ∧ next.dropped = storage.dropped := by
  have segment := laid.segment
  rw [occupied_append, occupied_cons] at segment
  obtain ⟨linked, -⟩ := Linked.segment_append.mp segment
  obtain rfl | ⟨others, last, rfl⟩ := List.eq_nil_or_concat' left
  · exact ⟨_, rfl, trivial, fun _ _ => rfl, rfl, rfl, rfl⟩
  · have distinct : ((others ++ [last]).map Prod.fst).Nodup := by
      have whole := laid.parts.1
      rw [List.map_append] at whole
      exact (List.nodup_append.mp whole).1
    rw [← addresses_occupied, occupied_append] at distinct
    rw [occupied_append] at linked
    obtain ⟨heap, wrote, relinked, frame⟩ := linked.setNext distinct (head right)
    refine ⟨{ storage with heap }, ?_, ?_, ?_, ?_, rfl, rfl⟩
    · have before : Linked.lastOf none (occupied (others ++ [last])) = some last.1 := by
        rw [occupied_append]
        exact Linked.lastOf_concat none _ _
      simp [Storage.unlinkBefore, before, wrote]
    · rw [occupied_append]
      exact relinked
    · intro other outside
      refine frame other ?_
      rintro rfl
      exact outside (by simp)
    · refine laid.nodes_eq ?_
      cases others with
      | nil => rfl
      | cons entry others => rfl

/-- The node behind is made to point before. -/
theorem unlinkAfter_eq {node : Node ω} {next : Storage ω} (behindIt : node.next = head right)
    (segment : Linked.Segment next.heap (some address) (occupied right) none)
    (distinct : (right.map Prod.fst).Nodup)
    : ∃ heap,
        unlinkAfter next node = some { next with heap }
        ∧ Linked.Segment heap node.prev (occupied right) none
        ∧ ∀ other, other ∉ right.map Prod.fst → heap other = next.heap other := by
  cases right with
  | nil => exact ⟨next.heap, by simp [unlinkAfter, behindIt, head, occupied], trivial, fun _ _ => rfl⟩
  | cons entry right =>
      rw [← addresses_occupied] at distinct
      obtain ⟨heap, wrote, relinked, frame⟩ := segment.setPrev distinct node.prev
      have first : head (entry :: right) = some entry.1 := rfl
      refine ⟨heap, ?_, relinked, ?_⟩
      · simp [unlinkAfter, behindIt, first, wrote]
      · intro other outside
        refine frame other ?_
        rintro rfl
        exact outside (by simp)

/-- A node is unlinked from its bin and freed, and its sample is dropped. -/
theorem Laid.remove {signedChar : Bool} {fuel : Nat} {key : List UInt8}
    (laid : Laid storage (front ++ (left ++ (address, clone) :: right) :: behind))
    (bin : binOf signedChar storage.nodes.length key = front.length)
    (enough : (left ++ (address, clone) :: right).length < fuel)
    (search
      : (left ++ (address, clone) :: right).find? (fun entry => compareString entry.key key)
        = some (address, clone))
    : ∃ next,
        storageRemove signedChar fuel storage key = some next
        ∧ Laid next (front ++ (left ++ right) :: behind)
        ∧ next.cloned = storage.cloned
        ∧ next.dropped = storage.dropped ++ [clone.stamp] := by
  obtain ⟨distinct, -, apart⟩ := laid.parts
  have segment := laid.segment
  have pointer
      : storage.nodes[front.length]?
        = some (head (left ++ (address, clone) :: right)) := by
    rw [laid.nodes]
    simp
  have found := find_eq segment enough key
  rw [search] at found
  rw [occupied_append, occupied_cons] at segment
  have node
      : storage.heap address
        = some ⟨some clone, head right, Linked.lastOf none (occupied left)⟩ :=
    segment.node
  obtain ⟨notLeft, notRight⟩ := Linked.notMem_of_nodup distinct
  obtain ⟨leftDistinct, laterDistinct, leftApart⟩ :=
    List.nodup_append'.mp (by rwa [List.map_append] at distinct)
  have rightDistinct := (List.nodup_cons.mp laterDistinct).2
  have rightApart : (left.map Prod.fst).Disjoint (right.map Prod.fst) := fun _ early late =>
    leftApart early (List.mem_cons_of_mem _ late)
  -- the left part is relinked first, then the right part
  obtain ⟨first, before, linked, frame, nodes, cloned, dropped⟩ := laid.unlinkBefore
  obtain ⟨-, -, back⟩ := Linked.segment_append.mp segment
  have backFirst : Linked.Segment first.heap (some address) (occupied right) none := by
    refine back.congr ?_
    intro entry member
    have listed : entry.1 ∈ right.map Prod.fst := by
      rw [← addresses_occupied]
      exact List.mem_map_of_mem member
    exact frame _ fun early => rightApart early listed
  have pointsBehind
      : (⟨some clone, head right, Linked.lastOf none (occupied left)⟩ : Node ω).next
        = head right :=
    rfl
  obtain ⟨heap, after, relinked, frameAfter⟩ :=
    unlinkAfter_eq pointsBehind backFirst rightDistinct
  have cell : heap address = some ⟨some clone, head right, Linked.lastOf none (occupied left)⟩ := by
    rw [frameAfter _ notRight, frame _ notLeft]
    exact node
  have ran
      : storageRemove signedChar fuel storage key
        = some
          { first with
            heap := Function.update heap address none
            dropped := first.dropped ++ [clone.stamp] } := by
    have unlinked
        : ({ first with heap } : Storage ω).heap address
          = some ⟨some clone, head right, Linked.lastOf none (occupied left)⟩ :=
      cell
    have emptied := dropSample_eq unlinked
    simp [storageRemove, bin, pointer, found, node, before, after, emptied, free]
  have smaller (other : Nat)
      : other ∈ (left ++ (address, clone) :: right).map Prod.fst
        ↔ other = address ∨ other ∈ (left ++ right).map Prod.fst := by
    simp only [List.map_append, List.map_cons, List.mem_append, List.mem_cons]
    tauto
  have away (other : Nat) (outside : other ∉ (left ++ (address, clone) :: right).map Prod.fst)
      : Function.update heap address none other = storage.heap other := by
    obtain ⟨elsewhere, unlisted⟩ := not_or.mp (mt (smaller other).mpr outside)
    rw [List.map_append] at unlisted
    obtain ⟨notIn, notAfter⟩ := not_or.mp (List.mem_append.not.mp unlisted)
    rw [Function.update_of_ne elsewhere, frameAfter _ notAfter, frame _ notIn]
  refine ⟨_, ran, laid.exchange nodes ?_ ?_ ?_ ?_ ?_, cloned, by rw [dropped]⟩
  · rw [occupied_append]
    refine Linked.segment_append.mpr ⟨?_, ?_⟩
    · refine Linked.Segment.update ?_ (by rwa [addresses_occupied]) _
      refine linked.congr ?_
      intro entry member
      have listed : entry.1 ∈ left.map Prod.fst := by
        rw [← addresses_occupied]
        exact List.mem_map_of_mem member
      exact frameAfter _ fun late => rightApart listed late
    · exact relinked.update (by rwa [addresses_occupied]) _
  · intro other kept
    have away := away other fun own => apart own kept
    exact away
  · rw [List.map_append]
    exact List.nodup_append'.mpr ⟨leftDistinct, rightDistinct, rightApart⟩
  · intro other own kept
    exact apart ((smaller other).mpr (.inr own)) kept
  · intro other inUse
    by_cases removed : other = address
    · simp [removed] at inUse
    by_cases own : other ∈ (left ++ right).map Prod.fst
    · exact .inl own
    · have outside := not_or.mpr ⟨removed, own⟩
      have same := away other (mt (smaller other).mp outside)
      simp only [same] at inUse
      exact .inr ((laid.used_or inUse).resolve_left (mt (smaller other).mp outside))

end Changes

end ZenohC.Storage
