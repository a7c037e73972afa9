import Mathlib.Data.List.Basic
import Mathlib.Logic.Function.Basic
import ZenohC.Library.Memory

/-! Doubly linked lists in memory.
A segment of a list is described by the addresses and values of its nodes, together with what
its ends point to. Segments are cut and joined at any node, and a write to a node of one list
does not touch the others.
-/

namespace ZenohC.Library

/-- A node of a doubly linked list; a pointer is null or an address. -/
structure Linked (β : Type*) where
  value : β
  next : Option Nat
  prev : Option Nat
  deriving DecidableEq, Repr

namespace Linked

variable {β : Type*}

/-- Write the `next` field of a node that is in use. -/
def setNext (memory : Memory (Linked β)) (pointer next : Option Nat)
    : Option (Memory (Linked β)) :=
  pointer.bind fun address =>
    (memory address).map fun node => Function.update memory address (some { node with next })

/-- Write the `prev` field of a node that is in use. -/
def setPrev (memory : Memory (Linked β)) (pointer prev : Option Nat)
    : Option (Memory (Linked β)) :=
  pointer.bind fun address =>
    (memory address).map fun node => Function.update memory address (some { node with prev })

/-- The first address of a segment, or what comes after an empty one. -/
def firstOf (entries : List (Nat × β)) (after : Option Nat) : Option Nat :=
  (entries.head?.map Prod.fst).or after

/-- The last address of a segment, or what comes before an empty one. -/
def lastOf (before : Option Nat) (entries : List (Nat × β)) : Option Nat :=
  (entries.getLast?.map Prod.fst).or before

/-- The nodes of a segment, linked in both directions and to what is around them. -/
def Segment (memory : Memory (Linked β)) : Option Nat → List (Nat × β) → Option Nat → Prop
  | _, [], _ => True
  | before, (address, value) :: rest, after =>
      memory address = some ⟨value, firstOf rest after, before⟩
      ∧ Segment memory (some address) rest after

variable {memory next : Memory (Linked β)} {before after : Option Nat}
  {entries left right : List (Nat × β)} {address : Nat} {value : β}

@[simp]
theorem firstOf_nil (after : Option Nat) : firstOf ([] : List (Nat × β)) after = after :=
  rfl

@[simp]
theorem firstOf_cons (entry : Nat × β) (entries : List (Nat × β)) (after : Option Nat)
    : firstOf (entry :: entries) after = some entry.1 :=
  rfl

@[simp]
theorem lastOf_nil (before : Option Nat) : lastOf before ([] : List (Nat × β)) = before :=
  rfl

@[simp]
theorem lastOf_concat (before : Option Nat) (entries : List (Nat × β)) (entry : Nat × β)
    : lastOf before (entries ++ [entry]) = some entry.1 := by
  simp [lastOf]

theorem firstOf_append (left right : List (Nat × β)) (after : Option Nat)
    : firstOf (left ++ right) after = firstOf left (firstOf right after) := by
  cases left with
  | nil => rfl
  | cons entry left => rfl

theorem lastOf_cons (before : Option Nat) (entry : Nat × β) (entries : List (Nat × β))
    : lastOf before (entry :: entries) = lastOf (some entry.1) entries := by
  cases entries with
  | nil => rfl
  | cons other entries => simp [lastOf, List.getLast?_cons]

/-- A segment is cut between any two of its nodes, by induction on the first part. -/
theorem segment_append
    : Segment memory before (left ++ right) after
      ↔ Segment memory before left (firstOf right after)
        ∧ Segment memory (lastOf before left) right after := by
  induction left generalizing before with
  | nil => simp [Segment]
  | cons entry left ih =>
      obtain ⟨address, value⟩ := entry
      simp only [List.cons_append, Segment, ih, firstOf_append, lastOf_cons, and_assoc]

/-- A segment only depends on its own addresses, by induction on the nodes. -/
theorem Segment.congr (segment : Segment memory before entries after)
    (same : ∀ entry ∈ entries, next entry.1 = memory entry.1)
    : Segment next before entries after := by
  induction entries generalizing before with
  | nil => trivial
  | cons entry entries ih =>
      obtain ⟨first, others⟩ := List.forall_mem_cons.mp same
      exact ⟨first.trans segment.1, ih segment.2 others⟩

/-- A write outside a segment leaves it as it is. -/
theorem Segment.update (segment : Segment memory before entries after)
    (outside : address ∉ entries.map Prod.fst) (node : Option (Linked β))
    : Segment (Function.update memory address node) before entries after := by
  refine segment.congr ?_
  intro entry member
  refine Function.update_of_ne ?_ _ _
  rintro rfl
  exact outside (List.mem_map_of_mem member)

/-- Every node of a segment is in use and holds its value. -/
theorem Segment.lookup (segment : Segment memory before entries after)
    (member : (address, value) ∈ entries)
    : ∃ next prev, memory address = some ⟨value, next, prev⟩ := by
  induction entries generalizing before with
  | nil => cases member
  | cons entry entries ih =>
      rcases List.mem_cons.mp member with rfl | later
      · exact ⟨_, _, segment.1⟩
      · exact ih segment.2 later

/-- A node inside a segment, with what it points to. -/
theorem Segment.node (segment : Segment memory before (left ++ (address, value) :: right) after)
    : memory address = some ⟨value, firstOf right after, lastOf before left⟩ :=
  (segment_append.mp segment).2.1

/-- The address of a node is not among the addresses before or after it. -/
theorem notMem_of_nodup
    (distinct : ((left ++ (address, value) :: right).map Prod.fst).Nodup)
    : address ∉ left.map Prod.fst ∧ address ∉ right.map Prod.fst := by
  rw [List.map_append, List.map_cons] at distinct
  obtain ⟨-, later, apart⟩ := List.nodup_append.mp distinct
  exact ⟨fun inside => apart _ inside _ List.mem_cons_self rfl, (List.nodup_cons.mp later).1⟩

/-- The value of a node is exchanged. -/
theorem Segment.setValue (segment : Segment memory before (left ++ (address, value) :: right) after)
    (distinct : ((left ++ (address, value) :: right).map Prod.fst).Nodup) (new : β)
    : Segment
        (Function.update memory address (some ⟨new, firstOf right after, lastOf before left⟩))
        before (left ++ (address, new) :: right) after := by
  obtain ⟨outsideLeft, outsideRight⟩ := notMem_of_nodup distinct
  obtain ⟨front, -, back⟩ := segment_append.mp segment
  exact segment_append.mpr
    ⟨front.update outsideLeft _, Function.update_self _ _ _, back.update outsideRight _⟩

/-- The last node of a segment is made to point somewhere else. -/
theorem Segment.setNext
    (segment : Segment memory before (entries ++ [(address, value)]) after)
    (distinct : ((entries ++ [(address, value)]).map Prod.fst).Nodup) (newNext : Option Nat)
    : ∃ written,
        Linked.setNext memory (some address) newNext = some written
        ∧ Segment written before (entries ++ [(address, value)]) newNext
        ∧ ∀ other, other ≠ address → written other = memory other := by
  have found := segment.node
  refine ⟨Function.update memory address (some ⟨value, newNext, lastOf before entries⟩), ?_, ?_,
    fun other apart => Function.update_of_ne apart _ _⟩
  · simp [Linked.setNext, found]
  · have fresh := (notMem_of_nodup distinct).1
    have front := (segment_append.mp segment).1.update fresh
      (some ⟨value, newNext, lastOf before entries⟩)
    exact segment_append.mpr ⟨front, Function.update_self _ _ _, trivial⟩

/-- The first node of a segment is made to point back somewhere else. -/
theorem Segment.setPrev (segment : Segment memory before ((address, value) :: entries) after)
    (distinct : (((address, value) :: entries).map Prod.fst).Nodup) (newPrev : Option Nat)
    : ∃ written,
        Linked.setPrev memory (some address) newPrev = some written
        ∧ Segment written newPrev ((address, value) :: entries) after
        ∧ ∀ other, other ≠ address → written other = memory other := by
  have found := segment.1
  refine ⟨Function.update memory address (some ⟨value, firstOf entries after, newPrev⟩), ?_, ?_,
    fun other apart => Function.update_of_ne apart _ _⟩
  · simp [Linked.setPrev, found]
  · have fresh : address ∉ entries.map Prod.fst := (List.nodup_cons.mp distinct).1
    exact ⟨Function.update_self _ _ _, segment.2.update fresh _⟩

end Linked

end ZenohC.Library
