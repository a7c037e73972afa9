import Mathlib.Data.UInt
import ZenohC.Library.LinkedChain
import ZenohC.Library.Machine

/-! The storage example: samples in a hash table, one for each key expression.
The bins of the table are doubly linked lists of nodes in memory. Reading through a null or
dangling pointer, using a dropped sample and freeing what is not in use have no result; so
has a loop that needs more than the given number of turns.
-/

namespace ZenohC

open Library

namespace Storage

/-- What the storage reads of a sample; the payload is whatever is answered with. -/
structure Sample (ω : Type) where
  keyexpr : List UInt8
  payload : ω
  deriving DecidableEq, Repr

/-- A clone of a sample, told apart from all others by its stamp. -/
structure Clone (ω : Type) where
  sample : Sample ω
  stamp : Nat
  deriving DecidableEq, Repr

/-- `node_t`; a dropped sample leaves its gravestone behind. -/
abbrev Node (ω : Type) := Linked (Option (Clone ω))

abbrev Heap (ω : Type) := Memory (Node ω)

end Storage

/-- `storage_t` with the nodes in memory, the number of samples cloned so far, and the samples
dropped so far, in order. The number of bins is the length of the array.
-/
structure Storage (ω : Type) where
  heap : Storage.Heap ω
  nodes : List (Option Nat)
  cloned : Nat
  dropped : List Nat

namespace Storage

variable {ω : Type}

/-- `(size_t)data[i]`, for a `char` that is signed or not. -/
def charToSize (signedChar : Bool) (c : UInt8) : UInt64 :=
  if signedChar = true ∧ 128 ≤ c then c.toUInt64 - 256 else c.toUInt64

def hashString (signedChar : Bool) (s : List UInt8) : UInt64 :=
  s.foldl (fun hash c => ((hash <<< 5) + hash) + charToSize signedChar c) 5381

/-- `strncmp`, on strings that have as many characters as are compared. -/
def strncmp : Nat → List UInt8 → List UInt8 → Int
  | count + 1, left :: lefts, right :: rights =>
      if left ≠ right then left.toNat - right.toNat
      else if left = 0 then 0
      else strncmp count lefts rights
  | _, _, _ => 0

def compareString (s1 s2 : List UInt8) : Bool :=
  s1.length == s2.length && strncmp s1.length s1 s2 == 0

/-- The bin of a key; a table without bins has none. -/
def binOf (signedChar : Bool) (numBins : Nat) (key : List UInt8) : Nat :=
  (hashString signedChar key).toNat % numBins

/-- `z_loan(node->sample)` -/
def loan (node : Node ω) : Option (Sample ω) :=
  node.value.map Clone.sample

/-- `_storage_find` -/
def find (heap : Heap ω) (key : List UInt8) : Nat → Option Nat → Option (Option Nat)
  | 0, _ => none
  | _ + 1, none => some none
  | fuel + 1, some address => do
      let node ← heap address
      let sample ← loan node
      if compareString sample.keyexpr key then some (some address)
      else find heap key fuel node.next

/-- The loop of `storage_insert` that walks to the last node of a bin. -/
def walkToLast (heap : Heap ω) : Nat → Nat → Option Nat
  | 0, _ => none
  | fuel + 1, address => do
      let node ← heap address
      match node.next with
      | none => some address
      | some next => walkToLast heap fuel next

/-- `z_drop(z_move(node->sample))` -/
def dropSample (storage : Storage ω) (address : Nat) : Option (Storage ω) := do
  let node ← storage.heap address
  let heap := Function.update storage.heap address (some { node with value := none })
  match node.value with
  | none => return { storage with heap }
  | some clone => return { storage with heap, dropped := storage.dropped ++ [clone.stamp] }

/-- `z_sample_clone(&node->sample, sample)` -/
def cloneSample (storage : Storage ω) (address : Nat) (sample : Sample ω)
    : Option (Storage ω) := do
  let node ← storage.heap address
  let value := some { sample, stamp := storage.cloned }
  return { storage with
    heap := Function.update storage.heap address (some { node with value })
    cloned := storage.cloned + 1 }

/-- `z_malloc` of a node: memory at an address of the allocator's choice, with any content. -/
def malloc (heap : Heap ω) (address : Nat) (content : Node ω) : Heap ω :=
  Function.update heap address (some content)

/-- `z_free` -/
def free (heap : Heap ω) (address : Nat) : Option (Heap ω) := do
  let _ ← heap address
  return Function.update heap address none

/-- What the allocator answers if it is asked for a node. -/
structure Allocation (ω : Type) where
  address : Nat
  content : Node ω

variable (signedChar : Bool) (fuel : Nat)

/-- `storage_find` -/
def storageFind (storage : Storage ω) (key : List UInt8) : Option (Option (Sample ω)) := do
  let bin := binOf signedChar storage.nodes.length key
  let head ← storage.nodes[bin]?
  match ← find storage.heap key fuel head with
  | none => return none
  | some address => do
      let node ← storage.heap address
      return some (← loan node)

/-- `storage_insert` -/
def storageInsert (storage : Storage ω) (sample : Sample ω) (allocation : Allocation ω)
    : Option (Storage ω) := do
  let bin := binOf signedChar storage.nodes.length sample.keyexpr
  let head ← storage.nodes[bin]?
  match ← find storage.heap sample.keyexpr fuel head with
  | some res =>
      let storage ← dropSample storage res
      cloneSample storage res sample
  | none =>
      let res := allocation.address
      match head with
      | none =>
          let heap := malloc storage.heap res allocation.content
          let heap ← Linked.setPrev heap (some res) none
          let heap ← Linked.setNext heap (some res) none
          let storage := { storage with heap, nodes := storage.nodes.set bin (some res) }
          cloneSample storage res sample
      | some first =>
          let last ← walkToLast storage.heap fuel first
          let heap := malloc storage.heap res allocation.content
          let heap ← Linked.setNext heap (some last) (some res)
          let heap ← Linked.setPrev heap (some res) (some last)
          let heap ← Linked.setNext heap (some res) none
          cloneSample { storage with heap } res sample

/-- In `storage_remove`, whatever points to a node from before is made to point behind it. -/
def unlinkBefore (storage : Storage ω) (bin : Nat) (node : Node ω) : Option (Storage ω) :=
  match node.prev with
  | none => some { storage with nodes := storage.nodes.set bin node.next }
  | some prev => do
      let heap ← Linked.setNext storage.heap (some prev) node.next
      return { storage with heap }

/-- In `storage_remove`, the node behind is made to point before the node. -/
def unlinkAfter (storage : Storage ω) (node : Node ω) : Option (Storage ω) :=
  match node.next with
  | none => some storage
  | some next => do
      let heap ← Linked.setPrev storage.heap (some next) node.prev
      return { storage with heap }

/-- `storage_remove` -/
def storageRemove (storage : Storage ω) (key : List UInt8) : Option (Storage ω) := do
  let bin := binOf signedChar storage.nodes.length key
  let head ← storage.nodes[bin]?
  match ← find storage.heap key fuel head with
  | none => return storage
  | some res =>
      let node ← storage.heap res
      let storage ← unlinkBefore storage bin node
      let storage ← unlinkAfter storage node
      let storage ← dropSample storage res
      let heap ← free storage.heap res
      return { storage with heap }

/-- `storage_new` -/
def storageNew (numBins : Nat) : Storage ω :=
  { heap := Memory.empty, nodes := List.replicate numBins none, cloned := 0, dropped := [] }

/-- The inner loop of `storage_drop`. -/
def dropBin : Nat → Option Nat → Storage ω → Option (Storage ω)
  | 0, _, _ => none
  | _ + 1, none, storage => some storage
  | fuel + 1, some address, storage => do
      let storage ← dropSample storage address
      let node ← storage.heap address
      let heap ← free storage.heap address
      dropBin fuel node.next { storage with heap }

/-- `storage_drop` -/
def storageDrop (storage : Storage ω) : Option (Storage ω) := do
  let storage ← storage.nodes.foldlM (fun storage head => dropBin fuel head storage) storage
  return { storage with nodes := [] }

-----------------------------------------------------------------------------------------
-- Iteration
-----------------------------------------------------------------------------------------

/-- `storage_iterator_t` -/
structure Iterator where
  bin : Nat
  node : Option Nat
  deriving DecidableEq, Repr

/-- `_storage_first_non_empty_bin` -/
def firstNonEmptyBin (storage : Storage ω) (start : Nat) : Iterator :=
  go start (storage.nodes.drop start)
where
  go (start : Nat) : List (Option Nat) → Iterator
    | [] => { bin := start, node := none }
    | some node :: _ => { bin := start, node := some node }
    | none :: rest => go (start + 1) rest

def storageBegin (storage : Storage ω) : Iterator :=
  firstNonEmptyBin storage 0

def isEnd (storage : Storage ω) (it : Iterator) : Bool :=
  storage.nodes.length ≤ it.bin

/-- `storage_iterator_value` -/
def iteratorValue (storage : Storage ω) (it : Iterator) : Option (Sample ω) := do
  let address ← it.node
  let node ← storage.heap address
  loan node

/-- `storage_iterator_next` -/
def iteratorNext (storage : Storage ω) (it : Iterator) : Option Iterator := do
  let address ← it.node
  let node ← storage.heap address
  match node.next with
  | some next => return { bin := it.bin, node := some next }
  | none => return firstNonEmptyBin storage (it.bin + 1)

-----------------------------------------------------------------------------------------
-- The callbacks
-----------------------------------------------------------------------------------------

/-- A sample that the subscriber receives. -/
inductive Received (ω : Type) where
  | put (sample : Sample ω) (allocation : Allocation ω)
  | delete (keyexpr : List UInt8)

/-- `sub_handler`, while it holds the lock. -/
def subHandler (storage : Storage ω) : Received ω → Option (Storage ω)
  | .put sample allocation => storageInsert signedChar fuel storage sample allocation
  | .delete keyexpr => storageRemove signedChar fuel storage keyexpr

/-- One turn of the loop of `query_handler`: the answer, if there is one, and the next place. -/
def answerAt (intersects : List UInt8 → Bool) (storage : Storage ω) (it : Iterator)
    : Option (List (Sample ω) × Iterator) := do
  let sample ← iteratorValue storage it
  let next ← iteratorNext storage it
  return (if intersects sample.keyexpr then [sample] else [], next)

/-- The loop of `query_handler`, with the answers in order. -/
def answersFrom (intersects : List UInt8 → Bool) (storage : Storage ω)
    : Nat → Iterator → Option (List (Sample ω))
  | 0, _ => none
  | fuel + 1, it =>
      if isEnd storage it then some []
      else do
        let (answer, next) ← answerAt intersects storage it
        let rest ← answersFrom intersects storage fuel next
        return answer ++ rest

/-- `query_handler`, while it holds the lock: a reply for each stored sample whose key
expression intersects the query's.
-/
def queryHandler (intersects : List UInt8 → Bool) (storage : Storage ω)
    : Option (List (Sample ω)) :=
  answersFrom intersects storage fuel (storageBegin storage)

/-- The storage while samples come in. -/
def machine (numBins : Nat) : Machine (Storage ω) (Received ω) where
  init := storageNew numBins
  step := subHandler signedChar fuel

end Storage

end ZenohC
