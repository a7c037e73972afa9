import ZenohC.Library.ExclusiveAccess
import ZenohC.Shm.Buffers

/-! Who refers to a shared-memory buffer, and who may change it.
The references that zenoh has handed out are those of the slots in every run. A handle of a mutable
type is the only reference to its buffer, and what is seen through a handle changes through that
handle only.
-/

namespace ZenohC

open Library

/-- The references that others may have as well. -/
def BufferSlot.shared : BufferSlot → Multiset Nat
  | .shmMut _ => 0
  | slot => slot.buffers

/-- The reference that nobody else has. -/
def BufferSlot.exclusive : BufferSlot → Multiset Nat
  | .shmMut content => content.toList
  | _ => 0

def BufferSlot.refs (slot : BufferSlot) : Multiset Nat :=
  slot.buffers

theorem BufferSlot.shared_add_exclusive (slot : BufferSlot)
    : slot.shared + slot.exclusive = (slot.buffers : Multiset Nat) := by
  cases slot <;> simp [BufferSlot.shared, BufferSlot.exclusive, BufferSlot.buffers]

/-- A gravestone refers to nothing. -/
theorem BufferSlot.buffers_of_gravestone {slot gravestone : BufferSlot}
    (typed : slot.gravestone? = some gravestone)
    : gravestone.shared = 0 ∧ gravestone.exclusive = 0 := by
  cases slot <;> cases typed <;> exact ⟨rfl, rfl⟩

namespace BufferStore

variable {σ ε : Type} {crate : ShmBufferCrate σ ε}
variable {handed : σ → Multiset Nat} {own : σ → Nat → Prop}
variable {store next : BufferStore σ} {hand : Multiset Nat}

-----------------------------------------------------------------------------------------
-- References
-----------------------------------------------------------------------------------------

def sharedRefs (store : BufferStore σ) : Multiset Nat :=
  tally BufferSlot.shared store.slots + tally BufferSlot.shared store.forgotten

def exclusiveRefs (store : BufferStore σ) : Multiset Nat :=
  tally BufferSlot.exclusive store.slots + tally BufferSlot.exclusive store.forgotten

/-- The state of the books in the middle of a call: `hand` are the references that the call has
taken and not yet passed on.
-/
def Ledger (handed : σ → Multiset Nat) (own : σ → Nat → Prop) (store : BufferStore σ)
    (hand : Multiset Nat) : Prop :=
  Access (own store.crate) (handed store.crate) (store.sharedRefs + hand) store.exclusiveRefs

/-- Replacing a slot exchanges what the two contents refer to. -/
theorem setSlot_refs {index : Nat} {old : BufferSlot} (found : store.slots[index]? = some old)
    (new : BufferSlot)
    : { store with slots := store.slots.set index new }.sharedRefs + old.shared
        = store.sharedRefs + new.shared
      ∧ { store with slots := store.slots.set index new }.exclusiveRefs + old.exclusive
        = store.exclusiveRefs + new.exclusive := by
  have shared := tally_set BufferSlot.shared found new
  have exclusive := tally_set BufferSlot.exclusive found new
  constructor
  · simp only [sharedRefs]
    calc
      _ = tally BufferSlot.shared (store.slots.set index new) + old.shared
          + tally BufferSlot.shared store.forgotten := by ac_rfl
      _ = _ := by rw [shared]; ac_rfl
  · simp only [exclusiveRefs]
    calc
      _ = tally BufferSlot.exclusive (store.slots.set index new) + old.exclusive
          + tally BufferSlot.exclusive store.forgotten := by ac_rfl
      _ = _ := by rw [exclusive]; ac_rfl

/-- Overwriting a slot adds references: the old content is only forgotten. -/
theorem construct_refs {dst : Nat} {content : BufferSlot}
    (written : store.construct dst content = some next)
    : next.sharedRefs = store.sharedRefs + content.shared
      ∧ next.exclusiveRefs = store.exclusiveRefs + content.exclusive
      ∧ next.crate = store.crate := by
  obtain ⟨old, found, rfl⟩ := Option.map_eq_some_iff.mp written
  obtain ⟨shared, exclusive⟩ := setSlot_refs found content
  refine ⟨?_, ?_, rfl⟩
  · rw [← shared]
    simp only [sharedRefs, tally_append, tally_cons, tally_nil, add_zero]
    ac_rfl
  · rw [← exclusive]
    simp only [exclusiveRefs, tally_append, tally_cons, tally_nil, add_zero]
    ac_rfl

theorem takeContent_cases {src : Nat} {content : BufferSlot}
    (taken : store.takeContent src = some (content, next))
    : ∃ gravestone,
        store.slots[src]? = some content
        ∧ content.gravestone? = some gravestone
        ∧ next = { store with slots := store.slots.set src gravestone } := by
  simp only [takeContent, Option.bind_eq_bind, Option.bind_eq_some_iff, Option.some.injEq,
    Prod.mk.injEq] at taken
  obtain ⟨content, found, gravestone, typed, rfl, rfl⟩ := taken
  exact ⟨gravestone, found, typed, rfl⟩

/-- Taking moves the references of the content out of the slots. -/
theorem takeContent_refs {src : Nat} {content : BufferSlot}
    (taken : store.takeContent src = some (content, next))
    : next.sharedRefs + content.shared = store.sharedRefs
      ∧ next.exclusiveRefs + content.exclusive = store.exclusiveRefs
      ∧ next.crate = store.crate := by
  obtain ⟨gravestone, found, typed, rfl⟩ := takeContent_cases taken
  obtain ⟨shared, exclusive⟩ := setSlot_refs found gravestone
  obtain ⟨noShared, noExclusive⟩ := BufferSlot.buffers_of_gravestone typed
  rw [noShared, add_zero] at shared
  rw [noExclusive, add_zero] at exclusive
  exact ⟨shared, exclusive, rfl⟩

namespace Ledger

theorem construct {dst : Nat} {content : BufferSlot}
    (ledger : store.Ledger handed own (hand + content.shared))
    (noExclusive : content.exclusive = 0) (written : store.construct dst content = some next)
    : next.Ledger handed own hand := by
  obtain ⟨shared, exclusive, same⟩ := construct_refs written
  rw [Ledger, same, exclusive, noExclusive, add_zero, shared, add_assoc,
    add_comm content.shared]
  exact ledger

/-- A handle of the mutable type is written where the reference is the only one. -/
theorem constructMut {dst buffer : Nat} (ledger : store.Ledger handed own (hand + {buffer}))
    (sole : (handed store.crate).count buffer = 1 ∧ ¬own store.crate buffer)
    (written : store.construct dst (.shmMut (some buffer)) = some next)
    : next.Ledger handed own hand := by
  obtain ⟨shared, exclusive, same⟩ := construct_refs written
  rw [Ledger, same, exclusive, shared]
  have none : (BufferSlot.shmMut (some buffer)).shared = 0 := rfl
  have one : (BufferSlot.shmMut (some buffer)).exclusive = {buffer} := rfl
  rw [none, one, add_zero]
  rw [Ledger, ← add_assoc] at ledger
  exact ledger.grant sole

/-- A call that takes a content has its references in the hand. -/
theorem takeContent {src : Nat} {content : BufferSlot} (ledger : store.Ledger handed own hand)
    (taken : store.takeContent src = some (content, next))
    : next.Ledger handed own (hand + content.buffers) := by
  obtain ⟨shared, exclusive, same⟩ := takeContent_refs taken
  rw [Ledger, ← shared, ← exclusive, ← same] at ledger
  rw [Ledger, ← content.shared_add_exclusive]
  have shareable (nothing : content.exclusive = 0)
      : Access (own next.crate) (handed next.crate)
          (next.sharedRefs + (hand + (content.shared + content.exclusive)))
          next.exclusiveRefs := by
    rw [nothing, add_zero] at ledger
    rwa [nothing, add_zero, ← add_assoc, add_right_comm]
  cases content with
  | uninit => exact shareable rfl
  | shm held => exact shareable rfl
  | bytes payload => exact shareable rfl
  | shmMut held =>
      cases held with
      | none => exact shareable rfl
      | some buffer =>
          have one : (BufferSlot.shmMut (some buffer)).exclusive = {buffer} := rfl
          have none : (BufferSlot.shmMut (some buffer)).shared = 0 := rfl
          rw [one, none, add_zero] at ledger
          rw [one, none, zero_add, ← add_assoc]
          exact ledger.yield

/-- A handle of the mutable type in a slot is the only reference. -/
theorem sole {slot buffer : Nat} (ledger : store.Ledger handed own hand)
    (found : store.slots[slot]? = some (.shmMut (some buffer)))
    : (handed store.crate).count buffer = 1 ∧ ¬own store.crate buffer := by
  apply ledger.alone buffer
  refine Multiset.mem_add.mpr (.inl (mem_tally.mpr ⟨_, List.mem_of_getElem? found, ?_⟩))
  exact Multiset.mem_singleton_self buffer

/-- What is in the hand is handed out. -/
theorem hand_le (ledger : store.Ledger handed own hand) : hand ≤ handed store.crate := by
  rw [ledger.counted, add_right_comm]
  exact Multiset.le_add_left _ _

/-- A function of zenoh that hands nothing out and takes nothing back. -/
theorem spared {state : σ} (ledger : store.Ledger handed own hand)
    (same : handed state = handed store.crate)
    (spares : crate.Spares handed own store.crate state)
    : { store with crate := state }.Ledger handed own hand := by
  have kept := ledger.keeper fun buffer held => spares.own buffer (ledger.member held)
  rw [← same] at kept
  exact kept

/-- References to what nobody has alone are handed out. -/
theorem gained {state : σ} {more : Multiset Nat} (ledger : store.Ledger handed own hand)
    (same : handed state = handed store.crate + more)
    (spares : crate.Spares handed own store.crate state)
    (apart : ∀ buffer ∈ more, buffer ∉ store.exclusiveRefs)
    : { store with crate := state }.Ledger handed own (hand + more) := by
  have kept := ledger.keeper fun buffer held => spares.own buffer (ledger.member held)
  have gained := kept.gain apart
  rw [← same, add_assoc] at gained
  exact gained

/-- References in the hand are given back. -/
theorem returned {state : σ} {less : Multiset Nat}
    (ledger : store.Ledger handed own (hand + less))
    (same : handed state + less = handed store.crate)
    (spares : ∀ buffer ∈ handed store.crate, own state buffer
      → own store.crate buffer ∨ buffer ∈ less)
    : { store with crate := state }.Ledger handed own hand := by
  have lost : Access (own state) (handed store.crate) (store.sharedRefs + (hand + less))
      store.exclusiveRefs := by
    apply ledger.keeper
    intro buffer held refers
    rcases spares buffer (ledger.member held) refers with before | given
    · exact before
    · have shared : buffer ∈ store.sharedRefs + (hand + less) := by simp [given]
      exact absurd held (ledger.not_exclusive shared)
  rw [← same, ← add_assoc] at lost
  exact lost.lose

end Ledger

-----------------------------------------------------------------------------------------
-- What a call leaves alone
-----------------------------------------------------------------------------------------

/-- The slots that are not touched stay. -/
def KeepsSlots (store next : BufferStore σ) (touched : List Nat) : Prop :=
  ∀ slot content,
    slot ∉ touched → store.slots[slot]? = some content → next.slots[slot]? = some content

namespace KeepsSlots

variable {middle : BufferStore σ} {first second touched : List Nat}

theorem trans (one : KeepsSlots store middle first) (two : KeepsSlots middle next second)
    (within : first ⊆ touched) (also : second ⊆ touched)
    : KeepsSlots store next touched := by
  intro slot content outside found
  have between := one slot content (fun inside => outside (within inside)) found
  exact two slot content (fun inside => outside (also inside)) between

theorem mono (keeps : KeepsSlots store next first) (within : first ⊆ touched)
    : KeepsSlots store next touched :=
  fun slot content outside => keeps slot content fun inside => outside (within inside)

theorem set {dst : Nat} {content : BufferSlot} {forgotten : List BufferSlot} {state : σ}
    (slots : next = { slots := store.slots.set dst content, forgotten, crate := state })
    : KeepsSlots store next [dst] := by
  intro slot other outside there
  have different : dst ≠ slot := fun same => outside (by simp [same])
  rw [slots]
  exact (List.getElem?_set_ne different).trans there

theorem construct {dst : Nat} {content : BufferSlot}
    (written : store.construct dst content = some next)
    : KeepsSlots store next [dst] := by
  obtain ⟨old, found, rfl⟩ := Option.map_eq_some_iff.mp written
  exact set rfl

theorem takeContent {src : Nat} {content : BufferSlot}
    (taken : store.takeContent src = some (content, next))
    : KeepsSlots store next [src] := by
  obtain ⟨gravestone, found, -, rfl⟩ := takeContent_cases taken
  exact set rfl

/-- The state of zenoh is not in a slot. -/
theorem before_crate {state : σ} (keeps : KeepsSlots { store with crate := state } next touched)
    : KeepsSlots store next touched :=
  keeps

theorem after_crate {state : σ} (keeps : KeepsSlots store next touched)
    : KeepsSlots store { next with crate := state } touched :=
  keeps

end KeepsSlots

-----------------------------------------------------------------------------------------
-- The calls
-----------------------------------------------------------------------------------------

/-- The books are right again, and slots and data stay. -/
structure Moves (crate : ShmBufferCrate σ ε) (handed : σ → Multiset Nat) (own : σ → Nat → Prop)
    (store next : BufferStore σ) (touched : List Nat) : Prop where
  ledger : next.Ledger handed own 0
  slots : KeepsSlots store next touched
  data
    : ∀ buffer ∈ handed store.crate,
        crate.data next.crate buffer = crate.data store.crate buffer

variable {code : ZResult} {this that dst src : Nat}

/-- Where zenoh does nothing, the data stay. -/
theorem data_of_crate (same : next.crate = store.crate)
    : ∀ buffer ∈ handed store.crate,
        crate.data next.crate buffer = crate.data store.crate buffer := by
  intro buffer _
  rw [same]

/-- What a slot shares nobody has alone. -/
theorem Ledger.not_exclusive_of_slot {slot buffer : Nat} {content : BufferSlot}
    (ledger : store.Ledger handed own hand) (there : store.slots[slot]? = some content)
    (refers : buffer ∈ content.buffers) (shares : content.exclusive = 0)
    : buffer ∉ store.exclusiveRefs := by
  have member : buffer ∈ content.shared := by
    have whole := content.shared_add_exclusive
    rw [shares, add_zero] at whole
    rw [whole]
    exact refers
  apply ledger.not_exclusive
  refine Multiset.mem_add.mpr (.inl (Multiset.mem_add.mpr (.inl ?_)))
  exact mem_tally.mpr ⟨content, List.mem_of_getElem? there, member⟩

/-- A loan is of a buffer that a slot shares. -/
theorem loanedShm_cases {loan : ShmLoan} {content : BufferSlot} {buffer : Nat}
    (contract : crate.Contract handed own)
    (loaned : store.loanedShm crate loan = some (content, buffer))
    : store.slots[loan.slot]? = some content
      ∧ buffer ∈ content.buffers
      ∧ content.exclusive = 0 := by
  obtain ⟨held, there, loaned⟩ := Option.bind_eq_some_iff.mp loaned
  split at loaned
  · cases loaned
    exact ⟨there, List.mem_singleton_self buffer, rfl⟩
  · obtain ⟨_, asked, same⟩ := Option.map_eq_some_iff.mp loaned
    cases same
    exact ⟨there, contract.asShm _ _ _ asked, rfl⟩
  · obtain ⟨_, asked, same⟩ := Option.map_eq_some_iff.mp loaned
    cases same
    exact ⟨there, contract.asShmMut _ _ _ asked, rfl⟩
  · cases loaned

theorem moves_declare (ledger : store.Ledger handed own 0)
    : Moves crate handed own store { store with slots := store.slots ++ [.uninit] } [] := by
  refine ⟨?_, ?_, fun buffer held => rfl⟩
  · have shared : { store with slots := store.slots ++ [BufferSlot.uninit] }.sharedRefs
        = store.sharedRefs := by
      simp [sharedRefs, BufferSlot.shared, BufferSlot.buffers]
    have exclusive : { store with slots := store.slots ++ [BufferSlot.uninit] }.exclusiveRefs
        = store.exclusiveRefs := by
      simp [exclusiveRefs, BufferSlot.exclusive]
    rw [Ledger, shared, exclusive]
    exact ledger
  · intro slot content _ there
    exact (List.getElem?_append_left (List.getElem?_eq_some_iff.mp there).1).trans there

theorem moves_zInternalNull {gravestone : BufferSlot} (ledger : store.Ledger handed own 0)
    (ran : store.zInternalNull this gravestone = some next)
    : Moves crate handed own store next [this] := by
  rw [zInternalNull] at ran
  split at ran
  case isTrue listed =>
    have nothing : gravestone.shared = 0 ∧ gravestone.exclusive = 0 := by
      simp only [List.mem_cons, List.not_mem_nil, or_false] at listed
      rcases listed with rfl | rfl | rfl <;> exact ⟨rfl, rfl⟩
    refine ⟨Ledger.construct ?_ nothing.2 ran, KeepsSlots.construct ran, ?_⟩
    · rw [nothing.1, add_zero]
      exact ledger
    · exact data_of_crate (construct_refs ran).2.2
  case isFalse => cases ran

theorem moves_take (ledger : store.Ledger handed own 0) (ran : store.take dst src = some next)
    : Moves crate handed own store next [dst, src] := by
  simp only [take, Option.bind_eq_bind, Option.bind_eq_some_iff, Option.some.injEq] at ran
  obtain ⟨content, there, gravestone, typed, old, destination, rfl⟩ := ran
  let middle : BufferStore σ :=
    { store with
      slots := store.slots.set dst content
      forgotten := store.forgotten ++ [old] }
  have written : store.construct dst content = some middle := by
    simp only [construct, destination, Option.map_some, middle]
  have still : middle.slots[src]? = some content := by
    simp only [middle, List.getElem?_set]
    split
    · next same =>
        subst same
        have inside := (List.getElem?_eq_some_iff.mp there).1
        rw [if_pos inside]
    · exact there
  have taken : middle.takeContent src
      = some (content, { middle with slots := middle.slots.set src gravestone }) := by
    simp only [BufferStore.takeContent, still, Option.bind_eq_bind, Option.bind_some, typed]
  obtain ⟨shared, exclusive, -⟩ := construct_refs written
  obtain ⟨sharedLeft, exclusiveLeft, -⟩ := takeContent_refs taken
  have sameShared := add_right_cancel (sharedLeft.trans shared)
  have sameExclusive := add_right_cancel (exclusiveLeft.trans exclusive)
  refine ⟨?_, ?_, fun buffer held => rfl⟩
  · rw [Ledger] at ledger ⊢
    rw [← sameShared, ← sameExclusive] at ledger
    exact ledger
  · exact (KeepsSlots.construct written).trans (KeepsSlots.takeContent taken) (by simp) (by simp)

theorem moves_drop {target : Nat} (contract : crate.Contract handed own)
    (ledger : store.Ledger handed own 0) (ran : store.drop crate target = some next)
    : Moves crate handed own store next [target] := by
  obtain ⟨⟨content, rest⟩, taken, rfl⟩ := Option.map_eq_some_iff.mp ran
  have held := ledger.takeContent taken
  have same := (takeContent_refs taken).2.2
  have inHand := held.hand_le
  rw [zero_add] at inHand
  obtain ⟨counted, spares⟩ := contract.drop rest.crate content inHand
  refine ⟨held.returned counted fun buffer there refers => .inl (spares.own buffer there refers),
    (KeepsSlots.takeContent taken).after_crate, ?_⟩
  rw [← same]
  exact spares.data

theorem moves_zShmFromMut (ledger : store.Ledger handed own 0)
    (ran : store.zShmFromMut this that = some next)
    : Moves crate handed own store next [this, that] := by
  obtain ⟨⟨content, rest⟩, taken, ran⟩ := Option.bind_eq_some_iff.mp ran
  cases content with
  | shmMut shm =>
      refine ⟨(ledger.takeContent taken).construct rfl ran, ?_, ?_⟩
      · exact (KeepsSlots.takeContent taken).trans (KeepsSlots.construct ran) (by simp) (by simp)
      · exact data_of_crate ((construct_refs ran).2.2.trans (takeContent_refs taken).2.2)
  | uninit => cases ran
  | shm content => cases ran
  | bytes payload => cases ran

/-- Whatever the call returns, the reference lies in a slot again. -/
theorem moves_zShmMutTryFromImmut {immut : Nat} (contract : crate.Contract handed own)
    (ledger : store.Ledger handed own 0)
    (ran : store.zShmMutTryFromImmut crate this that immut = some (code, next))
    : Moves crate handed own store next [this, that, immut] := by
  obtain ⟨⟨content, rest⟩, taken, ran⟩ := Option.bind_eq_some_iff.mp ran
  have held := ledger.takeContent taken
  have kept := KeepsSlots.takeContent taken
  have same := (takeContent_refs taken).2.2
  cases content with
  | shm content =>
      cases content with
      | some shm =>
          simp only at ran
          split at ran
          case isTrue granted =>
            have written := (map_code_eq_some_iff.mp ran).1
            refine ⟨held.constructMut (contract.unique _ _ _ granted) written, ?_, ?_⟩
            · exact kept.trans (KeepsSlots.construct written) (by simp) (by simp)
            · exact data_of_crate ((construct_refs written).2.2.trans same)
          case isFalse =>
            have written := (map_code_eq_some_iff.mp ran).1
            refine ⟨held.construct rfl written, ?_, ?_⟩
            · exact kept.trans (KeepsSlots.construct written) (by simp) (by simp)
            · exact data_of_crate ((construct_refs written).2.2.trans same)
      | none =>
          cases ran
          exact ⟨held, kept.mono (by simp), data_of_crate same⟩
  | uninit => cases ran
  | shmMut content => cases ran
  | bytes payload => cases ran

/-- Zenoh hands out a content of buffers that nobody has alone. -/
theorem moves_gained {state : σ} {content : BufferSlot} (ledger : store.Ledger handed own 0)
    (same : handed state = handed store.crate + content.shared)
    (spares : crate.Spares handed own store.crate state) (noExclusive : content.exclusive = 0)
    (apart : ∀ buffer ∈ content.shared, buffer ∉ store.exclusiveRefs)
    (written : { store with crate := state }.construct dst content = some next)
    : Moves crate handed own store next [dst] := by
  refine ⟨(ledger.gained same spares apart).construct noExclusive written,
    (KeepsSlots.construct written).before_crate, ?_⟩
  rw [(construct_refs written).2.2]
  exact spares.data

theorem moves_toOwned {buffer : Nat} (contract : crate.Contract handed own)
    (ledger : store.Ledger handed own 0) (apart : buffer ∉ store.exclusiveRefs)
    (written
      : { store with crate := crate.toOwned store.crate buffer }.construct dst
          (.shm (some buffer))
        = some next)
    : Moves crate handed own store next [dst] := by
  obtain ⟨counted, spares⟩ := contract.toOwned store.crate buffer
  refine moves_gained ledger counted spares rfl ?_ written
  intro other member
  rw [Multiset.mem_singleton.mp member]
  exact apart

theorem moves_zShmClone {loan : ShmLoan} (contract : crate.Contract handed own)
    (ledger : store.Ledger handed own 0) (ran : store.zShmClone crate dst loan = some next)
    : Moves crate handed own store next [dst] := by
  obtain ⟨⟨content, shm⟩, loaned, written⟩ := Option.bind_eq_some_iff.mp ran
  obtain ⟨there, refers, shares⟩ := loanedShm_cases contract loaned
  exact moves_toOwned contract ledger (ledger.not_exclusive_of_slot there refers shares) written

theorem moves_zBytesToOwnedShm (contract : crate.Contract handed own)
    (ledger : store.Ledger handed own 0)
    (ran : store.zBytesToOwnedShm crate this dst = some (code, next))
    : Moves crate handed own store next [dst] := by
  rw [zBytesToOwnedShm] at ran
  split at ran
  case h_1 payload there =>
    split at ran
    case h_1 shm asked =>
      have refers : shm ∈ payloadBuffers payload := contract.asShm _ _ _ asked
      exact moves_toOwned contract ledger (ledger.not_exclusive_of_slot there refers rfl)
        (map_code_eq_some_iff.mp ran).1
    case h_2 asked =>
      have written := (map_code_eq_some_iff.mp ran).1
      exact ⟨Ledger.construct ledger rfl written, KeepsSlots.construct written,
        data_of_crate (construct_refs written).2.2⟩
  case h_2 => cases ran

/-- Both kinds of buffers go into the payload with their reference. -/
theorem moves_bytesFrom {middle : BufferStore σ} {content : BufferSlot} {shm : Option Nat}
    (ledger : store.Ledger handed own 0) (taken : store.takeContent src = some (content, middle))
    (holds : content.buffers = shm.toList)
    (ran : middle.bytesFrom this shm = some (code, next))
    : Moves crate handed own store next [this, src] := by
  have held := ledger.takeContent taken
  have kept := KeepsSlots.takeContent taken
  rw [holds] at held
  have written : ∃ payload,
      payloadBuffers payload = shm.toList
      ∧ middle.construct this (.bytes payload) = some next := by
    cases shm with
    | some buffer => exact ⟨[.shm buffer], rfl, (map_code_eq_some_iff.mp ran).1⟩
    | none => exact ⟨[], rfl, (map_code_eq_some_iff.mp ran).1⟩
  obtain ⟨payload, same, written⟩ := written
  rw [← same] at held
  refine ⟨held.construct rfl written, ?_, ?_⟩
  · exact kept.trans (KeepsSlots.construct written) (by simp) (by simp)
  · exact data_of_crate ((construct_refs written).2.2.trans (takeContent_refs taken).2.2)

theorem moves_zBytesFromShm (ledger : store.Ledger handed own 0)
    (ran : store.zBytesFromShm this src = some (code, next))
    : Moves crate handed own store next [this, src] := by
  obtain ⟨⟨content, rest⟩, taken, ran⟩ := Option.bind_eq_some_iff.mp ran
  cases content with
  | shm shm => exact moves_bytesFrom ledger taken rfl ran
  | uninit => cases ran
  | shmMut content => cases ran
  | bytes payload => cases ran

theorem moves_zBytesFromShmMut (ledger : store.Ledger handed own 0)
    (ran : store.zBytesFromShmMut this src = some (code, next))
    : Moves crate handed own store next [this, src] := by
  obtain ⟨⟨content, rest⟩, taken, ran⟩ := Option.bind_eq_some_iff.mp ran
  cases content with
  | shmMut shm => exact moves_bytesFrom ledger taken rfl ran
  | uninit => cases ran
  | shm content => cases ran
  | bytes payload => cases ran

theorem moves_zBytesClone (contract : crate.Contract handed own)
    (ledger : store.Ledger handed own 0) (ran : store.zBytesClone crate dst this = some next)
    : Moves crate handed own store next [dst] := by
  rw [zBytesClone] at ran
  split at ran
  case h_1 payload there =>
    obtain ⟨counted, spares⟩ := contract.cloneBytes store.crate payload
    refine moves_gained ledger counted spares rfl ?_ ran
    intro buffer refers
    exact ledger.not_exclusive_of_slot there refers rfl
  case h_2 => cases ran

theorem moves_receive {event : ε} (contract : crate.Contract handed own)
    (ledger : store.Ledger handed own 0) (ran : store.receive crate dst event = some next)
    : Moves crate handed own store next [dst] := by
  obtain ⟨⟨payload, state⟩, received, written⟩ := Option.bind_eq_some_iff.mp ran
  obtain ⟨known, counted, spares⟩ := contract.receive _ _ _ _ received
  refine moves_gained ledger counted spares rfl ?_ written
  intro buffer refers held
  exact (ledger.alone buffer held).2 (known buffer refers)

theorem moves_alloc {size : Nat} (contract : crate.Contract handed own)
    (ledger : store.Ledger handed own 0) (ran : store.alloc crate dst size = some next)
    : Moves crate handed own store next [dst] := by
  obtain ⟨⟨buffer, state⟩, allocated, written⟩ := Option.bind_eq_some_iff.mp ran
  obtain ⟨new, unknown, counted, spares⟩ := contract.alloc _ _ _ _ allocated
  obtain ⟨shared, exclusive, same⟩ := construct_refs written
  refine ⟨?_, (KeepsSlots.construct written).before_crate, ?_⟩
  · have kept := ledger.keeper fun other held => spares.own other (ledger.member held)
    have fresh := kept.fresh new unknown
    rw [← counted] at fresh
    have nothing : (BufferSlot.shmMut (some buffer)).shared = 0 := rfl
    rw [Ledger, shared, exclusive, same, nothing, add_zero]
    exact fresh
  · rw [same]
    exact spares.data

/-- The references of a payload that is sent go to zenoh. -/
theorem moves_send (contract : crate.Contract handed own) (ledger : store.Ledger handed own 0)
    (ran : store.send crate src = some next)
    : Moves crate handed own store next [src] := by
  obtain ⟨⟨content, rest⟩, taken, ran⟩ := Option.bind_eq_some_iff.mp ran
  have held := ledger.takeContent taken
  have same := (takeContent_refs taken).2.2
  have inHand := held.hand_le
  rw [zero_add] at inHand
  cases content with
  | bytes payload =>
      cases ran
      obtain ⟨counted, spares⟩ := contract.send rest.crate payload inHand
      refine ⟨held.returned counted fun buffer there => (spares buffer there).1,
        (KeepsSlots.takeContent taken).after_crate, ?_⟩
      rw [← same]
      exact fun buffer there => (spares buffer there).2
  | uninit => cases ran
  | shm content => cases ran
  | shmMut content => cases ran

theorem moves_crate {event : ε} (contract : crate.Contract handed own)
    (ledger : store.Ledger handed own 0)
    : Moves crate handed own store { store with crate := crate.step store.crate event } [] := by
  obtain ⟨counted, spares⟩ := contract.step store.crate event
  exact ⟨ledger.spared counted spares, fun slot content _ there => there, spares.data⟩

-----------------------------------------------------------------------------------------
-- Writing
-----------------------------------------------------------------------------------------

/-- The writer has the only reference, from a slot that the operation names. -/
def WrittenFrom (handed : σ → Multiset Nat) (store : BufferStore σ) (touched : List Nat)
    (buffer : Nat) : Prop :=
  (handed store.crate).count buffer = 1
  ∧ ∃ slot ∈ touched, ∃ content,
      store.slots[slot]? = some content ∧ buffer ∈ content.buffers

/-- What every operation does: the books stay right, the slots that it does not name stay, and
the data of a buffer change only where the writer has the only reference.
-/
structure Steps (crate : ShmBufferCrate σ ε) (handed : σ → Multiset Nat) (own : σ → Nat → Prop)
    (store next : BufferStore σ) (touched : List Nat) : Prop where
  ledger : next.Ledger handed own 0
  slots : KeepsSlots store next touched
  data
    : ∀ buffer ∈ handed store.crate,
        crate.data next.crate buffer = crate.data store.crate buffer
        ∨ WrittenFrom handed store touched buffer

variable {touched : List Nat}

theorem Moves.steps (moves : Moves crate handed own store next touched)
    : Steps crate handed own store next touched :=
  ⟨moves.ledger, moves.slots, fun buffer held => .inl (moves.data buffer held)⟩

/-- A loan that becomes mutable is of the only reference to its buffer. -/
theorem tryInto_cases {loan : ShmLoan} {buffer : Nat} (contract : crate.Contract handed own)
    (granted : store.tryInto crate loan = some buffer)
    : WrittenFrom handed store [loan.slot] buffer := by
  obtain ⟨⟨content, _⟩, chosen, rfl⟩ := Option.map_eq_some_iff.mp granted
  obtain ⟨loaned, unique⟩ := Option.filter_eq_some_iff.mp chosen
  obtain ⟨there, refers, -⟩ := loanedShm_cases contract loaned
  exact ⟨(contract.unique _ _ _ unique).1, _, List.mem_singleton_self _, content, there, refers⟩

/-- A mutable loan that is not null is of the only reference to its buffer. -/
theorem loanedShmMut_cases {loan : ShmMutLoan} {buffer : Nat}
    (contract : crate.Contract handed own) (ledger : store.Ledger handed own 0)
    (loaned : store.loanedShmMut crate loan = some buffer)
    : WrittenFrom handed store [loan.slot] buffer := by
  cases loan with
  | owned slot =>
      rw [loanedShmMut] at loaned
      split at loaned
      case h_1 content there =>
        subst loaned
        exact ⟨(ledger.sole there).1, slot, List.mem_singleton_self slot, _, there,
          List.mem_singleton_self buffer⟩
      case h_2 => cases loaned
  | tryMut slot => exact tryInto_cases contract loaned
  | tryReloanMut loan => exact tryInto_cases contract loaned

theorem steps_write {loan : ShmMutLoan} {data : List UInt8}
    (contract : crate.Contract handed own) (ledger : store.Ledger handed own 0)
    (ran : store.write crate loan data = some next)
    : Steps crate handed own store next [loan.slot] := by
  obtain ⟨buffer, loaned, ran⟩ := Option.bind_eq_some_iff.mp ran
  split at ran
  case isTrue =>
    cases ran
    obtain ⟨same, others⟩ := contract.write store.crate buffer data
    refine ⟨?_, fun slot content _ there => there, ?_⟩
    · have kept := ledger.keeper fun other _ => (others other).1
      rw [← same] at kept
      exact kept
    · intro other held
      by_cases written : other = buffer
      · exact .inr (written ▸ loanedShmMut_cases contract ledger loaned)
      · exact .inl ((others other).2 written)
  case isFalse => cases ran

/-- The slots that an operation writes to, takes from, or writes a buffer through. -/
def Operation.slots : Operation ε → List Nat
  | .declare | .crate _ => []
  | .zInternalNull this _ => [this]
  | .take dst src => [dst, src]
  | .drop target => [target]
  | .zShmFromMut this that => [this, that]
  | .zShmMutTryFromImmut this that immut => [this, that, immut]
  | .zShmClone out _ => [out]
  | .zBytesToOwnedShm _ dst => [dst]
  | .zBytesFromShm this shm | .zBytesFromShmMut this shm => [this, shm]
  | .zBytesClone dst _ => [dst]
  | .write loan _ => [loan.slot]
  | .alloc dst _ => [dst]
  | .send src => [src]
  | .receive dst _ => [dst]

theorem steps_exec {operation : Operation ε} (contract : crate.Contract handed own)
    (ledger : store.Ledger handed own 0)
    (ran : store.exec crate operation = some (code, next))
    : Steps crate handed own store next operation.slots := by
  cases operation with
  | declare =>
      cases ran
      exact (moves_declare ledger).steps
  | zInternalNull this gravestone =>
      exact (moves_zInternalNull ledger (map_code_eq_some_iff.mp ran).1).steps
  | take dst src => exact (moves_take ledger (map_code_eq_some_iff.mp ran).1).steps
  | drop target => exact (moves_drop contract ledger (map_code_eq_some_iff.mp ran).1).steps
  | zShmFromMut this that =>
      exact (moves_zShmFromMut ledger (map_code_eq_some_iff.mp ran).1).steps
  | zShmMutTryFromImmut this that immut =>
      exact (moves_zShmMutTryFromImmut contract ledger ran).steps
  | zShmClone out this =>
      exact (moves_zShmClone contract ledger (map_code_eq_some_iff.mp ran).1).steps
  | zBytesToOwnedShm this dst => exact (moves_zBytesToOwnedShm contract ledger ran).steps
  | zBytesFromShm this shm => exact (moves_zBytesFromShm ledger ran).steps
  | zBytesFromShmMut this shm => exact (moves_zBytesFromShmMut ledger ran).steps
  | zBytesClone dst this =>
      exact (moves_zBytesClone contract ledger (map_code_eq_some_iff.mp ran).1).steps
  | write loan data => exact steps_write contract ledger (map_code_eq_some_iff.mp ran).1
  | alloc dst size => exact (moves_alloc contract ledger (map_code_eq_some_iff.mp ran).1).steps
  | send src => exact (moves_send contract ledger (map_code_eq_some_iff.mp ran).1).steps
  | receive dst event =>
      exact (moves_receive contract ledger (map_code_eq_some_iff.mp ran).1).steps
  | crate event =>
      cases ran
      exact (moves_crate contract ledger).steps

-----------------------------------------------------------------------------------------
-- Runs
-----------------------------------------------------------------------------------------

/-- Everything of the program that refers to a buffer, with multiplicity. -/
def references (store : BufferStore σ) : Multiset Nat :=
  tally BufferSlot.refs store.slots + tally BufferSlot.refs store.forgotten

theorem tally_refs (slots : List BufferSlot)
    : tally BufferSlot.refs slots
      = tally BufferSlot.shared slots + tally BufferSlot.exclusive slots := by
  induction slots with
  | nil => rfl
  | cons slot rest ih =>
      rw [tally_cons, tally_cons, tally_cons, ih, BufferSlot.refs, ← slot.shared_add_exclusive]
      ac_rfl

/-- What is handed out is what the slots refer to. -/
theorem Ledger.counted (ledger : store.Ledger handed own 0)
    : handed store.crate = store.references := by
  rw [Access.counted ledger, add_zero, references, tally_refs, tally_refs, sharedRefs,
    exclusiveRefs]
  ac_rfl

variable {slot buffer : Nat} {content : BufferSlot}

theorem count_pos (there : store.slots[slot]? = some content) (refers : buffer ∈ content.buffers)
    : 0 < (tally BufferSlot.refs store.slots).count buffer :=
  Multiset.count_pos.mpr (mem_tally.mpr ⟨content, List.mem_of_getElem? there, refers⟩)

/-- A buffer with one reference, from a slot, has none from another slot. -/
theorem Ledger.alone_in (ledger : store.Ledger handed own 0)
    (sole : (handed store.crate).count buffer = 1)
    (there : store.slots[slot]? = some content) (refers : buffer ∈ content.buffers)
    : ∀ (other : Nat) (found : BufferSlot),
        store.slots[other]? = some found → buffer ∈ found.buffers → other = slot := by
  rw [ledger.counted, references, Multiset.count_add] at sole
  intro other found held also
  by_contra different
  have memberHere : buffer ∈ content.refs := refers
  have memberOther : buffer ∈ found.refs := also
  have twice := two_le_count_tally (Ne.symm different) there held memberHere memberOther
  omega

theorem step_cases {operation : Operation ε}
    (stepped : (machine crate).step store operation = some next)
    : ∃ code, store.exec crate operation = some (code, next) := by
  obtain ⟨⟨code, _⟩, ran, rfl⟩ := Option.map_eq_some_iff.mp stepped
  exact ⟨code, ran⟩

theorem run_ledger {events : List (Operation ε)} (contract : crate.Contract handed own)
    (ran : (machine crate).run events = some store)
    : store.Ledger handed own 0 := by
  have start : (machine crate).init.Ledger handed own 0 :=
    ⟨contract.start, fun index member => absurd member (Multiset.notMem_zero index)⟩
  have keeps (state : BufferStore σ) (operation : Operation ε) (after : BufferStore σ)
      (ledger : state.Ledger handed own 0)
      (stepped : (machine crate).step state operation = some after)
      : after.Ledger handed own 0 := by
    obtain ⟨code, ran⟩ := step_cases stepped
    exact (steps_exec contract ledger ran).ledger
  exact Machine.runFrom_preserves keeps ran start

/-- In every run the references that zenoh has handed out are those of the program, and a handle
of the mutable type is the only one: neither zenoh nor another slot refers to its buffer.
-/
theorem mutable_buffer_is_sole {events : List (Operation ε)} {last : BufferStore σ}
    (contract : crate.Contract handed own) (ran : (machine crate).run events = some last)
    : handed last.crate = last.references
      ∧ ∀ slot buffer : Nat,
          last.slots[slot]? = some (BufferSlot.shmMut (some buffer))
          → last.references.count buffer = 1
            ∧ ¬own last.crate buffer
            ∧ ∀ (other : Nat) (content : BufferSlot),
                last.slots[other]? = some content
                → buffer ∈ content.buffers
                → other = slot := by
  have ledger := run_ledger contract ran
  refine ⟨ledger.counted, ?_⟩
  intro slot buffer found
  obtain ⟨sole, unknown⟩ := ledger.sole found
  have only := ledger.alone_in sole found (List.mem_singleton_self buffer)
  rw [ledger.counted] at sole
  exact ⟨sole, unknown, only⟩

end BufferStore

-----------------------------------------------------------------------------------------
-- Books
-----------------------------------------------------------------------------------------

/-- A zenoh that keeps books: what it has handed out, what it refers to itself, and the bytes of
the buffers in the order of their allocation.
-/
structure ShmBooks where
  handed : Multiset Nat
  zenoh : List Nat
  data : List (List UInt8)
  deriving DecidableEq

/-- An event is about one buffer: zenoh delivers it as a payload, or stops referring to it. -/
def bookedCrate : ShmBufferCrate ShmBooks Nat where
  start := { handed := 0, zenoh := [], data := [] }
  data books buffer := books.data.getD buffer []
  alloc books size :=
    let buffer := books.data.length
    if buffer ∈ books.handed ∨ buffer ∈ books.zenoh then none
    else
      some (buffer,
        { books with
          handed := books.handed + {buffer}
          data := books.data ++ [List.replicate size 0] })
  toOwned books buffer := { books with handed := books.handed + {buffer} }
  dropShm books buffer := { books with handed := books.handed - {buffer} }
  cloneBytes books payload := { books with handed := books.handed + payloadBuffers payload }
  dropBytes books payload := { books with handed := books.handed - payloadBuffers payload }
  isUnique books _ buffer := books.handed.count buffer = 1 ∧ buffer ∉ books.zenoh
  asShm _ payload :=
    match payload with
    | [.shm buffer] => some buffer
    | _ => none
  asShmMut _ payload :=
    match payload with
    | [.shm buffer] => some buffer
    | _ => none
  write books buffer data := { books with data := books.data.set buffer data }
  send books payload :=
    { books with
      handed := books.handed - payloadBuffers payload
      zenoh := payloadBuffers payload ++ books.zenoh }
  receive books buffer :=
    if buffer ∈ books.zenoh then
      some ([.shm buffer], { books with handed := books.handed + {buffer} })
    else none
  step books buffer := { books with zenoh := books.zenoh.erase buffer }

theorem bookedCrate_loaned {payload : List PayloadSlice} {buffer : Nat}
    (asked
      : (match payload with
          | [.shm buffer] => some buffer
          | _ => none)
        = some buffer)
    : buffer ∈ payloadBuffers payload := by
  split at asked
  · cases asked
    exact List.mem_singleton_self buffer
  · cases asked

/-- What only changes what is handed out spares the buffers of the program. -/
theorem bookedCrate_spares {books next : ShmBooks} (zenoh : next.zenoh = books.zenoh)
    (data : next.data = books.data)
    : bookedCrate.Spares ShmBooks.handed (fun books buffer => buffer ∈ books.zenoh) books next where
  own := by
    intro buffer _ refers
    exact zenoh ▸ refers
  data := by
    intro buffer _
    simp only [bookedCrate, data]

theorem bookedCrate_contract
    : bookedCrate.Contract ShmBooks.handed (fun books buffer => buffer ∈ books.zenoh) where
  start := rfl
  alloc := by
    intro books size buffer next allocated
    simp only [bookedCrate] at allocated
    split at allocated
    case isTrue => cases allocated
    case isFalse new =>
      cases allocated
      obtain ⟨unheld, unknown⟩ := not_or.mp new
      refine ⟨unheld, unknown, rfl, fun other _ refers => refers, ?_⟩
      intro other held
      have different : other ≠ books.data.length := fun same => unheld (same ▸ held)
      simp only [bookedCrate, List.getD_eq_getElem?_getD]
      rcases Nat.lt_or_gt_of_ne different with inside | outside
      · rw [List.getElem?_append_left inside]
      · rw [List.getElem?_eq_none (by simp; omega), List.getElem?_eq_none outside.le]
  toOwned := by
    intro books buffer
    exact ⟨rfl, bookedCrate_spares rfl rfl⟩
  drop := by
    intro books content held
    cases content with
    | uninit => exact ⟨add_zero _, bookedCrate_spares rfl rfl⟩
    | shm content =>
        cases content with
        | none => exact ⟨add_zero _, bookedCrate_spares rfl rfl⟩
        | some buffer =>
            exact ⟨Multiset.sub_add_cancel held, bookedCrate_spares rfl rfl⟩
    | shmMut content =>
        cases content with
        | none => exact ⟨add_zero _, bookedCrate_spares rfl rfl⟩
        | some buffer =>
            exact ⟨Multiset.sub_add_cancel held, bookedCrate_spares rfl rfl⟩
    | bytes payload =>
        exact ⟨Multiset.sub_add_cancel held, bookedCrate_spares rfl rfl⟩
  cloneBytes := by
    intro books payload
    exact ⟨rfl, bookedCrate_spares rfl rfl⟩
  unique := by
    intro books content buffer granted
    exact of_decide_eq_true granted
  asShm := by
    intro books payload buffer asked
    exact bookedCrate_loaned asked
  asShmMut := by
    intro books payload buffer asked
    exact bookedCrate_loaned asked
  write := by
    intro books buffer data
    refine ⟨rfl, fun other => ⟨fun refers => refers, fun different => ?_⟩⟩
    simp only [bookedCrate, List.getD_eq_getElem?_getD]
    rw [List.getElem?_set_ne (Ne.symm different)]
  send := by
    intro books payload held
    refine ⟨Multiset.sub_add_cancel held, fun buffer _ => ⟨fun refers => ?_, rfl⟩⟩
    exact (List.mem_append.mp refers).symm
  receive := by
    intro books event payload next received
    simp only [bookedCrate] at received
    split at received
    case isTrue known =>
      cases received
      refine ⟨?_, rfl, bookedCrate_spares rfl rfl⟩
      intro buffer refers
      rw [List.mem_singleton.mp refers]
      exact known
    case isFalse => cases received
  step := by
    intro books event
    exact ⟨rfl, fun other _ refers => List.mem_of_mem_erase refers, fun other _ => rfl⟩

namespace BufferStore

/-- A payload of one buffer is sent while a handle stays, and the buffer becomes mutable again when
zenoh has released it.
-/
def regainedEvents : List (Operation Nat) :=
  [.declare, .declare, .declare, .alloc 0 2, .zBytesFromShmMut 1 0, .zBytesToOwnedShm 1 0,
    .send 1, .zShmMutTryFromImmut 1 0 2, .crate 0, .zShmMutTryFromImmut 1 2 0]

theorem mutable_buffer_is_sole_regained
    : ∃ last,
        (machine bookedCrate).run regainedEvents = some last
        ∧ last.slots[1]? = some (.shmMut (some 0))
        ∧ last.references.count 0 = 1 := by
  let last := ((machine bookedCrate).run regainedEvents).getD (machine bookedCrate).init
  have ran : (machine bookedCrate).run regainedEvents = some last := by decide
  have found : last.slots[1]? = some (.shmMut (some 0)) := by decide
  obtain ⟨-, alone⟩ := mutable_buffer_is_sole bookedCrate_contract ran
  exact ⟨last, ran, found, (alone 1 0 found).1⟩

end BufferStore

-----------------------------------------------------------------------------------------
-- What is seen
-----------------------------------------------------------------------------------------

open BufferStore

variable {σ ε : Type} {crate : ShmBufferCrate σ ε}
variable {handed : σ → Multiset Nat} {own : σ → Nat → Prop}

def PayloadSlice.data (crate : ShmBufferCrate σ ε) (state : σ) : PayloadSlice → List UInt8
  | .plain bytes => bytes
  | .shm buffer => crate.data state buffer

/-- The bytes that are seen through a handle or in a payload. -/
def BufferSlot.data (crate : ShmBufferCrate σ ε) (state : σ) : BufferSlot → List UInt8
  | .uninit => []
  | .shm content | .shmMut content => content.elim [] (crate.data state)
  | .bytes content => content.flatMap (PayloadSlice.data crate state)

end ZenohC
