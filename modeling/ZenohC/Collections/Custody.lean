import ZenohC.Collections.SliceStore

/-! What a slice store holds, and what each primitive does to it.
The account of a store is what its cells still hold together with what has been released.
Constructors raise it by the releases of the new content and nothing else changes it.
-/

namespace ZenohC

open Library
open Library.SharedCells (Counts)

/-- The releases that dropping the slot would make by itself. -/
def Slot.holds : Slot → Multiset Release
  | .owned _ content => content.releases
  | .array elements => tally (fun element => (element.releases : Multiset Release)) elements
  | .uninit | .view _ _ | .bytes _ => 0

/-- The shared slices the slot refers to, once for each reference. -/
def Slot.refs : Slot → Multiset Nat
  | .bytes buffers => buffers
  | .uninit | .owned _ _ | .view _ _ | .array _ => 0

/-- What dropping an owned slice owes to its deleter. -/
def Owned.owed (content : Owned) : Multiset Release :=
  content.releases

@[simp]
theorem Owned.releases_gravestone : Owned.gravestone.releases = [] :=
  rfl

theorem Slot.gravestone?_holds {content tomb : Slot} (found : content.gravestone? = some tomb)
    : tomb.holds = 0 := by
  cases content with
  | uninit => cases found
  | view kind slice => cases found
  | owned kind slice => cases found; rfl
  | array elements => cases found; rfl
  | bytes buffers => cases found; rfl

theorem Slot.gravestone?_refs {content tomb : Slot} (found : content.gravestone? = some tomb)
    : tomb.refs = 0 := by
  cases content with
  | uninit => cases found
  | view kind slice => cases found
  | owned kind slice => cases found; rfl
  | array elements => cases found; rfl
  | bytes buffers => cases found; rfl

/-- The stamp of the construction covers what one owned slice releases. -/
theorem Owned.releases_stamped {next : Nat} {issued : Multiset Release}
    (stamped : Stamped Release.origin next issued) {content : Owned}
    (fresh : content.origin = next)
    : Stamped Release.origin (next + 1) (issued + (content.releases : Multiset Release)) := by
  unfold Owned.releases
  cases content.slice.dropCall with
  | none =>
      simp only [Option.map_none, Option.toList_none, Multiset.coe_nil, add_zero]
      exact stamped.skip (Nat.le_succ next)
  | some call =>
      simp only [Option.map_some, Option.toList_some, Multiset.coe_singleton]
      exact stamped.issue fresh

namespace SliceStore

variable {store next : SliceStore}

/-- What the slots hold together with what was overwritten in them. -/
def tallySlots {τ : Type} (holds : Slot → Multiset τ) (store : SliceStore) : Multiset τ :=
  tally holds store.slots + tally holds store.forgotten

/-- Everything some slot, forgotten slot or shared slice still has to release. -/
def held (store : SliceStore) : Multiset Release :=
  tally Slot.holds store.slots
  + tally Slot.holds store.forgotten
  + SharedCells.owed Owned.owed store.shared

/-- What is still held together with what has been released. -/
def account (store : SliceStore) : Multiset Release :=
  store.held + store.calls

/-- Every reference to a shared slice that a slot or forgotten slot keeps. -/
def references (store : SliceStore) : Multiset Nat :=
  tally Slot.refs store.slots + tally Slot.refs store.forgotten

/-- Each reference count is the number of references, those in hand included. -/
def Counted (inHand : Multiset Nat) (store : SliceStore) : Prop :=
  Counts store.shared (store.references + inHand)

/-- Counting looks at the shared slices and at all references, in slots or in hand. -/
theorem Counted.moved {inHand later : Multiset Nat} (counted : store.Counted inHand)
    (references : next.references + later = store.references + inHand)
    (sameShared : next.shared = store.shared)
    : next.Counted later := by
  rw [Counted, sameShared, references]
  exact counted

-----------------------------------------------------------------------------------------
-- Slots: writing and taking
-----------------------------------------------------------------------------------------

/-- Writing a slot adds what the new content holds; the old content is only forgotten. -/
theorem construct_tally {τ : Type} (holds : Slot → Multiset τ) {dst : Nat} {content : Slot}
    (written : store.construct dst content = some next)
    : next.tallySlots holds = store.tallySlots holds + holds content := by
  obtain ⟨old, found, rfl⟩ := Option.map_eq_some_iff.mp written
  have exchanged := tally_set holds found content
  simp only [tallySlots, tally_append, tally_cons, tally_nil, add_zero]
  calc
    _ = (tally holds (store.slots.set dst content) + holds old)
        + tally holds store.forgotten := by ac_rfl
    _ = _ := by rw [exchanged]; ac_rfl

theorem construct_account {dst : Nat} {content : Slot}
    (written : store.construct dst content = some next)
    : next.account = store.account + content.holds := by
  have tallied := construct_tally Slot.holds written
  obtain ⟨old, _, rfl⟩ := Option.map_eq_some_iff.mp written
  simp only [tallySlots] at tallied
  simp only [account, held, tallied]
  ac_rfl

theorem construct_references {dst : Nat} {content : Slot}
    (written : store.construct dst content = some next)
    : next.references = store.references + content.refs :=
  construct_tally Slot.refs written

theorem construct_shared {dst : Nat} {content : Slot}
    (written : store.construct dst content = some next)
    : next.shared = store.shared ∧ next.next = store.next := by
  obtain ⟨old, found, rfl⟩ := Option.map_eq_some_iff.mp written
  exact ⟨rfl, rfl⟩

/-- References in hand become references of the slot that is written with them. -/
theorem construct_counted {dst : Nat} {content : Slot} {spent inHand : Multiset Nat}
    (counted : store.Counted (spent + inHand))
    (written : store.construct dst content = some next) (spends : content.refs = spent)
    : next.Counted inHand := by
  refine counted.moved ?_ (construct_shared written).1
  rw [construct_references written, spends, add_assoc]

/-- Content without references leaves the counts as they were. -/
theorem construct_counted_blank {dst : Nat} {content : Slot} {inHand : Multiset Nat}
    (written : store.construct dst content = some next) (blank : content.refs = 0)
    (counted : store.Counted inHand)
    : next.Counted inHand :=
  construct_counted (by rw [zero_add]; exact counted) written blank

/-- What a take reads, and that it moves the content out of the slots into the hand. -/
theorem takeContent_tally {τ : Type} (holds : Slot → Multiset τ) {src : Nat} {content : Slot}
    (blank : ∀ {tomb : Slot}, content.gravestone? = some tomb → holds tomb = 0)
    (taken : store.takeContent src = some (content, next))
    : next.tallySlots holds + holds content = store.tallySlots holds := by
  simp only [takeContent, Option.bind_eq_bind, Option.bind_eq_some_iff, Option.some.injEq,
    Prod.mk.injEq] at taken
  obtain ⟨old, found, tomb, buried, rfl, rfl⟩ := taken
  have exchanged := tally_set holds found tomb
  rw [blank buried, add_zero] at exchanged
  simp only [tallySlots, ← exchanged]
  ac_rfl

theorem takeContent_cases {src : Nat} {content : Slot}
    (taken : store.takeContent src = some (content, next))
    : next.account + content.holds = store.account
      ∧ next.references + content.refs = store.references
      ∧ next.shared = store.shared
      ∧ next.next = store.next := by
  have tallied := takeContent_tally Slot.holds Slot.gravestone?_holds taken
  have references := takeContent_tally Slot.refs Slot.gravestone?_refs taken
  simp only [takeContent, Option.bind_eq_bind, Option.bind_eq_some_iff, Option.some.injEq,
    Prod.mk.injEq] at taken
  obtain ⟨old, found, tomb, buried, rfl, rfl⟩ := taken
  refine ⟨?_, references, rfl, rfl⟩
  simp only [tallySlots] at tallied
  simp only [account, held, ← tallied]
  ac_rfl

theorem takeContent_counted {src : Nat} {content : Slot} {inHand : Multiset Nat}
    (counted : store.Counted inHand)
    (taken : store.takeContent src = some (content, next))
    : next.Counted (content.refs + inHand) := by
  obtain ⟨_, moved, sameShared, _⟩ := takeContent_cases taken
  refine counted.moved ?_ sameShared
  rw [← add_assoc, moved]

/-- The inline take moves the source's content to the destination, also onto itself. -/
theorem take_tally {τ : Type} (holds : Slot → Multiset τ) {dst src : Nat}
    (blank : ∀ {content tomb : Slot}, content.gravestone? = some tomb → holds tomb = 0)
    (taken : store.take dst src = some next)
    : next.tallySlots holds = store.tallySlots holds := by
  simp only [take, Option.bind_eq_bind, Option.bind_eq_some_iff, Option.some.injEq] at taken
  obtain ⟨content, source, tomb, buried, old, target, rfl⟩ := taken
  have now : (store.slots.set dst content)[src]? = some content := by
    by_cases same : dst = src
    · subst same
      exact List.getElem?_set_self (List.getElem?_eq_some_iff.mp source).1
    · rw [List.getElem?_set_ne same, source]
  have moved := tally_set holds target content
  have cleared := tally_set holds now tomb
  rw [blank buried, add_zero] at cleared
  rw [← cleared, add_right_comm] at moved
  simp only [tallySlots, tally_append, tally_cons, tally_nil, add_zero]
  rw [← add_right_cancel moved]
  ac_rfl

theorem take_cases {dst src : Nat} (taken : store.take dst src = some next)
    : next.account = store.account
      ∧ next.references = store.references
      ∧ next.shared = store.shared
      ∧ next.next = store.next := by
  have tallied := take_tally Slot.holds Slot.gravestone?_holds taken
  have references := take_tally Slot.refs Slot.gravestone?_refs taken
  simp only [take, Option.bind_eq_bind, Option.bind_eq_some_iff, Option.some.injEq] at taken
  obtain ⟨content, source, tomb, buried, old, target, rfl⟩ := taken
  refine ⟨?_, references, rfl, rfl⟩
  simp only [tallySlots] at tallied
  simp only [account, held, tallied]

-----------------------------------------------------------------------------------------
-- Dropping contents
-----------------------------------------------------------------------------------------

theorem dropOwned_account (store : SliceStore) (content : Owned)
    : (store.dropOwned content).account
      = store.account + (content.releases : Multiset Release) := by
  simp only [account, held, dropOwned, ← Multiset.coe_add]
  ac_rfl

theorem dropOwned_counted {content : Owned} {inHand : Multiset Nat}
    (counted : store.Counted inHand)
    : (store.dropOwned content).Counted inHand :=
  counted

/-- Dropping a string array drops its elements, by induction on them. -/
theorem dropElements_cases (elements : List Owned) (store : SliceStore)
    {inHand : Multiset Nat} (counted : store.Counted inHand)
    : (elements.foldl dropOwned store).account
        = store.account
          + tally (fun element => (element.releases : Multiset Release)) elements
      ∧ (elements.foldl dropOwned store).Counted inHand
      ∧ (elements.foldl dropOwned store).next = store.next := by
  induction elements generalizing store with
  | nil => exact ⟨by simp, counted, rfl⟩
  | cons element rest ih =>
      obtain ⟨accounted, kept, same⟩ := ih (store.dropOwned element)
        (dropOwned_counted counted)
      refine ⟨?_, kept, same⟩
      rw [List.foldl_cons, accounted, dropOwned_account, tally_cons, add_assoc]

theorem releaseBuffer_eq (store : SliceStore) (buffer : Nat)
    : store.releaseBuffer buffer
      = (SharedCells.release store.shared buffer).1.elim
          { store with shared := (SharedCells.release store.shared buffer).2 }
          fun content =>
            { store with
              shared := (SharedCells.release store.shared buffer).2 }.dropOwned content := by
  unfold releaseBuffer SharedCells.release
  cases store.shared[buffer]? with
  | none => rfl
  | some cell =>
      by_cases last : cell.refs = 1
      · simp only [last, BEq.rfl, if_true, Option.elim_some]
      · simp only [last, beq_iff_eq, if_false, Option.elim_none]

/-- Giving back one reference keeps the account: the last one turns what the shared slice
held into calls.
-/
theorem releaseBuffer_cases {buffer : Nat} {inHand : Multiset Nat}
    (counted : store.Counted ({buffer} + inHand))
    : (store.releaseBuffer buffer).account = store.account
      ∧ (store.releaseBuffer buffer).Counted inHand
      ∧ (store.releaseBuffer buffer).next = store.next := by
  have handed : Counts store.shared (store.references + inHand + {buffer}) := by
    rw [add_assoc, add_comm inHand]
    exact counted
  have recounted
      : { store with shared := (SharedCells.release store.shared buffer).2 }.Counted inHand :=
    handed.release
  have accounted
      : { store with shared := (SharedCells.release store.shared buffer).2 }.account
          + (SharedCells.release store.shared buffer).1.elim 0 Owned.owed
        = store.account := by
    simp only [account, held, ← handed.owed_release Owned.owed]
    ac_rfl
  rw [releaseBuffer_eq]
  cases released : (SharedCells.release store.shared buffer).1 with
  | none =>
      rw [released, Option.elim_none, add_zero] at accounted
      exact ⟨accounted, recounted, rfl⟩
  | some content =>
      rw [released, Option.elim_some] at accounted
      exact ⟨(dropOwned_account _ content).trans accounted, recounted, rfl⟩

/-- Taking one more reference to a slice that is already referred to keeps the account. -/
theorem retainBuffer_cases {buffer : Nat} {inHand : Multiset Nat}
    (counted : store.Counted inHand) (refers : buffer ∈ store.references)
    : (store.retainBuffer buffer).account = store.account
      ∧ (store.retainBuffer buffer).Counted ({buffer} + inHand)
      ∧ (store.retainBuffer buffer).references = store.references
      ∧ (store.retainBuffer buffer).next = store.next := by
  have retained
      : store.retainBuffer buffer
        = { store with shared := SharedCells.retain store.shared buffer } := by
    unfold retainBuffer SharedCells.retain
    cases store.shared[buffer]? <;> rfl
  have inside : buffer ∈ store.references + inHand := Multiset.mem_add.mpr (Or.inl refers)
  rw [retained]
  refine ⟨?_, ?_, rfl, rfl⟩
  · simp only [account, held, counted.owed_retain Owned.owed inside]
  · have recounted := counted.retain inside
    rw [add_assoc, add_comm inHand] at recounted
    exact recounted

/-- Dropping a bytes value gives back its references, by induction on them. -/
theorem releaseBuffers_cases (buffers : List Nat) (store : SliceStore)
    {inHand : Multiset Nat} (counted : store.Counted ((buffers : Multiset Nat) + inHand))
    : (buffers.foldl releaseBuffer store).account = store.account
      ∧ (buffers.foldl releaseBuffer store).Counted inHand
      ∧ (buffers.foldl releaseBuffer store).next = store.next := by
  induction buffers generalizing store with
  | nil =>
      rw [Multiset.coe_nil, zero_add] at counted
      exact ⟨rfl, counted, rfl⟩
  | cons buffer rest ih =>
      rw [← Multiset.cons_coe, ← Multiset.singleton_add, add_assoc] at counted
      obtain ⟨accounted, recounted, same⟩ := releaseBuffer_cases counted
      obtain ⟨laterAccounted, laterCounted, laterSame⟩ := ih _ recounted
      exact ⟨laterAccounted.trans accounted, laterCounted, laterSame.trans same⟩

/-- Cloning a bytes value retains each of its slices, by induction on them. -/
theorem retainBuffers_cases (buffers : List Nat) (store : SliceStore)
    {inHand : Multiset Nat} (counted : store.Counted inHand)
    (refer : ∀ buffer ∈ buffers, buffer ∈ store.references)
    : (buffers.foldl retainBuffer store).account = store.account
      ∧ (buffers.foldl retainBuffer store).Counted ((buffers : Multiset Nat) + inHand)
      ∧ (buffers.foldl retainBuffer store).next = store.next := by
  induction buffers generalizing store inHand with
  | nil => exact ⟨rfl, by simpa using counted, rfl⟩
  | cons buffer rest ih =>
      obtain ⟨accounted, recounted, sameRefs, same⟩ :=
        retainBuffer_cases counted (refer buffer List.mem_cons_self)
      obtain ⟨laterAccounted, laterCounted, laterSame⟩ := ih _ recounted
        (fun other member => sameRefs ▸ refer other (List.mem_cons_of_mem buffer member))
      refine ⟨laterAccounted.trans accounted, ?_, laterSame.trans same⟩
      have reordered : ((buffer :: rest : List Nat) : Multiset Nat) + inHand
          = (rest : Multiset Nat) + ({buffer} + inHand) := by
        rw [← Multiset.cons_coe, ← Multiset.singleton_add]
        ac_rfl
      rw [reordered]
      exact laterCounted

/-- The generated `Drop` releases what the content in hand held and its references. -/
theorem dropContent_cases (content : Slot) (store : SliceStore) {inHand : Multiset Nat}
    (counted : store.Counted (content.refs + inHand))
    : (store.dropContent content).account = store.account + content.holds
      ∧ (store.dropContent content).Counted inHand
      ∧ (store.dropContent content).next = store.next := by
  cases content with
  | uninit =>
      simp only [Slot.refs, zero_add] at counted
      exact ⟨(add_zero _).symm, counted, rfl⟩
  | view kind slice =>
      simp only [Slot.refs, zero_add] at counted
      exact ⟨(add_zero _).symm, counted, rfl⟩
  | owned kind slice =>
      simp only [Slot.refs, zero_add] at counted
      exact ⟨dropOwned_account store slice, dropOwned_counted counted, rfl⟩
  | array elements =>
      simp only [Slot.refs, zero_add] at counted
      exact dropElements_cases elements store counted
  | bytes buffers =>
      obtain ⟨accounted, recounted, same⟩ := releaseBuffers_cases buffers store counted
      exact ⟨accounted.trans (add_zero _).symm, recounted, same⟩

/-- Wrapping an owned slice into a bytes value raises the account by its releases: they
are held by the new shared slice, or already called when the slice is empty.
-/
theorem zbytesFrom_cases {content : Owned} {buffers : List Nat} {inHand : Multiset Nat}
    (counted : store.Counted inHand) (made : store.zbytesFrom content = (buffers, next))
    : next.account = store.account + (content.releases : Multiset Release)
      ∧ next.Counted ((buffers : Multiset Nat) + inHand)
      ∧ next.next = store.next := by
  unfold zbytesFrom at made
  split at made
  · obtain ⟨rfl, rfl⟩ := Prod.mk.injEq .. ▸ made
    exact ⟨dropOwned_account store content, by simpa using dropOwned_counted counted, rfl⟩
  · obtain ⟨rfl, rfl⟩ := Prod.mk.injEq .. ▸ made
    refine ⟨?_, ?_, rfl⟩
    · simp only [account, held]
      rw [← SharedCells.share, SharedCells.owed_share, Owned.owed]
      ac_rfl
    · have shared := counted.share content
      rw [add_assoc, add_comm inHand] at shared
      exact shared

end SliceStore

end ZenohC
