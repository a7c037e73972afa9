import ZenohC.Shm.Contexts

/-! The life cycle of a context that is passed by value: who holds it, and when it is deleted.
Every step is a move between the owners of a store and the hand of the running call, so that
the ledger of a store loses a context only where a raw struct goes out of scope.
-/

namespace ZenohC

open Library
open Library.SharedCells (Counts)

/-- The context that goes away with an owner, if there is one. -/
def ShmBelongings.contexts (belongings : ShmBelongings) : Multiset PassedContext :=
  belongings.context.toList

/-- The segment whose count goes down with an owner, if there is one. -/
def ShmBelongings.refs (belongings : ShmBelongings) : Multiset Nat :=
  (belongings.ptr.map PtrInSegment.segment).toList

@[simp]
theorem ShmBelongings.contexts_nothing : ShmBelongings.nothing.contexts = 0 :=
  rfl

@[simp]
theorem ShmBelongings.refs_nothing : ShmBelongings.nothing.refs = 0 :=
  rfl

theorem ShmKind.gravestone_belongings (kind : ShmKind)
    : kind.gravestone.belongings = .nothing := by
  cases kind <;> rfl

theorem ShmPlace.belongings_chunk (ptr : Option (PtrInSegment Nat))
    : ShmPlace.belongings (ptr.map .chunk) = { context := none, ptr } := by
  cases ptr <;> rfl

/-- The context that an event deleted. -/
def ContextEvent.deleted? : ContextEvent → Option PassedContext
  | .callback _ => none
  | .delete content => some content

/-- A deletion is not followed by a callback with the same context. -/
def ContextEvent.InOrder (earlier later : ContextEvent) : Prop :=
  ∀ content, earlier = .delete content → later ≠ .callback content

namespace ShmStore

variable {store next : ShmStore} {hand issued lost : Multiset PassedContext}
  {refs : Multiset Nat} {content : PassedContext}

-----------------------------------------------------------------------------------------
-- Owners
-----------------------------------------------------------------------------------------

/-- All that own something: slots, what was overwritten in them, and the places of Rust. -/
def owners (store : ShmStore) : List ShmBelongings :=
  store.slots.map ShmSlot.belongings
  ++ store.forgotten.map ShmSlot.belongings
  ++ store.places.map ShmPlace.belongings

/-- Replacing a slot exchanges what the two contents own. -/
theorem setSlot_owners {τ : Type} (holds : ShmBelongings → Multiset τ) {index : Nat}
    {old : ShmSlot} (found : store.slots[index]? = some old) (new : ShmSlot)
    : tally holds { store with slots := store.slots.set index new }.owners
        + holds old.belongings
      = tally holds store.owners + holds new.belongings := by
  have mapped : (store.slots.map ShmSlot.belongings)[index]? = some old.belongings := by
    rw [List.getElem?_map, found, Option.map_some]
  have exchanged := tally_set holds mapped new.belongings
  simp only [owners, tally_append, List.map_set]
  calc
    _ = (tally holds ((store.slots.map ShmSlot.belongings).set index new.belongings)
          + holds old.belongings)
        + tally holds (store.forgotten.map ShmSlot.belongings)
        + tally holds (store.places.map ShmPlace.belongings) := by ac_rfl
    _ = _ := by rw [exchanged]; ac_rfl

theorem setPlace_owners {τ : Type} (holds : ShmBelongings → Multiset τ) {index : Nat}
    {old : Option ShmPlace} (found : store.places[index]? = some old) (new : Option ShmPlace)
    : tally holds { store with places := store.places.set index new }.owners
        + holds (ShmPlace.belongings old)
      = tally holds store.owners + holds (ShmPlace.belongings new) := by
  have mapped
      : (store.places.map ShmPlace.belongings)[index]? = some (ShmPlace.belongings old) := by
    rw [List.getElem?_map, found, Option.map_some]
  have exchanged := tally_set holds mapped (ShmPlace.belongings new)
  simp only [owners, tally_append, List.map_set]
  rw [add_assoc, exchanged, ← add_assoc]

theorem addPlace_owners {τ : Type} (holds : ShmBelongings → Multiset τ) (new : Option ShmPlace)
    : tally holds { store with places := store.places ++ [new] }.owners
      = tally holds store.owners + holds (ShmPlace.belongings new) := by
  simp only [owners, List.map_append, List.map_cons, List.map_nil, tally_append, tally_cons,
    tally_nil, add_zero, add_assoc]

theorem forget_owners {τ : Type} (store : ShmStore) (holds : ShmBelongings → Multiset τ)
    (old : ShmSlot)
    : tally holds { store with forgotten := store.forgotten ++ [old] }.owners
      = tally holds store.owners + holds old.belongings := by
  simp only [owners, List.map_append, List.map_cons, List.map_nil, tally_append, tally_cons,
    tally_nil, add_zero]
  ac_rfl

/-- Overwriting a slot adds an owner: the old content is only forgotten. -/
theorem construct_owners {τ : Type} (holds : ShmBelongings → Multiset τ) {dst : Nat}
    {content : ShmSlot} (written : store.construct dst content = some next)
    : tally holds next.owners = tally holds store.owners + holds content.belongings := by
  obtain ⟨old, found, rfl⟩ := Option.map_eq_some_iff.mp written
  have exchanged := setSlot_owners holds found content
  have forgotten :=
    forget_owners { store with slots := store.slots.set dst content } holds old
  rw [exchanged] at forgotten
  exact forgotten

theorem takeContent_cases {src : Nat} {content : ShmSlot}
    (taken : store.takeContent src = some (content, next))
    : ∃ kind,
        store.slots[src]? = some content
        ∧ content.kind? = some kind
        ∧ next = { store with slots := store.slots.set src kind.gravestone } := by
  simp only [takeContent, Option.bind_eq_bind, Option.bind_eq_some_iff, Option.some.injEq,
    Prod.mk.injEq] at taken
  obtain ⟨content, found, kind, typed, rfl, rfl⟩ := taken
  exact ⟨kind, found, typed, rfl⟩

-----------------------------------------------------------------------------------------
-- The ledger of a store
-----------------------------------------------------------------------------------------

/-- The contexts that some owner still keeps, by itself or through a segment. -/
def held (store : ShmStore) : Multiset PassedContext :=
  tally ShmBelongings.contexts store.owners + SharedCells.owed ({·}) store.segments

def references (store : ShmStore) : Multiset Nat :=
  tally ShmBelongings.refs store.owners

def deleted (store : ShmStore) : Multiset PassedContext :=
  store.log.filterMap ContextEvent.deleted?

/-- What is held, what has been deleted and what has been left behind. -/
def account (store : ShmStore) : Multiset PassedContext :=
  store.held + store.deleted + store.stranded

/-- What an owner keeps by itself is held. -/
theorem mem_held_of_owner {owner : ShmBelongings} (member : owner ∈ store.owners)
    (keeps : content ∈ owner.contexts)
    : content ∈ store.held :=
  Multiset.mem_add.mpr (Or.inl (mem_tally.mpr ⟨owner, member, keeps⟩))

theorem deleted?_eq_some_iff {event : ContextEvent}
    : event.deleted? = some content ↔ event = .delete content := by
  cases event <;> simp [ContextEvent.deleted?]

theorem mem_deleted_iff : content ∈ store.deleted ↔ .delete content ∈ store.log :=
  mem_released fun _ => deleted?_eq_some_iff

/-- The log lists the deletion of a context as often as the context was deleted. -/
theorem count_deleted (content : PassedContext)
    : store.deleted.count content = store.log.count (.delete content) :=
  count_released (fun _ => deleted?_eq_some_iff) store.log

/-- The state of the books in the middle of a call: `hand` and `refs` are the contexts and the
references that the call has taken and not yet passed on.
-/
structure Ledger (store : ShmStore) (hand : Multiset PassedContext) (refs : Multiset Nat)
    (issued lost : Multiset PassedContext)
    : Prop where
  counted : Counts store.segments (store.references + refs)
  conserved : store.account + hand = issued
  leftBehind : (store.stranded : Multiset PassedContext) = lost
  stamped : Stamped PassedContext.origin store.next issued
  ordered : store.log.Pairwise ContextEvent.InOrder

namespace Ledger

/-- A step that only rearranges owners moves their belongings from or into the hand. -/
theorem move {given : Multiset PassedContext} {givenRefs : Multiset Nat}
    (ledger : store.Ledger hand refs issued lost)
    (frame
      : next
        = { store with
            slots := next.slots, forgotten := next.forgotten, places := next.places })
    (contexts
      : tally ShmBelongings.contexts next.owners + given
        = tally ShmBelongings.contexts store.owners + hand)
    (references
      : tally ShmBelongings.refs next.owners + givenRefs
        = tally ShmBelongings.refs store.owners + refs)
    : next.Ledger given givenRefs issued lost := by
  have sameSegments : next.segments = store.segments := by rw [frame]
  have sameNext : next.next = store.next := by rw [frame]
  have sameStranded : next.stranded = store.stranded := by rw [frame]
  have sameLog : next.log = store.log := by rw [frame]
  refine ⟨?_, ?_, ?_, ?_, ?_⟩
  · rw [sameSegments, ShmStore.references, references]
    exact ledger.counted
  · rw [← ledger.conserved]
    simp only [account, held, deleted, sameSegments, sameStranded, sameLog]
    calc
      _ = (tally ShmBelongings.contexts next.owners + given)
          + SharedCells.owed ({·}) store.segments
          + (store.log.filterMap ContextEvent.deleted? : Multiset PassedContext)
          + (store.stranded : Multiset PassedContext) := by ac_rfl
      _ = _ := by rw [contexts]; ac_rfl
  · rw [sameStranded]
    exact ledger.leftBehind
  · rw [sameNext]
    exact ledger.stamped
  · rw [sameLog]
    exact ledger.ordered

/-- A context that arrives by value is in the hand of the call. -/
theorem pass (ledger : store.Ledger hand refs issued lost) (value : ZcContext)
    : (store.pass value).2.Ledger (hand + {(store.pass value).1}) refs
        (issued + {(store.pass value).1}) lost := by
  refine ⟨ledger.counted, ?_, ledger.leftBehind, ledger.stamped.issue rfl, ledger.ordered⟩
  rw [← ledger.conserved, ← add_assoc]
  rfl

theorem construct {dst : Nat} {content : ShmSlot}
    (ledger
      : store.Ledger (hand + content.belongings.contexts) (refs + content.belongings.refs)
          issued lost)
    (written : store.construct dst content = some next)
    : next.Ledger hand refs issued lost := by
  refine ledger.move ?_ ?_ ?_
  · obtain ⟨old, _, rfl⟩ := Option.map_eq_some_iff.mp written
    rfl
  · rw [construct_owners _ written]
    ac_rfl
  · rw [construct_owners _ written]
    ac_rfl

/-- Writing something that owns nothing leaves the hand alone. -/
theorem constructBlank {dst : Nat} {content : ShmSlot}
    (ledger : store.Ledger hand refs issued lost)
    (written : store.construct dst content = some next)
    (blank : content.belongings = .nothing)
    : next.Ledger hand refs issued lost := by
  refine Ledger.construct ?_ written
  rw [blank, ShmBelongings.contexts_nothing, ShmBelongings.refs_nothing, add_zero, add_zero]
  exact ledger

theorem constructContext {dst : Nat} {slot : ShmSlot}
    (ledger : store.Ledger (hand + {content}) refs issued lost)
    (written : store.construct dst slot = some next)
    (owned : slot.belongings = { context := some content, ptr := none })
    : next.Ledger hand refs issued lost := by
  refine Ledger.construct ?_ written
  have nothing : slot.belongings.refs = 0 := by
    rw [owned]
    rfl
  have context : slot.belongings.contexts = {content} := by
    rw [owned]
    rfl
  rw [nothing, context, add_zero]
  exact ledger

theorem constructPtr {dst : Nat} {slot : ShmSlot} {ptr : PtrInSegment Nat}
    (ledger : store.Ledger hand (refs + {ptr.segment}) issued lost)
    (written : store.construct dst slot = some next)
    (owned : slot.belongings = { context := none, ptr := some ptr })
    : next.Ledger hand refs issued lost := by
  refine Ledger.construct ?_ written
  have nothing : slot.belongings.contexts = 0 := by
    rw [owned]
    rfl
  have reference : slot.belongings.refs = {ptr.segment} := by
    rw [owned]
    rfl
  rw [nothing, reference, add_zero]
  exact ledger

theorem takeContent {src : Nat} {content : ShmSlot}
    (ledger : store.Ledger hand refs issued lost)
    (taken : store.takeContent src = some (content, next))
    : next.Ledger (hand + content.belongings.contexts) (refs + content.belongings.refs)
        issued lost := by
  obtain ⟨kind, found, _, rfl⟩ := takeContent_cases taken
  have contexts := setSlot_owners ShmBelongings.contexts found kind.gravestone
  have references := setSlot_owners ShmBelongings.refs found kind.gravestone
  rw [kind.gravestone_belongings, ShmBelongings.contexts_nothing, add_zero] at contexts
  rw [kind.gravestone_belongings, ShmBelongings.refs_nothing, add_zero] at references
  refine ledger.move rfl ?_ ?_
  · rw [← contexts]
    ac_rfl
  · rw [← references]
    ac_rfl

theorem dropContext (ledger : store.Ledger (hand + {content}) refs issued lost)
    : (store.dropContext content).Ledger hand refs issued lost := by
  refine ⟨ledger.counted, ?_, ledger.leftBehind, ledger.stamped, ?_⟩
  · rw [← ledger.conserved]
    simp only [account, held, deleted, ShmStore.dropContext, owners, List.filterMap_append,
      List.filterMap_cons, ContextEvent.deleted?, List.filterMap_nil, ← Multiset.coe_add,
      Multiset.coe_singleton]
    ac_rfl
  · -- a deletion may follow anything
    refine ordered_push ledger.ordered ?_
    intro earlier _ other _ isCallback
    cases isCallback

/-- The raw struct goes out of scope, and nobody will delete its context any more. -/
theorem dropRaw (ledger : store.Ledger (hand + {content}) refs issued lost)
    : (store.dropRaw content).Ledger hand refs issued (lost + {content}) := by
  refine ⟨ledger.counted, ?_, ?_, ledger.stamped, ledger.ordered⟩
  · rw [← ledger.conserved]
    simp only [account, held, deleted, ShmStore.dropRaw, owners, ← Multiset.coe_add,
      Multiset.coe_singleton]
    ac_rfl
  · rw [← ledger.leftBehind]
    simp only [ShmStore.dropRaw, ← Multiset.coe_add, Multiset.coe_singleton]

/-- A context that somebody still holds has not been deleted. -/
theorem not_deleted (ledger : store.Ledger hand refs issued lost)
    (member : content ∈ store.held + hand)
    : content ∉ store.deleted := by
  intro released
  have distinct := ledger.stamped.nodup
  rw [← ledger.conserved, account] at distinct
  have apart : (store.held + hand + (store.deleted + store.stranded)).Nodup := by
    have same
        : store.held + hand + (store.deleted + store.stranded)
          = store.held + store.deleted + store.stranded + hand := by ac_rfl
    rw [same]
    exact distinct
  exact Multiset.disjoint_left.mp (Multiset.nodup_add.mp apart).2.2 member
    (Multiset.mem_add.mpr (Or.inl released))

theorem runCallback (ledger : store.Ledger hand refs issued lost)
    (member : content ∈ store.held + hand)
    : (store.runCallback content).Ledger hand refs issued lost := by
  refine ⟨ledger.counted, ?_, ledger.leftBehind, ledger.stamped, ?_⟩
  · rw [← ledger.conserved]
    simp only [account, held, deleted, ShmStore.runCallback, owners, List.filterMap_append,
      List.filterMap_cons, ContextEvent.deleted?, List.filterMap_nil, List.append_nil]
  · refine ordered_push ledger.ordered ?_
    intro earlier logged other isDelete isCallback
    cases isCallback
    cases isDelete
    exact ledger.not_deleted member (mem_deleted_iff.mpr logged)

/-- Dropping a reference deletes the context of the segment with the last of them. -/
theorem dropPtr {ptr : PtrInSegment Nat}
    (ledger : store.Ledger hand (refs + {ptr.segment}) issued lost)
    : (store.dropPtr ptr).Ledger hand refs issued lost := by
  have counted : Counts store.segments (store.references + refs + {ptr.segment}) := by
    rw [add_assoc]
    exact ledger.counted
  have owed := counted.owed_release (fun content => ({content} : Multiset PassedContext))
  have rest
      : { store with segments := (SharedCells.release store.segments ptr.segment).2 }.Ledger
          (hand + (SharedCells.release store.segments ptr.segment).1.elim 0 ({·}))
          refs issued lost := by
    refine ⟨counted.release, ?_, ledger.leftBehind, ledger.stamped, ledger.ordered⟩
    rw [← ledger.conserved]
    simp only [account, held, deleted, owners, ← owed]
    ac_rfl
  simp only [ShmStore.dropPtr]
  cases released : (SharedCells.release store.segments ptr.segment).1 with
  | none =>
      rw [released, Option.elim_none, add_zero] at rest
      exact rest
  | some content =>
      rw [released, Option.elim_some] at rest
      exact rest.dropContext

theorem dropBelongings {belongings : ShmBelongings}
    (ledger : store.Ledger (hand + belongings.contexts) (refs + belongings.refs) issued lost)
    : (store.dropBelongings belongings).Ledger hand refs issued lost := by
  obtain ⟨context, ptr⟩ := belongings
  have rest
      : (context.elim store store.dropContext).Ledger
          hand (refs + (ShmBelongings.mk context ptr).refs) issued lost := by
    cases context with
    | none => exact (add_zero hand) ▸ ledger
    | some content => exact ledger.dropContext
  have parts : store.dropBelongings ⟨context, ptr⟩
      = ptr.elim (context.elim store store.dropContext)
          (context.elim store store.dropContext).dropPtr := by
    cases context <;> cases ptr <;> rfl
  rw [parts]
  cases ptr with
  | none => exact (add_zero refs) ▸ rest
  | some ptr => exact rest.dropPtr

/-- The first pointer into a segment takes the context of the segment over. -/
theorem share (ledger : store.Ledger (hand + {content}) refs issued lost)
    : { store with segments := SharedCells.share store.segments content }.Ledger
        hand (refs + {store.segments.length}) issued lost := by
  refine ⟨?_, ?_, ledger.leftBehind, ledger.stamped, ledger.ordered⟩
  · rw [← add_assoc]
    exact ledger.counted.share content
  · rw [← ledger.conserved]
    simp only [account, held, deleted, owners, SharedCells.owed_share]
    ac_rfl

theorem retain {ptr : PtrInSegment Nat} (ledger : store.Ledger hand refs issued lost)
    (refers : ptr.segment ∈ store.references + refs)
    : { store with segments := SharedCells.retain store.segments ptr.segment }.Ledger
        hand (refs + {ptr.segment}) issued lost := by
  refine ⟨?_, ?_, ledger.leftBehind, ledger.stamped, ledger.ordered⟩
  · rw [← add_assoc]
    exact ledger.counted.retain refers
  · rw [← ledger.conserved]
    simp only [account, held, deleted, owners, ledger.counted.owed_retain _ refers]

theorem addPlace {new : Option ShmPlace}
    (ledger
      : store.Ledger (hand + (ShmPlace.belongings new).contexts)
          (refs + (ShmPlace.belongings new).refs) issued lost)
    : { store with places := store.places ++ [new] }.Ledger hand refs issued lost := by
  refine ledger.move rfl ?_ ?_
  · rw [addPlace_owners]
    ac_rfl
  · rw [addPlace_owners]
    ac_rfl

/-- Replacing a place by one that owns the same moves nothing. -/
theorem setPlace {place : Nat} {old new : Option ShmPlace}
    (ledger : store.Ledger hand refs issued lost) (found : store.places[place]? = some old)
    (same : ShmPlace.belongings old = ShmPlace.belongings new)
    : { store with places := store.places.set place new }.Ledger hand refs issued lost := by
  have kept {τ : Type} (holds : ShmBelongings → Multiset τ)
      : tally holds { store with places := store.places.set place new }.owners
          = tally holds store.owners := by
    have exchanged := setPlace_owners holds found new
    rw [same] at exchanged
    exact add_right_cancel exchanged
  refine ledger.move rfl ?_ ?_
  · rw [kept]
  · rw [kept]

theorem takePlace {place : Nat} {old : Option ShmPlace}
    (ledger : store.Ledger hand refs issued lost) (found : store.places[place]? = some old)
    : { store with places := store.places.set place none }.Ledger
        (hand + (ShmPlace.belongings old).contexts) (refs + (ShmPlace.belongings old).refs)
        issued lost := by
  have contexts := setPlace_owners ShmBelongings.contexts found none
  have references := setPlace_owners ShmBelongings.refs found none
  have blank : ShmPlace.belongings none = .nothing := rfl
  rw [blank, ShmBelongings.contexts_nothing, add_zero] at contexts
  rw [blank, ShmBelongings.refs_nothing, add_zero] at references
  refine ledger.move rfl ?_ ?_
  · rw [← contexts]
    ac_rfl
  · rw [← references]
    ac_rfl

end Ledger

-----------------------------------------------------------------------------------------
-- What the operations move
-----------------------------------------------------------------------------------------

/-- The context that an operation passes by value. -/
def passes (store : ShmStore) : ShmOperation → Multiset PassedContext
  | .zShmProviderNew _ context | .zShmProviderThreadsafeNew _ context
  | .zPtrInSegmentNew _ _ context | .zShmProviderAllocGcDefragAsync _ context
  | .zPrecomputedLayoutThreadsafeAllocGcDefragAsync _ context =>
      {(store.pass context).1}
  | _ => 0

/-- The context that goes to an asynchronous allocation for the layout of a provider that is
not thread-safe.
-/
def strands (store : ShmStore) : ShmOperation → Multiset PassedContext
  | .zPrecomputedLayoutThreadsafeAllocGcDefragAsync layout context =>
      match store.layoutAt layout with
      | some (.dynamic _) => {(store.pass context).1}
      | _ => 0
  | _ => 0

variable {code : ZResult}

/-- A take copies the content and then nulls the source; in between it is owned twice. -/
theorem take_cases {dst src : Nat} (taken : store.take dst src = some next)
    : ∃ content kind middle,
        store.construct dst content = some middle
        ∧ middle.slots[src]? = some content
        ∧ next = { middle with slots := middle.slots.set src (ShmKind.gravestone kind) } := by
  simp only [take, Option.bind_eq_bind, Option.bind_eq_some_iff, Option.some.injEq] at taken
  obtain ⟨content, found, kind, _, old, overwritten, rfl⟩ := taken
  have inside := (List.getElem?_eq_some_iff.mp overwritten).1
  have copied
      : store.construct dst content
        = some
            { store with
              slots := store.slots.set dst content
              forgotten := store.forgotten ++ [old] } := by
    simp only [construct, overwritten, Option.map_some]
  refine ⟨content, kind, _, copied, ?_, rfl⟩
  by_cases same : dst = src
  · rw [same] at inside ⊢
    exact List.getElem?_set_self inside
  · exact (List.getElem?_set_ne same).trans found

theorem take_ledger {dst src : Nat} (ledger : store.Ledger hand refs issued lost)
    (taken : store.take dst src = some next)
    : next.Ledger hand refs issued lost := by
  obtain ⟨content, kind, middle, copied, found, rfl⟩ := take_cases taken
  have moved {τ : Type} (holds : ShmBelongings → Multiset τ)
      (blank : holds .nothing = 0)
      : tally holds
            { middle with slots := middle.slots.set src (ShmKind.gravestone kind) }.owners
          = tally holds store.owners := by
    have nulled := setSlot_owners holds found kind.gravestone
    rw [construct_owners holds copied, kind.gravestone_belongings, blank, add_zero] at nulled
    exact add_right_cancel nulled
  refine ledger.move ?_ ?_ ?_
  · obtain ⟨old, _, rfl⟩ := Option.map_eq_some_iff.mp copied
    rfl
  · rw [moved ShmBelongings.contexts rfl]
  · rw [moved ShmBelongings.refs rfl]

theorem drop_ledger {target : Nat} (ledger : store.Ledger 0 0 issued lost)
    (dropped : store.drop target = some next)
    : next.Ledger 0 0 issued lost := by
  obtain ⟨⟨content, rest⟩, taken, rfl⟩ := Option.map_eq_some_iff.mp dropped
  exact (ledger.takeContent taken).dropBelongings

theorem providerAt_cases {slot : Nat} {found : CSHMProvider ProviderOf}
    (loaned : store.providerAt slot = some found)
    : store.slots[slot]? = some (.provider (some found)) := by
  unfold providerAt at loaned
  split at loaned
  · next content at_ =>
      rw [loaned] at at_
      exact at_
  · cases loaned

/-- The crate only calls back with the context of a provider that is still there. -/
theorem useBackend_ledger {provider : Nat} (ledger : store.Ledger hand refs issued lost)
    (used : store.useBackend provider = some next)
    : next.Ledger hand refs issued lost := by
  obtain ⟨found, loaned, rfl⟩ := Option.map_eq_some_iff.mp used
  cases context : found.context? with
  | none => exact ledger
  | some content =>
      refine ledger.runCallback (Multiset.mem_add.mpr (Or.inl ?_))
      have inside := List.mem_of_getElem? (providerAt_cases loaned)
      have owner : (ShmSlot.provider (some found)).belongings ∈ store.owners := by
        simp only [owners, List.append_assoc, List.mem_append]
        exact Or.inl (List.mem_map_of_mem inside)
      refine mem_held_of_owner owner ?_
      simp only [ShmSlot.belongings, ShmBelongings.contexts, context, Option.toList_some,
        Multiset.coe_singleton, Multiset.mem_singleton]

theorem useBackend_places {provider : Nat} (used : store.useBackend provider = some next)
    : next.places = store.places := by
  obtain ⟨found, _, rfl⟩ := Option.map_eq_some_iff.mp used
  cases found.context? <;> rfl

/-- A chunk that converts leaves its reference in the hand of the call. -/
theorem convertChunk_ledger {descriptpr : ZChunkDescriptor} {ptr : Nat}
    {chunk : Option (AllocatedChunk Nat)} (ledger : store.Ledger hand refs issued lost)
    (converted : store.convertChunk descriptpr ptr = some (chunk, next))
    : next.Ledger hand
        (refs + ((chunk.map fun chunk => chunk.data.segment).toList : Multiset Nat)) issued
        lost := by
  unfold convertChunk at converted
  split at converted
  · next content found =>
      have taken : store.takeContent ptr
          = some (.ptrInSegment content,
              { store with slots := store.slots.set ptr (.ptrInSegment none) }) := by
        simp only [ShmStore.takeContent, found, Option.bind_eq_bind, Option.bind_some,
          ShmSlot.kind?, ShmKind.gravestone]
      have ledger := ledger.takeContent taken
      rw [ZAllocatedChunk.tryInto_eq] at converted
      cases content with
      | none =>
          cases converted
          exact (add_zero refs).symm ▸ ledger.dropBelongings
      | some data =>
          cases valid : descriptpr.tryInto with
          | none =>
              simp only [Option.bind_some, valid, Option.map_none] at converted
              cases converted
              exact (add_zero refs).symm ▸ ledger.dropBelongings
          | some descriptor =>
              simp only [Option.bind_some, valid, Option.map_some] at converted
              cases converted
              exact (add_zero hand) ▸ ledger
  · cases converted

theorem declare_ledger (ledger : store.Ledger hand refs issued lost)
    : { store with slots := store.slots ++ [ShmSlot.uninit] }.Ledger hand refs issued lost := by
  have same {τ : Type} (holds : ShmBelongings → Multiset τ)
      (blank : holds ShmSlot.uninit.belongings = 0)
      : tally holds { store with slots := store.slots ++ [ShmSlot.uninit] }.owners
          = tally holds store.owners := by
    simp only [owners, List.map_append, List.map_cons, List.map_nil, tally_append, tally_cons,
      tally_nil, blank, add_zero]
  refine ledger.move rfl ?_ ?_
  · rw [same ShmBelongings.contexts rfl]
  · rw [same ShmBelongings.refs rfl]

theorem zPtrInSegmentNew_ledger {this : Nat} {ptr : Ptr} {segment : ZcContext}
    (ledger : store.Ledger 0 0 issued lost)
    (made : store.zPtrInSegmentNew this ptr segment = some next)
    : next.Ledger 0 0 (issued + {(store.pass segment).1}) lost :=
  (ledger.pass segment).share.constructPtr made rfl

theorem zPtrInSegmentClone_ledger {out this : Nat} (ledger : store.Ledger 0 0 issued lost)
    (cloned : store.zPtrInSegmentClone out this = some next)
    : next.Ledger 0 0 issued lost := by
  unfold zPtrInSegmentClone at cloned
  split at cloned
  · next ptr found =>
      have refers : ptr.segment ∈ store.references + 0 := by
        have owner
            : (ShmSlot.ptrInSegment (some ptr)).belongings ∈ store.owners := by
          simp only [owners, List.append_assoc, List.mem_append]
          exact Or.inl (List.mem_map_of_mem (List.mem_of_getElem? found))
        have inside : ptr.segment ∈ (ShmSlot.ptrInSegment (some ptr)).belongings.refs :=
          List.mem_singleton_self ptr.segment
        exact Multiset.mem_add.mpr (Or.inl (mem_tally.mpr ⟨_, owner, inside⟩))
      exact (ledger.retain refers).constructPtr cloned rfl
  · cases cloned

theorem zShmProviderMap_ledger {outResult provider : Nat} {descriptpr : ZChunkDescriptor}
    {ptr : Nat} {mapped : Except String Unit} (ledger : store.Ledger 0 0 issued lost)
    (ran : store.zShmProviderMap outResult provider descriptpr ptr mapped = some (code, next))
    : next.Ledger 0 0 issued lost := by
  simp only [zShmProviderMap, Option.bind_eq_bind, Option.bind_eq_some_iff] at ran
  obtain ⟨found, _, ⟨chunk, rest⟩, converted, ran⟩ := ran
  have ledger := convertChunk_ledger ledger converted
  cases chunk with
  | none =>
      cases ran
      exact (add_zero (0 : Multiset Nat)) ▸ ledger
  | some chunk =>
      cases mapped with
      | ok done =>
          obtain ⟨written, _⟩ := map_code_eq_some_iff.mp ran
          exact Ledger.constructPtr ledger written rfl
      | error text =>
          cases ran
          exact ledger.dropPtr

theorem zChunkAllocResultNewOk_ledger {this : Nat} {descriptpr : ZChunkDescriptor} {ptr : Nat}
    (ledger : store.Ledger 0 0 issued lost)
    (ran : store.zChunkAllocResultNewOk this descriptpr ptr = some (code, next))
    : next.Ledger 0 0 issued lost := by
  simp only [zChunkAllocResultNewOk, Option.bind_eq_bind, Option.bind_eq_some_iff] at ran
  obtain ⟨⟨chunk, rest⟩, converted, ran⟩ := ran
  have ledger := convertChunk_ledger ledger converted
  cases chunk with
  | none =>
      cases ran
      exact (add_zero (0 : Multiset Nat)) ▸ ledger
  | some chunk =>
      obtain ⟨written, _⟩ := map_code_eq_some_iff.mp ran
      exact Ledger.constructPtr ledger written rfl

theorem consume_ledger {src : Nat} (ledger : store.Ledger 0 0 issued lost)
    (consumed : store.consume src = some next)
    : next.Ledger 0 0 issued lost := by
  simp only [consume, Option.bind_eq_bind, Option.bind_eq_some_iff] at consumed
  obtain ⟨⟨content, rest⟩, taken, consumed⟩ := consumed
  have ledger := ledger.takeContent taken
  have given (owned : content.belongings.context = none)
      : { rest with
          places := rest.places ++ [content.belongings.ptr.map ShmPlace.chunk] }.Ledger
          0 0 issued lost := by
    refine Ledger.addPlace ?_
    have same
        : ShmPlace.belongings (content.belongings.ptr.map ShmPlace.chunk)
          = content.belongings := by
      rw [ShmPlace.belongings_chunk, ← owned]
    rw [same]
    exact ledger
  cases content with
  | uninit | provider _ | layout _ | ptrInSegment _ => cases consumed
  | shmMut data =>
      cases consumed
      exact given rfl
  | chunkAllocResult result =>
      cases consumed
      refine given ?_
      rcases result with _ | _ | _ <;> rfl

theorem giveBuffer_ledger {place outResult : Nat} (ledger : store.Ledger 0 0 issued lost)
    (given : store.giveBuffer place outResult = some next)
    : next.Ledger 0 0 issued lost := by
  unfold giveBuffer at given
  split at given
  · next data found => exact Ledger.constructPtr (ledger.takePlace found) given rfl
  · cases given

theorem dropPlace_ledger {place : Nat} (ledger : store.Ledger 0 0 issued lost)
    (dropped : store.dropPlace place = some next)
    : next.Ledger 0 0 issued lost := by
  obtain ⟨content, found, rfl⟩ := Option.map_eq_some_iff.mp dropped
  exact (ledger.takePlace found).dropBelongings

/-- The spawned task takes the context of the result callback over. -/
theorem allocAsyncImpl_ledger (ledger : store.Ledger (hand + {content}) refs issued lost)
    (provider : Nat)
    : (store.allocAsyncImpl provider content).Ledger hand refs issued lost :=
  Ledger.addPlace ((add_zero refs).symm ▸ ledger)

/-- Every variant of a provider either spawns a task or drops the converted context. -/
theorem allocAsync_ledger {provider : Nat}
    (ledger : store.Ledger (hand + {content}) refs issued lost)
    (ran : store.allocAsync provider content = some (code, next))
    : next.Ledger hand refs issued lost := by
  obtain ⟨found, _, made⟩ := Option.map_eq_some_iff.mp ran
  cases found with
  | posix _ | sharedPosix _ | dynamicThreadsafe _ =>
      cases made
      exact allocAsyncImpl_ledger ledger provider
  | dynamic _ =>
      cases made
      exact ledger.dropContext

/-- A layout of a provider that is not thread-safe lets the raw context go out of scope. -/
theorem allocAsyncLayout_ledger {layout : Nat} {context : ZcContext}
    (ledger : store.Ledger 0 0 issued lost)
    (ran
      : store.zPrecomputedLayoutThreadsafeAllocGcDefragAsync layout context
        = some (code, next))
    : next.Ledger 0 0 (issued + {(store.pass context).1})
        (lost + store.strands (.zPrecomputedLayoutThreadsafeAllocGcDefragAsync layout context)) := by
  have passed := ledger.pass context
  obtain ⟨found, loaned, made⟩ := Option.map_eq_some_iff.mp ran
  have same : store.layoutAt layout = some found := loaned
  cases found with
  | posix provider | dynamicThreadsafe provider =>
      cases made
      simp only [strands, same, add_zero]
      exact allocAsyncImpl_ledger passed provider
  | dynamic provider =>
      cases made
      simp only [strands, same]
      exact passed.dropRaw

/-- The result callback runs while the task still owns its context. -/
theorem finishAlloc_ledger {place : Nat} (ledger : store.Ledger 0 0 issued lost)
    (finished : store.finishAlloc place = some next)
    : next.Ledger 0 0 issued lost := by
  unfold finishAlloc at finished
  split at finished
  · next provider resultContext found =>
      simp only [Option.bind_eq_bind, Option.bind_eq_some_iff, Option.some.injEq] at finished
      obtain ⟨rest, used, rfl⟩ := finished
      have still : rest.places[place]? = some (some (.task provider resultContext false)) := by
        rw [useBackend_places used, found]
      have inside := (List.getElem?_eq_some_iff.mp still).1
      have called
          : { rest with
              places :=
                rest.places.set place (some (.task provider resultContext true)) }.Ledger
              0 0 issued lost :=
        Ledger.setPlace (useBackend_ledger ledger used) still rfl
      refine called.runCallback (Multiset.mem_add.mpr (Or.inl ?_))
      have owner
          : ShmPlace.belongings (some (.task provider resultContext true))
            ∈ { rest with
                places :=
                  rest.places.set place (some (.task provider resultContext true)) }.owners := by
        simp only [owners, List.mem_append]
        refine Or.inr (List.mem_map_of_mem ?_)
        exact List.mem_of_getElem? (List.getElem?_set_self inside)
      exact mem_held_of_owner owner (Multiset.mem_singleton_self resultContext)
  · cases finished

/-- An operation moves what it passes into the books, and what it strands out of them; one
case for each operation.
-/
theorem exec_ledger {operation : ShmOperation} (ledger : store.Ledger 0 0 issued lost)
    (ran : store.exec operation = some (code, next))
    : next.Ledger 0 0 (issued + store.passes operation) (lost + store.strands operation) := by
  have quiet (kept : next.Ledger 0 0 issued lost)
      : next.Ledger 0 0 (issued + 0) (lost + 0) := by
    rw [add_zero, add_zero]
    exact kept
  have kept {passed : Multiset PassedContext} (kept : next.Ledger 0 0 (issued + passed) lost)
      : next.Ledger 0 0 (issued + passed) (lost + 0) := by
    rw [add_zero]
    exact kept
  have blank {dst : Nat} {slot : ShmSlot}
      (owned : slot.belongings = .nothing) {code' : ZResult}
      (ran : (store.construct dst slot).map (code', ·) = some (code, next))
      : next.Ledger 0 0 (issued + 0) (lost + 0) := by
    obtain ⟨written, _⟩ := map_code_eq_some_iff.mp ran
    exact quiet (ledger.constructBlank written owned)
  cases operation with
  | declare =>
      cases ran
      exact quiet (declare_ledger ledger)
  | zInternalNull this kind => exact blank kind.gravestone_belongings ran
  | take dst src =>
      obtain ⟨taken, _⟩ := map_code_eq_some_iff.mp ran
      exact quiet (take_ledger ledger taken)
  | drop target =>
      obtain ⟨dropped, _⟩ := map_code_eq_some_iff.mp ran
      exact quiet (drop_ledger ledger dropped)
  | zShmProviderNew this context =>
      obtain ⟨made, _⟩ := map_code_eq_some_iff.mp ran
      exact kept ((ledger.pass context).constructContext made rfl)
  | zShmProviderThreadsafeNew this context =>
      obtain ⟨made, _⟩ := map_code_eq_some_iff.mp ran
      exact kept ((ledger.pass context).constructContext made rfl)
  | zShmProviderDefaultNew this backend =>
      cases backend with
      | ok provider => exact blank rfl ran
      | error text =>
          cases ran
          exact quiet ledger
  | zPosixShmProviderNew this backend =>
      cases backend with
      | ok provider => exact blank rfl ran
      | error text => exact blank rfl ran
  | zObtainShmProvider outProvider obtained =>
      cases obtained with
      | some provider => exact blank rfl ran
      | none =>
          cases ran
          exact quiet ledger
  | zSharedShmProviderClone dst this =>
      obtain ⟨cloned, _⟩ := map_code_eq_some_iff.mp ran
      unfold zSharedShmProviderClone at cloned
      split at cloned
      · exact quiet (ledger.constructBlank cloned rfl)
      · cases cloned
  | allocLayout this provider layout =>
      simp only [exec, allocLayout, Option.bind_eq_bind, Option.bind_eq_some_iff] at ran
      obtain ⟨found, _, ran⟩ := ran
      cases layout with
      | ok done => exact blank rfl ran
      | error failure =>
          cases ran
          exact quiet ledger
  | useBackend provider =>
      obtain ⟨used, _⟩ := map_code_eq_some_iff.mp ran
      exact quiet (useBackend_ledger ledger used)
  | zPtrInSegmentNew this ptr segment =>
      obtain ⟨made, _⟩ := map_code_eq_some_iff.mp ran
      exact kept (zPtrInSegmentNew_ledger ledger made)
  | zPtrInSegmentClone out this =>
      obtain ⟨cloned, _⟩ := map_code_eq_some_iff.mp ran
      exact quiet (zPtrInSegmentClone_ledger ledger cloned)
  | zShmProviderMap outResult provider descriptpr ptr mapped =>
      exact quiet (zShmProviderMap_ledger ledger ran)
  | zChunkAllocResultNewOk this descriptpr ptr =>
      exact quiet (zChunkAllocResultNewOk_ledger ledger ran)
  | zChunkAllocResultNewError this allocError => exact blank rfl ran
  | consume src =>
      obtain ⟨consumed, _⟩ := map_code_eq_some_iff.mp ran
      exact quiet (consume_ledger ledger consumed)
  | giveBuffer place outResult =>
      obtain ⟨given, _⟩ := map_code_eq_some_iff.mp ran
      exact quiet (giveBuffer_ledger ledger given)
  | zShmProviderAllocGcDefragAsync provider context =>
      exact kept (allocAsync_ledger (ledger.pass context) ran)
  | zPrecomputedLayoutThreadsafeAllocGcDefragAsync layout context =>
      exact allocAsyncLayout_ledger ledger ran
  | finishAlloc place =>
      obtain ⟨finished, _⟩ := map_code_eq_some_iff.mp ran
      exact quiet (finishAlloc_ledger ledger finished)
  | dropPlace place =>
      obtain ⟨dropped, _⟩ := map_code_eq_some_iff.mp ran
      exact quiet (dropPlace_ledger ledger dropped)

-----------------------------------------------------------------------------------------
-- Whole programs
-----------------------------------------------------------------------------------------

/-- Between two operations nothing is in anybody's hand. -/
def Sound (store : ShmStore) : Prop :=
  store.Ledger 0 0 store.account store.stranded

theorem init_sound : init.Sound :=
  ⟨fun _ => rfl, rfl, rfl, Stamped.empty PassedContext.origin 0, List.Pairwise.nil⟩

theorem step_sound {operation : ShmOperation} (sound : store.Sound)
    (stepped : machine.step store operation = some next)
    : next.Sound
      ∧ next.account = store.account + store.passes operation
      ∧ (next.stranded : Multiset PassedContext)
        = store.stranded + store.strands operation := by
  obtain ⟨⟨code, after⟩, ran, rfl⟩ := Option.map_eq_some_iff.mp stepped
  have ledger := exec_ledger sound ran
  have conserved : after.account = store.account + store.passes operation := by
    rw [← ledger.conserved, add_zero]
  refine ⟨?_, conserved, ledger.leftBehind⟩
  rw [Sound, conserved, ledger.leftBehind]
  exact ledger

/-- Over every run, what was passed is held, deleted, or was stranded on the way. -/
theorem run_balanced {operations : List ShmOperation}
    (ran : machine.run operations = some store)
    : store.Sound
      ∧ Balanced store.held (store.deleted + store.stranded)
          (machine.collect passes init operations)
      ∧ (store.stranded : Multiset PassedContext) = machine.collect strands init operations := by
  obtain ⟨sound, accounted⟩ :=
    Machine.run_account
      (fun state operation next sound stepped =>
        ⟨(step_sound sound stepped).1, (step_sound sound stepped).2.1⟩)
      ran init_sound rfl
  obtain ⟨_, stranded⟩ :=
    Machine.run_account
      (fun state operation next sound stepped =>
        ⟨(step_sound sound stepped).1, (step_sound sound stepped).2.2⟩)
      ran init_sound rfl
  have parts
      : store.held + (store.deleted + (store.stranded : Multiset PassedContext))
        = store.account :=
    (add_assoc _ _ _).symm
  exact ⟨sound, ⟨parts.trans accounted, accounted ▸ sound.stamped.nodup⟩, stranded⟩

/-- Some slot, some overwritten content or some place of Rust keeps the context, by itself or
through a pointer into its segment.
-/
def Holds (store : ShmStore) (content : PassedContext) : Prop :=
  ∃ owner ∈ store.owners,
    owner.context = some content
    ∨ ∃ ptr cell,
        owner.ptr = some ptr
        ∧ store.segments[ptr.segment]? = some cell
        ∧ cell.content = content

/-- Owners without belongings hold no context. -/
theorem not_holds_of_blank
    (blank : ∀ owner ∈ store.owners, owner = .nothing)
    (content : PassedContext)
    : ¬store.Holds content := by
  intro holds
  obtain ⟨owner, member, keeps⟩ := holds
  rw [blank owner member] at keeps
  rcases keeps with keeps | ⟨ptr, cell, points, _⟩
  · cases keeps
  · cases points

theorem mem_held_iff (sound : store.Sound) : content ∈ store.held ↔ store.Holds content := by
  have counted : Counts store.segments store.references := by
    rw [← add_zero store.references]
    exact sound.counted
  simp only [held, Multiset.mem_add, counted.mem_owed_iff ({·}), references, mem_tally,
    ShmBelongings.contexts, ShmBelongings.refs, Multiset.mem_coe, Option.mem_toList,
    Option.map_eq_some_iff, Multiset.mem_singleton]
  constructor
  · intro kept
    rcases kept with ⟨owner, member, keeps⟩ | ⟨_, ⟨owner, member, ptr, points, rfl⟩, reached⟩
    · exact ⟨owner, member, Or.inl keeps⟩
    · obtain ⟨cell, found, same⟩ := reached
      exact ⟨owner, member, Or.inr ⟨ptr, cell, points, found, same.symm⟩⟩
  · intro kept
    obtain ⟨owner, member, keeps | ⟨ptr, cell, points, found, same⟩⟩ := kept
    · exact Or.inl ⟨owner, member, keeps⟩
    · exact Or.inr ⟨_, ⟨owner, member, ptr, points, rfl⟩, cell, found, same.symm⟩

/-- In every run a context is deleted at most once, not while anybody holds it, and never
before one of its callbacks. Once nobody holds a context that was passed by value, it has been
deleted exactly once, unless it was passed to an asynchronous allocation for the layout of a
provider that is not thread-safe; then it is never deleted.
-/
theorem deleted_once_iff {operations : List ShmOperation}
    (ran : machine.run operations = some store) (content : PassedContext)
    : store.log.count (.delete content) ≤ 1
      ∧ (store.Holds content → .delete content ∉ store.log)
      ∧ (∀ before after,
          store.log = before ++ .delete content :: after → .callback content ∉ after)
      ∧ (content ∈ machine.collect passes init operations
          → ¬store.Holds content
          → (store.log.count (.delete content) = 1
              ↔ content ∉ machine.collect strands init operations)) := by
  obtain ⟨sound, balanced, stranded⟩ := run_balanced ran
  have once := balanced.released_once content
  rw [Multiset.count_add, count_deleted, stranded] at once
  refine ⟨by omega, ?_, ?_, ?_⟩
  · intro holds logged
    have released : content ∈ store.deleted + (store.stranded : Multiset PassedContext) :=
      Multiset.mem_add.mpr (Or.inl (mem_deleted_iff.mpr logged))
    exact balanced.held_not_released ((mem_held_iff sound).mpr holds) released
  · intro before after split called
    have ordered := sound.ordered
    rw [split] at ordered
    exact ordered_after ordered called content rfl rfl
  · intro passed unheld
    have exactly := balanced.released_exactly_once passed
      (fun held => unheld ((mem_held_iff sound).mp held))
    rw [Multiset.count_add, count_deleted, stranded] at exactly
    rw [← Multiset.count_eq_zero]
    omega

/-- A segment whose chunk does not convert, and an allocation that runs to its end. -/
theorem deleted_once_iff_map_and_async
    : let backend : PassedContext := { value := { context := 7, deleteFn := 3 }, origin := 0 }
      let segment : PassedContext := { value := { context := 8, deleteFn := 3 }, origin := 1 }
      let result : PassedContext := { value := { context := 9, deleteFn := 3 }, origin := 2 }
      let operations : List ShmOperation :=
        [.declare, .declare, .declare, .zShmProviderThreadsafeNew 0 backend.value,
          .zPtrInSegmentNew 1 64 segment.value,
          .zShmProviderMap 2 0 { segment := 0, chunk := 0, len := 0 } 1 (.ok ()),
          .zShmProviderAllocGcDefragAsync 0 result.value, .finishAlloc 0, .dropPlace 0, .drop 0]
      let store : ShmStore :=
        { slots := [.provider none, .ptrInSegment none, .uninit],
          forgotten := [.uninit, .uninit], places := [none],
          segments := [{ content := segment, refs := 0 }], next := 3, stranded := [],
          log :=
            [.delete segment, .callback backend, .callback result, .delete result,
              .delete backend] }
      machine.run operations = some store
      ∧ store.log.count (.delete segment) = 1
      ∧ store.log.count (.delete result) = 1 := by
  intro backend segment result operations store
  have ran : machine.run operations = some store := rfl
  have blank : ∀ owner ∈ store.owners, owner = .nothing := by decide
  have once {content : PassedContext}
      (passed : content ∈ machine.collect passes init operations)
      (kept : content ∉ machine.collect strands init operations)
      : store.log.count (.delete content) = 1 :=
    ((deleted_once_iff ran content).2.2.2 passed (not_holds_of_blank blank content)).mpr kept
  exact ⟨ran, once (by decide) (by decide), once (by decide) (by decide)⟩

/-- The layout of a provider that is not thread-safe refuses the allocation with `Z_EINVAL`,
and nobody ever deletes the context of the result callback.
-/
theorem zPrecomputedLayoutThreadsafeAllocGcDefragAsync_strands
    : let backend : PassedContext := { value := { context := 7, deleteFn := 3 }, origin := 0 }
      let result : PassedContext := { value := { context := 9, deleteFn := 3 }, origin := 1 }
      let before : List ShmOperation :=
        [.declare, .declare, .zShmProviderNew 0 backend.value, .allocLayout 1 0 (.ok ())]
      let refused : ShmOperation :=
        .zPrecomputedLayoutThreadsafeAllocGcDefragAsync 1 result.value
      let operations := before ++ [refused, .drop 1, .drop 0]
      let store : ShmStore :=
        { slots := [.provider none, .layout none], forgotten := [.uninit, .uninit],
          places := [], segments := [], next := 2, stranded := [result],
          log := [.delete backend] }
      ((machine.run before).bind fun state => (state.exec refused).map Prod.fst) = some zEinval
      ∧ machine.run operations = some store
      ∧ result ∈ machine.collect passes init operations
      ∧ ¬store.Holds result
      ∧ store.log.count (.delete result) = 0 := by
  intro backend result before refused operations store
  have blank : ∀ owner ∈ store.owners, owner = .nothing := by decide
  exact ⟨rfl, rfl, by decide, not_holds_of_blank blank result, rfl⟩

end ShmStore

end ZenohC
