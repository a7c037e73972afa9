import ZenohC.Collections.SliceStore

/-! When a slice or string that is reported invalid owns nothing.
`isGravestone` looks at the data pointer, the checks at the length and `Drop` at the deleter.
The three agree except for empty buffers that come with a deleter.
-/

namespace ZenohC

open Library

def zInternalSliceCheck (content : CSlice) : Bool :=
  !content.isEmpty

def zInternalStringCheck (content : CSlice) : Bool :=
  !content.isEmpty

namespace CSlice

/-- Neither report of an invalid slice is wrong: no deleter is left to run. -/
def ReportsTruly (slice : CSlice) : Prop :=
  (isGravestone slice = true
      ∨ zInternalSliceCheck slice = false
      ∨ zInternalStringCheck slice = false)
  → slice.drop = none

/-- The reports can only be wrong about an empty slice or a null pointer. -/
theorem reportsTruly_of {slice : CSlice} (null : slice.data.isNull = true → slice.drop = none)
    (empty : slice.len = 0 → slice.drop = none)
    : slice.ReportsTruly := by
  have checked : (!slice.isEmpty) = false → slice.drop = none := by
    intro failed
    exact empty (by simpa [isEmpty] using failed)
  intro invalid
  rcases invalid with gravestone | sliceCheck | stringCheck
  · exact null gravestone
  · exact checked sliceCheck
  · exact checked stringCheck

theorem gravestone_reportsTruly : (ZenohC.gravestone : CSlice).ReportsTruly :=
  fun _ => rfl

theorem new_reportsTruly {data : Ptr} {len : Nat} {drop : Option Deleter} {context : Ptr}
    {slice : CSlice} (made : new data len drop context = .ok slice)
    (empty : len = 0 → drop = none)
    : slice.ReportsTruly := by
  obtain ⟨fine, rfl⟩ := new_eq_ok_iff.mp made
  refine reportsTruly_of (fun null => empty ?_) empty
  have isNull : data.isNull = true := null
  refine Nat.eq_zero_of_not_pos (fun positive => fine ?_)
  simp only [isNull, Bool.true_and, decide_eq_true_eq]
  exact positive

theorem wrap_reportsTruly {data : Ptr} {len : Nat} (nonnull : data ≠ Ptr.null)
    (nonempty : len ≠ 0)
    : (wrap data len).ReportsTruly := by
  refine reportsTruly_of (fun null => ?_) (fun empty => absurd empty nonempty)
  exact absurd (beq_iff_eq.mp null) nonnull

theorem newOwnedUnchecked_reportsTruly (data : Ptr) (len : Nat) {fresh : Ptr}
    (nonnull : fresh ≠ Ptr.null)
    : (newOwnedUnchecked data len fresh).ReportsTruly := by
  unfold newOwnedUnchecked
  split
  · exact gravestone_reportsTruly
  · next nonempty => exact wrap_reportsTruly nonnull (fun zero => nonempty (beq_iff_eq.mpr zero))

theorem fromVec_reportsTruly {len : Nat} {fresh : Ptr} (nonnull : fresh ≠ Ptr.null)
    (nonempty : len ≠ 0)
    : (fromVec len fresh).ReportsTruly := by
  have boxed : fromVec len fresh = wrap fresh len := by
    simp only [fromVec, beq_iff_eq, nonempty, if_false]
  rw [boxed]
  exact wrap_reportsTruly nonnull nonempty

end CSlice

/-- An owned slice or string slot whose invalid reports are true. -/
def Slot.ReportsTruly : Slot → Prop
  | .owned _ content => content.slice.ReportsTruly
  | .uninit | .view _ _ | .array _ | .bytes _ => True

theorem Slot.gravestone?_reportsTruly {content tomb : Slot}
    (found : content.gravestone? = some tomb)
    : tomb.ReportsTruly := by
  cases content with
  | uninit => cases found
  | view kind slice => cases found
  | owned kind slice =>
      cases found
      exact CSlice.gravestone_reportsTruly
  | array elements =>
      cases found
      trivial
  | bytes buffers =>
      cases found
      trivial

namespace SliceStore

variable {allocator : Allocator} {store next : SliceStore} {code : ZResult}

/-- Every owned slice or string slot of the program is reported truly. -/
def ReportsTruly (store : SliceStore) : Prop :=
  ∀ slot ∈ store.slots, slot.ReportsTruly

/-- The call hands over no empty buffer together with a deleter, and boxes no empty value that
the crate has made.
-/
def NoEmptyDeleter (store : SliceStore) : Call → Prop
  | .zSliceFromBuf _ _ len drop _ => len = 0 → drop = none
  | .zStringFromStr _ str strlen drop _ => strlenOrZero str strlen = 0 → drop = none
  | .zBytesToSlice src _ | .zBytesToString src _ (.ok ()) => store.payloadLen src ≠ some 0
  | .zeDeserializeSlice _ (.ok len) | .zeDeserializeString _ (.ok len)
  | .zeDeserializerDeserializeSlice _ (.ok len)
  | .zeDeserializerDeserializeString _ (.ok len) =>
      len ≠ 0
  | .zIdToString _ len | .zLinkSrc _ len | .zLinkDst _ len | .zLinkGroup _ (some len)
  | .zLinkAuthIdentifier _ (some len) =>
      len ≠ 0
  | _ => True

theorem ReportsTruly.set (tidy : store.ReportsTruly) (index : Nat) {content : Slot}
    (fine : content.ReportsTruly)
    : ∀ slot ∈ store.slots.set index content, slot.ReportsTruly := by
  intro slot inside
  rcases List.mem_or_eq_of_mem_set inside with old | rfl
  · exact tidy slot old
  · exact fine

theorem construct_reportsTruly {dst : Nat} {content : Slot} (tidy : store.ReportsTruly)
    (written : store.construct dst content = some next) (fine : content.ReportsTruly)
    : next.ReportsTruly := by
  obtain ⟨old, found, rfl⟩ := Option.map_eq_some_iff.mp written
  exact tidy.set dst fine

theorem constructOwned_reportsTruly {kind : TextKind} {dst : Nat}
    {made : Except Failure CSlice} (tidy : store.ReportsTruly)
    (ran : store.constructOwned kind dst made = some (code, next))
    (fine : ∀ slice, made = .ok slice → slice.ReportsTruly)
    : next.ReportsTruly := by
  cases made with
  | error failure =>
      obtain ⟨written, _⟩ := map_code_eq_some_iff.mp ran
      exact construct_reportsTruly tidy written CSlice.gravestone_reportsTruly
  | ok slice =>
      obtain ⟨written, _⟩ := map_code_eq_some_iff.mp ran
      have bumped : { store with next := store.next + 1 }.ReportsTruly := tidy
      exact construct_reportsTruly bumped written (fine slice rfl)

theorem newOwned_reportsTruly {kind : TextKind} {dst : Nat} {data : Ptr} {len : Nat}
    (tidy : store.ReportsTruly)
    (written
      : store.constructOwned kind dst
          (CSlice.newOwned data len (allocator.address store.next))
        = some (code, next))
    : next.ReportsTruly := by
  refine constructOwned_reportsTruly tidy written ?_
  intro slice made
  obtain ⟨_, rfl⟩ := CSlice.newOwned_eq_ok_iff.mp made
  exact CSlice.newOwnedUnchecked_reportsTruly data len (allocator.nonnull store.next)

theorem constructView_reportsTruly {kind : TextKind} {dst : Nat}
    {made : Except Failure CSlice} (tidy : store.ReportsTruly)
    (ran : store.constructView kind dst made = some (code, next))
    : next.ReportsTruly := by
  cases made with
  | error failure =>
      obtain ⟨written, _⟩ := map_code_eq_some_iff.mp ran
      exact construct_reportsTruly tidy written trivial
  | ok slice =>
      obtain ⟨written, _⟩ := map_code_eq_some_iff.mp ran
      exact construct_reportsTruly tidy written trivial

/-- Wrapping a slice into a bytes value leaves the slots alone. -/
@[simp]
theorem zbytesFrom_slots (store : SliceStore) (content : Owned)
    : (store.zbytesFrom content).2.slots = store.slots := by
  unfold zbytesFrom
  split <;> rfl

theorem constructBytes_reportsTruly {dst : Nat} {made : Except Failure CSlice}
    (tidy : store.ReportsTruly)
    (ran : store.constructBytes dst made = some (code, next))
    : next.ReportsTruly := by
  cases made with
  | error failure =>
      obtain ⟨written, _⟩ := map_code_eq_some_iff.mp ran
      exact construct_reportsTruly tidy written trivial
  | ok slice =>
      simp only [constructBytes] at ran
      have sameSlots := zbytesFrom_slots { store with next := store.next + 1 }
        { slice, origin := store.next }
      cases wrapped
        : { store with next := store.next + 1 }.zbytesFrom { slice, origin := store.next } with
      | mk buffers rest =>
      rw [wrapped] at ran sameSlots
      obtain ⟨written, _⟩ := map_code_eq_some_iff.mp ran
      refine construct_reportsTruly ?_ written trivial
      intro slot inside
      rw [sameSlots] at inside
      exact tidy slot inside

theorem takeContent_reportsTruly {src : Nat} {content : Slot} (tidy : store.ReportsTruly)
    (taken : store.takeContent src = some (content, next))
    : next.ReportsTruly := by
  simp only [takeContent, Option.bind_eq_bind, Option.bind_eq_some_iff, Option.some.injEq,
    Prod.mk.injEq] at taken
  obtain ⟨old, found, tomb, buried, rfl, rfl⟩ := taken
  exact tidy.set src (Slot.gravestone?_reportsTruly buried)

theorem take_reportsTruly {dst src : Nat} (tidy : store.ReportsTruly)
    (taken : store.take dst src = some next)
    : next.ReportsTruly := by
  simp only [take, Option.bind_eq_bind, Option.bind_eq_some_iff, Option.some.injEq] at taken
  obtain ⟨content, source, tomb, buried, old, target, rfl⟩ := taken
  have moved : { store with slots := store.slots.set dst content }.ReportsTruly :=
    tidy.set dst (tidy content (List.mem_of_getElem? source))
  exact moved.set src (Slot.gravestone?_reportsTruly buried)

@[simp]
theorem releaseBuffer_slots (store : SliceStore) (buffer : Nat)
    : (store.releaseBuffer buffer).slots = store.slots := by
  cases found : store.shared[buffer]? with
  | none => simp only [releaseBuffer, found]
  | some cell =>
      simp only [releaseBuffer, found]
      split <;> rfl

@[simp]
theorem retainBuffer_slots (store : SliceStore) (buffer : Nat)
    : (store.retainBuffer buffer).slots = store.slots := by
  cases found : store.shared[buffer]? with
  | none => simp only [retainBuffer, found]
  | some cell => simp only [retainBuffer, found]

/-- A fold of updates that leave the slots alone leaves them alone. -/
theorem foldl_slots {α : Type} {update : SliceStore → α → SliceStore}
    (keeps : ∀ store item, (update store item).slots = store.slots) (items : List α)
    (store : SliceStore)
    : (items.foldl update store).slots = store.slots := by
  induction items generalizing store with
  | nil => rfl
  | cons item rest ih => rw [List.foldl_cons, ih, keeps]

@[simp]
theorem dropContent_slots (store : SliceStore) (content : Slot)
    : (store.dropContent content).slots = store.slots := by
  cases content with
  | uninit => rfl
  | view kind slice => rfl
  | owned kind slice => rfl
  | array elements =>
      have keeps : ∀ store content, (dropOwned store content).slots = store.slots :=
        fun _ _ => rfl
      exact foldl_slots keeps elements store
  | bytes buffers => exact foldl_slots releaseBuffer_slots buffers store

theorem drop_reportsTruly {target : Nat} (tidy : store.ReportsTruly)
    (dropped : store.drop target = some next)
    : next.ReportsTruly := by
  obtain ⟨⟨content, rest⟩, taken, rfl⟩ := Option.map_eq_some_iff.mp dropped
  intro slot inside
  rw [dropContent_slots] at inside
  exact takeContent_reportsTruly tidy taken slot inside

theorem bytesFromOwned_reportsTruly {kind : TextKind} {dst src : Nat}
    (tidy : store.ReportsTruly) (moved : store.bytesFromOwned kind dst src = some next)
    : next.ReportsTruly := by
  simp only [bytesFromOwned, Option.bind_eq_bind, Option.bind_eq_some_iff] at moved
  obtain ⟨⟨content, taken⟩, took, moved⟩ := moved
  have fine := takeContent_reportsTruly tidy took
  cases content with
  | owned found slice =>
      simp only at moved
      split at moved
      · refine construct_reportsTruly ?_ moved trivial
        intro slot inside
        rw [zbytesFrom_slots] at inside
        exact fine slot inside
      · cases moved
  | uninit => cases moved
  | view _ _ => cases moved
  | array _ => cases moved
  | bytes _ => cases moved

theorem zBytesClone_reportsTruly {dst src : Nat} (tidy : store.ReportsTruly)
    (cloned : store.zBytesClone dst src = some next)
    : next.ReportsTruly := by
  unfold zBytesClone at cloned
  split at cloned
  · next buffers found =>
      refine construct_reportsTruly ?_ cloned trivial
      intro slot inside
      rw [foldl_slots retainBuffer_slots] at inside
      exact tidy slot inside
  · cases cloned

theorem pushElement_reportsTruly {array length : Nat} {slice : CSlice}
    (tidy : store.ReportsTruly)
    (pushed : store.pushElement array slice = some (length, next))
    : next.ReportsTruly := by
  unfold pushElement at pushed
  split at pushed
  · simp only [Option.some.injEq, Prod.mk.injEq] at pushed
    obtain ⟨rfl, rfl⟩ := pushed
    exact tidy.set array trivial
  · cases pushed

theorem cloneInto_reportsTruly {kind : TextKind} {dst : Nat} {src : Loan}
    (tidy : store.ReportsTruly)
    (cloned : store.cloneInto allocator kind dst src = some next)
    : next.ReportsTruly := by
  simp only [cloneInto, Option.bind_eq_bind, Option.bind_eq_some_iff] at cloned
  obtain ⟨slice, loaned, cloned⟩ := cloned
  obtain ⟨⟨code, after⟩, written, rfl⟩ := Option.map_eq_some_iff.mp cloned
  refine constructOwned_reportsTruly tidy written ?_
  rintro made ⟨⟩
  exact CSlice.newOwnedUnchecked_reportsTruly _ _ (allocator.nonnull store.next)

/-- A box that is not empty is reported as valid. -/
theorem constructBoxed_reportsTruly {kind : TextKind} {dst : Nat} {made : Except Failure Nat}
    (tidy : store.ReportsTruly) (nonempty : ∀ len, made = .ok len → len ≠ 0)
    (ran : store.constructBoxed allocator kind dst made = some (code, next))
    : next.ReportsTruly := by
  refine constructOwned_reportsTruly tidy ran ?_
  intro slice boxed
  cases made with
  | error failure => cases boxed
  | ok len =>
      cases boxed
      exact CSlice.fromVec_reportsTruly (allocator.nonnull store.next) (nonempty len rfl)

theorem deserializeInto_reportsTruly {kind : TextKind} {dst : Nat} {read : Except String Nat}
    (tidy : store.ReportsTruly) (nonempty : ∀ len, read = .ok len → len ≠ 0)
    (ran : store.deserializeInto allocator kind dst read = some (code, next))
    : next.ReportsTruly :=
  constructBoxed_reportsTruly tidy
    (fun len made => nonempty len (mapError_eq_ok_iff.mp made)) ran

/-- A text that the crate formats is never refused. -/
theorem formatted_reportsTruly {dst len : Nat} (tidy : store.ReportsTruly) (nonempty : len ≠ 0)
    (written
      : (store.constructBoxed allocator .string dst (.ok len)).map Prod.snd = some next)
    : next.ReportsTruly := by
  obtain ⟨⟨code, after⟩, ran, rfl⟩ := Option.map_eq_some_iff.mp written
  refine constructBoxed_reportsTruly tidy ?_ ran
  intro other same
  cases same
  exact nonempty

theorem constructOptional_reportsTruly {dst : Nat} {text : Option Nat}
    (tidy : store.ReportsTruly) (nonempty : ∀ len, text = some len → len ≠ 0)
    (written : store.constructOptional allocator dst text = some next)
    : next.ReportsTruly := by
  cases text with
  | none => exact construct_reportsTruly tidy written CSlice.gravestone_reportsTruly
  | some len => exact formatted_reportsTruly tidy (nonempty len rfl) written

theorem copyText_reportsTruly {dst len : Nat} {text : Ptr} (tidy : store.ReportsTruly)
    (written : store.copyText allocator dst text len = some next)
    : next.ReportsTruly := by
  obtain ⟨⟨code, after⟩, ran, rfl⟩ := Option.map_eq_some_iff.mp written
  exact newOwned_reportsTruly tidy ran

theorem refused_reportsTruly {kind : TextKind} {dst : Nat} {failure : Failure}
    (tidy : store.ReportsTruly)
    (ran : store.constructOwned kind dst (.error failure) = some (code, next))
    : next.ReportsTruly :=
  constructOwned_reportsTruly tidy ran (fun _ made => by cases made)

theorem zcConfigGetFromSubstr_reportsTruly {key : Ptr} {keyText : Except String String}
    {value : Option (Ptr × Nat)} {dst : Nat} (tidy : store.ReportsTruly)
    (ran
      : store.zcConfigGetFromSubstr allocator key keyText value dst = some (code, next))
    : next.ReportsTruly := by
  unfold zcConfigGetFromSubstr at ran
  split at ran
  · exact refused_reportsTruly tidy ran
  · split at ran
    · exact refused_reportsTruly tidy ran
    · obtain ⟨copied, _⟩ := map_code_eq_some_iff.mp ran
      exact copyText_reportsTruly tidy copied
    · exact refused_reportsTruly tidy ran

theorem zcConfigToString_reportsTruly {made : Except String (Ptr × Nat)} {dst : Nat}
    (tidy : store.ReportsTruly)
    (ran : store.zcConfigToString allocator made dst = some (code, next))
    : next.ReportsTruly := by
  cases made with
  | error text => exact refused_reportsTruly tidy ran
  | ok text =>
      obtain ⟨copied, _⟩ := map_code_eq_some_iff.mp ran
      exact copyText_reportsTruly tidy copied

theorem zBytesToSlice_reportsTruly {src : Payload} {dst : Nat} (tidy : store.ReportsTruly)
    (nonempty : store.NoEmptyDeleter (.zBytesToSlice src dst))
    (ran : store.zBytesToSlice allocator src dst = some (code, next))
    : next.ReportsTruly := by
  obtain ⟨len, measured, ran⟩ := Option.bind_eq_some_iff.mp ran
  refine constructBoxed_reportsTruly tidy ?_ ran
  intro other same
  cases same
  rintro rfl
  exact nonempty measured

theorem zBytesToString_reportsTruly {src : Payload} {dst : Nat} {decoded : Except String Unit}
    (tidy : store.ReportsTruly)
    (nonempty : store.NoEmptyDeleter (.zBytesToString src dst decoded))
    (ran : store.zBytesToString allocator src dst decoded = some (code, next))
    : next.ReportsTruly := by
  obtain ⟨len, measured, ran⟩ := Option.bind_eq_some_iff.mp ran
  refine constructBoxed_reportsTruly tidy ?_ ran
  intro other same
  cases decoded with
  | error text => cases same
  | ok _ =>
      cases same
      rintro rfl
      exact nonempty measured

/-- A call that hands over no empty buffer with a deleter keeps every report true. -/
theorem step_reportsTruly {call : Call} (tidy : store.ReportsTruly)
    (guarded : store.NoEmptyDeleter call)
    (stepped : (machine allocator).step store call = some next)
    : next.ReportsTruly := by
  obtain ⟨⟨code, after⟩, ran, rfl⟩ := Option.map_eq_some_iff.mp stepped
  have blank : ∀ {dst : Nat} {content : Slot},
      (store.construct dst content).map (zOk, ·) = some (code, after)
      → content.ReportsTruly
      → after.ReportsTruly := by
    intro dst content ran fine
    obtain ⟨written, _⟩ := map_code_eq_some_iff.mp ran
    exact construct_reportsTruly tidy written fine
  cases call with
  | declare =>
      cases ran
      intro slot inside
      rcases List.mem_append.mp inside with old | new
      · exact tidy slot old
      · cases List.mem_singleton.mp new
        trivial
  | zSliceEmpty dst => exact blank ran CSlice.gravestone_reportsTruly
  | zInternalSliceNull dst => exact blank ran CSlice.gravestone_reportsTruly
  | zStringEmpty dst => exact blank ran CSlice.gravestone_reportsTruly
  | zInternalStringNull dst => exact blank ran CSlice.gravestone_reportsTruly
  | zViewSliceEmpty dst => exact blank ran trivial
  | zViewStringEmpty dst => exact blank ran trivial
  | zBytesEmpty dst => exact blank ran trivial
  | zStringArrayNew dst => exact blank ran trivial
  | zSliceCopyFromBuf dst start len => exact newOwned_reportsTruly tidy ran
  | zStringCopyFromSubstr dst str len => exact newOwned_reportsTruly tidy ran
  | zStringCopyFromStr dst str strlen => exact newOwned_reportsTruly tidy ran
  | zSliceFromBuf dst data len drop context =>
      exact constructOwned_reportsTruly tidy ran
        (fun slice made => CSlice.new_reportsTruly made guarded)
  | zStringFromStr dst str strlen drop context =>
      exact constructOwned_reportsTruly tidy ran
        (fun slice made => CSlice.new_reportsTruly made guarded)
  | zViewSliceFromBuf dst start len => exact constructView_reportsTruly tidy ran
  | zViewStringFromSubstr dst str len => exact constructView_reportsTruly tidy ran
  | zViewStringFromStr dst str strlen => exact constructView_reportsTruly tidy ran
  | zSliceClone dst src =>
      obtain ⟨cloned, _⟩ := map_code_eq_some_iff.mp ran
      exact cloneInto_reportsTruly tidy cloned
  | zStringClone dst src =>
      obtain ⟨cloned, _⟩ := map_code_eq_some_iff.mp ran
      exact cloneInto_reportsTruly tidy cloned
  | take dst src =>
      obtain ⟨taken, _⟩ := map_code_eq_some_iff.mp ran
      exact take_reportsTruly tidy taken
  | drop target =>
      obtain ⟨dropped, _⟩ := map_code_eq_some_iff.mp ran
      exact drop_reportsTruly tidy dropped
  | zBytesFromSlice dst src =>
      obtain ⟨moved, _⟩ := map_code_eq_some_iff.mp ran
      exact bytesFromOwned_reportsTruly tidy moved
  | zBytesFromString dst src =>
      obtain ⟨moved, _⟩ := map_code_eq_some_iff.mp ran
      exact bytesFromOwned_reportsTruly tidy moved
  | zBytesFromBuf dst data len deleter context => exact constructBytes_reportsTruly tidy ran
  | zBytesFromStaticBuf dst data len => exact constructBytes_reportsTruly tidy ran
  | zBytesCopyFromBuf dst data len => exact constructBytes_reportsTruly tidy ran
  | zBytesFromStr dst str strlen deleter context =>
      exact constructBytes_reportsTruly tidy ran
  | zBytesFromStaticStr dst str strlen => exact constructBytes_reportsTruly tidy ran
  | zBytesCopyFromStr dst str strlen => exact constructBytes_reportsTruly tidy ran
  | zBytesCopyFromLoaned dst src =>
      obtain ⟨copy, _⟩ := map_code_eq_some_iff.mp ran
      simp only [zBytesCopyFromLoaned, Option.bind_eq_bind, Option.bind_eq_some_iff] at copy
      obtain ⟨slice, loaned, copy⟩ := copy
      obtain ⟨⟨inner, final⟩, made, rfl⟩ := Option.map_eq_some_iff.mp copy
      exact constructBytes_reportsTruly tidy made
  | zBytesClone dst src =>
      obtain ⟨cloned, _⟩ := map_code_eq_some_iff.mp ran
      exact zBytesClone_reportsTruly tidy cloned
  | zBytesToSlice src dst => exact zBytesToSlice_reportsTruly tidy guarded ran
  | zBytesToString src dst decoded => exact zBytesToString_reportsTruly tidy guarded ran
  | zeDeserializeSlice dst read | zeDeserializeString dst read
  | zeDeserializerDeserializeSlice dst read | zeDeserializerDeserializeString dst read =>
      refine deserializeInto_reportsTruly tidy ?_ ran
      rintro len rfl
      exact guarded
  | zIdToString dst len | zLinkSrc dst len | zLinkDst dst len =>
      obtain ⟨written, _⟩ := map_code_eq_some_iff.mp ran
      exact formatted_reportsTruly tidy guarded written
  | zLinkGroup dst text | zLinkAuthIdentifier dst text =>
      obtain ⟨written, _⟩ := map_code_eq_some_iff.mp ran
      refine constructOptional_reportsTruly tidy ?_ written
      rintro len rfl
      exact guarded
  | zEncodingToString dst text len =>
      obtain ⟨written, _⟩ := map_code_eq_some_iff.mp ran
      exact copyText_reportsTruly tidy written
  | zcConfigGetFromStr key keyText value dst | zcConfigGetFromSubstr key keyText value dst =>
      exact zcConfigGetFromSubstr_reportsTruly tidy ran
  | zcConfigToString made dst => exact zcConfigToString_reportsTruly tidy ran
  | zStringArrayPushByCopy array value =>
      obtain ⟨⟨length, written⟩, pushed, same⟩ := Option.map_eq_some_iff.mp ran
      cases same
      simp only [zStringArrayPushByCopy, Option.bind_eq_bind, Option.bind_eq_some_iff]
        at pushed
      obtain ⟨slice, loaned, pushed⟩ := pushed
      exact pushElement_reportsTruly tidy pushed
  | zStringArrayPushByAlias array value =>
      obtain ⟨⟨length, written⟩, pushed, same⟩ := Option.map_eq_some_iff.mp ran
      cases same
      simp only [zStringArrayPushByAlias, Option.bind_eq_bind, Option.bind_eq_some_iff]
        at pushed
      obtain ⟨slice, loaned, pushed⟩ := pushed
      exact pushElement_reportsTruly tidy pushed
  | zStringArrayClone dst src =>
      obtain ⟨cloned, _⟩ := map_code_eq_some_iff.mp ran
      unfold zStringArrayClone at cloned
      split at cloned
      · next elements found =>
          have bumped
              : { store with next := store.next + elements.length }.ReportsTruly :=
            tidy
          exact construct_reportsTruly bumped cloned trivial
      · cases cloned

/-- In every program that never hands over an empty buffer with a deleter, an owned slice
or string that is reported as gravestone or invalid has no deleter left to run.
-/
theorem invalid_slices_own_nothing (allocator : Allocator) {calls : List Call}
    {store : SliceStore}
    (meets : (machine allocator).RunMeets NoEmptyDeleter init calls)
    (ran : (machine allocator).run calls = some store)
    {index : Nat} {kind : TextKind} {content : Owned}
    (found : store.slots[index]? = some (.owned kind content))
    (invalid
      : isGravestone content.slice = true
        ∨ zInternalSliceCheck content.slice = false
        ∨ zInternalStringCheck content.slice = false)
    : content.slice.drop = none ∧ content.releases = [] := by
  have start : init.ReportsTruly := fun slot inside => by cases inside
  have tidy : store.ReportsTruly :=
    meets.preserves
      (fun state call next fine guarded stepped => step_reportsTruly fine guarded stepped)
      ran start
  have quiet : content.slice.drop = none :=
    tidy (.owned kind content) (List.mem_of_getElem? found) invalid
  refine ⟨quiet, ?_⟩
  simp only [Owned.releases, CSlice.dropCall, quiet, Option.map_none, Option.toList_none]

/-- A copied slice that has been dropped is reported as gravestone, and owns nothing. -/
theorem invalid_slices_own_nothing_dropped_copy
    : let boxes : Allocator := ⟨fun index => index + 1, fun index => Nat.succ_ne_zero index⟩
      let calls := [.declare, .zSliceCopyFromBuf 0 64 3, .drop 0]
      ∃ store,
        (machine boxes).run calls = some store
        ∧ store.slots[0]? = some (.owned .slice Owned.gravestone)
        ∧ Owned.gravestone.slice.drop = none := by
  intro boxes calls
  refine ⟨_, rfl, rfl, ?_⟩
  have meets : (machine boxes).RunMeets NoEmptyDeleter init calls := by
    refine ⟨trivial, fun first stepped => ⟨trivial, fun second steppedAgain => ⟨trivial, ?_⟩⟩⟩
    exact fun third steppedLast => trivial
  have found
      : [Slot.owned .slice Owned.gravestone][0]? = some (.owned .slice Owned.gravestone) :=
    rfl
  exact (invalid_slices_own_nothing boxes meets rfl found (Or.inl rfl)).1

/-- An empty buffer handed over with a deleter is accepted, reported as gravestone and as
invalid, and still has its deleter to run.
-/
theorem empty_slice_keeps_deleter
    : let boxes : Allocator := ⟨fun index => index + 1, fun index => Nat.succ_ne_zero index⟩
      let calls := [.declare, .zSliceFromBuf 0 Ptr.null 0 (some (.user 7)) 9]
      let content : Owned :=
        { slice := { data := Ptr.null, len := 0, drop := some (.user 7), context := 9 },
          origin := 0 }
      ∃ store,
        (machine boxes).run calls = some store
        ∧ store.slots[0]? = some (.owned .slice content)
        ∧ isGravestone content.slice = true
        ∧ zInternalSliceCheck content.slice = false
        ∧ content.slice.drop = some (.user 7)
        ∧ store.calls = [] := by
  intro boxes calls content
  exact ⟨_, rfl, rfl, rfl, rfl, rfl, rfl⟩

end SliceStore

end ZenohC
