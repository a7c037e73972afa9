import ZenohC.Collections.Custody

/-! Every deleter runs exactly once, when the last owner of its buffer is dropped.
`registers` says which calls make somebody responsible for a deleter; the rest of the
module shows that each call changes the account of the store by exactly that.
-/

namespace ZenohC

open Library
open Library.SharedCells (Counts)

namespace SliceStore

-----------------------------------------------------------------------------------------
-- Responsibility for deleters
-----------------------------------------------------------------------------------------

/-- A constructor refuses a null pointer that comes with a positive length. -/
def accepted (data : Ptr) (len : Nat) : Prop :=
  ¬(data.isNull && len > 0)

instance (data : Ptr) (len : Nat) : Decidable (accepted data len) :=
  inferInstanceAs (Decidable (¬_))

/-- The user's deleter, handed over with a buffer that is accepted. -/
def handedOver (origin : Nat) (data : Ptr) (len : Nat) (deleter : Option Deleter)
    (context : Ptr)
    : Multiset Release :=
  if accepted data len then
    (deleter.map fun deleter => { origin, call := { deleter, data, context } : Release }).toList
  else 0

/-- The internal free of a box of copied bytes; an empty copy allocates nothing. -/
def copied (origin : Nat) (fresh : Ptr) (len : Nat) : Multiset Release :=
  if len = 0 then 0
  else {{ origin, call := { deleter := .zDropCSliceDefault, data := fresh, context := len } }}

def copiedFrom (origin : Nat) (data : Ptr) (len : Nat) (fresh : Ptr) : Multiset Release :=
  if accepted data len then copied origin fresh len else 0

/-- The internal free of a vector that was turned into a slice, also of an empty one. -/
def boxed (origin : Nat) (fresh : Ptr) (len : Nat) : Multiset Release :=
  let data := if len = 0 then CSlice.danglingBox else fresh
  {{ origin, call := { deleter := .zDropCSliceDefault, data, context := len } }}

variable (allocator : Allocator)

/-- The copy of a borrowed slice or string. -/
def copiedLoan (store : SliceStore) (src : Loan) : Multiset Release :=
  match store.loan src with
  | some slice => copied store.next (allocator.address store.next) slice.len
  | none => 0

def copiedElements : Nat → List Owned → Multiset Release
  | _, [] => 0
  | next, element :: rest =>
      copied next (allocator.address next) element.slice.len
      + copiedElements (next + 1) rest

/-- The boxed content of a bytes value. -/
def boxedPayload (store : SliceStore) (src : Payload) : Multiset Release :=
  match store.payloadLen src with
  | some len => boxed store.next (allocator.address store.next) len
  | none => 0

/-- A text of the configuration that was looked for under a key. -/
def copiedValue (store : SliceStore) (key : Ptr) (keyText : Except String String)
    (value : Option (Ptr × Nat))
    : Multiset Release :=
  match keyText, value with
  | .ok _, some (text, len) =>
      if key.isNull then 0
      else copiedFrom store.next text len (allocator.address store.next)
  | _, _ => 0

/-- The deleters that a call makes somebody responsible for. Views, aliases, moves and
refused buffers are not among them.
-/
def registers (store : SliceStore) : Call → Multiset Release
  | .zSliceFromBuf _ data len deleter context | .zBytesFromBuf _ data len deleter context =>
      handedOver store.next data len deleter context
  | .zStringFromStr _ str strlen deleter context
  | .zBytesFromStr _ str strlen deleter context =>
      handedOver store.next str (strlenOrZero str strlen) deleter context
  | .zSliceCopyFromBuf _ data len | .zStringCopyFromSubstr _ data len
  | .zBytesCopyFromBuf _ data len =>
      copiedFrom store.next data len (allocator.address store.next)
  | .zStringCopyFromStr _ str strlen | .zBytesCopyFromStr _ str strlen =>
      copiedFrom store.next str (strlenOrZero str strlen) (allocator.address store.next)
  | .zSliceClone _ src | .zStringClone _ src | .zBytesCopyFromLoaned _ src
  | .zStringArrayPushByCopy _ src =>
      store.copiedLoan allocator src
  | .zStringArrayClone _ src =>
      match store.slots[src]? with
      | some (.array elements) => copiedElements allocator store.next elements
      | _ => 0
  | .zBytesToSlice src _ | .zBytesToString src _ (.ok ()) => store.boxedPayload allocator src
  | .zeDeserializeSlice _ (.ok len) | .zeDeserializeString _ (.ok len)
  | .zeDeserializerDeserializeSlice _ (.ok len)
  | .zeDeserializerDeserializeString _ (.ok len)
  | .zIdToString _ len | .zLinkSrc _ len | .zLinkDst _ len | .zLinkGroup _ (some len)
  | .zLinkAuthIdentifier _ (some len) =>
      boxed store.next (allocator.address store.next) len
  | .zEncodingToString _ text len | .zcConfigToString (.ok (text, len)) _ =>
      copiedFrom store.next text len (allocator.address store.next)
  | .zcConfigGetFromStr key keyText value _ | .zcConfigGetFromSubstr key keyText value _ =>
      store.copiedValue allocator key keyText value
  | _ => 0

/-- Some slot, or content that a constructor overwrote, can still reach the buffer. -/
def Reaches (store : SliceStore) (release : Release) : Slot → Prop
  | .owned _ content => release ∈ content.releases
  | .array elements => ∃ element ∈ elements, release ∈ element.releases
  | .bytes buffers =>
      ∃ buffer ∈ buffers, ∃ cell,
        store.shared[buffer]? = some cell ∧ release ∈ cell.content.releases
  | .uninit | .view _ _ => False

/-- A buffer has a live owner while a slot of the program owns it or shares it. -/
def Live (store : SliceStore) (release : Release) : Prop :=
  ∃ slot ∈ store.slots ++ store.forgotten, store.Reaches release slot

-----------------------------------------------------------------------------------------
-- What one call does to the account
-----------------------------------------------------------------------------------------

/-- A call with result `code` that makes somebody responsible for `issued`. -/
structure Effect (store : SliceStore) (issued : Multiset Release) (code : ZResult)
    (next : SliceStore)
    : Prop where
  counted : next.Counted 0
  account : next.account = store.account + issued
  stamped
    : ∀ tokens,
        Stamped Release.origin store.next tokens
        → Stamped Release.origin next.next (tokens + issued)
  succeeded : issued ≠ 0 → code = zOk

/-- The releases of what a slice constructor made. -/
def issued (origin : Nat) : Except Failure CSlice → Multiset Release
  | .ok slice => ({ slice, origin } : Owned).releases
  | .error _ => 0

variable {allocator} {store next : SliceStore} {code : ZResult}

@[simp]
theorem issued_new (origin : Nat) (data : Ptr) (len : Nat) (deleter : Option Deleter)
    (context : Ptr)
    : issued origin (CSlice.new data len deleter context)
      = handedOver origin data len deleter context := by
  by_cases fine : accepted data len
  · rw [CSlice.new_eq_ok_iff.mpr ⟨fine, rfl⟩]
    simp only [handedOver, fine, if_true, issued, Owned.releases, CSlice.dropCall_newUnchecked,
      Option.map_map]
    rfl
  · have refused := not_not.mp fine
    simp only [handedOver, fine, if_false, CSlice.new, refused, if_true, issued]

@[simp]
theorem issued_copy (origin : Nat) (data : Ptr) (len : Nat) (fresh : Ptr)
    : issued origin (.ok (CSlice.newOwnedUnchecked data len fresh))
      = copied origin fresh len := by
  simp only [issued, Owned.releases, CSlice.dropCall_newOwnedUnchecked, copied, beq_iff_eq]
  split <;> rfl

@[simp]
theorem issued_newOwned (origin : Nat) (data : Ptr) (len : Nat) (fresh : Ptr)
    : issued origin (CSlice.newOwned data len fresh)
      = copiedFrom origin data len fresh := by
  by_cases fine : accepted data len
  · rw [CSlice.newOwned_eq_ok_iff.mpr ⟨fine, rfl⟩, issued_copy]
    simp only [copiedFrom, fine, if_true]
  · have refused := not_not.mp fine
    simp only [copiedFrom, fine, if_false, CSlice.newOwned, refused, if_true, issued]

@[simp]
theorem issued_fromVec (origin len : Nat) (fresh : Ptr)
    : issued origin (.ok (CSlice.fromVec len fresh)) = boxed origin fresh len := by
  simp only [issued, Owned.releases, CSlice.fromVec, CSlice.dropCall_wrap, boxed, beq_iff_eq]
  rfl

@[simp]
theorem handedOver_none (origin : Nat) (data : Ptr) (len : Nat) (context : Ptr)
    : handedOver origin data len none context = 0 := by
  simp only [handedOver, Option.map_none, Option.toList_none, Multiset.coe_nil, ite_self]

theorem Effect.congr {before after : Multiset Release}
    (effect : store.Effect before code next) (same : before = after)
    : store.Effect after code next :=
  same ▸ effect

/-- Writing content that holds and refers to nothing registers nothing. -/
theorem construct_blank {dst : Nat} {content : Slot} (counted : store.Counted 0)
    (written : store.construct dst content = some next)
    (holds : content.holds = 0) (refs : content.refs = 0)
    : store.Effect 0 code next := by
  obtain ⟨_, sameNext⟩ := construct_shared written
  constructor
  · exact construct_counted_blank written refs counted
  · rw [construct_account written, holds]
  · intro tokens stamped
    rw [sameNext, add_zero]
    exact stamped
  · intro nonempty
    exact absurd rfl nonempty

/-- A constructor that may fail registers the releases of what it made. -/
theorem constructOwned_effect {kind : TextKind} {dst : Nat} {made : Except Failure CSlice}
    (counted : store.Counted 0)
    (ran : store.constructOwned kind dst made = some (code, next))
    : store.Effect (issued store.next made) code next := by
  cases made with
  | error failure =>
      obtain ⟨written, rfl⟩ := map_code_eq_some_iff.mp ran
      exact construct_blank counted written rfl rfl
  | ok slice =>
      obtain ⟨written, rfl⟩ := map_code_eq_some_iff.mp ran
      obtain ⟨_, sameNext⟩ := construct_shared written
      constructor
      · exact construct_counted_blank written rfl counted
      · rw [construct_account written]
        rfl
      · intro tokens stamped
        rw [sameNext]
        exact Owned.releases_stamped stamped rfl
      · intro _
        rfl

theorem constructView_effect {kind : TextKind} {dst : Nat} {made : Except Failure CSlice}
    (counted : store.Counted 0)
    (ran : store.constructView kind dst made = some (code, next))
    : store.Effect 0 code next := by
  cases made with
  | error failure =>
      obtain ⟨written, rfl⟩ := map_code_eq_some_iff.mp ran
      exact construct_blank counted written rfl rfl
  | ok slice =>
      obtain ⟨written, rfl⟩ := map_code_eq_some_iff.mp ran
      exact construct_blank counted written rfl rfl

/-- A bytes constructor registers the same releases: its shared slice holds them, or they
ran at once because the slice was empty.
-/
theorem constructBytes_effect {dst : Nat} {made : Except Failure CSlice}
    (counted : store.Counted 0)
    (ran : store.constructBytes dst made = some (code, next))
    : store.Effect (issued store.next made) code next := by
  cases made with
  | error failure =>
      obtain ⟨written, rfl⟩ := map_code_eq_some_iff.mp ran
      exact construct_blank counted written rfl rfl
  | ok slice =>
      simp only [constructBytes] at ran
      cases wrapped
        : { store with next := store.next + 1 }.zbytesFrom { slice, origin := store.next } with
      | mk buffers rest =>
      rw [wrapped] at ran
      obtain ⟨written, rfl⟩ := map_code_eq_some_iff.mp ran
      have bumped : { store with next := store.next + 1 }.Counted 0 := counted
      obtain ⟨accounted, recounted, sameNext⟩ := zbytesFrom_cases bumped wrapped
      constructor
      · exact construct_counted recounted written rfl
      · rw [construct_account written, accounted]
        exact add_zero _
      · intro tokens stamped
        rw [(construct_shared written).2, sameNext]
        exact Owned.releases_stamped stamped rfl
      · intro _
        rfl

/-- A call that keeps the counter and the account registers nothing. -/
theorem Effect.quiet (counted : next.Counted 0) (account : next.account = store.account)
    (sameNext : next.next = store.next)
    : store.Effect 0 code next := by
  constructor
  · exact counted
  · rw [account, add_zero]
  · intro tokens stamped
    rw [sameNext, add_zero]
    exact stamped
  · intro nonempty
    exact absurd rfl nonempty

theorem take_effect {dst src : Nat} (counted : store.Counted 0)
    (taken : store.take dst src = some next)
    : store.Effect 0 code next := by
  obtain ⟨account, references, sameShared, sameNext⟩ := take_cases taken
  exact Effect.quiet (counted.moved (by rw [references]) sameShared) account sameNext

/-- Dropping turns what the slot held into calls, and a second drop finds a gravestone. -/
theorem drop_effect {target : Nat} (counted : store.Counted 0)
    (dropped : store.drop target = some next)
    : store.Effect 0 code next := by
  obtain ⟨⟨content, rest⟩, taken, rfl⟩ := Option.map_eq_some_iff.mp dropped
  obtain ⟨restAccount, _, _, restNext⟩ := takeContent_cases taken
  obtain ⟨account, recounted, sameNext⟩ :=
    dropContent_cases content rest (takeContent_counted counted taken)
  exact Effect.quiet recounted (account.trans restAccount) (sameNext.trans restNext)

/-- Moving a slice into a bytes value hands its releases from the slot to the bytes. -/
theorem bytesFromOwned_effect {kind : TextKind} {dst src : Nat} (counted : store.Counted 0)
    (moved : store.bytesFromOwned kind dst src = some next)
    : store.Effect 0 code next := by
  simp only [bytesFromOwned, Option.bind_eq_bind, Option.bind_eq_some_iff] at moved
  obtain ⟨⟨content, taken⟩, took, moved⟩ := moved
  obtain ⟨takenAccount, _, _, takenNext⟩ := takeContent_cases took
  have recounted := takeContent_counted counted took
  cases content with
  | owned found slice =>
      simp only at moved
      split at moved
      · cases wrapped : taken.zbytesFrom slice with
        | mk buffers rest =>
        simp only [Slot.refs, zero_add] at recounted
        obtain ⟨account, restCounted, restNext⟩ := zbytesFrom_cases recounted wrapped
        simp only [wrapped] at moved
        refine Effect.quiet (construct_counted restCounted moved rfl) ?_ ?_
        · rw [construct_account moved, account, ← takenAccount]
          exact add_zero _
        · rw [(construct_shared moved).2, restNext, takenNext]
      · cases moved
  | uninit => cases moved
  | view _ _ => cases moved
  | array _ => cases moved
  | bytes _ => cases moved

/-- A cloned bytes value refers to the same slices, each with one more reference. -/
theorem zBytesClone_effect {dst src : Nat} (counted : store.Counted 0)
    (cloned : store.zBytesClone dst src = some next)
    : store.Effect 0 code next := by
  unfold zBytesClone at cloned
  split at cloned
  · next buffers found =>
      have inside : ∀ buffer ∈ buffers, buffer ∈ store.references := by
        intro buffer member
        refine Multiset.mem_add.mpr (Or.inl (mem_tally.mpr ?_))
        exact ⟨.bytes buffers, List.mem_of_getElem? found, Multiset.mem_coe.mpr member⟩
      obtain ⟨account, recounted, sameNext⟩ := retainBuffers_cases buffers store counted inside
      refine Effect.quiet (construct_counted recounted cloned rfl) ?_ ?_
      · rw [construct_account cloned, account]
        exact add_zero _
      · rw [(construct_shared cloned).2, sameNext]
  · cases cloned

/-- Pushing an element registers the releases of that element. -/
theorem pushElement_effect {array length : Nat} {slice : CSlice} (counted : store.Counted 0)
    (pushed : store.pushElement array slice = some (length, next))
    : store.Effect (issued store.next (.ok slice)) zOk next := by
  unfold pushElement at pushed
  split at pushed
  · next elements found =>
      have exchanged := tally_set Slot.holds found
        (.array (elements ++ [{ slice, origin := store.next }]))
      have sameRefs := tally_set Slot.refs found
        (.array (elements ++ [{ slice, origin := store.next }]))
      simp only [Slot.holds, tally_append, tally_cons, tally_nil, add_zero] at exchanged
      simp only [Slot.refs, add_zero] at sameRefs
      simp only [Option.some.injEq, Prod.mk.injEq] at pushed
      obtain ⟨rfl, rfl⟩ := pushed
      constructor
      · refine counted.moved ?_ rfl
        simp only [references, sameRefs]
      · rw [← add_assoc, add_right_comm] at exchanged
        simp only [account, held, issued]
        rw [add_right_cancel exchanged]
        ac_rfl
      · intro tokens stamped
        exact Owned.releases_stamped stamped rfl
      · intro _
        rfl
  · cases pushed

/-- The copies of an array's elements, by induction on them: what they hold and how they
are stamped.
-/
theorem cloneElements_effect (allocator : Allocator) (elements : List Owned) (origin : Nat)
    : tally (fun element => (element.releases : Multiset Release))
          (cloneElements allocator origin elements)
        = copiedElements allocator origin elements
      ∧ ∀ tokens,
          Stamped Release.origin origin tokens
          → Stamped Release.origin (origin + elements.length)
              (tokens + copiedElements allocator origin elements) := by
  induction elements generalizing origin with
  | nil =>
      refine ⟨rfl, fun tokens stamped => ?_⟩
      rw [copiedElements, add_zero]
      exact stamped
  | cons element rest ih =>
      obtain ⟨held, stamped⟩ := ih (origin + 1)
      have first := issued_copy origin element.slice.data element.slice.len
        (allocator.address origin)
      refine ⟨?_, fun tokens before => ?_⟩
      · rw [cloneElements, tally_cons, held, copiedElements, ← first]
        rfl
      · have after := stamped _ (Owned.releases_stamped before
          (Eq.refl (Owned.mk (element.slice.clone (allocator.address origin)) origin).origin))
        rw [copiedElements, ← first, List.length_cons, Nat.add_comm rest.length,
          ← Nat.add_assoc, ← add_assoc]
        exact after

theorem zStringArrayClone_effect {dst src : Nat} (counted : store.Counted 0)
    (cloned : store.zStringArrayClone allocator dst src = some next)
    : store.Effect (store.registers allocator (.zStringArrayClone dst src)) zOk next := by
  unfold zStringArrayClone at cloned
  split at cloned
  · next elements found =>
      obtain ⟨held, stamps⟩ := cloneElements_effect allocator elements store.next
      simp only [registers, found]
      constructor
      · exact construct_counted_blank cloned rfl counted
      · rw [construct_account cloned, ← held]
        rfl
      · intro tokens stamped
        rw [(construct_shared cloned).2]
        exact stamps tokens stamped
      · intro _
        rfl
  · cases cloned

-----------------------------------------------------------------------------------------
-- Whole programs
-----------------------------------------------------------------------------------------

theorem cloneInto_effect {kind : TextKind} {dst : Nat} {src : Loan} (counted : store.Counted 0)
    (cloned : store.cloneInto allocator kind dst src = some next)
    : store.Effect (store.copiedLoan allocator src) zOk next := by
  simp only [cloneInto, Option.bind_eq_bind, Option.bind_eq_some_iff] at cloned
  obtain ⟨slice, loaned, cloned⟩ := cloned
  obtain ⟨⟨code, after⟩, written, rfl⟩ := Option.map_eq_some_iff.mp cloned
  have effect := constructOwned_effect counted written
  have wrote : code = zOk := by
    obtain ⟨_, _, same⟩ := Option.map_eq_some_iff.mp written
    exact (Prod.mk.inj same).1.symm
  rw [CSlice.cloneToOwned, issued_copy] at effect
  simp only [copiedLoan, loaned]
  exact wrote ▸ effect

theorem zBytesCopyFromLoaned_effect {dst : Nat} {src : Loan} (counted : store.Counted 0)
    (copy : store.zBytesCopyFromLoaned allocator dst src = some next)
    : store.Effect (store.copiedLoan allocator src) zOk next := by
  simp only [zBytesCopyFromLoaned, Option.bind_eq_bind, Option.bind_eq_some_iff] at copy
  obtain ⟨slice, loaned, copy⟩ := copy
  obtain ⟨⟨code, after⟩, written, rfl⟩ := Option.map_eq_some_iff.mp copy
  have effect := constructBytes_effect counted written
  have wrote : code = zOk := by
    obtain ⟨_, _, same⟩ := Option.map_eq_some_iff.mp written
    exact (Prod.mk.inj same).1.symm
  rw [CSlice.cloneToOwned, issued_copy] at effect
  simp only [copiedLoan, loaned]
  exact wrote ▸ effect

theorem zStringArrayPushByCopy_effect {array length : Nat} {value : Loan}
    (counted : store.Counted 0)
    (pushed : store.zStringArrayPushByCopy allocator array value = some (length, next))
    : store.Effect (store.copiedLoan allocator value) zOk next := by
  simp only [zStringArrayPushByCopy, Option.bind_eq_bind, Option.bind_eq_some_iff] at pushed
  obtain ⟨slice, loaned, pushed⟩ := pushed
  have effect := pushElement_effect counted pushed
  rw [CSlice.cloneToOwned, issued_copy] at effect
  simp only [copiedLoan, loaned]
  exact effect

/-- An alias is an element without a deleter. -/
theorem zStringArrayPushByAlias_effect {array length : Nat} {value : Loan}
    (counted : store.Counted 0)
    (pushed : store.zStringArrayPushByAlias array value = some (length, next))
    : store.Effect 0 zOk next := by
  simp only [zStringArrayPushByAlias, Option.bind_eq_bind, Option.bind_eq_some_iff] at pushed
  obtain ⟨slice, loaned, pushed⟩ := pushed
  exact pushElement_effect counted pushed

/-- What a call with several outcomes boxes. -/
def boxedIf (allocator : Allocator) (store : SliceStore) : Except Failure Nat → Multiset Release
  | .ok len => boxed store.next (allocator.address store.next) len
  | .error _ => 0

theorem constructBoxed_effect {kind : TextKind} {dst : Nat} {made : Except Failure Nat}
    (counted : store.Counted 0)
    (ran : store.constructBoxed allocator kind dst made = some (code, next))
    : store.Effect (boxedIf allocator store made) code next := by
  have effect := constructOwned_effect counted ran
  cases made with
  | error failure => exact effect
  | ok len => exact effect.congr (issued_fromVec ..)

theorem deserializeInto_effect {kind : TextKind} {dst : Nat} {read : Except String Nat}
    (counted : store.Counted 0)
    (ran : store.deserializeInto allocator kind dst read = some (code, next))
    : store.Effect
        (match read with
          | .ok len => boxed store.next (allocator.address store.next) len
          | .error _ => 0)
        code next := by
  have effect := constructBoxed_effect counted ran
  cases read with
  | error text => exact effect
  | ok len => exact effect

/-- What is constructed without a failure returns `Z_OK`. -/
theorem constructOwned_ok {kind : TextKind} {dst : Nat} {slice : CSlice}
    (ran : store.constructOwned kind dst (.ok slice) = some (code, next))
    : code = zOk :=
  (map_code_eq_some_iff.mp ran).2

theorem formatted_effect {dst len : Nat} (counted : store.Counted 0)
    (written
      : (store.constructBoxed allocator .string dst (.ok len)).map Prod.snd = some next)
    : store.Effect (boxed store.next (allocator.address store.next) len) zOk next := by
  obtain ⟨⟨code, after⟩, ran, rfl⟩ := Option.map_eq_some_iff.mp written
  have effect := constructBoxed_effect counted ran
  rw [constructOwned_ok ran] at effect
  exact effect

theorem constructOptional_effect {dst : Nat} {text : Option Nat} (counted : store.Counted 0)
    (written : store.constructOptional allocator dst text = some next)
    : store.Effect
        (match text with
          | some len => boxed store.next (allocator.address store.next) len
          | none => 0)
        zOk next := by
  cases text with
  | none => exact construct_blank counted written rfl rfl
  | some len => exact formatted_effect counted written

/-- A refused copy registers nothing, so that the code may be overlooked. -/
theorem copyText_effect {dst len : Nat} {text : Ptr} (counted : store.Counted 0)
    (written : store.copyText allocator dst text len = some next)
    : store.Effect (copiedFrom store.next text len (allocator.address store.next)) zOk next := by
  obtain ⟨⟨code, after⟩, ran, rfl⟩ := Option.map_eq_some_iff.mp written
  have effect := (constructOwned_effect counted ran).congr (issued_newOwned ..)
  exact { effect with succeeded := fun _ => rfl }

theorem zcConfigGetFromSubstr_effect {key : Ptr} {keyText : Except String String}
    {value : Option (Ptr × Nat)} {dst : Nat} (counted : store.Counted 0)
    (ran
      : store.zcConfigGetFromSubstr allocator key keyText value dst = some (code, next))
    : store.Effect (store.copiedValue allocator key keyText value) code next := by
  unfold zcConfigGetFromSubstr at ran
  split at ran
  case isTrue isNull =>
    have nothing : store.copiedValue allocator key keyText value = 0 := by
      unfold copiedValue
      split
      · exact if_pos isNull
      · rfl
    exact (constructOwned_effect counted ran).congr nothing.symm
  case isFalse present =>
    cases keyText with
    | error text => exact constructOwned_effect counted ran
    | ok key =>
        cases value with
        | none => exact constructOwned_effect counted ran
        | some value =>
            obtain ⟨copied, rfl⟩ := map_code_eq_some_iff.mp ran
            exact (copyText_effect counted copied).congr (if_neg present).symm

theorem zcConfigToString_effect {made : Except String (Ptr × Nat)} {dst : Nat}
    (counted : store.Counted 0)
    (ran : store.zcConfigToString allocator made dst = some (code, next))
    : store.Effect (store.registers allocator (.zcConfigToString made dst)) code next := by
  unfold zcConfigToString at ran
  cases made with
  | error text => exact constructOwned_effect counted ran
  | ok text =>
      obtain ⟨copied, rfl⟩ := map_code_eq_some_iff.mp ran
      exact copyText_effect counted copied

theorem zBytesToSlice_effect {src : Payload} {dst : Nat} (counted : store.Counted 0)
    (ran : store.zBytesToSlice allocator src dst = some (code, next))
    : store.Effect (store.boxedPayload allocator src) code next := by
  obtain ⟨len, measured, ran⟩ := Option.bind_eq_some_iff.mp ran
  simp only [boxedPayload, measured]
  exact constructBoxed_effect counted ran

theorem zBytesToString_effect {src : Payload} {dst : Nat} {decoded : Except String Unit}
    (counted : store.Counted 0)
    (ran : store.zBytesToString allocator src dst decoded = some (code, next))
    : store.Effect (store.registers allocator (.zBytesToString src dst decoded)) code
        next := by
  obtain ⟨len, measured, ran⟩ := Option.bind_eq_some_iff.mp ran
  have effect := constructBoxed_effect counted ran
  cases decoded with
  | error text => exact effect
  | ok _ =>
      simp only [registers, boxedPayload, measured]
      exact effect

/-- Declaring a variable adds a slot that holds nothing. -/
theorem declare_effect (counted : store.Counted 0)
    : store.Effect 0 zOk { store with slots := store.slots ++ [.uninit] } := by
  refine Effect.quiet (counted.moved ?_ rfl) ?_ rfl
  · simp only [references, tally_append, tally_cons, tally_nil, Slot.refs, add_zero]
  · simp only [account, held, tally_append, tally_cons, tally_nil, Slot.holds, add_zero]

/-- Every call has the effect that `registers` announces, one case for each call. -/
theorem exec_effect {call : Call} (counted : store.Counted 0)
    (ran : store.exec allocator call = some (code, next))
    : store.Effect (store.registers allocator call) code next := by
  have blank : ∀ {dst : Nat} {content : Slot},
      (store.construct dst content).map (zOk, ·) = some (code, next)
      → content.holds = 0
      → content.refs = 0
      → store.Effect 0 code next := by
    intro dst content ran holds refs
    obtain ⟨written, rfl⟩ := map_code_eq_some_iff.mp ran
    exact construct_blank counted written holds refs
  cases call with
  | declare =>
      cases ran
      exact declare_effect counted
  | zSliceEmpty dst => exact blank ran rfl rfl
  | zInternalSliceNull dst => exact blank ran rfl rfl
  | zStringEmpty dst => exact blank ran rfl rfl
  | zInternalStringNull dst => exact blank ran rfl rfl
  | zViewSliceEmpty dst => exact blank ran rfl rfl
  | zViewStringEmpty dst => exact blank ran rfl rfl
  | zBytesEmpty dst => exact blank ran rfl rfl
  | zStringArrayNew dst => exact blank ran rfl rfl
  | zSliceCopyFromBuf dst start len =>
      exact (constructOwned_effect counted ran).congr (issued_newOwned ..)
  | zSliceFromBuf dst data len drop context =>
      exact (constructOwned_effect counted ran).congr (issued_new ..)
  | zStringCopyFromSubstr dst str len =>
      exact (constructOwned_effect counted ran).congr (issued_newOwned ..)
  | zStringCopyFromStr dst str strlen =>
      exact (constructOwned_effect counted ran).congr (issued_newOwned ..)
  | zStringFromStr dst str strlen drop context =>
      exact (constructOwned_effect counted ran).congr (issued_new ..)
  | zViewSliceFromBuf dst start len => exact constructView_effect counted ran
  | zViewStringFromSubstr dst str len => exact constructView_effect counted ran
  | zViewStringFromStr dst str strlen => exact constructView_effect counted ran
  | zSliceClone dst src =>
      obtain ⟨cloned, rfl⟩ := map_code_eq_some_iff.mp ran
      exact cloneInto_effect counted cloned
  | zStringClone dst src =>
      obtain ⟨cloned, rfl⟩ := map_code_eq_some_iff.mp ran
      exact cloneInto_effect counted cloned
  | take dst src =>
      obtain ⟨taken, rfl⟩ := map_code_eq_some_iff.mp ran
      exact take_effect counted taken
  | drop target =>
      obtain ⟨dropped, rfl⟩ := map_code_eq_some_iff.mp ran
      exact drop_effect counted dropped
  | zBytesFromSlice dst src =>
      obtain ⟨moved, rfl⟩ := map_code_eq_some_iff.mp ran
      exact bytesFromOwned_effect counted moved
  | zBytesFromString dst src =>
      obtain ⟨moved, rfl⟩ := map_code_eq_some_iff.mp ran
      exact bytesFromOwned_effect counted moved
  | zBytesFromBuf dst data len deleter context =>
      exact (constructBytes_effect counted ran).congr (issued_new ..)
  | zBytesFromStaticBuf dst data len =>
      exact (constructBytes_effect counted ran).congr
        ((issued_new ..).trans (handedOver_none ..))
  | zBytesCopyFromBuf dst data len =>
      exact (constructBytes_effect counted ran).congr (issued_newOwned ..)
  | zBytesFromStr dst str strlen deleter context =>
      exact (constructBytes_effect counted ran).congr (issued_new ..)
  | zBytesFromStaticStr dst str strlen =>
      exact (constructBytes_effect counted ran).congr
        ((issued_new ..).trans (handedOver_none ..))
  | zBytesCopyFromStr dst str strlen =>
      exact (constructBytes_effect counted ran).congr (issued_newOwned ..)
  | zBytesCopyFromLoaned dst src =>
      obtain ⟨copy, rfl⟩ := map_code_eq_some_iff.mp ran
      exact zBytesCopyFromLoaned_effect counted copy
  | zBytesClone dst src =>
      obtain ⟨cloned, rfl⟩ := map_code_eq_some_iff.mp ran
      exact zBytesClone_effect counted cloned
  | zBytesToSlice src dst => exact zBytesToSlice_effect counted ran
  | zBytesToString src dst decoded => exact zBytesToString_effect counted ran
  | zeDeserializeSlice dst read | zeDeserializeString dst read
  | zeDeserializerDeserializeSlice dst read | zeDeserializerDeserializeString dst read =>
      have effect := deserializeInto_effect counted ran
      cases read <;> exact effect
  | zIdToString dst len | zLinkSrc dst len | zLinkDst dst len =>
      obtain ⟨written, rfl⟩ := map_code_eq_some_iff.mp ran
      exact formatted_effect counted written
  | zLinkGroup dst text | zLinkAuthIdentifier dst text =>
      obtain ⟨written, rfl⟩ := map_code_eq_some_iff.mp ran
      have effect := constructOptional_effect counted written
      cases text <;> exact effect
  | zEncodingToString dst text len =>
      obtain ⟨written, rfl⟩ := map_code_eq_some_iff.mp ran
      exact copyText_effect counted written
  | zcConfigGetFromStr key keyText value dst | zcConfigGetFromSubstr key keyText value dst =>
      exact zcConfigGetFromSubstr_effect counted ran
  | zcConfigToString made dst => exact zcConfigToString_effect counted ran
  | zStringArrayPushByCopy array value =>
      obtain ⟨⟨length, after⟩, pushed, same⟩ := Option.map_eq_some_iff.mp ran
      cases same
      exact zStringArrayPushByCopy_effect counted pushed
  | zStringArrayPushByAlias array value =>
      obtain ⟨⟨length, after⟩, pushed, same⟩ := Option.map_eq_some_iff.mp ran
      cases same
      exact zStringArrayPushByAlias_effect counted pushed
  | zStringArrayClone dst src =>
      obtain ⟨cloned, rfl⟩ := map_code_eq_some_iff.mp ran
      exact zStringArrayClone_effect counted cloned

/-- What every call of a program may rely on and keeps. -/
structure Sound (store : SliceStore) : Prop where
  counted : store.Counted 0
  stamped : Stamped Release.origin store.next store.account

theorem init_sound : init.Sound :=
  ⟨fun _ => rfl, Stamped.empty Release.origin 0⟩

/-- One call keeps the store sound and adds exactly its registrations to the account. -/
theorem step_sound {call : Call} (sound : store.Sound)
    (stepped : (machine allocator).step store call = some next)
    : next.Sound ∧ next.account = store.account + store.registers allocator call := by
  obtain ⟨⟨code, after⟩, ran, rfl⟩ := Option.map_eq_some_iff.mp stepped
  have effect := exec_effect sound.counted ran
  refine ⟨⟨effect.counted, ?_⟩, effect.account⟩
  rw [effect.account]
  exact effect.stamped store.account sound.stamped

/-- A slot reaches what it holds by itself, and what its shared slices owe. -/
theorem reaches_iff {release : Release} {slot : Slot}
    : store.Reaches release slot
      ↔ release ∈ slot.holds
        ∨ ∃ buffer ∈ slot.refs, ∃ cell,
            store.shared[buffer]? = some cell ∧ release ∈ cell.content.owed := by
  cases slot with
  | uninit | view _ _ => simp [Reaches, Slot.holds, Slot.refs]
  | owned kind content => simp [Reaches, Slot.holds, Slot.refs]
  | array elements => simp [Reaches, Slot.holds, Slot.refs, mem_tally]
  | bytes buffers => simp [Reaches, Slot.holds, Slot.refs, Owned.owed]

/-- In a sound store a release is held exactly when an owner can reach its buffer. -/
theorem mem_held_iff (sound : store.Sound) {release : Release}
    : release ∈ store.held ↔ store.Live release := by
  have counted : Counts store.shared store.references := by
    rw [← add_zero store.references]
    exact sound.counted
  have slots {τ : Type} (holds : Slot → Multiset τ) {token : τ}
      : token ∈ tally holds store.slots + tally holds store.forgotten
        ↔ ∃ slot ∈ store.slots ++ store.forgotten, token ∈ holds slot := by
    rw [← tally_append, mem_tally]
  rw [held, Multiset.mem_add, slots, counted.mem_owed_iff]
  constructor
  · intro kept
    rcases kept with ⟨slot, inside, holds⟩ | ⟨buffer, refers, reached⟩
    · exact ⟨slot, inside, reaches_iff.mpr (Or.inl holds)⟩
    · obtain ⟨slot, inside, refs⟩ := (slots Slot.refs).mp refers
      exact ⟨slot, inside, reaches_iff.mpr (Or.inr ⟨buffer, refs, reached⟩)⟩
  · intro live
    obtain ⟨slot, inside, reaches⟩ := live
    rcases reaches_iff.mp reaches with holds | ⟨buffer, refs, reached⟩
    · exact Or.inl ⟨slot, inside, holds⟩
    · exact Or.inr ⟨buffer, (slots Slot.refs).mpr ⟨slot, inside, refs⟩, reached⟩

/-- Over every program, what is held and what has been called is what was registered. -/
theorem run_balanced {calls : List Call}
    (ran : (machine allocator).run calls = some store)
    : store.Sound
      ∧ Balanced store.held store.calls
          ((machine allocator).collect (registers allocator) init calls) := by
  obtain ⟨sound, accounted⟩ :=
    Machine.run_account
      (fun state call next sound stepped => step_sound sound stepped) ran init_sound rfl
  exact ⟨sound, ⟨accounted, accounted ▸ sound.stamped.nodup⟩⟩

/-- In every program each registered deleter runs at most once with its own data and
context, exactly once when no owner can reach its buffer any more, and never before that.
Only registered deleters run, and only calls that return `Z_OK` register any.
-/
theorem deleters_run_once (allocator : Allocator) {calls : List Call} {store : SliceStore}
    (ran : (machine allocator).run calls = some store) (release : Release)
    : store.calls.count release ≤ 1
      ∧ (store.Live release → release ∉ store.calls)
      ∧ (release ∈ (machine allocator).collect (registers allocator) init calls
          → ¬store.Live release
          → store.calls.count release = 1)
      ∧ (release ∈ store.calls
          → ∃ before call after state next,
              calls = before ++ call :: after
              ∧ (machine allocator).run before = some state
              ∧ state.exec allocator call = some (zOk, next)
              ∧ release ∈ state.registers allocator call) := by
  obtain ⟨sound, balanced⟩ := run_balanced ran
  refine ⟨?_, ?_, ?_, ?_⟩
  · have once := balanced.released_once release
    rwa [Multiset.coe_count] at once
  · intro live called
    exact balanced.held_not_released ((mem_held_iff sound).mpr live) called
  · intro registered dead
    have once := balanced.released_exactly_once registered
      (fun held => dead ((mem_held_iff sound).mp held))
    rwa [Multiset.coe_count] at once
  · intro called
    obtain ⟨before, call, after, state, rfl, reached, registered⟩ :=
      Machine.mem_collect (balanced.released_issued (Multiset.mem_coe.mpr called))
    obtain ⟨middle, reachedAgain, continued⟩ := Machine.runFrom_append_iff.mp ran
    have same : middle = state := Option.some.inj (reachedAgain.symm.trans reached)
    obtain ⟨next, stepped, _⟩ := Machine.runFrom_cons_iff.mp continued
    obtain ⟨⟨code, final⟩, executed, rfl⟩ := Option.map_eq_some_iff.mp stepped
    subst same
    have effect := exec_effect (run_balanced reached).1.counted executed
    have succeeded := effect.succeeded (fun none => by simp [none] at registered)
    subst succeeded
    exact ⟨before, call, after, middle, final, rfl, reached, executed, registered⟩

/-- A buffer with a user deleter that is moved, dropped, and dropped again. -/
theorem deleters_run_once_moved_and_dropped_twice
    : let boxes : Allocator := ⟨fun index => index + 1, fun index => Nat.succ_ne_zero index⟩
      let calls :=
        [.declare, .declare, .zSliceFromBuf 0 64 3 (some (.user 7)) 9, .take 1 0, .drop 1,
          .drop 1, .drop 0]
      let release : Release :=
        { origin := 0, call := { deleter := .user 7, data := 64, context := 9 } }
      let gone := Slot.owned .slice Owned.gravestone
      let store : SliceStore :=
        { slots := [gone, gone], forgotten := [.uninit, .uninit], shared := [], next := 1,
          calls := [release] }
      (machine boxes).run calls = some store ∧ store.calls.count release = 1 := by
  intro boxes calls release gone store
  have ran : (machine boxes).run calls = some store := rfl
  have registered : release ∈ (machine boxes).collect (registers boxes) init calls := by decide
  refine ⟨ran, (deleters_run_once boxes ran release).2.2.1 registered ?_⟩
  intro live
  rcases live with ⟨slot, inside, reaches⟩
  have blank : slot = gone ∨ slot = .uninit := by
    simpa [store] using inside
  rcases blank with rfl | rfl
  · cases reaches
  · cases reaches

end SliceStore

end ZenohC
