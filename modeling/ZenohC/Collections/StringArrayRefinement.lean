import Mathlib.Data.List.Perm.Basic
import Mathlib.Logic.Basic
import ZenohC.Collections.StringArrays

/-! String arrays refine lists of byte strings.
Every element can be read at every time, and the boxes of the copies are all apart: what a call
takes into use or gives back is never what another array shows.
-/

namespace ZenohC

open Library

namespace CSlice

variable {memory next : Memory UInt8} {slice : CSlice} {bytes : List UInt8} {fresh : Ptr}

theorem slice_eq_read : slice.slice memory = memory.read slice.region := by
  rw [CSlice.slice]
  split
  case isTrue empty =>
    rw [beq_iff_eq] at empty
    rw [Memory.read, region, empty, Memory.read.go]
  case isFalse => rfl

/-- What a slice shows stays the same where memory only grows. -/
theorem slice_of_extends (grown : memory.Extends next) (shows : slice.slice memory = some bytes)
    : slice.slice next = some bytes := by
  rw [slice_eq_read] at shows ⊢
  exact grown.read shows

/-- A slice is borrowed, or it owns exactly what it shows. -/
def Sound (slice : CSlice) : Prop :=
  slice.isOwned = false ∨ slice.box = some slice.region

theorem box_of_borrowed (borrowed : slice.isOwned = false) : slice.box = none := by
  have none : slice.drop = none := by simpa [isOwned] using borrowed
  rw [box, dropCall, none]
  rfl

theorem Sound.box_eq (sound : slice.Sound) {box : Span} (owned : slice.box = some box)
    : box = slice.region := by
  rcases sound with borrowed | own
  · rw [box_of_borrowed borrowed] at owned
    cases owned
  · exact Option.some.inj (owned.symm.trans own)

theorem sound_cloneToBorrowed : slice.cloneToBorrowed.Sound :=
  .inl rfl

theorem clone_of_empty (empty : slice.len = 0) : slice.clone fresh = gravestone := by
  rw [clone, newOwnedUnchecked, empty]
  rfl

theorem clone_of_nonempty (nonempty : slice.len ≠ 0)
    : slice.clone fresh = wrap fresh slice.len := by
  rw [clone, newOwnedUnchecked, if_neg (by simpa using nonempty)]

theorem sound_clone : (slice.clone fresh).Sound := by
  rcases eq_or_ne slice.len 0 with empty | nonempty
  · rw [clone_of_empty empty]
    exact .inl rfl
  · rw [clone_of_nonempty nonempty]
    exact .inr rfl

/-- The box of a copy is the one that was handed out for it; an empty copy has none. -/
theorem box_clone {box : Span} (owned : (slice.clone fresh).box = some box)
    : box = { start := fresh, len := slice.len } := by
  rcases eq_or_ne slice.len 0 with empty | nonempty
  · rw [clone_of_empty empty] at owned
    cases owned
  · rw [clone_of_nonempty nonempty] at owned
    exact (Option.some.inj owned).symm

/-- A copy succeeds where the original can be read, and it shows the same bytes; nothing that
was in use changes, and no more comes into use than what was handed out.
-/
theorem copy_spec (shows : slice.slice memory = some bytes)
    (free : memory.Free { start := fresh, len := slice.len })
    : ∃ next,
        slice.copy memory fresh = some (slice.clone fresh, next)
        ∧ memory.Extends next
        ∧ (slice.clone fresh).slice next = some bytes
        ∧ ∀ span : Span,
            memory.Free span
            → span.Apart { start := fresh, len := slice.len }
            → next.Free span := by
  rcases eq_or_ne slice.len 0 with empty | nonempty
  · refine
      ⟨memory, by simp [copy, empty], Memory.Extends.refl memory, ?_, fun _ unused _ => unused⟩
    have nothing : slice.slice memory = some [] := by
      rw [CSlice.slice, if_pos (by simpa using empty)]
    rw [clone_of_empty empty, ← shows, nothing]
    rfl
  · rw [slice_eq_read] at shows
    have size : bytes.length = slice.len := (Memory.read_eq_some_iff.mp shows).1
    rw [← size] at free
    refine ⟨memory.place fresh bytes, ?_, Memory.extends_place free, ?_, ?_⟩
    · simp [copy, nonempty, shows]
    · rw [clone_of_nonempty nonempty, slice_eq_read, ← size]
      exact Memory.read_place
    · intro span unused apart
      rw [← size] at apart
      exact unused.place apart

/-- Freeing a slice does not touch what is apart from its box. -/
theorem slice_free {other : CSlice}
    (apart : ∀ box, slice.box = some box → other.region.Apart box)
    : other.slice (slice.free memory) = other.slice memory := by
  rw [slice_eq_read, slice_eq_read, free]
  cases owned : slice.box with
  | none => rfl
  | some box => exact Memory.read_release (apart box owned)

end CSlice

/-- Dropping a vector does not touch what is apart from its boxes. -/
theorem slice_zStringArrayDrop {memory : Memory UInt8} {this : ZVector} {other : CSlice}
    (apart : ∀ box ∈ this.filterMap CSlice.box, other.region.Apart box)
    : other.slice (zStringArrayDrop memory this).2 = other.slice memory := by
  rw [zStringArrayDrop]
  induction this generalizing memory with
  | nil => rfl
  | cons slice rest ih =>
      rw [List.foldl_cons, ih]
      · apply CSlice.slice_free
        intro box owned
        exact apart box (List.mem_filterMap.mpr ⟨slice, List.mem_cons_self, owned⟩)
      · intro box member
        obtain ⟨owner, inRest, owned⟩ := List.mem_filterMap.mp member
        exact apart box (List.mem_filterMap.mpr ⟨owner, List.mem_cons_of_mem slice inRest, owned⟩)

namespace StringArrays

variable {memory next : Memory UInt8} {this : ZVector} {fresh : List Ptr}
  {strings : List (List UInt8)}

/-- The elements of a vector show the given strings. -/
def Show (memory : Memory UInt8) (this : ZVector) (strings : List (List UInt8)) : Prop :=
  this.map (CSlice.slice memory) = strings.map some

theorem Show.of_extends (shows : Show memory this strings) (grown : memory.Extends next)
    : Show next this strings := by
  rw [Show] at shows ⊢
  induction this generalizing strings with
  | nil => exact shows
  | cons slice rest ih =>
      cases strings with
      | nil => cases shows
      | cons bytes strings =>
          simp only [List.map_cons, List.cons.injEq] at shows ⊢
          exact ⟨CSlice.slice_of_extends grown shows.1, ih shows.2⟩

/-- Cloning a vector that can be read succeeds, element by element. -/
theorem zStringArrayClone_spec (shows : Show memory this strings)
    (sized : fresh.length = this.length)
    (free : ∀ box ∈ boxesFor this fresh, memory.Free box)
    (apart : (boxesFor this fresh).Pairwise Span.Apart)
    : ∃ next,
        zStringArrayClone memory this fresh = some (List.zipWith CSlice.clone this fresh, next)
        ∧ memory.Extends next
        ∧ Show next (List.zipWith CSlice.clone this fresh) strings := by
  induction this generalizing memory strings fresh with
  | nil => exact ⟨memory, rfl, Memory.Extends.refl memory, shows⟩
  | cons slice rest ih =>
      cases strings with
      | nil => cases shows
      | cons bytes strings =>
          cases fresh with
          | nil => cases sized
          | cons place places =>
              simp only [Show, List.map_cons, List.cons.injEq] at shows
              simp only [boxesFor, List.zipWith_cons_cons, List.mem_cons, forall_eq_or_imp,
                List.pairwise_cons] at free apart
              obtain ⟨first, copied, grown, same, rest_free⟩ :=
                CSlice.copy_spec shows.1 free.1
              obtain ⟨last, cloned, again, others⟩ :=
                ih (Show.of_extends shows.2 grown) (by simpa using sized)
                  (fun box member =>
                    rest_free box (free.2 box member) (apart.1 box member).symm)
                  apart.2
              refine ⟨last, ?_, grown.trans again, ?_⟩
              · simp [zStringArrayClone, copied, cloned]
              · simp only [Show, List.zipWith_cons_cons, List.map_cons, List.cons.injEq]
                exact ⟨CSlice.slice_of_extends again same, others⟩

theorem sound_of_mem_clone {slice : CSlice}
    (member : slice ∈ List.zipWith CSlice.clone this fresh)
    : slice.Sound := by
  rw [← List.map_uncurry_zip_eq_zipWith] at member
  obtain ⟨⟨source, place⟩, -, rfl⟩ := List.mem_map.mp member
  exact CSlice.sound_clone

/-- A copy shows nothing but what was handed out for it. -/
theorem free_region_clone {slice : CSlice} {place : Ptr}
    (free : memory.Free { start := place, len := slice.len })
    : memory.Free (slice.clone place).region := by
  rcases eq_or_ne slice.len 0 with empty | nonempty
  · rw [CSlice.clone_of_empty empty]
    intro offset inside
    cases inside
  · rw [CSlice.clone_of_nonempty nonempty]
    exact free

/-- The copies of a vector show nothing but what was handed out for them. -/
theorem free_region_of_mem_clone {slice : CSlice}
    (free : ∀ box ∈ boxesFor this fresh, memory.Free box)
    (member : slice ∈ List.zipWith CSlice.clone this fresh)
    : memory.Free slice.region := by
  rw [← List.map_uncurry_zip_eq_zipWith] at member
  obtain ⟨⟨source, place⟩, paired, rfl⟩ := List.mem_map.mp member
  refine free_region_clone (free _ ?_)
  rw [boxesFor, ← List.map_uncurry_zip_eq_zipWith]
  exact List.mem_map.mpr ⟨(source, place), paired, rfl⟩

/-- The boxes of the copies are among those that were handed out. -/
theorem boxes_clone_sublist
    : ((List.zipWith CSlice.clone this fresh).filterMap CSlice.box).Sublist
        (boxesFor this fresh) := by
  induction this generalizing fresh with
  | nil => exact List.Sublist.refl _
  | cons slice rest ih =>
      cases fresh with
      | nil => exact List.Sublist.refl _
      | cons place places =>
          simp only [boxesFor, List.zipWith_cons_cons, List.filterMap_cons]
          cases owned : (slice.clone place).box with
          | none => exact ih.cons _
          | some box =>
              rw [CSlice.box_clone owned]
              exact ih.cons_cons _

-----------------------------------------------------------------------------------------
-- The boxes of all arrays together
-----------------------------------------------------------------------------------------

/-- Each element is sound, and the boxes are apart from one another. -/
structure Boxed (elements : List CSlice) : Prop where
  sound : ∀ slice ∈ elements, slice.Sound
  apart : (elements.filterMap CSlice.box).Pairwise Span.Apart

theorem Boxed.nil : Boxed [] where
  sound := fun slice member => by cases member
  apart := List.Pairwise.nil

theorem Boxed.perm {left right : List CSlice} (boxed : Boxed left) (same : left.Perm right)
    : Boxed right where
  sound := fun slice member => boxed.sound slice (same.mem_iff.mpr member)
  apart := boxed.apart.perm (same.filterMap CSlice.box) Span.Apart.symm

theorem boxed_append_iff {left right : List CSlice}
    : Boxed (left ++ right)
      ↔ Boxed left
        ∧ Boxed right
        ∧ ∀ box ∈ left.filterMap CSlice.box,
            ∀ other ∈ right.filterMap CSlice.box, box.Apart other := by
  constructor
  · intro boxed
    have apart := boxed.apart
    rw [List.filterMap_append, List.pairwise_append] at apart
    exact
      ⟨⟨fun slice member => boxed.sound slice (List.mem_append_left right member), apart.1⟩,
        ⟨fun slice member => boxed.sound slice (List.mem_append_right left member), apart.2.1⟩,
        apart.2.2⟩
  · rintro ⟨first, second, cross⟩
    constructor
    · intro slice member
      rcases List.mem_append.mp member with inLeft | inRight
      · exact first.sound slice inLeft
      · exact second.sound slice inRight
    · rw [List.filterMap_append, List.pairwise_append]
      exact ⟨first.apart, second.apart, cross⟩

/-- The elements of all arrays are those of one of them and those of the others. -/
theorem flatten_perm {α : Type} {lists : List (List α)} {index : Nat} {list : List α}
    (found : lists[index]? = some list)
    : lists.flatten.Perm (list ++ (lists.eraseIdx index).flatten) := by
  induction lists generalizing index with
  | nil => cases found
  | cons head rest ih =>
      cases index with
      | zero =>
          cases found
          exact List.Perm.refl _
      | succ index =>
          simp only [List.flatten_cons, List.eraseIdx_cons_succ]
          refine ((ih found).append_left head).trans ?_
          rw [← List.append_assoc, ← List.append_assoc]
          exact List.perm_append_comm.append_right _

theorem flatten_set_perm {α : Type} {lists : List (List α)} {index : Nat} {list : List α}
    (inside : index < lists.length)
    : (lists.set index list).flatten.Perm (list ++ (lists.eraseIdx index).flatten) := by
  have found : (lists.set index list)[index]? = some list := by
    rw [List.getElem?_set_self inside]
  have again := flatten_perm found
  rwa [List.eraseIdx_set_eq] at again

-----------------------------------------------------------------------------------------
-- One step
-----------------------------------------------------------------------------------------

/-- The arrays show the lists of the model, each element through memory that no box but its
own lies in.
-/
structure Refines (store : Store) (model : Model) : Prop where
  shows : store.arrays.map (List.map (CSlice.slice store.memory)) = model.map (List.map some)
  boxed : Boxed store.arrays.flatten

variable {store : Store} {model : Model} {array : Nat} {value : CSlice} {bytes : List UInt8}

theorem refines_init : Refines machine.init.store machine.init.model :=
  ⟨rfl, Boxed.nil⟩

theorem Refines.length (refines : Refines store model) : store.arrays.length = model.length := by
  have sizes := congrArg List.length refines.shows
  rwa [List.length_map, List.length_map] at sizes

/-- An array and its list. -/
theorem Refines.at (refines : Refines store model) (inside : array < store.arrays.length)
    : ∃ this strings,
        store.arrays[array]? = some this
        ∧ model[array]? = some strings
        ∧ Show store.memory this strings := by
  have inModel : array < model.length := by
    rwa [← refines.length]
  refine ⟨store.arrays[array], model[array], List.getElem?_eq_getElem inside,
    List.getElem?_eq_getElem inModel, ?_⟩
  have there := congrArg (fun lists => lists[array]?) refines.shows
  simpa [Show, inside, inModel] using there

theorem Refines.readable (refines : Refines store model) {slice : CSlice}
    (member : slice ∈ store.arrays.flatten)
    : ∃ bytes, slice.slice store.memory = some bytes := by
  obtain ⟨this, inArrays, inThis⟩ := List.mem_flatten.mp member
  have shown : this.map (CSlice.slice store.memory) ∈ model.map (List.map some) := by
    rw [← refines.shows]
    exact List.mem_map_of_mem inArrays
  obtain ⟨strings, -, same⟩ := List.mem_map.mp shown
  have read : slice.slice store.memory ∈ strings.map some := by
    rw [same]
    exact List.mem_map_of_mem inThis
  obtain ⟨bytes, -, there⟩ := List.mem_map.mp read
  exact ⟨bytes, there.symm⟩

/-- A box is all in use, so it is apart from what is free. -/
theorem Refines.box_apart (refines : Refines store model) {box free : Span}
    (member : box ∈ store.arrays.flatten.filterMap CSlice.box) (unused : store.memory.Free free)
    : box.Apart free := by
  obtain ⟨slice, inArrays, owned⟩ := List.mem_filterMap.mp member
  obtain ⟨bytes, shown⟩ := refines.readable inArrays
  rw [CSlice.slice_eq_read, ← (refines.boxed.sound slice inArrays).box_eq owned] at shown
  exact Memory.apart_of_read_of_free shown unused

/-- Memory may change where no element shows it. -/
theorem Refines.with_memory (refines : Refines store model) {memory : Memory UInt8}
    (same
      : ∀ slice ∈ store.arrays.flatten, slice.slice memory = slice.slice store.memory)
    : Refines { store with memory } model := by
  refine ⟨?_, refines.boxed⟩
  rw [← refines.shows]
  apply List.map_congr_left
  intro this inArrays
  apply List.map_congr_left
  intro slice inThis
  exact same slice (List.mem_flatten.mpr ⟨this, inArrays, inThis⟩)

theorem Refines.of_extends (refines : Refines store model) {memory : Memory UInt8}
    (grown : store.memory.Extends memory)
    : Refines { store with memory } model := by
  apply refines.with_memory
  intro slice member
  obtain ⟨bytes, shown⟩ := refines.readable member
  rw [shown, CSlice.slice_of_extends grown shown]

/-- An element behind the others of its array. -/
theorem Refines.push (refines : Refines store model) (inside : array < store.arrays.length)
    {element : CSlice} (shown : element.slice store.memory = some bytes)
    (sound : element.Sound)
    (apart
      : ∀ box,
          element.box = some box
          → ∀ other ∈ store.arrays.flatten.filterMap CSlice.box, box.Apart other)
    : Refines
        { store with
          arrays := store.arrays.set array (store.arrays[array]?.getD [] ++ [element]) }
        (model.set array (model[array]?.getD [] ++ [bytes])) := by
  obtain ⟨this, strings, found, listed, shows⟩ := refines.at inside
  rw [found, listed, Option.getD_some, Option.getD_some]
  constructor
  · rw [List.map_set, List.map_set, refines.shows]
    congr 1
    rw [List.map_append, List.map_append, shows]
    simp [shown]
  · have all := refines.boxed.perm (flatten_perm found)
    have single : Boxed [element] := by
      refine ⟨by simpa using sound, ?_⟩
      cases owned : element.box with
      | none => simp [owned]
      | some box => simp [owned]
    have added : Boxed ([element] ++ (this ++ (store.arrays.eraseIdx array).flatten)) := by
      refine boxed_append_iff.mpr ⟨single, all, ?_⟩
      intro box member other others
      obtain ⟨slice, isElement, owned⟩ := List.mem_filterMap.mp member
      rw [List.mem_singleton.mp isElement] at owned
      exact apart box owned other
        (((flatten_perm found).filterMap CSlice.box).mem_iff.mpr others)
    refine added.perm (List.Perm.trans ?_ (flatten_set_perm inside).symm)
    rw [← List.append_assoc]
    exact List.perm_append_comm.append_right _

theorem Refines.pushByAlias (refines : Refines store model)
    (legal : Legal store (.zStringArrayPushByAlias array value))
    : ∃ next,
        store.step (.zStringArrayPushByAlias array value) = some next
        ∧ Refines next
          (Event.onModel store.memory model (.zStringArrayPushByAlias array value)) := by
  obtain ⟨inside, readable⟩ := legal
  obtain ⟨bytes, shown⟩ := Option.isSome_iff_exists.mp readable
  have found : store.arrays[array]? = some store.arrays[array] :=
    List.getElem?_eq_getElem inside
  have pushed :=
    @Refines.push store model array bytes refines inside value.cloneToBorrowed shown
      CSlice.sound_cloneToBorrowed (by
        intro box owned
        rw [CSlice.box_of_borrowed rfl] at owned
        cases owned)
  rw [found, Option.getD_some] at pushed
  refine ⟨_, by rw [Store.step, found]; rfl, ?_⟩
  simpa only [Event.onModel, shown, Option.getD_some] using pushed

theorem Refines.pushByCopy (refines : Refines store model) {fresh : Ptr}
    (legal : Legal store (.zStringArrayPushByCopy array value fresh))
    : ∃ this memory,
        store.arrays[array]? = some this
        ∧ store.step (.zStringArrayPushByCopy array value fresh)
          = some { memory, arrays := store.arrays.set array (this ++ [value.clone fresh]) }
        ∧ (value.clone fresh).slice memory = value.slice store.memory
        ∧ Refines { memory, arrays := store.arrays.set array (this ++ [value.clone fresh]) }
          (Event.onModel store.memory model (.zStringArrayPushByCopy array value fresh)) := by
  obtain ⟨inside, readable, free⟩ := legal
  obtain ⟨bytes, shown⟩ := Option.isSome_iff_exists.mp readable
  have found : store.arrays[array]? = some store.arrays[array] :=
    List.getElem?_eq_getElem inside
  obtain ⟨memory, copied, grown, same, -⟩ := CSlice.copy_spec shown free
  have pushed :=
    @Refines.push { store with memory } model array bytes (refines.of_extends grown) inside
      (value.clone fresh) same CSlice.sound_clone (by
        intro box owned other member
        rw [CSlice.box_clone owned]
        exact (refines.box_apart member free).symm)
  rw [found, Option.getD_some] at pushed
  refine ⟨store.arrays[array], memory, found, ?_, same.trans shown.symm, ?_⟩
  · simp [Store.step, found, ZenohC.zStringArrayPushByCopy, copied]
  · simpa only [Event.onModel, shown, Option.getD_some] using pushed

/-- A clone comes behind all arrays; its boxes were free, so they are apart from all others. -/
theorem Refines.clone (refines : Refines store model) {fresh : List Ptr}
    (legal : Legal store (.zStringArrayClone array fresh))
    : ∃ this memory,
        store.arrays[array]? = some this
        ∧ store.step (.zStringArrayClone array fresh)
          = some
            { memory, arrays := store.arrays ++ [List.zipWith CSlice.clone this fresh] }
        ∧ Refines
            { memory, arrays := store.arrays ++ [List.zipWith CSlice.clone this fresh] }
            (Event.onModel store.memory model (.zStringArrayClone array fresh)) := by
  obtain ⟨inside, sized, free, apart⟩ := legal
  obtain ⟨this, strings, found, listed, shows⟩ := refines.at inside
  rw [found, Option.getD_some] at sized free apart
  obtain ⟨memory, cloned, grown, same⟩ := zStringArrayClone_spec shows sized free apart
  refine ⟨this, memory, found, by simp [Store.step, found, cloned], ?_⟩
  have kept := refines.of_extends grown
  have handed : ∀ box ∈ (List.zipWith CSlice.clone this fresh).filterMap CSlice.box,
      box ∈ boxesFor this fresh :=
    fun box member => boxes_clone_sublist.mem member
  constructor
  · rw [Event.onModel, listed, Option.getD_some, List.map_append, List.map_append, kept.shows]
    congr 1
    simpa [Show] using same
  · rw [List.flatten_append, List.flatten_singleton]
    refine boxed_append_iff.mpr ⟨kept.boxed, ⟨?_, apart.sublist boxes_clone_sublist⟩, ?_⟩
    · exact fun slice member => sound_of_mem_clone member
    · intro box member other copied
      exact refines.box_apart member (free other (handed other copied))

/-- Dropping an array frees its boxes, which no other array shows. -/
theorem Refines.drop (refines : Refines store model)
    (legal : Legal store (.zStringArrayDrop array))
    : ∃ next,
        store.step (.zStringArrayDrop array) = some next
        ∧ Refines next (Event.onModel store.memory model (.zStringArrayDrop array)) := by
  obtain ⟨inside, unaliased⟩ := legal
  obtain ⟨this, strings, found, -, -⟩ := refines.at inside
  rw [found, Option.getD_some] at unaliased
  have split := boxed_append_iff.mp (refines.boxed.perm (flatten_perm found))
  have others : (store.arrays.set array []).flatten.Perm (store.arrays.eraseIdx array).flatten :=
    flatten_set_perm inside
  have emptied : Refines { store with arrays := store.arrays.set array [] }
      (model.set array []) := by
    refine ⟨?_, split.2.1.perm others.symm⟩
    rw [List.map_set, List.map_set, refines.shows]
    rfl
  refine
    ⟨{ memory := (ZenohC.zStringArrayDrop store.memory this).2
       arrays := store.arrays.set array [] },
      by simp [Store.step, found, ZenohC.zStringArrayDrop], ?_⟩
  refine emptied.with_memory fun other member => slice_zStringArrayDrop fun box owned => ?_
  have elsewhere : other ∈ (store.arrays.eraseIdx array).flatten := others.mem_iff.mp member
  rcases split.2.1.sound other elsewhere with borrowed | own
  · exact unaliased box owned other elsewhere borrowed
  · have mine : other.region ∈ (store.arrays.eraseIdx array).flatten.filterMap CSlice.box :=
      List.mem_filterMap.mpr ⟨other, elsewhere, own⟩
    exact (split.2.2 box owned other.region mine).symm

/-- A legal event is carried out, and the arrays show the lists of the model again. -/
theorem step_refines {joint : Joint} {event : Event} (refines : Refines joint.store joint.model)
    (legal : LegalHere joint event)
    : ∃ next, machine.step joint event = some next ∧ Refines next.store next.model := by
  rcases joint with ⟨store, model⟩
  have carried : ∃ next,
      store.step event = some next
      ∧ Refines next (event.onModel store.memory model) := by
    cases event with
    | zStringArrayNew =>
        refine ⟨_, rfl, ?_, ?_⟩
        · rw [Event.onModel, List.map_append, List.map_append, refines.shows]
          rfl
        · simpa [ZenohC.zStringArrayNew] using refines.boxed
    | zStringArrayPushByCopy array value fresh =>
        obtain ⟨this, memory, -, stepped, -, kept⟩ := refines.pushByCopy legal
        exact ⟨_, stepped, kept⟩
    | zStringArrayPushByAlias array value => exact refines.pushByAlias legal
    | zStringArrayClone array fresh =>
        obtain ⟨this, memory, -, stepped, kept⟩ := refines.clone legal
        exact ⟨_, stepped, kept⟩
    | zStringArrayDrop array => exact refines.drop legal
    | provide start bytes => exact ⟨_, rfl, refines.of_extends (Memory.extends_place legal)⟩
    | withdraw span =>
        refine ⟨_, rfl, refines.with_memory fun slice member => ?_⟩
        rw [CSlice.slice_eq_read, CSlice.slice_eq_read, Memory.read_release (legal slice member)]
  obtain ⟨next, stepped, kept⟩ := carried
  exact ⟨{ store := next, model := event.onModel store.memory model },
    by simp [machine, stepped], kept⟩

-----------------------------------------------------------------------------------------
-- Whole runs
-----------------------------------------------------------------------------------------

theorem Refines.agrees (refines : Refines store model) : Agrees store model := by
  have both {array : Nat} {this : ZVector} {strings : List (List UInt8)}
      (found : store.arrays[array]? = some this) (listed : model[array]? = some strings)
      : Show store.memory this strings := by
    obtain ⟨inside, -⟩ := List.getElem?_eq_some_iff.mp found
    obtain ⟨again, lists, found', listed', shows⟩ := refines.at inside
    rw [found] at found'
    rw [listed] at listed'
    cases found'
    cases listed'
    exact shows
  refine ⟨refines.length, ?_, ?_⟩
  · intro array this strings found listed
    have sizes := congrArg List.length (both found listed)
    rwa [List.length_map, List.length_map] at sizes
  · intro array this strings found listed index
    have there := congrArg (fun list => list[index]?) (both found listed)
    simp only [List.getElem?_map] at there
    rw [← there, zStringArrayGet]
    split
    case isTrue outside => rw [List.getElem?_eq_none outside]
    case isFalse => rfl

theorem Refines.contents_eq (refines : Refines store model)
    (listed : model[array]? = some strings)
    : store.contents array = some (strings.map some) := by
  obtain ⟨inModel, -⟩ := List.getElem?_eq_some_iff.mp listed
  rw [← refines.length] at inModel
  obtain ⟨this, lists, found, again, shows⟩ := refines.at inModel
  rw [listed] at again
  cases again
  rw [Store.contents, found, Option.map_some, shows]

/-- The clone of an array, as the next call. -/
theorem Refines.clonedApart (refines : Refines store model)
    (legal : Legal store (.zStringArrayClone array fresh))
    : ∃ source clone after,
        store.arrays[array]? = some source
        ∧ store.step (.zStringArrayClone array fresh) = some after
        ∧ after.arrays = store.arrays ++ [clone]
        ∧ ClonedApart store after source clone := by
  obtain ⟨this, memory, found, stepped, kept⟩ := refines.clone legal
  refine ⟨this, _, _, found, stepped, rfl, ?_⟩
  obtain ⟨inside, sized, free, -⟩ := legal
  rw [found, Option.getD_some] at sized free
  have unused : ∀ copy ∈ List.zipWith CSlice.clone this fresh, store.memory.Free copy.region :=
    fun copy member => free_region_of_mem_clone free member
  refine ⟨?_, unused, ?_⟩
  · obtain ⟨inModel, -⟩ := List.getElem?_eq_some_iff.mp found
    obtain ⟨again, strings, found', listed, shows⟩ := refines.at inModel
    rw [found] at found'
    cases found'
    have behind
        : (Event.onModel store.memory model
            (.zStringArrayClone array fresh))[store.arrays.length]?
          = some strings := by
      simp [Event.onModel, listed, refines.length]
    have cloned := kept.contents_eq behind
    rw [← shows] at cloned
    simpa [Store.contents] using cloned
  · intro copy member slice inSource
    obtain ⟨bytes, shown⟩ :=
      refines.readable (List.mem_flatten.mpr ⟨this, List.mem_of_getElem? found, inSource⟩)
    rw [CSlice.slice_eq_read] at shown
    exact Memory.apart_of_read_of_free shown (unused copy member)

/-- The copy of a string, pushed as the next call. -/
theorem Refines.pushedApart (refines : Refines store model) {fresh : Ptr}
    (legal : Legal store (.zStringArrayPushByCopy array value fresh))
    : ∃ this copy after,
        store.arrays[array]? = some this
        ∧ store.step (.zStringArrayPushByCopy array value fresh) = some after
        ∧ after.arrays = store.arrays.set array (this ++ [copy])
        ∧ PushedApart store after value copy := by
  obtain ⟨this, memory, found, stepped, same, -⟩ := refines.pushByCopy legal
  refine ⟨this, _, _, found, stepped, rfl, ?_⟩
  obtain ⟨-, readable, free⟩ := legal
  obtain ⟨bytes, shown⟩ := Option.isSome_iff_exists.mp readable
  have unused := free_region_clone free
  rw [CSlice.slice_eq_read] at shown
  exact ⟨same, unused, Memory.apart_of_read_of_free shown unused⟩

/-- An event that spares an array leaves its list as it is. -/
theorem onModel_of_not_changes {event : Event} (spared : ¬event.Changes array)
    (listed : model[array]? = some strings)
    : (event.onModel memory model)[array]? = some strings := by
  obtain ⟨inside, -⟩ := List.getElem?_eq_some_iff.mp listed
  cases event with
  | zStringArrayNew => rw [Event.onModel, List.getElem?_append_left inside, listed]
  | zStringArrayPushByCopy target value fresh =>
      rw [Event.onModel, List.getElem?_set_ne spared, listed]
  | zStringArrayPushByAlias target value =>
      rw [Event.onModel, List.getElem?_set_ne spared, listed]
  | zStringArrayClone target fresh =>
      rw [Event.onModel, List.getElem?_append_left inside, listed]
  | zStringArrayDrop target => rw [Event.onModel, List.getElem?_set_ne spared, listed]
  | provide start bytes => exact listed
  | withdraw span => exact listed

/-- A legal run gets to its end, by induction over the events with the arrays showing the
lists of the model.
-/
theorem run_refines {joint : Joint} {events : List Event}
    (refines : Refines joint.store joint.model)
    (legal : machine.RunMeets LegalHere joint events)
    : ∃ last, machine.runFrom joint events = some last ∧ Refines last.store last.model :=
  @Machine.RunMeets.completes _ _ machine LegalHere (fun joint => Refines joint.store joint.model)
    (fun _ _ holds meets => step_refines holds meets) joint events legal refines

/-- A run that spares an array leaves what its elements show. -/
theorem run_spares {joint : Joint} {events : List Event}
    (refines : Refines joint.store joint.model) (inside : array < joint.store.arrays.length)
    (spared : machine.RunMeets (Spares array) joint events)
    : ∃ last,
        machine.runFrom joint events = some last
        ∧ last.store.contents array = joint.store.contents array := by
  obtain ⟨this, strings, found, listed, -⟩ := refines.at inside
  have accepts : ∀ state event,
      (Refines state.store state.model ∧ state.model[array]? = some strings)
      → Spares array state event
      → ∃ next,
          machine.step state event = some next
          ∧ Refines next.store next.model
          ∧ next.model[array]? = some strings := by
    rintro state event ⟨holds, same⟩ ⟨legal, spares⟩
    obtain ⟨next, stepped, kept⟩ := step_refines holds legal
    refine ⟨next, stepped, kept, ?_⟩
    obtain ⟨store, -, rfl⟩ := Option.map_eq_some_iff.mp stepped
    exact onModel_of_not_changes spares same
  obtain ⟨last, ended, kept, same⟩ := spared.completes accepts ⟨refines, listed⟩
  exact ⟨last, ended, by rw [kept.contents_eq same, refines.contents_eq listed]⟩

/-- A legal run of any calls gets to its end with the arrays as the lists of the model. There
a clone or a pushed copy shares nothing with what was in use before, and an array shows the same
as long as only other arrays are pushed to and dropped, and only other buffers given back.
-/
theorem string_arrays_refine_lists {events : List Event}
    (legal : machine.RunMeets LegalHere machine.init events)
    : ∃ last,
        machine.run events = some last
        ∧ Agrees last.store last.model
        ∧ (∀ array fresh,
            LegalHere last (.zStringArrayClone array fresh)
            → ∃ source clone after,
                last.store.arrays[array]? = some source
                ∧ last.store.step (.zStringArrayClone array fresh) = some after
                ∧ after.arrays = last.store.arrays ++ [clone]
                ∧ ClonedApart last.store after source clone)
        ∧ (∀ array value fresh,
            LegalHere last (.zStringArrayPushByCopy array value fresh)
            → ∃ this copy after,
                last.store.arrays[array]? = some this
                ∧ last.store.step (.zStringArrayPushByCopy array value fresh) = some after
                ∧ after.arrays = last.store.arrays.set array (this ++ [copy])
                ∧ PushedApart last.store after value copy)
        ∧ ∀ array later,
            array < last.store.arrays.length
            → machine.RunMeets (Spares array) last later
            → ∃ final,
                machine.runFrom last later = some final
                ∧ final.store.contents array = last.store.contents array := by
  obtain ⟨last, ran, refines⟩ := run_refines refines_init legal
  refine ⟨last, ran, refines.agrees, ?_, ?_, ?_⟩
  · intro array fresh possible
    exact refines.clonedApart possible
  · intro array value fresh possible
    exact refines.pushedApart possible
  · intro array later inside spared
    exact run_spares refines inside spared

/-- A buffer and an empty string go into an array, by alias and by copy; after the array is
cloned, it is dropped, and then the buffer.
-/
def aliasedRun : List Event :=
  [.provide 16 [97, 98], .zStringArrayNew,
    .zStringArrayPushByAlias 0 (CSlice.newBorrowedUnchecked 16 2),
    .zStringArrayPushByCopy 0 gravestone 32, .zStringArrayClone 0 [32, 40],
    .zStringArrayDrop 0, .withdraw { start := 16, len := 2 }]

theorem string_arrays_refine_lists_aliased
    : ∃ last,
        machine.run aliasedRun = some last
        ∧ Agrees last.store last.model
        ∧ last.model = [[], [[97, 98], []]] := by
  obtain ⟨last, ran, agrees, -⟩ :=
    @string_arrays_refine_lists aliasedRun (by decide +kernel)
  have lists : (machine.run aliasedRun).map Joint.model = some [[], [[97, 98], []]] := by
    decide +kernel
  rw [ran] at lists
  exact ⟨last, ran, agrees, Option.some.inj lists⟩

end StringArrays

end ZenohC
