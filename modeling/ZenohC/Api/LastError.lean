import Mathlib.Data.List.Forall2
import Mathlib.Logic.Function.Basic
import ZenohC.Collections.CSlice
import ZenohC.Library.Utf8Bytes

/-! The description of the last error.
Every thread has one buffer of fixed size. A message overwrites the front of it, as far as it
fits, and the view that is handed out covers what the last message has written.
-/

namespace ZenohC.LastError

open Library

/-- `Buffer<N>`, whose length never exceeds its size. -/
structure Buffer (N : Nat) where
  buffer : List UInt8
  len : Nat
  full : buffer.length = N
  within : len ≤ N

namespace Buffer

variable {N : Nat}

def default : Buffer N where
  buffer := List.replicate N 0
  len := 0
  full := List.length_replicate
  within := Nat.zero_le N

/-- The message is cut where the buffer ends, in the middle of a character if need be; what
stood behind the message stays there.
-/
def update (b : Buffer N) (error : String) : Buffer N where
  buffer :=
    (utf8 error).take (min (utf8 error).length N)
      ++ b.buffer.drop (min (utf8 error).length N)
  len := min (utf8 error).length N
  full := by
    rw [List.length_append, List.length_take, List.length_drop, b.full]
    omega
  within := Nat.min_le_right _ _

end Buffer

/-- The size of the buffer behind `ERROR_DESCRIPTION`. -/
def capacity : Nat := 1024

/-- `ERROR_DESCRIPTION`, by thread. -/
abbrev ErrorDescription := Nat → Buffer capacity

/-- Where the buffer of a thread stands. -/
structure BufferPlaces where
  address : Nat → Ptr
  nonnull : ∀ thread, (address thread).isNull = false

/-- `zc_get_last_error`, through `z_view_string_from_substr`. -/
def zcGetLastError (places : BufferPlaces) (state : ErrorDescription) (thread : Nat) : CSlice :=
  match CSlice.newBorrowed (places.address thread) (state thread).len with
  | .ok slice => slice
  | .error _ => gravestone

/-- The bytes that a view of the buffer of a thread shows. -/
def shown (state : ErrorDescription) (thread : Nat) (view : CSlice) : List UInt8 :=
  if view.data.isNull then [] else (state thread).buffer.take view.len

inductive Event where
  | reportError (thread : Nat) (message : String)
  | zcGetLastError (thread : Nat)
  deriving DecidableEq, Repr

/-- What the calls of `zc_get_last_error` show, one after the other. -/
def views (places : BufferPlaces) : ErrorDescription → List Event → List (List UInt8)
  | _, [] => []
  | state, .reportError thread message :: rest =>
      views places (Function.update state thread ((state thread).update message)) rest
  | state, .zcGetLastError thread :: rest =>
      shown state thread (zcGetLastError places state thread) :: views places state rest

-----------------------------------------------------------------------------------------
-- What the calls are for
-----------------------------------------------------------------------------------------

/-- The message each thread has reported last, if it has reported any. -/
abbrev LastMessages := Nat → Option String

/-- The message that each call of `zc_get_last_error` is about. -/
def asked : LastMessages → List Event → List (Option String)
  | _, [] => []
  | last, .reportError thread message :: rest =>
      asked (Function.update last thread (some message)) rest
  | last, .zcGetLastError thread :: rest => last thread :: asked last rest

/-- A view shows a text from the front of the message, and all of it if there is room. -/
structure Shows (view : List UInt8) (message : String) : Prop where
  fits : view.length ≤ capacity
  valid : (decodeUtf8 view).isSome = true
  front : view <+: utf8 message
  whole : (utf8 message).length ≤ capacity → view = utf8 message

/-- Before any message there is nothing to show. -/
def Answers (view : List UInt8) : Option String → Prop
  | none => view = []
  | some message => Shows view message

/-- The end of the buffer, if the message reaches it, is between two characters. -/
def CutBetweenChars (message : String) : Prop :=
  ∃ head tail, message = head ++ tail ∧ (utf8 head).length = min capacity (utf8 message).length

variable {places : BufferPlaces} {state : ErrorDescription} {last : LastMessages}

/-- What a buffer shows after a message. -/
def visible (message : Option String) : List UInt8 :=
  ((message.map utf8).getD []).take capacity

/-- The buffer of every thread shows the message that the thread has reported last. -/
def Holds (state : ErrorDescription) (last : LastMessages) : Prop :=
  ∀ thread, (state thread).buffer.take (state thread).len = visible (last thread)

/-- Since the address is not null, the view covers what the message has written. -/
theorem shown_zcGetLastError (thread : Nat)
    : shown state thread (zcGetLastError places state thread)
      = (state thread).buffer.take (state thread).len := by
  simp [shown, zcGetLastError, CSlice.newBorrowed, CSlice.newBorrowedUnchecked,
    CSlice.newUnchecked, places.nonnull]

theorem take_update {N : Nat} (b : Buffer N) (message : String)
    : (b.update message).buffer.take (b.update message).len = (utf8 message).take N := by
  have written : ((utf8 message).take (min (utf8 message).length N)).length
      = min (utf8 message).length N := by
    rw [List.length_take]
    omega
  rw [Buffer.update]
  simp only
  rw [List.take_append_of_le_length (by omega), List.take_take, Nat.min_self]
  rcases Nat.le_total (utf8 message).length N with whole | cut
  · rw [Nat.min_eq_left whole, List.take_length, List.take_of_length_le whole]
  · rw [Nat.min_eq_right cut]

theorem holds_default : Holds (fun _ => Buffer.default) fun _ => none := by
  intro thread
  rfl

/-- A message replaces what its own thread has shown, and nothing of another thread. -/
theorem Holds.reportError (holds : Holds state last) (thread : Nat) (message : String)
    : Holds (Function.update state thread ((state thread).update message))
        (Function.update last thread (some message)) := by
  intro other
  rcases eq_or_ne other thread with rfl | different
  · rw [Function.update_self, Function.update_self]
    exact take_update (state other) message
  · rw [Function.update_of_ne different, Function.update_of_ne different]
    exact holds other

/-- Every call shows as much as fits of the message that it is about, by induction over the
events with the buffers holding the last messages.
-/
theorem views_eq (holds : Holds state last) (events : List Event)
    : views places state events = (asked last events).map visible := by
  induction events generalizing state last with
  | nil => rfl
  | cons event rest ih =>
      cases event with
      | reportError thread message =>
          rw [views, asked]
          exact ih (holds.reportError thread message)
      | zcGetLastError thread =>
          rw [views, asked, List.map_cons, shown_zcGetLastError, holds thread, ih holds]

/-- As much as fits of a message is a text exactly if the message is cut between characters. -/
theorem shows_visible_iff {message : String}
    : Shows (visible (some message)) message ↔ CutBetweenChars message := by
  have decodes_iff : (decodeUtf8 ((utf8 message).take capacity)).isSome = true
      ↔ CutBetweenChars message := by
    rw [Option.isSome_iff_exists, CutBetweenChars]
    simp only [decodeUtf8_take_eq_some_iff]
    grind
  constructor
  · intro shows
    exact decodes_iff.mp shows.valid
  · intro between
    exact
      { fits := List.length_take_le _ _
        valid := decodes_iff.mpr between
        front := List.take_prefix _ _
        whole := List.take_of_length_le }

theorem answers_visible_iff {asked : Option String}
    : Answers (visible asked) asked
      ↔ ∀ message, asked = some message → CutBetweenChars message := by
  cases asked with
  | none => simp [Answers, visible]
  | some message =>
      rw [Answers, shows_visible_iff]
      simp

/-- In every run, the calls all answer as they should exactly if the messages that they are
about are all cut between characters, if at all.
-/
theorem last_errors_shown_iff (places : BufferPlaces) (events : List Event)
    : List.Forall₂ Answers (views places (fun _ => Buffer.default) events)
        (asked (fun _ => none) events)
      ↔ ∀ message, some message ∈ asked (fun _ => none) events → CutBetweenChars message := by
  rw [views_eq holds_default, List.forall₂_map_left_iff, List.forall₂_same]
  simp only [answers_visible_iff]
  grind

/-- A text of one repeated character ends between characters at multiples of its size. -/
theorem length_utf8_front {count : Nat} {char : Char} {head tail : String}
    (parts : String.ofList (List.replicate count char) = head ++ tail)
    : (utf8 head).length = head.toList.length * char.utf8Size := by
  have chars : head.toList ++ tail.toList = List.replicate count char := by
    rw [← String.toList_append, ← parts, String.toList_ofList]
  obtain ⟨-, front, -⟩ := List.append_eq_replicate_iff.mp chars
  have again : head = String.ofList (List.replicate head.toList.length char) := by
    rw [← front, String.ofList_toList]
  calc (utf8 head).length
      = (utf8 (String.ofList (List.replicate head.toList.length char))).length := by
        rw [← again]
    _ = head.toList.length * char.utf8Size := length_utf8_replicate _ _

/-- A message of 1026 bytes in characters of three bytes each. -/
def euros : String :=
  String.ofList (List.replicate 342 '\u20AC')

/-- A repeated character whose size does not divide that of the buffer is cut. -/
theorem not_cutBetweenChars_replicate {count : Nat} {char : Char}
    (long : capacity ≤ count * char.utf8Size) (uneven : ¬char.utf8Size ∣ capacity)
    : ¬CutBetweenChars (String.ofList (List.replicate count char)) := by
  rintro ⟨head, tail, parts, size⟩
  rw [length_utf8_front parts, length_utf8_replicate, Nat.min_eq_left long] at size
  exact uneven ⟨head.toList.length, by rw [Nat.mul_comm, size]⟩

theorem euros_not_cutBetweenChars : ¬CutBetweenChars euros :=
  not_cutBetweenChars_replicate (by decide) (by decide)

/-- The buffer ends within the 342nd character, whose first byte is shown all the same. -/
theorem cut_within_character
    : ¬∀ (places : BufferPlaces) (events : List Event),
        List.Forall₂ Answers (views places (fun _ => Buffer.default) events)
          (asked (fun _ => none) events) := by
  intro answers
  have answered :=
    answers { address := fun _ => 1, nonnull := fun _ => rfl }
      [.reportError 0 euros, .zcGetLastError 0]
  rw [views_eq holds_default, List.forall₂_map_left_iff, List.forall₂_same] at answered
  have shows : Answers (visible (some euros)) (some euros) :=
    answered (some euros) (by simp [asked])
  exact euros_not_cutBetweenChars (shows_visible_iff.mp shows)

end ZenohC.LastError
