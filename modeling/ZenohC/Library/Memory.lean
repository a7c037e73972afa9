import Mathlib.Tactic.TypeStar

/-! Memory that is taken into use and given back in spans.
What is stored at an address can be read as long as the address is in use. An allocator only
hands out spans that are not in use.
-/

namespace ZenohC.Library

/-- Consecutive addresses. -/
structure Span where
  start : Nat
  len : Nat
  deriving DecidableEq, Repr

namespace Span

def Covers (span : Span) (address : Nat) : Prop :=
  span.start ≤ address ∧ address < span.start + span.len

instance (span : Span) (address : Nat) : Decidable (span.Covers address) :=
  inferInstanceAs (Decidable (_ ∧ _))

/-- No address belongs to both; an empty span is apart from every other. -/
def Apart (left right : Span) : Prop :=
  left.len = 0
  ∨ right.len = 0
  ∨ left.start + left.len ≤ right.start
  ∨ right.start + right.len ≤ left.start

instance (left right : Span) : Decidable (left.Apart right) :=
  inferInstanceAs (Decidable (_ ∨ _))

variable {left right : Span}

theorem apart_iff : left.Apart right ↔ ∀ address, left.Covers address → ¬right.Covers address := by
  simp only [Apart, Covers]
  constructor
  · intro apart address inLeft inRight
    omega
  · intro separate
    have atLeft := separate left.start
    have atRight := separate right.start
    omega

theorem Apart.symm (apart : left.Apart right) : right.Apart left := by
  simp only [Apart] at apart ⊢
  omega

end Span

abbrev Memory (α : Type*) := Nat → Option α

namespace Memory

variable {α : Type*}

def empty : Memory α :=
  fun _ => none

/-- The content of a span, all of which has to be in use. -/
def read (memory : Memory α) (span : Span) : Option (List α) :=
  go span.start span.len
where
  go (start : Nat) : Nat → Option (List α)
    | 0 => some []
    | len + 1 => do
        let value ← memory start
        let rest ← go (start + 1) len
        pure (value :: rest)

/-- No address of the span is in use. -/
def Free (memory : Memory α) (span : Span) : Prop :=
  ∀ offset < span.len, (memory (span.start + offset)).isNone = true

instance (memory : Memory α) (span : Span) : Decidable (memory.Free span) :=
  inferInstanceAs (Decidable (∀ offset < _, _))

/-- A span is taken into use with the given content. -/
def place (memory : Memory α) (start : Nat) (values : List α) : Memory α := fun address =>
  if Span.Covers ⟨start, values.length⟩ address then values[address - start]?
  else memory address

/-- A span is given back. -/
def release (memory : Memory α) (span : Span) : Memory α := fun address =>
  if span.Covers address then none else memory address

/-- What is in use stays in use, with its content. -/
def Extends (memory next : Memory α) : Prop :=
  ∀ address value, memory address = some value → next address = some value

variable {memory next : Memory α} {span other : Span} {values : List α}

theorem read_eq_some_iff
    : memory.read span = some values
      ↔ values.length = span.len
        ∧ ∀ offset < span.len, memory (span.start + offset) = values[offset]? := by
  rcases span with ⟨start, len⟩
  simp only [read]
  induction len generalizing start values with
  | zero => simp [read.go, eq_comm]
  | succ len ih =>
      simp only [read.go, Option.bind_eq_bind, Option.bind_eq_some_iff, Option.pure_def,
        Option.some.injEq, ih]
      constructor
      · rintro ⟨value, first, rest, ⟨size, stored⟩, rfl⟩
        refine ⟨by simp [size], fun offset inside => ?_⟩
        cases offset with
        | zero => exact first
        | succ offset =>
            have there := stored offset (by omega)
            rw [List.getElem?_cons_succ, ← there]
            congr 1
            omega
      · rintro ⟨size, stored⟩
        cases values with
        | nil => cases size
        | cons value rest =>
            refine ⟨value, stored 0 (by omega), rest, ⟨by simpa using size, ?_⟩, rfl⟩
            intro offset inside
            have there := stored (offset + 1) (by omega)
            rw [List.getElem?_cons_succ] at there
            rw [← there]
            congr 1
            omega

/-- Reading depends on the addresses of the span only. -/
theorem read_congr (same : ∀ address, span.Covers address → next address = memory address)
    : next.read span = memory.read span := by
  ext values
  have agree : ∀ offset < span.len, next (span.start + offset) = memory (span.start + offset) :=
    fun offset inside => same _ ⟨by omega, by omega⟩
  rw [read_eq_some_iff, read_eq_some_iff]
  constructor
  · rintro ⟨size, stored⟩
    exact ⟨size, fun offset inside => by rw [← agree offset inside, stored offset inside]⟩
  · rintro ⟨size, stored⟩
    exact ⟨size, fun offset inside => by rw [agree offset inside, stored offset inside]⟩

/-- An address of a span that can be read is in use. -/
theorem isSome_of_read (stored : memory.read span = some values) {address : Nat}
    (covered : span.Covers address)
    : (memory address).isSome = true := by
  obtain ⟨size, each⟩ := read_eq_some_iff.mp stored
  obtain ⟨offset, rfl⟩ := Nat.exists_eq_add_of_le covered.1
  have inside : offset < span.len := by
    have := covered.2
    omega
  rw [each offset inside, List.getElem?_eq_getElem (by omega)]
  rfl

theorem Free.eq_none (free : memory.Free span) {address : Nat} (covered : span.Covers address)
    : memory address = none := by
  obtain ⟨offset, rfl⟩ := Nat.exists_eq_add_of_le covered.1
  have inside : offset < span.len := by
    have := covered.2
    omega
  exact Option.isNone_iff_eq_none.mp (free offset inside)

theorem free_of_eq_none (unused : ∀ address, span.Covers address → memory address = none)
    : memory.Free span := by
  intro offset inside
  rw [unused (span.start + offset) ⟨by omega, by omega⟩]
  rfl

/-- What can be read is apart from what is not in use. -/
theorem apart_of_read_of_free (stored : memory.read span = some values)
    (free : memory.Free other)
    : span.Apart other := by
  rw [Span.apart_iff]
  intro address covered unused
  have used := isSome_of_read stored covered
  rw [free.eq_none unused] at used
  cases used

theorem Extends.refl (memory : Memory α) : memory.Extends memory :=
  fun _ _ => id

theorem Extends.trans {last : Memory α} (first : memory.Extends next)
    (second : next.Extends last)
    : memory.Extends last :=
  fun address value used => second address value (first address value used)

theorem Extends.read (grown : memory.Extends next) (stored : memory.read span = some values)
    : next.read span = some values := by
  rw [← stored]
  apply read_congr
  intro address covered
  obtain ⟨value, used⟩ := Option.isSome_iff_exists.mp (isSome_of_read stored covered)
  rw [used, grown address value used]

theorem read_place {start : Nat}
    : (memory.place start values).read ⟨start, values.length⟩ = some values := by
  rw [read_eq_some_iff]
  refine ⟨rfl, fun offset inside => ?_⟩
  have covered : Span.Covers ⟨start, values.length⟩ (start + offset) :=
    ⟨Nat.le_add_right start offset, Nat.add_lt_add_left inside start⟩
  rw [place, if_pos covered, Nat.add_sub_cancel_left]

theorem extends_place {start : Nat} (free : memory.Free ⟨start, values.length⟩)
    : memory.Extends (memory.place start values) := by
  intro address value used
  have outside : ¬Span.Covers ⟨start, values.length⟩ address := by
    intro covered
    rw [free.eq_none covered] at used
    cases used
  rw [place, if_neg outside, used]

theorem Free.place {start : Nat} (free : memory.Free span)
    (apart : span.Apart ⟨start, values.length⟩)
    : (memory.place start values).Free span := by
  apply free_of_eq_none
  intro address covered
  have outside := Span.apart_iff.mp apart address covered
  rw [Memory.place, if_neg outside, free.eq_none covered]

/-- Giving back a span does not touch what is apart from it. -/
theorem read_release (apart : span.Apart other)
    : (memory.release other).read span = memory.read span := by
  apply read_congr
  intro address covered
  rw [release, if_neg (Span.apart_iff.mp apart address covered)]

end Memory

end ZenohC.Library
