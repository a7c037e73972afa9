import Mathlib.Algebra.BigOperators.Group.List.Basic
import Mathlib.Algebra.Order.Ring.Int

/-! Words with brackets.
A symbol opens a block, closes one, may only stand inside a block, or stands anywhere. A word
is well nested exactly if its depth never falls below zero, ends at zero, and is positive
wherever an inner symbol stands.
-/

namespace ZenohC.Library

inductive BracketKind where
  | opening
  | closing
  | inner
  | plain
  deriving DecidableEq, Repr

def BracketKind.change : BracketKind → Int
  | .opening => 1
  | .closing => -1
  | .inner | .plain => 0

variable {α : Type*} (kind : α → BracketKind)

/-- A word in which blocks are closed; `inside` says that it stands inside a block. -/
inductive Nested : Bool → List α → Prop where
  | nil (inside : Bool) : Nested inside []
  | plain {inside : Bool} {symbol : α} {rest : List α} (plain : kind symbol = .plain)
      (nested : Nested inside rest)
      : Nested inside (symbol :: rest)
  | inner {symbol : α} {rest : List α} (inner : kind symbol = .inner)
      (nested : Nested true rest)
      : Nested true (symbol :: rest)
  | block {inside : Bool} {start stop : α} {body rest : List α}
      (opens : kind start = .opening) (nestedBody : Nested true body)
      (closes : kind stop = .closing) (nested : Nested inside rest)
      : Nested inside (start :: (body ++ stop :: rest))

/-- The number of blocks that a word leaves open. -/
def depth (word : List α) : Int :=
  (word.map fun symbol => (kind symbol).change).sum

/-- The word can be read at this depth: every closing symbol has a block to close, every inner
symbol one to stand in, and all blocks are closed in the end.
-/
structure ClosesFrom (start : Int) (word : List α) : Prop where
  nonneg : ∀ front, front <+: word → 0 ≤ start + depth kind front
  inner
    : ∀ front symbol rest,
        word = front ++ symbol :: rest → kind symbol = .inner → 0 < start + depth kind front
  closed : start + depth kind word = 0

variable {kind}

@[simp]
theorem depth_nil : depth kind [] = 0 :=
  rfl

@[simp]
theorem depth_cons (symbol : α) (word : List α)
    : depth kind (symbol :: word) = (kind symbol).change + depth kind word := by
  simp [depth]

@[simp]
theorem depth_append (left right : List α)
    : depth kind (left ++ right) = depth kind left + depth kind right := by
  simp [depth]

namespace Nested

variable {inside : Bool} {left right word : List α}

theorem append (nestedLeft : Nested kind inside left) (nestedRight : Nested kind inside right)
    : Nested kind inside (left ++ right) := by
  induction nestedLeft with
  | nil => exact nestedRight
  | plain plain _ ih => exact .plain plain (ih nestedRight)
  | inner inner _ ih => exact .inner inner (ih nestedRight)
  | block opens nestedBody closes _ _ ih =>
      rw [List.cons_append, List.append_assoc, List.cons_append]
      exact .block opens nestedBody closes (ih nestedRight)

theorem flatMap {β : Type*} {words : β → List α} {parts : List β}
    (nested : ∀ part ∈ parts, Nested kind inside (words part))
    : Nested kind inside (parts.flatMap words) := by
  induction parts with
  | nil => exact .nil inside
  | cons part parts ih =>
      obtain ⟨first, others⟩ := List.forall_mem_cons.mp nested
      rw [List.flatMap_cons]
      exact first.append (ih others)

theorem of_plain (plain : ∀ symbol ∈ word, kind symbol = .plain) : Nested kind inside word := by
  induction word with
  | nil => exact .nil inside
  | cons symbol word ih =>
      obtain ⟨first, others⟩ := List.forall_mem_cons.mp plain
      exact .plain first (ih others)

/-- Plain symbols can be left out, by induction on the word's structure. -/
theorem filter {keep : α → Bool} (nested : Nested kind inside word)
    (kept : ∀ symbol, kind symbol ≠ .plain → keep symbol = true)
    : Nested kind inside (word.filter keep) := by
  induction nested with
  | nil => exact .nil _
  | @plain _ symbol rest plain _ ih =>
      cases keeps : keep symbol with
      | true => simpa [keeps] using Nested.plain plain ih
      | false => simpa [keeps] using ih
  | @inner symbol rest inner _ ih =>
      have keeps := kept symbol (by simp [inner])
      simpa [keeps] using Nested.inner inner ih
  | @block _ start stop body rest opens _ closes _ bodyIh ih =>
      have keepsStart := kept start (by simp [opens])
      have keepsStop := kept stop (by simp [closes])
      simpa [keepsStart, keepsStop] using Nested.block opens bodyIh closes ih

end Nested

-----------------------------------------------------------------------------------------
-- Nesting is counting
-----------------------------------------------------------------------------------------

theorem closesFrom_nil_iff {start : Int} : ClosesFrom kind start ([] : List α) ↔ start = 0 := by
  constructor
  · intro closes
    simpa using closes.closed
  · rintro rfl
    refine ⟨?_, ?_, rfl⟩
    · intro front front_nil
      simp [List.prefix_nil.mp front_nil]
    · intro front symbol rest same
      simp at same

/-- Reading one symbol moves the depth. -/
theorem closesFrom_cons_iff {start : Int} {symbol : α} {word : List α}
    : ClosesFrom kind start (symbol :: word)
      ↔ 0 ≤ start
        ∧ (kind symbol = .inner → 0 < start)
        ∧ ClosesFrom kind (start + (kind symbol).change) word := by
  constructor
  · intro closes
    refine ⟨by simpa using closes.nonneg [] List.nil_prefix, ?_, ?_, ?_, ?_⟩
    · intro inner
      simpa using closes.inner [] symbol word rfl inner
    · intro front starts
      have later := closes.nonneg (symbol :: front) (List.cons_prefix_cons.mpr ⟨rfl, starts⟩)
      simpa [add_assoc] using later
    · intro front other rest same inner
      have later := closes.inner (symbol :: front) other rest (by simp [same]) inner
      simpa [add_assoc] using later
    · simpa [add_assoc] using closes.closed
  · rintro ⟨nonneg, inner, closes⟩
    refine ⟨?_, ?_, ?_⟩
    · intro front starts
      cases front with
      | nil => simpa using nonneg
      | cons other front =>
          obtain ⟨rfl, others⟩ := List.cons_prefix_cons.mp starts
          simpa [add_assoc] using closes.nonneg front others
    · intro front other rest same isInner
      cases front with
      | nil =>
          obtain ⟨rfl, rfl⟩ := List.cons.inj same
          simpa using inner isInner
      | cons first front =>
          obtain ⟨rfl, rfl⟩ := List.cons.inj same
          simpa [add_assoc] using closes.inner front other rest rfl isInner
    · simpa [add_assoc] using closes.closed

/-- A well-nested part is read without moving the depth, by induction on its structure. -/
theorem Nested.closesFrom_append {inside : Bool} {word : List α} (rest : List α) {start : Int}
    (nested : Nested kind inside word) (nonneg : 0 ≤ start)
    (inBlock : inside = true → 0 < start)
    : ClosesFrom kind start (word ++ rest) ↔ ClosesFrom kind start rest := by
  induction nested generalizing start rest with
  | nil => rfl
  | plain plain _ ih =>
      rw [List.cons_append, closesFrom_cons_iff, plain]
      simp [BracketKind.change, nonneg, ih _ nonneg inBlock]
  | inner inner _ ih =>
      have positive := inBlock rfl
      rw [List.cons_append, closesFrom_cons_iff, inner]
      simp [BracketKind.change, nonneg, positive, ih _ nonneg inBlock]
  | block opens _ closes _ bodyIh ih =>
      rw [List.cons_append, List.append_assoc, List.cons_append, closesFrom_cons_iff, opens]
      rw [bodyIh _ (by simp [BracketKind.change]; omega) (by simp [BracketKind.change]; omega),
        closesFrom_cons_iff, closes]
      simp only [BracketKind.change, add_neg_cancel_right, ih _ nonneg inBlock]
      simp [nonneg]
      omega

/-- A word that closes `depth` blocks: as many well-nested parts, each with the symbol that
closes its block, and a last part outside all blocks.
-/
def Parts (kind : α → BracketKind) : Nat → List α → Prop
  | 0, word => Nested kind false word
  | depth + 1, word =>
      ∃ body stop rest,
        word = body ++ stop :: rest
        ∧ Nested kind true body
        ∧ kind stop = .closing
        ∧ Parts kind depth rest

/-- A word whose counts are right can be cut into its parts, by induction on the word. -/
theorem parts_of_closesFrom (depth : Nat) {word : List α} (closes : ClosesFrom kind depth word)
    : Parts kind depth word := by
  induction word generalizing depth with
  | nil =>
      obtain rfl : depth = 0 := by simpa using closesFrom_nil_iff.mp closes
      exact Nested.nil false
  | cons symbol word ih =>
      obtain ⟨nonneg, inBlock, later⟩ := closesFrom_cons_iff.mp closes
      cases shape : kind symbol with
      | opening =>
          obtain ⟨body, stop, rest, rfl, nested, isStop, parts⟩ :=
            ih (depth + 1) (by simpa [shape, BracketKind.change] using later)
          cases depth with
          | zero => exact .block shape nested isStop parts
          | succ depth =>
              obtain ⟨body', stop', rest', rfl, nested', isStop', parts⟩ := parts
              exact ⟨symbol :: (body ++ stop :: body'), stop', rest', by simp,
                .block shape nested isStop nested', isStop', parts⟩
      | closing =>
          cases depth with
          | zero =>
              have below := later.nonneg [] List.nil_prefix
              simp [shape, BracketKind.change] at below
          | succ depth =>
              have parts := ih depth (by simpa [shape, BracketKind.change] using later)
              exact ⟨[], symbol, word, rfl, .nil true, shape, parts⟩
      | inner =>
          have positive := inBlock shape
          have parts := ih depth (by simpa [shape, BracketKind.change] using later)
          cases depth with
          | zero => simp at positive
          | succ depth =>
              obtain ⟨body, stop, rest, rfl, nested, isStop, parts⟩ := parts
              exact ⟨symbol :: body, stop, rest, rfl, .inner shape nested, isStop, parts⟩
      | plain =>
          have parts := ih depth (by simpa [shape, BracketKind.change] using later)
          cases depth with
          | zero => exact .plain shape parts
          | succ depth =>
              obtain ⟨body, stop, rest, rfl, nested, isStop, parts⟩ := parts
              exact ⟨symbol :: body, stop, rest, rfl, .plain shape nested, isStop, parts⟩

theorem nested_iff_closesFrom {word : List α}
    : Nested kind false word ↔ ClosesFrom kind 0 word := by
  constructor
  · intro nested
    have same := nested.closesFrom_append [] (le_refl 0) (by simp)
    rw [List.append_nil] at same
    exact same.mpr (closesFrom_nil_iff.mpr rfl)
  · intro closes
    exact parts_of_closesFrom 0 (by simpa using closes)

end ZenohC.Library
