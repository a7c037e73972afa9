import ZenohC.Library.Custody

/-! Reference-counted cells, and what the cells that are still referred to owe together.
The counts are checked against a multiset of references that the surrounding program keeps;
the last reference that goes away gives the content back to whoever released it.
-/

namespace ZenohC.Library

variable {γ τ : Type*} (owes : γ → Multiset τ)

/-- A shared content and the number of references to it. -/
structure SharedCell (γ : Type*) where
  content : γ
  refs : Nat
  deriving DecidableEq, Repr

/-- A cell owes what its content owes, until the last reference to it is gone. -/
def SharedCell.owed (cell : SharedCell γ) : Multiset τ :=
  if cell.refs = 0 then 0 else owes cell.content

theorem SharedCell.owed_of_refs {cell : SharedCell γ} (shared : cell.refs ≠ 0)
    : cell.owed owes = owes cell.content := by
  simp only [owed, shared, if_false]

namespace SharedCells

variable {cells : List (SharedCell γ)} {references : Multiset Nat}

def refsAt (cells : List (SharedCell γ)) (index : Nat) : Nat :=
  (cells[index]?.map SharedCell.refs).getD 0

/-- Every count is the number of references that there are. -/
def Counts (cells : List (SharedCell γ)) (references : Multiset Nat) : Prop :=
  ∀ index, refsAt cells index = references.count index

/-- What all cells owe that some reference keeps alive. -/
def owed (cells : List (SharedCell γ)) : Multiset τ :=
  tally (SharedCell.owed owes) cells

/-- A new cell with one reference to it, at the end. -/
def share (cells : List (SharedCell γ)) (content : γ) : List (SharedCell γ) :=
  cells ++ [{ content, refs := 1 }]

/-- One more reference to a cell. -/
def retain (cells : List (SharedCell γ)) (index : Nat) : List (SharedCell γ) :=
  match cells[index]? with
  | none => cells
  | some cell => cells.set index { cell with refs := cell.refs + 1 }

/-- One reference less; the content comes back with the last of them. -/
def release (cells : List (SharedCell γ)) (index : Nat)
    : Option γ × List (SharedCell γ) :=
  match cells[index]? with
  | none => (none, cells)
  | some cell =>
      (if cell.refs = 1 then some cell.content else none,
        cells.set index { cell with refs := cell.refs - 1 })

-----------------------------------------------------------------------------------------
-- Counts
-----------------------------------------------------------------------------------------

theorem refsAt_eq {index : Nat} {cell : SharedCell γ} (found : cells[index]? = some cell)
    : refsAt cells index = cell.refs := by
  simp only [refsAt, found, Option.map_some, Option.getD_some]

theorem refsAt_set {index other : Nat} {cell updated : SharedCell γ}
    (found : cells[index]? = some cell)
    : refsAt (cells.set index updated) other
      = if other = index then updated.refs else refsAt cells other := by
  have inside := (List.getElem?_eq_some_iff.mp found).1
  simp only [refsAt]
  split
  · next same =>
      subst same
      simp only [List.getElem?_set_self inside, Option.map_some, Option.getD_some]
  · next different => simp only [List.getElem?_set_ne (Ne.symm different)]

/-- A reference that counts points to a cell whose count is positive. -/
theorem Counts.lookup (counted : Counts cells references) {index : Nat}
    (refers : index ∈ references)
    : ∃ cell, cells[index]? = some cell ∧ cell.refs ≠ 0 := by
  have positive := Multiset.count_pos.mpr refers
  rw [← counted index] at positive
  cases found : cells[index]? with
  | none =>
      simp only [refsAt, found, Option.map_none, Option.getD_none, lt_irrefl] at positive
  | some cell =>
      rw [refsAt_eq found] at positive
      exact ⟨cell, rfl, Nat.ne_of_gt positive⟩

/-- Nothing refers to a cell that is not there yet. -/
theorem Counts.fresh (counted : Counts cells references)
    : references.count cells.length = 0 := by
  rw [← counted]
  simp only [refsAt, List.getElem?_eq_none (Nat.le_refl cells.length), Option.map_none,
    Option.getD_none]

theorem Counts.share (counted : Counts cells references) (content : γ)
    : Counts (share cells content) (references + {cells.length}) := by
  intro index
  rw [Multiset.count_add, Multiset.count_singleton]
  rcases Nat.lt_trichotomy index cells.length with before | rfl | after
  · have kept : refsAt (SharedCells.share cells content) index = refsAt cells index := by
      simp only [refsAt, SharedCells.share, List.getElem?_append_left before]
    rw [kept, counted, if_neg (Nat.ne_of_lt before), add_zero]
  · have found : (SharedCells.share cells content)[cells.length]? = some ⟨content, 1⟩ := by
      simp [SharedCells.share]
    rw [refsAt_eq found, counted.fresh, if_pos rfl]
  · have absent : refsAt cells index = 0 := by
      simp [refsAt, List.getElem?_eq_none (Nat.le_of_lt after)]
    rw [← counted, absent, if_neg (Nat.ne_of_gt after)]
    have outside : (SharedCells.share cells content).length ≤ index := by
      simp only [SharedCells.share, List.length_append, List.length_singleton]
      omega
    simp [refsAt, List.getElem?_eq_none outside]

theorem Counts.retain (counted : Counts cells references) {index : Nat}
    (refers : index ∈ references)
    : Counts (retain cells index) (references + {index}) := by
  intro other
  obtain ⟨cell, found, _⟩ := counted.lookup refers
  simp only [SharedCells.retain, found]
  rw [refsAt_set found, Multiset.count_add, Multiset.count_singleton]
  split
  · next same => rw [← counted other, same, refsAt_eq found]
  · exact counted other

theorem Counts.release {index : Nat} (counted : Counts cells (references + {index}))
    : Counts (release cells index).2 references := by
  intro other
  obtain ⟨cell, found, _⟩ :=
    counted.lookup (Multiset.mem_add.mpr (Or.inr (Multiset.mem_singleton_self index)))
  have before := counted other
  rw [Multiset.count_add, Multiset.count_singleton] at before
  simp only [SharedCells.release, found]
  rw [refsAt_set found]
  split
  · next same =>
      rw [if_pos same, same, refsAt_eq found] at before
      subst same
      simp only
      omega
  · next different => rwa [if_neg different] at before

-----------------------------------------------------------------------------------------
-- What the cells owe
-----------------------------------------------------------------------------------------

theorem owed_share (cells : List (SharedCell γ)) (content : γ)
    : owed owes (share cells content) = owed owes cells + owes content := by
  have alive : (SharedCell.mk content 1).owed owes = owes content :=
    SharedCell.owed_of_refs owes Nat.one_ne_zero
  simp only [owed, share, tally_append, tally_cons, tally_nil, add_zero, alive]

theorem Counts.owed_retain (counted : Counts cells references) {index : Nat}
    (refers : index ∈ references)
    : owed owes (SharedCells.retain cells index) = owed owes cells := by
  obtain ⟨cell, found, shared⟩ := counted.lookup refers
  have exchanged := tally_set (SharedCell.owed owes) found { cell with refs := cell.refs + 1 }
  rw [SharedCell.owed_of_refs owes shared, SharedCell.owed_of_refs owes (Nat.succ_ne_zero _)]
    at exchanged
  simp only [owed, SharedCells.retain, found]
  exact add_right_cancel exchanged

/-- Releasing a reference takes out of the cells exactly what the content owes that it hands
over, if it was the last.
-/
theorem Counts.owed_release {index : Nat} (counted : Counts cells (references + {index}))
    : owed owes (SharedCells.release cells index).2
        + (SharedCells.release cells index).1.elim 0 owes
      = owed owes cells := by
  obtain ⟨cell, found, shared⟩ :=
    counted.lookup (Multiset.mem_add.mpr (Or.inr (Multiset.mem_singleton_self index)))
  have exchanged := tally_set (SharedCell.owed owes) found { cell with refs := cell.refs - 1 }
  rw [SharedCell.owed_of_refs owes shared] at exchanged
  simp only [owed, SharedCells.release, found]
  by_cases last : cell.refs = 1
  · have spent : { cell with refs := cell.refs - 1 }.owed owes = 0 := by
      simp only [SharedCell.owed, last, Nat.sub_self, if_true]
    rw [spent, add_zero] at exchanged
    simp only [last, if_true, Option.elim_some]
    rwa [last] at exchanged
  · have kept : { cell with refs := cell.refs - 1 }.owed owes = owes cell.content :=
      SharedCell.owed_of_refs owes (by simp only [ne_eq]; omega)
    rw [kept] at exchanged
    simp only [last, if_false, Option.elim_none, add_zero]
    exact add_right_cancel exchanged

/-- With correct counts a token is owed exactly when some reference leads to it. -/
theorem Counts.mem_owed_iff (counted : Counts cells references) {token : τ}
    : token ∈ owed owes cells
      ↔ ∃ index ∈ references, ∃ cell,
          cells[index]? = some cell ∧ token ∈ owes cell.content := by
  rw [owed, mem_tally]
  constructor
  · intro alive
    obtain ⟨cell, inside, owing⟩ := alive
    obtain ⟨index, found⟩ := List.mem_iff_getElem?.mp inside
    have positive := counted index
    rw [refsAt_eq found] at positive
    by_cases spent : cell.refs = 0
    · simp only [SharedCell.owed, spent, if_true, Multiset.notMem_zero] at owing
    · rw [SharedCell.owed_of_refs owes spent] at owing
      exact ⟨index, Multiset.count_ne_zero.mp (positive ▸ spent), cell, found, owing⟩
  · intro referred
    obtain ⟨index, refers, cell, found, owing⟩ := referred
    obtain ⟨other, foundOther, shared⟩ := counted.lookup refers
    cases Option.some.inj (found.symm.trans foundOther)
    refine ⟨cell, List.mem_of_getElem? found, ?_⟩
    rw [SharedCell.owed_of_refs owes shared]
    exact owing

end SharedCells

end ZenohC.Library
