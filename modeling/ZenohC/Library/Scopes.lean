import Mathlib.Data.Set.Basic

/-! Names that are used where they are known.
A sequence of items is read from front to back. An item may use the names that are known from
the start and those that an earlier item defines.
-/

namespace ZenohC.Library

variable {α β : Type*} (uses defines : α → List β)

/-- The names that some item defines. -/
def definedBy (items : List α) : Set β :=
  { name | ∃ item ∈ items, name ∈ defines item }

/-- Each item uses known names only, and its own are known behind it. -/
def Scoped : Set β → List α → Prop
  | _, [] => True
  | known, item :: rest =>
      (∀ name ∈ uses item, name ∈ known)
      ∧ Scoped (known ∪ { name | name ∈ defines item }) rest

variable {uses defines} {known wider : Set β} {items : List α}

theorem definedBy_cons (item : α) (rest : List α)
    : definedBy defines (item :: rest)
      = { name | name ∈ defines item } ∪ definedBy defines rest := by
  ext name
  simp [definedBy]

theorem definedBy_append (items later : List α)
    : definedBy defines (items ++ later) = definedBy defines items ∪ definedBy defines later := by
  induction items with
  | nil => simp [definedBy]
  | cons first rest ih => rw [List.cons_append, definedBy_cons, definedBy_cons, ih, Set.union_assoc]

theorem definedBy_mono {later : List α} (subset : items ⊆ later)
    : definedBy defines items ⊆ definedBy defines later := by
  rintro name ⟨item, member, defined⟩
  exact ⟨item, subset member, defined⟩

/-- Where an item stands decides which names it may use. -/
theorem scoped_iff
    : Scoped uses defines known items
      ↔ ∀ front item behind,
          items = front ++ item :: behind
          → ∀ name ∈ uses item, name ∈ known ∪ definedBy defines front := by
  induction items generalizing known with
  | nil => simp [Scoped]
  | cons first rest ih =>
      rw [Scoped, ih]
      constructor
      · intro inScope front item behind split name used
        obtain ⟨here, later⟩ := inScope
        cases front with
        | nil =>
            obtain ⟨rfl, rfl⟩ := List.cons.inj split
            exact .inl (here name used)
        | cons head front =>
            obtain ⟨rfl, rfl⟩ := List.cons.inj split
            rw [definedBy_cons, ← Set.union_assoc]
            exact later front item behind rfl name used
      · intro placed
        constructor
        · intro name used
          simpa [definedBy] using placed [] first rest rfl name used
        · intro front item behind split name used
          rw [Set.union_assoc, ← definedBy_cons]
          exact placed (first :: front) item behind (by rw [split]; rfl) name used

/-- What is used anywhere is known or defined somewhere. -/
theorem Scoped.mem_union (inScope : Scoped uses defines known items) {item : α} {name : β}
    (member : item ∈ items) (used : name ∈ uses item)
    : name ∈ known ∪ definedBy defines items := by
  obtain ⟨front, behind, rfl⟩ := List.append_of_mem member
  have placed := scoped_iff.mp inScope front item behind rfl name used
  exact Set.union_subset_union_right _ (definedBy_mono (List.subset_append_left _ _)) placed

theorem Scoped.mono (inScope : Scoped uses defines known items) (subset : known ⊆ wider)
    : Scoped uses defines wider items := by
  rw [scoped_iff] at inScope ⊢
  intro front item behind split name used
  exact Set.union_subset_union_left _ subset (inScope front item behind split name used)

/-- Items that use nothing but known names. -/
theorem scoped_of_forall (used : ∀ item ∈ items, ∀ name ∈ uses item, name ∈ known)
    : Scoped uses defines known items := by
  rw [scoped_iff]
  intro front item behind split name member
  exact .inl (used item (by simp [split]) name member)

/-- The second sequence knows what the first one has defined. -/
theorem Scoped.append {later : List α} (inScope : Scoped uses defines known items)
    (behind : Scoped uses defines (known ∪ definedBy defines items) later)
    : Scoped uses defines known (items ++ later) := by
  induction items generalizing known with
  | nil => simpa [definedBy] using behind
  | cons first rest ih =>
      refine ⟨inScope.1, ih inScope.2 ?_⟩
      rwa [Set.union_assoc, ← definedBy_cons]

end ZenohC.Library
