import ZenohC.Library.Custody
import Mathlib.Data.Multiset.Count

/-! References that a keeper hands out, some of them for holders who have a thing alone.
The keeper has references of its own as well. Who is told that there is no other reference has the
thing alone from then on, until he gives it up: references are only copied where they are shared.
-/

namespace ZenohC.Library

variable {ι : Type*} [DecidableEq ι] {own others : ι → Prop}
variable {handed more less shared exclusive : Multiset ι} {thing : ι}

/-- What is handed out is shared or held alone, and what is held alone has no other reference. -/
structure Access (own : ι → Prop) (handed shared exclusive : Multiset ι) : Prop where
  counted : handed = shared + exclusive
  alone : ∀ thing ∈ exclusive, handed.count thing = 1 ∧ ¬own thing

namespace Access

theorem member (access : Access own handed shared exclusive) (held : thing ∈ exclusive)
    : thing ∈ handed := by
  rw [access.counted]
  exact Multiset.mem_add.mpr (.inr held)

/-- What somebody shares nobody holds alone. -/
theorem not_exclusive (access : Access own handed shared exclusive) (member : thing ∈ shared)
    : thing ∉ exclusive := by
  intro held
  have once := (access.alone thing held).1
  have both := Multiset.count_pos.mpr member
  have alone := Multiset.count_pos.mpr held
  rw [access.counted, Multiset.count_add] at once
  omega

/-- The keeper comes to refer to nothing that somebody holds alone. -/
theorem keeper (access : Access own handed shared exclusive)
    (apart : ∀ thing ∈ exclusive, others thing → own thing)
    : Access others handed shared exclusive := by
  refine ⟨access.counted, ?_⟩
  intro thing held
  have alone := access.alone thing held
  exact ⟨alone.1, fun refers => alone.2 (apart thing held refers)⟩

/-- More references to what nobody holds alone. -/
theorem gain (access : Access own handed shared exclusive)
    (apart : ∀ thing ∈ more, thing ∉ exclusive)
    : Access own (handed + more) (shared + more) exclusive := by
  refine ⟨?_, ?_⟩
  · rw [access.counted, add_right_comm]
  · intro thing held
    have absent : thing ∉ more := fun member => apart thing member held
    have alone := access.alone thing held
    rw [Multiset.count_add, Multiset.count_eq_zero_of_notMem absent, add_zero]
    exact alone

/-- Fewer references leave alone what is held alone. -/
theorem lose (access : Access own (handed + less) (shared + less) exclusive)
    : Access own handed shared exclusive := by
  have counted := access.counted
  rw [add_right_comm] at counted
  refine ⟨add_right_cancel counted, ?_⟩
  intro thing held
  have member (present : thing ∈ less) : thing ∈ shared + less :=
    Multiset.mem_add.mpr (.inr present)
  have absent : thing ∉ less := fun present => access.not_exclusive (member present) held
  have alone := access.alone thing held
  rw [Multiset.count_add, Multiset.count_eq_zero_of_notMem absent, add_zero] at alone
  exact alone

/-- A reference that is the only one may have its thing alone. -/
theorem grant (access : Access own handed (shared + {thing}) exclusive)
    (sole : handed.count thing = 1 ∧ ¬own thing)
    : Access own handed shared (exclusive + {thing}) := by
  refine ⟨?_, ?_⟩
  · rw [access.counted, add_right_comm, add_assoc]
  · intro other held
    rcases Multiset.mem_add.mp held with before | new
    · exact access.alone other before
    · rw [Multiset.mem_singleton.mp new]
      exact sole

/-- What is held alone may be shared. -/
theorem yield (access : Access own handed shared (exclusive + {thing}))
    : Access own handed (shared + {thing}) exclusive := by
  refine ⟨?_, ?_⟩
  · rw [access.counted, add_right_comm, add_assoc]
  · intro other held
    exact access.alone other (Multiset.mem_add.mpr (.inl held))

/-- A new thing is held alone. -/
theorem fresh (access : Access own handed shared exclusive) (new : thing ∉ handed)
    (unknown : ¬own thing)
    : Access own (handed + {thing}) shared (exclusive + {thing}) := by
  refine ⟨?_, ?_⟩
  · rw [access.counted, add_assoc]
  · intro other held
    rcases Multiset.mem_add.mp held with before | same
    · have different : other ≠ thing := by
        intro same
        exact new (same ▸ access.member before)
      rw [Multiset.count_add, Multiset.count_singleton, if_neg different, add_zero]
      exact access.alone other before
    · rw [Multiset.mem_singleton.mp same, Multiset.count_add, Multiset.count_singleton_self,
        Multiset.count_eq_zero_of_notMem new]
      exact ⟨rfl, unknown⟩

end Access

/-- Two cells of a list that hold a token hold it twice. -/
theorem two_le_count_tally {α τ : Type*} [DecidableEq τ] {holds : α → Multiset τ}
    {held : List α} {first second : Nat} {one two : α} {token : τ} (different : first ≠ second)
    (foundOne : held[first]? = some one) (foundTwo : held[second]? = some two)
    (memberOne : token ∈ holds one) (memberTwo : token ∈ holds two)
    : 2 ≤ (tally holds held).count token := by
  induction held generalizing first second with
  | nil => simp at foundOne
  | cons cell rest ih =>
      rw [tally_cons, Multiset.count_add]
      cases first with
      | zero =>
          cases second with
          | zero => exact absurd rfl different
          | succ second =>
              cases Option.some.inj foundOne
              have behind : two ∈ rest := List.mem_of_getElem? foundTwo
              have here := Multiset.count_pos.mpr memberOne
              have later := Multiset.count_pos.mpr (mem_tally.mpr ⟨two, behind, memberTwo⟩)
              omega
      | succ first =>
          cases second with
          | zero =>
              cases Option.some.inj foundTwo
              have behind : one ∈ rest := List.mem_of_getElem? foundOne
              have here := Multiset.count_pos.mpr memberTwo
              have later := Multiset.count_pos.mpr (mem_tally.mpr ⟨one, behind, memberOne⟩)
              omega
          | succ second =>
              have both := ih (fun same => different (congrArg _ same)) foundOne foundTwo
              omega

end ZenohC.Library
