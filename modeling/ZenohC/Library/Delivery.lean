import Mathlib.Data.List.Count
import Mathlib.Logic.Function.Basic

/-! Delivering a sequence of items to addressed boxes.
An item is appended to a box once for each time the box occurs among its addressees, so what
a box holds is decided by the multiplicities of the addressees alone.
-/

namespace ZenohC.Library

variable {κ ω ι : Type*} [DecidableEq κ]

/-- Append a payload to the box of each addressee in turn. -/
def deliver (boxes : κ → List ω) (payload : ω) (addressees : List κ) : κ → List ω :=
  addressees.foldl
    (fun boxes addressee => Function.update boxes addressee (boxes addressee ++ [payload]))
    boxes

/-- A box receives one copy for each of its occurrences, by induction on the addressees. -/
theorem deliver_apply (boxes : κ → List ω) (payload : ω) (addressees : List κ) (box : κ)
    : deliver boxes payload addressees box
      = boxes box ++ List.replicate (addressees.count box) payload := by
  induction addressees generalizing boxes with
  | nil => simp [deliver]
  | cons addressee addressees ih =>
      have rest := ih (Function.update boxes addressee (boxes addressee ++ [payload]))
      simp only [deliver, List.foldl_cons] at rest ⊢
      rw [rest]
      by_cases same : addressee = box
      · subst same
        rw [Function.update_self, List.count_cons_self, List.append_assoc,
          List.singleton_append, ← List.replicate_succ]
      · rw [Function.update_of_ne (Ne.symm same), List.count_cons_of_ne same]

/-- The positions of a numbered sequence, each repeated as often as its item asks for. -/
def repeatPositions (copies : ι → Nat) (items : List ι) (start : Nat) : List Nat :=
  (items.zipIdx start).flatMap fun (item, position) => List.replicate (copies item) position

variable {copies : ι → Nat}

theorem repeatPositions_cons (item : ι) (items : List ι) (start : Nat)
    : repeatPositions copies (item :: items) start
      = List.replicate (copies item) start ++ repeatPositions copies items (start + 1) := by
  simp only [repeatPositions, List.zipIdx_cons, List.flatMap_cons]

/-- Positions below the start do not occur, by induction on the items. -/
theorem le_of_mem_repeatPositions {items : List ι} {start position : Nat}
    (member : position ∈ repeatPositions copies items start)
    : start ≤ position := by
  induction items generalizing start with
  | nil => simp [repeatPositions] at member
  | cons item items ih =>
      rw [repeatPositions_cons] at member
      rcases List.mem_append.mp member with here | later
      · exact Nat.le_of_eq (List.eq_of_mem_replicate here).symm
      · exact Nat.le_of_succ_le (ih later)

/-- A position occurs as often as the item that stands there asks for. -/
theorem count_repeatPositions (copies : ι → Nat) (items : List ι) (start offset : Nat)
    : (repeatPositions copies items start).count (start + offset)
      = (items[offset]?.map copies).getD 0 := by
  induction items generalizing start offset with
  | nil => simp [repeatPositions]
  | cons item items ih =>
      rw [repeatPositions_cons, List.count_append]
      cases offset with
      | zero =>
          have later : start ∉ repeatPositions copies items (start + 1) := fun member =>
            absurd (le_of_mem_repeatPositions member) (by omega)
          simp [List.count_eq_zero_of_not_mem later]
      | succ offset =>
          have different : start ≠ start + (offset + 1) := by omega
          have moved : start + (offset + 1) = start + 1 + offset := by omega
          rw [List.count_replicate, if_neg (by simp), moved, ih]
          simp

/-- The positions stand in the order of the items. -/
theorem repeatPositions_sorted (items : List ι) (start : Nat)
    : (repeatPositions copies items start).Pairwise (· ≤ ·) := by
  induction items generalizing start with
  | nil => simp [repeatPositions]
  | cons item items ih =>
      rw [repeatPositions_cons]
      refine List.pairwise_append.mpr ⟨?_, ih (start + 1), ?_⟩
      · exact List.pairwise_replicate.mpr (Or.inr (Nat.le_refl start))
      · intro earlier here later member
        rw [List.eq_of_mem_replicate here]
        exact Nat.le_of_succ_le (le_of_mem_repeatPositions member)

end ZenohC.Library
