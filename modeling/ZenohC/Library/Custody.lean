import Mathlib.Algebra.BigOperators.Group.List.Basic
import Mathlib.Algebra.Order.Group.Multiset
import Mathlib.Data.Multiset.Count
import ZenohC.Library.Machine

/-! Custody of tokens that must be released at most once.
A token is issued when somebody becomes responsible for it, held while a cell of a store
owns it, and released when that responsibility is discharged. Conservation of the three
multisets is the whole law: the once-only facts are read off from it.
-/

namespace ZenohC.Library

variable {τ α : Type*}

/-- Everything that the cells of a store hold, with multiplicity. -/
def tally (holds : α → Multiset τ) (cells : List α) : Multiset τ :=
  (cells.map holds).sum

@[simp]
theorem tally_nil (holds : α → Multiset τ) : tally holds [] = 0 :=
  rfl

@[simp]
theorem tally_cons (holds : α → Multiset τ) (cell : α) (cells : List α)
    : tally holds (cell :: cells) = holds cell + tally holds cells := by
  simp only [tally, List.map_cons, List.sum_cons]

@[simp]
theorem tally_append (holds : α → Multiset τ) (left right : List α)
    : tally holds (left ++ right) = tally holds left + tally holds right := by
  simp only [tally, List.map_append, List.sum_append]

/-- Replacing one cell exchanges exactly what the two cells hold, by list induction. -/
theorem tally_set (holds : α → Multiset τ) {cells : List α} {index : Nat} {old : α}
    (found : cells[index]? = some old) (new : α)
    : tally holds (cells.set index new) + holds old = tally holds cells + holds new := by
  induction cells generalizing index with
  | nil => simp at found
  | cons cell cells ih =>
      cases index with
      | zero =>
          obtain rfl : cell = old := by simpa using found
          simp only [List.set_cons_zero, tally_cons]
          rw [add_right_comm, add_comm (holds new), add_right_comm]
      | succ index =>
          have rest := ih (by simpa using found)
          simp only [List.set_cons_succ, tally_cons, add_assoc, rest]

/-- A token is held together exactly when one of the cells holds it. -/
theorem mem_tally {holds : α → Multiset τ} {cells : List α} {token : τ}
    : token ∈ tally holds cells ↔ ∃ cell ∈ cells, token ∈ holds cell := by
  induction cells with
  | nil => simp
  | cons cell cells ih => simp only [tally_cons, Multiset.mem_add, ih, List.mem_cons,
      exists_eq_or_imp]

-----------------------------------------------------------------------------------------
-- Conservation and what it gives
-----------------------------------------------------------------------------------------

/-- Every issued token is either still held or released, and no token is issued twice. -/
structure Balanced (held released issued : Multiset τ) : Prop where
  conserved : held + released = issued
  distinct : issued.Nodup

namespace Balanced

variable {held released issued : Multiset τ} {token : τ}

/-- Only issued tokens are ever released. -/
theorem released_issued (balanced : Balanced held released issued)
    (member : token ∈ released)
    : token ∈ issued := by
  rw [← balanced.conserved]
  exact Multiset.mem_add.mpr (Or.inr member)

/-- No token is released twice, because no token is issued twice. -/
theorem released_once [DecidableEq τ] (balanced : Balanced held released issued)
    (token : τ)
    : released.count token ≤ 1 := by
  have once := Multiset.nodup_iff_count_le_one.mp balanced.distinct token
  rw [← balanced.conserved, Multiset.count_add] at once
  omega

/-- A token that somebody still holds has not been released. -/
theorem held_not_released (balanced : Balanced held released issued)
    (member : token ∈ held)
    : token ∉ released := by
  have distinct := balanced.distinct
  rw [← balanced.conserved] at distinct
  exact Multiset.disjoint_left.mp (Multiset.nodup_add.mp distinct).2.2 member

/-- An issued token that nobody holds any more has been released exactly once. -/
theorem released_exactly_once [DecidableEq τ] (balanced : Balanced held released issued)
    (member : token ∈ issued) (unheld : token ∉ held)
    : released.count token = 1 := by
  have once := Multiset.count_eq_one_of_mem balanced.distinct member
  rw [← balanced.conserved, Multiset.count_add, Multiset.count_eq_zero_of_notMem unheld] at once
  omega

end Balanced

/-- A token collected along a run was contributed by one of its events, by induction on
the events.
-/
theorem Machine.mem_collect {σ ε : Type*} {machine : Machine σ ε}
    {contribution : σ → ε → Multiset τ} {state : σ} {events : List ε} {token : τ}
    (member : token ∈ machine.collect contribution state events)
    : ∃ before event after middle,
        events = before ++ event :: after
        ∧ machine.runFrom state before = some middle
        ∧ token ∈ contribution middle event := by
  induction events generalizing state with
  | nil => simp [Machine.collect] at member
  | cons event rest ih =>
      rcases Multiset.mem_add.mp member with here | later
      · exact ⟨[], event, rest, state, rfl, rfl, here⟩
      · cases stepped : machine.step state event with
        | none => simp [stepped] at later
        | some next =>
            simp only [stepped, Option.map_some, Option.getD_some] at later
            obtain ⟨before, found, after, middle, rfl, ran, contributed⟩ := ih later
            refine ⟨event :: before, found, after, middle, rfl, ?_, contributed⟩
            exact Machine.runFrom_cons_iff.mpr ⟨next, stepped, ran⟩

section Log

variable {released? : α → Option τ} {token : τ} {event : α}
  (only : ∀ other, released? other = some token ↔ other = event)

include only

/-- Where one event alone releases a token, the token is released when the log lists it. -/
theorem mem_released {log : List α}
    : token ∈ (log.filterMap released? : Multiset τ) ↔ event ∈ log := by
  simp only [Multiset.mem_coe, List.mem_filterMap, only, exists_eq_right]

/-- The token is released as often as the log lists its event. -/
theorem count_released [DecidableEq τ] [DecidableEq α] (log : List α)
    : (log.filterMap released? : Multiset τ).count token = log.count event := by
  rw [Multiset.coe_count, List.count_filterMap, List.count]
  refine List.countP_congr ?_
  intro other _
  simp only [beq_iff_eq, only]

end Log

/-- A log stays ordered when its next event may follow all the others. -/
theorem ordered_push {order : α → α → Prop} {log : List α} {event : α}
    (ordered : log.Pairwise order) (follows : ∀ earlier ∈ log, order earlier event)
    : (log ++ [event]).Pairwise order := by
  refine List.pairwise_append.mpr ⟨ordered, List.pairwise_singleton order event, ?_⟩
  intro earlier member later new
  cases List.mem_singleton.mp new
  exact follows earlier member

/-- In an ordered log each event may be followed by all that come after it. -/
theorem ordered_after {order : α → α → Prop} {before after : List α} {event later : α}
    (ordered : (before ++ event :: after).Pairwise order) (member : later ∈ after)
    : order event later :=
  (List.pairwise_cons.mp (List.pairwise_append.mp ordered).2.1).1 later member

/-- The tokens issued so far carry stamps below the counter, and no stamp repeats. -/
structure Stamped (stamp : τ → Nat) (next : Nat) (issued : Multiset τ) : Prop where
  below : ∀ token ∈ issued, stamp token < next
  distinct : (issued.map stamp).Nodup

namespace Stamped

variable {stamp : τ → Nat} {next : Nat} {issued : Multiset τ}

theorem empty (stamp : τ → Nat) (next : Nat) : Stamped stamp next (0 : Multiset τ) :=
  ⟨by simp, Multiset.nodup_zero⟩

/-- Tokens with distinct stamps are distinct. -/
theorem nodup (stamped : Stamped stamp next issued) : issued.Nodup :=
  stamped.distinct.of_map

/-- Raising the counter without issuing keeps the stamps below it. -/
theorem skip (stamped : Stamped stamp next issued) {later : Nat} (grows : next ≤ later)
    : Stamped stamp later issued :=
  ⟨fun token member => Nat.lt_of_lt_of_le (stamped.below token member) grows,
    stamped.distinct⟩

/-- Issuing a token stamped with the counter, and raising it, keeps stamps distinct. -/
theorem issue (stamped : Stamped stamp next issued) {token : τ}
    (fresh : stamp token = next)
    : Stamped stamp (next + 1) (issued + {token}) := by
  constructor
  · intro other member
    rcases Multiset.mem_add.mp member with old | new
    · exact Nat.lt_succ_of_lt (stamped.below other old)
    · rw [Multiset.mem_singleton.mp new, fresh]
      exact Nat.lt_succ_self next
  · rw [add_comm, Multiset.singleton_add, Multiset.map_cons, Multiset.nodup_cons]
    refine ⟨fun old => ?_, stamped.distinct⟩
    obtain ⟨other, member, same⟩ := Multiset.mem_map.mp old
    have below := stamped.below other member
    omega

end Stamped

end ZenohC.Library
