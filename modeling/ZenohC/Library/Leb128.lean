import Mathlib.Algebra.Ring.Nat

/-! Numbers in groups of seven bits, the least significant first.
Every group but the last is marked, so that a number ends where its encoding ends.
-/

namespace ZenohC.Library

/-- The encoding of a number in at most as many groups as there is fuel. -/
def leb128 : Nat → Nat → List UInt8
  | 0, _ => []
  | fuel + 1, number =>
      if number < 128 then [UInt8.ofNat number]
      else UInt8.ofNat (number % 128 + 128) :: leb128 fuel (number / 128)

/-- The number at the front, and what is behind it. -/
def readLeb128 : List UInt8 → Option (Nat × List UInt8)
  | [] => none
  | group :: rest =>
      if group.toNat < 128 then some (group.toNat, rest)
      else (readLeb128 rest).map fun (number, rest) => (group.toNat - 128 + 128 * number, rest)

theorem toNat_ofNat_of_lt {number : Nat} (small : number < 256)
    : (UInt8.ofNat number).toNat = number :=
  Nat.mod_eq_of_lt small

/-- Reading inverts writing where the fuel is enough, by induction on the fuel. -/
theorem readLeb128_leb128 {fuel number : Nat} (enough : number < 128 ^ fuel)
    (rest : List UInt8) (some_group : 0 < fuel)
    : readLeb128 (leb128 fuel number ++ rest) = some (number, rest) := by
  induction fuel generalizing number with
  | zero => exact absurd some_group (Nat.lt_irrefl 0)
  | succ fuel ih =>
      rw [leb128]
      split
      case isTrue last =>
          have kept := toNat_ofNat_of_lt (show number < 256 by omega)
          rw [List.singleton_append, readLeb128, kept, if_pos last]
      case isFalse more =>
          have marked := toNat_ofNat_of_lt (show number % 128 + 128 < 256 by omega)
          have behind : number / 128 < 128 ^ fuel := by
            rw [Nat.pow_succ] at enough
            exact Nat.div_lt_of_lt_mul (by omega)
          have fuelLeft : 0 < fuel := by
            rcases Nat.eq_zero_or_pos fuel with rfl | positive
            · exact absurd behind (by simp; omega)
            · exact positive
          rw [List.cons_append, readLeb128, marked, if_neg (by omega), ih behind fuelLeft]
          simp only [Option.map_some, Option.some.injEq, Prod.mk.injEq, and_true]
          omega

theorem leb128_ne_nil {fuel number : Nat} (some_group : 0 < fuel) : leb128 fuel number ≠ [] := by
  obtain ⟨less, rfl⟩ := Nat.exists_eq_add_of_lt some_group
  rw [Nat.zero_add, leb128]
  split <;> simp

end ZenohC.Library
