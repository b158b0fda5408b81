import Blackboard.Proofs.Binary64.Whole
import Mathlib.Algebra.Order.Field.Rat
import Mathlib.Data.Rat.Cast.CharZero
import Mathlib.Tactic.NormNum

/-!
# Exact values

A finite number stands for a rational, `± m * 2 ^ q`. `Binary64.toInt?` and
`Binary64.toInt64?` find out whether this is a whole number by shifting and dividing the
significand. They answer with that whole number and nothing else
(`toInt?_eq_some_iff`, `toInt64?_eq_some_iff`): no value is rounded on the way.
-/

namespace Blackboard.Binary64

/-- The distance of a finite number from zero. -/
def magnitude (x : Binary64) : ℚ := x.significand * 2 ^ x.scale

/-- The exact value of a finite number. -/
def value (x : Binary64) : ℚ := if x.negative then -x.magnitude else x.magnitude

theorem magnitude_nonneg (x : Binary64) : 0 ≤ x.magnitude := by
  exact mul_nonneg (Nat.cast_nonneg _) (zpow_nonneg (by norm_num) _)

/-! ## Whole magnitudes -/

theorem magnitude_of_nonneg {x : Binary64} (nonnegative : 0 ≤ x.scale) :
    x.magnitude = ((x.significand <<< x.scale.toNat : Nat) : ℚ) := by
  have power : (2 : ℚ) ^ x.scale = 2 ^ x.scale.toNat := by
    rw [← zpow_natCast, Int.toNat_of_nonneg nonnegative]
  rw [magnitude, power, Nat.shiftLeft_eq]
  push_cast
  rfl

theorem magnitude_of_neg {x : Binary64} (negative : x.scale < 0) :
    x.magnitude = x.significand / ((1 <<< (-x.scale).toNat : Nat) : ℚ) := by
  have power : (2 : ℚ) ^ x.scale = (2 ^ (-x.scale).toNat)⁻¹ := by
    rw [← zpow_natCast, Int.toNat_of_nonneg (by omega), zpow_neg, inv_inv]
  rw [magnitude, power, Nat.one_shiftLeft, div_eq_mul_inv]
  push_cast
  rfl

/-- A quotient of whole numbers is whole if the division leaves nothing over. -/
theorem div_eq_natCast_iff {divisor : Nat} (positive : 0 < divisor) (dividend quotient : Nat) :
    (dividend : ℚ) / divisor = quotient ↔
      dividend % divisor = 0 ∧ dividend / divisor = quotient := by
  have nonzero : (divisor : ℚ) ≠ 0 := Nat.cast_ne_zero.mpr positive.ne'
  rw [div_eq_iff nonzero, ← Nat.cast_mul, Nat.cast_inj]
  constructor
  · rintro rfl
    exact ⟨Nat.mul_mod_left quotient divisor, Nat.mul_div_cancel quotient positive⟩
  · rintro ⟨divides, rfl⟩
    exact (Nat.div_mul_cancel (Nat.dvd_of_mod_eq_zero divides)).symm

theorem wholeMagnitude?_eq_some_iff (x : Binary64) (n : Nat) :
    x.wholeMagnitude? = some n ↔ x.magnitude = n := by
  unfold wholeMagnitude?
  by_cases nonnegative : 0 ≤ x.scale
  · rw [if_pos nonnegative, magnitude_of_nonneg nonnegative, Option.some.injEq, Nat.cast_inj]
  · have positive : 0 < 1 <<< (-x.scale).toNat := by
      rw [Nat.one_shiftLeft]
      exact Nat.two_pow_pos _
    rw [if_neg nonnegative, magnitude_of_neg (Int.not_le.mp nonnegative),
      div_eq_natCast_iff positive]
    simp only [Option.ite_none_right_eq_some, Option.some.injEq]

/-! ## Whole values -/

/-- What is whole has a whole distance from zero. -/
theorem magnitude_of_value_eq {x : Binary64} {n : Int} (exactly : x.value = n) :
    x.magnitude = n.natAbs := by
  have nonnegative := x.magnitude_nonneg
  unfold value at exactly
  rw [Nat.cast_natAbs, Int.cast_abs, ← exactly]
  split
  · rw [abs_neg, abs_of_nonneg nonnegative]
  · rw [abs_of_nonneg nonnegative]

/-- A number has a whole value if it is finite and its exact value is that number. -/
theorem toInt?_eq_some_iff (x : Binary64) (n : Int) :
    x.toInt? = some n ↔ x.isFinite = true ∧ x.value = n := by
  by_cases finite : x.isFinite = true
  · rw [and_iff_right finite]
    constructor
    · intro valued
      obtain ⟨magnitude, whole, rfl⟩ := toInt?_eq_some valued
      rw [value, (wholeMagnitude?_eq_some_iff x magnitude).mp whole]
      split <;> push_cast <;> rfl
    · intro exactly
      have distance := magnitude_of_value_eq exactly
      have signed : (if x.negative then -(n.natAbs : Int) else (n.natAbs : Int)) = n := by
        apply Int.cast_injective (α := ℚ)
        rw [← exactly, value, distance]
        split
        · rw [Int.cast_neg, Int.cast_natCast]
        · exact Int.cast_natCast _
      rw [toInt?, if_pos finite, (wholeMagnitude?_eq_some_iff x n.natAbs).mpr distance]
      exact congrArg some signed
  · rw [toInt?, if_neg finite]
    simp [finite]

/-- A number is a 64-bit whole number if it is finite and its exact value is that number.
The range of 64-bit whole numbers ends below `2 ^ 63`, which is a number itself. -/
theorem toInt64?_eq_some_iff (x : Binary64) (n : Int64) :
    x.toInt64? = some n ↔ x.isFinite = true ∧ x.value = n.toInt := by
  rw [← toInt?_eq_some_iff]
  constructor
  · exact toInt64?_eq_some
  · intro exactly
    have inRange : -0x8000000000000000 ≤ n.toInt ∧ n.toInt < 0x8000000000000000 :=
      ⟨n.le_toInt, n.toInt_lt⟩
    rw [toInt64?, exactly, Option.bind_some, if_pos inRange, Int64.ofInt_toInt]

end Blackboard.Binary64
