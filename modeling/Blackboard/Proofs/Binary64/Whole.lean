import Blackboard.Binary64.Basic
import Mathlib.Algebra.Order.Group.Nat

/-!
# Whole numbers among the doubles

A finite number is `± m * 2 ^ q`. The significand `m` has fifty-three bits
unless the exponent is the smallest one, so the magnitude determines the
exponent field and the fraction. Hence two numbers with the same exact integer
value are equal as numbers: they have the same pattern, or both are zeros.
-/

namespace Blackboard.Binary64

/-! ## Exponent and significand -/

/-- The exponent of a number, counted from 1075 below zero. -/
def lift (x : Binary64) : Nat := max x.exponentField 1

theorem scale_eq_lift_sub (x : Binary64) : x.scale = (x.lift : Int) - 1075 := by
  unfold scale lift
  by_cases subnormal : x.exponentField = 0
  · rw [if_pos subnormal, subnormal]
    rfl
  · rw [if_neg subnormal]
    omega

theorem fraction_lt (x : Binary64) : x.fraction < 2 ^ 52 :=
  Nat.mod_lt _ (by decide)

theorem significand_lt (x : Binary64) : x.significand < 2 ^ 53 := by
  have small := x.fraction_lt
  unfold significand
  split <;> omega

theorem le_significand_of_lift {x : Binary64} (normal : 1 < x.lift) :
    2 ^ 52 ≤ x.significand := by
  have field : x.exponentField ≠ 0 := by
    unfold lift at normal
    omega
  rw [significand, if_neg field]
  exact Nat.le_add_right _ _

/-- Exponent and significand together determine the exponent field and the
fraction: at the smallest exponent the leading bit tells the fields 0 and 1
apart. -/
theorem fields_eq_of_lift_eq {x y : Binary64} (liftEq : x.lift = y.lift)
    (significandEq : x.significand = y.significand) :
    x.exponentField = y.exponentField ∧ x.fraction = y.fraction := by
  have xSmall := x.fraction_lt
  have ySmall := y.fraction_lt
  unfold lift at liftEq
  unfold significand at significandEq
  split at significandEq <;> split at significandEq <;> omega

/-! ## The magnitude determines the fields -/

theorem lift_le_of_magnitude_eq {x y : Binary64}
    (magnitudeEq : x.significand * 2 ^ x.lift = y.significand * 2 ^ y.lift) :
    y.lift ≤ x.lift := by
  by_contra above
  obtain ⟨gap, gapEq⟩ := Nat.exists_eq_add_of_lt (Nat.lt_of_not_le above)
  have normal : 1 < y.lift := by
    have positive : 1 ≤ x.lift := Nat.le_max_right _ _
    omega
  have shifted : x.significand * 2 ^ x.lift =
      y.significand * 2 ^ (gap + 1) * 2 ^ x.lift := by
    rw [magnitudeEq, gapEq, Nat.mul_assoc, ← Nat.pow_add]
    congr 2
    omega
  have significandEq : x.significand = y.significand * 2 ^ (gap + 1) :=
    Nat.eq_of_mul_eq_mul_right (Nat.two_pow_pos _) shifted
  have large : 2 ^ 53 ≤ x.significand := by
    calc
      2 ^ 53 = 2 ^ 52 * 2 ^ 1 := rfl
      _ ≤ y.significand * 2 ^ (gap + 1) :=
        Nat.mul_le_mul (le_significand_of_lift normal)
          (Nat.pow_le_pow_right Nat.two_pos (Nat.le_add_left 1 gap))
      _ = x.significand := significandEq.symm
  exact absurd x.significand_lt (Nat.not_lt.mpr large)

theorem fields_eq_of_magnitude_eq {x y : Binary64}
    (magnitudeEq : x.significand * 2 ^ x.lift = y.significand * 2 ^ y.lift) :
    x.exponentField = y.exponentField ∧ x.fraction = y.fraction := by
  have liftEq : x.lift = y.lift :=
    Nat.le_antisymm (lift_le_of_magnitude_eq magnitudeEq.symm)
      (lift_le_of_magnitude_eq magnitudeEq)
  rw [liftEq] at magnitudeEq
  exact fields_eq_of_lift_eq liftEq
    (Nat.eq_of_mul_eq_mul_right (Nat.two_pow_pos _) magnitudeEq)

/-- A whole magnitude in the common unit `2 ^ (-1075)`. -/
theorem magnitude_of_wholeMagnitude? {x : Binary64} {magnitude : Nat}
    (whole : x.wholeMagnitude? = some magnitude) :
    magnitude * 2 ^ 1075 = x.significand * 2 ^ x.lift := by
  have scaleEq := x.scale_eq_lift_sub
  unfold wholeMagnitude? at whole
  by_cases nonnegative : 0 ≤ x.scale
  · rw [if_pos nonnegative, Option.some.injEq, Nat.shiftLeft_eq] at whole
    rw [← whole, Nat.mul_assoc, ← Nat.pow_add]
    congr 2
    omega
  · rw [if_neg nonnegative] at whole
    simp only [Nat.one_shiftLeft, Option.ite_none_right_eq_some, Option.some.injEq] at whole
    rcases whole with ⟨divides, quotient⟩
    have significandEq : magnitude * 2 ^ (-x.scale).toNat = x.significand := by
      rw [← quotient]
      exact Nat.div_mul_cancel (Nat.dvd_of_mod_eq_zero divides)
    rw [← significandEq, Nat.mul_assoc, ← Nat.pow_add]
    congr 2
    omega

theorem magnitude_low_bits (x : Binary64) :
    x.bits.toNat % 2 ^ 63 = x.exponentField * 2 ^ 52 + x.fraction := by
  unfold exponentField fraction
  omega

/-! ## Exact integer values -/

theorem toInt?_eq_some {x : Binary64} {n : Int} (valued : x.toInt? = some n) :
    ∃ magnitude : Nat, x.wholeMagnitude? = some magnitude ∧
      n = if x.negative then -(magnitude : Int) else (magnitude : Int) := by
  unfold toInt? at valued
  by_cases finite : x.isFinite = true
  · rw [if_pos finite] at valued
    cases whole : x.wholeMagnitude? with
    | none =>
        rw [whole] at valued
        contradiction
    | some magnitude =>
        rw [whole] at valued
        exact ⟨magnitude, rfl, (Option.some.inj valued).symm⟩
  · rw [if_neg finite] at valued
    contradiction

/-- Numbers with the same exact integer value have the same pattern, or are
both zeros. -/
theorem bits_eq_or_isZero_of_toInt?_eq {x y : Binary64} {n : Int}
    (xExact : x.toInt? = some n) (yExact : y.toInt? = some n) :
    x.bits = y.bits ∨ (x.isZero = true ∧ y.isZero = true) := by
  obtain ⟨xMagnitude, xWhole, xValue⟩ := toInt?_eq_some xExact
  obtain ⟨yMagnitude, yWhole, yValue⟩ := toInt?_eq_some yExact
  have magnitudeEq : xMagnitude = yMagnitude := by
    split at xValue <;> split at yValue <;> omega
  subst yMagnitude
  have fieldsEq := fields_eq_of_magnitude_eq
    ((magnitude_of_wholeMagnitude? xWhole).symm.trans (magnitude_of_wholeMagnitude? yWhole))
  have lowEq : x.bits.toNat % 2 ^ 63 = y.bits.toNat % 2 ^ 63 := by
    rw [magnitude_low_bits, magnitude_low_bits, fieldsEq.1, fieldsEq.2]
  by_cases sign : x.negative = y.negative
  · left
    have xBound := x.bits.toNat_lt
    have yBound := y.bits.toNat_lt
    simp only [negative, decide_eq_decide] at sign
    apply UInt64.toNat_inj.mp
    omega
  · right
    -- Opposite signs leave zero as the only common value, and its fields are all zero.
    have zero : xMagnitude = 0 := by
      cases xSign : x.negative <;> cases ySign : y.negative <;>
        simp [xSign, ySign] at sign xValue yValue <;> omega
    have product := magnitude_of_wholeMagnitude? xWhole
    rw [zero, Nat.zero_mul] at product
    have significandZero : x.significand = 0 :=
      (Nat.mul_eq_zero.mp product.symm).resolve_right (Nat.two_pow_pos _).ne'
    have low : x.bits.toNat % 2 ^ 63 = 0 := by
      rw [magnitude_low_bits]
      unfold significand at significandZero
      split at significandZero <;> omega
    simp only [isZero, beq_iff_eq]
    exact ⟨low, lowEq ▸ low⟩

theorem toInt?_eq_zero_of_isZero {x : Binary64} (zero : x.isZero = true) :
    x.toInt? = some 0 := by
  have low : x.bits.toNat % 2 ^ 63 = 0 := by simpa [isZero] using zero
  rw [magnitude_low_bits] at low
  have field : x.exponentField = 0 := by omega
  have fraction : x.fraction = 0 := by omega
  have significandZero : x.significand = 0 := by rw [significand, if_pos field, fraction]
  have negativeScale : ¬ 0 ≤ x.scale := by
    rw [scale, if_pos field]
    decide
  have whole : x.wholeMagnitude? = some 0 := by
    rw [wholeMagnitude?, if_neg negativeScale, significandZero]
    simp
  simp [toInt?, isFinite, field, whole]

/-! ## Numbers in the range of 64-bit integers -/

theorem isNaN_eq_false_of_toInt64?_eq_some {x : Binary64} {n : Int64}
    (valued : x.toInt64? = some n) : x.isNaN = false := by
  unfold toInt64? toInt? at valued
  by_cases finite : x.isFinite = true
  · have field : x.exponentField < 2047 := by simpa [isFinite] using finite
    simp [isNaN, field.ne]
  · rw [if_neg finite] at valued
    contradiction

theorem toInt64?_eq_some {x : Binary64} {n : Int64} (valued : x.toInt64? = some n) :
    x.toInt? = some n.toInt := by
  unfold toInt64? at valued
  obtain ⟨whole, exactly, inRange⟩ := Option.bind_eq_some_iff.mp valued
  simp only [Option.ite_none_right_eq_some, Option.some.injEq] at inRange
  rcases inRange with ⟨⟨lower, upper⟩, rfl⟩
  rw [exactly, Int64.toInt_ofInt_of_le lower upper]

theorem toInt64?_eq_zero_of_isZero {x : Binary64} (zero : x.isZero = true) :
    x.toInt64? = some 0 := by
  rw [toInt64?, toInt?_eq_zero_of_isZero zero]
  rfl

end Blackboard.Binary64
