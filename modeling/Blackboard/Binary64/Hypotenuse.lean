import Blackboard.Binary64.Basic

/-!
# The length of a hypotenuse

The square root of a sum of two squares, computed so that neither a square nor
the sum leaves the range of numbers when the root does not, and with one
correction for what rounding lost on the way. An infinite leg makes an infinite
hypotenuse, also beside a NaN.
-/

namespace Blackboard.Binary64

/-- The power of two with this exponent, for exponents of normal numbers. -/
def powerOfTwo (exponent : Int) : Binary64 := ⟨((exponent + 1023).toNat <<< 52).toUInt64⟩

/-- The hypotenuse over legs `long ≥ short` whose squares stay in range: the
rounded root less its error, which is computed from the error of its square. -/
def correctedRoot (long short : Binary64) : Binary64 :=
  let root := (long * long + short * short).sqrt
  let error :=
    if root.atMost (2 * short) then
      let δ := root - short
      long * (2 * δ - long) + (δ - 2 * (long - short)) * δ
    else
      let δ := root - long
      2 * δ * (long - 2 * short) + ((4 * δ - short) * short + δ * δ)
  root - error / (2 * root)

/-- The length of the hypotenuse over two legs. A leg that is too short beside
the other to matter is added to it; very long and very short legs are scaled by
a power of two and back. -/
def hypotenuse (x y : Binary64) : Binary64 :=
  if x.abs = infinity ∨ y.abs = infinity then
    infinity
  else if x.isNaN || y.isNaN then
    nan
  else
    let long := if x.abs.below y.abs then y.abs else x.abs
    let short := if x.abs.below y.abs then x.abs else y.abs
    let negligible := powerOfTwo (-54)
    let down := powerOfTwo (-600)
    if (powerOfTwo 511).below long then
      if short.atMost (long * negligible) then long + short
      else correctedRoot (long * down) (short * down) / down
    else if short.below (powerOfTwo (-459)) then
      if (short / negligible).atMost long then long + short
      else correctedRoot (long / down) (short / down) * down
    else if short.atMost (long * negligible) then
      long + short
    else
      correctedRoot long short

end Blackboard.Binary64
