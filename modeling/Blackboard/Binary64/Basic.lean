/-!
# Double-precision numbers

A number is its 64-bit pattern: a sign, an exponent field of eleven bits and a
fraction of fifty-two. Every question about the exact value of a pattern is
thereby a question about integers, and two patterns can be compared decidably.
Arithmetic, which rounds, goes through the machine's floating-point numbers.

The equality of numbers `Binary64.same` is not the equality of patterns: the
two zeros are the same number, and nothing is the same number as a NaN.
-/

namespace Blackboard

/-- A double-precision number, given by its bit pattern. -/
structure Binary64 where
  bits : UInt64
deriving DecidableEq, Inhabited, Repr

namespace Binary64

/-- The sign bit. -/
def negative (x : Binary64) : Bool := decide (0x8000000000000000 ≤ x.bits.toNat)

/-- The eleven bits of the exponent. -/
def exponentField (x : Binary64) : Nat := x.bits.toNat / 0x10000000000000 % 0x800

/-- The fifty-two bits of the fraction. -/
def fraction (x : Binary64) : Nat := x.bits.toNat % 0x10000000000000

/-- An exponent field of ones marks an infinity or, with a non-zero fraction, a NaN. -/
def isNaN (x : Binary64) : Bool := x.exponentField == 2047 && x.fraction != 0

/-- Neither an infinity nor a NaN. -/
def isFinite (x : Binary64) : Bool := x.exponentField < 2047

/-- One of the two zeros. -/
def isZero (x : Binary64) : Bool := x.bits.toNat % 0x8000000000000000 == 0

/-- The integer `m` of a finite number `± m * 2 ^ q`. -/
def significand (x : Binary64) : Nat :=
  if x.exponentField = 0 then x.fraction else 0x10000000000000 + x.fraction

/-- The exponent `q` of a finite number `± m * 2 ^ q`. -/
def scale (x : Binary64) : Int :=
  if x.exponentField = 0 then -1074 else (x.exponentField : Int) - 1075

/-- Equality of numbers: a NaN equals nothing, and the two zeros are equal. -/
def same (x y : Binary64) : Bool :=
  !x.isNaN && !y.isNaN && (x.bits == y.bits || (x.isZero && y.isZero))

/-- The magnitude of a finite number whose value is a whole number. -/
def wholeMagnitude? (x : Binary64) : Option Nat :=
  if 0 ≤ x.scale then
    some (x.significand <<< x.scale.toNat)
  else
    let divisor := 1 <<< (-x.scale).toNat
    if x.significand % divisor = 0 then some (x.significand / divisor) else none

/-- The exact value of a number that is a whole number. -/
def toInt? (x : Binary64) : Option Int :=
  if x.isFinite then
    x.wholeMagnitude?.map fun magnitude =>
      if x.negative then -(magnitude : Int) else (magnitude : Int)
  else
    none

/-- The exact value of a whole number in the range of 64-bit integers, whose
upper end is excluded because it is itself a number. -/
def toInt64? (x : Binary64) : Option Int64 :=
  x.toInt?.bind fun n =>
    if -0x8000000000000000 ≤ n ∧ n < 0x8000000000000000 then some (Int64.ofInt n) else none

/-- The number that the machine computes with. -/
def toFloat (x : Binary64) : Float := Float.ofBits x.bits

/-- The pattern of a machine number. -/
def ofFloat (x : Float) : Binary64 := ⟨x.toBits⟩

/-- The number nearest to an integer, ties going to the even significand. -/
def ofInt (n : Int) : Binary64 := ofFloat (Float.ofInt n)

def zero : Binary64 := ⟨0⟩

def infinity : Binary64 := ⟨0x7FF0000000000000⟩

def nan : Binary64 := ⟨0x7FF8000000000000⟩

/-- The number nearest to `digits * 10 ^ exponent`. A decimal of `n` digits lies
below `10 ^ (n + exponent)`, so that far outside the range of finite numbers
the answer needs no arithmetic. -/
def ofDecimal (digits : Nat) (exponent : Int) : Binary64 :=
  let order := (Nat.toDigits 10 digits).length + exponent
  if digits = 0 ∨ order < -330 then
    zero
  else if 320 < order then
    infinity
  else
    ofFloat (Float.ofScientific digits (decide (exponent < 0)) exponent.natAbs)

/-- Flips the sign bit, also of a zero or a NaN. -/
def neg (x : Binary64) : Binary64 := ⟨x.bits ^^^ 0x8000000000000000⟩

/-- Clears the sign bit. -/
def abs (x : Binary64) : Binary64 := ⟨x.bits &&& 0x7FFFFFFFFFFFFFFF⟩

def sqrt (x : Binary64) : Binary64 := ofFloat x.toFloat.sqrt

instance (n : Nat) : OfNat Binary64 n := ⟨ofInt n⟩
instance : OfScientific Binary64 :=
  ⟨fun digits negative places => ofFloat (Float.ofScientific digits negative places)⟩
instance : Neg Binary64 := ⟨neg⟩
instance : Add Binary64 := ⟨fun x y => ofFloat (x.toFloat + y.toFloat)⟩
instance : Sub Binary64 := ⟨fun x y => ofFloat (x.toFloat - y.toFloat)⟩
instance : Mul Binary64 := ⟨fun x y => ofFloat (x.toFloat * y.toFloat)⟩
instance : Div Binary64 := ⟨fun x y => ofFloat (x.toFloat / y.toFloat)⟩

/-- `x` is a smaller number than `y`; false as soon as one of them is a NaN. -/
def below (x y : Binary64) : Bool := x.toFloat < y.toFloat

/-- `x` is at most `y`; false as soon as one of them is a NaN. -/
def atMost (x y : Binary64) : Bool := x.toFloat ≤ y.toFloat

end Binary64

end Blackboard
