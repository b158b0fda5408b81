import Blackboard.Binary64.Basic

/-!
# The shortest decimal that identifies a number

The reals that round to a finite non-zero number form an interval around it.
Among the decimals inside that interval, `Binary64.shortest` selects one with
the fewest digits and, of those, the nearest to the number. Everything is
decided in exact integer arithmetic on the bits of the number.
-/

namespace Blackboard

/-- The decimal number `digits * 10 ^ exponent`. -/
structure Decimal where
  digits : Nat
  exponent : Int
deriving DecidableEq, Repr

namespace Decimal

/-- Moves trailing zeros of the digits into the exponent, at most `fuel` of them. -/
def strip : Nat → Decimal → Decimal
  | 0, d => d
  | fuel + 1, d =>
    if d.digits % 10 = 0 then strip fuel ⟨d.digits / 10, d.exponent + 1⟩ else d

/-- Compares `d` with `n * 2 ^ q`. -/
def compareBinary (d : Decimal) (n : Nat) (q : Int) : Ordering :=
  compare ((d.digits * Nat.pow 10 d.exponent.toNat) <<< (-q).toNat)
    ((n <<< q.toNat) * Nat.pow 10 (-d.exponent).toNat)

/-- What decides between two candidates at the same distance. -/
inductive Tie where
  | toEven
  | upward
deriving DecidableEq, Repr

end Decimal

namespace Binary64

/-- The number below is nearer than the number above: `x` is a power of two
that is not the smallest of its kind. -/
def narrowBelow (x : Binary64) : Bool := x.fraction == 0 && x.exponentField > 1

/-- Whether `d` lies among the reals that round to the magnitude of `x`. The
ends of that interval lie halfway to the neighbours and belong to it when the
significand is even. -/
def readsBack (x : Binary64) (d : Decimal) : Bool :=
  let lowest := 4 * x.significand - (if x.narrowBelow then 1 else 2)
  let highest := 4 * x.significand + 2
  let closed := x.significand % 2 == 0
  let low := d.compareBinary lowest (x.scale - 2)
  let high := d.compareBinary highest (x.scale - 2)
  (low == .gt || (closed && low == .eq)) && (high == .lt || (closed && high == .eq))

/-- The magnitude of `x` as a quotient of naturals. -/
def numerator (x : Binary64) : Nat := x.significand <<< x.scale.toNat

@[inherit_doc numerator]
def denominator (x : Binary64) : Nat := 1 <<< (-x.scale).toNat

/-- The exponent `k` for which the magnitude lies in `[10 ^ (k - 1), 10 ^ k)`. -/
def decimalOrder (x : Binary64) : Int :=
  if x.denominator ≤ x.numerator then
    (Nat.toDigits 10 (x.numerator / x.denominator)).length
  else
    1 - (Nat.toDigits 10 ((x.denominator - 1) / x.numerator)).length

/-- The magnitude in units of `10 ^ exponent`, rounded down. -/
def floorAt (x : Binary64) (exponent : Int) : Nat :=
  x.numerator * Nat.pow 10 (-exponent).toNat / (x.denominator * Nat.pow 10 exponent.toNat)

/-- The better of the two neighbours of the magnitude among the multiples of
`10 ^ exponent`, if one of them identifies `x`. -/
def candidateAt (x : Binary64) (tie : Decimal.Tie) (exponent : Int) : Option Decimal :=
  let lower := x.floorAt exponent
  let below : Decimal := ⟨lower, exponent⟩
  let above : Decimal := ⟨lower + 1, exponent⟩
  match x.readsBack below, x.readsBack above with
  | true, true =>
    match Decimal.compareBinary ⟨2 * lower + 1, exponent⟩ (2 * x.significand) x.scale, tie with
    | .gt, _ => some below
    | .lt, _ => some above
    | .eq, .upward => some above
    | .eq, .toEven => some (if lower % 2 = 0 then below else above)
  | true, false => some below
  | false, true => some above
  | false, false => none

/-- The exact magnitude of `x`. -/
def exactDecimal (x : Binary64) : Decimal :=
  if 0 ≤ x.scale then
    ⟨x.numerator, 0⟩
  else
    ⟨x.significand * Nat.pow 5 (-x.scale).toNat, x.scale⟩

/-- The fewest digits that identify the magnitude of a finite non-zero number:
grids of one, two, up to seventeen digits are tried in turn, and the exact
value stands in where none of them answers. -/
def shortest (x : Binary64) (tie : Decimal.Tie) : Decimal :=
  let order := x.decimalOrder
  let found := (List.range 17).findSome? fun (n : Nat) =>
    x.candidateAt tie (order - ((n : Int) + 1))
  let decimal := found.getD x.exactDecimal
  decimal.strip 1100

end Binary64

end Blackboard
