import Blackboard.Binary64.Shortest

/-!
# How numbers are written

`Binary64.Layout` collects the decisions of a written form: which exponents are
spelled out positionally, whether a whole number shows a fractional digit, how
ties between equally short decimals go, and what stands for the values that
have no digits.
-/

namespace Blackboard.Binary64

/-- The decisions of a written form of numbers. -/
structure Layout where
  /-- The exponents of the leading digit that are written positionally. -/
  isPlain : Int → Bool
  /-- What follows a whole number written positionally. -/
  wholeEnding : String
  tie : Decimal.Tie
  nan : String
  infinity : String

private def zeros (count : Nat) : List Char := List.replicate count '0'

/-- Digits without an exponent, the point after, inside or before them. -/
def plainText (wholeEnding : String) (d : Decimal) : String :=
  let digits := Nat.toDigits 10 d.digits
  if 0 ≤ d.exponent then
    String.ofList (digits ++ zeros d.exponent.toNat) ++ wholeEnding
  else
    let places := (-d.exponent).toNat
    if places < digits.length then
      let whole := digits.length - places
      String.ofList (digits.take whole ++ '.' :: digits.drop whole)
    else
      String.ofList ('0' :: '.' :: zeros (places - digits.length) ++ digits)

/-- One digit, the point, the other digits and the exponent with its sign. -/
def scientificText (d : Decimal) : String :=
  let digits := Nat.toDigits 10 d.digits
  let exponent := d.exponent + digits.length - 1
  let mantissa := match digits with
    | lead :: next :: rest => lead :: '.' :: next :: rest
    | _ => digits
  let sign := if exponent < 0 then "e-" else "e+"
  String.ofList mantissa ++ sign ++ toString exponent.natAbs

/-- The written form of a number. -/
def render (form : Layout) (x : Binary64) : String :=
  if x.isNaN then
    form.nan
  else
    let sign := if x.negative then "-" else ""
    if !x.isFinite then
      sign ++ form.infinity
    else if x.isZero then
      sign ++ "0" ++ form.wholeEnding
    else
      let d := x.shortest form.tie
      let lead := d.exponent + (Nat.toDigits 10 d.digits).length - 1
      sign ++ (if form.isPlain lead then plainText form.wholeEnding d else scientificText d)

end Blackboard.Binary64
