import Blackboard.Binary64.Basic

/-!
# Reading decimal texts

`Binary64.parse?` reads a number as a person would type it: an optional sign,
then `inf`, `infinity` or `nan` in any case, or digits with an optional point
among them and an optional exponent. The number is the nearest one.
-/

namespace Blackboard.Binary64

/-- The value of a run of decimal digits. -/
def digitsValue (digits : List Char) : Nat :=
  digits.foldl (fun value c => 10 * value + (c.toNat - '0'.toNat)) 0

/-- A sign in front of the rest of a text. -/
def splitSign : List Char → Bool × List Char
  | '-' :: rest => (true, rest)
  | '+' :: rest => (false, rest)
  | rest => (false, rest)

/-- The exponent after the digits of a number: nothing at all, or a mark, an
optional sign and at least one digit. -/
def exponentPart? : List Char → Option Int
  | [] => some 0
  | mark :: rest =>
    if mark = 'e' ∨ mark = 'E' then
      let (negative, digits) := splitSign rest
      if digits.isEmpty || !digits.all Char.isDigit then
        none
      else
        let magnitude : Int := digitsValue digits
        some (if negative then -magnitude else magnitude)
    else
      none

/-- Digits with an optional point, and the exponent that follows them. -/
def decimalPart? (text : List Char) : Option Binary64 :=
  let whole := text.takeWhile Char.isDigit
  let rest := text.dropWhile Char.isDigit
  let (places, rest) := match rest with
    | '.' :: rest => (rest.takeWhile Char.isDigit, rest.dropWhile Char.isDigit)
    | rest => ([], rest)
  if whole.isEmpty && places.isEmpty then
    none
  else
    (exponentPart? rest).map fun exponent =>
      ofDecimal (digitsValue (whole ++ places)) (exponent - places.length)

/-- Reads a number in decimal notation. -/
def parse? (text : String) : Option Binary64 :=
  let (negative, rest) := splitSign text.toList
  let magnitude := match String.ofList (rest.map Char.toLower) with
    | "inf" | "infinity" => some infinity
    | "nan" => some nan
    | _ => decimalPart? rest
  magnitude.map fun x => if negative then -x else x

end Blackboard.Binary64
