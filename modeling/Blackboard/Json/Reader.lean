import Blackboard.Binary64.Reading
import Blackboard.Json.Basic

/-!
# Reading JSON texts

`Json.read?` accepts exactly the texts of the JSON grammar, and keeps what is
not meant for use as `Json.unreadable`. The parts of the reader work on lists of
characters and hand back what they did not consume.
-/

namespace Blackboard.Json

/-! ## Numbers -/

/-- A number as it is spelled: its sign, the digits before and after the point,
and the exponent. -/
structure Numeral where
  negative : Bool
  whole : List Char
  places : Option (List Char)
  exponent : Option Int

/-- Continues a number digit by digit while it stays below `2 ^ 64`. Returns the
digits that were left over with it. -/
def gather : Nat → List Char → Nat × List Char
  | value, [] => (value, [])
  | value, c :: rest =>
    let next := 10 * value + (c.toNat - '0'.toNat)
    if next < UInt64.size then gather next rest else (value, c :: rest)

/-- A power of ten, rounded to the nearest number. -/
def powerOfTen (exponent : Nat) : Binary64 := Binary64.ofDecimal 1 exponent

/-- Divides by `10 ^ 308` the given number of times, then by a last power of ten. -/
def shrink : Nat → Nat → Binary64 → Binary64
  | 0, last, x => x / powerOfTen last
  | steps + 1, last, x => if x.isZero then x else shrink steps last (x / powerOfTen 308)

/-- The number for gathered digits and a power of ten: both are rounded, and so
is their product or quotient. There is none beyond the range. -/
def scaled? (significand : Nat) (exponent : Int) : Option Binary64 :=
  let x := Binary64.ofInt significand
  if 0 ≤ exponent then
    if significand = 0 then
      some x
    else if 308 < exponent then
      none
    else
      let product := x * powerOfTen exponent.toNat
      if product.isFinite then some product else none
  else
    let places := (-exponent).toNat
    let steps := (places - 1) / 308
    some (shrink steps (places - 308 * steps) x)

/-- The document for a number. Without point and exponent it is a whole number
if it fits a signed or an unsigned 64-bit integer; minus zero is no whole number.
Of longer digit strings the digits that do not fit below `2 ^ 64` only count. -/
def Numeral.document (n : Numeral) : Json :=
  let (significand, unread) := gather 0 n.whole
  let signed (x : Binary64) : Json := .float (if n.negative then -x else x)
  if unread.isEmpty && n.places.isNone && n.exponent.isNone then
    if !n.negative then
      .int significand
    else if significand = 0 || 0x8000000000000000 < significand then
      signed (Binary64.ofInt significand)
    else
      .int (-(significand : Int))
  else
    let places := n.places.getD []
    let (significand, unreadPlaces) := gather significand places
    let exponent : Int :=
      unread.length - (places.length - unreadPlaces.length) + n.exponent.getD 0
    match scaled? significand exponent with
    | some x => signed x
    | none => .unreadable

/-- The exponent of a number, if a mark announces one; it must have digits. -/
def readExponent? : List Char → Option (Option Int × List Char)
  | mark :: rest =>
    if mark = 'e' ∨ mark = 'E' then
      let (negative, rest) := Binary64.splitSign rest
      let digits := rest.takeWhile Char.isDigit
      if digits.isEmpty then
        none
      else
        let magnitude : Int := Binary64.digitsValue digits
        some (some (if negative then -magnitude else magnitude), rest.dropWhile Char.isDigit)
    else
      some (none, mark :: rest)
  | [] => some (none, [])

/-- The digits after the point, if there is a point; there must be some. -/
def readPlaces? : List Char → Option (Option (List Char) × List Char)
  | '.' :: rest =>
    let digits := rest.takeWhile Char.isDigit
    if digits.isEmpty then none else some (some digits, rest.dropWhile Char.isDigit)
  | rest => some (none, rest)

/-- A number that starts here. Digits before the point are required, and only a
lone zero may start with a zero. -/
def readNumeral? (chars : List Char) : Option (Numeral × List Char) := do
  let (negative, chars) := match chars with
    | '-' :: rest => (true, rest)
    | rest => (false, rest)
  let whole := chars.takeWhile Char.isDigit
  if whole.isEmpty || (whole.head? == some '0' && whole.length ≠ 1) then
    none
  else
    let (places, rest) ← readPlaces? (chars.dropWhile Char.isDigit)
    let (exponent, rest) ← readExponent? rest
    some ({ negative, whole, places, exponent }, rest)

/-! ## Texts -/

/-- A character of a quoted text, or a 16-bit unit that was spelled out. -/
inductive Piece where
  | char (c : Char)
  | unit (n : Nat)

def hexValue? (c : Char) : Option Nat :=
  if '0' ≤ c ∧ c ≤ '9' then some (c.toNat - '0'.toNat)
  else if 'a' ≤ c ∧ c ≤ 'f' then some (c.toNat - 'a'.toNat + 10)
  else if 'A' ≤ c ∧ c ≤ 'F' then some (c.toNat - 'A'.toNat + 10)
  else none

/-- The unit that four hexadecimal digits spell. -/
def unit? (a b c d : Char) : Option Piece := do
  let a ← hexValue? a
  let b ← hexValue? b
  let c ← hexValue? c
  let d ← hexValue? d
  return .unit (4096 * a + 256 * b + 16 * c + d)

/-- The character after a backslash. -/
def unescape? : Char → Option Piece
  | '"' => some (.char '"')
  | '\\' => some (.char '\\')
  | '/' => some (.char '/')
  | 'b' => some (.char '\x08')
  | 'f' => some (.char '\x0c')
  | 'n' => some (.char '\n')
  | 'r' => some (.char '\r')
  | 't' => some (.char '\t')
  | _ => none

/-- The pieces of a text up to its closing quote, and what follows it. Control
characters have to be escaped. -/
def readPieces? : List Char → Option (List Piece × List Char)
  | '"' :: rest => some ([], rest)
  | '\\' :: 'u' :: a :: b :: c :: d :: rest => do
    let piece ← unit? a b c d
    let (pieces, rest) ← readPieces? rest
    return (piece :: pieces, rest)
  | '\\' :: c :: rest => do
    let piece ← unescape? c
    let (pieces, rest) ← readPieces? rest
    return (piece :: pieces, rest)
  | c :: rest =>
    if c.toNat < 0x20 then
      none
    else do
      let (pieces, rest) ← readPieces? rest
      return (.char c :: pieces, rest)
  | [] => none

/-- The characters of a text. A high surrogate must be followed at once by a low
one, and a low one must follow a high one. -/
def joinPieces? : List Piece → Option (List Char)
  | [] => some []
  | .char c :: rest => (joinPieces? rest).map (c :: ·)
  | .unit high :: .unit low :: rest =>
    if 0xD800 ≤ high ∧ high < 0xDC00 then
      if 0xDC00 ≤ low ∧ low < 0xE000 then
        let code := 0x10000 + 0x400 * (high - 0xD800) + (low - 0xDC00)
        (joinPieces? rest).map (Char.ofNat code :: ·)
      else
        none
    else if 0xDC00 ≤ high ∧ high < 0xE000 then
      none
    else
      (joinPieces? (.unit low :: rest)).map (Char.ofNat high :: ·)
  | .unit n :: rest =>
    if 0xD800 ≤ n ∧ n < 0xE000 then none else (joinPieces? rest).map (Char.ofNat n :: ·)

/-- A text after its opening quote: `none` inside if it holds half a surrogate pair. -/
def readText? (chars : List Char) : Option (Option String × List Char) :=
  (readPieces? chars).map fun (pieces, rest) => ((joinPieces? pieces).map String.ofList, rest)

/-! ## Documents -/

/-- Brackets may be nested to this depth. -/
def depthLimit : Nat := 127

def skipBlanks (chars : List Char) : List Char :=
  chars.dropWhile fun c => c == ' ' || c == '\t' || c == '\n' || c == '\r'

/-- A document out of parts that were read at the given depth. -/
def atDepth (depth : Nat) (document : Json) : Json :=
  if depth ≤ depthLimit then document else .unreadable

/-- The object with these members; it is unreadable if one of its keys is. -/
def ofReadMembers (members : List (Option String × Json)) : Json :=
  match members.mapM fun (key, value) => key.map fun key => (key, value) with
  | some members => .object members
  | none => .unreadable

mutual

/-- The document that starts here, inside `depth` brackets. Each call gives up
one unit of fuel, and twice the number of characters is enough. -/
def readDocument? : Nat → Nat → List Char → Option (Json × List Char)
  | 0, _, _ => none
  | fuel + 1, depth, chars =>
    match skipBlanks chars with
    | 'n' :: 'u' :: 'l' :: 'l' :: rest => some (.null, rest)
    | 't' :: 'r' :: 'u' :: 'e' :: rest => some (.bool true, rest)
    | 'f' :: 'a' :: 'l' :: 's' :: 'e' :: rest => some (.bool false, rest)
    | '"' :: rest => do
      let (found, rest) ← readText? rest
      return (found.elim .unreadable .text, rest)
    | '[' :: rest =>
      match skipBlanks rest with
      | ']' :: rest => some (atDepth (depth + 1) (.array []), rest)
      | rest => do
        let (items, rest) ← readItems? fuel (depth + 1) rest
        return (atDepth (depth + 1) (.array items), rest)
    | '\x7b' :: rest =>
      match skipBlanks rest with
      | '\x7d' :: rest => some (atDepth (depth + 1) (.object []), rest)
      | rest => do
        let (members, rest) ← readMembers? fuel (depth + 1) rest
        return (atDepth (depth + 1) (ofReadMembers members), rest)
    | rest => do
      let (numeral, rest) ← readNumeral? rest
      return (numeral.document, rest)

/-- The items up to the closing bracket; there is at least one. -/
def readItems? : Nat → Nat → List Char → Option (List Json × List Char)
  | 0, _, _ => none
  | fuel + 1, depth, chars => do
    let (item, rest) ← readDocument? fuel depth chars
    match skipBlanks rest with
    | ']' :: rest => return ([item], rest)
    | ',' :: rest =>
      let (items, rest) ← readItems? fuel depth rest
      return (item :: items, rest)
    | _ => none

/-- The members up to the closing brace; there is at least one. -/
def readMembers? : Nat → Nat → List Char → Option (List (Option String × Json) × List Char)
  | 0, _, _ => none
  | fuel + 1, depth, chars =>
    match skipBlanks chars with
    | '"' :: rest => do
      let (key, rest) ← readText? rest
      match skipBlanks rest with
      | ':' :: rest =>
        let (value, rest) ← readDocument? fuel depth rest
        match skipBlanks rest with
        | '\x7d' :: rest => return ([(key, value)], rest)
        | ',' :: rest =>
          let (members, rest) ← readMembers? fuel depth rest
          return ((key, value) :: members, rest)
        | _ => none
      | _ => none
    | _ => none

end

/-- Reads a text that holds one document and blanks around it. -/
def read? (text : String) : Option Json := do
  let chars := text.toList
  let (document, rest) ← readDocument? (2 * chars.length + 2) 0 chars
  if (skipBlanks rest).isEmpty then some document else none

end Blackboard.Json
