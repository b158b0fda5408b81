import Blackboard.Program
import Blackboard.Wire.Fields

/-!
# Names as documents

The written forms of code hashes, kinds of rules and identifiers of rules. To
the outside a rule is identified by 128 bits, written as 32 hexadecimal digits
in groups of eight, four, four, four and twelve.
-/

namespace Blackboard

namespace CodeHash

def encode (hash : CodeHash) : Json := .text hash.text

def decode? (document : Json) : Option CodeHash := document.text?.map CodeHash.mk

end CodeHash

namespace RuleKind

def encode (kind : RuleKind) : Json := .text kind.name

def ofName? : String → Option RuleKind
  | "each" => some .each
  | "grouped" => some .grouped
  | "capture" => some .capture
  | _ => none

def decode? (document : Json) : Option RuleKind := (document.tagName? .direct).bind ofName?

end RuleKind

/-- The identifier of a rule, as the outside knows it. -/
structure RuleId where
  /-- Its 32 hexadecimal digits, in lower case. -/
  digits : List Char
deriving DecidableEq, Repr

namespace RuleId

/-- The lengths of the groups of digits. -/
def groups : List Nat := [8, 4, 4, 4, 12]

/-- Writes digits in groups of these lengths, with hyphens between them. -/
def hyphenate : List Nat → List Char → List Char
  | [], _ => []
  | [length], digits => digits.take length
  | length :: rest, digits => digits.take length ++ '-' :: hyphenate rest (digits.drop length)

/-- The digits of groups of these lengths with hyphens between them. -/
def unhyphenate? : List Nat → List Char → Option (List Char)
  | [], [] => some []
  | [], _ => none
  | [length], digits => if digits.length = length then some digits else none
  | length :: rest, digits =>
    match digits.drop length with
    | '-' :: following =>
      (unhyphenate? rest following).map fun others => digits.take length ++ others
    | _ => none

def isHexDigit (c : Char) : Bool :=
  c.isDigit || ('a' ≤ c && c ≤ 'f') || ('A' ≤ c && c ≤ 'F')

/-- Takes the digits out of a written identifier: as they are, in groups, in
groups in braces, or in groups behind `urn:uuid:` in any case. -/
def digits? (written : List Char) : Option (List Char) :=
  if written.length = 32 then
    some written
  else
    match written with
    | '\x7b' :: rest =>
      if rest.getLast? = some '\x7d' then unhyphenate? groups rest.dropLast else none
    | _ =>
      let urn := "urn:uuid:".toList
      let start := (written.take urn.length).map Char.toLower
      unhyphenate? groups (if start = urn then written.drop urn.length else written)

def ofText? (written : String) : Option RuleId :=
  (digits? written.toList).bind fun digits =>
    if digits.all isHexDigit then some ⟨digits.map Char.toLower⟩ else none

def encode (id : RuleId) : Json := .text (String.ofList (hyphenate groups id.digits))

def decode? (document : Json) : Option RuleId := document.text?.bind ofText?

end RuleId

end Blackboard
