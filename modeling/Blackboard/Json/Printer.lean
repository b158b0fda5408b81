import Blackboard.Binary64.Layout
import Blackboard.Json.Basic

/-!
# Compact JSON texts

`Json.render` writes a document on one line without blanks. Texts are quoted
with the short escapes where there is one and `\u00xx` for the other control
characters; everything else, non-ASCII characters included, stands for itself.
-/

namespace Blackboard.Json

/-- Numbers are written with the fewest digits that identify them:
positionally, with at least one fractional digit, from `10 ^ -5` up to
`10 ^ 16`, and otherwise with a signed exponent. What is not finite has no
number and becomes `null`. -/
def numberLayout : Binary64.Layout where
  isPlain exponent := -5 ≤ exponent && exponent < 16
  wholeEnding := ".0"
  tie := .toEven
  nan := "null"
  infinity := "null"

private def hexDigit (n : Nat) : Char := (Nat.digitChar n)

/-- What stands for a character inside a quoted text. -/
def escape (c : Char) : List Char :=
  match c with
  | '"' => ['\\', '"']
  | '\\' => ['\\', '\\']
  | '\x08' => ['\\', 'b']
  | '\x0c' => ['\\', 'f']
  | '\n' => ['\\', 'n']
  | '\r' => ['\\', 'r']
  | '\t' => ['\\', 't']
  | _ =>
    if c.toNat < 0x20 then
      ['\\', 'u', '0', '0', hexDigit (c.toNat / 16), hexDigit (c.toNat % 16)]
    else
      [c]

/-- A text in quotes. -/
def quote (s : String) : String :=
  String.ofList ('"' :: s.toList.flatMap escape ++ ['"'])

/-- A number; an infinity gets no sign because it is not written as a number. -/
def renderNumber (x : Binary64) : String :=
  if x.isFinite then x.render numberLayout else "null"

mutual

/-- The compact text of a document. -/
def render : Json → String
  | .null => "null"
  | .bool b => if b then "true" else "false"
  | .int n => toString n
  | .float x => renderNumber x
  | .text s => quote s
  | .array items => "[" ++ renderItems items ++ "]"
  | .object members => "\x7b" ++ renderMembers members ++ "\x7d"
  | .unreadable => "null"
termination_by structural document => document

def renderItems : List Json → String
  | [] => ""
  | item :: rest => item.render ++ (if rest.isEmpty then "" else ",") ++ renderItems rest
termination_by structural items => items

def renderMembers : List (String × Json) → String
  | [] => ""
  | member :: rest =>
    renderMember member ++ (if rest.isEmpty then "" else ",") ++ renderMembers rest
termination_by structural members => members

def renderMember : String × Json → String
  | (key, value) => quote key ++ ":" ++ value.render
termination_by structural member => member

end

end Blackboard.Json
