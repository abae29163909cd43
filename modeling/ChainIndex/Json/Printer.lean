import ChainIndex.Json
import ChainIndex.Number.Shortest
import ChainIndex.Text.Hex

/-!
# Writing JSON text

The compact form: no blanks, members in their order, text outside ASCII as it is. Quotes,
backslashes and control characters are escaped, by a letter where there is one.
-/

namespace ChainIndex.Json

/-- A character inside quotes. -/
def escapeChar (c : Char) : List Char :=
  match c with
  | '"' => ['\\', '"']
  | '\\' => ['\\', '\\']
  | '\n' => ['\\', 'n']
  | '\r' => ['\\', 'r']
  | '\t' => ['\\', 't']
  | c =>
    if c.toNat = 8 then ['\\', 'b']
    else if c.toNat = 12 then ['\\', 'f']
    else if c.toNat < 0x20 then
      ['\\', 'u', '0', '0', Hex.digit (c.toNat / 16), Hex.digit c.toNat]
    else [c]

/-- Text in quotes. -/
def quote (s : String) : List Char :=
  '"' :: s.toList.flatMap escapeChar ++ ['"']

mutual

/-- The compact text of a value; a foreign value has none and shows as `null`. -/
def renderChars : Json → List Char
  | .null => "null".toList
  | .bool true => "true".toList
  | .bool false => "false".toList
  | .int n => (Digits.ofInt n).toList
  | .float x => (if x.isInfinite then "null" else (Decimal.shortest x).text).toList
  | .string s => quote s
  | .array [] => ['[', ']']
  | .array (v :: vs) => '[' :: renderChars v ++ renderElements vs
  | .object [] => ['\x7b', '\x7d']
  | .object ((name, v) :: ms) => '\x7b' :: quote name ++ ':' :: renderChars v ++ renderMembers ms
  | .foreign => "null".toList

/-- The text of further elements and the end of the array. -/
def renderElements : List Json → List Char
  | [] => [']']
  | v :: vs => ',' :: renderChars v ++ renderElements vs

/-- The text of further members and the end of the object. -/
def renderMembers : List (String × Json) → List Char
  | [] => ['\x7d']
  | (name, v) :: ms => ',' :: quote name ++ ':' :: renderChars v ++ renderMembers ms

end

/-- The compact text of a value. -/
def render (v : Json) : String :=
  String.ofList (renderChars v)

end ChainIndex.Json
