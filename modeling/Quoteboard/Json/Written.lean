import Quoteboard.Json.Value

/-!
# Writing a value

The text of a value, without blanks: the members of an object in their order, integers in decimal
digits, doubles in the fewest digits that read back. A double that no number literal denotes is
written as `null`. In a string the quote, the backslash and the control characters are escaped.
-/

namespace Quoteboard.Json

/-- The lower-case hexadecimal digit of a number below sixteen. -/
def hexDigitOf (n : Nat) : Char :=
  Nat.digitChar n

/-- One character inside a written string. -/
def writeChar (c : Char) : List Char :=
  match c with
  | '"' => ['\\', '"']
  | '\\' => ['\\', '\\']
  | '\x08' => ['\\', 'b']
  | '\x0c' => ['\\', 'f']
  | '\n' => ['\\', 'n']
  | '\r' => ['\\', 'r']
  | '\t' => ['\\', 't']
  | _ =>
    if c < ' ' then ['\\', 'u', '0', '0', hexDigitOf (c.toNat / 16), hexDigitOf (c.toNat % 16)]
    else [c]

/-- A written string, the quotes included. -/
def writeText (s : String) : List Char :=
  '"' :: s.toList.flatMap writeChar ++ ['"']

/-- A written integer. -/
def writeInteger (n : Int) : List Char :=
  (toString n).toList

/-- A written double. -/
def writeReal (x : Float) : List Char :=
  if x.isFinite then (messageStyle.text x).toList else ['n', 'u', 'l', 'l']

mutual

/-- The characters of a written value. -/
def Value.write : Value → List Char
  | .null => ['n', 'u', 'l', 'l']
  | .bool true => ['t', 'r', 'u', 'e']
  | .bool false => ['f', 'a', 'l', 's', 'e']
  | .integer n => writeInteger n
  | .real x => writeReal x
  | .text s => writeText s
  | .array [] => ['[', ']']
  | .array (v :: vs) => '[' :: v.write ++ writeItems vs
  | .object [] => ['\x7b', '\x7d']
  | .object ((k, v) :: ms) => '\x7b' :: writeText k ++ ':' :: v.write ++ writeMembers ms

/-- The items of an array behind the first, and its end. -/
def writeItems : List Value → List Char
  | [] => [']']
  | v :: vs => ',' :: v.write ++ writeItems vs

/-- The members of an object behind the first, and its end. -/
def writeMembers : List (String × Value) → List Char
  | [] => ['\x7d']
  | (k, v) :: ms => ',' :: writeText k ++ ':' :: v.write ++ writeMembers ms

end

/-- The text of a value. -/
def Value.toText (v : Value) : String :=
  String.ofList v.write

end Quoteboard.Json
