import Routespec.Json.Value
import Routespec.Number.Shortest

/-!
# Writing JSON

Values are written on one line, or laid out with two spaces for each level of nesting. Strings
escape quotes, backslashes and control characters and nothing else.
-/

namespace Routespec

namespace Json

/-- The text of a number. -/
def Number.text : Number → Text
  | .natural n => Nat.toDigits 10 n
  | .negative n => '-' :: Nat.toDigits 10 n
  | .real isNegative x => (if isNegative then ['-'] else []) ++ x.shortest.text

/-- A hexadecimal digit. -/
def hexChar (n : Nat) : Char := Nat.digitChar n

/-- A character as it stands in a string. -/
def escape (c : Char) : Text :=
  match c with
  | '"' => ['\\', '"']
  | '\\' => ['\\', '\\']
  | '\x08' => ['\\', 'b']
  | '\x0c' => ['\\', 'f']
  | '\n' => ['\\', 'n']
  | '\r' => ['\\', 'r']
  | '\t' => ['\\', 't']
  | c =>
    if c.toNat < 0x20 then
      ['\\', 'u', '0', '0', hexChar (c.toNat / 16), hexChar (c.toNat % 16)]
    else [c]

/-- The text of a string, with its quotes. -/
def quote (s : String) : Text := '"' :: s.toList.flatMap escape ++ ['"']

/-- How arrays and objects are laid out. -/
inductive Layout
  /-- On one line. -/
  | line
  /-- One item or member a line, at the given depth. -/
  | block (depth : Nat)

namespace Layout

/-- The layout of what is inside. -/
def inner : Layout → Layout
  | .line => .line
  | .block depth => .block (depth + 1)

/-- What stands between lines. -/
def newline : Layout → Text
  | .line => []
  | .block depth => '\n' :: List.replicate (2 * depth) ' '

/-- What stands between the name and the value of a member. -/
def colon : Layout → Text
  | .line => [':']
  | .block _ => [':', ' ']

end Layout

/-- Parts between two brackets, one a line. -/
def enclose (layout : Layout) (opening closing : Char) (parts : List Text) : Text :=
  match parts with
  | [] => [opening, closing]
  | parts =>
    let lines := parts.map (layout.inner.newline ++ ·)
    opening :: [','].intercalate lines ++ layout.newline ++ [closing]

namespace Value

mutual

/-- The text of a value. -/
def text (layout : Layout) : Value → Text
  | .null | .malformed => ['n', 'u', 'l', 'l']
  | .bool true => ['t', 'r', 'u', 'e']
  | .bool false => ['f', 'a', 'l', 's', 'e']
  | .number n => n.text
  | .string s => quote s
  | .array items => enclose layout '[' ']' (itemTexts layout.inner items)
  | .object members => enclose layout '{' '}' (memberTexts layout.inner members)

/-- The texts of items. -/
def itemTexts (layout : Layout) : List Value → List Text
  | [] => []
  | v :: rest => text layout v :: itemTexts layout rest

/-- The texts of members. -/
def memberTexts (layout : Layout) : List (String × Value) → List Text
  | [] => []
  | m :: rest => (quote m.1 ++ layout.colon ++ text layout m.2) :: memberTexts layout rest

end

/-- The value on one line. -/
def compact (v : Value) : String := String.ofList (v.text .line)

/-- The value laid out, with a line feed at the end. -/
def pretty (v : Value) : String := String.ofList (v.text (.block 0) ++ ['\n'])

end Value

end Json

end Routespec
