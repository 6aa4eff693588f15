import Routespec.Text.Blank

/-!
# Decimal numerals

Digits are ASCII; their value is counted without a bound.
-/

namespace Routespec

namespace Decimal

/-- The value of a digit. -/
def digit (c : Char) : Nat := c.toNat - '0'.toNat

/-- The value of a run of digits behind digits of value `n`. -/
def valueFrom (n : Nat) (digits : Text) : Nat := digits.foldl (fun n c => 10 * n + digit c) n

/-- The value of a run of digits, with leading zeros or not. -/
def value (digits : Text) : Nat := valueFrom 0 digits

/-- The value of a text of one or more digits, behind a plus sign or not. -/
def ofSigned? (t : Text) : Option Nat :=
  let digits := (Text.dropStart? ['+'] t).getD t
  if digits ≠ [] ∧ digits.all Char.isDigit then some (value digits) else none

/-- The digits that continue a numeral without taking its value to `limit`, folded into the value
`n` read so far, and the digits that are left. -/
def absorb (limit n : Nat) : Text → Nat × Text
  | [] => (n, [])
  | c :: rest =>
    if 10 * n + digit c < limit then absorb limit (10 * n + digit c) rest else (n, c :: rest)

end Decimal

end Routespec
