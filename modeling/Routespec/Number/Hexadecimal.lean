import Routespec.Text.Blank

/-!
# Hexadecimal numerals

Digits above nine are ASCII letters of either case.
-/

namespace Routespec

namespace Hexadecimal

/-- The value of a digit. -/
def digit? (c : Char) : Option Nat :=
  if c.isDigit then some (c.toNat - '0'.toNat)
  else if 'a' ≤ c ∧ c ≤ 'f' then some (c.toNat - 'a'.toNat + 10)
  else if 'A' ≤ c ∧ c ≤ 'F' then some (c.toNat - 'A'.toNat + 10)
  else none

/-- The value of a run of digits. -/
def value? (digits : Text) : Option Nat :=
  digits.foldlM (fun n c => (digit? c).map (16 * n + ·)) 0

end Hexadecimal

end Routespec
