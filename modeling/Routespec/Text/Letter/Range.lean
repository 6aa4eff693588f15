/-!
# Ranges of characters

Tables of character properties are lists of ranges, each with a step, so that alternating runs
take one entry.
-/

namespace Routespec

/-- The code points `first`, `first + step`, … up to `last`. -/
structure CharRange where
  first : Nat
  last : Nat
  step : Nat

namespace CharRange

/-- A code point of the range. -/
def holds (r : CharRange) (n : Nat) : Bool :=
  r.first ≤ n && n ≤ r.last && (n - r.first) % r.step == 0

/-- A character that some range of the table holds. -/
def covers (ranges : List CharRange) (c : Char) : Bool :=
  ranges.any fun r => r.holds c.toNat

end CharRange

/-- A range whose characters all change by the same distance. -/
structure CaseShift where
  range : CharRange
  distance : Int

/-- The image of a character: an expansion if one is listed, else its shift, else itself. -/
def caseForm (expansions : List (Nat × List Nat)) (shifts : List CaseShift) (c : Char) :
    List Char :=
  match expansions.lookup c.toNat with
  | some codes => codes.map Char.ofNat
  | none =>
    match shifts.find? fun s => s.range.holds c.toNat with
    | some s => [Char.ofNat ((c.toNat : Int) + s.distance).toNat]
    | none => [c]

end Routespec
