import Routespec.Number.Binary64

/-!
# JSON values

A JSON value as written: objects keep the order of their members and members of equal name.
-/

namespace Routespec

namespace Json

/-- A number. -/
inductive Number
  /-- A whole number below `2 ^ 64`. -/
  | natural (n : Nat)
  /-- The whole number `-n`, for `n` from 1 to `2 ^ 63`. -/
  | negative (n : Nat)
  /-- Any other number, as the nearest double; zero has a sign too. -/
  | real (isNegative : Bool) (magnitude : Binary64)
  deriving DecidableEq, Repr, Inhabited

/-- A value. -/
inductive Value
  | null
  | bool (b : Bool)
  | number (n : Number)
  | string (s : String)
  | array (items : List Value)
  | object (members : List (String × Value))
  /-- Something of the right form that stands for no value: half of a surrogate pair, a number
  beyond every double, or an array or object nested too deeply. It may only be skipped. -/
  | malformed
  deriving Inhabited

namespace Value

mutual

/-- The value and everything in it stands for a value. -/
def isWellFormed : Value → Bool
  | .malformed => false
  | .array items => areWellFormed items
  | .object members => haveWellFormed members
  | .null | .bool _ | .number _ | .string _ => true

/-- All items stand for values. -/
def areWellFormed : List Value → Bool
  | [] => true
  | v :: rest => v.isWellFormed && areWellFormed rest

/-- The values of all members stand for values. -/
def haveWellFormed : List (String × Value) → Bool
  | [] => true
  | m :: rest => m.2.isWellFormed && haveWellFormed rest

end

/-- Members with the last of each name kept, in order of their names by code point. -/
def sortMembers (members : List (String × Value)) : List (String × Value) :=
  members.foldl insert []
where
  /-- Put a member in its place, over an earlier one of its name. -/
  insert : List (String × Value) → String × Value → List (String × Value)
  | [], m => [m]
  | first :: rest, m =>
    if m.1 < first.1 then m :: first :: rest
    else if m.1 = first.1 then m :: rest
    else first :: insert rest m

mutual

/-- The value with the members of every object sorted, the last of each name kept. -/
def sorted : Value → Value
  | .array items => .array (sortedItems items)
  | .object members => .object (sortMembers (sortedMembers members))
  | v => v

/-- Every item sorted. -/
def sortedItems : List Value → List Value
  | [] => []
  | v :: rest => v.sorted :: sortedItems rest

/-- The value of every member sorted. -/
def sortedMembers : List (String × Value) → List (String × Value)
  | [] => []
  | m :: rest => (m.1, m.2.sorted) :: sortedMembers rest

end

end Value

end Json

end Routespec
