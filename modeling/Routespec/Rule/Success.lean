import Routespec.Number.Decimal
import Routespec.Options.Pair

/-!
# Success rules

The arguments of a `success` directive: the status of a successful response and the return value
that is its body.
-/

namespace Routespec

/-- What a `success` directive asks for. -/
structure SuccessRule where
  statusCode : Option UInt16 := none
  body : Option String := none
  deriving DecidableEq, Inhabited

/-- The status that a numeral from 100 to 599 stands for. -/
def readStatus (value : String) : Checked UInt16 :=
  match Decimal.ofSigned? value.toList with
  | some n => if 100 ≤ n ∧ n ≤ 599 then .ok n.toUInt16 else fail (.invalidStatusCode value)
  | none => fail (.invalidStatusCode value)

namespace SuccessRule

/-- The options a `success` directive understands. -/
def keys : List (OptionKey SuccessRule) := [
  ⟨"statusCode", fun value r => (readStatus value).map fun n => { r with statusCode := some n }⟩,
  ⟨"body", fun value r =>
    if isIdentifier value then .ok { r with body := some value }
    else fail (.invalidSuccessBody value)⟩]

/-- Read the arguments of a `success` directive. -/
def read (args : String) : Checked SuccessRule :=
  (OptionPair.readAll args.toList).bind (OptionKey.fill keys [] {})

end SuccessRule

end Routespec
