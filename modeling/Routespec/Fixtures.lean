import Routespec.Failure
import Routespec.Json.Reader
import Routespec.Json.Record
import Routespec.Specification

/-!
# Test fixtures

Test cases by operation name. The cases are data of the service's tests and only passed on.
-/

namespace Routespec

/-- Lists of test cases, in order of the names they are under. -/
abbrev Fixtures := List (String × List Json.Value)

namespace Fixtures

/-- The JSON form of fixtures. -/
def toJson (f : Fixtures) : Json.Value := .object (f.map fun entry => (entry.1, .array entry.2))

/-- The fixtures that are written. Every member is a list, even one that a later member of its
name takes the place of. -/
def ofJson? (v : Json.Value) : Option Fixtures := do
  guard v.isWellFormed
  let .object members := v | none
  guard (members.all fun m => (m.2.list? some).isSome)
  (Json.Value.sortMembers members).mapM fun (name, v) => do
    let cases ← v.sorted.list? some
    return (name, cases)

/-- The fixtures at a path, if there is a file. -/
def load {m : Type → Type} [Monad m] [Host m] (path : String) : Attempt m (Option Fixtures) := do
  if ← Attempt.isPresent path then
    let text ← Attempt.orFail .access (Host.readFile path)
    some <$> Attempt.ofOption (.malformedFixtures path) ((Json.read? text).bind ofJson?)
  else
    Attempt.log .warn s!"fixture file {path} not found, skipping fixtures"
    return none

/-- The names that no operation of a specification has. -/
def unknownNames (f : Fixtures) (spec : Specification) : List String :=
  (f.map (·.1)).filter fun name => (spec.operation? name).isNone

/-- Accept fixtures only if all their names are those of operations. -/
def check (f : Fixtures) (spec : Specification) : Except Failure Unit :=
  match f.unknownNames spec with
  | [] => .ok ()
  | names => .error (.unknownOperations names)

end Fixtures

end Routespec
