import Routespec.Json.Record
import Routespec.ResolveOptions

/-!
# Options and notices in JSON

Options that are left out have their defaults.
-/

namespace Routespec

open Json (Value filledOr)

namespace ResolveOptions

/-- The JSON form of options. -/
def toJson (o : ResolveOptions) : Value :=
  .object [
    ("naming", .string o.naming.word),
    ("void_success", .string o.voidSuccess.word)]

/-- The options that are written. -/
def ofJson? (v : Value) : Option ResolveOptions := do
  let [naming, voidSuccess] ← v.record? ["naming", "void_success"] | none
  let naming ← filledOr .snakeCase (Value.word? Naming.ofWord?) naming
  let voidSuccess ← filledOr .reject (Value.word? VoidSuccess.ofWord?) voidSuccess
  return { naming, voidSuccess }

end ResolveOptions

/-- The JSON form of a notice. -/
def Notice.toJson (n : Notice) : Value :=
  .object [("method", .string n.method), ("message", .string n.message)]

end Routespec
