import Routespec.Naming

/-!
# Options of resolution

What a user may choose about how directives are resolved, and the notices that come of it.
-/

namespace Routespec

/-- What becomes of a method that returns nothing and asks for status 200. -/
inductive VoidSuccess
  /-- It is a fault. -/
  | reject
  /-- It gets status 204, with a notice. -/
  | amend
  deriving DecidableEq, Repr, Inhabited

namespace VoidSuccess

/-- The policy's name in configuration and JSON. -/
def word : VoidSuccess → String
  | .reject => "reject"
  | .amend => "rewrite"

/-- The policy with the given name. -/
def ofWord? (word : String) : Option VoidSuccess :=
  if word = "reject" then some .reject
  else if word = "rewrite" then some .amend
  else none

end VoidSuccess

/-- The options of resolution. -/
structure ResolveOptions where
  naming : Naming := .snakeCase
  voidSuccess : VoidSuccess := .reject
  deriving DecidableEq, Inhabited

/-- An adjustment that was made while resolving a method. -/
structure Notice where
  method : String
  message : String
  deriving DecidableEq, Inhabited

end Routespec
