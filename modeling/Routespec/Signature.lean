import Routespec.Shape

/-!
# Service signatures

What is known of an annotated service before its comments are read: the interface, its methods
with their arguments and return values, and the comment lines of each, all in source order.
-/

namespace Routespec

/-- An argument of a method. -/
structure Argument where
  name : String
  /-- The declared type, as text. -/
  ty : String
  shape : Shape
  deriving DecidableEq, Inhabited

/-- A return value of a method. -/
structure ReturnValue where
  name : String
  /-- The declared type, as text. -/
  ty : String
  shape : Shape
  deriving DecidableEq, Inhabited

/-- A method of an interface. -/
structure Method where
  name : String
  args : List Argument
  returns : List ReturnValue
  /-- The comment lines of the method. -/
  doc : List String
  deriving DecidableEq, Inhabited

namespace Method

/-- The first argument of the given name. -/
def arg? (m : Method) (name : String) : Option Argument := m.args.find? (·.name = name)

/-- The return values that are not errors. -/
def results (m : Method) : List ReturnValue := m.returns.filter (!·.shape.isError)

/-- A method that returns nothing but errors. -/
def isVoid (m : Method) : Bool := m.results.isEmpty

end Method

/-- An annotated service. -/
structure Interface where
  name : String
  /-- The comment lines of the interface itself. -/
  doc : List String
  methods : List Method
  deriving DecidableEq, Inhabited

end Routespec
