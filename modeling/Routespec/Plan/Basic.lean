import Routespec.Fault
import Routespec.Specification

/-!
# Request plans

The bindings of a method before they are settled: each parameter still knows whether its location
was asked for and what shape of value it carries.
-/

namespace Routespec

namespace Shape

/-- Values of the shape can travel at the location. -/
def fits : Shape → Location → Bool
  | .context, _ | .error, _ => false
  | _, .body => true
  | .scalar, _ => true
  | .scalarSeq, location => location ≠ .path
  | .composite _, _ | .sequence, _ | .map, _ => false

/-- Stop unless values of the shape can travel at the location. -/
def checkFits (shape : Shape) (location : Location) : Checked Unit :=
  if shape.fits location then .ok () else fail (.unsupportedLocation shape.describe location)

end Shape

/-- A parameter of a plan. -/
structure PlannedParam where
  param : Parameter
  /-- The location was asked for by a directive or by metadata. -/
  explicit : Bool
  /-- The shape of the value that the parameter carries. -/
  shape : Shape
  deriving DecidableEq, Inhabited

namespace PlannedParam

/-- The parameter is explicitly read from the path. -/
def isExplicitPath (p : PlannedParam) : Bool := p.explicit && p.param.location = .path

end PlannedParam

/-- A binding of a plan. -/
structure PlannedBinding where
  argument : Argument
  params : List PlannedParam
  manual : Bool
  blank : Bool
  deriving DecidableEq, Inhabited

namespace PlannedBinding

/-- The settled binding. -/
def settle (b : PlannedBinding) : Binding :=
  { argument := b.argument, params := b.params.map (·.param), manual := b.manual
    blank := b.blank }

/-- The names under which the binding is explicitly read from the path. -/
def explicitPathNames (b : PlannedBinding) : List String :=
  (b.params.filter (·.isExplicitPath)).map (·.param.name)

/-- The first location other than the path that the binding is explicitly tied to. -/
def explicitElsewhere? (b : PlannedBinding) : Option Location :=
  (b.params.find? fun p => p.explicit && p.param.location ≠ .path).map (·.param.location)

/-- The binding feeds the argument of the given name. -/
def feeds (b : PlannedBinding) (name : String) : Bool := !b.blank && b.argument.name = name

end PlannedBinding

/-- The bindings of a method, in order. -/
abbrev Plan := List PlannedBinding

end Routespec
