import Routespec.Plan.Basic

/-!
# Wire keys

Within a request, a parameter is known by its location and its wire name.
-/

namespace Routespec

/-- A parameter of a plan, with the name of the argument it feeds. -/
structure Feed where
  argument : String
  param : Parameter
  deriving DecidableEq, Inhabited

namespace Plan

/-- All parameters of the plan, in order. -/
def feeds (plan : Plan) : List Feed :=
  plan.flatMap fun b => b.params.map fun p => ⟨b.argument.name, p.param⟩

/-- Stop at the first parameter whose location and name an earlier one has. -/
def checkKeys (seen : List (Location × String)) : List Feed → Checked Unit
  | [] => .ok ()
  | f :: rest =>
    if (f.param.location, f.param.name) ∈ seen then
      fail (.duplicateParameter f.param.location f.param.name f.argument)
    else checkKeys ((f.param.location, f.param.name) :: seen) rest

/-- Stop unless location and name tell the parameters apart. -/
def checkUnique (plan : Plan) : Checked Unit := checkKeys [] (feeds plan)

end Plan

end Routespec
