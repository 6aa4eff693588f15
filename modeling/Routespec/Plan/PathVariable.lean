import Routespec.Naming
import Routespec.Plan.Basic

/-!
# Path variables

A variable of a pattern that no parameter is explicitly read from is fed to the argument of its
name, or else to the field whose parameter has that wire name. An operation keeps only the path
parameters of its own pattern.
-/

namespace Routespec

/-- A list with the first element that `p` accepts changed by `f`. -/
def updateFirst {α : Type} (p : α → Bool) (f : α → Checked α) : List α → Checked (List α)
  | [] => .ok []
  | x :: rest =>
    if p x then (f x).map (· :: rest) else (updateFirst p f rest).map (x :: ·)

namespace PlannedBinding

/-- The argument's own name or wire name is the variable. -/
def isNamed (naming : Naming) (var : String) (b : PlannedBinding) : Bool :=
  !b.blank && (b.argument.name = var || naming.apply b.argument.name = var)

/-- A parameter that feeds a field under the wire name of the variable. -/
def feedsField (var : String) (p : PlannedParam) : Bool :=
  p.param.field.isSome && p.param.name = var

/-- Some parameter feeds a field under the wire name of the variable. -/
def hasField (var : String) (b : PlannedBinding) : Bool := !b.blank && b.params.any (feedsField var)

/-- The argument read from the path instead of wherever it was read from. -/
def readFromPath (var : String) (b : PlannedBinding) : Checked PlannedBinding :=
  match b.explicitElsewhere? with
  | some location => fail (.argumentLocated var b.argument.name location)
  | none => do
    Checked.within (.pathParameter var) (b.argument.shape.checkFits .path)
    let param := Parameter.plain .path var b.argument.ty
    let description := (b.params.head?.map (·.param.description)).getD ""
    return { b with params := [⟨{ param with description }, false, b.argument.shape⟩] }

/-- The parameter of a field moved to the path. -/
def fieldFromPath (var argument : String) (p : PlannedParam) : Checked PlannedParam :=
  if p.explicit then
    fail (.fieldLocated var (p.param.field.getD "") argument p.param.location)
  else do
    Checked.within (.pathParameter var) (p.shape.checkFits .path)
    return { p with param := { p.param with location := .path, required := true } }

/-- The binding with its first parameter for the variable moved to the path. -/
def readFieldFromPath (var : String) (b : PlannedBinding) : Checked PlannedBinding :=
  (updateFirst (feedsField var) (fieldFromPath var b.argument.name) b.params).map
    fun params => { b with params }

/-- The binding without the path parameters of other patterns, none if that leaves it empty. -/
def onPattern? (vars : List String) (b : PlannedBinding) : Option PlannedBinding :=
  let params := b.params.filter fun p => p.param.location ≠ .path || p.param.name ∈ vars
  if b.params ≠ [] ∧ params = [] then none else some { b with params }

end PlannedBinding

namespace Plan

/-- The names under which something is explicitly read from the path. -/
def explicitPathNames (plan : Plan) : List String := plan.flatMap (·.explicitPathNames)

/-- The plan with a variable of some pattern bound. -/
def bindVariable (naming : Naming) (var : String) (plan : Plan) : Checked Plan :=
  if var ∈ explicitPathNames plan then .ok plan
  else if plan.any (·.isNamed naming var) then
    updateFirst (·.isNamed naming var) (·.readFromPath var) plan
  else if plan.any (·.hasField var) then
    updateFirst (·.hasField var) (·.readFieldFromPath var) plan
  else fail (.unboundPathVariable var)

/-- The plan of an operation whose pattern has the given variables. -/
def onPattern (vars : List String) (plan : Plan) : Plan := plan.filterMap (·.onPattern? vars)

end Plan

end Routespec
