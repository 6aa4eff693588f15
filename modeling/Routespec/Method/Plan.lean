import Routespec.Method.Declarations
import Routespec.Plan.Inference
import Routespec.Plan.PathVariable
import Routespec.ResolveOptions

/-!
# The plan of a method

One plan serves all operations of a method. It binds every argument, in order, then the blank
clauses, and feeds every variable of any pattern from the path.
-/

namespace Routespec

namespace Method

/-- What the bindings of the method depend on. -/
def inference (decl : Declarations) (options : ResolveOptions) : Inference :=
  { naming := options.naming, fallback := .body, pathVars := decl.pathVars }

/-- The binding of an argument, with the directive it comes from. -/
def bindArgument (m : Method) (inf : Inference) (decl : Declarations) (arg : Argument) :
    Diagnosed (Option (Declared PlannedBinding)) :=
  match decl.wholeBody?.filter (·.value = arg.name), decl.clause? arg.name with
  | some body, _ =>
    (Checked.at m.name body.raw (inf.wholeBody arg)).map fun b => some ⟨b, body.raw⟩
  | none, some clause =>
    (Checked.at m.name clause.raw (inf.requested arg clause.value.groups)).map fun b =>
      some ⟨b, clause.raw⟩
  | none, none => (Checked.at m.name "" (inf.implied arg)).map (·.map (⟨·, ""⟩))

/-- The binding of a blank clause, with its directive. -/
def bindBlank (m : Method) (inf : Inference) (clause : Declared ArgumentClause) :
    Diagnosed (Declared PlannedBinding) :=
  (Checked.at m.name clause.raw (inf.blank clause.value.groups)).map (⟨·, clause.raw⟩)

/-- The bindings of the method before path variables are looked at. -/
def bindings (m : Method) (inf : Inference) (decl : Declarations) :
    Diagnosed (List (Declared PlannedBinding)) := do
  let fed ← m.args.mapM (m.bindArgument inf decl)
  let blank ← decl.blankClauses.mapM (m.bindBlank inf)
  return fed.filterMap id ++ blank

/-- Every explicit path parameter has to be a variable of some pattern. -/
def checkPathNames (m : Method) (vars : List String) (bindings : List (Declared PlannedBinding)) :
    Diagnosed Unit :=
  let names := bindings.flatMap fun b => b.value.explicitPathNames.map (⟨·, b.raw⟩)
  match names.find? fun (d : Declared String) => d.value ∉ vars with
  | some ⟨name, raw⟩ => Checked.at m.name raw (fail (.foreignPathParameter name))
  | none => .ok ()

/-- The plan with one variable bound, on behalf of the first route that has it. -/
def bindPathVar (m : Method) (decl : Declarations) (options : ResolveOptions) (plan : Plan)
    (var : String) : Diagnosed Plan :=
  let raw := ((decl.routes.find? (var ∈ ·.value.vars)).map (·.raw)).getD ""
  Checked.at m.name raw (plan.bindVariable options.naming var)

/-- The plan of the method. -/
def plan (m : Method) (decl : Declarations) (options : ResolveOptions) : Diagnosed Plan := do
  let bindings ← m.bindings (inference decl options) decl
  m.checkPathNames decl.pathVars bindings
  decl.pathVars.foldlM (m.bindPathVar decl options) (bindings.map (·.value))

end Method

end Routespec
