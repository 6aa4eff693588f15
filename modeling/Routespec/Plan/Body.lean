import Routespec.Plan.Basic
import Routespec.Rule.Body

/-!
# The body of a plan

Plans are made as if every request had a synthesized body. Without one, parameters that were not
asked to be in the body move to the query string; with one, manipulations may change members of it.
-/

namespace Routespec

namespace PlannedParam

/-- The parameter with its place in the body, unless asked for, given up for the query string. -/
def toQuery (argument : String) (p : PlannedParam) : Checked PlannedParam :=
  if p.explicit ∨ p.param.location ≠ .body then .ok p
  else
    (Checked.within (.bodyExit argument) (p.shape.checkFits .query)).map fun _ =>
      { p with param := { p.param with location := .query } }

/-- The parameter with the options that are given taken over. -/
def overlay (o : ParamOptions) (p : PlannedParam) : PlannedParam :=
  { p with
    param := { p.param with
      name := o.name.getD p.param.name
      ty := o.ty.getD p.param.ty
      description := o.description.getD p.param.description
      required := o.required.getD p.param.required } }

/-- The parameter is in the body. -/
def inBody (p : PlannedParam) : Bool := p.param.location = .body

end PlannedParam

namespace PlannedBinding

/-- The binding without inferred parameters in the body. -/
def toQuery (b : PlannedBinding) : Checked PlannedBinding :=
  (b.params.mapM (PlannedParam.toQuery b.argument.name)).map fun params => { b with params }

/-- The binding with options laid over its parameter in the body, of which there has to be one. -/
def overlay (o : ParamOptions) (b : PlannedBinding) : Checked PlannedBinding :=
  match b.params.countP (·.inBody) with
  | 0 => fail (.manipulatedElsewhere b.argument.name)
  | 1 =>
    .ok { b with params := b.params.map fun p => if p.inBody then p.overlay o else p }
  | n => fail (.ambiguousManipulation b.argument.name n)

end PlannedBinding

namespace Plan

/-- The plan of an operation without a synthesized body. -/
def toQuery (plan : Plan) : Checked Plan := plan.mapM (·.toQuery)

/-- The plan with one manipulation applied to the binding of its argument. -/
def overlay : BodyOverlay → Plan → Checked Plan
  | m, [] => fail (.unknownArgument m.argument)
  | m, b :: rest =>
    if b.feeds m.argument then (b.overlay m.options).map (· :: rest)
    else (overlay m rest).map (b :: ·)

/-- The plan with manipulations applied in order. -/
def overlayAll (ms : List BodyOverlay) (plan : Plan) : Checked Plan :=
  ms.foldlM (fun plan m => overlay m plan) plan

end Plan

end Routespec
