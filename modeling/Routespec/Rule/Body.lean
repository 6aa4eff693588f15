import Routespec.Rule.Clause

/-!
# Body rules

The arguments of a `body` directive: a hyphen for no body, the name of the argument that is the
whole body, or manipulations of members of the body.
-/

namespace Routespec

/-- Options laid over the body parameter of an argument. -/
structure BodyOverlay where
  argument : String
  options : ParamOptions
  deriving DecidableEq, Inhabited

/-- Read one manipulation. It has to set something other than the location. -/
def BodyOverlay.read (clause : Text) : Checked BodyOverlay := do
  let (argument, rest) ← splitClause clause
  let options ← Checked.within (.bodyField argument) (ParamOptions.read rest)
  if options.location.isSome then fail (.locatedManipulation argument)
  else if options.isEmpty then fail (.emptyManipulation argument)
  else return ⟨argument, options⟩

/-- What a `body` directive asks for. -/
inductive BodyRule
  /-- No body. -/
  | absent
  /-- The named argument as the whole body. -/
  | whole (argument : String)
  /-- A synthesized body with some members changed. -/
  | overlaid (overlays : List BodyOverlay)
  deriving DecidableEq, Inhabited

/-- Read the arguments of a `body` directive. -/
def BodyRule.read (args : String) : Checked BodyRule :=
  let t := Text.trim args.toList
  if t = ['-'] then .ok .absent
  else if t = [] then fail .bodyWithoutArgument
  else if t.isIdentifier then .ok (.whole (String.ofList t))
  else ((t.splitUnquoted ';').mapM BodyOverlay.read).map .overlaid

end Routespec
