import Routespec.PathPattern

/-!
# Routes

The arguments of an `op` directive: an HTTP method and a URL pattern.
-/

namespace Routespec

/-- An HTTP method and a URL pattern. -/
structure Route where
  method : HttpMethod
  pattern : String
  /-- The variables of the pattern, in order. -/
  vars : List String
  deriving DecidableEq, Inhabited

/-- Read the arguments of an `op` directive. -/
def Route.read (args : String) : Checked Route :=
  match Text.words args.toList with
  | [method, pattern] =>
    match HttpMethod.ofToken? (String.ofList method) with
    | some m =>
      (PathPattern.vars (String.ofList pattern)).map fun vars => ⟨m, String.ofList pattern, vars⟩
    | none => fail (.unknownHttpMethod (String.ofList method))
  | _ => fail (.malformedOperation args)

end Routespec
