import Routespec.Method.Plan
import Routespec.Method.Response
import Routespec.Plan.Body
import Routespec.Plan.Uniqueness

/-!
# Resolution of a method

A method with HTTP directives becomes one operation per route. All of them share the plan, the
response, the tags and the description of the method; each keeps the path parameters of its own
pattern and forms its body as its HTTP method allows.
-/

namespace Routespec

/-- What a method resolves to. -/
structure MethodResolution where
  operations : List Operation
  notices : List Notice
  deriving DecidableEq, Inhabited

namespace Method

/-- How the body of requests on a route is formed. -/
def requestBody (decl : Declarations) (route : Route) : RequestBody :=
  match decl.body with
  | some ⟨.absent, _⟩ => .none
  | some ⟨.whole argument, _⟩ => .field argument
  | some ⟨.overlaid _, _⟩ | none => if route.method.carriesBody then .synthesized else .none

/-- The plan with the manipulations of the method, which need a synthesized body. -/
def overlaid (m : Method) (decl : Declarations) (route : Route) (plan : Plan) : Diagnosed Plan :=
  match decl.body with
  | some ⟨.overlaid overlays, raw⟩ =>
    Checked.at m.name raw <|
      if requestBody decl route = .synthesized then plan.overlayAll overlays
      else fail (.nothingToManipulate route.method route.pattern)
  | _ => .ok plan

/-- What requests on a route hold. -/
def request (m : Method) (decl : Declarations) (plan : Plan) (route : Declared Route) :
    Diagnosed Request := do
  let body := requestBody decl route.value
  let plan ← if body = .synthesized then pure plan else Checked.at m.name route.raw plan.toQuery
  let plan ← m.overlaid decl route.value (plan.onPattern route.value.vars)
  Checked.at m.name route.raw plan.checkUnique
  return { mediaType := jsonMediaType, body, bindings := plan.map (·.settle) }

/-- The name of the operation at an index: that of the method, numbered if there are several. -/
def operationName (m : Method) (count index : Nat) : String :=
  if count > 1 then m.name ++ toString (index + 1) else m.name

/-- The operation of the route at an index. -/
def operation (m : Method) (decl : Declarations) (plan : Plan) (success : Response)
    (description : String) (route : Declared Route × Nat) : Diagnosed Operation :=
  (m.request decl plan route.1).map fun request =>
    { name := m.operationName decl.routes.length route.2
      methodName := m.name
      httpMethod := route.1.value.method
      pattern := route.1.value.pattern
      request, success
      tags := decl.tags
      description }

/-- The HTTP directives of a comment with their aliases expanded. -/
def expandDirectives (m : Method) (aliases : AliasTable) (block : CommentBlock) :
    Diagnosed (List Directive) :=
  (block.directives.filter (·.keyword.isHttp)).mapM fun d =>
    (Checked.at m.name d.raw (aliases.expand d.args)).map fun args => { d with args }

/-- The operations that the HTTP directives of a comment make of the method. -/
def resolveDirectives (m : Method) (options : ResolveOptions) (description : String)
    (directives : List Directive) : Diagnosed MethodResolution := do
  let decl ← Declarations.read m directives
  decl.checkWholeBody m
  let plan ← m.plan decl options
  let (success, notices) ← m.response decl options
  let operations ← decl.routes.zipIdx.mapM (m.operation decl plan success description)
  return { operations, notices }

/-- Resolve a method. A method without HTTP directives resolves to nothing. -/
def resolve (m : Method) (aliases : AliasTable) (options : ResolveOptions) :
    Diagnosed MethodResolution := do
  let block ← CommentBlock.read m.name m.doc
  if !block.hasHttp then return ⟨[], []⟩
  match (block.of .alias).head? with
  | some d => Checked.at m.name d.raw (fail .misplacedAlias)
  | none => pure ()
  let directives ← m.expandDirectives aliases block
  m.resolveDirectives options block.description directives

end Method

end Routespec
