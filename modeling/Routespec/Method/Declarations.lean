import Routespec.Alias
import Routespec.Comment.Block
import Routespec.Rule.Body
import Routespec.Rule.Document
import Routespec.Rule.Route
import Routespec.Rule.Success
import Routespec.Signature

/-!
# Declarations of a method

What the HTTP directives of a method declare, read and checked against its signature: routes,
which may not repeat each other; at most one body rule, one success rule and one list of tags; and
argument clauses, at most one for each argument.
-/

namespace Routespec

/-- A value and the directive that declared it. -/
structure Declared (α : Type) where
  value : α
  raw : String
  deriving DecidableEq

/-- What the directives of a method declare. -/
structure Declarations where
  routes : List (Declared Route)
  body : Option (Declared BodyRule)
  success : Option (Declared SuccessRule)
  tags : List String
  clauses : List (Declared ArgumentClause)
  deriving DecidableEq

namespace Declarations

/-- The routes of `op` directives, none of which may repeat one of `earlier`. -/
def readRoutes (owner : String) (earlier : List (HttpMethod × String)) :
    List Directive → Diagnosed (List (Declared Route))
  | [] => .ok []
  | d :: rest => do
    let route ← Checked.at owner d.raw (Route.read d.args)
    if (route.method, route.pattern) ∈ earlier then
      Checked.at owner d.raw (fail (.duplicateOperation route.method route.pattern))
    else
      let routes ← readRoutes owner ((route.method, route.pattern) :: earlier) rest
      return ⟨route, d.raw⟩ :: routes

/-- The routes of a method, of which there has to be one. -/
def routesOf (owner : String) (directives : List Directive) :
    Diagnosed (List (Declared Route)) := do
  let routes ← readRoutes owner [] directives
  if routes = [] then Checked.at owner "" (fail (.noOperation directiveMark))
  else return routes

/-- The value of a directive that may be given once. -/
def atMostOne {α : Type} (owner : String) (read : String → Checked α) :
    List Directive → Diagnosed (Option (Declared α))
  | [] => .ok none
  | d :: rest => do
    let value ← Checked.at owner d.raw (read d.args)
    match rest with
    | [] => return some ⟨value, d.raw⟩
    | again :: _ =>
      Checked.at owner again.raw (fail (.duplicateDirective again.keyword.word))

/-- The tags of a method, whose `oas` directive may hold nothing else. -/
def tagsOf (owner : String) (directives : List Directive) : Diagnosed (List String) := do
  match ← atMostOne owner DocumentRule.read directives with
  | none => return []
  | some rule =>
    match rule.value.interfaceOnly? with
    | some key => Checked.at owner rule.raw (fail (.interfaceOnlyOption key))
    | none => return rule.value.tags.getD []

/-- The arguments claimed after some more clauses. Every clause but a blank one claims an argument
of the method, which no other clause may claim. -/
def claim (m : Method) (claimed : List String) : List ArgumentClause → Checked (List String)
  | [] => .ok claimed
  | clause :: rest =>
    if clause.argument = blankName then claim m claimed rest
    else if (m.arg? clause.argument).isNone then fail (.unknownArgument clause.argument)
    else if clause.argument ∈ claimed then fail (.repeatedArgument clause.argument)
    else claim m (clause.argument :: claimed) rest

/-- The clauses of `param` directives. -/
def readClauses (m : Method) (claimed : List String) :
    List Directive → Diagnosed (List (Declared ArgumentClause))
  | [] => .ok []
  | d :: rest => do
    let clauses ← Checked.at m.name d.raw (ArgumentClause.readAll d.args)
    let claimed ← Checked.at m.name d.raw (claim m claimed clauses)
    let more ← readClauses m claimed rest
    return clauses.map (⟨·, d.raw⟩) ++ more

/-- The directives of one kind. -/
def select (keyword : Keyword) (directives : List Directive) : List Directive :=
  directives.filter (·.keyword = keyword)

/-- Read the HTTP directives of a method, aliases already expanded. -/
def read (m : Method) (directives : List Directive) : Diagnosed Declarations := do
  let routes ← routesOf m.name (select .op directives)
  let body ← atMostOne m.name BodyRule.read (select .body directives)
  let success ← atMostOne m.name SuccessRule.read (select .success directives)
  let tags ← tagsOf m.name (select .oas directives)
  let clauses ← readClauses m [] (select .param directives)
  return { routes, body, success, tags, clauses }

/-- The variables of all patterns, each once, in order. -/
def pathVars (decl : Declarations) : List String :=
  (decl.routes.flatMap (·.value.vars)).eraseDups

/-- The argument that is the whole body. -/
def wholeBody? (decl : Declarations) : Option (Declared String) :=
  match decl.body with
  | some ⟨.whole argument, raw⟩ => some ⟨argument, raw⟩
  | _ => none

/-- The clause of an argument. -/
def clause? (decl : Declarations) (argument : String) : Option (Declared ArgumentClause) :=
  decl.clauses.find? fun c => c.value.argument ≠ blankName ∧ c.value.argument = argument

/-- The clauses that feed no argument. -/
def blankClauses (decl : Declarations) : List (Declared ArgumentClause) :=
  decl.clauses.filter (·.value.argument = blankName)

/-- A whole body has to be an argument without a clause, and every route has to carry it. -/
def checkWholeBody (m : Method) (decl : Declarations) : Diagnosed Unit :=
  match decl.wholeBody? with
  | none => .ok ()
  | some ⟨argument, raw⟩ =>
    Checked.at m.name raw <|
      if (m.arg? argument).isNone then fail (.unknownBodyArgument argument)
      else if decl.clauses.any (·.value.argument = argument) then
        fail (.bodyArgumentBound argument)
      else
        match decl.routes.find? (!·.value.method.carriesBody) with
        | some route => fail (.bodyNotCarried route.value.method route.value.pattern)
        | none => .ok ()

end Declarations

end Routespec
