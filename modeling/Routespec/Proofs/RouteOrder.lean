import Routespec.Proofs.CommentOrder
import Routespec.Proofs.OperationNames
import Routespec.Proofs.PathOutcome

/-!
# The order of operations in a comment

A method whose `op` lines change places declares the same routes in another order, and nothing else
changes: each argument is bound as before. What depends on the order are the claims of path
variables. Where no argument is contested they do not, and each line makes the same operation as
before but for its number.

Contested arguments do depend on the order. Of two variables that claim one argument the later one
keeps it. An explicit path parameter counts as read only until a variable claims its argument, and a
pattern that follows may then lack it.
-/

namespace Routespec

section Lists

variable {α : Type} [DecidableEq α]

theorem nodup_eraseDups (xs : List α) : xs.eraseDups.Nodup := by
  cases xs with
  | nil => simp
  | cons x rest =>
    rw [List.eraseDups_cons, List.nodup_cons, List.mem_eraseDups]
    exact ⟨by simp, nodup_eraseDups _⟩
termination_by xs.length
decreasing_by
  have hle := List.length_filter_le (fun y => !y == x) rest
  simp only [List.length_cons]
  omega

theorem eraseDups_perm {xs ys : List α} (h : ∀ x, x ∈ xs ↔ x ∈ ys) :
    xs.eraseDups.Perm ys.eraseDups := by
  rw [List.perm_ext_iff_of_nodup (nodup_eraseDups xs) (nodup_eraseDups ys)]
  simpa using h

end Lists

namespace Declarations

variable {owner : String} {ds ds' : List Directive}
  {routes : List (Declared Route)} {m : Method} {decl : Declarations}

theorem routesOf_perm (hperm : ds.Perm ds') (h : routesOf owner ds = .ok routes) :
    ∃ routes', routes.Perm routes' ∧ routesOf owner ds' = .ok routes' := by
  obtain ⟨hdeclared, hnodup, hsome⟩ := routesOf_eq_ok.mp h
  obtain ⟨routes', hdeclared', hroutes⟩ := List.perm_comp_forall₂ hperm.symm hdeclared
  refine ⟨routes', hroutes.symm, routesOf_eq_ok.mpr ⟨hdeclared', ?_, ?_⟩⟩
  · exact (hroutes.map routeKey).nodup_iff.mpr hnodup
  · rintro rfl
    exact hsome hroutes.nil_eq.symm

/-- Reordered directives declare the same but for the order of routes. -/
theorem read_reordered (hds : Reordered (·.keyword = .op) ds ds') (h : read m ds = .ok decl) :
    ∃ routes', decl.routes.Perm routes' ∧
      read m ds' = .ok { decl with routes := routes' } := by
  obtain ⟨hroutes, hbody, hsuccess, htags, hclauses⟩ := read_eq_ok.mp h
  have hselect (keyword : Keyword) (hne : keyword ≠ .op) : select keyword ds = select keyword ds' :=
    Directive.filter_keyword_reordered hds hne
  obtain ⟨routes', hperm, hroutes'⟩ := routesOf_perm hds.moved hroutes
  refine ⟨routes', hperm, read_eq_ok.mpr ⟨hroutes', ?_, ?_, ?_, ?_⟩⟩
  · rw [← hselect .body (by simp)]
    exact hbody
  · rw [← hselect .success (by simp)]
    exact hsuccess
  · rw [← hselect .oas (by simp)]
    exact htags
  · rw [← hselect .param (by simp)]
    exact hclauses

theorem pathVars_perm {routes' : List (Declared Route)} (hperm : decl.routes.Perm routes') :
    decl.pathVars.Perm (pathVars { decl with routes := routes' }) :=
  eraseDups_perm fun _ => (hperm.flatMap_right _).mem_iff

theorem checkWholeBody_perm {routes' : List (Declared Route)} (hperm : decl.routes.Perm routes')
    (h : decl.checkWholeBody m = .ok ()) :
    checkWholeBody m { decl with routes := routes' } = .ok () := by
  refine checkWholeBody_eq_ok.mpr fun argument raw hwhole => ?_
  obtain ⟨hknown, hfree, hcarried⟩ := checkWholeBody_eq_ok.mp h argument raw hwhole
  exact ⟨hknown, hfree, fun route hroute => hcarried route (hperm.mem_iff.mpr hroute)⟩

end Declarations

/-- Both infer the same: which names the patterns declare counts, and not their order. -/
structure Inference.Agrees (inf inf' : Inference) : Prop where
  naming : inf'.naming = inf.naming
  fallback : inf'.fallback = inf.fallback
  pathVars : ∀ v, v ∈ inf'.pathVars ↔ v ∈ inf.pathVars

namespace Inference.Agrees

variable {inf inf' : Inference} (h : inf.Agrees inf')

include h

theorem param_eq : inf'.param = inf.param := by
  have hname : inf'.wireName = inf.wireName := by
    funext source location
    simp only [wireName, h.naming, h.pathVars]
  funext source ty shape o
  simp only [param, hname, h.fallback]

theorem fieldParams_eq : inf'.fieldParams = inf.fieldParams := by
  funext arg fields group
  have hfield : inf'.fieldParam arg group = inf.fieldParam arg group := by
    funext field
    simp only [fieldParam, h.param_eq]
  simp only [fieldParams, hfield]

theorem implied_eq : inf'.implied = inf.implied := by
  funext arg
  unfold implied
  simp only [h.param_eq, h.fieldParams_eq, h.fallback]

theorem requested_eq : inf'.requested = inf.requested := by
  funext arg groups
  have hgroup : inf'.groupParam arg = inf.groupParam arg := by
    funext group
    simp only [groupParam, h.param_eq]
  unfold requested requestedParams
  simp only [hgroup, h.fieldParams_eq]

theorem blank_eq : inf'.blank = inf.blank := by
  funext groups
  have hparam : inf'.blankParam = inf.blankParam := by
    funext group
    unfold blankParam
    simp only [h.param_eq]
  simp only [blank, hparam]

theorem wholeBody_eq : inf'.wholeBody = inf.wholeBody := by
  funext arg
  simp only [wholeBody, h.naming]

theorem bindings_eq (m : Method) (decl : Declarations) :
    m.bindings inf' decl = m.bindings inf decl := by
  have hargument : m.bindArgument inf' decl = m.bindArgument inf decl := by
    funext arg
    simp only [Method.bindArgument, h.wholeBody_eq, h.requested_eq, h.implied_eq]
  have hblank : m.bindBlank inf' = m.bindBlank inf := by
    funext clause
    simp only [Method.bindBlank, h.blank_eq]
  simp only [Method.bindings, hargument, hblank]

end Inference.Agrees

/-- The operation without its number. -/
def Operation.unnumbered (o : Operation) : Operation := { o with name := o.methodName }

/-- Both resolutions have one operation for each line, and but for its number it is the same for the
same line. Numbers go by place. -/
structure MethodResolution.ReorderedAs (lines lines' : List String) (r r' : MethodResolution) :
    Prop where
  notices : r'.notices = r.notices
  names : r'.operations.map (·.name) = r.operations.map (·.name)
  made : r.operations.length = lines.length ∧ r'.operations.length = lines'.length
  moved : (lines.zip (r.operations.map (·.unnumbered))).Perm
    (lines'.zip (r'.operations.map (·.unnumbered)))

namespace Method

variable {m : Method} {aliases : AliasTable} {options : ResolveOptions} {r : MethodResolution}
  {decl : Declarations} {plan : Plan} {routes' : List (Declared Route)}

theorem inference_agrees (hperm : decl.routes.Perm routes') :
    (inference decl options).Agrees (inference { decl with routes := routes' } options) :=
  ⟨rfl, rfl, fun _ => (Declarations.pathVars_perm hperm).mem_iff.symm⟩

theorem bindings_reordered (hperm : decl.routes.Perm routes') :
    m.bindings (inference { decl with routes := routes' } options) { decl with routes := routes' } =
      m.bindings (inference decl options) decl :=
  (inference_agrees hperm).bindings_eq m decl

/-- Where no argument is contested, the plan does not depend on the order of routes. -/
theorem plan_reordered (hclauses : ∀ c ∈ decl.clauses, c.value.LeavesBody)
    (hperm : decl.routes.Perm routes')
    (hfree : ∀ bindings, m.bindings (inference decl options) decl = .ok bindings →
      Plan.Uncontested options.naming (bindings.map (·.value)) decl.pathVars)
    (h : m.plan decl options = .ok plan) :
    m.plan { decl with routes := routes' } options = .ok plan := by
  obtain ⟨bindings, hbindings, hnames, hclaims, rfl⟩ := (plan_eq_claimed hclauses).mp h
  have hvars := Declarations.pathVars_perm hperm
  have hfree := hfree bindings hbindings
  -- the same bindings meet the same claims, which are in another order
  obtain ⟨-, hclaimsPerm⟩ := hfree.perm hvars
  have hclauses' : ∀ c ∈ ({ decl with routes := routes' } : Declarations).clauses,
      c.value.LeavesBody := hclauses
  refine (plan_eq_claimed hclauses').mpr ⟨bindings, ?_, ?_, ?_, ?_⟩
  · rw [bindings_reordered hperm, hbindings]
  · rw [checkPathNames_eq_ok] at hnames ⊢
    exact fun d hd name hname => hvars.mem_iff.mp (hnames d hd name hname)
  · exact fun c hc => hclaims c (hclaimsPerm.mem_iff.mpr hc)
  · exact Plan.claimed_perm hclaimsPerm hfree.distinct

/-- The operation that a route makes, but for its number. -/
def serve (m : Method) (decl : Declarations) (plan : Plan) (success : Response)
    (description : String) (route : Declared Route) : Diagnosed Operation :=
  (m.request decl plan route).map fun request =>
    { name := m.name
      methodName := m.name
      httpMethod := route.value.method
      pattern := route.value.pattern
      request, success
      tags := decl.tags
      description }

theorem serve_of_operations {success : Response} {description : String} {ops : List Operation}
    (h : decl.routes.zipIdx.mapM (m.operation decl plan success description) = .ok ops) :
    List.Forall₂ (fun route o => m.serve decl plan success description route = .ok o)
      decl.routes (ops.map (·.unnumbered)) := by
  rw [mapM_eq_ok] at h
  have hroutes : decl.routes = decl.routes.zipIdx.map (·.1) := by simp
  rw [hroutes, List.forall₂_map_left_iff, List.forall₂_map_right_iff]
  refine h.imp fun route o ho => ?_
  obtain ⟨request, hrequest, rfl⟩ := map_eq_ok.mp ho
  exact map_eq_ok.mpr ⟨request, hrequest, rfl⟩

/-- The operations of a method can be made in any order. -/
theorem operations_reordered {success : Response} {description : String} {ops : List Operation}
    (hperm : decl.routes.Perm routes')
    (h : decl.routes.zipIdx.mapM (m.operation decl plan success description) = .ok ops) :
    ∃ ops', routes'.zipIdx.mapM
      (m.operation { decl with routes := routes' } plan success description) = .ok ops' := by
  refine exists_mapM_eq_ok fun route hroute => ?_
  have hmem : route.1 ∈ decl.routes := hperm.mem_iff.mpr (List.fst_mem_of_mem_zipIdx hroute)
  obtain ⟨o, -, ho⟩ := forall₂_mem_left (serve_of_operations h) hmem
  obtain ⟨request, hrequest, -⟩ := map_eq_ok.mp ho
  exact ⟨_, map_eq_ok.mpr ⟨request, hrequest, rfl⟩⟩

/-- No argument of the method is contested by the variables of its patterns. -/
def Uncontested (m : Method) (aliases : AliasTable) (options : ResolveOptions) : Prop :=
  ∀ decl bindings, m.declarations aliases = .ok decl →
    m.bindings (inference decl options) decl = .ok bindings →
    Plan.Uncontested options.naming (bindings.map (·.value)) decl.pathVars

theorem expandDirectives_reordered {block block' : CommentBlock} {ds : List Directive}
    (hblock : Reordered (·.keyword = .op) block.directives block'.directives)
    (h : m.expandDirectives aliases block = .ok ds) :
    ∃ ds', m.expandDirectives aliases block' = .ok ds' ∧ Reordered (·.keyword = .op) ds ds' := by
  refine (hblock.filter (·.keyword.isHttp)).mapM (fun d d' hd => ?_) h
  obtain ⟨args, -, rfl⟩ := map_eq_ok.mp hd
  rfl

theorem declarations_reordered {doc' : List String} (hdoc : OperationsReordered m.doc doc')
    (hunbroken : Comment.Unbroken m.doc) (h : m.declarations aliases = .ok decl) :
    ∃ routes', decl.routes.Perm routes' ∧
      declarations { m with doc := doc' } aliases = .ok { decl with routes := routes' } := by
  obtain ⟨block, hblock, h⟩ := bind_eq_ok.mp h
  obtain ⟨ds, hds, hread⟩ := bind_eq_ok.mp h
  obtain ⟨block', hblock', -, hdirectives⟩ := CommentBlock.read_reordered hdoc hunbroken hblock
  obtain ⟨ds', hds', hreordered⟩ := expandDirectives_reordered hdirectives hds
  obtain ⟨routes', hperm, hread'⟩ := Declarations.read_reordered hreordered hread
  rw [← Declarations.read_doc doc'] at hread'
  exact ⟨routes', hperm, bind_eq_ok.mpr ⟨block', hblock', bind_eq_ok.mpr ⟨ds', hds', hread'⟩⟩⟩

/-- The line of a comment makes the operation, given what is made of its route. -/
def Makes (m : Method) (aliases : AliasTable) (serve : Declared Route → Diagnosed Operation)
    (line : String) (o : Operation) : Prop :=
  ∃ d args route, Directive.ofLine m.name line.toList = .ok (some d) ∧
    aliases.expand d.args = .ok args ∧ Route.read args = .ok route ∧ serve ⟨route, d.raw⟩ = .ok o

theorem makes_rightUnique {serve : Declared Route → Diagnosed Operation} :
    Relator.RightUnique (m.Makes aliases serve) := by
  rintro line o o' ⟨d, args, route, hd, hargs, hroute, ho⟩
    ⟨d', args', route', hd', hargs', hroute', ho'⟩
  obtain rfl : d = d' := Option.some.inj (Except.ok.inj (hd.symm.trans hd'))
  obtain rfl : args = args' := Except.ok.inj (hargs.symm.trans hargs')
  obtain rfl : route = route' := Except.ok.inj (hroute.symm.trans hroute')
  exact Except.ok.inj (ho.symm.trans ho')

/-- Every `op` line makes an operation, and there are no others. -/
theorem makes_of_operations (hunbroken : Comment.Unbroken m.doc) {block : CommentBlock}
    {ds : List Directive} {success : Response} {description : String} {ops : List Operation}
    (hblock : CommentBlock.read m.name m.doc = .ok block)
    (hds : m.expandDirectives aliases block = .ok ds) (hread : Declarations.read m ds = .ok decl)
    (hserved : decl.routes.zipIdx.mapM (m.operation decl plan success description) = .ok ops) :
    List.Forall₂ (m.Makes aliases (m.serve decl plan success description))
      (Comment.operationLines m.doc) (ops.map (·.unnumbered)) := by
  have hlines := CommentBlock.operations_of_read hunbroken hblock
  have hexpanded := expandDirectives_select .op rfl hds
  obtain ⟨hdeclared, -, -⟩ := Declarations.routesOf_eq_ok.mp (Declarations.read_eq_ok.mp hread).1
  -- from each route back to the directive that declares it, and from there to its line
  have hread : List.Forall₂
      (fun d o => ∃ route, Route.read d.args = .ok route ∧
        m.serve decl plan success description ⟨route, d.raw⟩ = .ok o)
      (Declarations.select .op ds) (ops.map (·.unnumbered)) := by
    refine forall₂_trans (fun d route o hd ho => ?_) hdeclared (serve_of_operations hserved)
    exact ⟨route.value, hd.1, hd.2 ▸ ho⟩
  have hwritten : List.Forall₂
      (fun d o => ∃ args route, aliases.expand d.args = .ok args ∧ Route.read args = .ok route ∧
        m.serve decl plan success description ⟨route, d.raw⟩ = .ok o)
      (block.directives.filter (·.keyword = .op)) (ops.map (·.unnumbered)) := by
    refine forall₂_trans (fun d d' o hd ho => ?_) hexpanded hread
    obtain ⟨args, hargs, rfl⟩ := hd
    obtain ⟨route, hroute, ho⟩ := ho
    exact ⟨args, route, hargs, hroute, ho⟩
  refine forall₂_trans (fun line d o hd ho => ?_) hlines hwritten
  obtain ⟨args, route, hargs, hroute, ho⟩ := ho
  exact ⟨d, args, route, hd, hargs, hroute, ho⟩

theorem reorderedAs_of_makes {doc' : List String} {r' : MethodResolution}
    {lines lines' : List String} {serve : Declared Route → Diagnosed Operation}
    (h : m.resolve aliases options = .ok r)
    (h' : resolve { m with doc := doc' } aliases options = .ok r')
    (hnotices : r'.notices = r.notices) (hlines : lines.Perm lines')
    (hmade : List.Forall₂ (m.Makes aliases serve) lines (r.operations.map (·.unnumbered)))
    (hmade' : List.Forall₂ (m.Makes aliases serve) lines' (r'.operations.map (·.unnumbered))) :
    r.ReorderedAs lines lines' r' := by
  have hlength : r.operations.length = lines.length := by simpa using hmade.length_eq.symm
  have hlength' : r'.operations.length = lines'.length := by simpa using hmade'.length_eq.symm
  refine ⟨hnotices, ?_, ⟨hlength, hlength'⟩, forall₂_zip_perm makes_rightUnique hlines hmade hmade'⟩
  -- numbers go by place, and there are equally many
  have hcount : r'.operations.length = r.operations.length := by
    rw [hlength, hlength', hlines.length_eq]
  rw [names_of_resolve h, names_of_resolve h', hcount]

/-- Where no argument is contested, a method whose operations are reordered resolves as well, to the
same operations. -/
theorem resolve_reordered {doc' : List String} (hdoc : OperationsReordered m.doc doc')
    (hunbroken : Comment.Unbroken m.doc) (hfree : m.Uncontested aliases options)
    (h : m.resolve aliases options = .ok r) :
    ∃ r', resolve { m with doc := doc' } aliases options = .ok r' ∧
      r.ReorderedAs (Comment.operationLines m.doc) (Comment.operationLines doc') r' := by
  have hunbroken' := hdoc.unbroken hunbroken
  obtain ⟨block, hblock, hcases⟩ := resolve_eq_ok.mp h
  obtain ⟨block', hblock', hdescription, hdirectives⟩ :=
    CommentBlock.read_reordered hdoc hunbroken hblock
  have hhttp' := CommentBlock.hasHttp_reordered hdirectives
  rcases hcases with ⟨hnone, rfl⟩ | ⟨hhttp, halias, ds, hds, hresolved⟩
  · -- without HTTP directives there is no operation in either order
    have h' : resolve { m with doc := doc' } aliases options = .ok ⟨[], []⟩ :=
      resolve_eq_ok.mpr ⟨block', hblock', .inl ⟨hhttp'.trans hnone, rfl⟩⟩
    refine ⟨⟨[], []⟩, h', ?_⟩
    rw [CommentBlock.operationLines_eq_nil hunbroken hblock hnone,
      CommentBlock.operationLines_eq_nil hunbroken' hblock' (hhttp'.trans hnone)]
    exact ⟨rfl, rfl, ⟨rfl, rfl⟩, .refl _⟩
  · obtain ⟨decl, plan, success, hread, hwhole, hplan, hresponse, hserved⟩ :=
      resolveDirectives_eq_ok.mp hresolved
    have hdeclared : m.declarations aliases = .ok decl :=
      bind_eq_ok.mpr ⟨block, hblock, bind_eq_ok.mpr ⟨ds, hds, hread⟩⟩
    obtain ⟨ds', hds', hreordered⟩ := expandDirectives_reordered hdirectives hds
    obtain ⟨routes', hperm, hread'⟩ := Declarations.read_reordered hreordered hread
    obtain ⟨ops', hserved'⟩ := operations_reordered hperm hserved
    rw [← Declarations.read_doc doc'] at hread'
    have hplan' := plan_reordered (Declarations.leavesBody_of_read hread) hperm
      (fun bindings => hfree decl bindings hdeclared) hplan
    have h' : resolve { m with doc := doc' } aliases options = .ok ⟨ops', r.notices⟩ := by
      refine resolve_eq_ok.mpr ⟨block', hblock', .inr ⟨hhttp'.trans hhttp, ?_, ds', hds', ?_⟩⟩
      · rw [← halias]
        exact (Directive.filter_keyword_reordered hdirectives (by simp)).symm
      · rw [hdescription]
        exact resolveDirectives_eq_ok.mpr ⟨_, plan, success, hread',
          Declarations.checkWholeBody_perm hperm hwhole, hplan', hresponse, hserved'⟩
    have hmade := makes_of_operations hunbroken hblock hds hread hserved
    have hmade' := makes_of_operations (m := { m with doc := doc' }) hunbroken' hblock' hds'
      hread' hserved'
    exact ⟨_, h', reorderedAs_of_makes h h' rfl hdoc.moved hmade hmade'⟩

/-- Whether an argument is contested does not depend on the order of operations. -/
theorem Uncontested.reordered {doc' : List String} (hfree : m.Uncontested aliases options)
    (hdoc : OperationsReordered m.doc doc') (hunbroken : Comment.Unbroken m.doc) :
    Uncontested { m with doc := doc' } aliases options := by
  have hunbroken' := hdoc.unbroken hunbroken
  intro decl' bindings hdeclared' hbindings'
  obtain ⟨routes, hperm, hdeclared⟩ :=
    declarations_reordered (m := { m with doc := doc' }) hdoc.symm hunbroken' hdeclared'
  have hfree := hfree _ bindings hdeclared ((bindings_reordered hperm).trans hbindings')
  exact (hfree.perm (Declarations.pathVars_perm hperm).symm).1

/-- Where no argument is contested, the order of `op` lines decides nothing but the numbers of
operations. -/
theorem resolve_order_irrelevant {doc' : List String} (hdoc : OperationsReordered m.doc doc')
    (hunbroken : Comment.Unbroken m.doc) (hfree : m.Uncontested aliases options) :
    ((∃ r, m.resolve aliases options = .ok r) ↔
      ∃ r', resolve { m with doc := doc' } aliases options = .ok r') ∧
    ∀ r r', m.resolve aliases options = .ok r →
      resolve { m with doc := doc' } aliases options = .ok r' →
      r.ReorderedAs (Comment.operationLines m.doc) (Comment.operationLines doc') r' := by
  have hunbroken' := hdoc.unbroken hunbroken
  refine ⟨⟨?_, ?_⟩, ?_⟩
  · rintro ⟨r, h⟩
    obtain ⟨r', h', -⟩ := resolve_reordered hdoc hunbroken hfree h
    exact ⟨r', h'⟩
  · rintro ⟨r', h'⟩
    obtain ⟨r, h, -⟩ := resolve_reordered (m := { m with doc := doc' }) hdoc.symm hunbroken'
      (hfree.reordered hdoc hunbroken) h'
    exact ⟨r, h⟩
  · intro r r' h h'
    obtain ⟨found, hfound, hsame⟩ := resolve_reordered hdoc hunbroken hfree h
    obtain rfl : found = r' := Except.ok.inj (hfound.symm.trans h')
    exact hsame

/-- Two patterns with a variable in common, and a directive and free text between them. -/
def editItem : Method where
  name := "EditItem"
  args := [⟨"id", "string", .scalar⟩, ⟨"userID", "string", .scalar⟩, ⟨"note", "string", .scalar⟩]
  returns := [⟨"text", "string", .scalar⟩]
  doc := ["EditItem edits an item.", "//kun:op PUT /items/{id}", "//kun:param note in=header",
    "It returns the text.", "//kun:op POST /users/{user_id}/items/{id}"]

theorem resolve_order_irrelevant_of_editItem :
    let doc' := ["EditItem edits an item.", "//kun:op POST /users/{user_id}/items/{id}",
      "//kun:param note in=header", "It returns the text.", "//kun:op PUT /items/{id}"]
    ∃ r r', editItem.resolve .empty {} = .ok r ∧
      resolve { editItem with doc := doc' } .empty {} = .ok r' ∧
      r'.operations.map (fun o => (o.name, o.pattern)) =
        [("EditItem1", "/users/{user_id}/items/{id}"), ("EditItem2", "/items/{id}")] ∧
      r.ReorderedAs (Comment.operationLines editItem.doc) (Comment.operationLines doc') r' := by
  intro doc'
  have hdoc : OperationsReordered editItem.doc doc' := ⟨by decide +kernel, by decide +kernel⟩
  have hunbroken : Comment.Unbroken editItem.doc := by
    unfold Comment.Unbroken
    decide +kernel
  obtain ⟨decl, hdecl, hplan⟩ : ∃ decl, editItem.declarations .empty = .ok decl ∧
      ((editItem.bindings (inference decl {}) decl).toOption.map fun bindings =>
        (Plan.claims .snakeCase (bindings.map (·.value)) decl.pathVars,
          (bindings.map (·.value)).map (·.explicitPathNames))) =
        some ([("id", some 0), ("user_id", some 1)], [[], [], []]) :=
    exists_ok_of_map (by decide +kernel)
  have hfree : editItem.Uncontested .empty {} := by
    intro decl' bindings hdecl' hbindings
    obtain rfl : decl' = decl := Except.ok.inj (hdecl'.symm.trans hdecl)
    rw [hbindings] at hplan
    obtain ⟨hclaims, hnames⟩ := Prod.mk.inj (Option.some.inj hplan)
    refine ⟨?_, fun i b hb _ => ?_⟩
    · rw [hclaims]
      decide
    · have hmem := List.mem_map_of_mem (f := (·.explicitPathNames)) (List.mem_of_getElem? hb)
      rw [hnames] at hmem
      simpa using hmem
  obtain ⟨hiff, hsame⟩ := resolve_order_irrelevant hdoc hunbroken hfree
  obtain ⟨r', h', hnames⟩ : ∃ r', resolve { editItem with doc := doc' } .empty {} = .ok r' ∧
      r'.operations.map (fun o => (o.name, o.pattern)) =
        [("EditItem1", "/users/{user_id}/items/{id}"), ("EditItem2", "/items/{id}")] :=
    exists_ok_of_map (by decide +kernel)
  obtain ⟨r, h⟩ := hiff.mpr ⟨r', h'⟩
  exact ⟨r, r', h, h', hnames, hsame r r' h h'⟩

/-- An argument that one pattern reads under a name of its own, and the other one by its name. -/
def findItem : Method where
  name := "FindItem"
  args := [⟨"userID", "string", .scalar⟩]
  returns := [⟨"text", "string", .scalar⟩]
  doc := ["//kun:op GET /a/{x}", "//kun:op GET /b/{userID}",
    "//kun:param userID in=path name=x"]

/-- Not every order of `op` lines resolves if one does. -/
theorem resolve_order_relevant : ¬ ∀ (m : Method) (aliases : AliasTable)
    (options : ResolveOptions) (doc' : List String), Comment.Unbroken m.doc →
    OperationsReordered m.doc doc' →
    ((∃ r, m.resolve aliases options = .ok r) ↔
      ∃ r', resolve { m with doc := doc' } aliases options = .ok r') := by
  intro h
  let doc' := ["//kun:op GET /b/{userID}", "//kun:op GET /a/{x}",
    "//kun:param userID in=path name=x"]
  have hunbroken : Comment.Unbroken findItem.doc := by
    unfold Comment.Unbroken
    decide +kernel
  have hdoc : OperationsReordered findItem.doc doc' := ⟨by decide +kernel, by decide +kernel⟩
  obtain ⟨r, hr, -⟩ : ∃ r, findItem.resolve .empty {} = .ok r ∧
      r.operations.map (·.pattern) = ["/a/{x}", "/b/{userID}"] :=
    exists_ok_of_map (by decide +kernel)
  obtain ⟨r', hr'⟩ := (h findItem .empty {} doc' hunbroken hdoc).mp ⟨r, hr⟩
  have hfails : (resolve { findItem with doc := doc' } .empty {}).toOption.isNone = true := by
    decide +kernel
  rw [hr'] at hfails
  cases hfails

end Method

end Routespec
