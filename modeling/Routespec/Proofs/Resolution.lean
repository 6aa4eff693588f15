import Routespec.Proofs.Declarations

/-!
# Successful resolutions

What a method that resolves to operations went through: its declarations, the plan that all of its
operations share, and for each route the request made of that plan.
-/

namespace Routespec

namespace Method

variable {m : Method} {aliases : AliasTable} {options : ResolveOptions} {r : MethodResolution}

/-- What the directives of a method declare, aliases expanded. -/
def declarations (m : Method) (aliases : AliasTable) : Diagnosed Declarations := do
  let block ← CommentBlock.read m.name m.doc
  let directives ← m.expandDirectives aliases block
  Declarations.read m directives

/-- The operation is what the plan of the method makes of the route. -/
structure Serves (m : Method) (decl : Declarations) (plan : Plan) (route : Declared Route)
    (o : Operation) : Prop where
  requested : m.request decl plan route = .ok o.request
  httpMethod : o.httpMethod = route.value.method
  pattern : o.pattern = route.value.pattern

/-- The method resolves through the given declarations and plan. -/
structure Resolves (m : Method) (aliases : AliasTable) (options : ResolveOptions)
    (decl : Declarations) (plan : Plan) (r : MethodResolution) : Prop where
  declared : m.declarations aliases = .ok decl
  wholeBody : decl.checkWholeBody m = .ok ()
  planned : m.plan decl options = .ok plan
  served : ∃ success description,
    m.response decl options = .ok (success, r.notices) ∧
    decl.routes.zipIdx.mapM (m.operation decl plan success description) = .ok r.operations

theorem resolveDirectives_eq_ok {description : String} {ds : List Directive} :
    m.resolveDirectives options description ds = .ok r ↔ ∃ decl plan success,
      Declarations.read m ds = .ok decl ∧ decl.checkWholeBody m = .ok () ∧
      m.plan decl options = .ok plan ∧ m.response decl options = .ok (success, r.notices) ∧
      decl.routes.zipIdx.mapM (m.operation decl plan success description) = .ok r.operations := by
  constructor
  · intro h
    obtain ⟨decl, hdecl, h⟩ := bind_eq_ok.mp h
    obtain ⟨_, hwhole, h⟩ := bind_eq_ok.mp h
    obtain ⟨plan, hplan, h⟩ := bind_eq_ok.mp h
    obtain ⟨⟨success, notices⟩, hresponse, h⟩ := bind_eq_ok.mp h
    obtain ⟨operations, hoperations, h⟩ := bind_eq_ok.mp h
    obtain rfl := pure_eq_ok.mp h
    exact ⟨decl, plan, success, hdecl, hwhole, hplan, hresponse, hoperations⟩
  · rintro ⟨decl, plan, success, hdecl, hwhole, hplan, hresponse, hoperations⟩
    refine bind_eq_ok.mpr ⟨decl, hdecl, bind_eq_ok.mpr ⟨(), hwhole, ?_⟩⟩
    refine bind_eq_ok.mpr ⟨plan, hplan, bind_eq_ok.mpr ⟨_, hresponse, ?_⟩⟩
    exact bind_eq_ok.mpr ⟨_, hoperations, rfl⟩

/-- A method without HTTP directives resolves to nothing, and any other one as they say. -/
theorem resolve_eq_ok : m.resolve aliases options = .ok r ↔
    ∃ block, CommentBlock.read m.name m.doc = .ok block ∧
      ((block.hasHttp = false ∧ r = ⟨[], []⟩) ∨
        (block.hasHttp = true ∧ block.of .alias = [] ∧ ∃ ds,
          m.expandDirectives aliases block = .ok ds ∧
          m.resolveDirectives options block.description ds = .ok r)) := by
  unfold resolve
  rw [bind_eq_ok]
  refine exists_congr fun block => and_congr_right fun _ => ?_
  cases hhttp : block.hasHttp with
  | false =>
    simp only [Bool.not_false, ↓reduceIte, pure_eq_ok, Bool.false_eq_true, true_and, false_and,
      or_false]
    exact eq_comm
  | true =>
    cases halias : block.of .alias with
    | nil => simp [bind_eq_ok]
    | cons d rest =>
      refine iff_of_false (fun h => ?_) (by simp)
      obtain ⟨_, hfail, -⟩ := bind_eq_ok.mp h
      exact fail_ne_ok (at_eq_ok.mp hfail)

/-- The directives of each kind about HTTP are expanded one by one. -/
theorem expandDirectives_select {block : CommentBlock} {ds : List Directive} (keyword : Keyword)
    (hhttp : keyword.isHttp = true) (h : m.expandDirectives aliases block = .ok ds) :
    List.Forall₂ (fun d d' => ∃ args, aliases.expand d.args = .ok args ∧ d' = { d with args })
      (block.of keyword) (Declarations.select keyword ds) := by
  have hexpanded : List.Forall₂
      (fun d d' => ∃ args, aliases.expand d.args = .ok args ∧ d' = { d with args })
      (block.directives.filter (·.keyword.isHttp)) ds := by
    refine (mapM_eq_ok.mp h).imp fun d d' hd => ?_
    obtain ⟨args, hargs, rfl⟩ := map_eq_ok.mp hd
    exact ⟨args, at_eq_ok.mp hargs, rfl⟩
  have hsame : (block.directives.filter (·.keyword.isHttp)).filter (·.keyword = keyword) =
      block.of keyword := by
    rw [CommentBlock.of, List.filter_filter]
    refine List.filter_congr fun d _ => ?_
    by_cases hkeyword : d.keyword = keyword
    · simp [hkeyword, hhttp]
    · simp [hkeyword]
  rw [← hsame]
  refine forall₂_filter (fun d d' hd => ?_) hexpanded
  obtain ⟨args, -, rfl⟩ := hd
  rfl

/-- What the HTTP directives of a method make of it comes from its declarations and a plan. -/
theorem resolves_of_read {block : CommentBlock} {ds : List Directive}
    (hblock : CommentBlock.read m.name m.doc = .ok block)
    (hds : m.expandDirectives aliases block = .ok ds)
    (h : m.resolveDirectives options block.description ds = .ok r) :
    ∃ decl plan, m.Resolves aliases options decl plan r := by
  obtain ⟨decl, plan, success, hread, hwhole, hplan, hresponse, hserved⟩ :=
    resolveDirectives_eq_ok.mp h
  have hdeclared : m.declarations aliases = .ok decl :=
    bind_eq_ok.mpr ⟨block, hblock, bind_eq_ok.mpr ⟨ds, hds, hread⟩⟩
  exact ⟨decl, plan, hdeclared, hwhole, hplan, success, _, hresponse, hserved⟩

/-- A method resolves to nothing, or else through its declarations and a plan. -/
theorem resolve_cases (h : m.resolve aliases options = .ok r) :
    r = ⟨[], []⟩ ∨ ∃ decl plan, m.Resolves aliases options decl plan r := by
  obtain ⟨block, hblock, ⟨-, rfl⟩ | ⟨-, -, ds, hds, h⟩⟩ := resolve_eq_ok.mp h
  · exact .inl rfl
  · exact .inr (resolves_of_read hblock hds h)

/-- A method that resolves to some operation does so through its declarations and a plan. -/
theorem resolves_of_mem (h : m.resolve aliases options = .ok r) {o : Operation}
    (ho : o ∈ r.operations) : ∃ decl plan, m.Resolves aliases options decl plan r := by
  rcases resolve_cases h with rfl | h
  · simp at ho
  · exact h

/-- A method that declares anything is about HTTP. -/
theorem hasHttp_of_declarations {decl : Declarations} {block : CommentBlock}
    (hblock : CommentBlock.read m.name m.doc = .ok block)
    (h : m.declarations aliases = .ok decl) : block.hasHttp = true := by
  by_contra hnone
  rw [Bool.not_eq_true] at hnone
  obtain ⟨block', hblock', h⟩ := bind_eq_ok.mp h
  obtain rfl := Except.ok.inj (hblock.symm.trans hblock')
  obtain ⟨ds, hds, hread⟩ := bind_eq_ok.mp h
  have hops := expandDirectives_select .op rfl hds
  rw [CommentBlock.of_eq_nil .op rfl hnone, List.forall₂_nil_left_iff] at hops
  obtain ⟨hroutes, -⟩ := Declarations.read_eq_ok.mp hread
  rw [hops] at hroutes
  obtain ⟨hdeclared, -, hsome⟩ := Declarations.routesOf_eq_ok.mp hroutes
  exact hsome (List.forall₂_nil_left_iff.mp hdeclared)

/-- What a method that declares anything resolves to comes from its declarations. -/
theorem resolves_of_declarations {decl : Declarations} (h : m.resolve aliases options = .ok r)
    (hdecl : m.declarations aliases = .ok decl) :
    ∃ plan, m.Resolves aliases options decl plan r := by
  obtain ⟨block, hblock, ⟨hnone, -⟩ | ⟨-, -, ds, hds, h⟩⟩ := resolve_eq_ok.mp h
  · rw [hasHttp_of_declarations hblock hdecl] at hnone
    cases hnone
  · obtain ⟨decl', plan, hres⟩ := resolves_of_read hblock hds h
    obtain rfl := Except.ok.inj (hres.declared.symm.trans hdecl)
    exact ⟨plan, hres⟩

theorem serves_of_operation {decl : Declarations} {plan : Plan} {success : Response}
    {description : String} {route : Declared Route × Nat} {o : Operation}
    (h : m.operation decl plan success description route = .ok o) :
    m.Serves decl plan route.1 o := by
  obtain ⟨request, hrequest, rfl⟩ := map_eq_ok.mp h
  exact ⟨hrequest, rfl, rfl⟩

/-- Operations serve the declared routes one by one. -/
theorem serves_of_operations {decl : Declarations} {plan : Plan} {success : Response}
    {description : String} {ops : List Operation}
    (h : decl.routes.zipIdx.mapM (m.operation decl plan success description) = .ok ops) :
    List.Forall₂ (m.Serves decl plan) decl.routes ops := by
  have hroutes : decl.routes = decl.routes.zipIdx.map (·.1) := by simp
  rw [hroutes, List.forall₂_map_left_iff]
  exact (mapM_eq_ok.mp h).imp fun _ _ ho => serves_of_operation ho

/-- Operations have the response, the tags and the description that they are made with. -/
theorem shared_of_operations {decl : Declarations} {plan : Plan} {success : Response}
    {description : String} {ops : List Operation}
    (h : decl.routes.zipIdx.mapM (m.operation decl plan success description) = .ok ops) :
    ∀ o ∈ ops, o.success = success ∧ o.tags = decl.tags ∧ o.description = description := by
  intro o ho
  obtain ⟨route, -, ho⟩ := forall₂_mem_right (mapM_eq_ok.mp h) ho
  obtain ⟨request, -, rfl⟩ := map_eq_ok.mp ho
  exact ⟨rfl, rfl, rfl⟩

namespace Resolves

variable {decl : Declarations} {plan : Plan} (h : m.Resolves aliases options decl plan r)

include h

/-- Every operation serves some declared route. -/
theorem exists_route {o : Operation} (ho : o ∈ r.operations) :
    ∃ route ∈ decl.routes, m.Serves decl plan route o := by
  obtain ⟨success, description, -, hserved⟩ := h.served
  exact forall₂_mem_right (serves_of_operations hserved) ho

/-- Every declared route is served by some operation. -/
theorem exists_operation {route : Declared Route} (hroute : route ∈ decl.routes) :
    ∃ o ∈ r.operations, m.Serves decl plan route o := by
  obtain ⟨success, description, -, hserved⟩ := h.served
  exact forall₂_mem_left (serves_of_operations hserved) hroute

/-- The variables of an operation's pattern are those of its route. -/
theorem vars_of_serves {route : Declared Route} {o : Operation} (hroute : route ∈ decl.routes)
    (ho : m.Serves decl plan route o) : PathPattern.vars o.pattern = .ok route.value.vars := by
  obtain ⟨block, -, hread⟩ := bind_eq_ok.mp h.declared
  obtain ⟨directives, -, hread⟩ := bind_eq_ok.mp hread
  rw [ho.pattern]
  exact Declarations.vars_of_read hread route hroute

theorem leavesBody : ∀ c ∈ decl.clauses, c.value.LeavesBody := by
  obtain ⟨block, -, hread⟩ := bind_eq_ok.mp h.declared
  obtain ⟨directives, -, hread⟩ := bind_eq_ok.mp hread
  exact Declarations.leavesBody_of_read hread

end Resolves

end Method

end Routespec
