import Routespec.Proofs.PathOutcome
import Routespec.Proofs.Request

/-!
# Places that were asked for

An option group that sets a place makes a parameter there, and operations keep it: binding the path
variables takes nothing away from an argument that no variable claims, and no variable can claim an
argument that is tied to a place other than the path. What a claim does take away are the path
parameters that the argument was asked to be read from.
-/

namespace Routespec

/-- The wire name that an option group gives an argument at a place. -/
def Inference.askedName (inf : Inference) (arg : Argument) (group : ParamOptions) (l : Location) :
    String :=
  group.name.getD (inf.wireName arg.name l)

/-- The parameter is what an option group asks of an argument at a place. -/
structure ParamOptions.AnsweredBy (group : ParamOptions) (inf : Inference) (arg : Argument)
    (l : Location) (p : Parameter) : Prop where
  location : p.location = l
  name : p.name = inf.askedName arg group l
  ty : p.ty = group.ty.getD arg.ty
  description : p.description = group.description.getD ""

/-- The operation reads scalars and sequences of scalars from all places that their clauses ask for;
from the path only variables of its own pattern, and only where the argument is free. -/
def Operation.HonoursPlaces (m : Method) (decl : Declarations) (inf : Inference)
    (vars : List String) (free : Nat → Prop) (o : Operation) : Prop :=
  ∀ c ∈ decl.clauses, c.value.argument ≠ blankName →
    ∀ (i : Nat) arg, m.eligible[i]? = some arg → arg.name = c.value.argument →
      arg.shape.isScalarLike = true →
    ∀ group ∈ c.value.groups, ∀ l, group.location = some l →
      (l = .path → inf.askedName arg group l ∈ vars ∧ free i) →
      ∃ b ∈ o.request.bindings, b.argument = arg ∧ b.blank = false ∧
        ∃ p ∈ b.params, group.AnsweredBy inf arg l p

/-- The plan keeps the explicit parameters of another one, except those of arguments that are
claimed, which have none but on the path. -/
def Plan.KeepsExplicit (claimed : List (Option Nat)) (plan plan' : Plan) : Prop :=
  ∀ (i : Nat) b, plan[i]? = some b →
    ∃ b', plan'[i]? = some b' ∧ b'.argument = b.argument ∧ b'.blank = b.blank ∧
      ∀ p ∈ b.params, p.explicit = true →
        (p ∈ b'.params ↔ some i ∉ claimed) ∧ (p.param.location ≠ .path → p ∈ b'.params)

/-- Meeting claims takes explicit parameters from those arguments alone that are claimed. -/
theorem Plan.keepsExplicit_claimed {plan : Plan} {claims : List (String × Option Nat)}
    (hclaims : ∀ c ∈ claims, plan.Grants c) :
    plan.KeepsExplicit (claims.map (·.2)) (plan.claimed claims) := by
  intro i b hb
  have hb' : (plan.claimed claims)[i]? =
      some { b with params := plan.claimedParams claims i b } := by
    rw [getElem?_claimed, hb, Option.map_some]
  refine ⟨_, hb', rfl, rfl, fun p hp hexplicit => ?_⟩
  cases hlast : lastClaim? claims i with
  | none =>
    have hkept := (mem_claimedParams_iff hclaims hb hlast hexplicit).mpr hp
    exact ⟨iff_of_true hkept (lastClaim?_eq_none.mp hlast), fun _ => hkept⟩
  | some v =>
    have hclaimed := mem_of_lastClaim? hlast
    have hpath := (scalar_of_grants hclaims hb hclaimed).2.2 p hp hexplicit
    refine ⟨iff_of_false ?_ (not_not_intro hclaimed), fun helsewhere => absurd hpath helsewhere⟩
    -- the one parameter that is left was not asked for
    rw [claimedParams_of_some hlast, List.mem_singleton]
    rintro rfl
    simp [PlannedBinding.pathReader] at hexplicit

namespace Inference

variable {inf : Inference} {arg : Argument} {group : ParamOptions} {l : Location}

theorem groupParam_answers {p : PlannedParam} (hl : group.location = some l)
    (h : inf.groupParam arg group = .ok p) :
    p.explicit = true ∧ group.AnsweredBy inf arg l p.param := by
  obtain ⟨_, -, rfl⟩ := map_eq_ok.mp (groupParam_eq_ok h)
  refine ⟨by simp [hl], ?_, ?_, rfl, rfl⟩
  · simp [hl]
  · simp [hl, askedName]

/-- A scalar or a sequence of scalars has a parameter for each of its option groups. -/
theorem requested_answers (hshape : arg.shape.isScalarLike = true) {groups : List ParamOptions}
    {b : PlannedBinding} (h : inf.requested arg groups = .ok b) (hgroup : group ∈ groups)
    (hl : group.location = some l) :
    ∃ p ∈ b.params, p.explicit = true ∧ group.AnsweredBy inf arg l p.param := by
  obtain ⟨params, hparams, rfl⟩ := map_eq_ok.mp h
  have hgroups : groups.mapM (inf.groupParam arg) = .ok params := by
    obtain ⟨fields, hfields, -⟩ | ⟨-, -, hparams⟩ := requestedParams_cases hparams
    · simp [hfields, Shape.isScalarLike] at hshape
    · rwa [if_neg (List.ne_nil_of_mem hgroup)] at hparams
  obtain ⟨p, hp, hanswer⟩ := forall₂_mem_left (mapM_eq_ok.mp hgroups) hgroup
  exact ⟨p, hp, groupParam_answers hl hanswer⟩

end Inference

namespace Method

variable {m : Method} {aliases : AliasTable} {options : ResolveOptions} {r : MethodResolution}
  {decl : Declarations} {plan : Plan} {route : Declared Route} {o : Operation}

theorem wholeBody?_filter_eq_none (h : decl.checkWholeBody m = .ok ())
    {c : Declared ArgumentClause} (hc : c ∈ decl.clauses) :
    decl.wholeBody?.filter (·.value = c.value.argument) = none := by
  rw [Option.filter_eq_none_iff]
  rintro ⟨argument, raw⟩ hwhole hname
  obtain ⟨-, hfree, -⟩ := Declarations.checkWholeBody_eq_ok.mp h argument raw hwhole
  exact hfree c hc (of_decide_eq_true hname).symm

namespace Resolves

variable (h : m.Resolves aliases options decl plan r)

include h

theorem clause?_eq_some {c : Declared ArgumentClause} (hc : c ∈ decl.clauses)
    (hnamed : c.value.argument ≠ blankName) : decl.clause? c.value.argument = some c := by
  obtain ⟨block, -, hread⟩ := bind_eq_ok.mp h.declared
  obtain ⟨directives, -, hread⟩ := bind_eq_ok.mp hread
  exact Declarations.clause?_eq_some hread hc hnamed

/-- An argument that a clause names starts out with the binding that the clause asks for. -/
theorem requested_of_clause {bindings : List (Declared PlannedBinding)}
    (hbindings : m.bindings (inference decl options) decl = .ok bindings)
    {c : Declared ArgumentClause} (hc : c ∈ decl.clauses) (hnamed : c.value.argument ≠ blankName)
    {i : Nat} {arg : Argument} (hi : m.eligible[i]? = some arg)
    (hname : arg.name = c.value.argument) :
    ∃ d, bindings[i]? = some d ∧
      (inference decl options).requested arg c.value.groups = .ok d.value := by
  obtain ⟨fed, blank, rfl, hfed, -⟩ := bindings_eq_ok rfl h.leavesBody hbindings
  obtain ⟨d, hd, hbound⟩ := forall₂_getElem? hfed hi
  have hlt : i < fed.length := (List.getElem?_eq_some_iff.mp hd).1
  refine ⟨d, by rw [List.getElem?_append_left hlt, hd], ?_⟩
  unfold bindArgument at hbound
  rw [hname, wholeBody?_filter_eq_none h.wholeBody hc, h.clause?_eq_some hc hnamed] at hbound
  obtain ⟨b, hb, heq⟩ := map_eq_ok.mp hbound
  obtain rfl := Option.some.inj heq
  exact at_eq_ok.mp hb

/-- Binding the path variables keeps what is explicit, where no variable claims it. -/
theorem exists_keepsExplicit : ∃ bindings,
    m.bindings (inference decl options) decl = .ok bindings ∧
    Plan.KeepsExplicit
      ((Plan.claims options.naming (bindings.map (·.value)) decl.pathVars).map (·.2))
      (bindings.map (·.value)) plan := by
  obtain ⟨bindings, hbindings, -, hclaims, rfl⟩ := (plan_eq_claimed h.leavesBody).mp h.planned
  exact ⟨bindings, hbindings, Plan.keepsExplicit_claimed hclaims⟩

theorem honoursPlaces {bindings : List (Declared PlannedBinding)} {claimed : List (Option Nat)}
    (hbindings : m.bindings (inference decl options) decl = .ok bindings)
    (hkept : Plan.KeepsExplicit claimed (bindings.map (·.value)) plan)
    (ho : m.Serves decl plan route o) :
    o.HonoursPlaces m decl (inference decl options) route.value.vars fun i => some i ∉ claimed := by
  intro c hc hnamed i arg hi hname hscalar group hgroup l hl hpath
  obtain ⟨d, hd, hrequested⟩ := h.requested_of_clause hbindings hc hnamed hi hname
  obtain ⟨hdarg, hdblank⟩ : d.value.argument = arg ∧ d.value.blank = false := by
    obtain ⟨params, -, hd⟩ := map_eq_ok.mp hrequested
    exact ⟨hd ▸ rfl, hd ▸ rfl⟩
  obtain ⟨p, hp, hexplicit, hanswer⟩ := Inference.requested_answers hscalar hrequested hgroup hl
  obtain ⟨b, hb, hbarg, hbblank, hkeeps⟩ :=
    hkept i d.value (by rw [List.getElem?_map, hd, Option.map_some])
  have hp : p ∈ b.params := by
    by_cases hl : l = .path
    · exact (hkeeps p hp hexplicit).1.mpr (hpath hl).2
    · exact (hkeeps p hp hexplicit).2 (by rw [hanswer.location]; exact hl)
  have hvars : p.isOnPattern route.value.vars = true := by
    by_cases hl : l = .path
    · simp [PlannedParam.isOnPattern, hanswer.name, (hpath hl).1]
    · simp [PlannedParam.isOnPattern, hanswer.location, hl]
  obtain ⟨b', hb', harg, hblank, q, hq, hserved⟩ :=
    ho.exists_served_binding (List.mem_of_getElem? hb) hp hvars
  -- what is explicit moves nowhere, and manipulations only reach into the body
  have hmoved : p.movedFor o.request.body = p := PlannedParam.movedFor_of_explicit hexplicit
  have hbody : l ≠ .body := fun hbody => h.leavesBody c hc group hgroup (hbody ▸ hl)
  have hqloc : q.location = l := by rw [hserved.location, hmoved, hanswer.location]
  have hqp : q = p.param := by rw [hserved.same (.inr (hqloc ▸ hbody)), hmoved]
  exact ⟨b', hb', harg.trans (hbarg.trans hdarg), hblank.trans (hbblank.trans hdblank), q, hq,
    hqp ▸ hanswer⟩

end Resolves

/-- Explicit places are honoured, but for those on the path of arguments that some variable claims,
and nothing else takes an explicit parameter away. -/
theorem explicitPlaces_honoured (h : m.resolve aliases options = .ok r) :
    ∀ o ∈ r.operations, ∃ decl bindings plan vars,
      m.declarations aliases = .ok decl ∧
      m.bindings (inference decl options) decl = .ok bindings ∧
      m.plan decl options = .ok plan ∧
      PathPattern.vars o.pattern = .ok vars ∧
      let claimed := (Plan.claims options.naming (bindings.map (·.value)) decl.pathVars).map (·.2)
      Plan.KeepsExplicit claimed (bindings.map (·.value)) plan ∧
      o.HonoursPlaces m decl (inference decl options) vars fun i => some i ∉ claimed := by
  intro o ho
  obtain ⟨decl, plan, hres⟩ := resolves_of_mem h ho
  obtain ⟨route, hroute, hserves⟩ := hres.exists_route ho
  obtain ⟨bindings, hbindings, hkept⟩ := hres.exists_keepsExplicit
  refine ⟨decl, bindings, plan, route.value.vars, hres.declared, hbindings, hres.planned,
    hres.vars_of_serves hroute hserves, hkept, ?_⟩
  exact hres.honoursPlaces hbindings hkept hserves

/-- An argument with two places, one of them on one of two patterns, and one with a type. -/
def listItems : Method where
  name := "ListItems"
  args := [⟨"owner", "string", .scalar⟩, ⟨"tags", "[]string", .scalarSeq⟩]
  returns := [⟨"items", "[]Item", .sequence⟩]
  doc := ["//kun:op GET /users/{id}/items", "//kun:op GET /items",
    "//kun:param owner in=path name=id, in=header descr='the owner'; tags in=query type=csv"]

theorem explicitPlaces_honoured_of_listItems : ∃ r, listItems.resolve .empty {} = .ok r ∧
    r.operations.map (fun o => o.request.params.map fun p => (p.location, p.name, p.ty)) =
      [[(.path, "id", "string"), (.header, "owner", "string"), (.query, "tags", "csv")],
        [(.header, "owner", "string"), (.query, "tags", "csv")]] ∧
    ∀ o ∈ r.operations, ∃ decl bindings plan vars,
      listItems.declarations .empty = .ok decl ∧
      listItems.bindings (inference decl {}) decl = .ok bindings ∧
      listItems.plan decl {} = .ok plan ∧
      PathPattern.vars o.pattern = .ok vars ∧
      let claimed := (Plan.claims .snakeCase (bindings.map (·.value)) decl.pathVars).map (·.2)
      Plan.KeepsExplicit claimed (bindings.map (·.value)) plan ∧
      o.HonoursPlaces listItems decl (inference decl {}) vars fun i => some i ∉ claimed := by
  obtain ⟨r, hr, hparams⟩ : ∃ r, listItems.resolve .empty {} = .ok r ∧
      r.operations.map (fun o => o.request.params.map fun p => (p.location, p.name, p.ty)) =
        [[(.path, "id", "string"), (.header, "owner", "string"), (.query, "tags", "csv")],
          [(.header, "owner", "string"), (.query, "tags", "csv")]] :=
    exists_ok_of_map (by decide +kernel)
  exact ⟨r, hr, hparams, explicitPlaces_honoured hr⟩

/-- An argument that is asked for under one variable and named for another one, which claims it. -/
def readItem : Method where
  name := "ReadItem"
  args := [⟨"userID", "string", .scalar⟩]
  returns := [⟨"text", "string", .scalar⟩]
  doc := ["//kun:op GET /a/{x}/b/{userID}", "//kun:param userID in=path name=x"]

/-- Not every place on the path that was asked for is honoured. -/
theorem explicitPlace_replaced : ¬ ∀ (m : Method) (aliases : AliasTable)
    (options : ResolveOptions) (r : MethodResolution), m.resolve aliases options = .ok r →
    ∀ o ∈ r.operations, ∃ decl vars, m.declarations aliases = .ok decl ∧
      PathPattern.vars o.pattern = .ok vars ∧
      o.HonoursPlaces m decl (inference decl options) vars fun _ => True := by
  intro h
  obtain ⟨r, hr, hpaths⟩ : ∃ r, readItem.resolve .empty {} = .ok r ∧
      r.operations.map (fun o => (o.pattern, (o.request.paramsIn .path).map (·.name))) =
        [("/a/{x}/b/{userID}", ["userID"])] :=
    exists_ok_of_map (by decide +kernel)
  obtain ⟨decl, hdecl, hclauses⟩ : ∃ decl, readItem.declarations .empty = .ok decl ∧
      decl.clauses.map (·.value) =
        [⟨"userID", [⟨some .path, some "x", none, none, none⟩]⟩] :=
    exists_ok_of_map (by decide +kernel)
  obtain ⟨o, ho, hpath⟩ := List.map_eq_singleton_iff.mp hpaths
  obtain ⟨hpattern, hnames⟩ := Prod.mk.inj hpath
  obtain ⟨decl', vars, hdecl', hvars, hhonours⟩ := h _ _ _ _ hr o (ho ▸ List.mem_singleton.mpr rfl)
  obtain rfl : decl' = decl := Except.ok.inj (hdecl'.symm.trans hdecl)
  have hpatternVars : PathPattern.vars o.pattern = .ok ["x", "userID"] := by
    rw [hpattern]
    rfl
  obtain rfl : vars = ["x", "userID"] := Except.ok.inj (hvars.symm.trans hpatternVars)
  obtain ⟨c, hc, hvalue⟩ := List.map_eq_singleton_iff.mp hclauses
  obtain ⟨b, hb, -, -, p, hp, hanswer⟩ := hhonours c (hc ▸ List.mem_singleton.mpr rfl)
    (by rw [hvalue]; decide) 0 ⟨"userID", "string", .scalar⟩ rfl (by rw [hvalue]) rfl
    ⟨some .path, some "x", none, none, none⟩ (by rw [hvalue]; exact List.mem_singleton.mpr rfl)
    .path rfl (fun _ => ⟨by simp [Inference.askedName], trivial⟩)
  have hmem : "x" ∈ (o.request.paramsIn .path).map (·.name) := by
    refine List.mem_map.mpr ⟨p, List.mem_flatMap.mpr ⟨b, hb, ?_⟩, hanswer.name⟩
    exact List.mem_filter.mpr ⟨hp, by simp [hanswer.location]⟩
  rw [hnames] at hmem
  simp at hmem

end Method

end Routespec
