import Routespec.Proofs.PathClaims
import Routespec.Proofs.Request

/-!
# Which variables of a pattern are read

A served pattern should have a path parameter for each of its variables. A variable has one exactly
if it was asked for of an argument that no variable claims, or if it keeps what it claims itself.
Where no argument is contested, all of them do.
-/

namespace Routespec

namespace PlannedBinding

/-- If nothing is read from the path unless asked for, both lists of names are the same. -/
theorem mem_explicitPathNames_iff {b : PlannedBinding} {v : String}
    (h : ∀ p ∈ b.params, p.param.location = .path → p.explicit = true) :
    v ∈ b.explicitPathNames ↔ v ∈ b.pathNames := by
  have hfilter : b.params.filter (·.isExplicitPath) =
      b.params.filter (·.param.location = .path) := by
    refine List.filter_congr fun p hp => ?_
    by_cases hpath : p.param.location = .path
    · simp [PlannedParam.isExplicitPath, hpath, h p hp hpath]
    · simp [PlannedParam.isExplicitPath, hpath]
  rw [explicitPathNames, hfilter, pathNames]

end PlannedBinding

namespace Method

variable {m : Method} {aliases : AliasTable} {options : ResolveOptions} {r : MethodResolution}
  {decl : Declarations} {plan : Plan}

/-- Before variables are bound, only what was asked for is read from the path. -/
theorem explicit_of_bindings (hclauses : ∀ c ∈ decl.clauses, c.value.LeavesBody)
    {bs : List (Declared PlannedBinding)}
    (h : m.bindings (inference decl options) decl = .ok bs) {b : PlannedBinding}
    (hb : b ∈ bs.map (·.value)) :
    ∀ p ∈ b.params, p.param.location = .path → p.explicit = true := by
  intro p hp hpath
  rcases mem_bindings_cases rfl hclauses h hb with ⟨arg, hstarts⟩ | ⟨groups, hblank⟩
  · cases hstarts with
    | whole =>
      obtain rfl := List.mem_singleton.mp hp
      rfl
    | inferred hwhole hfor => exact (hfor.inferred p hp).explicit_iff.mpr (by simp [hpath])
  · exact (hblank.inferred p hp).explicit_iff.mpr (by simp [hpath])

/-- The names that a finished plan reads from the path. -/
theorem pathNames_of_plan (hclauses : ∀ c ∈ decl.clauses, c.value.LeavesBody)
    (h : m.plan decl options = .ok plan) :
    ∃ bs, m.bindings (inference decl options) decl = .ok bs ∧ ∀ v, (∃ b ∈ plan, v ∈ b.pathNames) ↔
      Plan.IsRead options.naming (bs.map (·.value)) decl.pathVars v := by
  obtain ⟨bs, hbs, h⟩ := bind_eq_ok.mp h
  obtain ⟨_, -, hrun⟩ := bind_eq_ok.mp h
  refine ⟨bs, hbs, fun v => ?_⟩
  rw [pathNames_of_run hrun (fieldsApart_of_bindings hclauses hbs)]
  -- the two conditions differ only in whether names are asked for, as all names are at first
  refine or_congr_left (exists₂_congr fun i b => ?_)
  refine and_congr_right fun hb => and_congr_left fun _ => ?_
  have hexplicit := explicit_of_bindings hclauses hbs (List.mem_of_getElem? hb)
  exact (PlannedBinding.mem_explicitPathNames_iff hexplicit).symm

/-- On a variable of the pattern, an operation reads what the plan reads. -/
theorem Serves.pathNames_iff {route : Declared Route} {o : Operation}
    (ho : m.Serves decl plan route o) {v : String} (hv : v ∈ route.value.vars) :
    (∃ b ∈ o.request.bindings, ∃ p ∈ b.params, p.location = .path ∧ p.name = v) ↔
      ∃ b ∈ plan, v ∈ b.pathNames := by
  constructor
  · rintro ⟨b, hb, q, hq, hpath, rfl⟩
    obtain ⟨b', hb', p, hp, -, hserved⟩ := ho.exists_planned (List.mem_flatMap.mpr ⟨b, hb, hq⟩)
    obtain ⟨hppath, rfl⟩ := hserved.of_path hpath
    exact ⟨b', hb', PlannedBinding.mem_pathNames.mpr ⟨p, hp, hppath, rfl⟩⟩
  · rintro ⟨b, hb, hread⟩
    obtain ⟨p, hp, hpath, rfl⟩ := PlannedBinding.mem_pathNames.mp hread
    obtain ⟨q, hq, hserved⟩ := ho.exists_served hb hp (by simp [PlannedParam.isOnPattern, hv])
    obtain rfl := hserved.eq_of_path hpath
    obtain ⟨b', hb', hq⟩ := List.mem_flatMap.mp hq
    exact ⟨b', hb', _, hq, hpath, rfl⟩

/-- The variables of an operation's pattern that its path parameters read. -/
theorem Resolves.pathVars_read (h : m.Resolves aliases options decl plan r) {o : Operation}
    (ho : o ∈ r.operations) :
    ∃ bindings vars, m.bindings (inference decl options) decl = .ok bindings ∧
      PathPattern.vars o.pattern = .ok vars ∧ ∀ v ∈ vars, v ∈ decl.pathVars ∧
        ((∃ b ∈ o.request.bindings, ∃ p ∈ b.params, p.location = .path ∧ p.name = v) ↔
          Plan.IsRead options.naming (bindings.map (·.value)) decl.pathVars v) := by
  obtain ⟨route, hroute, hserves⟩ := h.exists_route ho
  obtain ⟨bs, hbs, hread⟩ := pathNames_of_plan h.leavesBody h.planned
  refine ⟨bs, route.value.vars, hbs, h.vars_of_serves hroute hserves, fun v hv => ⟨?_, ?_⟩⟩
  · exact Declarations.mem_pathVars.mpr ⟨route, hroute, hv⟩
  · rw [hserves.pathNames_iff hv, hread]

/-- A variable of an operation's pattern is read by a path parameter of the operation exactly if it
was asked for of an argument that no variable claims, or keeps what it claims itself. -/
theorem pathVar_read_iff (h : m.resolve aliases options = .ok r) :
    ∀ o ∈ r.operations, ∃ decl bindings vars,
      m.declarations aliases = .ok decl ∧
      m.bindings (inference decl options) decl = .ok bindings ∧
      PathPattern.vars o.pattern = .ok vars ∧
      ∀ v ∈ vars,
        (∃ b ∈ o.request.bindings, ∃ p ∈ b.params, p.location = .path ∧ p.name = v) ↔
          Plan.IsRead options.naming (bindings.map (·.value)) decl.pathVars v := by
  intro o ho
  obtain ⟨decl, plan, hres⟩ := resolves_of_mem h ho
  obtain ⟨bs, vars, hbs, hvars, hread⟩ := hres.pathVars_read ho
  exact ⟨decl, bs, vars, hres.declared, hbs, hvars, fun v hv => (hread v hv).2⟩

/-- Where no argument is contested, every variable of every pattern is read. -/
theorem pathVars_read_of_uncontested (h : m.resolve aliases options = .ok r)
    (hdecl : m.declarations aliases = .ok decl) {bindings : List (Declared PlannedBinding)}
    (hbindings : m.bindings (inference decl options) decl = .ok bindings)
    (hfree : Plan.Uncontested options.naming (bindings.map (·.value)) decl.pathVars) :
    ∀ o ∈ r.operations, ∃ vars, PathPattern.vars o.pattern = .ok vars ∧ ∀ v ∈ vars,
      ∃ b ∈ o.request.bindings, ∃ p ∈ b.params, p.location = .path ∧ p.name = v := by
  intro o ho
  obtain ⟨decl', plan, hres⟩ := resolves_of_mem h ho
  obtain rfl : decl' = decl := Except.ok.inj (hres.declared.symm.trans hdecl)
  obtain ⟨bs, vars, hbs, hvars, hread⟩ := hres.pathVars_read ho
  obtain rfl : bs = bindings := Except.ok.inj (hbs.symm.trans hbindings)
  refine ⟨vars, hvars, fun v hv => ?_⟩
  obtain ⟨hmem, hiff⟩ := hread v hv
  exact hiff.mpr (hfree.isRead hmem)

/-- Two variables that are both named for one argument, which the second one keeps. -/
def getItem : Method where
  name := "GetItem"
  args := [⟨"userID", "string", .scalar⟩]
  returns := [⟨"text", "string", .scalar⟩]
  doc := ["//kun:op GET /users/{userID}/items/{user_id}"]

theorem getItem_resolves : ∃ r, getItem.resolve .empty {} = .ok r ∧
    r.operations.map (fun o => (o.pattern, (o.request.paramsIn .path).map (·.name))) =
      [("/users/{userID}/items/{user_id}", ["user_id"])] :=
  exists_ok_of_map (by decide +kernel)

theorem pathVar_read_iff_of_getItem : ∃ r, getItem.resolve .empty {} = .ok r ∧
    r.operations.map (fun o => (o.pattern, (o.request.paramsIn .path).map (·.name))) =
      [("/users/{userID}/items/{user_id}", ["user_id"])] ∧
    ∀ o ∈ r.operations, ∃ decl bindings vars,
      getItem.declarations .empty = .ok decl ∧
      getItem.bindings (inference decl {}) decl = .ok bindings ∧
      PathPattern.vars o.pattern = .ok vars ∧
      ∀ v ∈ vars,
        (∃ b ∈ o.request.bindings, ∃ p ∈ b.params, p.location = .path ∧ p.name = v) ↔
          Plan.IsRead Naming.snakeCase (bindings.map (·.value)) decl.pathVars v := by
  obtain ⟨r, hr, hpaths⟩ := getItem_resolves
  exact ⟨r, hr, hpaths, pathVar_read_iff hr⟩

/-- Not every variable of an operation's pattern is read. -/
theorem pathVar_unread : ¬ ∀ (m : Method) (aliases : AliasTable) (options : ResolveOptions)
    (r : MethodResolution), m.resolve aliases options = .ok r → ∀ o ∈ r.operations,
      ∃ vars, PathPattern.vars o.pattern = .ok vars ∧ ∀ v ∈ vars,
        ∃ b ∈ o.request.bindings, ∃ p ∈ b.params, p.location = .path ∧ p.name = v := by
  intro h
  obtain ⟨r, hr, hpaths⟩ := getItem_resolves
  obtain ⟨o, ho, hpath⟩ := List.map_eq_singleton_iff.mp hpaths
  obtain ⟨hpattern, hnames⟩ := Prod.mk.inj hpath
  obtain ⟨vars, hvars, hread⟩ := h _ _ _ _ hr o (ho ▸ List.mem_singleton.mpr rfl)
  have hpatternVars : PathPattern.vars o.pattern = .ok ["userID", "user_id"] := by
    rw [hpattern]
    rfl
  obtain rfl : vars = ["userID", "user_id"] := Except.ok.inj (hvars.symm.trans hpatternVars)
  obtain ⟨b, hb, p, hp, hloc, hname⟩ := hread "userID" (by simp)
  have hmem : "userID" ∈ (o.request.paramsIn .path).map (·.name) := by
    refine List.mem_map.mpr ⟨p, List.mem_flatMap.mpr ⟨b, hb, ?_⟩, hname⟩
    exact List.mem_filter.mpr ⟨hp, by simp [hloc]⟩
  rw [hnames] at hmem
  simp at hmem

end Method

end Routespec
