import Routespec.Proofs.Request
import Routespec.Proofs.SharedPlan

/-!
# Wire keys and path parameters of an operation

Within a request, place and name tell all parameters apart; and whatever is read from the path is
one required scalar under the name of a variable of the operation's own pattern.
-/

namespace Routespec

namespace Method

variable {m : Method} {aliases : AliasTable} {options : ResolveOptions} {r : MethodResolution}

/-- No two parameters of an operation share place and name, and each path parameter is required,
not repeated, and named by a variable of the operation's pattern. -/
theorem wireKeys_nodup_and_path_sound (h : m.resolve aliases options = .ok r) :
    ∀ o ∈ r.operations,
      (o.request.params.map fun p => (p.location, p.name)).Nodup ∧
      ∃ vars, PathPattern.vars o.pattern = .ok vars ∧
        ∀ p ∈ o.request.params, p.location = .path →
          p.required = true ∧ p.repeated = false ∧ p.name ∈ vars := by
  intro o ho
  obtain ⟨decl, plan, hres⟩ := resolves_of_mem h ho
  obtain ⟨route, hroute, hserves⟩ := hres.exists_route ho
  obtain ⟨-, -, hnodup⟩ := request_eq_ok hserves.requested
  refine ⟨hnodup, route.value.vars, hres.vars_of_serves hroute hserves, ?_⟩
  intro q hq hpath
  obtain ⟨b, hb, p, hp, hvars, hserved⟩ := hserves.exists_planned hq
  obtain ⟨hploc, rfl⟩ := hserved.of_path hpath
  obtain ⟨hsound, -⟩ := sound_of_plan hres.leavesBody hres.planned hb hp
  refine ⟨hsound.required hploc, hsound.not_repeated hploc, ?_⟩
  simpa [PlannedParam.isOnPattern, hploc] using hvars

/-- Two patterns with path parameters of their own, a field on the path and a header that feeds no
argument. -/
def renameItem : Method where
  name := "RenameItem"
  args := [⟨"ctx", "Context", .context⟩, ⟨"id", "string", .scalar⟩,
    ⟨"item", "Item", .composite [⟨"Owner", "string", .scalar, none⟩,
      ⟨"Labels", "[]string", .scalarSeq, none⟩, ⟨"Secret", "string", .scalar, some "-"⟩]⟩]
  returns := [⟨"title", "string", .scalar⟩]
  doc := ["//kun:op PUT /users/{owner}/items/{id}", "//kun:op GET /items/{id}",
    "//kun:param __ in=header name=id"]

theorem wireKeys_of_renameItem : ∃ r, renameItem.resolve .empty {} = .ok r ∧
    r.operations.map (·.pattern) = ["/users/{owner}/items/{id}", "/items/{id}"] ∧
    ∀ o ∈ r.operations,
      (o.request.params.map fun p => (p.location, p.name)).Nodup ∧
      ∃ vars, PathPattern.vars o.pattern = .ok vars ∧
        ∀ p ∈ o.request.params, p.location = .path →
          p.required = true ∧ p.repeated = false ∧ p.name ∈ vars := by
  obtain ⟨r, hr, hpatterns⟩ : ∃ r, renameItem.resolve .empty {} = .ok r ∧
      r.operations.map (·.pattern) = ["/users/{owner}/items/{id}", "/items/{id}"] :=
    exists_ok_of_map (by decide +kernel)
  exact ⟨r, hr, hpatterns, wireKeys_nodup_and_path_sound hr⟩

end Method

end Routespec
