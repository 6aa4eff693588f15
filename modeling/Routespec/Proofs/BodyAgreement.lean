import Mathlib.Data.List.Flatten
import Routespec.Proofs.Request
import Routespec.Proofs.SharedPlan

/-!
# Bodies and the parameters in them

What the kind of an operation's body says of its parameters and of its HTTP method. Only a
synthesized body has parameters that nothing asked for; the one parameter that may be tied to the
body is that of the argument which is the whole body.
-/

namespace Routespec

section Lists

variable {α β : Type}

/-- A list without repetitions whose elements all look like one of them holds nothing else. -/
theorem eq_singleton_of_nodup_map {f : α → β} {k : β} {xs : List α} {x : α} (hx : x ∈ xs)
    (hnodup : (xs.map f).Nodup) (hconst : ∀ y ∈ xs, f y = k) : xs = [x] := by
  match xs, hx with
  | [y], hx => rw [List.mem_singleton.mp hx]
  | y :: z :: rest, _ =>
    have hyz : f y = f z := (hconst y (by simp)).trans (hconst z (by simp)).symm
    simp [hyz] at hnodup

/-- A list holds nothing else than one element if all its elements together contribute one. -/
theorem eq_singleton_of_flatMap {f : α → List β} {xs : List α} {x : α} {y : β} (hx : x ∈ xs)
    (hne : ∀ z ∈ xs, f z ≠ []) (h : (xs.flatMap f).Sublist [y]) : xs = [x] := by
  match xs, hx with
  | [z], hx => rw [List.mem_singleton.mp hx]
  | z :: z' :: rest, _ =>
    have hz : 0 < (f z).length := List.length_pos_of_ne_nil (hne z (by simp))
    have hz' : 0 < (f z').length := List.length_pos_of_ne_nil (hne z' (by simp))
    have hlength := h.length_le
    simp only [List.flatMap_cons, List.length_append, List.length_singleton] at hlength
    omega

end Lists

/-- The kind of the operation's body agrees with its parameters and with the HTTP methods of all
operations of its method. -/
structure Operation.BodyAgrees (operations : List Operation) (o : Operation) : Prop where
  /-- Nothing is in an absent body. -/
  absent : o.request.body = .none → ∀ p ∈ o.request.params, p.location ≠ .body
  /-- A whole body is carried by every operation. -/
  carried : ∀ f, o.request.body = .field f → ∀ o' ∈ operations, o'.httpMethod.carriesBody = true
  /-- A whole body is the one parameter of the one binding of its argument, and nothing else is in
  the body. -/
  whole : ∀ f, o.request.body = .field f →
    ∃ b p, o.request.bindings.filter (fun b => !b.blank && b.argument.name = f) = [b] ∧
      b.params = [p] ∧ o.request.paramsIn .body = [p]
  synthesized : o.request.body = .synthesized → o.httpMethod ∈ [.post, .put, .patch]
  uncarried : o.httpMethod.carriesBody = false → o.request.body = .none

theorem HttpMethod.carriesBody_iff {method : HttpMethod} :
    method.carriesBody = true ↔ method ∈ [.post, .put, .patch] := by
  cases method <;> decide

theorem Request.paramsIn_eq (req : Request) (l : Location) :
    req.paramsIn l = req.params.filter (·.location = l) := by
  rw [params, List.filter_flatMap]
  rfl

theorem Declarations.IsWholeBody.unique {decl : Declarations} {a b : String}
    (ha : decl.IsWholeBody a) (hb : decl.IsWholeBody b) : a = b := by
  obtain ⟨raw, ha⟩ := ha
  obtain ⟨raw', hb⟩ := hb
  have heq : some (⟨a, raw⟩ : Declared String) = some ⟨b, raw'⟩ := ha.symm.trans hb
  simp only [Option.some.injEq, Declared.mk.injEq] at heq
  exact heq.1

/-- A whole body is an argument of the method, and every route carries it. -/
theorem Declarations.IsWholeBody.carried {m : Method} {decl : Declarations} {f : String}
    (hwhole : decl.IsWholeBody f) (h : decl.checkWholeBody m = .ok ()) :
    (∃ arg ∈ m.args, arg.name = f) ∧ ∀ route ∈ decl.routes, route.value.method.carriesBody := by
  obtain ⟨raw, hwhole⟩ := hwhole
  obtain ⟨⟨arg, harg⟩, -, hcarried⟩ := Declarations.checkWholeBody_eq_ok.mp h f raw hwhole
  exact ⟨⟨arg, List.mem_of_find?_eq_some harg, by simpa using List.find?_some harg⟩, hcarried⟩

namespace Method

variable {m : Method} {aliases : AliasTable} {options : ResolveOptions} {r : MethodResolution}
  {decl : Declarations} {plan : Plan} {route : Declared Route} {o : Operation}

/-- A body is only synthesized where the HTTP method carries it. -/
theorem carriesBody_of_synthesized {route : Route} (h : requestBody decl route = .synthesized) :
    route.method.carriesBody = true := by
  unfold requestBody at h
  split at h
  · cases h
  · cases h
  all_goals
    by_contra hcarries
    rw [if_neg hcarries] at h
    cases h

/-- The argument that is the whole body takes part in requests. -/
theorem included_of_wholeBody (h : m.plan decl options = .ok plan) {arg : Argument}
    (harg : arg ∈ m.args) (hwhole : decl.IsWholeBody arg.name) : arg ∈ m.eligible := by
  obtain ⟨bs, hbs, -⟩ := bind_eq_ok.mp h
  obtain ⟨fed, hfed, -⟩ := bind_eq_ok.mp hbs
  obtain ⟨b?, -, hb⟩ := forall₂_mem_left (mapM_eq_ok.mp hfed) harg
  obtain ⟨raw, hraw⟩ := hwhole
  simp only [bindArgument, hraw, Option.filter_some, decide_true, if_true] at hb
  obtain ⟨b, hb, -⟩ := map_eq_ok.mp hb
  obtain ⟨hincluded, -⟩ := Inference.wholeBody_eq_ok.mp (at_eq_ok.mp hb)
  exact List.mem_filter.mpr ⟨harg, by simp [hincluded]⟩

/-- What a plan ties to the body is the parameter of an argument that is the whole body. -/
theorem wholeBinding_of_explicit (hclauses : ∀ c ∈ decl.clauses, c.value.LeavesBody)
    (h : m.plan decl options = .ok plan) {b : PlannedBinding} (hb : b ∈ plan) {p : PlannedParam}
    (hp : p ∈ b.params) (hexplicit : p.explicit = true) (hbody : p.param.location = .body) :
    ∃ arg, decl.IsWholeBody arg.name ∧ b = (inference decl options).wholeBinding arg := by
  rcases mem_plan_cases hclauses h hb with ⟨arg, hplans⟩ | ⟨groups, hplanned⟩
  · cases hplans with
    | whole hwhole hincluded => exact ⟨arg, hwhole, rfl⟩
    | planned hwhole hplanned => exact absurd hbody (hplanned.placed p hp hexplicit)
  · exact absurd hbody ((hplanned.inferred p hp).explicit_iff.mp hexplicit)

namespace Resolves

variable (h : m.Resolves aliases options decl plan r)

include h

/-- Where no body is synthesized, the body holds the argument that is the whole body at most. -/
theorem param_in_body (ho : m.Serves decl plan route o) (hbody : o.request.body ≠ .synthesized)
    {q : Parameter} (hq : q ∈ o.request.params) (hloc : q.location = .body) :
    ∃ f, decl.IsWholeBody f ∧ q.key = (.body, options.naming.apply f) := by
  obtain ⟨b, hb, p, hp, -, hserved⟩ := ho.exists_planned hq
  have hmoved : (p.movedFor o.request.body).param.location = .body := hserved.location ▸ hloc
  rw [PlannedParam.movedFor, if_neg hbody] at hmoved
  have hexplicit : p.explicit = true := by
    by_contra hfree
    exact PlannedParam.inQuery_location_ne_body (by simpa using hfree) hmoved
  rw [PlannedParam.inQuery_of_explicit hexplicit] at hmoved
  obtain ⟨arg, hwhole, rfl⟩ :=
    wholeBinding_of_explicit h.leavesBody h.planned hb hp hexplicit hmoved
  refine ⟨arg.name, hwhole, ?_⟩
  obtain rfl := List.mem_singleton.mp hp
  rw [hserved.same (.inl hbody), PlannedParam.movedFor_of_explicit rfl]
  rfl

/-- An argument that is the whole body has one parameter in every request, in the body. -/
theorem params_of_wholeBody {f : String} (hwhole : decl.IsWholeBody f)
    (ho : m.Serves decl plan route o) {b : Binding} (hb : b ∈ o.request.bindings)
    (hfeeds : b.blank = false ∧ b.argument.name = f) :
    ∃ p, b.params = [p] ∧ p.location = .body := by
  obtain ⟨-, hserved, -⟩ := request_eq_ok ho.requested
  obtain ⟨b', hb', hbound⟩ := forall₂_mem_right hserved hb
  obtain ⟨b₀, hb₀, hkept⟩ := List.mem_filterMap.mp hb'
  obtain rfl := PlannedBinding.onPattern?_eq_some hkept
  rcases mem_plan_cases h.leavesBody h.planned hb₀ with ⟨arg, hplans⟩ | ⟨groups, hplanned⟩
  · cases hplans with
    | whole _ hincluded =>
      have hparams := hbound.params
      simp only [Inference.wholeBinding, Parameter.plain, PlannedParam.isOnPattern] at hparams
      obtain ⟨p, rest, hp, hrest, hp'⟩ := List.forall₂_cons_left_iff.mp hparams
      rw [List.forall₂_nil_left_iff.mp hrest] at hp'
      refine ⟨p, hp', ?_⟩
      rw [hp.location, PlannedParam.movedFor_of_explicit rfl]
    | planned hother hplanned =>
      have harg : b.argument = arg := hbound.argument.trans hplanned.argument
      rw [← harg, hfeeds.2] at hother
      exact absurd hwhole hother
  · have hnot : b.blank = true := hbound.blank.trans hplanned.blank
    rw [hfeeds.1] at hnot
    cases hnot

/-- The argument that is the whole body has a binding in every request. -/
theorem exists_binding_of_wholeBody {f : String} (hwhole : decl.IsWholeBody f)
    (ho : m.Serves decl plan route o) :
    ∃ b ∈ o.request.bindings, b.blank = false ∧ b.argument.name = f := by
  obtain ⟨⟨arg, harg, rfl⟩, -⟩ := hwhole.carried h.wholeBody
  have harg := included_of_wholeBody h.planned harg hwhole
  obtain ⟨fed, blank, rfl, hfed, -⟩ := plan_eq_ok h.leavesBody h.planned
  obtain ⟨b₀, hb₀, hplans⟩ := forall₂_mem_left hfed harg
  cases hplans with
  | planned hother => exact absurd hwhole hother
  | whole _ hincluded =>
    have hkept : ((inference decl options).wholeBinding arg).onPattern? route.value.vars =
        some ((inference decl options).wholeBinding arg) := by
      simp [PlannedBinding.onPattern?_eq, Inference.wholeBinding, Parameter.plain,
        PlannedParam.isOnPattern]
    obtain ⟨-, hserved, -⟩ := request_eq_ok ho.requested
    obtain ⟨b, hb, hserved⟩ := forall₂_mem_left hserved
      (List.mem_filterMap.mpr ⟨_, List.mem_append_left blank hb₀, hkept⟩)
    exact ⟨b, hb, hserved.blank, by rw [hserved.argument]; rfl⟩

theorem carriesBody_of_wholeBody {f : String} (hwhole : decl.IsWholeBody f)
    (ho : o ∈ r.operations) : o.httpMethod.carriesBody = true := by
  obtain ⟨route, hroute, hserves⟩ := h.exists_route ho
  rw [hserves.httpMethod]
  exact (hwhole.carried h.wholeBody).2 route hroute

/-- A whole body is all there is in the body, and the only thing its argument is read from. -/
theorem field_agrees {f : String} (ho : m.Serves decl plan route o)
    (hfield : o.request.body = .field f) :
    ∃ b p, o.request.bindings.filter (fun b => !b.blank && b.argument.name = f) = [b] ∧
      b.params = [p] ∧ o.request.paramsIn .body = [p] := by
  obtain ⟨hbody, -, hnodup⟩ := request_eq_ok ho.requested
  have hwhole : decl.IsWholeBody f := requestBody_eq_field.mp (hbody.symm.trans hfield)
  obtain ⟨b, hb, hfeeds⟩ := h.exists_binding_of_wholeBody hwhole ho
  obtain ⟨p, hp, hloc⟩ := h.params_of_wholeBody hwhole ho hb hfeeds
  -- all parameters in the body have one key, and no two parameters share theirs
  have hparams : o.request.paramsIn .body = [p] := by
    rw [Request.paramsIn_eq]
    refine eq_singleton_of_nodup_map (f := Parameter.key)
      (k := (.body, options.naming.apply f)) ?_ ?_ ?_
    · have hp : p ∈ o.request.params := List.mem_flatMap.mpr ⟨b, hb, by simp [hp]⟩
      exact List.mem_filter.mpr ⟨hp, by simp [hloc]⟩
    · exact hnodup.sublist (List.filter_sublist.map _)
    · intro q hq
      rw [List.mem_filter, decide_eq_true_eq] at hq
      obtain ⟨f', hwhole', hkey⟩ := h.param_in_body ho (by simp [hfield]) hq.1 hq.2
      rw [hkey, hwhole.unique hwhole']
  refine ⟨b, p, ?_, hp, hparams⟩
  refine eq_singleton_of_flatMap (f := (·.paramsIn .body)) (y := p) ?_ ?_ ?_
  · exact List.mem_filter.mpr ⟨hb, by simp [hfeeds]⟩
  · intro b' hb'
    simp only [List.mem_filter, Bool.and_eq_true, Bool.not_eq_true', decide_eq_true_eq] at hb'
    obtain ⟨p', hp', hloc'⟩ := h.params_of_wholeBody hwhole ho hb'.1 hb'.2
    simp [Binding.paramsIn, hp', hloc']
  · rw [← hparams]
    exact List.filter_sublist.flatMap _

end Resolves

/-- Body, parameters and HTTP methods agree, whatever a method's directives ask for. -/
theorem body_agrees (h : m.resolve aliases options = .ok r) :
    ∀ o ∈ r.operations, o.BodyAgrees r.operations := by
  intro o ho
  obtain ⟨decl, plan, hres⟩ := resolves_of_mem h ho
  obtain ⟨route, hroute, hserves⟩ := hres.exists_route ho
  obtain ⟨hbody, -, -⟩ := request_eq_ok hserves.requested
  have hwhole {f : String} (hfield : o.request.body = .field f) : decl.IsWholeBody f :=
    requestBody_eq_field.mp (hbody.symm.trans hfield)
  refine ⟨?_, ?_, ?_, ?_, ?_⟩
  · intro hnone q hq hloc
    obtain ⟨f, hwhole, -⟩ := hres.param_in_body hserves (by simp [hnone]) hq hloc
    have hfield : o.request.body = .field f := hbody.trans (requestBody_eq_field.mpr hwhole)
    simp [hnone] at hfield
  · intro f hfield o' ho'
    exact hres.carriesBody_of_wholeBody (hwhole hfield) ho'
  · intro f hfield
    exact hres.field_agrees hserves hfield
  · intro hsynthesized
    have hmethod := carriesBody_of_synthesized (hbody.symm.trans hsynthesized)
    rw [← hserves.httpMethod] at hmethod
    exact HttpMethod.carriesBody_iff.mp hmethod
  · intro hmethod
    cases hkind : o.request.body with
    | none => rfl
    | field f =>
      have hcarries := hres.carriesBody_of_wholeBody (hwhole hkind) ho
      rw [hmethod] at hcarries
      cases hcarries
    | synthesized =>
      have hcarries := carriesBody_of_synthesized (hbody.symm.trans hkind)
      rw [← hserves.httpMethod, hmethod] at hcarries
      cases hcarries

/-- An argument that is the whole body on two patterns, one of which has a path parameter. -/
def saveItem : Method where
  name := "SaveItem"
  args := [⟨"ctx", "Context", .context⟩, ⟨"id", "string", .scalar⟩,
    ⟨"item", "Item", .composite [⟨"Title", "string", .scalar, none⟩]⟩,
    ⟨"labels", "[]string", .scalarSeq⟩]
  returns := [⟨"revision", "string", .scalar⟩]
  doc := ["//kun:op PUT /items/{id}", "//kun:op POST /items", "//kun:body item",
    "//kun:param __ name=trace"]

theorem body_agrees_of_saveItem : ∃ r, saveItem.resolve .empty {} = .ok r ∧
    r.operations.map (·.request.body) = [.field "item", .field "item"] ∧
    ∀ o ∈ r.operations, o.BodyAgrees r.operations := by
  obtain ⟨r, hr, hbodies⟩ : ∃ r, saveItem.resolve .empty {} = .ok r ∧
      r.operations.map (·.request.body) = [.field "item", .field "item"] :=
    exists_ok_of_map (by decide +kernel)
  exact ⟨r, hr, hbodies, body_agrees hr⟩

end Method

end Routespec
