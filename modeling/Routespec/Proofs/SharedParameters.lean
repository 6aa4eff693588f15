import Routespec.Proofs.BodyAgreement

/-!
# What the operations of a method share

The operations of a method differ in their path parameters and in the kind of their body, and in
nothing else that their requests hold. The reason is that leaving out the path parameters of other
patterns goes with everything else that is done to a plan, manipulations included: a binding that
is left out has nothing in the body that could be manipulated.
-/

namespace Routespec

/-- A parameter with what its binding says of it. -/
structure BoundParameter where
  argument : Argument
  manual : Bool
  blank : Bool
  param : Parameter
  deriving DecidableEq

/-- The parameter with the query string in place of the body. -/
def BoundParameter.bodyToQuery (p : BoundParameter) : BoundParameter :=
  if p.param.location = .body then { p with param := { p.param with location := .query } } else p

/-- The parameters of a binding that are not on the path. -/
def Binding.offPath (b : Binding) : List BoundParameter :=
  (b.params.filter (·.location ≠ .path)).map fun p => ⟨b.argument, b.manual, b.blank, p⟩

/-- The parameters of a request that are not on the path, in order. -/
def Request.offPath (req : Request) : List BoundParameter := req.bindings.flatMap (·.offPath)

/-- Both bodies are formed in the same way. -/
inductive RequestBody.SameKind : RequestBody → RequestBody → Prop
  | synthesized : SameKind .synthesized .synthesized
  | field (f g : String) : SameKind (.field f) (.field g)
  | none : SameKind .none .none

theorem RequestBody.SameKind.synthesized_iff {body body' : RequestBody} (h : body.SameKind body') :
    body = .synthesized ↔ body' = .synthesized := by
  cases h <;> simp

namespace PlannedBinding

variable {vars : List String} {b b' : PlannedBinding} {o : ParamOptions}

/-- The binding with options laid over whatever it has in the body. -/
def overlayBody (o : ParamOptions) (b : PlannedBinding) : PlannedBinding :=
  { b with params := b.params.map fun p => if p.inBody then p.overlay o else p }

theorem overlay_eq_overlayBody (h : b.overlay o = .ok b') :
    b' = b.overlayBody o ∧ b.params.any (·.inBody) = true := by
  unfold overlay at h
  split at h
  · exact absurd h fail_ne_ok
  · next hone =>
    refine ⟨(Except.ok.inj h).symm, ?_⟩
    obtain ⟨p, hp, hbody⟩ := List.countP_pos_iff.mp (by rw [hone]; exact Nat.one_pos)
    exact List.any_eq_true.mpr ⟨p, hp, hbody⟩
  · exact absurd h fail_ne_ok

theorem onPattern?_overlayBody : (b.overlayBody o).onPattern? vars =
    (b.onPattern? vars).map (overlayBody o) := by
  refine onPattern?_map (fun p => ?_) b
  by_cases hbody : p.inBody = true
  · rw [if_pos hbody]
    simp only [PlannedParam.inBody, decide_eq_true_eq] at hbody
    simp [PlannedParam.isOnPattern, PlannedParam.overlay, hbody]
  · rw [if_neg hbody]

/-- Leaving out path parameters takes nothing away from the body. -/
theorem any_inBody_of_onPattern? (h : b.onPattern? vars = some b') :
    b'.params.any (·.inBody) = b.params.any (·.inBody) := by
  rw [onPattern?_eq_some h, List.any_filter]
  refine List.any_congr rfl fun p => ?_
  by_cases hbody : p.param.location = .body
  · simp [PlannedParam.isOnPattern, hbody]
  · simp [PlannedParam.inBody, hbody]

theorem any_inBody_of_onPattern?_eq_none (h : b.onPattern? vars = none) :
    b.params.any (·.inBody) = false := by
  rw [List.any_eq_false]
  intro p hp hbody
  have hpath := ((onPattern?_eq_none.mp h).2 p hp).1
  simp [PlannedParam.inBody, hpath] at hbody

def offPath (b : PlannedBinding) : List BoundParameter :=
  (b.params.filter (·.param.location ≠ .path)).map fun p =>
    ⟨b.argument, b.manual, b.blank, p.param⟩

theorem offPath_settle : b.settle.offPath = b.offPath := by
  simp [Binding.offPath, settle, offPath, List.filter_map, Function.comp_def]

theorem offPath_of_onPattern? (h : b.onPattern? vars = some b') : b'.offPath = b.offPath := by
  rw [onPattern?_eq_some h, offPath, List.filter_filter, offPath]
  refine congrArg _ (List.filter_congr fun p _ => ?_)
  by_cases hpath : p.param.location = .path
  · simp [hpath]
  · simp [PlannedParam.isOnPattern, hpath]

theorem offPath_of_onPattern?_eq_none (h : b.onPattern? vars = none) : b.offPath = [] := by
  rw [offPath, List.map_eq_nil_iff, List.filter_eq_nil_iff]
  intro p hp
  simp [((onPattern?_eq_none.mp h).2 p hp).1]

/-- Where nothing is tied to the body, all that is in the body moves to the query string. -/
theorem offPath_inQuery (hfree : ∀ p ∈ b.params, p.param.location = .body → p.explicit = false) :
    offPath { b with params := b.params.map (·.inQuery) } = b.offPath.map (·.bodyToQuery) := by
  have hplace (p : PlannedParam) : p.inQuery.param.location = .path ↔ p.param.location = .path := by
    unfold PlannedParam.inQuery
    split <;> simp_all
  simp only [offPath, List.filter_map, List.map_map, Function.comp_def, ne_eq, hplace]
  refine List.map_congr_left fun p hp => ?_
  have hp : p ∈ b.params := List.mem_of_mem_filter hp
  by_cases hbody : p.param.location = .body
  · simp [PlannedParam.inQuery, BoundParameter.bodyToQuery, hbody, hfree p hp hbody]
  · simp [PlannedParam.inQuery, BoundParameter.bodyToQuery, hbody]

end PlannedBinding

namespace Plan

variable {vars : List String} {plan plan' : Plan}

def offPath (plan : Plan) : List BoundParameter := plan.flatMap (·.offPath)

/-- The plan with options laid over whatever an argument has in the body. -/
def overlayBody (plan : Plan) (m : BodyOverlay) : Plan :=
  match plan with
  | [] => []
  | b :: rest =>
    if b.feeds m.argument && b.params.any (·.inBody) then b.overlayBody m.options :: rest
    else b :: overlayBody rest m

theorem offPath_onPattern : (plan.onPattern vars).offPath = plan.offPath := by
  induction plan with
  | nil => rfl
  | cons b rest ih =>
    simp only [onPattern, offPath, List.flatMap_cons] at ih ⊢
    cases hb : b.onPattern? vars with
    | none =>
      rw [List.filterMap_cons_none hb, PlannedBinding.offPath_of_onPattern?_eq_none hb, ih]
      rfl
    | some b' =>
      rw [List.filterMap_cons_some hb, List.flatMap_cons,
        PlannedBinding.offPath_of_onPattern? hb, ih]

/-- A manipulation changes the same binding on every pattern: bindings that the pattern leaves out
are passed over, as they have nothing in the body. -/
theorem overlay_onPattern {m : BodyOverlay} (h : overlay m (plan.onPattern vars) = .ok plan') :
    plan' = (plan.overlayBody m).onPattern vars := by
  induction plan generalizing plan' with
  | nil => exact absurd h fail_ne_ok
  | cons b rest ih =>
    unfold onPattern at h ih ⊢
    rw [overlayBody]
    cases hb : b.onPattern? vars with
    | none =>
      rw [List.filterMap_cons_none hb] at h
      rw [PlannedBinding.any_inBody_of_onPattern?_eq_none hb, Bool.and_false,
        if_neg Bool.false_ne_true, List.filterMap_cons_none hb]
      exact ih h
    | some b' =>
      have hfeeds : b'.feeds m.argument = b.feeds m.argument := by
        rw [PlannedBinding.onPattern?_eq_some hb]
        rfl
      rw [List.filterMap_cons_some hb, overlay, hfeeds] at h
      by_cases hfed : b.feeds m.argument = true
      · rw [if_pos hfed] at h
        obtain ⟨_, hoverlay, rfl⟩ := map_eq_ok.mp h
        obtain ⟨rfl, hbody⟩ := PlannedBinding.overlay_eq_overlayBody hoverlay
        rw [PlannedBinding.any_inBody_of_onPattern? hb] at hbody
        rw [hfed, hbody, Bool.and_true, if_pos rfl, List.filterMap_cons_some]
        rw [PlannedBinding.onPattern?_overlayBody, hb, Option.map_some]
      · rw [if_neg hfed] at h
        obtain ⟨rest', hrest, rfl⟩ := map_eq_ok.mp h
        rw [if_neg (by simp [hfed]), List.filterMap_cons_some hb, ih hrest]

theorem overlayAll_onPattern {ms : List BodyOverlay}
    (h : (plan.onPattern vars).overlayAll ms = .ok plan') :
    plan' = (ms.foldl overlayBody plan).onPattern vars := by
  unfold overlayAll at h
  induction ms generalizing plan with
  | nil => exact (pure_eq_ok.mp h).symm
  | cons m ms ih =>
    obtain ⟨plan₁, hone, hrest⟩ := foldlM_cons_eq_ok.mp h
    obtain rfl := overlay_onPattern hone
    exact ih hrest

end Plan

namespace Method

variable {m : Method} {aliases : AliasTable} {options : ResolveOptions} {r : MethodResolution}
  {decl : Declarations} {plan : Plan} {route : Declared Route} {o : Operation}

/-- A request has off the path what the plan has there, moved out of the body and manipulated, on
whatever pattern. -/
theorem offPath_of_request {req : Request} (h : m.request decl plan route = .ok req) :
    req.offPath =
      (decl.overlays.foldl Plan.overlayBody (plan.map (·.movedFor req.body))).offPath := by
  obtain ⟨-, plan', hplan', -, rfl⟩ := request_cases.mp h
  obtain rfl := Plan.overlayAll_onPattern (overlayAll_of_overlaid hplan').1
  rw [Request.offPath, List.flatMap_map]
  simp only [PlannedBinding.offPath_settle]
  exact Plan.offPath_onPattern

theorem overlays_eq_nil {req : Request} (h : m.request decl plan route = .ok req)
    (hbody : req.body ≠ .synthesized) : decl.overlays = [] := by
  obtain ⟨-, plan', hplan', -, rfl⟩ := request_cases.mp h
  exact (overlayAll_of_overlaid hplan').2 hbody

theorem movedFor_congr {body body' : RequestBody}
    (h : body = .synthesized ↔ body' = .synthesized) (b : PlannedBinding) :
    b.movedFor body = b.movedFor body' := by
  simp only [PlannedBinding.movedFor, PlannedParam.movedFor, h]

namespace Resolves

variable (h : m.Resolves aliases options decl plan r)

include h

/-- All operations have the response, the tags and the description of their method. -/
theorem exists_shared : ∃ success description, ∀ o ∈ r.operations,
    o.success = success ∧ o.tags = decl.tags ∧ o.description = description := by
  obtain ⟨success, description, -, hserved⟩ := h.served
  exact ⟨success, description, shared_of_operations hserved⟩

theorem free_of_synthesized (ho : m.Serves decl plan route o)
    (hbody : o.request.body = .synthesized) {b : PlannedBinding} (hb : b ∈ plan) :
    ∀ p ∈ b.params, p.param.location = .body → p.explicit = false := by
  intro p hp hloc
  by_contra hexplicit
  obtain ⟨arg, hwhole, -⟩ := wholeBinding_of_explicit h.leavesBody h.planned hb hp
    (by simpa using hexplicit) hloc
  obtain ⟨hkind, -, -⟩ := request_eq_ok ho.requested
  rw [requestBody_eq_field.mpr hwhole, hbody] at hkind
  cases hkind

end Resolves

/-- Operations of one method whose bodies are formed in the same way have the same parameters off
the path; where one has a synthesized body and another one none, those in the body are in the query
string instead. Response, tags and description are the same throughout. -/
theorem parameters_shared (h : m.resolve aliases options = .ok r) :
    ∀ a ∈ r.operations, ∀ b ∈ r.operations,
      (a.request.body.SameKind b.request.body → b.request.offPath = a.request.offPath) ∧
      (a.request.body = .synthesized → b.request.body = .none →
        b.request.offPath = a.request.offPath.map (·.bodyToQuery)) ∧
      b.success = a.success ∧ b.tags = a.tags ∧ b.description = a.description := by
  intro a ha b hb
  obtain ⟨decl, plan, hres⟩ := resolves_of_mem h ha
  obtain ⟨routeA, -, hservesA⟩ := hres.exists_route ha
  obtain ⟨routeB, -, hservesB⟩ := hres.exists_route hb
  have hoffA := offPath_of_request hservesA.requested
  have hoffB := offPath_of_request hservesB.requested
  refine ⟨fun hkind => ?_, fun hsynthesized hnone => ?_, ?_⟩
  · rw [hoffA, hoffB]
    simp only [movedFor_congr hkind.synthesized_iff]
  · have hne : b.request.body ≠ .synthesized := by simp [hnone]
    have hoverlays := overlays_eq_nil hservesB.requested hne
    rw [hoverlays] at hoffA hoffB
    have hmovedA : plan.map (·.movedFor a.request.body) = plan := by
      simp [PlannedBinding.movedFor, PlannedParam.movedFor, hsynthesized]
    rw [hoffA, hoffB, List.foldl_nil, List.foldl_nil, hmovedA, Plan.offPath, Plan.offPath,
      List.flatMap_map, List.map_flatMap]
    refine List.flatMap_congr fun p hp => ?_
    rw [← PlannedBinding.offPath_inQuery (hres.free_of_synthesized hservesA hsynthesized hp)]
    simp [PlannedBinding.movedFor, PlannedParam.movedFor, hne]
  · obtain ⟨success, description, hshared⟩ := hres.exists_shared
    obtain ⟨hsuccess, htags, hdescription⟩ := hshared a ha
    obtain ⟨hsuccess', htags', hdescription'⟩ := hshared b hb
    exact ⟨hsuccess'.trans hsuccess.symm, htags'.trans htags.symm,
      hdescription'.trans hdescription.symm⟩

/-- Two patterns with a body that is synthesized, and one without a body. -/
def addItem : Method where
  name := "AddItem"
  args := [⟨"owner", "string", .scalar⟩,
    ⟨"item", "Item", .composite [⟨"Title", "string", .scalar, none⟩,
      ⟨"Labels", "[]string", .scalarSeq, some ""⟩]⟩]
  returns := [⟨"id", "string", .scalar⟩]
  doc := ["//kun:op POST /users/{owner}/items", "//kun:op PUT /items/{title}",
    "//kun:op GET /items/new", "//kun:param __ in=header name=trace"]

theorem parameters_shared_of_addItem : ∃ r, addItem.resolve .empty {} = .ok r ∧
    r.operations.map (fun o => (o.request.body, o.request.offPath.map (·.param.key))) =
      [(.synthesized, [(.body, "labels"), (.header, "trace")]),
        (.synthesized, [(.body, "labels"), (.header, "trace")]),
        (.none, [(.query, "labels"), (.header, "trace")])] ∧
    ∀ a ∈ r.operations, ∀ b ∈ r.operations,
      (a.request.body.SameKind b.request.body → b.request.offPath = a.request.offPath) ∧
      (a.request.body = .synthesized → b.request.body = .none →
        b.request.offPath = a.request.offPath.map (·.bodyToQuery)) ∧
      b.success = a.success ∧ b.tags = a.tags ∧ b.description = a.description := by
  obtain ⟨r, hr, hparams⟩ : ∃ r, addItem.resolve .empty {} = .ok r ∧
      r.operations.map (fun o => (o.request.body, o.request.offPath.map (·.param.key))) =
        [(.synthesized, [(.body, "labels"), (.header, "trace")]),
          (.synthesized, [(.body, "labels"), (.header, "trace")]),
          (.none, [(.query, "labels"), (.header, "trace")])] :=
    exists_ok_of_map (by decide +kernel)
  exact ⟨r, hr, hparams, parameters_shared hr⟩

end Method

end Routespec
