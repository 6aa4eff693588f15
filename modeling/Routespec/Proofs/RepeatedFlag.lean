import Routespec.Proofs.CarriedShapes

/-!
# Repeated parameters

Which parameters are marked as repeated. Every way of making a parameter but one marks it if its
value is a sequence of scalars, and nothing that happens to it later changes the mark or the kind
of its value. The exception is an argument that is the whole body, whose parameter is never marked.
-/

namespace Routespec

/-- The parameter is marked as repeated exactly if it carries a sequence of scalars. -/
def PlannedParam.MarksRepetition (p : PlannedParam) : Prop :=
  p.param.repeated = true ↔ p.shape = .scalarSeq

/-- The parameters of the binding are marked, except where the body was asked for. -/
def PlannedBinding.MarksRepetition (b : PlannedBinding) : Prop :=
  ∀ p ∈ b.params, (p.explicit = true → p.param.location ≠ .body) → p.MarksRepetition

/-- The argument of the binding is the whole body of the request. -/
def Request.IsBody (request : Request) (b : Binding) : Prop :=
  b.blank = false ∧ request.body = .field b.argument.name

namespace Inference

variable {inf : Inference} {arg : Argument}

theorem param_marks {source ty : String} {shape : Shape} {o : ParamOptions} {p : PlannedParam}
    (h : inf.param source ty shape o = .ok p) : p.MarksRepetition := by
  obtain ⟨_, -, rfl⟩ := map_eq_ok.mp h
  exact Shape.isRepeated_iff

theorem fieldParams_marks {group : ParamOptions} {fields : List Field} {params : List PlannedParam}
    (h : inf.fieldParams arg fields group = .ok params) : ∀ p ∈ params, p.MarksRepetition := by
  intro p hp
  obtain ⟨field, -, hfield⟩ := mem_fieldParams h hp
  rcases fieldParam_eq_ok hfield with ⟨-, hnone⟩ | ⟨-, p₀, -, hp₀, heq⟩
  · cases hnone
  · obtain rfl := Option.some.inj heq
    show p₀.MarksRepetition
    exact param_marks hp₀

theorem implied_marks {b : PlannedBinding} (h : inf.implied arg = .ok (some b)) :
    ∀ p ∈ b.params, p.MarksRepetition := by
  obtain ⟨-, hnone⟩ | ⟨fields, params, -, hparams, hb⟩ | ⟨-, p, hp, hb⟩ := implied_cases h
  · cases hnone
  · obtain rfl := Option.some.inj hb
    exact fieldParams_marks hparams
  · obtain rfl := Option.some.inj hb
    simpa using param_marks hp

theorem requested_marks {groups : List ParamOptions} {b : PlannedBinding}
    (h : inf.requested arg groups = .ok b) : ∀ p ∈ b.params, p.MarksRepetition := by
  obtain ⟨params, hparams, rfl⟩ := map_eq_ok.mp h
  obtain ⟨fields, -, hparams⟩ | ⟨-, -, hparams⟩ := requestedParams_cases hparams
  · exact fieldParams_marks hparams
  · intro p hp
    obtain ⟨group, -, hgroup⟩ := forall₂_mem_right (mapM_eq_ok.mp hparams) hp
    exact param_marks (groupParam_eq_ok hgroup)

theorem blank_marks {groups : List ParamOptions} {b : PlannedBinding}
    (h : inf.blank groups = .ok b) : ∀ p ∈ b.params, p.MarksRepetition := by
  obtain ⟨params, hparams, rfl⟩ := blank_eq_ok h
  intro p hp
  obtain ⟨group, -, hgroup⟩ := forall₂_mem_right hparams hp
  obtain ⟨name, -, -, hp⟩ := blankParam_eq_ok hgroup
  exact param_marks hp

/-- Every way of making a binding but that of the whole body marks what is repeated. -/
theorem Makes.marksRepetition {b : PlannedBinding} (h : inf.Makes b) : b.MarksRepetition := by
  cases h with
  | implied h => exact fun p hp _ => implied_marks h p hp
  | requested h => exact fun p hp _ => requested_marks h p hp
  | blank h => exact fun p hp _ => blank_marks h p hp
  | wholeBody h =>
    obtain ⟨-, rfl⟩ := wholeBody_eq_ok.mp h
    intro p hp hplace
    obtain rfl := List.mem_singleton.mp hp
    exact absurd rfl (hplace rfl)

end Inference

/-- What comes to be read from a variable is a scalar, and is not marked. -/
theorem PlannedBinding.MarksRepetition.readBy {v : String} {b b' : PlannedBinding}
    (h : b.MarksRepetition) (hread : b.ReadBy v b') : b'.MarksRepetition := by
  intro p hp hplace
  cases hread with
  | argument hblank hshape hpath =>
    obtain rfl := List.mem_singleton.mp hp
    show (false = true) ↔ b.argument.shape = .scalarSeq
    simp [hshape]
  | @field i q hblank hq hname hfield hshape hexplicit =>
    rcases List.mem_or_eq_of_mem_set hp with hp | rfl
    · exact h p hp hplace
    · have hmarks : q.MarksRepetition :=
        h q (List.mem_of_getElem? hq) fun hasked => by simp [hexplicit] at hasked
      exact hmarks

namespace Method

variable {m : Method} {aliases : AliasTable} {options : ResolveOptions} {r : MethodResolution}
  {decl : Declarations} {plan : Plan}

/-- In the plan of a method, a parameter is marked exactly if it carries a sequence of scalars that
is not the whole body. -/
theorem Resolves.repeated_iff (h : m.Resolves aliases options decl plan r) {b : PlannedBinding}
    (hb : b ∈ plan) {p : PlannedParam} (hp : p ∈ b.params) :
    p.param.repeated = true ↔
      p.shape = .scalarSeq ∧ ¬ (b.blank = false ∧ decl.IsWholeBody b.argument.name) := by
  have hmarks : b.MarksRepetition :=
    forall_mem_plan (fun _ hb => hb.marksRepetition) (fun _ _ _ hb hread => hb.readBy hread)
      h.planned b hb
  rcases mem_plan_cases h.leavesBody h.planned hb with ⟨arg, hplans⟩ | ⟨groups, hblank⟩
  · cases hplans with
    | whole hwhole =>
      obtain rfl := List.mem_singleton.mp hp
      simp [Inference.wholeBinding, Parameter.plain, hwhole]
    | planned hwhole hb =>
      rw [hb.argument]
      simp only [hwhole, and_false, not_false_eq_true, and_true]
      exact hmarks p hp (hb.placed p hp)
  · simp only [hblank.blank, Bool.true_eq_false, false_and, not_false_eq_true, and_true]
    exact hmarks p hp (hblank.inferred p hp).explicit_iff.mp

/-- A parameter of an operation is marked as repeated exactly if it carries a sequence of scalars
that is not the whole body. The mark tells of every other parameter, whichever way it was asked
for, whether it carries a sequence of scalars. -/
theorem repeated_iff_scalarSeq_not_body (h : m.resolve aliases options = .ok r) :
    ∀ o ∈ r.operations, ∀ b ∈ o.request.bindings, ∃ shapes, b.CarriesShapes shapes ∧
      List.Forall₂ (fun p shape => p.repeated = true ↔
        shape = .scalarSeq ∧ ¬ o.request.IsBody b) b.params shapes := by
  intro o ho b hb
  obtain ⟨decl, plan, hres⟩ := resolves_of_mem h ho
  obtain ⟨route, -, hserves⟩ := hres.exists_route ho
  obtain ⟨b₀, hb₀, hserved⟩ := hserves.exists_planned_binding hb
  obtain ⟨hbody, -, -⟩ := request_eq_ok hserves.requested
  refine hres.exists_shapes hb₀ (fun p hp q hpq => ?_) hserved
  have hwhole : o.request.IsBody b ↔ b₀.blank = false ∧ decl.IsWholeBody b₀.argument.name := by
    rw [Request.IsBody, hserved.blank, hserved.argument, hbody, requestBody_eq_field]
  rw [hpq.repeated, hwhole]
  exact hres.repeated_iff hb₀ hp

/-- Sequences of scalars of several origins, one of them the whole body. -/
def tagItems : Method where
  name := "TagItems"
  args := [⟨"ctx", "Context", .context⟩, ⟨"tags", "[]string", .scalarSeq⟩,
    ⟨"ids", "[]int", .scalarSeq⟩,
    ⟨"filter", "Filter", .composite [⟨"Owner", "string", .scalar, none⟩,
      ⟨"States", "[]string", .scalarSeq, some "in=header"⟩]⟩]
  returns := []
  doc := ["//kun:op POST /owners/{owner}/items", "//kun:body tags", "//kun:param ids in=query",
    "//kun:param __ in=header name=trace", "//kun:success statusCode=204"]

theorem repeated_iff_scalarSeq_not_body_of_tagItems : ∃ r, tagItems.resolve .empty {} = .ok r ∧
    r.operations.map (fun o => o.request.params.map fun p => (p.key, p.repeated)) =
      [[((.body, "tags"), false), ((.query, "ids"), true), ((.path, "owner"), false),
        ((.header, "states"), true), ((.header, "trace"), false)]] ∧
    ∀ o ∈ r.operations, ∀ b ∈ o.request.bindings, ∃ shapes, b.CarriesShapes shapes ∧
      List.Forall₂ (fun p shape => p.repeated = true ↔
        shape = .scalarSeq ∧ ¬ o.request.IsBody b) b.params shapes := by
  obtain ⟨r, hr, hmarks⟩ : ∃ r, tagItems.resolve .empty {} = .ok r ∧
      r.operations.map (fun o => o.request.params.map fun p => (p.key, p.repeated)) =
        [[((.body, "tags"), false), ((.query, "ids"), true), ((.path, "owner"), false),
          ((.header, "states"), true), ((.header, "trace"), false)]] :=
    exists_ok_of_map (by decide +kernel)
  exact ⟨r, hr, hmarks, repeated_iff_scalarSeq_not_body hr⟩

/-- A method whose one argument, a sequence of scalars, is the whole body. -/
def setTags : Method where
  name := "SetTags"
  args := [⟨"tags", "[]string", .scalarSeq⟩]
  returns := []
  doc := ["//kun:op POST /items", "//kun:body tags", "//kun:success statusCode=204"]

/-- The mark does not tell of every parameter whether it carries a sequence of scalars: it is
missing where the sequence is the whole body. -/
theorem body_sequence_unmarked : ¬ ∀ (m : Method) (aliases : AliasTable) (options : ResolveOptions)
    (r : MethodResolution), m.resolve aliases options = .ok r →
    ∀ o ∈ r.operations, ∀ b ∈ o.request.bindings, ∃ shapes, b.CarriesShapes shapes ∧
      List.Forall₂ (fun p shape => p.repeated = true ↔ shape = .scalarSeq) b.params shapes := by
  intro h
  obtain ⟨r, hr, hbindings⟩ : ∃ r, setTags.resolve .empty {} = .ok r ∧
      r.operations.map (·.request.bindings) =
        [[⟨⟨"tags", "[]string", .scalarSeq⟩,
          [⟨.body, "tags", "[]string", false, false, "", none⟩], true, false⟩]] :=
    exists_ok_of_map (by decide +kernel)
  obtain ⟨o, ho, hb⟩ := List.map_eq_singleton_iff.mp hbindings
  have ho : o ∈ r.operations := ho ▸ List.mem_cons_self
  obtain ⟨shapes, hshapes, htold⟩ := h setTags .empty {} r hr o ho _ (hb ▸ List.mem_cons_self)
  cases hshapes with
  | blank hblank => cases hblank
  | whole => simp at htold
  | fields _ hshape => cases hshape

end Method

end Routespec
