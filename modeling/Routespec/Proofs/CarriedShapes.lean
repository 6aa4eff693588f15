import Routespec.Proofs.Coverage

/-!
# Shapes and places

What a parameter carries and where it is read from: single scalars on the path, scalars and
sequences of them wherever there is no body, anything else in the body alone, and context and errors
nowhere. The reason is that each way of making a parameter checks the value it carries against its
place, and so does each step that gives it another place.
-/

namespace Routespec

/-- What starts out as related to a list stays related to a part of it when elements are left
out. -/
theorem exists_sublist_of_forall₂ {α β : Type} {R : α → β → Prop} {xs : List α} {ys zs : List β}
    (h : List.Forall₂ R xs ys) (hsub : zs.Sublist ys) :
    ∃ ws, ws.Sublist xs ∧ List.Forall₂ R ws zs := by
  induction hsub generalizing xs with
  | slnil => exact ⟨[], List.nil_sublist xs, .nil⟩
  | cons y _ ih =>
    obtain ⟨x, rest, -, hrest, rfl⟩ := List.forall₂_cons_right_iff.mp h
    obtain ⟨ws, hws, hrel⟩ := ih hrest
    exact ⟨ws, hws.cons x, hrel⟩
  | cons_cons y _ ih =>
    obtain ⟨x, rest, hxy, hrest, rfl⟩ := List.forall₂_cons_right_iff.mp h
    obtain ⟨ws, hws, hrel⟩ := ih hrest
    exact ⟨x :: ws, hws.cons_cons x, .cons hxy hrel⟩

/-- The parameter may carry a value of the shape where it is read from. -/
structure Parameter.Carries (p : Parameter) (shape : Shape) : Prop where
  included : shape ≠ .context ∧ shape ≠ .error
  path : p.location = .path → shape = .scalar
  scalars : p.location = .query ∨ p.location = .header ∨ p.location = .request →
    shape = .scalar ∨ shape = .scalarSeq
  members : (∃ fields, shape = .composite fields) ∨ shape = .sequence ∨ shape = .map →
    p.location = .body
  connection : p.location = .request → p.name = "RemoteAddr"

/-- The shapes of the values that the parameters of a binding carry, in order. -/
inductive Binding.CarriesShapes (b : Binding) : List Shape → Prop
  /-- Parameters that feed no argument carry scalars. -/
  | blank (hblank : b.blank = true) (hfield : ∀ p ∈ b.params, p.field = none) :
      CarriesShapes b (b.params.map fun _ => .scalar)
  /-- Parameters for no field carry the argument as a whole. -/
  | whole (hblank : b.blank = false) (hfield : ∀ p ∈ b.params, p.field = none) :
      CarriesShapes b (b.params.map fun _ => b.argument.shape)
  /-- Parameters for fields carry the fields they are built from, none of which is omitted. -/
  | fields {fields built : List Field} (hblank : b.blank = false)
      (hshape : b.argument.shape = .composite fields)
      (hbuilt : built.Sublist (fields.filter (!·.isOmitted)))
      (hfield : b.params.map (·.field) = built.map (some ·.name)) :
      CarriesShapes b (built.map (·.shape))

/-- Values of the shape can be assembled from several parameters. -/
def Shape.IsAssembled (shape : Shape) : Prop :=
  shape = .scalar ∨ shape = .scalarSeq ∨ ∃ fields, shape = .composite fields

theorem Shape.isAssembled_of_isScalarLike {shape : Shape} (h : shape.isScalarLike = true) :
    shape.IsAssembled := by
  cases shape <;> simp_all [Shape.isScalarLike, Shape.IsAssembled]

theorem Parameter.carries_of_fits {p : Parameter} {shape : Shape}
    (hfits : shape.fits p.location = true)
    (hconnection : p.location = .request → p.name = "RemoteAddr") : p.Carries shape := by
  refine ⟨?_, ?_, ?_, ?_, hconnection⟩
  · constructor <;> rintro rfl <;> simp [Shape.fits] at hfits
  · intro hpath
    rwa [hpath, Shape.fits_path] at hfits
  · intro hplace
    cases shape <;> rcases hplace with hplace | hplace | hplace <;>
      simp [Shape.fits, hplace] at hfits ⊢
  · intro hmember
    cases hplace : p.location <;> rcases hmember with ⟨fields, rfl⟩ | rfl | rfl <;>
      simp [Shape.fits, hplace] at hfits ⊢

/-- What every way of making a binding sees to, and every variable that is read from it. -/
structure PlannedBinding.WellMade (b : PlannedBinding) : Prop where
  connection : ∀ p ∈ b.params, p.param.location = .request → p.param.name = "RemoteAddr"
  /-- Whatever feeds no argument is a scalar. -/
  blank : b.blank = true → ∀ p ∈ b.params, p.param.field = none ∧ p.shape = .scalar
  scalar : b.blank = false → b.argument.shape = .scalar → ∀ p ∈ b.params, p.shape = .scalar
  assembled : b.blank = false → 1 < b.params.length → b.argument.shape.IsAssembled

/-- The bindings that inference can make, in each of its ways. -/
inductive Inference.Makes (inf : Inference) : PlannedBinding → Prop
  | implied {arg : Argument} {b : PlannedBinding} (h : inf.implied arg = .ok (some b)) :
      Makes inf b
  | requested {arg : Argument} {groups : List ParamOptions} {b : PlannedBinding}
      (h : inf.requested arg groups = .ok b) : Makes inf b
  | wholeBody {arg : Argument} {b : PlannedBinding} (h : inf.wholeBody arg = .ok b) : Makes inf b
  | blank {groups : List ParamOptions} {b : PlannedBinding} (h : inf.blank groups = .ok b) :
      Makes inf b

theorem ParamOptions.checkRequestData_eq_ok {o : ParamOptions} {argument : String} {u : Unit} :
    o.checkRequestData argument = .ok u ↔
      (o.location = some .request → o.name = some "RemoteAddr") := by
  unfold checkRequestData
  split
  · next h => simpa [requestData, imp_iff_not_or] using h
  · next h => simpa [requestData] using h

namespace Inference

variable {inf : Inference} {arg : Argument}

theorem param_connection (hinf : inf.fallback = .body) {source ty : String} {shape : Shape}
    {o : ParamOptions} {p : PlannedParam}
    (ho : o.location = some .request → o.name = some "RemoteAddr")
    (h : inf.param source ty shape o = .ok p) (hplace : p.param.location = .request) :
    p.param.name = "RemoteAddr" := by
  obtain ⟨_, -, rfl⟩ := map_eq_ok.mp h
  have hasked : o.location = some .request := by
    cases hl : o.location with
    | none => simp [hl, hinf] at hplace
    | some l => simpa [hl] using hplace
  simp [ho hasked]

theorem mem_fieldParams {group : ParamOptions} {fields : List Field} {params : List PlannedParam}
    (h : inf.fieldParams arg fields group = .ok params) {p : PlannedParam} (hp : p ∈ params) :
    ∃ field ∈ fields, inf.fieldParam arg group field = .ok (some p) := by
  obtain ⟨field, hfield, hmade⟩ := forall₂_mem_right (fieldParams_eq_ok h) hp
  exact ⟨field, List.mem_of_mem_filter hfield, hmade⟩

theorem fieldParams_connection (hinf : inf.fallback = .body) {group : ParamOptions}
    {fields : List Field} {params : List PlannedParam}
    (h : inf.fieldParams arg fields group = .ok params) :
    ∀ p ∈ params, p.param.location = .request → p.param.name = "RemoteAddr" := by
  intro p hp hplace
  obtain ⟨field, -, hfield⟩ := mem_fieldParams h hp
  rcases fieldParam_eq_ok hfield with ⟨-, hnone⟩ | ⟨-, p₀, hchecked, hp₀, heq⟩
  · cases hnone
  · obtain rfl := Option.some.inj heq
    have hname : p₀.param.name = "RemoteAddr" :=
      param_connection hinf (ParamOptions.checkRequestData_eq_ok.mp hchecked) hp₀ hplace
    exact hname

theorem implied_wellMade (hinf : inf.fallback = .body) {b : PlannedBinding}
    (h : inf.implied arg = .ok (some b)) : b.WellMade := by
  obtain ⟨-, hnone⟩ | ⟨fields, params, hshape, hparams, hb⟩ | ⟨-, p, hp, hb⟩ := implied_cases h
  · cases hnone
  · obtain rfl := Option.some.inj hb
    exact ⟨fieldParams_connection hinf hparams, by simp, by simp [hshape],
      fun _ _ => .inr (.inr ⟨fields, hshape⟩)⟩
  · obtain rfl := Option.some.inj hb
    refine ⟨?_, by simp, fun _ hscalar => ?_, by simp⟩
    · simpa using param_connection hinf (by simp) hp
    · simpa using (param_shape hp).1.trans hscalar

theorem groupParam_connection (hinf : inf.fallback = .body) {group : ParamOptions}
    {p : PlannedParam} (h : inf.groupParam arg group = .ok p) :
    p.param.location = .request → p.param.name = "RemoteAddr" := by
  obtain ⟨_, hchecked, hp⟩ := bind_eq_ok.mp h
  exact param_connection hinf (ParamOptions.checkRequestData_eq_ok.mp hchecked) (within_eq_ok.mp hp)

theorem requested_wellMade (hinf : inf.fallback = .body) {groups : List ParamOptions}
    {b : PlannedBinding} (h : inf.requested arg groups = .ok b) : b.WellMade := by
  obtain ⟨params, hparams, rfl⟩ := map_eq_ok.mp h
  obtain ⟨fields, hshape, hparams⟩ | ⟨-, haggregate, hparams⟩ := requestedParams_cases hparams
  · exact ⟨fieldParams_connection hinf hparams, by simp, by simp [hshape],
      fun _ _ => .inr (.inr ⟨fields, hshape⟩)⟩
  · have hparams := mapM_eq_ok.mp hparams
    refine ⟨fun p hp => ?_, by simp, fun _ hscalar p hp => ?_, fun _ hmany => ?_⟩
    · obtain ⟨group, -, hgroup⟩ := forall₂_mem_right hparams hp
      exact groupParam_connection hinf hgroup
    · obtain ⟨group, -, hgroup⟩ := forall₂_mem_right hparams hp
      exact (param_shape (groupParam_eq_ok hgroup)).1.trans hscalar
    · have hgroups : 1 < groups.length := by
        rw [← hparams.length_eq] at hmany
        split at hmany
        · simp at hmany
        · exact hmany
      exact Shape.isAssembled_of_isScalarLike (haggregate hgroups)

theorem blankParam_carries (hinf : inf.fallback = .body) {group : ParamOptions} {p : PlannedParam}
    (h : inf.blankParam group = .ok p) :
    (p.param.location = .request → p.param.name = "RemoteAddr") ∧
      p.param.field = none ∧ p.shape = .scalar := by
  obtain ⟨name, -, hchecked, hp⟩ := blankParam_eq_ok h
  exact ⟨param_connection hinf (ParamOptions.checkRequestData_eq_ok.mp hchecked) hp,
    (param_shape hp).2, (param_shape hp).1⟩

theorem blank_wellMade (hinf : inf.fallback = .body) {groups : List ParamOptions}
    {b : PlannedBinding} (h : inf.blank groups = .ok b) : b.WellMade := by
  obtain ⟨params, hparams, rfl⟩ := blank_eq_ok h
  have hcarries : ∀ p ∈ params, (p.param.location = .request → p.param.name = "RemoteAddr") ∧
      p.param.field = none ∧ p.shape = .scalar := by
    intro p hp
    obtain ⟨group, -, hgroup⟩ := forall₂_mem_right hparams hp
    exact blankParam_carries hinf hgroup
  exact ⟨fun p hp => (hcarries p hp).1, fun _ p hp => (hcarries p hp).2, by simp, by simp⟩

theorem Makes.wellMade (hinf : inf.fallback = .body) {b : PlannedBinding} (h : inf.Makes b) :
    b.WellMade := by
  cases h with
  | implied h => exact implied_wellMade hinf h
  | requested h => exact requested_wellMade hinf h
  | blank h => exact blank_wellMade hinf h
  | wholeBody h =>
    obtain ⟨-, rfl⟩ := wholeBody_eq_ok.mp h
    exact ⟨by simp [wholeBinding, Parameter.plain], by simp [wholeBinding], by simp [wholeBinding],
      by simp [wholeBinding]⟩

end Inference

/-- Reading a variable from a binding adds nothing that is read from the connection, and no
parameter beyond those that are there. -/
theorem PlannedBinding.WellMade.readBy {v : String} {b b' : PlannedBinding} (h : b.WellMade)
    (hread : b.ReadBy v b') : b'.WellMade := by
  refine ⟨fun p hp hplace => ?_, fun hblank => ?_, fun _ hshape p hp => ?_, fun hblank hmany => ?_⟩
  · rcases hread.mem_params hp with hp | ⟨hpath, -⟩
    · exact h.connection p hp hplace
    · simp [hpath] at hplace
  · rw [hread.blank_eq.2] at hblank
    cases hblank
  · rcases hread.mem_params hp with hp | ⟨-, -, -, -, hscalar, -⟩
    · exact h.scalar hread.blank_eq.1 (hread.argument_eq ▸ hshape) p hp
    · exact hscalar
  · rw [hread.argument_eq]
    refine h.assembled hread.blank_eq.1 ?_
    cases hread with
    | argument => simp at hmany
    | field => simpa using hmany

/-- Leaving out parameters of other patterns does not make an argument assembled. -/
theorem PlannedBinding.WellMade.isAssembled {b : PlannedBinding} (h : b.WellMade)
    {body : RequestBody} {vars : List String} {q : Binding} (hserved : PlannedBinding.ServedAs body
      { b with params := b.params.filter (·.isOnPattern vars) } q) (hblank : q.blank = false)
    (hmany : q.isAggregate = true) : q.argument.shape.IsAssembled := by
  rw [hserved.argument]
  refine h.assembled (hserved.blank.symm.trans hblank) ?_
  have hlength : q.params.length ≤ b.params.length := by
    rw [← hserved.params.length_eq]
    exact List.length_filter_le _ _
  have hmany : 1 < q.params.length := by simpa [Binding.isAggregate] using hmany
  omega

namespace Method

variable {m : Method} {aliases : AliasTable} {options : ResolveOptions} {r : MethodResolution}
  {decl : Declarations} {plan : Plan} {inf : Inference} {route : Declared Route} {o : Operation}

theorem bindArgument_makes {arg : Argument} {d : Declared PlannedBinding}
    (h : m.bindArgument inf decl arg = .ok (some d)) : inf.Makes d.value := by
  unfold bindArgument at h
  split at h
  · obtain ⟨b, hb, heq⟩ := map_eq_ok.mp h
    obtain rfl := Option.some.inj heq
    exact .wholeBody (at_eq_ok.mp hb)
  · obtain ⟨b, hb, heq⟩ := map_eq_ok.mp h
    obtain rfl := Option.some.inj heq
    exact .requested (at_eq_ok.mp hb)
  · obtain ⟨b?, hb, heq⟩ := map_eq_ok.mp h
    obtain ⟨b, rfl, rfl⟩ := Option.map_eq_some_iff.mp heq
    exact .implied (at_eq_ok.mp hb)

/-- Before path variables are looked at, every binding is as inference made it. -/
theorem bindings_makes {bs : List (Declared PlannedBinding)} (h : m.bindings inf decl = .ok bs) :
    ∀ d ∈ bs, inf.Makes d.value := by
  obtain ⟨fed, hfed, h⟩ := bind_eq_ok.mp h
  obtain ⟨blank, hblank, h⟩ := bind_eq_ok.mp h
  obtain rfl := pure_eq_ok.mp h
  intro d hd
  rcases List.mem_append.mp hd with hd | hd
  · obtain ⟨d?, hd?, rfl⟩ := List.mem_filterMap.mp hd
    obtain ⟨arg, -, harg⟩ := forall₂_mem_right (mapM_eq_ok.mp hfed) hd?
    exact bindArgument_makes harg
  · obtain ⟨c, -, hc⟩ := forall₂_mem_right (mapM_eq_ok.mp hblank) hd
    obtain ⟨b, hb, rfl⟩ := map_eq_ok.mp hc
    exact .blank (at_eq_ok.mp hb)

/-- What inference sees to and reading a variable keeps holds of every binding of a plan. -/
theorem forall_mem_plan {P : PlannedBinding → Prop}
    (hmade : ∀ b, (inference decl options).Makes b → P b)
    (hread : ∀ v b b', P b → b.ReadBy v b' → P b') (h : m.plan decl options = .ok plan) :
    ∀ b ∈ plan, P b := by
  obtain ⟨bs, hbs, h⟩ := bind_eq_ok.mp h
  obtain ⟨_, -, hrun⟩ := bind_eq_ok.mp h
  intro b hb
  obtain ⟨b₀, hb₀, hreach⟩ := forall₂_mem_right (foldlM_bindPathVar_forall₂ hrun) hb
  clear hb
  induction hreach with
  | refl =>
    obtain ⟨d, hd, rfl⟩ := List.mem_map.mp hb₀
    exact hmade _ (bindings_makes hbs d hd)
  | tail _ hstep ih =>
    obtain ⟨v, -, hstep⟩ := hstep
    exact hread v _ _ ih hstep

end Method

namespace PlannedParam

variable {body : RequestBody} {p : PlannedParam} {q : Parameter}

/-- A value that fits its place in the plan fits its place in the request, if it fits the query
string where it has to move there. -/
theorem ServedAs.fits (h : p.ServedAs body q) (hsound : p.Sound)
    (hquery : body ≠ .synthesized → p.FitsQuery) : p.shape.fits q.location = true := by
  rw [h.location, movedFor]
  split
  · exact hsound.fits
  · next hbody =>
    unfold inQuery
    split
    · next hmoves => exact hquery hbody hmoves.1 hmoves.2
    · exact hsound.fits

/-- What a request reads from the connection, the plan reads from there under the same name. -/
theorem ServedAs.connection (h : p.ServedAs body q)
    (hplan : p.param.location = .request → p.param.name = "RemoteAddr")
    (hplace : q.location = .request) : q.name = "RemoteAddr" := by
  rw [h.same (.inr (by simp [hplace])), movedFor_name]
  refine hplan ?_
  have hmoved : (p.movedFor body).param.location = .request := h.location ▸ hplace
  unfold movedFor inQuery at hmoved
  split at hmoved
  · exact hmoved
  · split at hmoved
    · simp at hmoved
    · exact hmoved

end PlannedParam

namespace Method

variable {m : Method} {aliases : AliasTable} {options : ResolveOptions} {r : MethodResolution}
  {decl : Declarations} {plan : Plan} {route : Declared Route} {o : Operation}

theorem Resolves.wellMade (h : m.Resolves aliases options decl plan r) :
    ∀ b ∈ plan, b.WellMade :=
  forall_mem_plan (fun _ hb => hb.wellMade rfl) (fun _ _ _ hb hread => hb.readBy hread) h.planned

/-- Whatever an operation serves of a parameter may be carried where it is served. -/
theorem Resolves.carries (h : m.Resolves aliases options decl plan r)
    (ho : m.Serves decl plan route o) {b : PlannedBinding} (hb : b ∈ plan) {p : PlannedParam}
    (hp : p ∈ b.params) {q : Parameter} (hserved : p.ServedAs o.request.body q) :
    q.Carries p.shape := by
  obtain ⟨hkind, -, -⟩ := request_eq_ok ho.requested
  have hquery : o.request.body ≠ .synthesized → p.FitsQuery := fun hbody =>
    (request_cases.mp ho.requested).1 (hkind ▸ hbody) b hb p hp
  have hsound := (sound_of_plan h.leavesBody h.planned hb hp).1
  exact Parameter.carries_of_fits (hserved.fits hsound hquery)
    (hserved.connection ((h.wellMade b hb).connection p hp))

/-- Parameters that all carry values of one shape. -/
theorem served_same {body : RequestBody} {b : PlannedBinding} {R : Parameter → Shape → Prop}
    (hR : ∀ p ∈ b.params, ∀ q, p.ServedAs body q → R q p.shape) {shape : Shape}
    (hwhole : ∀ p ∈ b.params, p.param.field = none ∧ p.shape = shape) {vars : List String}
    {qs : List Parameter} (hserved : List.Forall₂ (PlannedParam.ServedAs body)
      (b.params.filter (·.isOnPattern vars)) qs) :
    (∀ q ∈ qs, q.field = none) ∧ List.Forall₂ R qs (qs.map fun _ => shape) := by
  have hcarries : ∀ q ∈ qs, q.field = none ∧ R q shape := by
    intro q hq
    obtain ⟨p, hp, hpq⟩ := forall₂_mem_right hserved hq
    have hp := List.mem_of_mem_filter hp
    obtain ⟨hfield, hshape⟩ := hwhole p hp
    exact ⟨hpq.field.trans hfield, hshape ▸ hR p hp q hpq⟩
  refine ⟨fun q hq => (hcarries q hq).1, ?_⟩
  rw [List.forall₂_map_right_iff, List.forall₂_same]
  exact fun q hq => (hcarries q hq).2

/-- Parameters that each carry a field of their own. -/
theorem served_fields {body : RequestBody} {b : PlannedBinding} {R : Parameter → Shape → Prop}
    (hR : ∀ p ∈ b.params, ∀ q, p.ServedAs body q → R q p.shape) {fields : List Field}
    (hfed : List.Forall₂ (fun f p => p.param.field = some f.name ∧ p.shape = f.shape)
      (fields.filter (!·.isOmitted)) b.params) {vars : List String} {qs : List Parameter}
    (hserved : List.Forall₂ (PlannedParam.ServedAs body)
      (b.params.filter (·.isOnPattern vars)) qs) :
    ∃ built : List Field, built.Sublist (fields.filter (!·.isOmitted)) ∧
      qs.map (·.field) = built.map (some ·.name) ∧ List.Forall₂ R qs (built.map (·.shape)) := by
  obtain ⟨built, hbuilt, hkept⟩ := exists_sublist_of_forall₂ hfed List.filter_sublist
  have hcarried : List.Forall₂ (fun f q => q.field = some f.name ∧ R q f.shape) built qs := by
    refine forall₂_trans (fun f p q hfield hpq => ?_) hkept
      ((List.forall₂_and_left _ _).mpr ⟨fun p hp => List.mem_of_mem_filter hp, hserved⟩)
    refine ⟨hpq.2.field.trans hfield.1, ?_⟩
    rw [← hfield.2]
    exact hR p hpq.1 q hpq.2
  refine ⟨built, hbuilt, ?_, ?_⟩
  · rw [← List.forall₂_eq_eq_eq, List.forall₂_map_left_iff, List.forall₂_map_right_iff]
    exact hcarried.flip.imp fun _ _ hq => hq.1
  · rw [List.forall₂_map_right_iff]
    exact hcarried.flip.imp fun _ _ hq => hq.2

/-- What a request makes of each parameter of a binding and the shape of its value, it has for the
shapes that the parameters carry. -/
theorem Resolves.exists_shapes (h : m.Resolves aliases options decl plan r) {body : RequestBody}
    {b : PlannedBinding} (hb : b ∈ plan) {R : Parameter → Shape → Prop}
    (hR : ∀ p ∈ b.params, ∀ q, p.ServedAs body q → R q p.shape) {vars : List String} {q : Binding}
    (hserved : PlannedBinding.ServedAs body
      { b with params := b.params.filter (·.isOnPattern vars) } q) :
    ∃ shapes, q.CarriesShapes shapes ∧ List.Forall₂ R q.params shapes := by
  have hparams := hserved.params
  rcases mem_plan_cases h.leavesBody h.planned hb with ⟨arg, hplans⟩ | ⟨groups, hblank⟩
  · have hnot : q.blank = false := hserved.blank.trans hplans.argument_eq.2
    have harg : q.argument = arg := hserved.argument.trans hplans.argument_eq.1
    cases hplans with
    | whole hwhole hincluded =>
      have hsame : ∀ p ∈ ((inference decl options).wholeBinding arg).params,
          p.param.field = none ∧ p.shape = arg.shape := by
        simp [Inference.wholeBinding, Parameter.plain]
      obtain ⟨hfield, hcarries⟩ := served_same hR hsame hparams
      exact ⟨_, .whole hnot hfield, harg ▸ hcarries⟩
    | planned hwhole hplanned =>
      have hfed := hplanned.fed
      cases hshape : arg.shape with
      | composite fields =>
        rw [hshape] at hfed
        obtain ⟨built, hbuilt, hfield, hcarries⟩ := served_fields hR hfed hparams
        exact ⟨_, .fields hnot (harg ▸ hshape) hbuilt hfield, hcarries⟩
      | scalar | scalarSeq | sequence | map | context | error =>
        rw [hshape] at hfed
        obtain ⟨hfield, hcarries⟩ := served_same hR hfed hparams
        rw [← hshape, ← harg] at hcarries
        exact ⟨_, .whole hnot hfield, hcarries⟩
  · have hyes : q.blank = true := hserved.blank.trans hblank.blank
    obtain ⟨hfield, hcarries⟩ := served_same hR ((h.wellMade b hb).blank hblank.blank) hparams
    exact ⟨_, .blank hyes hfield, hcarries⟩

/-- The parameters of a binding may all be carried where they are read from. -/
theorem Resolves.carries_shapes (h : m.Resolves aliases options decl plan r)
    (ho : m.Serves decl plan route o) {b : PlannedBinding} (hb : b ∈ plan) {vars : List String}
    {q : Binding} (hserved : PlannedBinding.ServedAs o.request.body
      { b with params := b.params.filter (·.isOnPattern vars) } q) :
    ∃ shapes, q.CarriesShapes shapes ∧ List.Forall₂ Parameter.Carries q.params shapes :=
  h.exists_shapes hb (fun _ hp _ hpq => h.carries ho hb hp hpq) hserved

/-- Every parameter of every operation may be carried where it is read from: path parameters carry
scalars, and outside of the body there is nothing but scalars and sequences of them. Only scalars,
sequences of scalars and composite values are assembled from several parameters. -/
theorem carried_shapes_fit (h : m.resolve aliases options = .ok r) :
    ∀ o ∈ r.operations, ∀ b ∈ o.request.bindings,
      (∃ shapes, b.CarriesShapes shapes ∧ List.Forall₂ Parameter.Carries b.params shapes) ∧
      (b.blank = false → b.isAggregate = true → b.argument.shape.IsAssembled) := by
  intro o ho b hb
  obtain ⟨decl, plan, hres⟩ := resolves_of_mem h ho
  obtain ⟨route, hroute, hserves⟩ := hres.exists_route ho
  obtain ⟨-, hserved, -⟩ := request_eq_ok hserves.requested
  obtain ⟨kept, hkept, hbound⟩ := forall₂_mem_right hserved hb
  obtain ⟨b₀, hb₀, hkept⟩ := List.mem_filterMap.mp hkept
  obtain rfl := PlannedBinding.onPattern?_eq_some hkept
  exact ⟨hres.carries_shapes hserves hb₀ hbound, (hres.wellMade b₀ hb₀).isAssembled hbound⟩

/-- An address taken from a header or else from the connection, a composite and a map, on a pattern
with a variable and a body. -/
def reportItem : Method where
  name := "ReportItem"
  args := [⟨"ctx", "Context", .context⟩, ⟨"id", "string", .scalar⟩, ⟨"ip", "string", .scalar⟩,
    ⟨"report", "Report", .composite [⟨"Secret", "string", .scalar, some "-"⟩,
      ⟨"Reasons", "[]string", .scalarSeq, some "in=query name=reason"⟩,
      ⟨"Text", "string", .scalar, none⟩]⟩,
    ⟨"details", "map[string]string", .map⟩]
  returns := []
  doc := ["//kun:op POST /items/{id}/reports",
    "//kun:param ip in=header name=X-Forwarded-For, in=request name=RemoteAddr",
    "//kun:param __ in=header name=trace", "//kun:success statusCode=204"]

theorem carried_shapes_fit_of_reportItem : ∃ r, reportItem.resolve .empty {} = .ok r ∧
    r.operations.map (fun o => o.request.bindings.map fun b => b.params.map (·.key)) =
      [[[(.path, "id")], [(.header, "X-Forwarded-For"), (.request, "RemoteAddr")],
        [(.query, "reason"), (.body, "text")], [(.body, "details")], [(.header, "trace")]]] ∧
    ∀ o ∈ r.operations, ∀ b ∈ o.request.bindings,
      (∃ shapes, b.CarriesShapes shapes ∧ List.Forall₂ Parameter.Carries b.params shapes) ∧
      (b.blank = false → b.isAggregate = true → b.argument.shape.IsAssembled) := by
  obtain ⟨r, hr, hkeys⟩ : ∃ r, reportItem.resolve .empty {} = .ok r ∧
      r.operations.map (fun o => o.request.bindings.map fun b => b.params.map (·.key)) =
        [[[(.path, "id")], [(.header, "X-Forwarded-For"), (.request, "RemoteAddr")],
          [(.query, "reason"), (.body, "text")], [(.body, "details")], [(.header, "trace")]]] :=
    exists_ok_of_map (by decide +kernel)
  exact ⟨r, hr, hkeys, carried_shapes_fit hr⟩

end Method

end Routespec
