import Routespec.Plan.Inference
import Routespec.Proofs.Declarations

/-!
# Inferred bindings

What inference makes of an argument, whichever way its binding is asked for: each parameter carries
a value that fits its place, and its place is other than the body exactly if it was asked for; a
composite argument has one parameter for each field that is not omitted.
-/

namespace Routespec

/-- Only single scalars travel in a path. -/
theorem Shape.fits_path {shape : Shape} : shape.fits .path = true ↔ shape = .scalar := by
  cases shape <;> simp [Shape.fits]

/-- Everything that is bound at all can travel in a body. -/
theorem Shape.fits_body {shape : Shape} : shape.fits .body = true ↔ shape.isExcluded = false := by
  cases shape <;> simp [Shape.fits, Shape.isExcluded]

theorem Shape.isRepeated_iff {shape : Shape} : shape.isRepeated = true ↔ shape = .scalarSeq := by
  cases shape <;> simp [Shape.isRepeated]

/-- The metadata of the field leaves it out of requests. -/
def Field.isOmitted (f : Field) : Bool := f.metadata.any fun text => Text.trim text.toList = ['-']

/-- The options that the metadata of the field gives, none if there is no metadata. -/
def Field.options (f : Field) : ParamOptions :=
  match f.metadata.map FieldMeta.read with
  | some (.ok (.options o)) => o
  | _ => {}

/-- The options of a field never ask for the body. -/
theorem Field.leaveBody_options (f : Field) : f.options.LeaveBody := by
  unfold Field.options
  split
  · next o h =>
    obtain ⟨text, -, ho⟩ := Option.map_eq_some_iff.mp h
    exact FieldMeta.leaveBody_of_read ho
  · simp [ParamOptions.LeaveBody]

namespace PlannedParam

/-- The parameter fits its place. -/
structure Sound (p : PlannedParam) : Prop where
  fits : p.shape.fits p.param.location = true
  required : p.param.location = .path → p.param.required = true
  repeated : p.param.repeated = true → p.shape = .scalarSeq

/-- The parameter fits its place, which is the body unless another one was asked for. -/
structure Inferred (p : PlannedParam) : Prop extends Sound p where
  explicit_iff : p.explicit = true ↔ p.param.location ≠ .body

theorem Sound.not_repeated {p : PlannedParam} (h : p.Sound) (hpath : p.param.location = .path) :
    p.param.repeated = false := by
  have hscalar : p.shape = .scalar := Shape.fits_path.mp (hpath ▸ h.fits)
  by_contra hrep
  have hseq : p.shape = .scalarSeq := h.repeated (by simpa using hrep)
  simp [hscalar] at hseq

end PlannedParam

/-- The parameters that a value of the shape is assembled from: one for each field that is not
omitted, or any number for the value as a whole. -/
def Shape.FedBy : Shape → List PlannedParam → Prop
  | .composite fields, params =>
    List.Forall₂ (fun f p => p.param.field = some f.name ∧ p.shape = f.shape)
      (fields.filter (!·.isOmitted)) params
  | shape, params => ∀ p ∈ params, p.param.field = none ∧ p.shape = shape

/-- A value of the shape is bound as a whole: it is bound, and not by its fields. -/
structure Shape.IsWhole (shape : Shape) : Prop where
  included : shape.isExcluded = false
  unfielded : ∀ fields, shape ≠ .composite fields

theorem Shape.IsWhole.fedBy {shape : Shape} (h : shape.IsWhole) {params : List PlannedParam}
    (hparams : ∀ p ∈ params, p.param.field = none ∧ p.shape = shape) : shape.FedBy params := by
  cases shape with
  | composite fields => exact absurd rfl (h.unfielded fields)
  | scalar | scalarSeq | sequence | map | context | error => exact hparams

/-- Parameters with the fields and shapes of some others make up the same value. -/
theorem Shape.FedBy.congr {shape : Shape} {ps qs : List PlannedParam} (h : shape.FedBy ps)
    (hsame : List.Forall₂ (fun p q => q.param.field = p.param.field ∧ q.shape = p.shape) ps qs) :
    shape.FedBy qs := by
  have hwhole {s : Shape} (hps : ∀ p ∈ ps, p.param.field = none ∧ p.shape = s) :
      ∀ q ∈ qs, q.param.field = none ∧ q.shape = s := by
    intro q hq
    obtain ⟨p, hp, hfield, hshape⟩ := forall₂_mem_right hsame hq
    rw [hfield, hshape]
    exact hps p hp
  cases shape with
  | composite fields =>
    refine forall₂_trans (fun f p q hfp hpq => ?_) h hsame
    rw [hpq.1, hpq.2]
    exact hfp
  | scalar | scalarSeq | sequence | map | context | error => exact hwhole h

/-- The binding is one that inference made for the argument. -/
structure PlannedBinding.InferredFor (arg : Argument) (b : PlannedBinding) : Prop where
  argument : b.argument = arg
  blank : b.blank = false
  included : arg.shape.isExcluded = false
  fed : arg.shape.FedBy b.params
  inferred : ∀ p ∈ b.params, p.Inferred

/-- The binding is one that inference made for a clause without an argument. -/
structure PlannedBinding.BlankFor (groups : List ParamOptions) (b : PlannedBinding) : Prop where
  argument : b.argument = ⟨blankName, "string", .scalar⟩
  blank : b.blank = true
  named : List.Forall₂ (fun group p => group.name = some p.param.name) groups b.params
  inferred : ∀ p ∈ b.params, p.Inferred

namespace Inference

variable {inf : Inference} {arg : Argument}

theorem param_shape {source ty : String} {shape : Shape} {o : ParamOptions} {p : PlannedParam}
    (h : inf.param source ty shape o = .ok p) : p.shape = shape ∧ p.param.field = none := by
  obtain ⟨_, -, rfl⟩ := map_eq_ok.mp h
  exact ⟨rfl, rfl⟩

theorem param_inferred (hinf : inf.fallback = .body) {source ty : String} {shape : Shape}
    {o : ParamOptions} {p : PlannedParam} (ho : o.LeaveBody)
    (h : inf.param source ty shape o = .ok p) : p.Inferred := by
  obtain ⟨_, hfits, rfl⟩ := map_eq_ok.mp h
  refine ⟨⟨checkFits_eq_ok.mp hfits, ?_, ?_⟩, ?_⟩
  · intro hpath
    simp only at hpath
    simp [hpath]
  · exact fun hrep => Shape.isRepeated_iff.mp hrep
  · cases hloc : o.location with
    | none => simp [hinf]
    | some l =>
      have hl : l ≠ .body := fun hl => ho (by rw [hloc, hl])
      simpa using hl

theorem groupParam_eq_ok {group : ParamOptions} {p : PlannedParam}
    (h : inf.groupParam arg group = .ok p) :
    inf.param arg.name arg.ty arg.shape group = .ok p := by
  obtain ⟨_, -, h⟩ := bind_eq_ok.mp h
  exact within_eq_ok.mp h

theorem leaveBody_fieldOptions {group own : ParamOptions} (hgroup : group.LeaveBody)
    (hown : own.LeaveBody) : (fieldOptions group own).LeaveBody := by
  unfold fieldOptions ParamOptions.LeaveBody at *
  cases hloc : own.location with
  | none => simpa using hgroup
  | some l => simpa [hloc] using hown

/-- The metadata of a field omits it, or else gives its options, none if there is no metadata. -/
theorem metadata_cases {field : Field} {metadata : Option FieldMeta}
    (h : field.metadata.mapM FieldMeta.read = .ok metadata) :
    (field.isOmitted = true ∧ metadata = some .omitted) ∨
    (field.isOmitted = false ∧
      (metadata = none ∧ field.options = {} ∨ metadata = some (.options field.options))) := by
  unfold Field.isOmitted Field.options
  cases hfield : field.metadata with
  | none =>
    rw [hfield] at h
    obtain rfl := pure_eq_ok.mp h
    exact .inr ⟨rfl, .inl ⟨rfl, rfl⟩⟩
  | some text =>
    rw [hfield] at h
    obtain ⟨value, hvalue, rfl⟩ := map_eq_ok.mp h
    rw [Option.any_some, ← Bool.not_eq_true, decide_eq_true_eq, ← FieldMeta.read_eq_omitted,
      Option.map_some, hvalue]
    cases value with
    | omitted => exact .inl ⟨rfl, rfl⟩
    | options o => exact .inr ⟨by simp, .inr rfl⟩

/-- A field is either omitted or carried by the parameter that its options make of it, together with
those of the whole argument. -/
theorem fieldParam_eq_ok {group : ParamOptions} {field : Field} {p? : Option PlannedParam}
    (h : inf.fieldParam arg group field = .ok p?) :
    (field.isOmitted = true ∧ p? = none) ∨
    (field.isOmitted = false ∧ ∃ p,
      (fieldOptions group field.options).checkRequestData (arg.name ++ "." ++ field.name) = .ok () ∧
      inf.param field.name field.ty field.shape (fieldOptions group field.options) = .ok p ∧
      p? = some { p with param := { p.param with field := some field.name } }) := by
  obtain ⟨metadata, hmeta, h⟩ := bind_eq_ok.mp h
  have hcases := metadata_cases (within_eq_ok.mp hmeta)
  split at h
  · next hnone =>
    refine .inl ⟨?_, (pure_eq_ok.mp h).symm⟩
    simpa [hnone] using hcases
  · next hsome =>
    obtain ⟨hkept, hown⟩ := hcases.resolve_left fun homitted => hsome homitted.2
    refine .inr ⟨hkept, ?_⟩
    split at h
    · exact absurd h fail_ne_ok
    · obtain ⟨_, hchecked, hread⟩ := bind_eq_ok.mp h
      obtain ⟨p, hp, hfield⟩ := bind_eq_ok.mp hread
      rcases hown with ⟨rfl, hown⟩ | rfl
      · rw [hown]
        exact ⟨p, hchecked, within_eq_ok.mp hp, (pure_eq_ok.mp hfield).symm⟩
      · exact ⟨p, hchecked, within_eq_ok.mp hp, (pure_eq_ok.mp hfield).symm⟩

theorem fieldParam_cases (hinf : inf.fallback = .body) {group : ParamOptions}
    (hgroup : group.LeaveBody) {field : Field} {p? : Option PlannedParam}
    (h : inf.fieldParam arg group field = .ok p?) :
    (field.isOmitted = true ∧ p? = none) ∨
    (field.isOmitted = false ∧ ∃ p, p? = some p ∧ p.Inferred ∧
      p.param.field = some field.name ∧ p.shape = field.shape) := by
  refine (fieldParam_eq_ok h).imp_right fun ⟨hkept, p, _, hp, heq⟩ => ?_
  have hleave := leaveBody_fieldOptions hgroup field.leaveBody_options
  have hinferred : p.Inferred := param_inferred hinf hleave hp
  refine ⟨hkept, _, heq, ?_, rfl, (param_shape hp).1⟩
  exact ⟨⟨hinferred.fits, hinferred.required, hinferred.repeated⟩, hinferred.explicit_iff⟩

/-- The fields that are not omitted have a parameter each, in order. -/
theorem fieldParams_eq_ok {group : ParamOptions} {fields : List Field} {params : List PlannedParam}
    (h : inf.fieldParams arg fields group = .ok params) :
    List.Forall₂ (fun f p => inf.fieldParam arg group f = .ok (some p))
      (fields.filter (!·.isOmitted)) params := by
  obtain ⟨ps, hps, rfl⟩ := map_eq_ok.mp h
  clear h
  rw [mapM_eq_ok] at hps
  induction hps with
  | nil => exact .nil
  | @cons field p? fields ps hp _ ih =>
    rcases fieldParam_eq_ok hp with ⟨homitted, rfl⟩ | ⟨hkept, p, -, -, rfl⟩
    · simpa [homitted] using ih
    · simpa [hkept] using ⟨hp, ih⟩

theorem fieldParams_fed (hinf : inf.fallback = .body) {group : ParamOptions}
    (hgroup : group.LeaveBody) {fields : List Field} {params : List PlannedParam}
    (h : inf.fieldParams arg fields group = .ok params) :
    (Shape.composite fields).FedBy params ∧ ∀ p ∈ params, p.Inferred := by
  have hparam {f : Field} {p : PlannedParam} (hp : inf.fieldParam arg group f = .ok (some p)) :
      p.Inferred ∧ p.param.field = some f.name ∧ p.shape = f.shape := by
    rcases fieldParam_cases hinf hgroup hp with ⟨-, hnone⟩ | ⟨-, p', hsome, hp'⟩
    · cases hnone
    · exact Option.some.inj hsome ▸ hp'
  have hparams := fieldParams_eq_ok h
  refine ⟨hparams.imp fun f p hp => (hparam hp).2, fun p hp => ?_⟩
  obtain ⟨f, -, hf⟩ := forall₂_mem_right hparams hp
  exact (hparam hf).1

/-- Inference makes nothing of an argument that is excluded, a parameter for each field of a
composite one, and of anything else one parameter without options. -/
theorem implied_cases {b? : Option PlannedBinding} (h : inf.implied arg = .ok b?) :
    (arg.shape.isExcluded = true ∧ b? = none) ∨
    (∃ fields params, arg.shape = .composite fields ∧ inf.fieldParams arg fields {} = .ok params ∧
      b? = some ⟨arg, params, fields.any isAnnotated, false⟩) ∨
    (arg.shape.IsWhole ∧ ∃ p, inf.param arg.name arg.ty arg.shape {} = .ok p ∧
      b? = some ⟨arg, [p], false, false⟩) := by
  unfold implied at h
  cases hshape : arg.shape with
  | context | error =>
    rw [hshape] at h
    exact .inl ⟨rfl, (Except.ok.inj h).symm⟩
  | scalar | scalarSeq =>
    rw [hshape] at h
    obtain ⟨p, hp, rfl⟩ := map_eq_ok.mp h
    exact .inr (.inr ⟨⟨rfl, nofun⟩, p, within_eq_ok.mp hp, rfl⟩)
  | composite fields =>
    rw [hshape] at h
    obtain ⟨params, hparams, rfl⟩ := map_eq_ok.mp h
    exact .inr (.inl ⟨fields, params, rfl, hparams, rfl⟩)
  | sequence | map =>
    rw [hshape] at h
    dsimp only at h
    split at h
    · obtain ⟨p, hp, rfl⟩ := map_eq_ok.mp h
      exact .inr (.inr ⟨⟨rfl, nofun⟩, p, hp, rfl⟩)
    · exact absurd h fail_ne_ok

/-- The options for a composite argument are handed on to its fields. Anything else has a parameter
for each group of options, or one without options, and several ones only if it is scalar. -/
theorem requestedParams_cases {groups : List ParamOptions} {params : List PlannedParam}
    (h : inf.requestedParams arg groups = .ok params) :
    (∃ fields, arg.shape = .composite fields ∧
      inf.fieldParams arg fields (groups.head?.getD {}) = .ok params) ∨
    (arg.shape.IsWhole ∧ (1 < groups.length → arg.shape.isScalarLike = true) ∧
      (if groups = [] then [{}] else groups).mapM (inf.groupParam arg) = .ok params) := by
  unfold requestedParams at h
  cases hshape : arg.shape with
  | context | error =>
    rw [hshape] at h
    exact absurd h fail_ne_ok
  | composite fields =>
    rw [hshape] at h
    dsimp only at h
    split at h
    · exact absurd h fail_ne_ok
    · split at h
      · exact absurd h fail_ne_ok
      · exact .inl ⟨fields, rfl, h⟩
  | scalar | scalarSeq | sequence | map =>
    rw [hshape] at h
    dsimp only at h
    split at h
    · exact absurd h fail_ne_ok
    · next hone =>
      exact .inr ⟨⟨rfl, nofun⟩, fun hmany => by simpa [hmany] using hone, h⟩

/-- A parameter of a blank binding is named, and carries a scalar. -/
theorem blankParam_eq_ok {group : ParamOptions} {p : PlannedParam}
    (h : inf.blankParam group = .ok p) : ∃ name, group.name = some name ∧
      group.checkRequestData blankName = .ok () ∧
      inf.param name (group.ty.getD "string") .scalar group = .ok p := by
  unfold blankParam at h
  split at h
  · exact absurd h fail_ne_ok
  · next name hname =>
    obtain ⟨_, hchecked, hp⟩ := bind_eq_ok.mp h
    exact ⟨name, hname, hchecked, hp⟩

/-- A blank binding has a parameter for each group of options. -/
theorem blank_eq_ok {groups : List ParamOptions} {b : PlannedBinding}
    (h : inf.blank groups = .ok b) : ∃ params,
      List.Forall₂ (fun group p => inf.blankParam group = .ok p) groups params ∧
      b = ⟨⟨blankName, "string", .scalar⟩, params, true, true⟩ := by
  unfold blank at h
  split at h
  · exact absurd h fail_ne_ok
  · obtain ⟨params, hparams, rfl⟩ := map_eq_ok.mp h
    exact ⟨params, mapM_eq_ok.mp hparams, rfl⟩

/-- An argument that no directive names is bound unless its shape excludes it. -/
theorem implied_inferred (hinf : inf.fallback = .body) {b? : Option PlannedBinding}
    (h : inf.implied arg = .ok b?) :
    (arg.shape.isExcluded = true ∧ b? = none) ∨ ∃ b, b? = some b ∧ b.InferredFor arg := by
  have hempty : ({} : ParamOptions).LeaveBody := by simp [ParamOptions.LeaveBody]
  refine (implied_cases h).imp_right ?_
  rintro (⟨fields, params, hshape, hparams, rfl⟩ | ⟨hwhole, p, hp, rfl⟩)
  · obtain ⟨hfed, hinferred⟩ := fieldParams_fed hinf hempty hparams
    refine ⟨_, rfl, rfl, rfl, by simp [hshape, Shape.isExcluded], ?_, hinferred⟩
    rw [hshape]
    exact hfed
  · obtain ⟨hvalue, hfield⟩ := param_shape hp
    refine ⟨_, rfl, rfl, rfl, hwhole.included, hwhole.fedBy ?_, ?_⟩
    · simpa using ⟨hfield, hvalue⟩
    · simpa using param_inferred hinf hempty hp

/-- An argument that a clause names is bound by parameters that fit their places. -/
theorem requested_inferred (hinf : inf.fallback = .body) {groups : List ParamOptions}
    (hgroups : ∀ group ∈ groups, group.LeaveBody) {b : PlannedBinding}
    (h : inf.requested arg groups = .ok b) : b.InferredFor arg := by
  obtain ⟨params, hparams, rfl⟩ := map_eq_ok.mp h
  have hempty : ({} : ParamOptions).LeaveBody := by simp [ParamOptions.LeaveBody]
  obtain ⟨fields, hshape, hparams⟩ | ⟨hwhole, -, hparams⟩ := requestedParams_cases hparams
  · have hleave : (groups.head?.getD {}).LeaveBody := by
      cases groups with
      | nil => exact hempty
      | cons group _ => exact hgroups group (by simp)
    obtain ⟨hfed, hinferred⟩ := fieldParams_fed hinf hleave hparams
    refine ⟨rfl, rfl, by simp [hshape, Shape.isExcluded], ?_, hinferred⟩
    rw [hshape]
    exact hfed
  · have hmade (p : PlannedParam) (hp : p ∈ params) : ∃ group : ParamOptions, group.LeaveBody ∧
        inf.param arg.name arg.ty arg.shape group = .ok p := by
      obtain ⟨group, hgroup, hp⟩ := forall₂_mem_right (mapM_eq_ok.mp hparams) hp
      refine ⟨group, ?_, groupParam_eq_ok hp⟩
      split at hgroup
      · rw [List.mem_singleton] at hgroup
        exact hgroup ▸ hempty
      · exact hgroups group hgroup
    refine ⟨rfl, rfl, hwhole.included, hwhole.fedBy fun p hp => ?_, fun p hp => ?_⟩
    · obtain ⟨group, -, hp⟩ := hmade p hp
      exact (param_shape hp).symm
    · obtain ⟨group, hleave, hp⟩ := hmade p hp
      exact param_inferred hinf hleave hp

/-- The binding of the argument that is the whole body: one parameter, whatever the shape. -/
def wholeBinding (inf : Inference) (arg : Argument) : PlannedBinding :=
  ⟨arg, [⟨.plain .body (inf.naming.apply arg.name) arg.ty, true, arg.shape⟩], true, false⟩

theorem wholeBody_eq_ok {b : PlannedBinding} :
    inf.wholeBody arg = .ok b ↔ arg.shape.isExcluded = false ∧ b = inf.wholeBinding arg := by
  rw [← Shape.fits_body]
  exact map_checkFits_eq_ok

theorem wholeBinding_sound (hincluded : arg.shape.isExcluded = false) :
    ∀ p ∈ (inf.wholeBinding arg).params, p.Sound := by
  intro p hp
  obtain rfl := List.mem_singleton.mp hp
  refine ⟨?_, ?_, ?_⟩
  · simpa [Parameter.plain] using Shape.fits_body.mpr hincluded
  · simp [Parameter.plain]
  · simp [Parameter.plain]

/-- A clause without an argument has one parameter for each group, under the name given there. -/
theorem blank_inferred (hinf : inf.fallback = .body) {groups : List ParamOptions}
    (hgroups : ∀ group ∈ groups, group.LeaveBody) {b : PlannedBinding}
    (h : inf.blank groups = .ok b) : b.BlankFor groups := by
  obtain ⟨params, hparams, rfl⟩ := blank_eq_ok h
  refine ⟨rfl, rfl, hparams.imp fun group p hp => ?_, fun p hp => ?_⟩
  · obtain ⟨name, hname, -, hp⟩ := blankParam_eq_ok hp
    obtain ⟨_, -, rfl⟩ := map_eq_ok.mp hp
    simp [hname]
  · obtain ⟨group, hgroup, hp⟩ := forall₂_mem_right hparams hp
    obtain ⟨name, -, -, hp⟩ := blankParam_eq_ok hp
    exact param_inferred hinf (hgroups group hgroup) hp

end Inference

end Routespec
