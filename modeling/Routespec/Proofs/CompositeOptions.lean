import Routespec.Proofs.Inference

/-!
# Options for the fields of an argument

What one group of options does for an argument with fields. Each field has options of its own, which
come first. Where they say nothing, those of the group tell the place of the field and whether it is
required. A name or a type for all fields is refused; a description for all fields is accepted and
left out.
-/

namespace Routespec

namespace Inference

variable {inf : Inference} {arg : Argument} {group : ParamOptions}

/-- The parameter carries the field as its own options ask for, and otherwise as those of the group
do. Name, type and description are those of the field alone. -/
structure ReadsField (inf : Inference) (group : ParamOptions) (f : Field) (p : PlannedParam) :
    Prop where
  field : p.param.field = some f.name
  explicit : p.explicit = (f.options.location.or group.location).isSome
  location : p.param.location = (f.options.location.or group.location).getD inf.fallback
  /-- Path parameters are required whatever the options say. -/
  required : p.param.required =
    (decide (p.param.location = .path) || (f.options.required.or group.required).getD false)
  name : p.param.name = f.options.name.getD (inf.wireName f.name p.param.location)
  ty : p.param.ty = f.options.ty.getD f.ty
  description : p.param.description = f.options.description.getD ""

/-- The description of the group is that of the field, if the field has none of its own. -/
def DescribesField (group : ParamOptions) (f : Field) (p : PlannedParam) : Prop :=
  f.options.description = none → p.param.description = group.description.getD ""

theorem fieldParam_readsField {field : Field} {p : PlannedParam}
    (h : inf.fieldParam arg group field = .ok (some p)) : inf.ReadsField group field p := by
  rcases fieldParam_eq_ok h with ⟨-, hnone⟩ | ⟨-, p₀, -, hp₀, heq⟩
  · cases hnone
  · obtain rfl := Option.some.inj heq
    obtain ⟨_, -, rfl⟩ := map_eq_ok.mp hp₀
    exact ⟨rfl, rfl, rfl, rfl, rfl, rfl, rfl⟩

/-- Options for all fields of an argument give them no name and no type. -/
theorem requestedParams_composite {fields : List Field} (hshape : arg.shape = .composite fields) :
    inf.requestedParams arg [group] =
      if group.name.isSome ∨ group.ty.isSome then fail (.namedComposite arg.name)
      else inf.fieldParams arg fields group := by
  rw [requestedParams, hshape]
  exact if_neg (by simp)

/-- A description for all fields is theirs if there is nothing to describe: none is given, or every
field has its own. -/
theorem describesField_iff {fields : List Field} {params : List PlannedParam}
    (h : List.Forall₂ (inf.ReadsField group) fields params) :
    List.Forall₂ (DescribesField group) fields params ↔
      group.description.getD "" = "" ∨ ∀ f ∈ fields, f.options.description.isSome = true := by
  constructor
  · intro hdescribes
    by_cases hgiven : group.description.getD "" = ""
    · exact .inl hgiven
    refine .inr fun f hf => ?_
    by_contra hnone
    rw [Option.not_isSome_iff_eq_none] at hnone
    obtain ⟨i, hi⟩ := List.mem_iff_getElem?.mp hf
    obtain ⟨p, hp, hreads⟩ := forall₂_getElem? h hi
    obtain ⟨q, hq, hdescribed⟩ := forall₂_getElem? hdescribes hi
    obtain rfl : p = q := Option.some.inj (hp.symm.trans hq)
    refine hgiven ?_
    rw [← hdescribed hnone, hreads.description, hnone, Option.getD_none]
  · intro hnothing
    refine ((List.forall₂_and_left _ _).mpr ⟨fun f hf => hf, h⟩).imp fun f p hp hnone => ?_
    rw [hp.2.description, hnone, Option.getD_none]
    rcases hnothing with hempty | hown
    · exact hempty.symm
    · simpa [hnone] using hown f hp.1

/-- One group of options for a composite argument sets the place of every field and whether it is
required, unless the field has options of its own for that. Name and type are refused. A description
does not reach the fields. -/
theorem group_options_of_composite {fields : List Field} (hshape : arg.shape = .composite fields) :
    (group.name.isSome ∨ group.ty.isSome →
      inf.requested arg [group] = fail (.namedComposite arg.name)) ∧
    ∀ b, inf.requested arg [group] = .ok b →
      b.argument = arg ∧
      List.Forall₂ (inf.ReadsField group) (fields.filter (!·.isOmitted)) b.params ∧
      (List.Forall₂ (DescribesField group) (fields.filter (!·.isOmitted)) b.params ↔
        group.description.getD "" = "" ∨
          ∀ f ∈ fields.filter (!·.isOmitted), f.options.description.isSome = true) := by
  rw [requested, requestedParams_composite hshape]
  constructor
  · intro hnamed
    rw [if_pos hnamed]
    rfl
  · intro b hb
    obtain ⟨params, hparams, rfl⟩ := map_eq_ok.mp hb
    split at hparams
    · exact absurd hparams fail_ne_ok
    · have hreads := (fieldParams_eq_ok hparams).imp fun f p hp => fieldParam_readsField hp
      exact ⟨rfl, hreads, describesField_iff hreads⟩

/-- A field that is omitted, one with options of its own, and one without. -/
def filterFields : List Field := [⟨"Secret", "string", .scalar, some "-"⟩,
  ⟨"Owner", "string", .scalar, some "in=path name=owner_id descr='who has it'"⟩,
  ⟨"States", "[]string", .scalarSeq, none⟩]

theorem group_options_of_composite_of_filterFields :
    let inf : Inference := ⟨.snakeCase, .body, ["owner_id"]⟩
    let arg : Argument := ⟨"filter", "Filter", .composite filterFields⟩
    let group : ParamOptions := ⟨some .header, none, some false, none, some "what to find"⟩
    ((inf.requested arg [group]).toOption.map fun b => b.params.map (·.param)) =
      some [⟨.path, "owner_id", "string", false, true, "who has it", some "Owner"⟩,
        ⟨.header, "states", "[]string", true, false, "", some "States"⟩] ∧
    (group.name.isSome ∨ group.ty.isSome →
      inf.requested arg [group] = fail (.namedComposite arg.name)) ∧
    ∀ b, inf.requested arg [group] = .ok b →
      b.argument = arg ∧
      List.Forall₂ (inf.ReadsField group) (filterFields.filter (!·.isOmitted)) b.params ∧
      (List.Forall₂ (DescribesField group) (filterFields.filter (!·.isOmitted)) b.params ↔
        group.description.getD "" = "" ∨
          ∀ f ∈ filterFields.filter (!·.isOmitted), f.options.description.isSome = true) :=
  ⟨by decide +kernel, group_options_of_composite rfl⟩

/-- A description for all fields of an argument need not reach any of them. -/
theorem group_description_lost : ¬ ∀ (inf : Inference) (arg : Argument) (group : ParamOptions)
    (fields : List Field) (b : PlannedBinding), arg.shape = .composite fields →
    inf.requested arg [group] = .ok b →
    List.Forall₂ (DescribesField group) (fields.filter (!·.isOmitted)) b.params := by
  intro h
  have hmade : requested ⟨.snakeCase, .body, []⟩
      ⟨"filter", "Filter", .composite [⟨"Title", "string", .scalar, none⟩]⟩
      [{ description := some "the filter" }] =
    .ok ⟨⟨"filter", "Filter", .composite [⟨"Title", "string", .scalar, none⟩]⟩,
      [⟨⟨.body, "title", "string", false, false, "", some "Title"⟩, false, .scalar⟩],
      true, false⟩ := by decide +kernel
  have hdescribed := h _ _ _ _ _ rfl hmade
  rw [List.filter_cons_of_pos (by decide), List.filter_nil, List.forall₂_cons] at hdescribed
  have hlost := hdescribed.1 rfl
  revert hlost
  decide

end Inference

end Routespec
