import Routespec.Proofs.CarriedShapes

/-!
# The query string as the default

A plan is made with the body as the place of whatever nothing asks for, and a request without a body
moves that to the query string. It comes to the same to have the query string as the default from
the start. The two differ in when they notice a value that cannot travel there, so what they stop
with may differ.
-/

namespace Routespec

section Except

variable {ε ε' ε'' α α' β β' γ : Type} {fits : α → Prop} {fits' : α' → Prop} {move : α → β}
  {move' : α' → β'} {x : Except ε α} {y : Except ε' β}

/-- Two computations succeed under the same conditions, with the same value. -/
def SucceedAlike (x : Except ε α) (y : Except ε' α) : Prop := ∀ a, x = .ok a ↔ y = .ok a

theorem SucceedAlike.bind {x : Except ε α} {y : Except ε α} (h : SucceedAlike x y)
    (f : α → Except ε β) : SucceedAlike (x >>= f) (y >>= f) := by
  intro b
  simp only [bind_eq_ok, h _]

/-- The second computation succeeds when the first one does with a value that fits, and its value
is that one moved. -/
def Follows (fits : α → Prop) (move : α → β) (x : Except ε α) (y : Except ε' β) : Prop :=
  ∀ b, y = .ok b ↔ ∃ a, x = .ok a ∧ fits a ∧ b = move a

theorem Follows.of_iff {x' : Except ε'' α} {y' : Except γ β} (h : Follows fits move x y)
    (hx : ∀ a, x' = .ok a ↔ x = .ok a) (hy : ∀ b, y' = .ok b ↔ y = .ok b) :
    Follows fits move x' y' := by
  intro b
  rw [hy, h b]
  simp only [hx]

theorem Follows.ok {a : α} {b : β} (hfits : fits a) (hb : b = move a) :
    Follows fits move (.ok a : Except ε α) (.ok b : Except ε' β) := by
  intro b'
  constructor
  · intro h
    obtain rfl := Except.ok.inj h
    exact ⟨a, rfl, hfits, hb⟩
  · rintro ⟨_, ha, -, rfl⟩
    obtain rfl := Except.ok.inj ha
    rw [hb]

/-- A computation follows itself if what it gives fits and stays. -/
theorem Follows.refl {move : α → α} (h : ∀ a, x = .ok a → fits a ∧ move a = a) :
    Follows fits move x x := by
  intro b
  constructor
  · intro hb
    exact ⟨b, hb, (h b hb).1, (h b hb).2.symm⟩
  · rintro ⟨a, ha, -, rfl⟩
    rwa [(h a ha).2]

theorem Follows.of_fail {c c' : Cause} : Follows fits move (fail c : Checked α) (fail c') :=
  fun _ => iff_of_false fail_ne_ok fun ⟨_, ha, _⟩ => fail_ne_ok ha

theorem Follows.map (h : Follows fits move x y) {f : α → α'} {g : β → β'}
    (hfits : ∀ a, fits' (f a) ↔ fits a) (hmove : ∀ a, move' (f a) = g (move a)) :
    Follows fits' move' (x.map f) (y.map g) := by
  intro b
  rw [map_eq_ok]
  constructor
  · rintro ⟨_, hy, rfl⟩
    obtain ⟨a, ha, hfitsa, rfl⟩ := (h _).mp hy
    exact ⟨f a, map_eq_ok.mpr ⟨a, ha, rfl⟩, (hfits a).mpr hfitsa, (hmove a).symm⟩
  · rintro ⟨_, hx, hfitsa, rfl⟩
    obtain ⟨a, ha, rfl⟩ := map_eq_ok.mp hx
    exact ⟨move a, (h _).mpr ⟨a, ha, (hfits a).mp hfitsa, rfl⟩, (hmove a).symm⟩

theorem Follows.bind_pure (h : Follows fits move x y) {f : α → α'} {g : β → β'}
    (hfits : ∀ a, fits' (f a) ↔ fits a) (hmove : ∀ a, move' (f a) = g (move a)) :
    Follows fits' move' (x >>= fun a => pure (f a)) (y >>= fun b => pure (g b)) := by
  refine (h.map hfits hmove).of_iff (fun a => ?_) fun b => ?_
  · cases x <;> rfl
  · cases y <;> rfl

/-- To go on with two computations of which one follows the other again, nothing may fit at the end
that did not fit in between. -/
theorem Follows.bind (h : Follows fits move x y) {f : α → Except ε α'} {g : β → Except ε' β'}
    (hfits : ∀ a a', x = .ok a → f a = .ok a' → fits' a' → fits a)
    (hrest : ∀ a, x = .ok a → fits a → Follows fits' move' (f a) (g (move a))) :
    Follows fits' move' (x >>= f) (y >>= g) := by
  intro b
  simp only [bind_eq_ok]
  constructor
  · rintro ⟨_, hy, hb⟩
    obtain ⟨a, ha, hfit, rfl⟩ := (h _).mp hy
    obtain ⟨a', ha', hrest'⟩ := (hrest a ha hfit b).mp hb
    exact ⟨a', ⟨a, ha, ha'⟩, hrest'⟩
  · rintro ⟨a', ⟨a, ha, ha'⟩, hfit', rfl⟩
    have hfit : fits a := hfits a a' ha ha' hfit'
    exact ⟨move a, (h _).mpr ⟨a, ha, hfit, rfl⟩, (hrest a ha hfit _).mpr ⟨a', ha', hfit', rfl⟩⟩

/-- What is done before both computations does not matter. -/
theorem Follows.after (z : Except ε γ) {f : γ → Except ε α} {g : γ → Except ε β}
    (h : ∀ c, Follows fits move (f c) (g c)) : Follows fits move (z >>= f) (z >>= g) :=
  have hz : Follows (fun _ => True) id z z := .refl fun _ _ => ⟨trivial, rfl⟩
  hz.bind (fun _ _ _ _ _ => trivial) fun c _ _ => h c

theorem Follows.mapM {f : γ → Except ε α} {g : γ → Except ε' β}
    (h : ∀ c, Follows fits move (f c) (g c)) (cs : List γ) :
    Follows (∀ a ∈ ·, fits a) (List.map move) (cs.mapM f) (cs.mapM g) := by
  induction cs with
  | nil => exact .ok (by simp) rfl
  | cons c cs ih =>
    intro bs
    simp only [List.mapM_cons, bind_eq_ok, pure_eq_ok]
    constructor
    · rintro ⟨b, hb, bs, hbs, rfl⟩
      obtain ⟨a, ha, hfits, rfl⟩ := (h c b).mp hb
      obtain ⟨as, has, hrest, rfl⟩ := (ih bs).mp hbs
      exact ⟨a :: as, ⟨a, ha, as, has, rfl⟩, List.forall_mem_cons.mpr ⟨hfits, hrest⟩, rfl⟩
    · rintro ⟨_, ⟨a, ha, as, has, rfl⟩, hfits, rfl⟩
      rw [List.forall_mem_cons] at hfits
      exact ⟨move a, (h c _).mpr ⟨a, ha, hfits.1, rfl⟩, as.map move,
        (ih _).mpr ⟨as, has, hfits.2, rfl⟩, rfl⟩

/-- To follow with a check and a move is to succeed like the first computation and then the two. -/
theorem Follows.succeedAlike (h : Follows fits move x y) {q : α → Except ε β}
    (hq : ∀ a b, q a = .ok b ↔ fits a ∧ b = move a) : SucceedAlike (x >>= q) y := by
  intro b
  rw [bind_eq_ok, h b]
  simp only [hq]

end Except

/-- What can travel in the query string can travel in the body. -/
theorem Shape.fits_body_of_query {shape : Shape} (h : shape.fits .query = true) :
    shape.fits .body = true := by
  cases shape <;> simp_all [Shape.fits]

/-- The inference with another default place. -/
def Inference.placing (inf : Inference) (place : Location) : Inference :=
  { inf with fallback := place }

namespace PlannedParam

/-- It does not matter for a place which field a parameter is for. -/
theorem fitsQuery_field {p : PlannedParam} {field : Option String} :
    FitsQuery { p with param := { p.param with field } } ↔ p.FitsQuery := Iff.rfl

theorem inQuery_field {p : PlannedParam} {field : Option String} :
    inQuery { p with param := { p.param with field } } =
      { p.inQuery with param := { p.inQuery.param with field } } := by
  unfold inQuery
  by_cases h : p.explicit = false ∧ p.param.location = .body <;> simp [h]

end PlannedParam

namespace Inference

open PlannedParam

variable {inf : Inference} {arg : Argument}

theorem param_follows (source ty : String) (shape : Shape) (o : ParamOptions) :
    Follows FitsQuery inQuery ((inf.placing .body).param source ty shape o)
      ((inf.placing .query).param source ty shape o) := by
  cases hplace : o.location with
  | some l =>
    -- a place that is asked for is the same with either default, and stays
    have hsame : (inf.placing .query).param source ty shape o =
        (inf.placing .body).param source ty shape o := by
      simp only [param, hplace]
      rfl
    rw [hsame]
    refine .refl fun p hp => ?_
    obtain ⟨_, -, rfl⟩ := map_eq_ok.mp hp
    have hexplicit : o.location.isSome = true := by simp [hplace]
    exact ⟨fun h => absurd (hexplicit.symm.trans h) (by simp), inQuery_of_explicit hexplicit⟩
  | none =>
    intro p'
    simp only [param, hplace, Option.getD_none, map_eq_ok, checkFits_eq_ok]
    constructor
    · rintro ⟨u, hfits, rfl⟩
      refine ⟨_, ⟨u, Shape.fits_body_of_query hfits, rfl⟩, fun _ _ => hfits, ?_⟩
      simp [inQuery, placing, wireName]
    · rintro ⟨_, ⟨u, -, rfl⟩, hfits, rfl⟩
      refine ⟨u, hfits rfl rfl, ?_⟩
      simp [inQuery, placing, wireName]

theorem groupParam_follows (group : ParamOptions) :
    Follows FitsQuery inQuery ((inf.placing .body).groupParam arg group)
      ((inf.placing .query).groupParam arg group) :=
  .after _ fun _ => (param_follows arg.name arg.ty arg.shape group).of_iff
    (fun _ => within_eq_ok) fun _ => within_eq_ok

theorem fieldParam_follows (group : ParamOptions) (field : Field) :
    Follows (∀ p ∈ ·, FitsQuery p) (Option.map inQuery)
      ((inf.placing .body).fieldParam arg group field)
      ((inf.placing .query).fieldParam arg group field) := by
  refine .after _ fun metadata => ?_
  split
  · exact .ok (by simp) rfl
  · split
    · exact .of_fail
    · refine .after _ fun _ => ?_
      refine Follows.bind_pure ((param_follows field.name field.ty field.shape _).of_iff
        (fun _ => within_eq_ok) fun _ => within_eq_ok) (fun p => ?_) fun p => ?_
      · simp [fitsQuery_field]
      · rw [Option.map_some, inQuery_field]

theorem fieldParams_follows (fields : List Field) (group : ParamOptions) :
    Follows (∀ p ∈ ·, FitsQuery p) (List.map inQuery)
      ((inf.placing .body).fieldParams arg fields group)
      ((inf.placing .query).fieldParams arg fields group) := by
  refine (Follows.mapM (fieldParam_follows group) fields).map (fun ps => ?_) fun ps => ?_
  · simp only [List.mem_filterMap, id_eq, exists_eq_right]
    constructor
    · rintro h o ho p rfl
      exact h p ho
    · exact fun h p hp => h _ hp p rfl
  · simp [List.map_filterMap, List.filterMap_map]

/-- An argument that no directive names is bound alike with either default. -/
theorem implied_follows (arg : Argument) :
    Follows (∀ b ∈ ·, PlannedBinding.FitsQuery b) (Option.map PlannedBinding.inQuery)
      ((inf.placing .body).implied arg) ((inf.placing .query).implied arg) := by
  have hsingle : Follows (∀ b ∈ ·, PlannedBinding.FitsQuery b) (Option.map PlannedBinding.inQuery)
      (((inf.placing .body).param arg.name arg.ty arg.shape {}).map
        fun p => some ⟨arg, [p], false, false⟩)
      (((inf.placing .query).param arg.name arg.ty arg.shape {}).map
        fun p => some ⟨arg, [p], false, false⟩) :=
    (param_follows arg.name arg.ty arg.shape {}).map (fun p => by simp [PlannedBinding.FitsQuery])
      fun p => by simp [PlannedBinding.inQuery]
  unfold implied
  cases hshape : arg.shape with
  | context | error => exact .ok (by simp) rfl
  | scalar | scalarSeq =>
    rw [hshape] at hsingle
    refine hsingle.of_iff (fun b => ?_) fun b => ?_
    · simp only [map_eq_ok, within_eq_ok]
    · simp only [map_eq_ok, within_eq_ok]
  | composite fields =>
    exact (fieldParams_follows fields {}).map (fun ps => by simp [PlannedBinding.FitsQuery])
      fun ps => by simp [PlannedBinding.inQuery]
  | sequence | map =>
    -- these never fit the query string, which is noticed with the query string as the default
    rw [hshape] at hsingle
    refine hsingle.of_iff (fun b => Iff.rfl) fun b => iff_of_false fail_ne_ok ?_
    simp [map_eq_ok, param, placing, Shape.checkFits, Shape.fits]

theorem requestedParams_follows (arg : Argument) (groups : List ParamOptions) :
    Follows (∀ p ∈ ·, FitsQuery p) (List.map inQuery)
      ((inf.placing .body).requestedParams arg groups)
      ((inf.placing .query).requestedParams arg groups) := by
  unfold requestedParams
  cases arg.shape with
  | context | error => exact .of_fail
  | composite fields =>
    simp only
    split
    · exact .of_fail
    · split
      · exact .of_fail
      · exact fieldParams_follows fields _
  | scalar | scalarSeq | sequence | map =>
    simp only
    split
    · exact .of_fail
    · exact .mapM groupParam_follows _

/-- An argument that a directive names is bound alike with either default. -/
theorem requested_follows (arg : Argument) (groups : List ParamOptions) :
    Follows PlannedBinding.FitsQuery PlannedBinding.inQuery
      ((inf.placing .body).requested arg groups) ((inf.placing .query).requested arg groups) :=
  (requestedParams_follows arg groups).map (fun _ => Iff.rfl) fun _ => rfl

theorem blankParam_follows (group : ParamOptions) :
    Follows FitsQuery inQuery ((inf.placing .body).blankParam group)
      ((inf.placing .query).blankParam group) := by
  unfold blankParam
  split
  · exact .of_fail
  · exact .after _ fun _ => param_follows _ _ _ _

/-- Parameters that feed no argument are bound alike with either default. -/
theorem blank_follows (groups : List ParamOptions) :
    Follows PlannedBinding.FitsQuery PlannedBinding.inQuery
      ((inf.placing .body).blank groups) ((inf.placing .query).blank groups) := by
  unfold blank
  split
  · exact .of_fail
  · exact (Follows.mapM blankParam_follows groups).map (fun _ => Iff.rfl) fun _ => rfl

/-- What is asked to be the whole body stays there. -/
theorem wholeBody_follows (arg : Argument) :
    Follows PlannedBinding.FitsQuery PlannedBinding.inQuery
      ((inf.placing .body).wholeBody arg) ((inf.placing .query).wholeBody arg) := by
  have hsame : (inf.placing .query).wholeBody arg = (inf.placing .body).wholeBody arg := rfl
  rw [hsame]
  refine .refl fun b hb => ?_
  obtain ⟨-, rfl⟩ := wholeBody_eq_ok.mp hb
  simp [PlannedBinding.FitsQuery, PlannedBinding.inQuery, wholeBinding, FitsQuery, inQuery]

end Inference

namespace PlannedParam

/-- On the path it does not matter where a parameter was before. -/
@[simp]
theorem onPath_inQuery (p : PlannedParam) : p.inQuery.onPath = p.onPath := by
  rcases p.inQuery_cases with h | ⟨-, -, h⟩ <;> rw [h]
  rfl

@[simp]
theorem inQuery_onPath (p : PlannedParam) : p.onPath.inQuery = p.onPath := by
  simp [inQuery, onPath]

@[simp]
theorem isExplicitPath_inQuery (p : PlannedParam) :
    p.inQuery.isExplicitPath = p.isExplicitPath := by
  cases h : p.explicit with
  | true => rw [inQuery_of_explicit h]
  | false => simp [isExplicitPath, h]

end PlannedParam

namespace PlannedBinding

open PlannedParam

variable {naming : Naming} {v : String} {b : PlannedBinding}

@[simp]
theorem inQuery_argument (b : PlannedBinding) : b.inQuery.argument = b.argument := rfl

/-- What is explicitly read from the path stays there, under its name. -/
@[simp]
theorem explicitPathNames_inQuery (b : PlannedBinding) :
    b.inQuery.explicitPathNames = b.explicitPathNames := by
  simp only [explicitPathNames, inQuery, List.filter_map, Function.comp_def, isExplicitPath_inQuery,
    List.map_map]
  refine List.map_congr_left fun p hp => ?_
  have hexplicit : p.explicit = true := by
    have hpath := List.of_mem_filter hp
    simp only [isExplicitPath, Bool.and_eq_true] at hpath
    exact hpath.1
  rw [inQuery_of_explicit hexplicit]

@[simp]
theorem feedsField_inQuery (p : PlannedParam) : feedsField v p.inQuery = feedsField v p := by
  rcases p.inQuery_cases with h | ⟨-, -, h⟩ <;> rw [h]
  rfl

theorem fieldFromPath_inQuery (argument : String) (p : PlannedParam) :
    fieldFromPath v argument p.inQuery = (fieldFromPath v argument p).map (·.inQuery) := by
  cases hexplicit : p.explicit with
  | true => simp [fieldFromPath, inQuery_of_explicit hexplicit, hexplicit, fail, Except.map]
  | false =>
    rw [fieldFromPath_of_free hexplicit, fieldFromPath_of_free (p.inQuery_explicit.trans hexplicit),
      inQuery_shape, onPath_inQuery]
    cases Checked.within (.pathParameter v) (p.shape.checkFits .path) with
    | error => rfl
    | ok => exact congrArg Except.ok p.inQuery_onPath.symm

theorem readFieldFromPath_inQuery (b : PlannedBinding) :
    b.inQuery.readFieldFromPath v = (b.readFieldFromPath v).map (·.inQuery) := by
  have hparams : updateFirst (feedsField v) (fieldFromPath v b.argument.name) b.inQuery.params =
      (updateFirst (feedsField v) (fieldFromPath v b.argument.name) b.params).map
        (List.map (·.inQuery)) :=
    updateFirst_map feedsField_inQuery (fieldFromPath_inQuery _) b.params
  rw [readFieldFromPath, inQuery_argument, hparams, readFieldFromPath]
  cases updateFirst (feedsField v) (fieldFromPath v b.argument.name) b.params <;> rfl

@[simp]
theorem explicitElsewhere?_inQuery (b : PlannedBinding) :
    b.inQuery.explicitElsewhere? = b.explicitElsewhere? := by
  have hsame (p : PlannedParam) : (p.inQuery.explicit && p.inQuery.param.location ≠ .path) =
      (p.explicit && p.param.location ≠ .path) := by
    cases h : p.explicit with
    | true => rw [inQuery_of_explicit h, h]
    | false => simp [h]
  simp only [explicitElsewhere?, inQuery, List.find?_map, Function.comp_def, hsame, Option.map_map]
  refine Option.map_congr fun p hp => ?_
  have hexplicit : p.explicit = true := by
    have hfound := List.find?_some hp
    simp only [Bool.and_eq_true] at hfound
    exact hfound.1
  rw [inQuery_of_explicit hexplicit]

@[simp]
theorem pathReader_inQuery (b : PlannedBinding) : b.inQuery.pathReader v = b.pathReader v := by
  cases hparams : b.params <;> simp [pathReader, inQuery, hparams]

theorem inQuery_read (b : PlannedBinding) :
    inQuery { b with params := [b.pathReader v] } = { b with params := [b.pathReader v] } := by
  simp [inQuery, PlannedParam.inQuery, pathReader, Parameter.plain]

/-- The argument as a whole is read from the path in the same way wherever it was read before. -/
theorem readFromPath_inQuery (b : PlannedBinding) :
    b.inQuery.readFromPath v = (b.readFromPath v).map (·.inQuery) := by
  rw [readFromPath_eq, readFromPath_eq, explicitElsewhere?_inQuery, inQuery_argument,
    pathReader_inQuery]
  cases b.explicitElsewhere? with
  | some location => rfl
  | none =>
    cases Checked.within (.pathParameter v) (b.argument.shape.checkFits .path) with
    | error => rfl
    | ok => exact congrArg Except.ok b.inQuery_read.symm

end PlannedBinding

namespace Plan

open PlannedBinding

variable {naming : Naming} {v : String}

/-- Binding a variable goes with the move to the query string: what is bound leaves its place, and
nothing that is looked for moves. -/
theorem bindVariable_inQuery (plan : Plan) :
    bindVariable naming v (plan.map (·.inQuery)) =
      (plan.bindVariable naming v).map (List.map (·.inQuery)) := by
  have hnames : explicitPathNames (plan.map (·.inQuery)) = plan.explicitPathNames := by
    simp only [explicitPathNames, List.flatMap_map]
    simp
  have hnamed (b : PlannedBinding) : b.inQuery.isNamed naming v = b.isNamed naming v := rfl
  have hfield (b : PlannedBinding) : b.inQuery.hasField v = b.hasField v := by
    simp [hasField, PlannedBinding.inQuery, List.any_map, Function.comp_def]
  simp only [bindVariable, hnames, List.any_map, Function.comp_def, hnamed, hfield]
  split
  · rfl
  · split
    · exact updateFirst_map hnamed readFromPath_inQuery plan
    · split
      · exact updateFirst_map hfield readFieldFromPath_inQuery plan
      · rfl

end Plan

theorem forall_mem_congr_of_forall₂ {α β : Type} {P : α → Prop} {Q : β → Prop} {xs : List α}
    {ys : List β} (h : List.Forall₂ (fun x y => Q y ↔ P x) xs ys) :
    (∀ y ∈ ys, Q y) ↔ ∀ x ∈ xs, P x := by
  induction h with
  | nil => simp
  | cons hxy _ ih => rw [List.forall_mem_cons, List.forall_mem_cons, hxy, ih]

namespace PlannedBinding

variable {v : String} {b b' : PlannedBinding}

/-- A binding that may be missing is moved if it is there. -/
theorem mapM_toQuery_eq_ok {b? b?' : Option PlannedBinding} :
    b?.mapM (·.toQuery) = .ok b?' ↔ (∀ b ∈ b?, b.FitsQuery) ∧ b?' = b?.map (·.inQuery) := by
  cases b? with
  | none =>
    refine pure_eq_ok.trans ?_
    simp [eq_comm]
  | some b =>
    refine map_eq_ok.trans ?_
    simp only [toQuery_eq_ok]
    constructor
    · rintro ⟨_, ⟨hfits, rfl⟩, rfl⟩
      exact ⟨by simpa using hfits, rfl⟩
    · rintro ⟨hfits, rfl⟩
      exact ⟨b.inQuery, ⟨by simpa using hfits, rfl⟩, rfl⟩

/-- Whether the values of a binding fit the query string does not change when a variable comes to be
read: what is read from the path was a scalar before. -/
theorem WellMade.fitsQuery_iff (h : b.WellMade) (hread : b.ReadBy v b') :
    b'.FitsQuery ↔ b.FitsQuery := by
  cases hread with
  | argument hblank hshape _ =>
    refine iff_of_true (fun p hp => ?_) fun p hp _ _ => ?_
    · obtain rfl := List.mem_singleton.mp hp
      simp [PlannedParam.FitsQuery, pathReader, Parameter.plain]
    · rw [h.scalar hblank hshape p hp]
      rfl
  | @field i p _ hp _ _ hshape _ =>
    -- the one parameter that changes fits before and after
    have hmoved : p.onPath.FitsQuery := by simp [PlannedParam.FitsQuery, PlannedParam.onPath]
    have hscalar : p.FitsQuery := by simp [PlannedParam.FitsQuery, hshape, Shape.fits]
    refine forall_mem_congr_of_forall₂ (forall₂_set ?_ hp ?_)
    · exact fun _ => Iff.rfl
    · exact iff_of_true hmoved hscalar

theorem WellMade.fitsQuery_iff_of_reach {vars : List String} (h : b.WellMade)
    (hreach : Relation.ReflTransGen (fun b b' => ∃ v ∈ vars, b.ReadBy v b') b b') :
    b'.WellMade ∧ (b'.FitsQuery ↔ b.FitsQuery) := by
  induction hreach with
  | refl => exact ⟨h, Iff.rfl⟩
  | tail _ hstep ih =>
    obtain ⟨v, -, hread⟩ := hstep
    exact ⟨ih.1.readBy hread, (ih.1.fitsQuery_iff hread).trans ih.2⟩

end PlannedBinding

namespace Method

variable {m : Method} {options : ResolveOptions} {decl : Declarations} {plan plan' : Plan}
  {vars : List String}

theorem bindPathVar_inQuery (plan : Plan) (v : String) :
    m.bindPathVar decl options (plan.map (·.inQuery)) v =
      (m.bindPathVar decl options plan v).map (List.map (·.inQuery)) := by
  simp only [bindPathVar, Plan.bindVariable_inQuery]
  cases Plan.bindVariable options.naming v plan <;> rfl

/-- Binding variables one after the other goes with the move to the query string. -/
theorem foldlM_bindPathVar_inQuery (plan : Plan) :
    vars.foldlM (m.bindPathVar decl options) (plan.map (·.inQuery)) =
      (vars.foldlM (m.bindPathVar decl options) plan).map (List.map (·.inQuery)) :=
  foldlM_map_comm (fun plan v _ => bindPathVar_inQuery plan v) plan

theorem fitsQuery_iff_of_run (hplan : ∀ b ∈ plan, b.WellMade)
    (h : vars.foldlM (m.bindPathVar decl options) plan = .ok plan') :
    (∀ b ∈ plan', b.FitsQuery) ↔ ∀ b ∈ plan, b.FitsQuery := by
  have hreach := (List.forall₂_and_left _ _).mpr ⟨hplan, foldlM_bindPathVar_forall₂ h⟩
  exact forall_mem_congr_of_forall₂
    (hreach.imp fun b b' hb => (hb.1.fitsQuery_iff_of_reach hb.2).2)

/-- Variables are bound alike in bindings that are moved to the query string before or after. -/
theorem run_follows (hplan : ∀ b ∈ plan, b.WellMade) (hfits : ∀ b ∈ plan, b.FitsQuery) :
    Follows (∀ b ∈ ·, PlannedBinding.FitsQuery b) (List.map (·.inQuery))
      (vars.foldlM (m.bindPathVar decl options) plan)
      (vars.foldlM (m.bindPathVar decl options) (plan.map (·.inQuery))) := by
  rw [foldlM_bindPathVar_inQuery]
  intro plan'
  rw [map_eq_ok]
  constructor
  · rintro ⟨plan₁, hrun, rfl⟩
    exact ⟨plan₁, hrun, (fitsQuery_iff_of_run hplan hrun).mpr hfits, rfl⟩
  · rintro ⟨plan₁, hrun, -, rfl⟩
    exact ⟨plan₁, hrun, rfl⟩

variable {inf : Inference}

/-- The binding with what it is declared by. -/
theorem bindArgument_follows (arg : Argument) :
    Follows (∀ d ∈ ·, PlannedBinding.FitsQuery d.value)
      (Option.map fun d => { d with value := d.value.inQuery })
      (m.bindArgument (inf.placing .body) decl arg)
      (m.bindArgument (inf.placing .query) decl arg) := by
  unfold bindArgument
  split
  · exact ((Inference.wholeBody_follows arg).of_iff (fun _ => at_eq_ok) fun _ => at_eq_ok).map
      (fun b => by simp) fun b => rfl
  · exact ((Inference.requested_follows arg _).of_iff (fun _ => at_eq_ok) fun _ => at_eq_ok).map
      (fun b => by simp) fun b => rfl
  · exact ((Inference.implied_follows arg).of_iff (fun _ => at_eq_ok) fun _ => at_eq_ok).map
      (fun b? => by simp) fun b? => by cases b? <;> rfl

theorem bindBlank_follows (clause : Declared ArgumentClause) :
    Follows (fun d => d.value.FitsQuery) (fun d => { d with value := d.value.inQuery })
      (m.bindBlank (inf.placing .body) clause) (m.bindBlank (inf.placing .query) clause) :=
  ((Inference.blank_follows clause.value.groups).of_iff (fun _ => at_eq_ok)
    fun _ => at_eq_ok).map (fun _ => Iff.rfl) fun _ => rfl

theorem bindings_follows : Follows (∀ d ∈ ·, d.value.FitsQuery)
    (List.map fun d => { d with value := d.value.inQuery })
    (m.bindings (inf.placing .body) decl) (m.bindings (inf.placing .query) decl) := by
  refine Follows.bind (Follows.mapM bindArgument_follows m.args) ?_ fun fed _ hfed => ?_
  · intro fed bs _ h hfits d? hd? d hd
    obtain ⟨blank, -, h⟩ := bind_eq_ok.mp h
    obtain rfl := pure_eq_ok.mp h
    exact hfits d (List.mem_append_left _ (List.mem_filterMap.mpr ⟨d?, hd?, hd⟩))
  · refine (Follows.mapM bindBlank_follows decl.blankClauses).bind_pure (fun blank => ?_)
      fun blank => ?_
    · rw [List.forall_mem_append]
      refine and_iff_right fun d hd => ?_
      obtain ⟨d?, hd?, hd⟩ := List.mem_filterMap.mp hd
      exact hfed d? hd? d hd
    · simp [List.map_filterMap, List.filterMap_map]

/-- The bindings of the method with variables bound one after the other. -/
def template (m : Method) (inf : Inference) (decl : Declarations) (options : ResolveOptions)
    (vars : List String) : Diagnosed Plan := do
  let bindings ← m.bindings inf decl
  vars.foldlM (m.bindPathVar decl options) (bindings.map (·.value))

/-- The plan of the method with a way of inference that is given. -/
def planBy (m : Method) (inf : Inference) (decl : Declarations) (options : ResolveOptions) :
    Diagnosed Plan := do
  let bindings ← m.bindings inf decl
  m.checkPathNames decl.pathVars bindings
  decl.pathVars.foldlM (m.bindPathVar decl options) (bindings.map (·.value))

theorem plan_eq_planBy :
    m.plan decl options = m.planBy ((inference decl options).placing .body) decl options := rfl

/-- Bindings are checked and variables bound alike with either default, if the check does not look
at what moves. -/
theorem bound_follows (check : List (Declared PlannedBinding) → Diagnosed Unit)
    (hcheck : ∀ bs, check (bs.map fun d => { d with value := d.value.inQuery }) = check bs) :
    Follows (∀ b ∈ ·, PlannedBinding.FitsQuery b) (List.map (·.inQuery))
      (m.bindings (inf.placing .body) decl >>= fun bs => check bs >>= fun _ =>
        vars.foldlM (m.bindPathVar decl options) (bs.map (·.value)))
      (m.bindings (inf.placing .query) decl >>= fun bs => check bs >>= fun _ =>
        vars.foldlM (m.bindPathVar decl options) (bs.map (·.value))) := by
  have hmade (bs : List (Declared PlannedBinding))
      (hbs : m.bindings (inf.placing .body) decl = .ok bs) :
      ∀ b ∈ bs.map (·.value), b.WellMade := by
    rw [List.forall_mem_map]
    exact fun d hd => (bindings_makes hbs d hd).wellMade rfl
  refine bindings_follows.bind (fun bs plan hbs hrun hfits => ?_) fun bs hbs hfits => ?_
  · -- no value that does not fit has come to fit by being bound to a variable
    obtain ⟨_, -, hrun⟩ := bind_eq_ok.mp hrun
    exact List.forall_mem_map.mp ((fitsQuery_iff_of_run (hmade bs hbs) hrun).mp hfits)
  · rw [hcheck]
    refine .after _ fun _ => ?_
    have hmoved : (bs.map fun d => { d with value := d.value.inQuery }).map (·.value) =
        (bs.map (·.value)).map (·.inQuery) := by
      rw [List.map_map, List.map_map]
      rfl
    rw [hmoved]
    exact run_follows (hmade bs hbs) (List.forall_mem_map.mpr hfits)

theorem template_follows :
    Follows (∀ b ∈ ·, PlannedBinding.FitsQuery b) (List.map (·.inQuery))
      (m.template (inf.placing .body) decl options vars)
      (m.template (inf.placing .query) decl options vars) :=
  bound_follows (fun _ => pure ()) fun _ => rfl

theorem planBy_follows :
    Follows (∀ b ∈ ·, PlannedBinding.FitsQuery b) (List.map (·.inQuery))
      (m.planBy (inf.placing .body) decl options) (m.planBy (inf.placing .query) decl options) := by
  refine bound_follows (m.checkPathNames decl.pathVars) fun bs => ?_
  simp only [checkPathNames, List.flatMap_map, PlannedBinding.explicitPathNames_inQuery]

/-- Having moved what nothing asked for out of the body, an operation without a synthesized body is
resolved as if the query string had been the default from the start; and so is every part of its
plan, from the binding of one argument to all bindings with variables bound. -/
theorem query_as_default (m : Method) (inf : Inference) (decl : Declarations)
    (options : ResolveOptions) :
    (∀ arg, SucceedAlike ((inf.placing .body).implied arg >>= (·.mapM (·.toQuery)))
      ((inf.placing .query).implied arg)) ∧
    (∀ arg groups, SucceedAlike ((inf.placing .body).requested arg groups >>= (·.toQuery))
      ((inf.placing .query).requested arg groups)) ∧
    (∀ groups, SucceedAlike ((inf.placing .body).blank groups >>= (·.toQuery))
      ((inf.placing .query).blank groups)) ∧
    (∀ vars raw, SucceedAlike
      (m.template (inf.placing .body) decl options vars >>= fun plan =>
        Checked.at m.name raw plan.toQuery)
      (m.template (inf.placing .query) decl options vars)) ∧
    ∀ route, requestBody decl route.value ≠ .synthesized → SucceedAlike
      (m.plan decl options >>= fun plan => m.request decl plan route)
      (m.planBy ((inference decl options).placing .query) decl options >>=
        m.settledRequest decl route) := by
  refine ⟨fun arg => ?_, fun arg groups => ?_, fun groups => ?_, fun vars raw => ?_,
    fun route hbody => ?_⟩
  · exact (Inference.implied_follows arg).succeedAlike fun _ _ =>
      PlannedBinding.mapM_toQuery_eq_ok
  · exact (Inference.requested_follows arg groups).succeedAlike fun _ _ =>
      PlannedBinding.toQuery_eq_ok
  · exact (Inference.blank_follows groups).succeedAlike fun _ _ => PlannedBinding.toQuery_eq_ok
  · exact template_follows.succeedAlike fun _ _ => at_eq_ok.trans Plan.toQuery_eq_ok
  · have hplan : SucceedAlike
        (m.plan decl options >>= fun plan => Checked.at m.name route.raw plan.toQuery)
        (m.planBy ((inference decl options).placing .query) decl options) :=
      by
        rw [plan_eq_planBy]
        exact planBy_follows.succeedAlike fun _ _ => at_eq_ok.trans Plan.toQuery_eq_ok
    have hrequest : (fun plan => m.request decl plan route) = fun plan =>
        Checked.at m.name route.raw plan.toQuery >>= m.settledRequest decl route := by
      funext plan
      rw [request_eq, if_neg hbody]
    rw [hrequest, ← bind_assoc]
    exact hplan.bind _

/-- A search without a body, by a variable, by labels and by the fields of a filter. -/
def findItems : Method where
  name := "FindItems"
  args := [⟨"owner", "string", .scalar⟩, ⟨"labels", "[]string", .scalarSeq⟩,
    ⟨"filter", "Filter", .composite [⟨"Title", "string", .scalar, none⟩,
      ⟨"ShelfID", "string", .scalar, none⟩]⟩]
  returns := [⟨"items", "[]Item", .sequence⟩]
  doc := ["//kun:op GET /users/{owner}/shelves/{shelf_id}/items"]

theorem query_as_default_of_findItems : ∃ decl route req,
    findItems.declarations .empty = .ok decl ∧ decl.routes = [route] ∧
    requestBody decl route.value ≠ .synthesized ∧
    req.params.map (·.key) =
      [(.path, "owner"), (.query, "labels"), (.query, "title"), (.path, "shelf_id")] ∧
    (findItems.plan decl {} >>= fun plan => findItems.request decl plan route) = .ok req ∧
    (findItems.planBy ((inference decl {}).placing .query) decl {} >>=
      findItems.settledRequest decl route) = .ok req := by
  obtain ⟨decl, hdecl, hrequests⟩ : ∃ decl, findItems.declarations .empty = .ok decl ∧
      decl.routes.map (fun route => (requestBody decl route.value,
        ((findItems.plan decl {} >>= fun plan => findItems.request decl plan route).toOption).map
          fun req => req.params.map (·.key))) =
        [(.none, some [(.path, "owner"), (.query, "labels"), (.query, "title"),
          (.path, "shelf_id")])] :=
    exists_ok_of_map (by decide +kernel)
  obtain ⟨route, hroute, hrequest⟩ := List.map_eq_singleton_iff.mp hrequests
  obtain ⟨hbody, hparams⟩ := Prod.mk.inj hrequest
  obtain ⟨req, hreq, hkeys⟩ := exists_ok_of_map hparams
  have hnone : requestBody decl route.value ≠ .synthesized := by simp [hbody]
  obtain ⟨-, -, -, -, halike⟩ := query_as_default findItems (inference decl {}) decl {}
  exact ⟨decl, route, req, hdecl, hroute, hnone, hkeys, hreq, (halike route hnone req).mp hreq⟩

end Method

end Routespec
