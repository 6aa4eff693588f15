import Routespec.Proofs.PathVariables
import Routespec.Proofs.Resolution

/-!
# The plan of a method

All operations of a method share one plan. It holds a binding for each argument that takes part in
requests, in order, and then one for each clause without an argument. Binding the path variables
keeps what inference says of each of them.
-/

namespace Routespec

open PlannedBinding

/-- The arguments of the method that take part in requests. -/
def Method.eligible (m : Method) : List Argument := m.args.filter (!·.shape.isExcluded)

/-- The argument of the name is declared to be the whole body. -/
def Declarations.IsWholeBody (decl : Declarations) (name : String) : Prop :=
  ∃ raw, decl.wholeBody? = some ⟨name, raw⟩

/-- A binding of the argument in a plan whose path variables are bound. -/
structure PlannedBinding.PlannedFor (vars : List String) (arg : Argument) (b : PlannedBinding) :
    Prop where
  argument : b.argument = arg
  blank : b.blank = false
  fed : arg.shape.FedBy b.params
  sound : ∀ p ∈ b.params, p.Sound
  named : ∀ p ∈ b.params, p.param.location = .path → p.param.name ∈ vars
  placed : ∀ p ∈ b.params, p.explicit = true → p.param.location ≠ .body

/-- A binding of a clause without an argument in a plan whose path variables are bound. -/
structure PlannedBinding.BlankPlannedFor (vars : List String) (groups : List ParamOptions)
    (b : PlannedBinding) : Prop extends b.BlankFor groups where
  onPattern : ∀ p ∈ b.params, p.param.location = .path → p.param.name ∈ vars

namespace PlannedBinding

variable {vars : List String} {arg : Argument} {b b' : PlannedBinding}

/-- What was inferred is read from the path only where that was asked for. -/
theorem mem_explicitPathNames {p : PlannedParam} (hp : p ∈ b.params) (hinferred : p.Inferred)
    (hpath : p.param.location = .path) : p.param.name ∈ b.explicitPathNames := by
  have hexplicit : p.explicit = true := hinferred.explicit_iff.mpr (by simp [hpath])
  refine List.mem_map.mpr ⟨p, List.mem_filter.mpr ⟨hp, ?_⟩, rfl⟩
  simp [PlannedParam.isExplicitPath, hexplicit, hpath]

theorem InferredFor.plannedFor (h : b.InferredFor arg)
    (hnames : ∀ name ∈ b.explicitPathNames, name ∈ vars) : b.PlannedFor vars arg where
  argument := h.argument
  blank := h.blank
  fed := h.fed
  sound p hp := (h.inferred p hp).toSound
  named p hp hpath := hnames _ (mem_explicitPathNames hp (h.inferred p hp) hpath)
  placed p hp hexplicit := (h.inferred p hp).explicit_iff.mp hexplicit

/-- Binding a variable of some pattern keeps what is known of a binding. -/
theorem PlannedFor.readBy {v : String} (h : b.PlannedFor vars arg) (hv : v ∈ vars)
    (hread : b.ReadBy v b') : b'.PlannedFor vars arg := by
  have harg : b'.argument = arg := hread.argument_eq.trans h.argument
  refine ⟨harg, hread.blank_eq.2, ?_, hread.sound h.sound, ?_, ?_⟩
  · rw [← harg]
    exact hread.fedBy (h.argument.symm ▸ h.fed)
  · intro p hp hpath
    rcases hread.mem_params hp with hp | ⟨-, rfl, -⟩
    · exact h.named p hp hpath
    · exact hv
  · intro p hp hexplicit
    rcases hread.mem_params hp with hp | ⟨-, -, hfree, -⟩
    · exact h.placed p hp hexplicit
    · simp [hfree] at hexplicit

/-- No variable is read from the argument that is the whole body. -/
theorem not_readBy_wholeBinding {inf : Inference} {v : String} :
    ¬ (inf.wholeBinding arg).ReadBy v b' := by
  intro hread
  obtain ⟨q, hq, hfield⟩ := hread.not_elsewhere (List.mem_singleton.mpr rfl) rfl (by
    simp [Parameter.plain])
  obtain rfl := List.mem_singleton.mp hq
  simp [Parameter.plain] at hfield

end PlannedBinding

/-- The binding that a plan has for the argument when its path variables are bound. -/
inductive Declarations.Plans (decl : Declarations) (inf : Inference) (arg : Argument) :
    PlannedBinding → Prop
  | whole (hwhole : decl.IsWholeBody arg.name) (hincluded : arg.shape.isExcluded = false) :
      Plans decl inf arg (inf.wholeBinding arg)
  | planned {b : PlannedBinding} (hwhole : ¬ decl.IsWholeBody arg.name)
      (hb : b.PlannedFor decl.pathVars arg) : Plans decl inf arg b

theorem Declarations.Plans.argument_eq {decl : Declarations} {inf : Inference} {arg : Argument}
    {b : PlannedBinding} (h : decl.Plans inf arg b) : b.argument = arg ∧ b.blank = false := by
  cases h with
  | whole => exact ⟨rfl, rfl⟩
  | planned hwhole hb => exact ⟨hb.argument, hb.blank⟩

namespace Method

variable {m : Method} {options : ResolveOptions} {decl : Declarations} {inf : Inference}

/-- An argument is the body of requests if it is declared to be. -/
theorem requestBody_eq_field {route : Route} {f : String} :
    requestBody decl route = .field f ↔ decl.IsWholeBody f := by
  unfold requestBody Declarations.IsWholeBody Declarations.wholeBody?
  cases decl.body with
  | none => by_cases hcarries : route.method.carriesBody <;> simp [hcarries]
  | some body =>
    obtain ⟨rule, raw⟩ := body
    cases rule with
    | absent => simp
    | whole argument => simp
    | overlaid overlays => by_cases hcarries : route.method.carriesBody <;> simp [hcarries]

/-- The binding of an argument before path variables are looked at. -/
inductive Starts (decl : Declarations) (inf : Inference) (arg : Argument) : PlannedBinding → Prop
  | whole (hwhole : decl.IsWholeBody arg.name) (hincluded : arg.shape.isExcluded = false) :
      Starts decl inf arg (inf.wholeBinding arg)
  | inferred {b : PlannedBinding} (hwhole : ¬ decl.IsWholeBody arg.name)
      (hb : b.InferredFor arg) : Starts decl inf arg b

theorem Starts.argument_eq {arg : Argument} {b : PlannedBinding} (h : Starts decl inf arg b) :
    b.argument = arg ∧ b.blank = false := by
  cases h with
  | whole => exact ⟨rfl, rfl⟩
  | inferred hwhole hb => exact ⟨hb.argument, hb.blank⟩

theorem bindArgument_cases (hinf : inf.fallback = .body)
    (hclauses : ∀ c ∈ decl.clauses, c.value.LeavesBody) {arg : Argument}
    {d? : Option (Declared PlannedBinding)} (h : m.bindArgument inf decl arg = .ok d?) :
    (arg.shape.isExcluded = true ∧ d? = none) ∨
    (arg.shape.isExcluded = false ∧ ∃ d, d? = some d ∧ Starts decl inf arg d.value) := by
  unfold bindArgument at h
  split at h
  · next body hbody =>
    obtain ⟨b, hb, rfl⟩ := map_eq_ok.mp h
    obtain ⟨hincluded, rfl⟩ := Inference.wholeBody_eq_ok.mp (at_eq_ok.mp hb)
    rw [Option.filter_eq_some_iff, decide_eq_true_eq] at hbody
    refine .inr ⟨hincluded, _, rfl, .whole ⟨body.raw, ?_⟩ hincluded⟩
    rw [hbody.1, ← hbody.2]
  · next clause hbody hclause =>
    obtain ⟨b, hb, rfl⟩ := map_eq_ok.mp h
    have hmem : clause ∈ decl.clauses := List.mem_of_find?_eq_some hclause
    have hb := Inference.requested_inferred hinf (hclauses clause hmem) (at_eq_ok.mp hb)
    refine .inr ⟨hb.included, _, rfl, .inferred ?_ hb⟩
    rintro ⟨raw, hraw⟩
    simp [hraw] at hbody
  · next hbody hclause =>
    obtain ⟨b?, hb, rfl⟩ := map_eq_ok.mp h
    rcases Inference.implied_inferred hinf (at_eq_ok.mp hb) with ⟨hexcluded, rfl⟩ | ⟨b, rfl, hfor⟩
    · exact .inl ⟨hexcluded, rfl⟩
    · refine .inr ⟨hfor.included, _, rfl, .inferred ?_ hfor⟩
      rintro ⟨raw, hraw⟩
      simp [hraw] at hbody

/-- Each argument that takes part in requests has a binding of its own, and no other has one. -/
theorem bindArguments_eq_ok (hinf : inf.fallback = .body)
    (hclauses : ∀ c ∈ decl.clauses, c.value.LeavesBody) {args : List Argument}
    {fed : List (Option (Declared PlannedBinding))}
    (h : args.mapM (m.bindArgument inf decl) = .ok fed) :
    List.Forall₂ (fun arg d => m.bindArgument inf decl arg = .ok (some d))
      (args.filter (!·.shape.isExcluded)) (fed.filterMap id) := by
  rw [mapM_eq_ok] at h
  induction h with
  | nil => exact .nil
  | @cons arg d? args fed hd _ ih =>
    rcases bindArgument_cases hinf hclauses hd with ⟨hexcluded, rfl⟩ | ⟨hincluded, d, rfl, -⟩
    · simpa [hexcluded] using ih
    · simpa [hincluded] using ⟨hd, ih⟩

/-- Before path variables are looked at, the plan has a binding for each argument that takes part
and one for each clause without an argument. -/
theorem bindings_eq_ok (hinf : inf.fallback = .body)
    (hclauses : ∀ c ∈ decl.clauses, c.value.LeavesBody) {bs : List (Declared PlannedBinding)}
    (h : m.bindings inf decl = .ok bs) :
    ∃ fed blank, bs = fed ++ blank ∧
      List.Forall₂ (fun arg d => m.bindArgument inf decl arg = .ok (some d)) m.eligible fed ∧
      List.Forall₂ (fun c d => m.bindBlank inf c = .ok d) decl.blankClauses blank := by
  obtain ⟨fed, hfed, h⟩ := bind_eq_ok.mp h
  obtain ⟨blank, hblank, h⟩ := bind_eq_ok.mp h
  obtain rfl := pure_eq_ok.mp h
  exact ⟨_, blank, rfl, bindArguments_eq_ok hinf hclauses hfed, mapM_eq_ok.mp hblank⟩

/-- What each of those bindings starts out as. -/
theorem bindings_starts (hinf : inf.fallback = .body)
    (hclauses : ∀ c ∈ decl.clauses, c.value.LeavesBody) {bs : List (Declared PlannedBinding)}
    (h : m.bindings inf decl = .ok bs) :
    ∃ fed blank, bs = fed ++ blank ∧
      List.Forall₂ (fun arg d => Starts decl inf arg d.value) m.eligible fed ∧
      List.Forall₂ (fun c d => d.value.BlankFor c.value.groups) decl.blankClauses blank := by
  obtain ⟨fed, blank, rfl, hfed, hblank⟩ := bindings_eq_ok hinf hclauses h
  refine ⟨fed, blank, rfl, hfed.imp fun arg d hd => ?_, ?_⟩
  · rcases bindArgument_cases hinf hclauses hd with ⟨-, hnone⟩ | ⟨-, d', hd', hstarts⟩
    · cases hnone
    · exact Option.some.inj hd' ▸ hstarts
  · have hleave : ∀ c ∈ decl.blankClauses, c.value.LeavesBody := fun c hc =>
      hclauses c (List.mem_of_mem_filter hc)
    refine ((List.forall₂_and_left _ _).mpr ⟨hleave, hblank⟩).imp fun c d hd => ?_
    obtain ⟨b, hb, rfl⟩ := map_eq_ok.mp hd.2
    exact Inference.blank_inferred hinf hd.1 (at_eq_ok.mp hb)

/-- Before path variables are looked at, every binding is that of an argument or of a clause without
one. -/
theorem mem_bindings_cases (hinf : inf.fallback = .body)
    (hclauses : ∀ c ∈ decl.clauses, c.value.LeavesBody) {bs : List (Declared PlannedBinding)}
    (h : m.bindings inf decl = .ok bs) {b : PlannedBinding} (hb : b ∈ bs.map (·.value)) :
    (∃ arg, Starts decl inf arg b) ∨ ∃ groups, b.BlankFor groups := by
  obtain ⟨fed, blank, rfl, hfed, hblank⟩ := bindings_starts hinf hclauses h
  obtain ⟨d, hd, rfl⟩ := List.mem_map.mp hb
  rcases List.mem_append.mp hd with hd | hd
  · obtain ⟨arg, -, hstarts⟩ := forall₂_mem_right hfed hd
    exact .inl ⟨arg, hstarts⟩
  · obtain ⟨c, -, hblank⟩ := forall₂_mem_right hblank hd
    exact .inr ⟨c.value.groups, hblank⟩

theorem checkPathNames_eq_ok {vars : List String} {bs : List (Declared PlannedBinding)}
    {u : Unit} : m.checkPathNames vars bs = .ok u ↔
      ∀ d ∈ bs, ∀ name ∈ d.value.explicitPathNames, name ∈ vars := by
  simp only [checkPathNames]
  split
  · next name raw hfound =>
    have hmem := List.mem_of_find?_eq_some hfound
    have hforeign : name ∉ vars := by simpa using List.find?_some hfound
    obtain ⟨d, hd, hname⟩ := List.mem_flatMap.mp hmem
    obtain ⟨name', hname', heq⟩ := List.mem_map.mp hname
    obtain ⟨rfl, -⟩ : name' = name ∧ d.raw = raw := by simpa using heq
    exact iff_of_false (fun h => fail_ne_ok (at_eq_ok.mp h)) fun h => hforeign (h d hd _ hname')
  · next hnone =>
    refine iff_of_true rfl fun d hd name hname => ?_
    rw [List.find?_eq_none] at hnone
    simpa using hnone ⟨name, d.raw⟩
      (List.mem_flatMap.mpr ⟨d, hd, List.mem_map.mpr ⟨name, hname, rfl⟩⟩)

/-- Binding variables one after the other changes bindings one at a time. -/
theorem foldlM_bindPathVar_forall₂ {vars : List String} {plan plan' : Plan}
    (h : vars.foldlM (m.bindPathVar decl options) plan = .ok plan') :
    List.Forall₂ (Relation.ReflTransGen fun b b' => ∃ v ∈ vars, b.ReadBy v b') plan plan' := by
  induction vars generalizing plan with
  | nil =>
    obtain rfl := pure_eq_ok.mp h
    exact List.forall₂_same.mpr fun _ _ => .refl
  | cons v vars ih =>
    obtain ⟨plan₁, hstep, hrest⟩ := foldlM_cons_eq_ok.mp h
    have hstep := (Plan.bindVariable_binds (at_eq_ok.mp hstep)).forall₂
    refine forall₂_trans (fun b b₁ b' hone hmany => ?_) hstep (ih hrest)
    have hmany : Relation.ReflTransGen (fun b b' => ∃ w ∈ v :: vars, b.ReadBy w b') b₁ b' :=
      Relation.ReflTransGen.mono
        (fun _ _ ⟨w, hw, hread⟩ => ⟨w, List.mem_cons_of_mem v hw, hread⟩) _ _ hmany
    cases hone with
    | refl => exact hmany
    | single hread => exact hmany.head ⟨v, List.mem_cons_self, hread⟩

/-- Binding variables of patterns keeps an argument's binding what it is planned to be. -/
theorem Starts.plans {arg : Argument} {b b' : PlannedBinding} (h : Starts decl inf arg b)
    (hnames : ∀ name ∈ b.explicitPathNames, name ∈ decl.pathVars)
    (hreach : Relation.ReflTransGen (fun b b' => ∃ v ∈ decl.pathVars, b.ReadBy v b') b b') :
    decl.Plans inf arg b' := by
  cases h with
  | whole hwhole hincluded =>
    rcases Relation.ReflTransGen.cases_head hreach with rfl | ⟨_, ⟨v, -, hread⟩, -⟩
    · exact .whole hwhole hincluded
    · exact absurd hread not_readBy_wholeBinding
  | inferred hwhole hb =>
    refine .planned hwhole ?_
    -- what is inferred is planned for, and each variable that is bound keeps it so
    induction hreach with
    | refl => exact hb.plannedFor hnames
    | tail _ hread ih =>
      obtain ⟨v, hv, hread⟩ := hread
      exact ih.readBy hv hread

/-- No variable is read from a binding that feeds no argument. -/
theorem blankFor_plans {groups : List ParamOptions} {b b' : PlannedBinding}
    (h : b.BlankFor groups) (hnames : ∀ name ∈ b.explicitPathNames, name ∈ decl.pathVars)
    (hreach : Relation.ReflTransGen (fun b b' => ∃ v ∈ decl.pathVars, b.ReadBy v b') b b') :
    b'.BlankPlannedFor decl.pathVars groups := by
  rcases Relation.ReflTransGen.cases_head hreach with rfl | ⟨_, ⟨v, -, hread⟩, -⟩
  · exact ⟨h, fun p hp hpath => hnames _ (mem_explicitPathNames hp (h.inferred p hp) hpath)⟩
  · have hblank := hread.blank_eq.1
    rw [h.blank] at hblank
    cases hblank

/-- The finished plan has a binding for each argument that takes part in requests, in order, and
then one for each clause without an argument. -/
theorem plan_eq_ok {plan : Plan} (hclauses : ∀ c ∈ decl.clauses, c.value.LeavesBody)
    (h : m.plan decl options = .ok plan) :
    ∃ fed blank, plan = fed ++ blank ∧
      List.Forall₂ (decl.Plans (inference decl options)) m.eligible fed ∧
      List.Forall₂ (fun c b => b.BlankPlannedFor decl.pathVars c.value.groups)
        decl.blankClauses blank := by
  obtain ⟨bs, hbs, h⟩ := bind_eq_ok.mp h
  obtain ⟨_, hnames, hrun⟩ := bind_eq_ok.mp h
  replace hnames := checkPathNames_eq_ok.mp hnames
  obtain ⟨fed₀, blank₀, rfl, hfed₀, hblank₀⟩ := bindings_starts rfl hclauses hbs
  have hreach := foldlM_bindPathVar_forall₂ hrun
  rw [List.map_append] at hreach
  obtain ⟨fed, blank, rfl, hfed, hblank⟩ := forall₂_append_left hreach
  rw [List.forall₂_map_left_iff] at hfed hblank
  rw [List.forall_mem_append] at hnames
  refine ⟨fed, blank, rfl, ?_, ?_⟩
  · refine forall₂_trans (fun arg d b hd hb => ?_) hfed₀
      ((List.forall₂_and_left _ _).mpr ⟨hnames.1, hfed⟩)
    exact hd.plans hb.1 hb.2
  · refine forall₂_trans (fun c d b hd hb => ?_) hblank₀
      ((List.forall₂_and_left _ _).mpr ⟨hnames.2, hblank⟩)
    exact blankFor_plans hd hb.1 hb.2

/-- Every binding of the finished plan is that of an argument or of a clause without one. -/
theorem mem_plan_cases {plan : Plan} (hclauses : ∀ c ∈ decl.clauses, c.value.LeavesBody)
    (h : m.plan decl options = .ok plan) {b : PlannedBinding} (hb : b ∈ plan) :
    (∃ arg, decl.Plans (inference decl options) arg b) ∨
      ∃ groups, b.BlankPlannedFor decl.pathVars groups := by
  obtain ⟨fed, blank, rfl, hfed, hblank⟩ := plan_eq_ok hclauses h
  rcases List.mem_append.mp hb with hb | hb
  · obtain ⟨arg, -, hplans⟩ := forall₂_mem_right hfed hb
    exact .inl ⟨arg, hplans⟩
  · obtain ⟨c, -, hplanned⟩ := forall₂_mem_right hblank hb
    exact .inr ⟨c.value.groups, hplanned⟩

/-- Every parameter of the finished plan fits its place, and what is read from the path is a
variable of some pattern. -/
theorem sound_of_plan {plan : Plan} (hclauses : ∀ c ∈ decl.clauses, c.value.LeavesBody)
    (h : m.plan decl options = .ok plan) {b : PlannedBinding} (hb : b ∈ plan) {p : PlannedParam}
    (hp : p ∈ b.params) :
    p.Sound ∧ (p.param.location = .path → p.param.name ∈ decl.pathVars) := by
  rcases mem_plan_cases hclauses h hb with ⟨arg, hplans⟩ | ⟨groups, hplanned⟩
  · cases hplans with
    | whole hwhole hincluded =>
      refine ⟨Inference.wholeBinding_sound hincluded p hp, ?_⟩
      obtain rfl := List.mem_singleton.mp hp
      simp [Parameter.plain]
    | planned hwhole hplanned => exact ⟨hplanned.sound p hp, hplanned.named p hp⟩
  · exact ⟨(hplanned.inferred p hp).toSound, hplanned.onPattern p hp⟩

end Method

end Routespec
