import Routespec.Method.Resolution
import Routespec.Proofs.Agreement
import Routespec.Proofs.ArgumentSpacing

/-!
# Directives written otherwise

A method is resolved by what its directives say. How they were written shows in the texts of faults
and decides nothing: directives of the same keywords and the same arguments, but for white space
around them, declare the same values, and the method fails with a fault of the same kind or resolves
to the same operations.
-/

namespace Routespec

/-- Both declare the same value. -/
def Declared.Same {α : Type} (a b : Declared α) : Prop := a.value = b.value

/-- Either there is nothing declared, or one value. -/
theorem Declared.Same.cases {α : Type} {x y : Option (Declared α)} (h : Option.Rel Same x y) :
    (x = none ∧ y = none) ∨
      ∃ value raw raw', x = some ⟨value, raw⟩ ∧ y = some ⟨value, raw'⟩ := by
  cases h with
  | none => exact .inl ⟨rfl, rfl⟩
  | @some a b hab =>
    obtain ⟨value, raw⟩ := a
    obtain ⟨value', raw'⟩ := b
    obtain rfl : value = value' := hab
    exact .inr ⟨value, raw, raw', rfl, rfl⟩

section Lists

variable {α : Type} {xs ys : List (Declared α)} (h : List.Forall₂ Declared.Same xs ys)

include h

theorem Declared.Same.map_value : xs.map (·.value) = ys.map (·.value) := by
  induction h with
  | nil => rfl
  | cons hxy _ ih => rw [List.map_cons, List.map_cons, hxy, ih]

theorem Declared.Same.find? (p : α → Bool) :
    Option.Rel Declared.Same (xs.find? (p ·.value)) (ys.find? (p ·.value)) := by
  induction h with
  | nil => exact .none
  | @cons x y _ _ hxy _ ih =>
    have hp : p x.value = p y.value := congrArg p hxy
    rw [List.find?_cons, List.find?_cons, ← hp]
    cases p x.value with
    | false => exact ih
    | true => exact .some hxy

theorem Declared.Same.filter (p : α → Bool) :
    List.Forall₂ Declared.Same (xs.filter (p ·.value)) (ys.filter (p ·.value)) :=
  forall₂_filter (fun _ _ hxy => congrArg p hxy.symm) h

theorem Declared.Same.zipIdx (n : Nat) :
    List.Forall₂ (fun x y => Declared.Same x.1 y.1 ∧ x.2 = y.2) (xs.zipIdx n) (ys.zipIdx n) := by
  induction h generalizing n with
  | nil => exact .nil
  | cons hxy _ ih => exact .cons ⟨hxy, rfl⟩ (ih (n + 1))

end Lists

/-- The directive has the same keyword, and its arguments are trimmed. -/
structure Directive.TrimmedTo (d d' : Directive) : Prop where
  keyword : d'.keyword = d.keyword
  args : d'.args = trimmed d.args

/-- A reader that sees no white space around arguments reads the same from both. -/
theorem Directive.TrimmedTo.agree_read {α : Type} {read : String → Checked α} {d d' : Directive}
    (hd : d.TrimmedTo d') (owner : String) (hread : ∀ args,
      (read (trimmed args)).mapError Fault.kind = (read args).mapError Fault.kind) :
    Agree Eq (Checked.at owner d.raw (read d.args)) (Checked.at owner d'.raw (read d'.args)) := by
  rw [hd.args]
  exact agree_at (hread d.args).symm

namespace Declarations

variable {m : Method} {owner : String} {ds ds' : List Directive}

theorem select_trimmed (hds : List.Forall₂ Directive.TrimmedTo ds ds') (keyword : Keyword) :
    List.Forall₂ Directive.TrimmedTo (select keyword ds) (select keyword ds') := by
  refine forall₂_filter (fun d d' hd => ?_) hds
  rw [hd.keyword]

theorem agree_readRoutes (hds : List.Forall₂ Directive.TrimmedTo ds ds')
    (earlier : List (HttpMethod × String)) :
    Agree (List.Forall₂ Declared.Same) (readRoutes owner earlier ds)
      (readRoutes owner earlier ds') := by
  induction hds generalizing earlier with
  | nil => exact agree_pure .nil
  | @cons d d' _ _ hd _ ih =>
    refine (hd.agree_read owner Route.read_trimmed).bind fun route route' hroute => ?_
    subst hroute
    split
    · exact agree_fail rfl
    · exact (ih _).bind fun routes routes' hroutes => agree_pure (.cons rfl hroutes)

theorem agree_routesOf (hds : List.Forall₂ Directive.TrimmedTo ds ds') :
    Agree (List.Forall₂ Declared.Same) (routesOf owner ds) (routesOf owner ds') := by
  refine (agree_readRoutes hds []).bind fun routes routes' hroutes => ?_
  cases hroutes with
  | nil => exact agree_fail rfl
  | cons hroute hrest => exact agree_pure (.cons hroute hrest)

theorem agree_atMostOne {α : Type} {read : String → Checked α}
    (hread : ∀ args, read (trimmed args) = read args)
    (hds : List.Forall₂ Directive.TrimmedTo ds ds') :
    Agree (Option.Rel Declared.Same) (atMostOne owner read ds) (atMostOne owner read ds') := by
  cases hds with
  | nil => exact agree_pure .none
  | @cons d d' _ _ hd hrest =>
    have hkinds (args : String) :
        (read (trimmed args)).mapError Fault.kind = (read args).mapError Fault.kind := by
      rw [hread]
    refine (hd.agree_read owner hkinds).bind fun value value' hvalue => ?_
    cases hrest with
    | nil => exact agree_pure (.some hvalue)
    | cons => exact agree_fail rfl

theorem agree_tagsOf (hds : List.Forall₂ Directive.TrimmedTo ds ds') :
    Agree Eq (tagsOf owner ds) (tagsOf owner ds') := by
  refine (agree_atMostOne DocumentRule.read_trimmed hds).bind fun rule rule' hrule => ?_
  cases hrule with
  | none => exact agree_pure rfl
  | @some a b hvalue =>
    have hvalue : a.value = b.value := hvalue
    dsimp only
    rw [hvalue]
    split
    · exact agree_fail rfl
    · exact agree_pure rfl

theorem agree_readClauses (hds : List.Forall₂ Directive.TrimmedTo ds ds') (claimed : List String) :
    Agree (List.Forall₂ Declared.Same) (readClauses m claimed ds) (readClauses m claimed ds') := by
  induction hds generalizing claimed with
  | nil => exact agree_pure .nil
  | @cons d d' _ _ hd _ ih =>
    have hkinds (args : String) : (ArgumentClause.readAll (trimmed args)).mapError Fault.kind =
        (ArgumentClause.readAll args).mapError Fault.kind := by
      rw [ArgumentClause.readAll_trimmed]
    refine (hd.agree_read m.name hkinds).bind fun clauses clauses' hclauses => ?_
    subst hclauses
    refine agree_at_self.bind fun claimed claimed' hclaimed => ?_
    subst hclaimed
    refine (ih claimed).bind fun more more' hmore => agree_pure ?_
    have hsame : List.Forall₂ Declared.Same (clauses.map (Declared.mk · d.raw))
        (clauses.map (Declared.mk · d'.raw)) := by
      rw [List.forall₂_map_left_iff, List.forall₂_map_right_iff]
      exact List.forall₂_same.mpr fun clause _ => rfl
    exact List.rel_append hsame hmore

/-- Both declare the same values. -/
structure Same (decl decl' : Declarations) : Prop where
  routes : List.Forall₂ Declared.Same decl.routes decl'.routes
  body : Option.Rel Declared.Same decl.body decl'.body
  success : Option.Rel Declared.Same decl.success decl'.success
  tags : decl.tags = decl'.tags
  clauses : List.Forall₂ Declared.Same decl.clauses decl'.clauses

theorem agree_read (hds : List.Forall₂ Directive.TrimmedTo ds ds') :
    Agree Same (read m ds) (read m ds') := by
  have hselect := select_trimmed hds
  refine (agree_routesOf (hselect .op)).bind fun routes routes' hroutes => ?_
  refine (agree_atMostOne BodyRule.read_trimmed (hselect .body)).bind fun body body' hbody => ?_
  refine (agree_atMostOne SuccessRule.read_trimmed (hselect .success)).bind
    fun success success' hsuccess => ?_
  refine (agree_tagsOf (hselect .oas)).bind fun tags tags' htags => ?_
  refine (agree_readClauses (hselect .param) []).bind fun clauses clauses' hclauses => ?_
  exact agree_pure ⟨hroutes, hbody, hsuccess, htags, hclauses⟩

namespace Same

variable {decl decl' : Declarations} (h : decl.Same decl')

include h

theorem pathVars_eq : decl.pathVars = decl'.pathVars := by
  have hvalues := Declared.Same.map_value h.routes
  have hvars (decl : Declarations) :
      decl.pathVars = ((decl.routes.map (·.value)).flatMap (·.vars)).eraseDups := by
    rw [List.flatMap_map]
    rfl
  rw [hvars, hvars, hvalues]

theorem wholeBody? : Option.Rel Declared.Same decl.wholeBody? decl'.wholeBody? := by
  unfold Declarations.wholeBody?
  obtain ⟨hbody, hbody'⟩ | ⟨rule, raw, raw', hbody, hbody'⟩ := Declared.Same.cases h.body
  · rw [hbody, hbody']
    exact .none
  · rw [hbody, hbody']
    cases rule with
    | whole argument => exact .some rfl
    | absent => exact .none
    | overlaid overlays => exact .none

theorem clause? (argument : String) :
    Option.Rel Declared.Same (decl.clause? argument) (decl'.clause? argument) :=
  Declared.Same.find? h.clauses fun c => c.argument ≠ blankName ∧ c.argument = argument

theorem blankClauses : List.Forall₂ Declared.Same decl.blankClauses decl'.blankClauses :=
  Declared.Same.filter h.clauses fun c => c.argument = blankName

theorem agree_checkWholeBody : Agree Eq (decl.checkWholeBody m) (decl'.checkWholeBody m) := by
  have hclauses (argument : String) : decl.clauses.any (·.value.argument = argument) =
      decl'.clauses.any (·.value.argument = argument) := by
    have hvalues := congrArg (List.any · (·.argument = argument))
      (Declared.Same.map_value h.clauses)
    simpa [Function.comp_def] using hvalues
  unfold checkWholeBody
  obtain ⟨hwhole, hwhole'⟩ | ⟨argument, raw, raw', hwhole, hwhole'⟩ :=
    Declared.Same.cases h.wholeBody?
  · rw [hwhole, hwhole']
    exact agree_pure rfl
  · rw [hwhole, hwhole']
    dsimp only
    rw [hclauses argument]
    obtain ⟨hroute, hroute'⟩ | ⟨route, _, _, hroute, hroute'⟩ :=
      Declared.Same.cases (Declared.Same.find? h.routes fun route => !route.method.carriesBody)
    · rw [hroute, hroute']
      exact agree_at_self
    · rw [hroute, hroute']
      exact agree_at_self

end Same

end Declarations

namespace Method

variable {m : Method} {options : ResolveOptions} {decl decl' : Declarations} {plan : Plan}

section Plan

variable (h : decl.Same decl')

include h

theorem agree_bindArgument (inf : Inference) (arg : Argument) :
    Agree (Option.Rel Declared.Same) (m.bindArgument inf decl arg)
      (m.bindArgument inf decl' arg) := by
  have hexplicit {x : Checked PlannedBinding} (raw raw' : String) :
      Agree (Option.Rel Declared.Same)
        ((Checked.at m.name raw x).map fun b => some (Declared.mk b raw))
        ((Checked.at m.name raw' x).map fun b => some (Declared.mk b raw')) :=
    agree_at_self.map fun b b' hb => .some hb
  have himplied : Agree (Option.Rel Declared.Same)
      ((Checked.at m.name "" (inf.implied arg)).map (·.map (Declared.mk · "")))
      ((Checked.at m.name "" (inf.implied arg)).map (·.map (Declared.mk · ""))) := by
    refine agree_at_self.map fun b b' hb => ?_
    subst hb
    cases b with
    | none => exact .none
    | some b => exact .some rfl
  unfold bindArgument
  obtain ⟨hclause, hclause'⟩ | ⟨clause, _, _, hclause, hclause'⟩ :=
    Declared.Same.cases (h.clause? arg.name)
  all_goals
    rw [hclause, hclause']
    obtain ⟨hwhole, hwhole'⟩ | ⟨argument, _, _, hwhole, hwhole'⟩ := Declared.Same.cases h.wholeBody?
    all_goals rw [hwhole, hwhole']
  · exact himplied
  · by_cases harg : argument = arg.name
    · simpa [Option.filter_some, harg] using hexplicit _ _
    · simpa [Option.filter_some, harg] using himplied
  · exact hexplicit _ _
  · by_cases harg : argument = arg.name
    · simpa [Option.filter_some, harg] using hexplicit _ _
    · simpa [Option.filter_some, harg] using hexplicit _ _

theorem agree_bindings (inf : Inference) :
    Agree (List.Forall₂ Declared.Same) (m.bindings inf decl) (m.bindings inf decl') := by
  have hargs : List.Forall₂ Eq m.args m.args := List.forall₂_same.mpr fun _ _ => rfl
  have hfed : Agree (List.Forall₂ (Option.Rel Declared.Same))
      (m.args.mapM (m.bindArgument inf decl)) (m.args.mapM (m.bindArgument inf decl')) := by
    refine Agree.mapM hargs fun arg arg' harg => ?_
    subst harg
    exact agree_bindArgument h inf arg
  have hblank : Agree (List.Forall₂ Declared.Same) (decl.blankClauses.mapM (m.bindBlank inf))
      (decl'.blankClauses.mapM (m.bindBlank inf)) := by
    refine Agree.mapM h.blankClauses fun clause clause' hclause => ?_
    unfold bindBlank
    rw [hclause]
    exact agree_at_self.map fun b b' hb => hb
  refine hfed.bind fun fed fed' hfed => hblank.bind fun blank blank' hblank => agree_pure ?_
  exact List.rel_append (List.rel_filterMap (fun _ _ hb => hb) hfed) hblank

theorem agree_plan : Agree Eq (m.plan decl options) (m.plan decl' options) := by
  have hinference : inference decl options = inference decl' options := by
    simp only [inference, h.pathVars_eq]
  unfold plan
  rw [hinference, h.pathVars_eq]
  refine (agree_bindings h _).bind fun bindings bindings' hbindings => ?_
  have hnames : Agree Eq (m.checkPathNames decl'.pathVars bindings)
      (m.checkPathNames decl'.pathVars bindings') := by
    have hnames : List.Forall₂ Declared.Same
        (bindings.flatMap fun b => b.value.explicitPathNames.map (Declared.mk · b.raw))
        (bindings'.flatMap fun b => b.value.explicitPathNames.map (Declared.mk · b.raw)) := by
      refine List.rel_flatMap hbindings fun b b' hb => ?_
      rw [List.forall₂_map_left_iff, List.forall₂_map_right_iff, hb]
      exact List.forall₂_same.mpr fun _ _ => rfl
    unfold checkPathNames
    dsimp only
    obtain ⟨hname, hname'⟩ | ⟨name, _, _, hname, hname'⟩ :=
      Declared.Same.cases (Declared.Same.find? hnames fun name => name ∉ decl'.pathVars)
    · rw [hname, hname']
      exact agree_pure rfl
    · rw [hname, hname']
      exact agree_fail rfl
  refine hnames.bind fun _ _ _ => ?_
  rw [Declared.Same.map_value hbindings]
  refine Agree.foldlM rfl fun plan plan' var hplan => ?_
  subst hplan
  exact agree_at_self

theorem agree_response : Agree Eq (m.response decl options) (m.response decl' options) := by
  unfold response
  obtain ⟨hrule, hrule'⟩ | ⟨rule, _, _, hrule, hrule'⟩ := Declared.Same.cases h.success
  all_goals
    rw [hrule, hrule']
    exact agree_at_self.map fun found found' hfound => by rw [hfound]

theorem requestBody_eq (route : Route) : requestBody decl route = requestBody decl' route := by
  unfold requestBody
  obtain ⟨hbody, hbody'⟩ | ⟨rule, _, _, hbody, hbody'⟩ := Declared.Same.cases h.body
  · rw [hbody, hbody']
  · rw [hbody, hbody']
    cases rule <;> rfl

theorem agree_overlaid (plan : Plan) (route : Route) :
    Agree Eq (m.overlaid decl route plan) (m.overlaid decl' route plan) := by
  unfold overlaid
  rw [requestBody_eq h]
  obtain ⟨hbody, hbody'⟩ | ⟨rule, _, _, hbody, hbody'⟩ := Declared.Same.cases h.body
  · rw [hbody, hbody']
    exact agree_pure rfl
  · rw [hbody, hbody']
    cases rule with
    | overlaid overlays => exact agree_at_self
    | absent => exact agree_pure rfl
    | whole argument => exact agree_pure rfl

theorem agree_request (plan : Plan) {route route' : Declared Route} (hroute : route.Same route') :
    Agree Eq (m.request decl plan route) (m.request decl' plan route') := by
  have hroute : route.value = route'.value := hroute
  have hrest (plan : Plan) (finish : Plan → Request) :
      Agree Eq (do
        let plan ← m.overlaid decl route'.value plan
        Checked.at m.name route.raw plan.checkUnique
        return finish plan) (do
        let plan ← m.overlaid decl' route'.value plan
        Checked.at m.name route'.raw plan.checkUnique
        return finish plan) := by
    refine (agree_overlaid h plan route'.value).bind fun plan plan' hplan => ?_
    subst hplan
    exact agree_at_self.bind fun _ _ _ => agree_pure rfl
  unfold request
  rw [hroute, requestBody_eq h]
  dsimp only
  split
  · exact hrest _ _
  · refine agree_at_self.bind fun plan plan' hplan => ?_
    subst hplan
    exact hrest _ _

theorem agree_operations {plan : Plan} {success : Response} {description : String} :
    Agree Eq (decl.routes.zipIdx.mapM (m.operation decl plan success description))
      (decl'.routes.zipIdx.mapM (m.operation decl' plan success description)) := by
  have hlength : decl.routes.length = decl'.routes.length := h.routes.length_eq
  have hoperations : Agree (List.Forall₂ Eq)
      (decl.routes.zipIdx.mapM (m.operation decl plan success description))
      (decl'.routes.zipIdx.mapM (m.operation decl' plan success description)) := by
    refine Agree.mapM (Declared.Same.zipIdx h.routes 0) fun route route' hroute => ?_
    obtain ⟨hvalue, hindex⟩ := hroute
    refine (agree_request h plan hvalue).map fun request request' hrequest => ?_
    have hvalue : route.1.value = route'.1.value := hvalue
    rw [hrequest, hvalue, hindex, hlength, h.tags]
  rwa [List.forall₂_eq_eq_eq] at hoperations

end Plan

/-- Directives decide by what they say, and not by how they are written. -/
theorem agree_resolveDirectives {ds ds' : List Directive} {description : String}
    (hds : List.Forall₂ Directive.TrimmedTo ds ds') :
    Agree Eq (m.resolveDirectives options description ds)
      (m.resolveDirectives options description ds') := by
  refine (Declarations.agree_read hds).bind fun decl decl' h => ?_
  refine h.agree_checkWholeBody.bind fun _ _ _ => ?_
  refine (agree_plan h).bind fun plan plan' hplan => ?_
  subst hplan
  refine (agree_response h).bind fun found found' hfound => ?_
  subst hfound
  refine (agree_operations h).bind fun operations operations' hoperations => ?_
  exact agree_pure (by rw [hoperations])

end Method

end Routespec
