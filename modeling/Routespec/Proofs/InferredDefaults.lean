import Routespec.Proofs.Coverage
import Routespec.Proofs.Diagnostics

/-!
# Inferred defaults

What becomes of a value that nothing is said about. Inference makes a parameter in the body of it,
under its wire name. Binding the path variables passes over the parameter unless it is named by one
of them, a request without a synthesized body moves it to the query string as it is, and leaving out
the path parameters of other patterns does not concern it.
-/

namespace Routespec

/-- The parameter that carries a value for which nothing is asked. -/
def Naming.defaultParam (naming : Naming) (body : RequestBody) (source ty : String) (shape : Shape)
    (field : Option String) : Parameter :=
  { location := if body = .synthesized then .body else .query
    name := naming.apply source
    ty
    repeated := shape = .scalarSeq
    required := false
    description := ""
    field }

namespace Inference

variable {inf : Inference} {arg : Argument} {b : PlannedBinding}

/-- The parameter that inference makes of a value for which nothing is asked. -/
def openParam (inf : Inference) (source ty : String) (shape : Shape) (field : Option String) :
    PlannedParam :=
  ⟨⟨.body, inf.naming.apply source, ty, shape.isRepeated, false, "", field⟩, false, shape⟩

theorem param_open (hinf : inf.fallback = .body) {source ty : String} {shape : Shape}
    {p : PlannedParam} (h : inf.param source ty shape {} = .ok p) :
    p = inf.openParam source ty shape none := by
  obtain ⟨_, -, rfl⟩ := map_eq_ok.mp h
  simp [openParam, wireName, hinf]

/-- Of a field without metadata inference makes the parameter of its value. -/
theorem fieldParam_open (hinf : inf.fallback = .body) {f : Field} {p : PlannedParam}
    (h : inf.fieldParam arg {} f = .ok (some p)) : p.param.field = some f.name ∧
      (f.metadata = none → p = inf.openParam f.name f.ty f.shape (some f.name)) := by
  rcases fieldParam_eq_ok h with ⟨-, hnone⟩ | ⟨-, p₀, -, hp₀, hp⟩
  · cases hnone
  · obtain rfl := Option.some.inj hp
    refine ⟨rfl, fun hmetadata => ?_⟩
    have hoptions : fieldOptions {} f.options = {} := by
      simp [fieldOptions, Field.options, hmetadata]
    rw [hoptions] at hp₀
    rw [param_open hinf hp₀]
    rfl

/-- What is bound as a whole is bound by one parameter. -/
theorem implied_open (hinf : inf.fallback = .body)
    (hwhole : ∀ fields, arg.shape ≠ .composite fields) (h : inf.implied arg = .ok (some b)) :
    b.params = [inf.openParam arg.name arg.ty arg.shape none] := by
  obtain ⟨-, hnone⟩ | ⟨fields, params, hshape, -⟩ | ⟨-, p, hp, hb⟩ := implied_cases h
  · cases hnone
  · exact absurd hshape (hwhole fields)
  · obtain rfl := Option.some.inj hb
    rw [param_open hinf hp]

theorem implied_fields (hinf : inf.fallback = .body) {fields : List Field}
    (hshape : arg.shape = .composite fields) (h : inf.implied arg = .ok (some b)) :
    List.Forall₂ (fun f p => p.param.field = some f.name ∧
      (f.metadata = none → p = inf.openParam f.name f.ty f.shape (some f.name)))
      (fields.filter (!·.isOmitted)) b.params := by
  rw [implied, hshape] at h
  obtain ⟨params, hparams, hb⟩ := map_eq_ok.mp h
  obtain rfl := Option.some.inj hb
  exact (fieldParams_eq_ok hparams).imp fun f p hp => fieldParam_open hinf hp

theorem movedFor_openParam (body : RequestBody) (source ty : String) (shape : Shape)
    (field : Option String) : ((inf.openParam source ty shape field).movedFor body).param =
      inf.naming.defaultParam body source ty shape field := by
  have hrepeated : shape.isRepeated = decide (shape = .scalarSeq) := by
    rw [Bool.eq_iff_iff, decide_eq_true_iff]
    exact Shape.isRepeated_iff
  by_cases hbody : body = .synthesized <;>
    simp [PlannedParam.movedFor, PlannedParam.inQuery, openParam, Naming.defaultParam, hbody,
      hrepeated]

end Inference

/-- The parameter has not changed, unless it is for a field that is named by some variable. -/
structure PlannedParam.KeptFrom (vars : List String) (p p' : PlannedParam) : Prop where
  field : p'.param.field = p.param.field
  name : p'.param.name = p.param.name
  same : p.param.field = none ∨ p.param.name ∉ vars → p' = p

theorem PlannedParam.KeptFrom.refl (vars : List String) (p : PlannedParam) : p.KeptFrom vars p :=
  ⟨rfl, rfl, fun _ => rfl⟩

theorem PlannedParam.KeptFrom.cons {v : String} {vars : List String} {p p' p'' : PlannedParam}
    (h : p.KeptFrom [v] p') (h' : p'.KeptFrom vars p'') : p.KeptFrom (v :: vars) p'' where
  field := h'.field.trans h.field
  name := h'.name.trans h.name
  same hfree := by
    have hfirst : p.param.field = none ∨ p.param.name ∉ [v] :=
      hfree.imp_right fun hname hv => hname (List.mem_cons.mpr (.inl (List.mem_singleton.mp hv)))
    have hlater : p'.param.field = none ∨ p'.param.name ∉ vars := by
      rw [h.field, h.name]
      exact hfree.imp_right fun hname hv => hname (List.mem_cons_of_mem v hv)
    exact (h'.same hlater).trans (h.same hfirst)

/-- The binding when all variables are bound: one that is not named by any of them keeps its
parameters but for those of fields that are. -/
structure PlannedBinding.BoundTo (naming : Naming) (vars : List String) (b b' : PlannedBinding) :
    Prop where
  argument : b'.argument = b.argument
  blank : b'.blank = b.blank
  kept : (b.argument.shape = .scalar → ∀ v ∈ vars, b.isNamed naming v = false) →
    List.Forall₂ (PlannedParam.KeptFrom vars) b.params b'.params

namespace PlannedBinding

variable {naming : Naming} {v : String} {vars : List String} {b b' b'' : PlannedBinding}

theorem BoundTo.refl (b : PlannedBinding) : b.BoundTo naming vars b :=
  ⟨rfl, rfl, fun _ => List.forall₂_same.mpr fun p _ => .refl vars p⟩

theorem BoundTo.cons (h : b.BoundTo naming [v] b') (h' : b'.BoundTo naming vars b'') :
    b.BoundTo naming (v :: vars) b'' := by
  refine ⟨h'.argument.trans h.argument, h'.blank.trans h.blank, fun hfree => ?_⟩
  have hfirst : List.Forall₂ (PlannedParam.KeptFrom [v]) b.params b'.params :=
    h.kept fun hshape w hw => hfree hshape w (List.mem_cons.mpr (.inl (List.mem_singleton.mp hw)))
  have hlater : List.Forall₂ (PlannedParam.KeptFrom vars) b'.params b''.params := by
    refine h'.kept fun hshape w hw => ?_
    rw [isNamed, h.argument, h.blank]
    exact hfree (h.argument ▸ hshape) w (List.mem_cons_of_mem v hw)
  exact forall₂_trans (fun _ _ _ hp hp' => hp.cons hp') hfirst hlater

end PlannedBinding

/-- To bind one variable is to change nothing but the argument or the field that it names. -/
theorem Plan.Binds.boundTo {naming : Naming} {v : String} {plan plan' : Plan}
    (h : Binds naming v plan plan') :
    List.Forall₂ (PlannedBinding.BoundTo naming [v]) plan plan' := by
  cases h with
  | explicit => exact List.forall₂_same.mpr fun b _ => .refl b
  | @argument i b hvar hi hb hshape hread =>
    refine forall₂_set PlannedBinding.BoundTo.refl hb ⟨rfl, rfl, fun hfree => ?_⟩
    obtain ⟨hlt, hnamed, -⟩ := List.findIdx?_eq_some_iff_getElem.mp hi
    obtain rfl : plan[i] = b := Option.some.inj ((List.getElem?_eq_getElem hlt).symm.trans hb)
    rw [hfree hshape v List.mem_cons_self] at hnamed
    cases hnamed
  | @field i j b p hvar hnamed hb hp hname hfield hexplicit hread =>
    refine forall₂_set PlannedBinding.BoundTo.refl hb ⟨rfl, rfl, fun _ => ?_⟩
    refine forall₂_set (PlannedParam.KeptFrom.refl _) hp ⟨rfl, rfl, ?_⟩
    rintro (hnone | hother)
    · rw [hnone] at hfield
      cases hfield
    · exact absurd (List.mem_singleton.mpr hname) hother

/-- To bind all variables is to change nothing but the arguments and the fields that they name. -/
theorem Method.foldlM_bindPathVar_boundTo {m : Method} {decl : Declarations}
    {options : ResolveOptions} {vars : List String} {plan plan' : Plan}
    (h : vars.foldlM (m.bindPathVar decl options) plan = .ok plan') :
    List.Forall₂ (PlannedBinding.BoundTo options.naming vars) plan plan' := by
  induction vars generalizing plan with
  | nil =>
    obtain rfl := pure_eq_ok.mp h
    exact List.forall₂_same.mpr fun b _ => .refl b
  | cons v vars ih =>
    obtain ⟨plan₁, hstep, hrest⟩ := foldlM_cons_eq_ok.mp h
    have hstep := (Plan.bindVariable_binds (at_eq_ok.mp hstep)).boundTo
    exact forall₂_trans (fun _ _ _ hb hb' => hb.cons hb') hstep (ih hrest)

/-- What a request makes of the binding of a plan, which without manipulations is moved out of the
body and otherwise as it was. -/
structure PlannedBinding.MadeInto (decl : Declarations) (body : RequestBody) (b : PlannedBinding)
    (q : Binding) : Prop extends b.ServedAs body q where
  plain : decl.overlays = [] → q = (b.movedFor body).settle

namespace PlannedBinding

variable {decl : Declarations} {vars : List String} {body : RequestBody} {b : PlannedBinding}
  {place : Option Binding}

/-- A binding without path parameters of other patterns is at its place. -/
theorem exists_of_place (hvars : ∀ p ∈ b.params, p.isOnPattern vars = true)
    (h : Option.Rel (MadeInto decl body) (b.onPattern? vars) place) :
    ∃ q, place = some q ∧ b.MadeInto decl body q := by
  have hkept : b.onPattern? vars = some b := by
    rw [onPattern?_eq, List.filter_eq_self.mpr hvars, if_neg fun hgone => hgone.1 hgone.2]
  rw [hkept] at h
  cases h with
  | some hmade => exact ⟨_, rfl, hmade⟩

/-- Without manipulations there are at the place the parameters that belong to the pattern, moved
out of the body if there is none. -/
theorem params_of_place (hplain : decl.overlays = [])
    (h : Option.Rel (MadeInto decl body) (b.onPattern? vars) place) :
    place.elim [] (·.params) =
      (b.params.filter (·.isOnPattern vars)).map fun p => (p.movedFor body).param := by
  rw [onPattern?_eq] at h
  split at h
  · next hgone =>
    cases h
    rw [hgone.2]
    rfl
  · cases h with
    | some hmade =>
      rw [Option.elim_some, hmade.plain hplain, settle, movedFor, List.map_map]
      rfl

/-- Without manipulations what inference makes of a value is its default parameter. -/
theorem MadeInto.params_of_open {q : Binding} (h : b.MadeInto decl body q)
    (hplain : decl.overlays = []) {inf : Inference} {source ty : String} {shape : Shape}
    {field : Option String} (hparams : b.params = [inf.openParam source ty shape field]) :
    q.params = [inf.naming.defaultParam body source ty shape field] := by
  rw [h.plain hplain, settle, movedFor, hparams, ← Inference.movedFor_openParam]
  rfl

theorem argument_of_place (h : Option.Rel (MadeInto decl body) (b.onPattern? vars) place) :
    ∀ q ∈ place, q.argument = b.argument ∧ q.blank = b.blank := by
  rintro q rfl
  cases hkept : b.onPattern? vars with
  | none =>
    rw [hkept] at h
    cases h
  | some kept =>
    rw [hkept] at h
    obtain rfl := onPattern?_eq_some hkept
    cases h with
    | some hmade => exact ⟨hmade.argument, hmade.blank⟩

end PlannedBinding

namespace Method

variable {m : Method} {aliases : AliasTable} {options : ResolveOptions} {r : MethodResolution}
  {decl : Declarations} {plan : Plan} {route : Declared Route} {req : Request} {o : Operation}

theorem bindings_of_request (h : m.request decl plan route = .ok req) :
    List.Forall₂ (PlannedBinding.MadeInto decl req.body) (plan.onPattern route.value.vars)
      req.bindings := by
  obtain ⟨-, hserved, -⟩ := request_eq_ok h
  by_cases hnone : decl.overlays = []
  · have hbindings : req.bindings = (plan.onPattern route.value.vars).map
        fun b => (b.movedFor req.body).settle := by
      obtain ⟨-, plan', hplan', -, rfl⟩ := request_cases.mp h
      obtain ⟨hoverlaid, -⟩ := overlayAll_of_overlaid hplan'
      rw [hnone] at hoverlaid
      obtain rfl := pure_eq_ok.mp hoverlaid
      rw [Plan.onPattern_movedFor, List.map_map]
      rfl
    rw [hbindings] at hserved ⊢
    rw [List.forall₂_map_right_iff, List.forall₂_same] at hserved ⊢
    exact fun b hb => ⟨hserved b hb, fun _ => rfl⟩
  · exact hserved.imp fun b q hb => ⟨hb, fun hplain => absurd hplain hnone⟩

/-- The bindings of a plan come from those that inference and clauses make, in order. -/
theorem Resolves.exists_bound (h : m.Resolves aliases options decl plan r) :
    ∃ fed blank, plan = fed ++ blank ∧
      List.Forall₂ (fun arg b => ∃ d,
        m.bindArgument (inference decl options) decl arg = .ok (some d) ∧
        d.value.BoundTo options.naming decl.pathVars b) m.eligible fed ∧
      ∀ b ∈ blank, b.blank = true := by
  obtain ⟨bs, hbs, hrun⟩ := bind_eq_ok.mp h.planned
  obtain ⟨_, -, hrun⟩ := bind_eq_ok.mp hrun
  obtain ⟨fed₀, blank₀, rfl, hfed₀, hblank₀⟩ := bindings_eq_ok rfl h.leavesBody hbs
  have hbound := foldlM_bindPathVar_boundTo hrun
  rw [List.map_append] at hbound
  obtain ⟨fed, blank, rfl, hfed, hblank⟩ := forall₂_append_left hbound
  rw [List.forall₂_map_left_iff] at hfed hblank
  refine ⟨fed, blank, rfl, forall₂_trans (fun arg d b hd hb => ⟨d, hd, hb⟩) hfed₀ hfed, ?_⟩
  intro b hb
  obtain ⟨d, hd, hdb⟩ := forall₂_mem_right hblank hb
  obtain ⟨c, hc, hcd⟩ := forall₂_mem_right hblank₀ hd
  obtain ⟨b₀, hb₀, rfl⟩ := map_eq_ok.mp hcd
  have hleave := h.leavesBody c (List.mem_of_mem_filter hc)
  exact hdb.blank.trans (Inference.blank_inferred rfl hleave (at_eq_ok.mp hb₀)).blank

end Method

/-- What an operation has at the place of an argument, where no directive decides about it. -/
structure Operation.InfersAt (o : Operation) (decl : Declarations) (naming : Naming)
    (arg : Argument) (place : Option Binding) : Prop where
  /-- Nothing else than the argument is bound at its place. -/
  argument : ∀ b ∈ place, b.argument = arg ∧ b.blank = false
  /-- A scalar or a sequence of scalars for which no variable is named has one parameter. -/
  value : decl.LeavesOpen arg → arg.shape.isScalarLike = true → decl.overlays = [] →
    arg.name ∉ decl.pathVars → naming.apply arg.name ∉ decl.pathVars →
    ∃ b, place = some b ∧
      b.params = [naming.defaultParam o.request.body arg.name arg.ty arg.shape none]
  /-- Parameters stand at the places of fields, in order, and a field without metadata for which no
  variable is named has one parameter. -/
  fields : ∀ fields, decl.LeavesOpen arg → arg.shape = .composite fields → decl.overlays = [] →
    ∃ fieldPlaces, fieldPlaces.reduceOption = place.elim [] (·.params) ∧
      List.Forall₂ (fun f fieldPlace => (∀ p ∈ fieldPlace, p.field = some f.name) ∧
        (f.metadata = none → naming.apply f.name ∉ decl.pathVars →
          fieldPlace = some (naming.defaultParam o.request.body f.name f.ty f.shape (some f.name))))
        (fields.filter (!·.isOmitted)) fieldPlaces
  /-- A map or a sequence of anything else is a member of a synthesized body. -/
  member : decl.LeavesOpen arg → arg.shape = .sequence ∨ arg.shape = .map →
    o.request.body = .synthesized ∧ ∃ b p, place = some b ∧ b.params = [p] ∧ p.location = .body ∧
      (decl.overlays = [] → p = naming.defaultParam o.request.body arg.name arg.ty arg.shape none)

namespace PlannedBinding

variable {inf : Inference} {decl : Declarations} {vars : List String} {body : RequestBody}
  {arg : Argument} {b₀ b : PlannedBinding} {place : Option Binding}
  (hinf : inf.fallback = .body) (himplied : inf.implied arg = .ok (some b₀))
  (hbound : b₀.BoundTo inf.naming decl.pathVars b)
  (hplace : Option.Rel (MadeInto decl body) (b.onPattern? vars) place)

include hinf himplied hbound

/-- Variables that are not named for an argument leave the parameter that carries it as a whole. -/
theorem params_of_whole (hwhole : ∀ fields, arg.shape ≠ .composite fields)
    (hfree : arg.shape = .scalar → arg.name ∉ decl.pathVars ∧
      inf.naming.apply arg.name ∉ decl.pathVars) :
    b.params = [inf.openParam arg.name arg.ty arg.shape none] := by
  obtain ⟨-, hnone⟩ | ⟨_, hsome, hfor⟩ := Inference.implied_inferred hinf himplied
  · cases hnone
  obtain rfl := Option.some.inj hsome
  have hkept : List.Forall₂ (PlannedParam.KeptFrom decl.pathVars) b₀.params b.params := by
    refine hbound.kept fun hshape v hv => ?_
    obtain ⟨hname, hwire⟩ := hfree (hfor.argument ▸ hshape)
    have hname : arg.name ≠ v := fun heq => hname (heq ▸ hv)
    have hwire : inf.naming.apply arg.name ≠ v := fun heq => hwire (heq ▸ hv)
    simp [isNamed, hfor.argument, hname, hwire]
  rw [Inference.implied_open hinf hwhole himplied] at hkept
  obtain ⟨p, rest, hp, hrest, hparams⟩ := List.forall₂_cons_left_iff.mp hkept
  cases hrest
  rw [hparams, hp.same (.inl rfl)]

include hplace

/-- Variables that are not named for a field leave the parameter that carries it as it is. -/
theorem fields_of_place {fields : List Field} (hshape : arg.shape = .composite fields)
    (hplain : decl.overlays = []) :
    ∃ fieldPlaces, fieldPlaces.reduceOption = place.elim [] (·.params) ∧
      List.Forall₂ (fun f fieldPlace => (∀ p ∈ fieldPlace, p.field = some f.name) ∧
        (f.metadata = none → inf.naming.apply f.name ∉ decl.pathVars →
          fieldPlace = some (inf.naming.defaultParam body f.name f.ty f.shape (some f.name))))
        (fields.filter (!·.isOmitted)) fieldPlaces := by
  obtain ⟨-, hnone⟩ | ⟨_, hsome, hfor⟩ := Inference.implied_inferred hinf himplied
  · cases hnone
  obtain rfl := Option.some.inj hsome
  have hkept : List.Forall₂ (PlannedParam.KeptFrom decl.pathVars) b₀.params b.params := by
    refine hbound.kept fun hscalar => ?_
    rw [hfor.argument, hshape] at hscalar
    cases hscalar
  refine ⟨b.params.map fun p => (Option.guard (·.isOnPattern vars) p).map
    fun p => (p.movedFor body).param, ?_, ?_⟩
  · rw [params_of_place hplain hplace, ← List.filterMap_eq_filter,
      List.map_filterMap, List.reduceOption, List.filterMap_map]
    rfl
  · rw [List.forall₂_map_right_iff]
    refine forall₂_trans (fun f p₀ p hf hp => ⟨fun q hq => ?_, fun hmetadata hfree => ?_⟩)
      (Inference.implied_fields hinf hshape himplied) hkept
    · obtain ⟨p', hp', rfl⟩ := Option.map_eq_some_iff.mp hq
      obtain ⟨rfl, -⟩ := Option.guard_eq_some_iff.mp hp'
      have hserved : p.ServedAs body (p.movedFor body).param :=
        PlannedParam.servedAs_of_overlaid (.refl _) fun _ => rfl
      rw [hserved.field, hp.field, hf.1]
    · obtain rfl := hf.2 hmetadata
      obtain rfl := hp.same (.inr hfree)
      rw [← Inference.movedFor_openParam]
      rfl

end PlannedBinding

namespace Method

variable {m : Method} {aliases : AliasTable} {options : ResolveOptions} {r : MethodResolution}
  {decl : Declarations} {plan : Plan} {route : Declared Route} {o : Operation}

/-- What inference makes of a map, or of a sequence of anything but scalars, has to stay in the
body. -/
theorem Serves.synthesized_of_member (ho : m.Serves decl plan route o) {arg : Argument}
    (hshape : arg.shape = .sequence ∨ arg.shape = .map) {b : PlannedBinding} (hb : b ∈ plan)
    (hparams : b.params = [(inference decl options).openParam arg.name arg.ty arg.shape none]) :
    o.request.body = .synthesized := by
  obtain ⟨hkind, -, -⟩ := request_eq_ok ho.requested
  obtain ⟨hfits, -⟩ := request_cases.mp ho.requested
  by_contra hbody
  have hfit := hfits (hkind ▸ hbody) b hb
  rw [PlannedBinding.FitsQuery, hparams] at hfit
  have hquery : arg.shape.fits .query = true := hfit _ (List.mem_singleton.mpr rfl) rfl rfl
  rcases hshape with hshape | hshape <;> simp [hshape, Shape.fits] at hquery

/-- An argument that no directive decides about is where inference puts it. -/
theorem Resolves.infersAt (h : m.Resolves aliases options decl plan r)
    (ho : m.Serves decl plan route o) {arg : Argument} {b : PlannedBinding} (hb : b ∈ plan)
    {place : Option Binding}
    (hbound : ∃ d, m.bindArgument (inference decl options) decl arg = .ok (some d) ∧
      d.value.BoundTo options.naming decl.pathVars b)
    (hplace : Option.Rel (PlannedBinding.MadeInto decl o.request.body)
      (b.onPattern? route.value.vars) place) : o.InfersAt decl options.naming arg place := by
  obtain ⟨d, hd, hbound⟩ := hbound
  have himplied (hopen : decl.LeavesOpen arg) :
      (inference decl options).implied arg = .ok (some d.value) := by
    obtain ⟨b?, hb?, hsome⟩ := (bindArgument_of_leavesOpen hopen).mp hd
    obtain ⟨b₀, rfl, rfl⟩ := Option.map_eq_some_iff.mp hsome.symm
    exact hb?
  -- a parameter off the path is at its place whatever the pattern
  have hwhole {p : PlannedParam} (hparams : b.params = [p]) (hpath : p.param.location ≠ .path) :
      ∃ q, place = some q ∧ b.MadeInto decl o.request.body q := by
    refine PlannedBinding.exists_of_place (fun p' hp' => ?_) hplace
    rw [hparams, List.mem_singleton] at hp'
    simp [hp', PlannedParam.isOnPattern, hpath]
  refine ⟨fun q hq => ?_, fun hopen hshape hplain hname hwire => ?_,
    fun fields hopen hshape hplain => ?_, fun hopen hshape => ?_⟩
  · obtain ⟨hargument, hblank⟩ := PlannedBinding.argument_of_place hplace q hq
    obtain ⟨-, hnone⟩ | ⟨-, d', hsome, hstarts⟩ := bindArgument_cases rfl h.leavesBody hd
    · cases hnone
    obtain rfl := Option.some.inj hsome
    obtain ⟨hstart, hfed⟩ := hstarts.argument_eq
    exact ⟨hargument.trans (hbound.argument.trans hstart), hblank.trans (hbound.blank.trans hfed)⟩
  · have hparams := PlannedBinding.params_of_whole rfl (himplied hopen) hbound
      (fun fields hfields => by simp [hfields, Shape.isScalarLike] at hshape)
      fun _ => ⟨hname, hwire⟩
    obtain ⟨q, hq, hmade⟩ := hwhole hparams (by simp [Inference.openParam])
    exact ⟨q, hq, hmade.params_of_open hplain hparams⟩
  · exact PlannedBinding.fields_of_place rfl (himplied hopen) hbound hplace hshape hplain
  · have hparams := PlannedBinding.params_of_whole rfl (himplied hopen) hbound
      (fun fields hfields => by simp [hfields] at hshape)
      fun hscalar => by simp [hscalar] at hshape
    have hbody := ho.synthesized_of_member hshape hb hparams
    obtain ⟨q, hq, hmade⟩ := hwhole hparams (by simp [Inference.openParam])
    have hserved := hmade.params
    rw [hparams] at hserved
    obtain ⟨p, rest, hp, hrest, hqparams⟩ := List.forall₂_cons_left_iff.mp hserved
    cases hrest
    refine ⟨hbody, q, p, hq, hqparams, ?_, fun hplain => ?_⟩
    · rw [hp.location, hbody]
      rfl
    · rw [hmade.params_of_open hplain hparams] at hqparams
      exact (List.cons.inj hqparams).1.symm

/-- Every operation has places for the arguments of its method, each with what inference puts
there. -/
theorem Resolves.exists_inferred (h : m.Resolves aliases options decl plan r)
    (ho : m.Serves decl plan route o) : ∃ places blanks,
      List.Forall₂ (o.InfersAt decl options.naming) m.eligible places ∧
      (∀ b ∈ blanks, b.blank = true) ∧ o.request.bindings = places.reduceOption ++ blanks := by
  obtain ⟨fed, blank, rfl, hfed, hblank⟩ := h.exists_bound
  obtain ⟨hbody, -, -⟩ := request_eq_ok ho.requested
  obtain ⟨all, hall, hkept⟩ := exists_places (bindings_of_request ho.requested)
  obtain ⟨places, blanks, rfl, hplaces, hblanks⟩ := forall₂_append_left hall
  refine ⟨places, blanks.reduceOption, ?_, fun q hq => ?_, ?_⟩
  · refine forall₂_trans (fun arg b place hb hplace => ?_) hfed
      ((List.forall₂_and_left _ _).mpr ⟨fun b hb => hb, hplaces⟩)
    exact h.infersAt ho (List.mem_append_left blank hplace.1) hb hplace.2
  · obtain ⟨b, hb, hplace⟩ := forall₂_mem_right hblanks (List.reduceOption_mem_iff.mp hq)
    exact (PlannedBinding.argument_of_place hplace q rfl).2.trans (hblank b hb)
  · rw [← hkept, List.reduceOption_append]

/-- Nothing that is done to the plan of a method disturbs what inference makes of a value for which
nothing is asked: it has one parameter, under its wire name, in the body if there is one to be put
together and in the query string otherwise. Maps and sequences of anything but scalars are members
of such a body, and a method with an operation that has none does not resolve. -/
theorem inferred_defaults (hdecl : m.declarations aliases = .ok decl) :
    (∀ r, m.resolve aliases options = .ok r → ∀ o ∈ r.operations, ∃ places blanks,
      List.Forall₂ (o.InfersAt decl options.naming) m.eligible places ∧
      (∀ b ∈ blanks, b.blank = true) ∧ o.request.bindings = places.reduceOption ++ blanks) ∧
    ∀ arg ∈ m.args, decl.LeavesOpen arg → arg.shape = .sequence ∨ arg.shape = .map →
      ∀ route ∈ decl.routes, requestBody decl route.value ≠ .synthesized →
        ∀ r, m.resolve aliases options ≠ .ok r := by
  constructor
  · intro r hr o ho
    obtain ⟨plan, h⟩ := resolves_of_declarations hr hdecl
    obtain ⟨route, -, hserves⟩ := h.exists_route ho
    exact h.exists_inferred hserves
  · intro arg harg hopen hshape route hroute hbody r hr
    obtain ⟨plan, h⟩ := resolves_of_declarations hr hdecl
    obtain ⟨o, -, hserves⟩ := h.exists_operation hroute
    obtain ⟨places, -, hplaces, -⟩ := h.exists_inferred hserves
    have hincluded : arg ∈ m.eligible := by
      refine List.mem_filter.mpr ⟨harg, ?_⟩
      rcases hshape with hshape | hshape <;> simp [hshape, Shape.isExcluded]
    obtain ⟨place, -, hplace⟩ := forall₂_mem_left hplaces hincluded
    obtain ⟨hkind, -, -⟩ := request_eq_ok hserves.requested
    exact hbody (hkind ▸ (hplace.member hopen hshape).1)

/-- Values that nothing is said about, next to a variable, a header and a field from a query. -/
def placeOrder : Method where
  name := "PlaceOrder"
  args := [⟨"ctx", "Context", .context⟩, ⟨"user", "string", .scalar⟩, ⟨"dryRun", "bool", .scalar⟩,
    ⟨"coupons", "[]string", .scalarSeq⟩,
    ⟨"order", "Order", .composite [⟨"Note", "string", .scalar, none⟩,
      ⟨"Channel", "string", .scalar, some "in=query"⟩, ⟨"ShopID", "string", .scalar, none⟩,
      ⟨"Labels", "[]string", .scalarSeq, none⟩]⟩,
    ⟨"lines", "[]Line", .sequence⟩]
  returns := []
  doc := ["//kun:op POST /users/{user}/orders", "//kun:op PUT /shops/{shop_id}/orders",
    "//kun:param __ in=header name=trace", "//kun:success statusCode=204"]

theorem inferred_defaults_of_placeOrder : (∃ decl r, placeOrder.declarations .empty = .ok decl ∧
    (decl.overlays = [] ∧ ∀ arg ∈ placeOrder.args, decl.LeavesOpen arg) ∧
    placeOrder.resolve .empty {} = .ok r ∧
    r.operations.map (fun o => o.request.params.map (·.key)) =
      [[(.path, "user"), (.body, "dry_run"), (.body, "coupons"), (.body, "note"),
          (.query, "channel"), (.body, "labels"), (.body, "lines"), (.header, "trace")],
        [(.body, "dry_run"), (.body, "coupons"), (.body, "note"), (.query, "channel"),
          (.path, "shop_id"), (.body, "labels"), (.body, "lines"), (.header, "trace")]] ∧
    ∀ o ∈ r.operations, ∃ places blanks,
      List.Forall₂ (o.InfersAt decl .snakeCase) placeOrder.eligible places ∧
      (∀ b ∈ blanks, b.blank = true) ∧ o.request.bindings = places.reduceOption ++ blanks) ∧
    ∀ r, resolve { placeOrder with doc := "//kun:op GET /orders" :: placeOrder.doc } .empty {} ≠
      .ok r := by
  constructor
  · obtain ⟨decl, hdecl, hopen⟩ : ∃ decl, placeOrder.declarations .empty = .ok decl ∧
        decide (decl.overlays = [] ∧ ∀ arg ∈ placeOrder.args, decl.LeavesOpen arg) = true :=
      exists_ok_of_map (by decide +kernel)
    obtain ⟨r, hr, hkeys⟩ : ∃ r, placeOrder.resolve .empty {} = .ok r ∧
        r.operations.map (fun o => o.request.params.map (·.key)) =
          [[(.path, "user"), (.body, "dry_run"), (.body, "coupons"), (.body, "note"),
              (.query, "channel"), (.body, "labels"), (.body, "lines"), (.header, "trace")],
            [(.body, "dry_run"), (.body, "coupons"), (.body, "note"), (.query, "channel"),
              (.path, "shop_id"), (.body, "labels"), (.body, "lines"), (.header, "trace")]] :=
      exists_ok_of_map (by decide +kernel)
    exact ⟨decl, r, hdecl, of_decide_eq_true hopen, hr, hkeys, (inferred_defaults hdecl).1 r hr⟩
  · -- an operation without a body leaves no place for the lines
    have hdecl : ∃ decl, declarations { placeOrder with
        doc := "//kun:op GET /orders" :: placeOrder.doc } .empty = .ok decl ∧
        decide (decl.LeavesOpen ⟨"lines", "[]Line", .sequence⟩ ∧
          ∃ route ∈ decl.routes, requestBody decl route.value ≠ .synthesized) = true :=
      exists_ok_of_map (by decide +kernel)
    obtain ⟨decl, hdecl, hopen⟩ := hdecl
    obtain ⟨hopen, route, hroute, hbody⟩ := of_decide_eq_true hopen
    exact (inferred_defaults hdecl).2 _ (by simp [placeOrder]) hopen (.inl rfl) route hroute hbody

end Method

end Routespec
