import Routespec.Proofs.Resolution

/-!
# From a plan to a request

What a route makes of the plan of its method. Parameters that nothing tied to the body move to the
query string when there is no synthesized body, path parameters of other patterns are left out,
and manipulations touch nothing but members of the body. `ServedAs` relates the binding of a plan
to that of the request.
-/

namespace Routespec

/-- What tells parameters apart: where they are read from, and under which name. -/
def Parameter.key (p : Parameter) : Location × String := (p.location, p.name)

namespace PlannedParam

/-- The parameter with the body given up for the query string, unless it was tied to the body. -/
def inQuery (p : PlannedParam) : PlannedParam :=
  if p.explicit = false ∧ p.param.location = .body then
    { p with param := { p.param with location := .query } }
  else p

/-- The parameter for requests with the given kind of body. -/
def movedFor (body : RequestBody) (p : PlannedParam) : PlannedParam :=
  if body = .synthesized then p else p.inQuery

/-- The parameter belongs to requests on a pattern with the given variables. -/
def isOnPattern (vars : List String) (p : PlannedParam) : Bool :=
  p.param.location ≠ .path || p.param.name ∈ vars

/-- The value of the parameter can travel in the query string, if that is where it has to go. -/
def FitsQuery (p : PlannedParam) : Prop :=
  p.explicit = false → p.param.location = .body → p.shape.fits .query = true

theorem toQuery_eq_ok {argument : String} {p p' : PlannedParam} :
    p.toQuery argument = .ok p' ↔ p.FitsQuery ∧ p' = p.inQuery := by
  unfold toQuery inQuery FitsQuery
  by_cases hmoves : p.explicit = false ∧ p.param.location = .body
  · rw [if_pos hmoves, if_neg (by simp [hmoves]), map_checkFits_eq_ok]
    simp [hmoves]
  · have hstays : p.explicit = true ∨ p.param.location ≠ .body := by
      cases hexplicit : p.explicit with
      | true => exact .inl rfl
      | false => exact .inr fun hbody => hmoves ⟨hexplicit, hbody⟩
    rw [if_neg hmoves, if_pos hstays, Except.ok.injEq, eq_comm]
    exact ⟨fun h => ⟨fun hexplicit hbody => absurd ⟨hexplicit, hbody⟩ hmoves, h⟩, fun h => h.2⟩

/-- The move to the query string changes the place of what nothing asked for, and nothing else. -/
theorem inQuery_cases (p : PlannedParam) : p.inQuery = p ∨
    (p.explicit = false ∧ p.param.location = .body ∧
      p.inQuery = { p with param := { p.param with location := .query } }) := by
  unfold inQuery
  split
  · next h => exact .inr ⟨h.1, h.2, rfl⟩
  · exact .inl rfl

@[simp]
theorem inQuery_explicit (p : PlannedParam) : p.inQuery.explicit = p.explicit := by
  rcases p.inQuery_cases with h | ⟨-, -, h⟩ <;> rw [h]

@[simp]
theorem inQuery_shape (p : PlannedParam) : p.inQuery.shape = p.shape := by
  rcases p.inQuery_cases with h | ⟨-, -, h⟩ <;> rw [h]

@[simp]
theorem inQuery_description (p : PlannedParam) :
    p.inQuery.param.description = p.param.description := by
  rcases p.inQuery_cases with h | ⟨-, -, h⟩ <;> rw [h]

theorem inQuery_of_explicit {p : PlannedParam} (h : p.explicit = true) : p.inQuery = p := by
  simp [inQuery, h]

/-- In the query string nothing is left of a place in the body that nothing asked for. -/
theorem inQuery_location_ne_body {p : PlannedParam} (h : p.explicit = false) :
    p.inQuery.param.location ≠ .body := by
  unfold inQuery
  split
  · simp
  · next hstays => exact fun hbody => hstays ⟨h, hbody⟩

theorem movedFor_path {body : RequestBody} {p : PlannedParam} :
    (p.movedFor body).param.location = .path ↔ p.param.location = .path := by
  unfold movedFor inQuery
  split
  · rfl
  · split <;> simp_all

theorem movedFor_of_path {body : RequestBody} {p : PlannedParam} (h : p.param.location = .path) :
    p.movedFor body = p := by
  simp [movedFor, inQuery, h]

theorem movedFor_of_explicit {body : RequestBody} {p : PlannedParam} (h : p.explicit = true) :
    p.movedFor body = p := by
  simp [movedFor, inQuery, h]

theorem isOnPattern_movedFor {body : RequestBody} {vars : List String} (p : PlannedParam) :
    (p.movedFor body).isOnPattern vars = p.isOnPattern vars := by
  by_cases h : p.param.location = .path
  · rw [movedFor_of_path h]
  · simp [isOnPattern, h, movedFor_path]

/-- What a manipulation may change of a parameter: nothing outside of the body, and nothing of its
place, of what it carries or of where it comes from. -/
structure Overlaid (p p' : PlannedParam) : Prop where
  location : p'.param.location = p.param.location
  repeated : p'.param.repeated = p.param.repeated
  field : p'.param.field = p.param.field
  same : p.param.location ≠ .body → p' = p

theorem Overlaid.refl (p : PlannedParam) : p.Overlaid p := ⟨rfl, rfl, rfl, fun _ => rfl⟩

theorem Overlaid.trans {p p' p'' : PlannedParam} (h : p.Overlaid p') (h' : p'.Overlaid p'') :
    p.Overlaid p'' where
  location := h'.location.trans h.location
  repeated := h'.repeated.trans h.repeated
  field := h'.field.trans h.field
  same hbody := (h'.same (h.location ▸ hbody)).trans (h.same hbody)

/-- The parameter of a request comes from that of the plan. -/
structure ServedAs (body : RequestBody) (p : PlannedParam) (q : Parameter) : Prop where
  location : q.location = (p.movedFor body).param.location
  repeated : q.repeated = p.param.repeated
  field : q.field = p.param.field
  same : body ≠ .synthesized ∨ q.location ≠ .body → q = (p.movedFor body).param

/-- What is read from the path is the same in the plan and in the request. -/
theorem ServedAs.of_path {body : RequestBody} {p : PlannedParam} {q : Parameter}
    (h : p.ServedAs body q) (hpath : q.location = .path) :
    p.param.location = .path ∧ q = p.param := by
  have hp : p.param.location = .path := movedFor_path.mp (h.location ▸ hpath)
  refine ⟨hp, ?_⟩
  rw [h.same (.inr (by simp [hpath])), movedFor_of_path hp]

/-- What the plan reads from the path is the same in the request. -/
theorem ServedAs.eq_of_path {body : RequestBody} {p : PlannedParam} {q : Parameter}
    (h : p.ServedAs body q) (hpath : p.param.location = .path) : q = p.param :=
  (h.of_path (h.location.trans (movedFor_path.mpr hpath))).2

end PlannedParam

namespace PlannedBinding

/-- The binding for requests with the given kind of body. -/
def movedFor (body : RequestBody) (b : PlannedBinding) : PlannedBinding :=
  { b with params := b.params.map (·.movedFor body) }

/-- What manipulations may change of a binding. -/
structure Overlaid (b b' : PlannedBinding) : Prop where
  argument : b'.argument = b.argument
  manual : b'.manual = b.manual
  blank : b'.blank = b.blank
  params : List.Forall₂ PlannedParam.Overlaid b.params b'.params
  fixed : b.blank = true → b' = b

theorem Overlaid.refl (b : PlannedBinding) : b.Overlaid b :=
  ⟨rfl, rfl, rfl, List.forall₂_same.mpr fun p _ => .refl p, fun _ => rfl⟩

theorem Overlaid.trans {b b' b'' : PlannedBinding} (h : b.Overlaid b') (h' : b'.Overlaid b'') :
    b.Overlaid b'' where
  argument := h'.argument.trans h.argument
  manual := h'.manual.trans h.manual
  blank := h'.blank.trans h.blank
  params := forall₂_trans (fun _ _ _ hp hp' => hp.trans hp') h.params h'.params
  fixed hblank := (h'.fixed (h.blank.trans hblank)).trans (h.fixed hblank)

/-- The binding of a request comes from that of the plan. -/
structure ServedAs (body : RequestBody) (b : PlannedBinding) (q : Binding) : Prop where
  argument : q.argument = b.argument
  manual : q.manual = b.manual
  blank : q.blank = b.blank
  params : List.Forall₂ (PlannedParam.ServedAs body) b.params q.params
  fixed : b.blank = true → q.params = (b.movedFor body).params.map (·.param)

/-- The binding with the body given up for the query string where nothing asked for it. -/
def inQuery (b : PlannedBinding) : PlannedBinding := { b with params := b.params.map (·.inQuery) }

/-- The values that have to go to the query string can travel there. -/
def FitsQuery (b : PlannedBinding) : Prop := ∀ p ∈ b.params, p.FitsQuery

theorem toQuery_eq_ok {b b' : PlannedBinding} :
    b.toQuery = .ok b' ↔ b.FitsQuery ∧ b' = b.inQuery := by
  unfold toQuery
  rw [map_eq_ok]
  simp only [mapM_eq_ok_map fun _ _ => PlannedParam.toQuery_eq_ok]
  constructor
  · rintro ⟨_, ⟨hfits, rfl⟩, rfl⟩
    exact ⟨hfits, rfl⟩
  · rintro ⟨hfits, rfl⟩
    exact ⟨_, ⟨hfits, rfl⟩, rfl⟩

/-- Path parameters of other patterns are left out, and the binding with them if that empties it. -/
theorem onPattern?_eq (vars : List String) (b : PlannedBinding) :
    b.onPattern? vars =
      if b.params ≠ [] ∧ b.params.filter (·.isOnPattern vars) = [] then none
      else some { b with params := b.params.filter (·.isOnPattern vars) } := rfl

theorem onPattern?_eq_some {vars : List String} {b b' : PlannedBinding}
    (h : b.onPattern? vars = some b') :
    b' = { b with params := b.params.filter (·.isOnPattern vars) } := by
  rw [onPattern?_eq] at h
  split at h
  · cases h
  · exact (Option.some.inj h).symm

theorem onPattern?_eq_none {vars : List String} {b : PlannedBinding} :
    b.onPattern? vars = none ↔
      b.params ≠ [] ∧ ∀ p ∈ b.params, p.param.location = .path ∧ p.param.name ∉ vars := by
  rw [onPattern?_eq]
  simp [PlannedParam.isOnPattern, List.filter_eq_nil_iff]

/-- Leaving out path parameters goes with any change that keeps places on the path and names
there. -/
theorem onPattern?_map {vars : List String} {f : PlannedParam → PlannedParam}
    (hf : ∀ p, (f p).isOnPattern vars = p.isOnPattern vars) (b : PlannedBinding) :
    onPattern? vars { b with params := b.params.map f } =
      (b.onPattern? vars).map fun b => { b with params := b.params.map f } := by
  have hfilter : (b.params.map f).filter (·.isOnPattern vars) =
      (b.params.filter (·.isOnPattern vars)).map f := by
    rw [List.filter_map]
    exact congrArg _ (List.filter_congr fun p _ => hf p)
  rw [onPattern?_eq, onPattern?_eq, hfilter]
  by_cases hgone : b.params ≠ [] ∧ b.params.filter (·.isOnPattern vars) = []
  · rw [if_pos hgone, if_pos ⟨by simpa using hgone.1, by rw [hgone.2, List.map_nil]⟩]
    rfl
  · rw [if_neg hgone, if_neg (by simpa using hgone)]
    rfl

/-- Leaving out path parameters does not depend on the kind of body. -/
theorem onPattern?_movedFor {body : RequestBody} {vars : List String} (b : PlannedBinding) :
    (b.movedFor body).onPattern? vars = (b.onPattern? vars).map (movedFor body) :=
  onPattern?_map PlannedParam.isOnPattern_movedFor b

theorem feeds_iff {name : String} {b : PlannedBinding} :
    b.feeds name = true ↔ b.blank = false ∧ b.argument.name = name := by
  simp [feeds]

theorem overlay_eq_ok {o : ParamOptions} {b b' : PlannedBinding} (hblank : b.blank = false)
    (h : b.overlay o = .ok b') : b.Overlaid b' := by
  unfold overlay at h
  split at h
  · exact absurd h fail_ne_ok
  · obtain rfl := Except.ok.inj h
    refine ⟨rfl, rfl, rfl, ?_, fun hb => by rw [hblank] at hb; cases hb⟩
    rw [List.forall₂_map_right_iff, List.forall₂_same]
    intro p hp
    split
    · next hbody =>
      refine ⟨rfl, rfl, rfl, fun hne => absurd ?_ hne⟩
      simpa [PlannedParam.inBody] using hbody
    · exact .refl p
  · exact absurd h fail_ne_ok

end PlannedBinding

namespace Plan

open PlannedBinding

variable {plan plan' : Plan}

theorem toQuery_eq_ok : plan.toQuery = .ok plan' ↔
    (∀ b ∈ plan, b.FitsQuery) ∧ plan' = plan.map (·.inQuery) :=
  mapM_eq_ok_map fun _ _ => PlannedBinding.toQuery_eq_ok

theorem onPattern_movedFor {body : RequestBody} {vars : List String} (plan : Plan) :
    onPattern vars (plan.map (·.movedFor body)) = (plan.onPattern vars).map (·.movedFor body) := by
  unfold onPattern
  rw [List.filterMap_map, List.map_filterMap]
  exact List.filterMap_congr fun b _ => onPattern?_movedFor b

theorem overlay_overlaid {m : BodyOverlay} (h : overlay m plan = .ok plan') :
    List.Forall₂ Overlaid plan plan' := by
  induction plan generalizing plan' with
  | nil => exact absurd h fail_ne_ok
  | cons b rest ih =>
    rw [overlay] at h
    split at h
    · next hfeeds =>
      obtain ⟨b', hb', rfl⟩ := map_eq_ok.mp h
      exact .cons (overlay_eq_ok (feeds_iff.mp hfeeds).1 hb')
        (List.forall₂_same.mpr fun b _ => .refl b)
    · obtain ⟨rest', hrest', rfl⟩ := map_eq_ok.mp h
      exact .cons (.refl b) (ih hrest')

theorem overlayAll_overlaid {ms : List BodyOverlay} (h : plan.overlayAll ms = .ok plan') :
    List.Forall₂ Overlaid plan plan' := by
  unfold overlayAll at h
  induction ms generalizing plan with
  | nil =>
    obtain rfl := pure_eq_ok.mp h
    exact List.forall₂_same.mpr fun b _ => .refl b
  | cons m ms ih =>
    obtain ⟨plan₁, hone, hrest⟩ := foldlM_cons_eq_ok.mp h
    exact forall₂_trans (fun _ _ _ hb hb' => hb.trans hb') (overlay_overlaid hone) (ih hrest)

theorem checkKeys_cons (seen : List (Location × String)) (f : Feed) (fs : List Feed) :
    checkKeys seen (f :: fs) =
      if f.param.key ∈ seen then
        fail (.duplicateParameter f.param.location f.param.name f.argument)
      else checkKeys (f.param.key :: seen) fs := rfl

theorem checkKeys_eq_ok {seen : List (Location × String)} {fs : List Feed} {u : Unit} :
    checkKeys seen fs = .ok u ↔
      (fs.map (·.param.key)).Nodup ∧ ∀ f ∈ fs, f.param.key ∉ seen := by
  induction fs generalizing seen with
  | nil => simp [checkKeys]
  | cons f fs ih =>
    rw [checkKeys_cons, List.map_cons, List.nodup_cons, List.forall_mem_cons]
    by_cases hseen : f.param.key ∈ seen
    · rw [if_pos hseen]
      exact ⟨fun h => absurd h fail_ne_ok, fun h => absurd hseen h.2.1⟩
    · rw [if_neg hseen, ih]
      constructor
      · rintro ⟨hnodup, hfresh⟩
        refine ⟨⟨?_, hnodup⟩, hseen, fun f' hf' => ?_⟩
        · intro hmem
          obtain ⟨f', hf', heq⟩ := List.mem_map.mp hmem
          exact hfresh f' hf' (heq ▸ List.mem_cons_self)
        · exact fun hmem => hfresh f' hf' (List.mem_cons_of_mem _ hmem)
      · rintro ⟨⟨hnew, hnodup⟩, -, hfresh⟩
        refine ⟨hnodup, fun f' hf' hmem => ?_⟩
        rcases List.mem_cons.mp hmem with heq | hmem
        · exact hnew (List.mem_map.mpr ⟨f', hf', heq⟩)
        · exact hfresh f' hf' hmem

/-- The parameters of a checked plan have different keys. -/
theorem nodup_of_checkUnique {u : Unit} (h : plan.checkUnique = .ok u) :
    (((plan.map (·.settle)).flatMap (·.params)).map (·.key)).Nodup := by
  have hkeys : ((plan.map (·.settle)).flatMap (·.params)).map (·.key) =
      (feeds plan).map (·.param.key) := by
    simp [feeds, PlannedBinding.settle, List.flatMap_map, List.map_flatMap, Function.comp_def]
  rw [hkeys]
  exact (checkKeys_eq_ok.mp h).1

end Plan

theorem PlannedParam.servedAs_of_overlaid {body : RequestBody} {p p' : PlannedParam}
    (h : (p.movedFor body).Overlaid p') (hsame : body ≠ .synthesized → p' = p.movedFor body) :
    p.ServedAs body p'.param := by
  have hkept : (p.movedFor body).param.repeated = p.param.repeated ∧
      (p.movedFor body).param.field = p.param.field := by
    unfold movedFor inQuery
    split
    · exact ⟨rfl, rfl⟩
    · split <;> exact ⟨rfl, rfl⟩
  refine ⟨h.location, h.repeated.trans hkept.1, h.field.trans hkept.2, ?_⟩
  rintro (hbody | hloc)
  · rw [hsame hbody]
  · rw [h.same (h.location ▸ hloc)]

theorem PlannedBinding.servedAs_of_overlaid {body : RequestBody} {b b' : PlannedBinding}
    (h : (b.movedFor body).Overlaid b') (hsame : body ≠ .synthesized → b' = b.movedFor body) :
    b.ServedAs body b'.settle where
  argument := h.argument
  manual := h.manual
  blank := h.blank
  params := by
    have hparams := h.params
    rw [movedFor, List.forall₂_map_left_iff] at hparams
    rw [settle, List.forall₂_map_right_iff]
    by_cases hbody : body = .synthesized
    · exact hparams.imp fun p p' hp =>
        PlannedParam.servedAs_of_overlaid hp fun hne => absurd hbody hne
    · rw [hsame hbody, movedFor, List.forall₂_map_right_iff, List.forall₂_same]
      exact fun p _ => PlannedParam.servedAs_of_overlaid (.refl _) fun _ => rfl
  fixed hblank := by rw [h.fixed hblank]; rfl

/-- The options that a body rule lays over members of the body. -/
def Declarations.overlays (decl : Declarations) : List BodyOverlay :=
  match decl.body with
  | some ⟨.overlaid overlays, _⟩ => overlays
  | _ => []

namespace Method

variable {m : Method} {decl : Declarations} {plan : Plan} {route : Declared Route}

/-- Manipulations need a synthesized body. -/
theorem overlayAll_of_overlaid {plan' : Plan} (h : m.overlaid decl route.value plan = .ok plan') :
    plan.overlayAll decl.overlays = .ok plan' ∧
      (requestBody decl route.value ≠ .synthesized → decl.overlays = []) := by
  unfold overlaid at h
  unfold Declarations.overlays
  rcases hrule : decl.body with _ | ⟨_ | _ | overlays, raw⟩
  case none | some.absent | some.whole =>
    rw [hrule] at h
    obtain rfl := Except.ok.inj h
    exact ⟨rfl, fun _ => rfl⟩
  case some.overlaid =>
    rw [hrule] at h
    replace h := at_eq_ok.mp h
    split at h
    · next hbody => exact ⟨h, fun hne => absurd hbody hne⟩
    · exact absurd h fail_ne_ok

theorem overlaid_eq_ok {plan' : Plan} (h : m.overlaid decl route.value plan = .ok plan') :
    List.Forall₂ PlannedBinding.Overlaid plan plan' ∧
      (requestBody decl route.value ≠ .synthesized → plan' = plan) := by
  obtain ⟨hoverlaid, hnone⟩ := overlayAll_of_overlaid h
  refine ⟨Plan.overlayAll_overlaid hoverlaid, fun hne => ?_⟩
  rw [hnone hne] at hoverlaid
  exact (pure_eq_ok.mp hoverlaid).symm

/-- What requests on a route hold if nothing of the plan has to move. -/
def settledRequest (m : Method) (decl : Declarations) (route : Declared Route) (plan : Plan) :
    Diagnosed Request := do
  let plan ← m.overlaid decl route.value (plan.onPattern route.value.vars)
  Checked.at m.name route.raw plan.checkUnique
  return { mediaType := jsonMediaType, body := requestBody decl route.value
           bindings := plan.map (·.settle) }

theorem settledRequest_eq_ok {req : Request} : m.settledRequest decl route plan = .ok req ↔
    ∃ plan', m.overlaid decl route.value (plan.onPattern route.value.vars) = .ok plan' ∧
      plan'.checkUnique = .ok () ∧
      req = ⟨jsonMediaType, requestBody decl route.value, plan'.map (·.settle)⟩ := by
  unfold settledRequest
  simp only [bind_eq_ok, at_eq_ok, pure_eq_ok]
  constructor
  · rintro ⟨plan', hplan', _, hunique, rfl⟩
    exact ⟨plan', hplan', hunique, rfl⟩
  · rintro ⟨plan', hplan', hunique, rfl⟩
    exact ⟨plan', hplan', (), hunique, rfl⟩

/-- Without a synthesized body the plan is moved out of the body before a request is made of it. -/
theorem request_eq : m.request decl plan route =
    if requestBody decl route.value = .synthesized then m.settledRequest decl route plan
    else Checked.at m.name route.raw plan.toQuery >>= m.settledRequest decl route := by
  simp only [request]
  split <;> rfl

/-- Without a synthesized body the plan is moved out of the body, which its values have to fit, and
otherwise left alone. -/
theorem request_cases {req : Request} : m.request decl plan route = .ok req ↔
    (requestBody decl route.value ≠ .synthesized → ∀ b ∈ plan, b.FitsQuery) ∧
    ∃ plan', m.overlaid decl route.value (Plan.onPattern route.value.vars
        (plan.map (·.movedFor (requestBody decl route.value)))) = .ok plan' ∧
      plan'.checkUnique = .ok () ∧
      req = ⟨jsonMediaType, requestBody decl route.value, plan'.map (·.settle)⟩ := by
  rw [request_eq, ← settledRequest_eq_ok]
  by_cases hbody : requestBody decl route.value = .synthesized
  · have hmoved : plan.map (·.movedFor (requestBody decl route.value)) = plan := by
      simp [PlannedBinding.movedFor, PlannedParam.movedFor, hbody]
    rw [if_pos hbody, hmoved]
    simp [hbody]
  · have hmoved : plan.map (·.movedFor (requestBody decl route.value)) = plan.map (·.inQuery) := by
      simp [PlannedBinding.movedFor, PlannedBinding.inQuery, PlannedParam.movedFor, hbody]
    rw [if_neg hbody, hmoved, bind_eq_ok]
    simp only [at_eq_ok, Plan.toQuery_eq_ok]
    constructor
    · rintro ⟨_, ⟨hfits, rfl⟩, hserved⟩
      exact ⟨fun _ => hfits, hserved⟩
    · rintro ⟨hfits, hserved⟩
      exact ⟨_, ⟨hfits hbody, rfl⟩, hserved⟩

/-- A request has the bindings of the plan that belong to its pattern, moved out of the body if it
has no synthesized one, and no two of its parameters share place and name. -/
theorem request_eq_ok {req : Request} (h : m.request decl plan route = .ok req) :
    req.body = requestBody decl route.value ∧
      List.Forall₂ (PlannedBinding.ServedAs req.body) (plan.onPattern route.value.vars)
        req.bindings ∧
      (req.params.map (·.key)).Nodup := by
  obtain ⟨-, plan', hplan', hunique, rfl⟩ := request_cases.mp h
  obtain ⟨hoverlaid, hsame⟩ := overlaid_eq_ok hplan'
  -- parameters of other patterns may as well be left out before the plan is moved out of the body
  rw [Plan.onPattern_movedFor] at hoverlaid hsame
  refine ⟨rfl, ?_, Plan.nodup_of_checkUnique hunique⟩
  rw [List.forall₂_map_right_iff]
  by_cases hbody : requestBody decl route.value = .synthesized
  · rw [List.forall₂_map_left_iff] at hoverlaid
    exact hoverlaid.imp fun b b' hb =>
      PlannedBinding.servedAs_of_overlaid hb fun hne => absurd hbody hne
  · rw [hsame hbody, List.forall₂_map_right_iff, List.forall₂_same]
    exact fun b _ => PlannedBinding.servedAs_of_overlaid (.refl _) fun _ => rfl

namespace Serves

variable {o : Operation} (ho : m.Serves decl plan route o)

include ho

/-- Every binding of an operation comes from one of the plan, without the path parameters of other
patterns. -/
theorem exists_planned_binding {q : Binding} (hq : q ∈ o.request.bindings) :
    ∃ b ∈ plan, PlannedBinding.ServedAs o.request.body
      { b with params := b.params.filter (·.isOnPattern route.value.vars) } q := by
  obtain ⟨-, hserved, -⟩ := request_eq_ok ho.requested
  obtain ⟨kept, hkept, hkeptq⟩ := forall₂_mem_right hserved hq
  obtain ⟨b, hb, hbkept⟩ := List.mem_filterMap.mp hkept
  exact ⟨b, hb, PlannedBinding.onPattern?_eq_some hbkept ▸ hkeptq⟩

/-- Every parameter of an operation comes from one of the plan that belongs to its pattern. -/
theorem exists_planned {q : Parameter} (hq : q ∈ o.request.params) :
    ∃ b ∈ plan, ∃ p ∈ b.params, p.isOnPattern route.value.vars = true ∧
      p.ServedAs o.request.body q := by
  obtain ⟨b', hb', hq⟩ := List.mem_flatMap.mp hq
  obtain ⟨b, hb, hbb'⟩ := ho.exists_planned_binding hb'
  obtain ⟨p, hp, hpq⟩ := forall₂_mem_right hbb'.params hq
  exact ⟨b, hb, p, List.mem_of_mem_filter hp, (List.mem_filter.mp hp).2, hpq⟩

/-- Every parameter of the plan that belongs to the pattern makes one of the operation, in a binding
of the same argument. -/
theorem exists_served_binding {b : PlannedBinding} {p : PlannedParam} (hb : b ∈ plan)
    (hp : p ∈ b.params) (hvars : p.isOnPattern route.value.vars = true) :
    ∃ b' ∈ o.request.bindings, b'.argument = b.argument ∧ b'.blank = b.blank ∧
      ∃ q ∈ b'.params, p.ServedAs o.request.body q := by
  obtain ⟨-, hserved, -⟩ := request_eq_ok ho.requested
  have hp' : p ∈ b.params.filter (·.isOnPattern route.value.vars) :=
    List.mem_filter.mpr ⟨hp, hvars⟩
  have hkept : b.onPattern? route.value.vars =
      some { b with params := b.params.filter (·.isOnPattern route.value.vars) } := by
    rw [PlannedBinding.onPattern?_eq, if_neg fun h => List.ne_nil_of_mem hp' h.2]
  obtain ⟨b', hb', hbb'⟩ :=
    forall₂_mem_left hserved (List.mem_filterMap.mpr ⟨b, hb, hkept⟩)
  exact ⟨b', hb', hbb'.argument, hbb'.blank, forall₂_mem_left hbb'.params hp'⟩

theorem exists_served {b : PlannedBinding} {p : PlannedParam} (hb : b ∈ plan) (hp : p ∈ b.params)
    (hvars : p.isOnPattern route.value.vars = true) :
    ∃ q ∈ o.request.params, p.ServedAs o.request.body q := by
  obtain ⟨b', hb', -, -, q, hq, hpq⟩ := ho.exists_served_binding hb hp hvars
  exact ⟨q, List.mem_flatMap.mpr ⟨b', hb', hq⟩, hpq⟩

end Serves

end Method

end Routespec
