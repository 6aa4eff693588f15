import Mathlib.Tactic.Choose
import Routespec.Proofs.Request
import Routespec.Proofs.SharedPlan

/-!
# Coverage of arguments and fields

Where the bindings of an operation stand among the arguments of its method. Each argument that takes
part in requests has a place, in order, and so has each field of a composite one. A place is empty
only if what belongs there is read from path variables of other patterns.
-/

namespace Routespec

/-- What relates to a list with some elements left out stands at places of the whole list. -/
theorem exists_places {α β γ : Type} {R : β → γ → Prop} {f : α → Option β} {xs : List α}
    {ys : List γ} (h : List.Forall₂ R (xs.filterMap f) ys) :
    ∃ places, List.Forall₂ (fun x place => Option.Rel R (f x) place) xs places ∧
      places.reduceOption = ys := by
  induction xs generalizing ys with
  | nil =>
    obtain rfl := List.forall₂_nil_left_iff.mp h
    exact ⟨[], .nil, rfl⟩
  | cons x xs ih =>
    cases hx : f x with
    | none =>
      rw [List.filterMap_cons_none hx] at h
      obtain ⟨places, hplaces, hkept⟩ := ih h
      refine ⟨none :: places, .cons ?_ hplaces, ?_⟩
      · rw [hx]
        exact .none
      · rw [List.reduceOption_cons_of_none, hkept]
    | some y =>
      rw [List.filterMap_cons_some hx] at h
      obtain ⟨z, zs, hyz, hzs, rfl⟩ := List.forall₂_cons_left_iff.mp h
      obtain ⟨places, hplaces, hkept⟩ := ih hzs
      refine ⟨some z :: places, .cons ?_ hplaces, ?_⟩
      · rw [hx]
        exact .some hyz
      · rw [List.reduceOption_cons_of_some, hkept]

theorem PlannedParam.movedFor_name {body : RequestBody} (p : PlannedParam) :
    (p.movedFor body).param.name = p.param.name := by
  unfold movedFor inQuery
  split
  · rfl
  · split <;> rfl

theorem PlannedParam.isOnPattern_eq_false {vars : List String} {p : PlannedParam} :
    p.isOnPattern vars = false ↔ p.param.location = .path ∧ p.param.name ∉ vars := by
  simp [isOnPattern]

/-- A clause without an argument has at its place a binding under names that the clause gives, or
else none of its names is a variable of the pattern. -/
def ArgumentClause.HasPlace (vars : List String) (c : ArgumentClause) : Option Binding → Prop
  | some b => b.blank = true ∧ (b.params.map (some ·.name)).Sublist (c.groups.map (·.name))
  | none => ∀ group ∈ c.groups, ∃ name ∉ vars, group.name = some name

/-- The places that an operation has for the arguments of its method, and for the fields of each,
cover everything that requests are made of. -/
structure Operation.Covers (m : Method) (decl : Declarations) (vars : List String)
    (operations : List Operation) (places : Operation → List (Option Binding))
    (fieldPlaces : Operation → Nat → List (Option Parameter)) (o : Operation) : Prop where
  /-- Each argument that takes part in requests has a place of its own, in order. -/
  arguments : List.Forall₂ (fun arg place => ∀ b ∈ place, b.argument = arg ∧ b.blank = false)
    m.eligible (places o)
  /-- Nothing follows the arguments but bindings of clauses without one, in order. -/
  blanks : ∃ blanks, List.Forall₂ (fun c => c.value.HasPlace vars) decl.blankClauses blanks ∧
    o.request.bindings = (places o).reduceOption ++ blanks.reduceOption
  /-- An argument without a binding is read from path variables of another operation. -/
  missing : ∀ i : Nat, (places o)[i]? = some none →
    ∃ o' ∈ operations, o' ≠ o ∧ ∃ b, (places o')[i]? = some (some b) ∧ b.params ≠ [] ∧
      ∀ p ∈ b.params, p.location = .path ∧ p.name ∉ vars
  /-- Each field that is not omitted has a place of its own, in order. -/
  fields : ∀ (i : Nat) arg fields place, m.eligible[i]? = some arg →
    arg.shape = .composite fields → o.request.body ≠ .field arg.name →
    (places o)[i]? = some place →
      List.Forall₂ (fun f place => ∀ p ∈ place, p.field = some f.name)
        (fields.filter (!·.isOmitted)) (fieldPlaces o i) ∧
      (fieldPlaces o i).reduceOption = place.elim [] (·.params)
  /-- A field without a parameter is read from a path variable of another operation. -/
  missingField : ∀ (i : Nat) arg fields, m.eligible[i]? = some arg →
    arg.shape = .composite fields → o.request.body ≠ .field arg.name →
    ∀ j : Nat, (fieldPlaces o i)[j]? = some none →
      ∃ o' ∈ operations, o' ≠ o ∧ ∃ p, (fieldPlaces o' i)[j]? = some (some p) ∧
        p.location = .path ∧ p.name ∉ vars

/-- What a request has at the place of a parameter: nothing if it belongs to other patterns. -/
def PlannedParam.PlacedAs (vars : List String) (body : RequestBody) (p : PlannedParam) :
    Option Parameter → Prop
  | none => p.param.location = .path ∧ p.param.name ∉ vars
  | some q => p.ServedAs body q

/-- What a request has at the place of a binding: nothing if all it has belongs to other
patterns. -/
def PlannedBinding.PlacedAs (vars : List String) (body : RequestBody) (b : PlannedBinding) :
    Option Binding → Prop
  | none => b.params ≠ [] ∧ ∀ p ∈ b.params, p.param.location = .path ∧ p.param.name ∉ vars
  | some q => ServedAs body { b with params := b.params.filter (·.isOnPattern vars) } q

theorem PlannedParam.placedAs_of_rel {vars : List String} {body : RequestBody} {p : PlannedParam}
    {place : Option Parameter}
    (h : Option.Rel (ServedAs body) (Option.guard (·.isOnPattern vars) p) place) :
    p.PlacedAs vars body place := by
  cases hguard : Option.guard (·.isOnPattern vars) p with
  | none =>
    rw [hguard] at h
    cases h
    rw [Option.guard_eq_none_iff] at hguard
    exact isOnPattern_eq_false.mp hguard
  | some kept =>
    rw [hguard] at h
    obtain ⟨rfl, -⟩ := Option.guard_eq_some_iff.mp hguard
    cases h with
    | some hserved => exact hserved

theorem PlannedBinding.placedAs_of_rel {vars : List String} {body : RequestBody}
    {b : PlannedBinding} {place : Option Binding}
    (h : Option.Rel (ServedAs body) (b.onPattern? vars) place) : b.PlacedAs vars body place := by
  cases hkept : b.onPattern? vars with
  | none =>
    rw [hkept] at h
    cases h
    exact onPattern?_eq_none.mp hkept
  | some kept =>
    rw [hkept] at h
    obtain rfl := onPattern?_eq_some hkept
    cases h with
    | some hserved => exact hserved

/-- A request has the parameters of a binding that belong to the pattern, none if the binding is
left out. -/
theorem PlannedBinding.PlacedAs.params {vars : List String} {body : RequestBody}
    {b : PlannedBinding} {place : Option Binding} (h : b.PlacedAs vars body place) :
    List.Forall₂ (PlannedParam.ServedAs body) (b.params.filter (·.isOnPattern vars))
      (place.elim [] (·.params)) := by
  cases place with
  | none =>
    have hfilter : b.params.filter (·.isOnPattern vars) = [] := by
      rw [List.filter_eq_nil_iff]
      intro p hp
      simp [PlannedParam.isOnPattern_eq_false.mpr (h.2 p hp)]
    rw [hfilter]
    exact .nil
  | some q => exact ServedAs.params h

/-- The places of an operation's bindings among those of a plan, and of their parameters. -/
structure Plan.Places (plan : Plan) (vars : List String) (body : RequestBody)
    (places : List (Option Binding)) (fieldPlaces : Nat → List (Option Parameter)) : Prop where
  bindings : List.Forall₂ (PlannedBinding.PlacedAs vars body) plan places
  params : ∀ (i : Nat) b place, plan[i]? = some b → places[i]? = some place →
    List.Forall₂ (PlannedParam.PlacedAs vars body) b.params (fieldPlaces i) ∧
    (fieldPlaces i).reduceOption = place.elim [] (·.params)

namespace Plan.Places

variable {plan : Plan} {vars : List String} {body : RequestBody} {places : List (Option Binding)}
  {fieldPlaces : Nat → List (Option Parameter)} (h : plan.Places vars body places fieldPlaces)

include h

/-- A binding with a parameter that belongs to the pattern is at its place. -/
theorem of_onPattern {i : Nat} {b : PlannedBinding} (hb : plan[i]? = some b) {p : PlannedParam}
    (hp : p ∈ b.params) (hvars : p.isOnPattern vars = true) :
    ∃ b', places[i]? = some (some b') ∧ b'.params ≠ [] ∧
      List.Forall₂ (PlannedParam.ServedAs body) (b.params.filter (·.isOnPattern vars))
        b'.params := by
  obtain ⟨place, hi, hplace⟩ := forall₂_getElem? h.bindings hb
  have hserved := hplace.params
  obtain ⟨q, hq, -⟩ := forall₂_mem_left hserved (List.mem_filter.mpr ⟨hp, hvars⟩)
  cases place with
  | none => cases hq
  | some b' => exact ⟨b', hi, List.ne_nil_of_mem hq, hserved⟩

theorem of_missingField {i j : Nat} {b : PlannedBinding} (hb : plan[i]? = some b)
    (hj : (fieldPlaces i)[j]? = some none) :
    ∃ p, b.params[j]? = some p ∧ p.param.location = .path ∧ p.param.name ∉ vars := by
  obtain ⟨place, hi, -⟩ := forall₂_getElem? h.bindings hb
  exact forall₂_getElem? (h.params i b place hb hi).1.flip hj

/-- What is read from a path variable of the pattern is at its place, as the plan has it. -/
theorem of_onPatternField {i j : Nat} {b : PlannedBinding} (hb : plan[i]? = some b)
    {p : PlannedParam} (hp : b.params[j]? = some p) (hpath : p.param.location = .path)
    (hvars : p.param.name ∈ vars) : (fieldPlaces i)[j]? = some (some p.param) := by
  obtain ⟨place, hi, -⟩ := forall₂_getElem? h.bindings hb
  obtain ⟨fieldPlace, hj, hplace⟩ := forall₂_getElem? (h.params i b place hb hi).1 hp
  cases fieldPlace with
  | none => exact absurd hvars hplace.2
  | some q => rw [hj, PlannedParam.ServedAs.eq_of_path hplace hpath]

end Plan.Places

/-- All operations have places for the bindings of one plan, and each path parameter of the plan
belongs to the pattern of some operation. -/
structure Plan.PlacedIn (plan : Plan) (operations : List Operation)
    (vars : Operation → List String) (places : Operation → List (Option Binding))
    (fieldPlaces : Operation → Nat → List (Option Parameter)) : Prop where
  placed : ∀ o ∈ operations, plan.Places (vars o) o.request.body (places o) (fieldPlaces o)
  reader : ∀ b ∈ plan, ∀ p ∈ b.params, p.param.location = .path →
    ∃ o ∈ operations, p.param.name ∈ vars o

namespace Plan.PlacedIn

variable {plan : Plan} {operations : List Operation} {vars : Operation → List String}
  {places : Operation → List (Option Binding)}
  {fieldPlaces : Operation → Nat → List (Option Parameter)} {o : Operation}
  (h : plan.PlacedIn operations vars places fieldPlaces) (ho : o ∈ operations)

include h ho

/-- What has an empty place in one operation is read from path variables in another. -/
theorem missing {i : Nat} (hi : (places o)[i]? = some none) :
    ∃ o' ∈ operations, o' ≠ o ∧ ∃ b, (places o')[i]? = some (some b) ∧ b.params ≠ [] ∧
      ∀ p ∈ b.params, p.location = .path ∧ p.name ∉ vars o := by
  obtain ⟨b, hb, hne, hgone⟩ := forall₂_getElem? (h.placed o ho).bindings.flip hi
  obtain ⟨p, hp⟩ := List.exists_mem_of_ne_nil _ hne
  obtain ⟨o', ho', hname⟩ := h.reader b (List.mem_of_getElem? hb) p hp (hgone p hp).1
  obtain ⟨b', hi', hne', hserved⟩ := (h.placed o' ho').of_onPattern hb hp
    (by simp [PlannedParam.isOnPattern, hname])
  refine ⟨o', ho', ?_, b', hi', hne', ?_⟩
  · rintro rfl
    rw [hi] at hi'
    cases hi'
  · intro q hq
    obtain ⟨p', hp', hpq⟩ := forall₂_mem_right hserved hq
    have hforeign := hgone p' (List.mem_of_mem_filter hp')
    rw [hpq.eq_of_path hforeign.1]
    exact hforeign

theorem missingField {i j : Nat} {b : PlannedBinding} (hb : plan[i]? = some b)
    (hj : (fieldPlaces o i)[j]? = some none) :
    ∃ o' ∈ operations, o' ≠ o ∧ ∃ p, (fieldPlaces o' i)[j]? = some (some p) ∧
      p.location = .path ∧ p.name ∉ vars o := by
  obtain ⟨p, hp, hpath, hforeign⟩ := (h.placed o ho).of_missingField hb hj
  obtain ⟨o', ho', hname⟩ :=
    h.reader b (List.mem_of_getElem? hb) p (List.mem_of_getElem? hp) hpath
  have hj' := (h.placed o' ho').of_onPatternField hb hp hpath hname
  refine ⟨o', ho', ?_, p.param, hj', hpath, hforeign⟩
  rintro rfl
  rw [hj] at hj'
  cases hj'

end Plan.PlacedIn

namespace Method

variable {m : Method} {aliases : AliasTable} {options : ResolveOptions} {r : MethodResolution}
  {decl : Declarations} {plan fed blank : Plan} {route : Declared Route} {o : Operation}

/-- The bindings of an operation are at places of the plan's, and so are their parameters. -/
theorem Serves.exists_places (ho : m.Serves decl (fed ++ blank) route o) :
    ∃ places fieldPlaces blanks,
      fed.Places route.value.vars o.request.body places fieldPlaces ∧
      List.Forall₂ (PlannedBinding.PlacedAs route.value.vars o.request.body) blank blanks ∧
      o.request.bindings = places.reduceOption ++ blanks.reduceOption := by
  obtain ⟨-, hserved, -⟩ := request_eq_ok ho.requested
  obtain ⟨all, hall, hkept⟩ := Routespec.exists_places hserved
  replace hall := hall.imp fun b place hplace => PlannedBinding.placedAs_of_rel hplace
  obtain ⟨places, blanks, rfl, hplaces, hblanks⟩ := forall₂_append_left hall
  have hfields : ∀ i : Nat, ∃ fieldPlaces, ∀ b place, fed[i]? = some b →
      places[i]? = some place →
      List.Forall₂ (PlannedParam.PlacedAs route.value.vars o.request.body) b.params fieldPlaces ∧
      fieldPlaces.reduceOption = place.elim [] (·.params) := by
    intro i
    cases hb : fed[i]? with
    | none => exact ⟨[], by simp⟩
    | some b =>
      obtain ⟨place, hi, hplace⟩ := forall₂_getElem? hplaces hb
      have hserved := hplace.params
      rw [← List.filterMap_eq_filter] at hserved
      obtain ⟨fieldPlaces, hfieldPlaces, hkept⟩ := Routespec.exists_places hserved
      refine ⟨fieldPlaces, ?_⟩
      rintro _ _ ⟨⟩ hi'
      obtain rfl : place = _ := Option.some.inj (hi.symm.trans hi')
      exact ⟨hfieldPlaces.imp fun p place hp => PlannedParam.placedAs_of_rel hp, hkept⟩
  choose fieldPlaces hfields using hfields
  refine ⟨places, fieldPlaces, blanks, ⟨hplaces, hfields⟩, hblanks, ?_⟩
  rw [← hkept, List.reduceOption_append]

/-- The operations of a method have places for the bindings of its plan. -/
theorem Resolves.exists_placedIn (h : m.Resolves aliases options decl (fed ++ blank) r) :
    ∃ vars places fieldPlaces, ∃ blanks : Operation → List (Option Binding),
      fed.PlacedIn r.operations vars places fieldPlaces ∧ ∀ o ∈ r.operations,
        PathPattern.vars o.pattern = .ok (vars o) ∧
        List.Forall₂ (PlannedBinding.PlacedAs (vars o) o.request.body) blank (blanks o) ∧
        o.request.bindings = (places o).reduceOption ++ (blanks o).reduceOption := by
  have hplaces : ∀ o ∈ r.operations, ∃ vars places fieldPlaces blanks,
      fed.Places vars o.request.body places fieldPlaces ∧
      PathPattern.vars o.pattern = .ok vars ∧
      List.Forall₂ (PlannedBinding.PlacedAs vars o.request.body) blank blanks ∧
      o.request.bindings = places.reduceOption ++ blanks.reduceOption := by
    intro o ho
    obtain ⟨route, hroute, hserves⟩ := h.exists_route ho
    obtain ⟨places, fieldPlaces, blanks, hplaces, hblanks⟩ := hserves.exists_places
    exact ⟨_, places, fieldPlaces, blanks, hplaces, h.vars_of_serves hroute hserves, hblanks⟩
  choose! vars places fieldPlaces blanks hplaces hvars using hplaces
  refine ⟨vars, places, fieldPlaces, blanks, ⟨hplaces, ?_⟩, hvars⟩
  intro b hb p hp hpath
  -- a name read from the path is a variable of some route, and every route has an operation
  obtain ⟨-, hnamed⟩ := sound_of_plan h.leavesBody h.planned (List.mem_append_left blank hb) hp
  obtain ⟨route, hroute, hname⟩ := Declarations.mem_pathVars.mp (hnamed hpath)
  obtain ⟨o, ho, hserves⟩ := h.exists_operation hroute
  have hvars := (h.vars_of_serves hroute hserves).symm.trans (hvars o ho).1
  exact ⟨o, ho, Except.ok.inj hvars ▸ hname⟩

/-- An argument that is not the whole body is planned for. -/
theorem Resolves.plannedFor (h : m.Resolves aliases options decl plan r)
    {inf : Inference} (hfed : List.Forall₂ (decl.Plans inf) m.eligible fed)
    (ho : o ∈ r.operations) {i : Nat} {arg : Argument} (hi : m.eligible[i]? = some arg)
    (hbody : o.request.body ≠ .field arg.name) :
    ∃ b, fed[i]? = some b ∧ b.PlannedFor decl.pathVars arg := by
  obtain ⟨b, hb, hplans⟩ := forall₂_getElem? hfed hi
  cases hplans with
  | planned hwhole hb' => exact ⟨b, hb, hb'⟩
  | whole hwhole =>
    obtain ⟨route, hroute, hserves⟩ := h.exists_route ho
    obtain ⟨hkind, -, -⟩ := request_eq_ok hserves.requested
    exact absurd (hkind.trans (requestBody_eq_field.mpr hwhole)) hbody

/-- A binding of a clause without an argument is served under names of the clause, or else none of
them is a variable of the pattern. -/
theorem hasPlace_of_blank {vars pathVars : List String} {body : RequestBody}
    {c : ArgumentClause} {b : PlannedBinding} (hb : b.BlankPlannedFor pathVars c.groups)
    {place : Option Binding} (h : b.PlacedAs vars body place) : c.HasPlace vars place := by
  have hnames : c.groups.map (·.name) = b.params.map (some ·.param.name) := by
    rw [← List.forall₂_eq_eq_eq, List.forall₂_map_left_iff, List.forall₂_map_right_iff]
    exact hb.named
  cases place with
  | none =>
    intro group hgroup
    obtain ⟨p, hp, hname⟩ := forall₂_mem_left hb.named hgroup
    exact ⟨_, (h.2 p hp).2, hname⟩
  | some q =>
    have hserved : PlannedBinding.ServedAs body
      { b with params := b.params.filter (·.isOnPattern vars) } q := h
    refine ⟨hserved.blank.trans hb.blank, ?_⟩
    rw [hserved.fixed hb.blank, hnames]
    simp only [PlannedBinding.movedFor, List.map_map, Function.comp_def, PlannedParam.movedFor_name]
    exact List.filter_sublist.map _

/-- At the place of an argument is a binding that carries the argument itself. -/
theorem argument_of_place {inf : Inference} {vars : List String} {body : RequestBody}
    {arg : Argument} {b : PlannedBinding} (hb : decl.Plans inf arg b) {place : Option Binding}
    (h : b.PlacedAs vars body place) : ∀ b' ∈ place, b'.argument = arg ∧ b'.blank = false := by
  rintro b' rfl
  have hserved : PlannedBinding.ServedAs body
    { b with params := b.params.filter (·.isOnPattern vars) } b' := h
  exact ⟨hserved.argument.trans hb.argument_eq.1, hserved.blank.trans hb.argument_eq.2⟩

/-- At the place of a field is a parameter that carries it. -/
theorem fields_of_places {vars pathVars : List String} {body : RequestBody}
    {places : List (Option Binding)} {fieldPlaces : Nat → List (Option Parameter)}
    (h : fed.Places vars body places fieldPlaces) {i : Nat} {arg : Argument} {fields : List Field}
    (hshape : arg.shape = .composite fields) {b : PlannedBinding} (hb : fed[i]? = some b)
    (hplanned : b.PlannedFor pathVars arg) {place : Option Binding} (hi : places[i]? = some place) :
    List.Forall₂ (fun f place => ∀ p ∈ place, p.field = some f.name)
      (fields.filter (!·.isOmitted)) (fieldPlaces i) := by
  have hfed := hplanned.fed
  rw [hshape] at hfed
  refine forall₂_trans (fun f p place hfield hplace => ?_) hfed (h.params i b place hb hi).1
  rintro q rfl
  exact (PlannedParam.ServedAs.field hplace).trans hfield.1

/-- Every operation has the arguments of its method at their places, and the fields of each. An
argument or a field is left out only where other operations read it from path variables that the
operation's own pattern does not have. -/
theorem arguments_covered (h : m.resolve aliases options = .ok r) :
    ∃ places fieldPlaces, ∀ o ∈ r.operations, ∃ decl vars,
      m.declarations aliases = .ok decl ∧ PathPattern.vars o.pattern = .ok vars ∧
      o.Covers m decl vars r.operations places fieldPlaces := by
  rcases resolve_cases h with rfl | ⟨decl, plan, hres⟩
  · exact ⟨fun _ => [], fun _ _ => [], by simp⟩
  obtain ⟨fed, blank, rfl, hfed, hblank⟩ := plan_eq_ok hres.leavesBody hres.planned
  obtain ⟨vars, places, fieldPlaces, blanks, hplaced, hrest⟩ := hres.exists_placedIn
  refine ⟨places, fieldPlaces, fun o ho => ?_⟩
  obtain ⟨hvars, hblanks, hbindings⟩ := hrest o ho
  refine ⟨decl, vars o, hres.declared, hvars, ?_, ⟨blanks o, ?_, hbindings⟩, ?_, ?_, ?_⟩
  · refine forall₂_trans (fun arg b place hb hplace => ?_) hfed (hplaced.placed o ho).bindings
    exact argument_of_place hb hplace
  · refine forall₂_trans (fun c b place hb hplace => ?_) hblank hblanks
    exact hasPlace_of_blank hb hplace
  · exact fun i hi => hplaced.missing ho hi
  · intro i arg fields place hi hshape hbody hplace
    obtain ⟨b, hb, hb'⟩ := hres.plannedFor hfed ho hi hbody
    exact ⟨fields_of_places (hplaced.placed o ho) hshape hb hb' hplace,
      ((hplaced.placed o ho).params i b place hb hplace).2⟩
  · intro i arg fields hi hshape hbody j hj
    obtain ⟨b, hb, -⟩ := hres.plannedFor hfed ho hi hbody
    exact hplaced.missingField ho hb hj

/-- Two patterns, the second of which has none of the variables of the first, and two parameters
without an argument. -/
def moveItem : Method where
  name := "MoveItem"
  args := [⟨"ctx", "Context", .context⟩, ⟨"id", "string", .scalar⟩,
    ⟨"item", "Item", .composite [⟨"Secret", "string", .scalar, some "-"⟩,
      ⟨"Owner", "string", .scalar, none⟩, ⟨"Labels", "[]string", .scalarSeq, none⟩]⟩]
  returns := []
  doc := ["//kun:op PUT /users/{owner}/items/{id}", "//kun:op POST /items",
    "//kun:param __ in=query name=page", "//kun:param __ in=header name=trace",
    "//kun:success statusCode=204"]

theorem arguments_covered_of_moveItem : ∃ r, moveItem.resolve .empty {} = .ok r ∧
    r.operations.map (fun o => o.request.bindings.map fun b =>
      (b.argument.name, b.params.map (·.name))) =
      [[("id", ["id"]), ("item", ["owner", "labels"]), ("__", ["page"]), ("__", ["trace"])],
        [("item", ["labels"]), ("__", ["page"]), ("__", ["trace"])]] ∧
    ∃ places fieldPlaces, ∀ o ∈ r.operations, ∃ decl vars,
      moveItem.declarations .empty = .ok decl ∧ PathPattern.vars o.pattern = .ok vars ∧
      o.Covers moveItem decl vars r.operations places fieldPlaces := by
  obtain ⟨r, hr, hnames⟩ : ∃ r, moveItem.resolve .empty {} = .ok r ∧
      r.operations.map (fun o => o.request.bindings.map fun b =>
        (b.argument.name, b.params.map (·.name))) =
        [[("id", ["id"]), ("item", ["owner", "labels"]), ("__", ["page"]), ("__", ["trace"])],
          [("item", ["labels"]), ("__", ["page"]), ("__", ["trace"])]] :=
    exists_ok_of_map (by decide +kernel)
  exact ⟨r, hr, hnames, arguments_covered hr⟩

end Method

end Routespec
