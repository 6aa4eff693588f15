import Routespec.Proofs.ReadingFaults
import Routespec.Proofs.Resolution

/-!
# Where a method stops

The diagnostics that the parts of resolution can stop with: each is about the method, and about one
of the directives that the part looks at. Only two parts stop without a directive: reading a method
that has directives but no operation, and binding an argument that no directive names.

A property of diagnostics holds of whatever a part stops with if it permits every fault, but for
those of success responses, in each of these directives.
-/

namespace Routespec

/-- Any fault that is not about the response may be met by the owner in the directive. -/
def Permits (P : Diagnostic → Prop) (owner raw : String) : Prop :=
  ∀ f : Fault, f.OffResponse → P ⟨owner, raw, f⟩

variable {P : Diagnostic → Prop} {owner raw : String}

theorem Permits.at (h : Permits P owner raw) {α : Type} {x : Checked α} (hx : OffResponse x) :
    StopsWith P (Checked.at owner raw x) :=
  stopsWith_at.mpr (hx.mono h)

theorem Permits.fail (h : Permits P owner raw) {α : Type} {c : Cause}
    (hc : c.aboutResponse = false) : StopsWith P (Checked.at owner raw (fail c : Checked α)) :=
  h.at (stopsWith_fail.mpr hc)

namespace Declarations

variable {m : Method} {ds : List Directive}

theorem stopsWith_readRoutes (hds : ∀ d ∈ ds, Permits P owner d.raw)
    {earlier : List (HttpMethod × String)} : StopsWith P (readRoutes owner earlier ds) := by
  induction ds generalizing earlier with
  | nil => exact stopsWith_ok
  | cons d ds ih =>
    rw [List.forall_mem_cons] at hds
    refine (hds.1.at (Route.read_offResponse d.args)).bind fun route => ?_
    split
    · exact hds.1.fail rfl
    · exact (ih hds.2).bind fun routes => stopsWith_pure

/-- Without an operation, no single directive is to blame. -/
theorem stopsWith_routesOf (hds : ∀ d ∈ ds, Permits P owner d.raw)
    (hnone : ds = [] → P ⟨owner, "", (Cause.noOperation directiveMark).fault⟩) :
    StopsWith P (routesOf owner ds) := by
  refine stopsWith_bind.mpr ⟨stopsWith_readRoutes hds, fun routes hroutes => ?_⟩
  split
  · next hempty =>
    obtain rfl := hempty
    obtain ⟨hdeclared, -, -⟩ := readRoutes_eq_ok.mp hroutes
    have hds : ds = [] := List.forall₂_nil_right_iff.mp hdeclared
    exact stopsWith_at.mpr (stopsWith_fail.mpr (hnone hds))
  · exact stopsWith_pure

theorem stopsWith_atMostOne {α : Type} {read : String → Checked α}
    (hread : ∀ args, OffResponse (read args)) (hds : ∀ d ∈ ds, Permits P owner d.raw) :
    StopsWith P (atMostOne owner read ds) := by
  cases ds with
  | nil => exact stopsWith_ok
  | cons d rest =>
    rw [List.forall_mem_cons] at hds
    refine (hds.1.at (hread d.args)).bind fun value => ?_
    cases rest with
    | nil => exact stopsWith_pure
    | cons again => exact (hds.2 again List.mem_cons_self).fail rfl

/-- A directive that may be given once is the one that its value comes from. -/
theorem mem_of_atMostOne {α : Type} {read : String → Checked α} {found : Declared α}
    (h : atMostOne owner read ds = .ok (some found)) : ∃ d ∈ ds, found.raw = d.raw := by
  cases ds with
  | nil => cases h
  | cons d rest =>
    obtain ⟨value, -, h⟩ := bind_eq_ok.mp h
    cases rest with
    | nil =>
      obtain rfl := Option.some.inj (pure_eq_ok.mp h)
      exact ⟨d, List.mem_cons_self, rfl⟩
    | cons again => exact absurd (at_eq_ok.mp h) fail_ne_ok

theorem stopsWith_tagsOf (hds : ∀ d ∈ ds, Permits P owner d.raw) :
    StopsWith P (tagsOf owner ds) := by
  refine stopsWith_bind.mpr ⟨stopsWith_atMostOne DocumentRule.read_offResponse hds, ?_⟩
  rintro (_ | rule) hrule
  · exact stopsWith_pure
  · obtain ⟨d, hd, hraw⟩ := mem_of_atMostOne hrule
    dsimp only
    split
    · rw [hraw]
      exact (hds d hd).fail rfl
    · exact stopsWith_pure

theorem stopsWith_readClauses {claimed : List String} (hds : ∀ d ∈ ds, Permits P m.name d.raw) :
    StopsWith P (readClauses m claimed ds) := by
  induction ds generalizing claimed with
  | nil => exact stopsWith_ok
  | cons d ds ih =>
    rw [List.forall_mem_cons] at hds
    refine (hds.1.at (ArgumentClause.readAll_offResponse d.args)).bind fun clauses => ?_
    refine (hds.1.at (claim_offResponse m claimed clauses)).bind fun claimed' => ?_
    exact (ih hds.2).bind fun more => stopsWith_pure

theorem mem_of_readClauses {claimed : List String} {cs : List (Declared ArgumentClause)}
    (h : readClauses m claimed ds = .ok cs) : ∀ c ∈ cs, ∃ d ∈ ds, c.raw = d.raw := by
  induction ds generalizing claimed cs with
  | nil =>
    obtain rfl := Except.ok.inj h
    simp
  | cons d ds ih =>
    obtain ⟨clauses, -, h⟩ := bind_eq_ok.mp h
    obtain ⟨claimed', -, h⟩ := bind_eq_ok.mp h
    obtain ⟨more, hmore, h⟩ := bind_eq_ok.mp h
    obtain rfl := pure_eq_ok.mp h
    intro c hc
    rw [List.mem_append, List.mem_map] at hc
    rcases hc with ⟨clause, -, rfl⟩ | hc
    · exact ⟨d, List.mem_cons_self, rfl⟩
    · obtain ⟨d', hd', hraw⟩ := ih hmore c hc
      exact ⟨d', List.mem_cons_of_mem _ hd', hraw⟩

theorem stopsWith_read (hds : ∀ d ∈ ds, Permits P m.name d.raw)
    (hnone : select .op ds = [] → P ⟨m.name, "", (Cause.noOperation directiveMark).fault⟩) :
    StopsWith P (read m ds) := by
  have hselect (keyword : Keyword) : ∀ d ∈ select keyword ds, Permits P m.name d.raw :=
    fun d hd => hds d (List.mem_of_mem_filter hd)
  refine (stopsWith_routesOf (hselect .op) hnone).bind fun routes => ?_
  refine (stopsWith_atMostOne BodyRule.read_offResponse (hselect .body)).bind fun body => ?_
  refine (stopsWith_atMostOne SuccessRule.read_offResponse (hselect .success)).bind
    fun success => ?_
  refine (stopsWith_tagsOf (hselect .oas)).bind fun tags => ?_
  exact (stopsWith_readClauses (hselect .param)).bind fun clauses => stopsWith_pure

/-- Every fault that is not about the response may be met in the directives that a request is
planned from. -/
structure Permitted (P : Diagnostic → Prop) (owner : String) (decl : Declarations) : Prop where
  routes : ∀ route ∈ decl.routes, Permits P owner route.raw
  body : ∀ rule, decl.body = some rule → Permits P owner rule.raw
  clauses : ∀ c ∈ decl.clauses, Permits P owner c.raw

variable {decl : Declarations}

theorem permitted_of_read (hds : ∀ d ∈ ds, Permits P m.name d.raw) (h : read m ds = .ok decl) :
    decl.Permitted P m.name := by
  have hselect (keyword : Keyword) : ∀ d ∈ select keyword ds, Permits P m.name d.raw :=
    fun d hd => hds d (List.mem_of_mem_filter hd)
  obtain ⟨hroutes, hbody, -, -, hclauses⟩ := read_eq_ok.mp h
  refine ⟨fun route hroute => ?_, fun rule hrule => ?_, fun c hc => ?_⟩
  · obtain ⟨d, hd, -, hraw⟩ := forall₂_mem_right (routesOf_eq_ok.mp hroutes).1 hroute
    exact hraw ▸ hselect .op d hd
  · obtain ⟨d, hd, hraw⟩ := mem_of_atMostOne (hrule ▸ hbody)
    exact hraw ▸ hselect .body d hd
  · obtain ⟨d, hd, hraw⟩ := mem_of_readClauses hclauses c hc
    exact hraw ▸ hselect .param d hd

theorem Permitted.wholeBody (h : decl.Permitted P owner) {whole : Declared String}
    (hwhole : decl.wholeBody? = some whole) : Permits P owner whole.raw := by
  unfold wholeBody? at hwhole
  split at hwhole
  · next hbody =>
    obtain rfl := Option.some.inj hwhole
    exact h.body _ hbody
  · cases hwhole

/-- No directive decides how the argument is bound: no clause names it, and it is not the whole
body. -/
structure LeavesOpen (decl : Declarations) (arg : Argument) : Prop where
  unnamed : ∀ c ∈ decl.clauses, c.value.argument ≠ blankName → c.value.argument ≠ arg.name
  notBody : ∀ whole, decl.wholeBody? = some whole → whole.value ≠ arg.name

theorem leavesOpen_iff {arg : Argument} : decl.LeavesOpen arg ↔
    decl.wholeBody?.filter (·.value = arg.name) = none ∧ decl.clause? arg.name = none := by
  have hbody : (∀ whole, decl.wholeBody? = some whole → whole.value ≠ arg.name) ↔
      decl.wholeBody?.filter (·.value = arg.name) = none := by
    rw [Option.filter_eq_none_iff]
    exact forall₂_congr fun whole _ => by rw [decide_eq_true_eq]
  have hclause : (∀ c ∈ decl.clauses, c.value.argument ≠ blankName →
      c.value.argument ≠ arg.name) ↔ decl.clause? arg.name = none := by
    rw [clause?, List.find?_eq_none]
    exact forall₂_congr fun c _ => by rw [decide_eq_true_eq, not_and]
  rw [← hbody, ← hclause]
  exact ⟨fun h => ⟨h.notBody, h.unnamed⟩, fun h => ⟨h.2, h.1⟩⟩

instance (decl : Declarations) (arg : Argument) : Decidable (decl.LeavesOpen arg) :=
  decidable_of_iff _ leavesOpen_iff.symm

theorem stopsWith_checkWholeBody (h : decl.Permitted P m.name) :
    StopsWith P (decl.checkWholeBody m) := by
  unfold checkWholeBody
  split
  · exact stopsWith_ok
  · next hwhole =>
    refine (h.wholeBody hwhole).at ?_
    split
    · exact stopsWith_fail.mpr rfl
    · split
      · exact stopsWith_fail.mpr rfl
      · split
        · exact stopsWith_fail.mpr rfl
        · exact stopsWith_ok

end Declarations

namespace Method

variable {m : Method} {options : ResolveOptions} {decl : Declarations} {plan : Plan}

/-- A fault that no directive is behind: the binding inferred for an argument that is left open
fails, or reads a field from the path under a name that no pattern has. -/
inductive ImpliedFault (m : Method) (decl : Declarations) (options : ResolveOptions) : Fault → Prop
  | inference {arg : Argument} {f : Fault} (harg : arg ∈ m.args) (hopen : decl.LeavesOpen arg)
      (hf : (inference decl options).implied arg = .error f) : ImpliedFault m decl options f
  | foreignName {arg : Argument} {b : PlannedBinding} {name : String} (harg : arg ∈ m.args)
      (hopen : decl.LeavesOpen arg) (hb : (inference decl options).implied arg = .ok (some b))
      (hname : name ∈ b.explicitPathNames) (hforeign : name ∉ decl.pathVars) :
      ImpliedFault m decl options (Cause.foreignPathParameter name).fault

/-- An argument that is left open is bound by inference. -/
theorem bindArgument_of_leavesOpen {inf : Inference} {arg : Argument} (h : decl.LeavesOpen arg)
    {d? : Option (Declared PlannedBinding)} :
    m.bindArgument inf decl arg = .ok d? ↔
      ∃ b?, inf.implied arg = .ok b? ∧ d? = b?.map (⟨·, ""⟩) := by
  obtain ⟨hbody, hclause⟩ := Declarations.leavesOpen_iff.mp h
  unfold bindArgument
  rw [hbody, hclause]
  dsimp only
  rw [map_eq_ok]
  simp only [at_eq_ok, eq_comm (b := d?)]

/-- An argument is bound on behalf of the directive that decides about it, if one does. -/
theorem stopsWith_bindArgument {arg : Argument} (harg : arg ∈ m.args)
    (h : decl.Permitted P m.name)
    (himplied : ∀ f, f.OffResponse → m.ImpliedFault decl options f → P ⟨m.name, "", f⟩) :
    StopsWith P (m.bindArgument (inference decl options) decl arg) := by
  unfold bindArgument
  split
  · next hwhole =>
    obtain ⟨hwhole, -⟩ := Option.filter_eq_some_iff.mp hwhole
    exact stopsWith_map.mpr ((h.wholeBody hwhole).at (Inference.wholeBody_offResponse _ arg))
  · next clause _ hclause =>
    have hmem := List.mem_of_find?_eq_some hclause
    exact stopsWith_map.mpr ((h.clauses clause hmem).at (Inference.requested_offResponse _ arg _))
  · next hwhole hclause =>
    have hopen : decl.LeavesOpen arg := Declarations.leavesOpen_iff.mpr ⟨hwhole, hclause⟩
    refine stopsWith_map.mpr (stopsWith_at.mpr fun f hf => ?_)
    exact himplied f (Inference.implied_offResponse _ arg f hf) (.inference harg hopen hf)

theorem stopsWith_bindings (h : decl.Permitted P m.name)
    (himplied : ∀ f, f.OffResponse → m.ImpliedFault decl options f → P ⟨m.name, "", f⟩) :
    StopsWith P (m.bindings (inference decl options) decl) := by
  refine StopsWith.bind (.mapM fun arg harg => stopsWith_bindArgument harg h himplied)
    fun _ => ?_
  refine StopsWith.bind (.mapM fun clause hclause => ?_) fun _ => stopsWith_pure
  have hmem := List.mem_of_mem_filter hclause
  exact stopsWith_map.mpr ((h.clauses clause hmem).at (Inference.blank_offResponse _ _))

/-- What is bound was bound on behalf of a directive, or else inferred for an argument that is left
open. -/
theorem permits_or_implied_of_bindings {bs : List (Declared PlannedBinding)}
    (h : decl.Permitted P m.name) (hbs : m.bindings (inference decl options) decl = .ok bs) :
    ∀ b ∈ bs, Permits P m.name b.raw ∨ (b.raw = "" ∧ ∃ arg ∈ m.args, decl.LeavesOpen arg ∧
      (inference decl options).implied arg = .ok (some b.value)) := by
  obtain ⟨fed, hfed, hbs⟩ := bind_eq_ok.mp hbs
  obtain ⟨blank, hblank, hbs⟩ := bind_eq_ok.mp hbs
  obtain rfl := pure_eq_ok.mp hbs
  intro b hb
  rcases List.mem_append.mp hb with hb | hb
  · obtain ⟨b?, hb?, rfl⟩ := List.mem_filterMap.mp hb
    obtain ⟨arg, harg, hbound⟩ := forall₂_mem_right (mapM_eq_ok.mp hfed) hb?
    unfold bindArgument at hbound
    split at hbound
    · next hwhole =>
      obtain ⟨hwhole, -⟩ := Option.filter_eq_some_iff.mp hwhole
      obtain ⟨_, -, heq⟩ := map_eq_ok.mp hbound
      obtain rfl := Option.some.inj heq
      exact .inl (h.wholeBody hwhole)
    · next clause _ hclause =>
      obtain ⟨_, -, heq⟩ := map_eq_ok.mp hbound
      obtain rfl := Option.some.inj heq
      exact .inl (h.clauses clause (List.mem_of_find?_eq_some hclause))
    · next hwhole hclause =>
      have hopen : decl.LeavesOpen arg := Declarations.leavesOpen_iff.mpr ⟨hwhole, hclause⟩
      obtain ⟨implied, himplied, heq⟩ := map_eq_ok.mp hbound
      obtain ⟨_, rfl, rfl⟩ := Option.map_eq_some_iff.mp heq
      exact .inr ⟨rfl, arg, harg, hopen, at_eq_ok.mp himplied⟩
  · obtain ⟨clause, hclause, hbound⟩ := forall₂_mem_right (mapM_eq_ok.mp hblank) hb
    obtain ⟨_, -, rfl⟩ := map_eq_ok.mp hbound
    exact .inl (h.clauses clause (List.mem_of_mem_filter hclause))

/-- A variable is bound on behalf of a route that has it. -/
theorem stopsWith_bindPathVar (h : decl.Permitted P m.name) {var : String}
    (hvar : var ∈ decl.pathVars) : StopsWith P (m.bindPathVar decl options plan var) := by
  obtain ⟨route, hroute, hmem⟩ := Declarations.mem_pathVars.mp hvar
  unfold bindPathVar
  cases hfind : decl.routes.find? (var ∈ ·.value.vars) with
  | none => simpa [hmem] using List.find?_eq_none.mp hfind route hroute
  | some first =>
    exact (h.routes first (List.mem_of_find?_eq_some hfind)).at (plan.bindVariable_offResponse _ _)

theorem stopsWith_plan (h : decl.Permitted P m.name)
    (himplied : ∀ f, f.OffResponse → m.ImpliedFault decl options f → P ⟨m.name, "", f⟩) :
    StopsWith P (m.plan decl options) := by
  refine stopsWith_bind.mpr ⟨stopsWith_bindings h himplied, fun bs hbs => ?_⟩
  refine StopsWith.bind ?_ fun _ => .foldlM fun plan var hvar => stopsWith_bindPathVar h hvar
  unfold checkPathNames
  dsimp only
  split
  · next name raw hfind =>
    have hforeign : name ∉ decl.pathVars := by simpa using List.find?_some hfind
    obtain ⟨b, hb, hname⟩ := List.mem_flatMap.mp (List.mem_of_find?_eq_some hfind)
    obtain ⟨path, hpath, heq⟩ := List.mem_map.mp hname
    obtain ⟨rfl, rfl⟩ := Declared.mk.inj heq
    rcases permits_or_implied_of_bindings h hbs b hb with hraw | ⟨hraw, arg, harg, hopen, hb⟩
    · exact hraw.fail rfl
    · rw [hraw]
      refine stopsWith_at.mpr (stopsWith_fail.mpr ?_)
      exact himplied _ rfl (.foreignName harg hopen hb hpath hforeign)
  · exact stopsWith_ok

theorem stopsWith_request (h : decl.Permitted P m.name) {route : Declared Route}
    (hroute : route ∈ decl.routes) : StopsWith P (m.request decl plan route) := by
  have hraw := h.routes route hroute
  have hoverlaid (plan : Plan) : StopsWith P (m.overlaid decl route.value plan) := by
    unfold overlaid
    split
    · next hbody =>
      refine (h.body _ hbody).at ?_
      split
      · exact .foldlM fun plan overlay _ => Plan.overlay_offResponse overlay plan
      · exact stopsWith_fail.mpr rfl
    · exact stopsWith_ok
  have hunique (plan : Plan) : StopsWith P (Checked.at m.name route.raw plan.checkUnique) :=
    hraw.at plan.checkUnique_offResponse
  have hrest (plan : Plan) (finish : Plan → Request) :
      StopsWith P (do
        let plan ← m.overlaid decl route.value plan
        Checked.at m.name route.raw plan.checkUnique
        return finish plan) :=
    (hoverlaid plan).bind fun plan => (hunique plan).bind fun _ => stopsWith_pure
  unfold request
  dsimp only
  split
  · exact stopsWith_pure.bind fun plan => hrest _ _
  · exact (hraw.at plan.toQuery_offResponse).bind fun plan => hrest _ _

theorem stopsWith_operations (h : decl.Permitted P m.name) {success : Response}
    {description : String} :
    StopsWith P (decl.routes.zipIdx.mapM (m.operation decl plan success description)) :=
  .mapM fun _ hroute => stopsWith_map.mpr (stopsWith_request h (List.fst_mem_of_mem_zipIdx hroute))

/-- A response stops on behalf of the success rule, which it needs to stop at all. -/
theorem stopsWith_response
    (h : ∀ rule, decl.success = some rule → ∀ f, P ⟨m.name, rule.raw, f⟩) :
    StopsWith P (m.response decl options) := by
  unfold response
  refine stopsWith_map.mpr (stopsWith_at.mpr fun f hf => ?_)
  cases hrule : decl.success with
  | some rule => exact h rule hrule f
  | none =>
    -- the default status suits every method
    rw [hrule] at hf
    by_cases hvoid : m.isVoid = true
    · simp [responseOf, voidCode, hvoid, bind, Except.bind, pure, Except.pure] at hf
    · simp [responseOf, valueCode, hvoid, bind, Except.bind, pure, Except.pure, Except.map] at hf

theorem stopsWith_expandDirectives {aliases : AliasTable} {block : CommentBlock}
    (h : ∀ d ∈ block.directives, d.keyword.isHttp = true → Permits P m.name d.raw) :
    StopsWith P (m.expandDirectives aliases block) := by
  refine .mapM fun d hd => stopsWith_map.mpr ?_
  obtain ⟨hmem, hhttp⟩ := List.mem_filter.mp hd
  exact (h d hmem hhttp).at (aliases.expand_offResponse d.args)

end Method

theorem CommentBlock.stopsWith_read {lines : List String}
    (h : ∀ line ∈ Comment.joinLines (lines.map (·.toList)), Directive.marked? line ≠ none →
      Permits P owner (String.ofList line.trim)) : StopsWith P (CommentBlock.read owner lines) := by
  refine StopsWith.bind (.mapM fun line hline => ?_) fun _ => stopsWith_pure
  unfold Directive.ofLine
  split
  · exact stopsWith_ok
  · next rest hmark =>
    dsimp only
    split
    · exact stopsWith_ok
    · exact stopsWith_error.mpr (h line hline (by simp [hmark]) _ rfl)

end Routespec
