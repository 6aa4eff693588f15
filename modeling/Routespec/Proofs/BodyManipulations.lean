import Routespec.Proofs.AliasExpansion
import Routespec.Proofs.InsertedLines
import Routespec.Proofs.PathOutcome
import Routespec.Proofs.Request

/-!
# Manipulations of the body

Manipulations are laid over what requests hold without them. Each changes the member of the body
that one argument has, and later ones win over earlier ones, option by option. Nothing else of the
operations changes, and nothing else of what the method resolves to.
-/

namespace Routespec

variable {ms : List BodyOverlay} {argument : String}

/-- What the last manipulation of the argument that sets an option sets it to. -/
def BodyOverlay.lastSet {α : Type} (option : ParamOptions → Option α) (ms : List BodyOverlay)
    (argument : String) : Option α :=
  ((ms.filter (·.argument = argument)).filterMap (option ·.options)).getLast?

/-- The parameter of an argument after manipulations, which look at members of the body only. -/
def Parameter.manipulated (ms : List BodyOverlay) (argument : String) (p : Parameter) : Parameter :=
  if p.location = .body then
    { p with
      name := (BodyOverlay.lastSet (·.name) ms argument).getD p.name
      ty := (BodyOverlay.lastSet (·.ty) ms argument).getD p.ty
      description := (BodyOverlay.lastSet (·.description) ms argument).getD p.description
      required := (BodyOverlay.lastSet (·.required) ms argument).getD p.required }
  else p

namespace Binding

/-- The binding feeds the argument of the given name. -/
def feeds (b : Binding) (name : String) : Bool := !b.blank && b.argument.name = name

/-- The binding after manipulations. -/
def manipulated (ms : List BodyOverlay) (b : Binding) : Binding :=
  { b with params := b.params.map (·.manipulated ms b.argument.name) }

/-- The bindings after manipulations: of those that feed an argument, the first one is changed. -/
def manipulate (ms : List BodyOverlay) (bs : List Binding) : List Binding :=
  bs.mapIdx fun i b =>
    if bs.findIdx? (·.feeds b.argument.name) = some i then b.manipulated ms else b

/-- The argument has one member of the body. -/
def HasMember (bs : List Binding) (argument : String) : Prop :=
  ∃ b p, bs.find? (·.feeds argument) = some b ∧ b.paramsIn .body = [p]

end Binding

/-- The operation after manipulations of its request. -/
def Operation.manipulated (ms : List BodyOverlay) (o : Operation) : Operation :=
  { o with request := { o.request with bindings := Binding.manipulate ms o.request.bindings } }

namespace BodyOverlay

variable {α : Type} {option : ParamOptions → Option α}

theorem lastSet_cons (m : BodyOverlay) :
    lastSet option (m :: ms) argument =
      (lastSet option ms argument).or (lastSet option [m] argument) := by
  unfold lastSet
  rw [← List.singleton_append, List.filter_append, List.filterMap_append, List.getLast?_append]

theorem lastSet_singleton (m : BodyOverlay) :
    lastSet option [m] m.argument = option m.options := by
  cases h : option m.options <;> simp [lastSet, h]

theorem lastSet_singleton_of_ne {m : BodyOverlay} (h : m.argument ≠ argument) :
    lastSet option [m] argument = none := by
  simp [lastSet, h]

end BodyOverlay

open BodyOverlay

namespace Parameter

/-- Manipulations leave a parameter where it is. -/
@[simp]
theorem manipulated_location (p : Parameter) :
    (p.manipulated ms argument).location = p.location := by
  unfold manipulated
  split <;> rfl

/-- The manipulations of an argument go on from what the first one makes. -/
theorem manipulated_manipulated (m : BodyOverlay) (p : Parameter) :
    (p.manipulated [m] argument).manipulated ms argument = p.manipulated (m :: ms) argument := by
  by_cases hbody : p.location = .body
  · have hcons {α : Type} (option : ParamOptions → Option α) (old : α) :
        (lastSet option (m :: ms) argument).getD old =
          (lastSet option ms argument).getD ((lastSet option [m] argument).getD old) := by
      rw [lastSet_cons, Option.getD_or]
    simp only [manipulated, hbody, ↓reduceIte, hcons]
  · simp [manipulated, hbody]

theorem manipulated_of_ne {m : BodyOverlay} (h : m.argument ≠ argument) (p : Parameter) :
    p.manipulated [m] argument = p := by
  unfold manipulated
  split
  · simp [lastSet_singleton_of_ne h]
  · rfl

end Parameter

/-- A manipulation is laid over a planned parameter as over the settled one. -/
theorem PlannedParam.param_overlay (m : BodyOverlay) (p : PlannedParam) :
    (if p.inBody then p.overlay m.options else p).param =
      p.param.manipulated [m] m.argument := by
  by_cases hbody : p.param.location = .body
  · simp [inBody, overlay, Parameter.manipulated, hbody, lastSet_singleton]
  · simp [inBody, Parameter.manipulated, hbody]

namespace Binding

variable {bs : List Binding}

theorem feeds_iff {b : Binding} :
    b.feeds argument = true ↔ b.blank = false ∧ b.argument.name = argument := by
  simp [feeds]

theorem manipulated_manipulated (m : BodyOverlay) (b : Binding) :
    (b.manipulated [m]).manipulated ms = b.manipulated (m :: ms) := by
  simp [manipulated, Parameter.manipulated_manipulated]

theorem manipulated_of_ne {m : BodyOverlay} {b : Binding} (h : m.argument ≠ b.argument.name) :
    b.manipulated [m] = b := by
  simp [manipulated, Parameter.manipulated_of_ne h]

theorem paramsIn_manipulated (b : Binding) (l : Location) :
    (b.manipulated ms).paramsIn l =
      (b.paramsIn l).map (·.manipulated ms b.argument.name) := by
  simp [paramsIn, manipulated, List.filter_map, Function.comp_def]

theorem manipulate_nil : manipulate [] bs = bs := by
  refine mapIdx_eq_self fun i b _ => ?_
  split
  · simp [manipulated, Parameter.manipulated, lastSet]
  · rfl

theorem findIdx?_manipulate :
    (manipulate ms bs).findIdx? (·.feeds argument) = bs.findIdx? (·.feeds argument) := by
  refine findIdx?_mapIdx fun i b => ?_
  split <;> rfl

/-- Manipulations go on from what the first one makes. -/
theorem manipulate_manipulate (m : BodyOverlay) :
    manipulate ms (manipulate [m] bs) = manipulate (m :: ms) bs := by
  refine List.ext_getElem? fun i => ?_
  rw [manipulate]
  simp only [findIdx?_manipulate]
  rw [manipulate, manipulate, List.getElem?_mapIdx, List.getElem?_mapIdx, List.getElem?_mapIdx,
    Option.map_map]
  refine congrArg (Option.map · bs[i]?) (funext fun b => ?_)
  dsimp only [Function.comp_def]
  split
  · next hfirst =>
    have hname : (b.manipulated [m]).argument = b.argument := rfl
    rw [hname, if_pos hfirst, manipulated_manipulated]
  · rfl

theorem find?_manipulate {b : Binding} (h : (manipulate ms bs).find? (·.feeds argument) = some b) :
    ∃ b', bs.find? (·.feeds argument) = some b' ∧ b = b'.manipulated ms := by
  rw [List.find?_eq_bind_findIdx?_getElem?, findIdx?_manipulate, Option.bind_eq_some_iff] at h
  obtain ⟨i, hi, hb⟩ := h
  rw [manipulate, List.getElem?_mapIdx, Option.map_eq_some_iff] at hb
  obtain ⟨b', hb', hmade⟩ := hb
  obtain ⟨⟨b'', hb'', hfeeds⟩, -⟩ := findIdx?_eq_some_iff.mp hi
  obtain rfl : b' = b'' := Option.some.inj (hb'.symm.trans hb'')
  rw [(feeds_iff.mp hfeeds).2, if_pos hi] at hmade
  refine ⟨b', ?_, hmade.symm⟩
  rw [List.find?_eq_bind_findIdx?_getElem?, hi]
  exact hb'

/-- Manipulations neither add members of the body nor take any away. -/
theorem HasMember.of_manipulate (h : HasMember (manipulate ms bs) argument) :
    HasMember bs argument := by
  obtain ⟨b, p, hb, hp⟩ := h
  obtain ⟨b', hb', rfl⟩ := find?_manipulate hb
  rw [paramsIn_manipulated, List.map_eq_singleton_iff] at hp
  obtain ⟨p', hp', -⟩ := hp
  exact ⟨b', p', hb', hp'⟩

end Binding

namespace Plan

variable {plan plan' : Plan}

theorem overlay_eq_updateFirst {m : BodyOverlay} (h : overlay m plan = .ok plan') :
    plan.any (·.feeds m.argument) = true ∧
      updateFirst (·.feeds m.argument) (·.overlay m.options) plan = .ok plan' := by
  induction plan generalizing plan' with
  | nil => exact absurd h fail_ne_ok
  | cons b rest ih =>
    rw [overlay] at h
    rw [List.any_cons, updateFirst]
    by_cases hfeeds : b.feeds m.argument = true
    · rw [if_pos hfeeds] at h ⊢
      exact ⟨by rw [hfeeds, Bool.true_or], h⟩
    · rw [if_neg hfeeds] at h ⊢
      obtain ⟨rest', hrest, rfl⟩ := map_eq_ok.mp h
      obtain ⟨hany, hupdate⟩ := ih hrest
      exact ⟨by rw [hany, Bool.or_true], map_eq_ok.mpr ⟨rest', hupdate, rfl⟩⟩

theorem settle_overlay_binding {m : BodyOverlay} {b b' : PlannedBinding}
    (h : b.overlay m.options = .ok b') (hname : b.argument.name = m.argument) :
    b'.settle = b.settle.manipulated [m] ∧ ∃ p, b.settle.paramsIn .body = [p] := by
  unfold PlannedBinding.overlay at h
  split at h
  · exact absurd h fail_ne_ok
  · next hone =>
    obtain rfl := Except.ok.inj h
    constructor
    · simp only [PlannedBinding.settle, Binding.manipulated, List.map_map, Function.comp_def,
        PlannedParam.param_overlay, hname]
    · rw [List.countP_eq_length_filter, List.length_eq_one_iff] at hone
      obtain ⟨p, hp⟩ := hone
      refine ⟨p.param, ?_⟩
      have hbody := congrArg (List.map (·.param)) hp
      rw [PlannedBinding.settle, Binding.paramsIn, List.filter_map]
      exact hbody
  · exact absurd h fail_ne_ok

/-- A manipulation changes the settled bindings as it says, and its argument has one member of the
body. -/
theorem settle_overlay {m : BodyOverlay} (h : overlay m plan = .ok plan') :
    plan'.map (·.settle) = Binding.manipulate [m] (plan.map (·.settle)) ∧
      Binding.HasMember (plan.map (·.settle)) m.argument := by
  obtain ⟨hany, hupdate⟩ := overlay_eq_updateFirst h
  obtain ⟨i, b, b', hi, hb, hfeeds, hoverlay, rfl⟩ := updateFirst_of_any hany hupdate
  have hname : b.argument.name = m.argument := (PlannedBinding.feeds_iff.mp hfeeds).2
  obtain ⟨hsettle, p, hp⟩ := settle_overlay_binding hoverlay hname
  have hidx (argument : String) : (plan.map (·.settle)).findIdx? (·.feeds argument) =
      plan.findIdx? (·.feeds argument) := List.findIdx?_map
  refine ⟨List.ext_getElem? fun j => ?_, b.settle, p, ?_, hp⟩
  · rw [Binding.manipulate, List.getElem?_mapIdx, List.getElem?_map, List.getElem?_map]
    by_cases hij : i = j
    · subst hij
      have hfirst : (plan.map (·.settle)).findIdx? (·.feeds b.settle.argument.name) = some i :=
        (hidx _).trans (hname ▸ hi)
      rw [List.getElem?_set_self (List.getElem?_eq_some_iff.mp hb).1, hb, Option.map_some,
        Option.map_some, Option.map_some, if_pos hfirst, hsettle]
    · rw [List.getElem?_set_ne hij]
      cases hc : plan[j]? with
      | none => rfl
      | some c =>
        rw [Option.map_some, Option.map_some]
        split
        · next hfirst =>
          rw [Binding.manipulated_of_ne fun heq => hij ?_]
          rw [hidx, ← heq, hi] at hfirst
          exact Option.some.inj hfirst
        · rfl
  · rw [List.find?_eq_bind_findIdx?_getElem?, hidx, hi, Option.bind_some, List.getElem?_map, hb]
    rfl

/-- Manipulations change the settled bindings as they say, and their arguments have one member of the
body each. -/
theorem settle_overlayAll (h : plan.overlayAll ms = .ok plan') :
    plan'.map (·.settle) = Binding.manipulate ms (plan.map (·.settle)) ∧
      ∀ m ∈ ms, Binding.HasMember (plan.map (·.settle)) m.argument := by
  unfold overlayAll at h
  induction ms generalizing plan with
  | nil =>
    obtain rfl := pure_eq_ok.mp h
    exact ⟨Binding.manipulate_nil.symm, by simp⟩
  | cons m ms ih =>
    obtain ⟨plan₁, hone, hrest⟩ := foldlM_cons_eq_ok.mp h
    obtain ⟨hfirst, hmember⟩ := settle_overlay hone
    obtain ⟨hsettle, hmembers⟩ := ih hrest
    rw [hfirst] at hsettle hmembers
    rw [List.forall_mem_cons]
    exact ⟨hsettle.trans (Binding.manipulate_manipulate m), hmember,
      fun m' hm' => (hmembers m' hm').of_manipulate⟩

end Plan

namespace Method

variable {m : Method} {decl : Declarations} {plan : Plan} {route : Declared Route} {raw : String}

theorem overlaid_of_rule {plan' : Plan} (hrule : decl.body = some ⟨.overlaid ms, raw⟩) :
    m.overlaid decl route.value plan = .ok plan' ↔
      requestBody decl route.value = .synthesized ∧ plan.overlayAll ms = .ok plan' := by
  unfold overlaid
  rw [hrule]
  dsimp only
  rw [at_eq_ok]
  split
  · next hbody => simp [hbody]
  · next hbody => simp [hbody]

/-- A request is what it is without manipulations, manipulated. -/
theorem request_manipulated {req req' : Request} (hrule : decl.body = some ⟨.overlaid ms, raw⟩)
    (h : m.request decl plan route = .ok req)
    (h' : m.request { decl with body := none } plan route = .ok req') :
    req'.body = .synthesized ∧
      req = { req' with bindings := Binding.manipulate ms req'.bindings } ∧
      ∀ m ∈ ms, Binding.HasMember req'.bindings m.argument := by
  obtain ⟨-, plan₁, hplan₁, -, rfl⟩ := request_cases.mp h
  obtain ⟨-, plan₂, hplan₂, -, rfl⟩ := request_cases.mp h'
  obtain ⟨hbody, hoverlay⟩ := (overlaid_of_rule hrule).mp hplan₁
  have hsame : requestBody { decl with body := none } route.value =
      requestBody decl route.value := by
    simp [requestBody, hrule]
  rw [hsame] at hplan₂ ⊢
  obtain rfl := Except.ok.inj hplan₂
  obtain ⟨hsettle, hmembers⟩ := Plan.settle_overlayAll hoverlay
  exact ⟨hbody, by rw [hsettle], hmembers⟩

/-- Operations are what they are without manipulations, manipulated. -/
theorem operation_manipulated {success : Response} {description : String}
    {indexed : Declared Route × Nat} {o o' : Operation}
    (hrule : decl.body = some ⟨.overlaid ms, raw⟩)
    (h : m.operation decl plan success description indexed = .ok o)
    (h' : m.operation { decl with body := none } plan success description indexed = .ok o') :
    o'.request.body = .synthesized ∧ o = o'.manipulated ms ∧
      ∀ m ∈ ms, Binding.HasMember o'.request.bindings m.argument := by
  obtain ⟨req, hreq, rfl⟩ := map_eq_ok.mp h
  obtain ⟨req', hreq', rfl⟩ := map_eq_ok.mp h'
  obtain ⟨hbody, rfl, hmembers⟩ := request_manipulated hrule hreq hreq'
  exact ⟨hbody, rfl, hmembers⟩

/-- A plan takes from a body rule only the argument that is the whole body. -/
theorem plan_withoutBody {options : ResolveOptions} (hrule : decl.body = some ⟨.overlaid ms, raw⟩) :
    m.plan { decl with body := none } options = m.plan decl options := by
  have hwhole : decl.wholeBody? = none := by simp [Declarations.wholeBody?, hrule]
  have hbind (inf : Inference) :
      m.bindArgument inf { decl with body := none } = m.bindArgument inf decl := by
    funext arg
    unfold bindArgument
    rw [hwhole]
    rfl
  unfold plan bindings
  rw [hbind]
  rfl

variable {options : ResolveOptions} {aliases : AliasTable} {r r' : MethodResolution}
  {ds₁ ds₂ : List Directive} {d : Directive}

/-- Without its manipulations a method declares the same, but for the body. -/
theorem read_withoutBody (hd : d.keyword = .body)
    (hrule : BodyRule.read d.args = .ok (.overlaid ms))
    (h : Declarations.read m (ds₁ ++ d :: ds₂) = .ok decl) :
    decl.body = some ⟨.overlaid ms, d.raw⟩ ∧
      Declarations.read m (ds₁ ++ ds₂) = .ok { decl with body := none } := by
  obtain ⟨hroutes, hbody, hsuccess, htags, hclauses⟩ := Declarations.read_eq_ok.mp h
  have hother {keyword : Keyword} (hkeyword : .body ≠ keyword) :=
    Declarations.select_insert_of_ne (d := d) ds₁ ds₂ (hd ▸ hkeyword)
  rw [Declarations.select_insert_self ds₁ ds₂ hd, Declarations.atMostOne_eq_ok] at hbody
  obtain ⟨hnil, -⟩ | ⟨d', rule, hone, hread, hdecl⟩ := hbody
  · simp at hnil
  -- it is the only `body` directive
  obtain ⟨hbefore, hrest⟩ | ⟨-, hnil⟩ := List.append_eq_singleton_iff.mp hone
  · obtain ⟨rfl, hafter⟩ := List.cons.inj hrest
    obtain rfl := Except.ok.inj (hread.symm.trans hrule)
    refine ⟨hdecl, Declarations.read_eq_ok.mpr ⟨?_, ?_, ?_, ?_, ?_⟩⟩
    · rwa [← hother (by decide)]
    · rw [Declarations.select, List.filter_append, ← Declarations.select, ← Declarations.select,
        hbefore, hafter]
      rfl
    · rwa [← hother (by decide)]
    · rwa [← hother (by decide)]
    · rwa [← hother (by decide)]
  · cases hnil

/-- Directives make of a method what they make of it without its manipulations, manipulated. -/
theorem resolveDirectives_manipulated {description : String} (hd : d.keyword = .body)
    (hrule : BodyRule.read d.args = .ok (.overlaid ms))
    (h : m.resolveDirectives options description (ds₁ ++ d :: ds₂) = .ok r)
    (h' : m.resolveDirectives options description (ds₁ ++ ds₂) = .ok r') :
    r.notices = r'.notices ∧
      List.Forall₂ (fun o o' => o'.request.body = .synthesized ∧ o = o'.manipulated ms ∧
        ∀ m ∈ ms, Binding.HasMember o'.request.bindings m.argument) r.operations r'.operations := by
  obtain ⟨decl, plan, success, hread, -, hplan, hresponse, hserved⟩ := resolveDirectives_eq_ok.mp h
  obtain ⟨decl', plan', success', hread', -, hplan', hresponse', hserved'⟩ :=
    resolveDirectives_eq_ok.mp h'
  obtain ⟨hbody, hwithout⟩ := read_withoutBody hd hrule hread
  obtain rfl := Except.ok.inj (hwithout.symm.trans hread')
  rw [plan_withoutBody hbody] at hplan'
  obtain rfl := Except.ok.inj (hplan.symm.trans hplan')
  obtain ⟨rfl, hnotices⟩ := Prod.mk.inj (Except.ok.inj (hresponse.symm.trans hresponse'))
  refine ⟨hnotices, ?_⟩
  rw [mapM_eq_ok] at hserved hserved'
  have hmade : List.Forall₂
      (fun o indexed => m.operation decl plan success description indexed = .ok o)
      r.operations decl.routes.zipIdx := hserved.flip
  have hmade' : List.Forall₂
      (fun indexed o => m.operation { decl with body := none } plan success description indexed =
        .ok o) decl.routes.zipIdx r'.operations := hserved'
  refine forall₂_trans (fun o indexed o' ho ho' => ?_) hmade hmade'
  exact operation_manipulated hbody ho ho'

/-- The comment has the manipulations in a `body` directive, and `doc` is the comment without that
line. -/
def OmitsManipulations (m : Method) (aliases : AliasTable) (ms : List BodyOverlay)
    (doc : List String) : Prop :=
  ∃ joined₁ text joined₂ d args,
    Comment.joinLines (m.doc.map (·.toList)) = joined₁ ++ text :: joined₂ ∧
    Comment.joinLines (doc.map (·.toList)) = joined₁ ++ joined₂ ∧
    Directive.ofLine m.name text = .ok (some d) ∧ d.keyword = .body ∧
    aliases.expand d.args = .ok args ∧ BodyRule.read args = .ok (.overlaid ms)

/-- Manipulations change the members of synthesized bodies that their arguments have, and nothing
else of what a method resolves to without them. -/
theorem manipulations_overlaid {doc : List String} (homits : m.OmitsManipulations aliases ms doc)
    (h : m.resolve aliases options = .ok r)
    (h' : resolve { m with doc } aliases options = .ok r') :
    r.notices = r'.notices ∧ r.operations = r'.operations.map (·.manipulated ms) ∧
      (∀ o ∈ r.operations, o.request.body = .synthesized) ∧
      ∀ o ∈ r'.operations, o.request.body = .synthesized ∧
        ∀ m ∈ ms, Binding.HasMember o.request.bindings m.argument := by
  obtain ⟨joined₁, text, joined₂, d, args, hjoined, hjoined', hd, hkeyword, hargs, hrule⟩ := homits
  have hhttp : d.keyword.isHttp = true := hkeyword ▸ rfl
  obtain ⟨block, hblock, hresolved⟩ := resolve_eq_ok.mp h
  obtain ⟨ds₁, ds₂, hdirectives, hblock'⟩ := CommentBlock.read_remove hjoined hjoined' hd hblock
  obtain ⟨hnone, -⟩ | ⟨-, -, ds, hds, hresolved⟩ := hresolved
  · have hmem : d ∈ block.directives := by simp [hdirectives]
    exact absurd hhttp (List.any_eq_false.mp hnone d hmem)
  obtain ⟨directives, description⟩ := block
  obtain rfl : directives = ds₁ ++ d :: ds₂ := hdirectives
  obtain ⟨es₁, args', es₂, rfl, hargs', hds'⟩ := expandDirectives_remove hds hhttp
  obtain rfl := Except.ok.inj (hargs.symm.trans hargs')
  -- the comment without the line still has the routes, so that it is about HTTP
  obtain ⟨block', hread', hresolved'⟩ := resolve_eq_ok.mp h'
  obtain rfl := Except.ok.inj (hblock'.symm.trans hread')
  obtain ⟨hnone, -⟩ | ⟨-, -, es, hes, hresolved'⟩ := hresolved'
  · obtain ⟨decl, -, -, hread, -⟩ := resolveDirectives_eq_ok.mp hresolved
    obtain ⟨-, hwithout⟩ := read_withoutBody (d := { d with args }) hkeyword hrule hread
    have hdeclared : declarations { m with doc } aliases = .ok { decl with body := none } :=
      bind_eq_ok.mpr ⟨_, hblock', bind_eq_ok.mpr
        ⟨_, hds', (Declarations.read_doc doc).trans hwithout⟩⟩
    rw [hasHttp_of_declarations hblock' hdeclared] at hnone
    cases hnone
  obtain rfl : es₁ ++ es₂ = es := Except.ok.inj (hds'.symm.trans hes)
  rw [resolveDirectives_doc] at hresolved'
  obtain ⟨hnotices, hoperations⟩ :=
    resolveDirectives_manipulated (d := { d with args }) hkeyword hrule hresolved hresolved'
  have hmap : r.operations = r'.operations.map (·.manipulated ms) := by
    rw [← List.forall₂_eq_eq_eq, List.forall₂_map_right_iff]
    exact hoperations.imp fun _ _ ho => ho.2.1
  have hmembers : ∀ o ∈ r'.operations, o.request.body = .synthesized ∧
      ∀ m ∈ ms, Binding.HasMember o.request.bindings m.argument := by
    intro o ho
    obtain ⟨_, -, hbody, -, hmember⟩ := forall₂_mem_right hoperations ho
    exact ⟨hbody, hmember⟩
  refine ⟨hnotices, hmap, ?_, hmembers⟩
  rw [hmap, List.forall_mem_map]
  exact fun o ho => (hmembers o ho).1

/-- Shelves are made in two ways. One argument is manipulated twice, on a line that goes on over a
line break, and a header has the name of that argument. -/
def makeShelf : Method where
  name := "MakeShelf"
  args := [⟨"shelf", "string", .scalar⟩, ⟨"title", "string", .scalar⟩,
    ⟨"note", "string", .scalar⟩]
  returns := []
  doc := ["//kun:op POST /shelves", "//kun:body title name=head descr='the $what'; \\",
    "//  note required=true; title name=label", "// MakeShelf makes.",
    "//kun:op PUT /shelves/{shelf}", "//kun:param __ in=header name=title"]

/-- The manipulations of `makeShelf`, aliases expanded. -/
def makeShelfArgs : String :=
  "title name=head descr='the title'; note required=true; title name=label"

theorem manipulations_overlaid_of_makeShelf :
    let aliases : AliasTable := ⟨[("what", "title")]⟩
    let doc := makeShelf.doc.take 1 ++ makeShelf.doc.drop 3
    ∃ ms r r', makeShelf.OmitsManipulations aliases ms doc ∧
      makeShelf.resolve aliases {} = .ok r ∧
      resolve { makeShelf with doc } aliases {} = .ok r' ∧
      r.operations.map (fun o => (o.request.paramsIn .body).map fun p =>
        (p.name, p.description, p.required)) =
        [[("label", "the title", false), ("note", "", true)],
          [("label", "the title", false), ("note", "", true)]] ∧
      r.notices = r'.notices ∧ r.operations = r'.operations.map (·.manipulated ms) ∧
      (∀ o ∈ r.operations, o.request.body = .synthesized) ∧
      ∀ o ∈ r'.operations, o.request.body = .synthesized ∧
        ∀ m ∈ ms, Binding.HasMember o.request.bindings m.argument := by
  intro aliases doc
  let ms : List BodyOverlay :=
    [⟨"title", { name := "head", description := "the title" }⟩,
      ⟨"note", { required := true }⟩, ⟨"title", { name := "label" }⟩]
  have homits : makeShelf.OmitsManipulations aliases ms doc := by
    let args := "title name=head descr='the $what'; note required=true; title name=label"
    have hrule : BodyRule.read makeShelfArgs = .ok (.overlaid ms) :=
      ok_of_toOption (by decide +kernel)
    refine ⟨["//kun:op POST /shelves".toList], ("//kun:body " ++ args).toList,
      (makeShelf.doc.drop 3).map (·.toList), ⟨.body, args, "//kun:body " ++ args⟩, makeShelfArgs,
      by decide +kernel, by decide +kernel, ?_, rfl, ?_, hrule⟩
    · exact ok_of_toOption (by decide +kernel)
    · exact ok_of_toOption (by decide +kernel)
  obtain ⟨r, hr, hparams⟩ : ∃ r, makeShelf.resolve aliases {} = .ok r ∧
      r.operations.map (fun o => (o.request.paramsIn .body).map fun p =>
        (p.name, p.description, p.required)) =
        [[("label", "the title", false), ("note", "", true)],
          [("label", "the title", false), ("note", "", true)]] :=
    exists_ok_of_map (by decide +kernel)
  obtain ⟨r', hr', -⟩ : ∃ r', resolve { makeShelf with doc } aliases {} = .ok r' ∧
      r'.notices = [] :=
    exists_ok_of_map (by decide +kernel)
  exact ⟨ms, r, r', homits, hr, hr', hparams, manipulations_overlaid homits hr hr'⟩

end Method

end Routespec
