import Routespec.Proofs.PathVariables
import Routespec.Proofs.Request

/-!
# Bindings marked as manual

That a binding was asked for is handed on from the plan to the requests, and nothing on the way
looks at it: an argument whose binding is marked in the plan has it marked wherever it occurs, and
all else stays as it is.
-/

namespace Routespec

namespace PlannedBinding

variable {name v : String}

/-- The binding marked as manual if it feeds the argument of the name. -/
def markManual (name : String) (b : PlannedBinding) : PlannedBinding :=
  { b with manual := b.manual || b.feeds name }

@[simp]
theorem markManual_params (b : PlannedBinding) : (b.markManual name).params = b.params := rfl

@[simp]
theorem feeds_markManual (b : PlannedBinding) : (b.markManual name).feeds v = b.feeds v := rfl

theorem markManual_of_feeds {b : PlannedBinding} (h : b.feeds name = true) :
    b.markManual name = { b with manual := true } := by
  simp [markManual, h]

/-- Bindings that do not feed the argument stay as they are. -/
theorem markManual_of_not_feeds {b : PlannedBinding} (h : b.feeds name = false) :
    b.markManual name = b := by
  simp [markManual, h]

theorem readFromPath_markManual (b : PlannedBinding) :
    (b.markManual name).readFromPath v = (b.readFromPath v).map (·.markManual name) := by
  have helsewhere : (b.markManual name).explicitElsewhere? = b.explicitElsewhere? := rfl
  have hargument : (b.markManual name).argument = b.argument := rfl
  rw [readFromPath_eq, readFromPath_eq, helsewhere, hargument]
  cases b.explicitElsewhere? with
  | some location => rfl
  | none => cases Checked.within (.pathParameter v) (b.argument.shape.checkFits .path) <;> rfl

theorem readFieldFromPath_markManual (b : PlannedBinding) :
    (b.markManual name).readFieldFromPath v = (b.readFieldFromPath v).map (·.markManual name) := by
  have hargument : (b.markManual name).argument = b.argument := rfl
  rw [readFieldFromPath, readFieldFromPath, hargument, markManual_params]
  cases updateFirst (feedsField v) (fieldFromPath v b.argument.name) b.params <;> rfl

theorem onPattern?_markManual {vars : List String} (b : PlannedBinding) :
    (b.markManual name).onPattern? vars = (b.onPattern? vars).map (·.markManual name) := by
  rw [onPattern?_eq, onPattern?_eq, markManual_params]
  split <;> rfl

theorem overlay_markManual (o : ParamOptions) (b : PlannedBinding) :
    (b.markManual name).overlay o = (b.overlay o).map (·.markManual name) := by
  unfold overlay
  rw [markManual_params]
  split <;> rfl

end PlannedBinding

namespace Plan

open PlannedBinding

variable {name : String}

theorem bindVariable_markManual {naming : Naming} {v : String} (plan : Plan) :
    bindVariable naming v (plan.map (·.markManual name)) =
      (plan.bindVariable naming v).map (List.map (·.markManual name)) := by
  have hnames : explicitPathNames (plan.map (·.markManual name)) = plan.explicitPathNames := by
    simp only [explicitPathNames, List.flatMap_map]
    rfl
  have hnamed (b : PlannedBinding) : (b.markManual name).isNamed naming v = b.isNamed naming v :=
    rfl
  have hfield (b : PlannedBinding) : (b.markManual name).hasField v = b.hasField v := rfl
  simp only [bindVariable, hnames, List.any_map, Function.comp_def, hnamed, hfield]
  split
  · rfl
  · split
    · exact updateFirst_map hnamed readFromPath_markManual plan
    · split
      · exact updateFirst_map hfield readFieldFromPath_markManual plan
      · rfl

theorem onPattern_markManual {vars : List String} (plan : Plan) :
    onPattern vars (plan.map (·.markManual name)) =
      (plan.onPattern vars).map (·.markManual name) := by
  unfold onPattern
  rw [List.filterMap_map, List.map_filterMap]
  exact List.filterMap_congr fun b _ => onPattern?_markManual b

theorem overlay_markManual (m : BodyOverlay) (plan : Plan) :
    overlay m (plan.map (·.markManual name)) =
      (overlay m plan).map (List.map (·.markManual name)) := by
  induction plan with
  | nil => rfl
  | cons b rest ih =>
    rw [List.map_cons, overlay, overlay, feeds_markManual, PlannedBinding.overlay_markManual, ih]
    split
    · cases b.overlay m.options <;> rfl
    · cases overlay m rest <;> rfl

theorem overlayAll_markManual (ms : List BodyOverlay) (plan : Plan) :
    overlayAll ms (plan.map (·.markManual name)) =
      (plan.overlayAll ms).map (List.map (·.markManual name)) :=
  foldlM_map_comm (fun plan m _ => overlay_markManual m plan) plan

theorem checkUnique_markManual (plan : Plan) :
    checkUnique (plan.map (·.markManual name)) = plan.checkUnique := by
  unfold checkUnique feeds
  rw [List.flatMap_map]
  rfl

end Plan

/-- The binding marked as manual if it feeds the argument of the name. -/
def Binding.markManual (name : String) (b : Binding) : Binding :=
  { b with manual := b.manual || (!b.blank && b.argument.name = name) }

/-- The request with the binding of the argument marked as manual. -/
def Request.markManual (name : String) (r : Request) : Request :=
  { r with bindings := r.bindings.map (·.markManual name) }

/-- The operation with the binding of the argument marked as manual. -/
def Operation.markManual (name : String) (o : Operation) : Operation :=
  { o with request := o.request.markManual name }

/-- The operations with the binding of the argument marked as manual wherever it occurs. -/
def MethodResolution.markManual (name : String) (r : MethodResolution) : MethodResolution :=
  { r with operations := r.operations.map (·.markManual name) }

namespace Method

variable {m : Method} {decl : Declarations} {options : ResolveOptions} {plan : Plan} {name : String}

/-- Variables are bound alike in marked bindings. -/
theorem foldlM_bindPathVar_markManual (vars : List String) (plan : Plan) :
    vars.foldlM (m.bindPathVar decl options) (plan.map (·.markManual name)) =
      (vars.foldlM (m.bindPathVar decl options) plan).map (List.map (·.markManual name)) := by
  refine foldlM_map_comm (fun plan v _ => ?_) plan
  simp only [bindPathVar, Plan.bindVariable_markManual]
  cases Plan.bindVariable options.naming v plan <;> rfl

theorem overlaid_markManual (route : Route) (plan : Plan) :
    m.overlaid decl route (plan.map (·.markManual name)) =
      (m.overlaid decl route plan).map (List.map (·.markManual name)) := by
  unfold overlaid
  split
  · rw [Plan.overlayAll_markManual]
    split
    · cases plan.overlayAll _ <;> rfl
    · rfl
  · rfl

/-- A request is made alike of marked bindings, which stay marked. -/
theorem request_markManual {route : Declared Route} {req : Request}
    (h : m.request decl plan route = .ok req) :
    m.request decl (plan.map (·.markManual name)) route = .ok (req.markManual name) := by
  obtain ⟨hfits, plan', hplan', hunique, rfl⟩ := request_cases.mp h
  refine request_cases.mpr ⟨fun hbody => List.forall_mem_map.mpr (hfits hbody),
    plan'.map (·.markManual name), ?_, ?_, ?_⟩
  · -- bindings are moved out of the body alike, so the marks are set before or after that
    have hmoved (body : RequestBody) :
        (plan.map (·.markManual name)).map (·.movedFor body) =
          (plan.map (·.movedFor body)).map (·.markManual name) := by
      rw [List.map_map, List.map_map]
      rfl
    rw [hmoved, Plan.onPattern_markManual, overlaid_markManual, hplan']
    rfl
  · rwa [Plan.checkUnique_markManual]
  · rw [Request.markManual, List.map_map, List.map_map]
    rfl

theorem operations_markManual {success : Response} {description : String} {ops : List Operation}
    (h : decl.routes.zipIdx.mapM (m.operation decl plan success description) = .ok ops) :
    decl.routes.zipIdx.mapM
        (m.operation decl (plan.map (·.markManual name)) success description) =
      .ok (ops.map (·.markManual name)) := by
  rw [mapM_eq_ok] at h ⊢
  rw [List.forall₂_map_right_iff]
  refine h.imp fun route o ho => ?_
  obtain ⟨request, hrequest, rfl⟩ := map_eq_ok.mp ho
  exact map_eq_ok.mpr ⟨_, request_markManual hrequest, rfl⟩

end Method

end Routespec
