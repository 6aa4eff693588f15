import Routespec.Method.Resolution
import Routespec.Proofs.Stopping

/-!
# Faults that are not about the response

Three causes concern the success response of a method: a body that is no return value, a status that
a method without return values cannot have, and a body with a status that has none. No other part of
resolution stops with one of them: neither reading directives nor planning a request.
-/

namespace Routespec

/-- The cause concerns the success response of a method. -/
def Cause.aboutResponse : Cause → Bool
  | .unknownResult _ | .voidStatus .. | .bodilessStatus _ => true
  | _ => false

/-- The fault has another cause than those of success responses. -/
def Fault.OffResponse (f : Fault) : Prop := f.cause.aboutResponse = false

/-- The computation stops with nothing about the success response. -/
abbrev OffResponse {α : Type} (x : Checked α) : Prop := StopsWith Fault.OffResponse x

@[simp]
theorem Fault.offResponse_within {place : Place} {f : Fault} :
    (f.within place).OffResponse ↔ f.OffResponse := Iff.rfl

@[simp]
theorem Cause.offResponse_fault {c : Cause} : c.fault.OffResponse ↔ c.aboutResponse = false :=
  Iff.rfl

section Options

theorem OptionPair.readAll_offResponse (t : Text) : OffResponse (OptionPair.readAll t) := by
  fun_induction OptionPair.readAll t with
  | case1 => exact stopsWith_ok
  | case2 _ _ _ _ _ _ ih => exact stopsWith_map.mpr ih
  | case3 => exact stopsWith_fail.mpr rfl

theorem OptionPair.readGroups_offResponse (t : Text) : OffResponse (OptionPair.readGroups t) := by
  unfold OptionPair.readGroups
  split
  · exact stopsWith_ok
  · refine .mapM fun group _ => ?_
    split
    · exact stopsWith_fail.mpr rfl
    · exact OptionPair.readAll_offResponse group

/-- Filling a record in stops with what one of its keys does, or else with a misused key. -/
theorem OptionKey.fill_offResponse {σ : Type} {keys : List (OptionKey σ)}
    (hset : ∀ key ∈ keys, ∀ value record, OffResponse (key.set value record))
    {seen : List String} {record : σ} {pairs : List OptionPair} :
    OffResponse (OptionKey.fill keys seen record pairs) := by
  induction pairs generalizing seen record with
  | nil => exact stopsWith_ok
  | cons pair rest ih =>
    rw [OptionKey.fill]
    split
    · exact stopsWith_fail.mpr rfl
    · next key hkey =>
      split
      · exact stopsWith_fail.mpr rfl
      · exact (hset key (List.mem_of_find?_eq_some hkey) _ _).bind fun _ => ih

theorem readLocation_offResponse (value : String) : OffResponse (readLocation value) := by
  unfold readLocation
  split
  · exact stopsWith_ok
  · exact stopsWith_fail.mpr rfl

theorem readBool_offResponse (key value : String) : OffResponse (readBool key value) := by
  unfold readBool
  split
  · exact stopsWith_ok
  · split
    · exact stopsWith_ok
    · exact stopsWith_fail.mpr rfl

theorem ParamOptions.ofPairs_offResponse (pairs : List OptionPair) :
    OffResponse (ParamOptions.ofPairs pairs) := by
  refine OptionKey.fill_offResponse fun key hkey value record => ?_
  simp only [ParamOptions.keys, List.mem_cons, List.not_mem_nil, or_false] at hkey
  rcases hkey with rfl | rfl | rfl | rfl | rfl
  · exact stopsWith_map.mpr (readLocation_offResponse value)
  · exact stopsWith_ok
  · exact stopsWith_map.mpr ((readBool_offResponse _ value).bind fun _ => stopsWith_pure)
  · exact stopsWith_ok
  · exact stopsWith_ok

theorem ParamOptions.read_offResponse (t : Text) : OffResponse (ParamOptions.read t) :=
  (OptionPair.readAll_offResponse t).bind ParamOptions.ofPairs_offResponse

theorem ParamOptions.checkRequestData_offResponse (o : ParamOptions) (argument : String) :
    OffResponse (o.checkRequestData argument) := by
  unfold ParamOptions.checkRequestData
  split
  · exact stopsWith_ok
  · exact stopsWith_fail.mpr rfl

theorem FieldMeta.read_offResponse (text : String) : OffResponse (FieldMeta.read text) := by
  unfold FieldMeta.read
  split
  · exact stopsWith_ok
  · exact stopsWith_map.mpr (ParamOptions.read_offResponse _)

end Options

section Rules

theorem PathPattern.varsFrom_offResponse (pattern : String) (seen : List String)
    (opened : Option Text) (t : Text) :
    OffResponse (PathPattern.varsFrom pattern seen opened t) := by
  fun_induction PathPattern.varsFrom pattern seen opened t
  all_goals first | exact stopsWith_ok | exact stopsWith_fail.mpr rfl | skip
  all_goals simpa

theorem Route.read_offResponse (args : String) : OffResponse (Route.read args) := by
  unfold Route.read
  split
  · split
    · refine stopsWith_map.mpr ?_
      unfold PathPattern.vars
      split
      · exact PathPattern.varsFrom_offResponse _ _ _ _
      · exact stopsWith_fail.mpr rfl
    · exact stopsWith_fail.mpr rfl
  · exact stopsWith_fail.mpr rfl

theorem splitClause_offResponse (clause : Text) : OffResponse (splitClause clause) := by
  unfold splitClause
  dsimp only
  split
  · exact stopsWith_fail.mpr rfl
  · split
    · exact stopsWith_ok
    · exact stopsWith_fail.mpr rfl

theorem ArgumentClause.readAll_offResponse (args : String) :
    OffResponse (ArgumentClause.readAll args) := by
  unfold ArgumentClause.readAll
  split
  · exact stopsWith_fail.mpr rfl
  · refine .mapM fun clause _ => (splitClause_offResponse clause).bind fun (argument, rest) => ?_
    refine (OptionPair.readGroups_offResponse rest).bind fun groups => ?_
    refine StopsWith.bind (stopsWith_within.mpr ?_) fun _ => stopsWith_pure
    exact .mapM fun pairs _ => ParamOptions.ofPairs_offResponse pairs

theorem BodyOverlay.read_offResponse (clause : Text) : OffResponse (BodyOverlay.read clause) := by
  refine (splitClause_offResponse clause).bind fun (argument, rest) => ?_
  refine StopsWith.bind (stopsWith_within.mpr (ParamOptions.read_offResponse rest))
    fun options => ?_
  split
  · exact stopsWith_fail.mpr rfl
  · split
    · exact stopsWith_fail.mpr rfl
    · exact stopsWith_pure

theorem BodyRule.read_offResponse (args : String) : OffResponse (BodyRule.read args) := by
  unfold BodyRule.read
  dsimp only
  split
  · exact stopsWith_ok
  · split
    · exact stopsWith_fail.mpr rfl
    · split
      · exact stopsWith_ok
      · exact stopsWith_map.mpr (.mapM fun clause _ => BodyOverlay.read_offResponse clause)

theorem SuccessRule.read_offResponse (args : String) : OffResponse (SuccessRule.read args) := by
  refine (OptionPair.readAll_offResponse _).bind fun pairs => ?_
  refine OptionKey.fill_offResponse fun key hkey value record => ?_
  simp only [SuccessRule.keys, List.mem_cons, List.not_mem_nil, or_false] at hkey
  rcases hkey with rfl | rfl
  · refine stopsWith_map.mpr ?_
    unfold readStatus
    split
    · split
      · exact stopsWith_ok
      · exact stopsWith_fail.mpr rfl
    · exact stopsWith_fail.mpr rfl
  · dsimp only
    split
    · exact stopsWith_ok
    · exact stopsWith_fail.mpr rfl

theorem DocumentRule.read_offResponse (args : String) : OffResponse (DocumentRule.read args) := by
  refine (OptionPair.readAll_offResponse _).bind fun pairs => ?_
  refine OptionKey.fill_offResponse fun key hkey value record => ?_
  simp only [DocumentRule.keys, List.mem_cons, List.not_mem_nil, or_false] at hkey
  rcases hkey with rfl | rfl | rfl | rfl
  all_goals exact stopsWith_ok

theorem AliasTable.expand_offResponse (aliases : AliasTable) (s : String) :
    OffResponse (aliases.expand s) := by
  refine stopsWith_map.mpr (stopsWith_map.mpr (.mapM fun piece _ => ?_))
  unfold AliasTable.resolve
  split
  · exact stopsWith_ok
  · split
    · exact stopsWith_ok
    · exact stopsWith_fail.mpr rfl

theorem Declarations.claim_offResponse (m : Method) (claimed : List String)
    (clauses : List ArgumentClause) : OffResponse (Declarations.claim m claimed clauses) := by
  fun_induction Declarations.claim m claimed clauses
  all_goals first | exact stopsWith_ok | exact stopsWith_fail.mpr rfl | assumption

end Rules

section Plans

theorem Shape.checkFits_offResponse (shape : Shape) (location : Location) :
    OffResponse (shape.checkFits location) := by
  unfold Shape.checkFits
  split
  · exact stopsWith_ok
  · exact stopsWith_fail.mpr rfl

namespace Inference

variable (inf : Inference)

theorem param_offResponse (source ty : String) (shape : Shape) (o : ParamOptions) :
    OffResponse (inf.param source ty shape o) :=
  stopsWith_map.mpr (shape.checkFits_offResponse _)

theorem fieldParams_offResponse (arg : Argument) (fields : List Field) (group : ParamOptions) :
    OffResponse (inf.fieldParams arg fields group) := by
  refine stopsWith_map.mpr (.mapM fun field _ => ?_)
  have hmeta : OffResponse (field.metadata.mapM FieldMeta.read) := by
    cases field.metadata with
    | none => exact stopsWith_ok
    | some text => exact (FieldMeta.read_offResponse text).bind fun _ => stopsWith_pure
  refine StopsWith.bind (stopsWith_within.mpr hmeta) fun metadata => ?_
  split
  · exact stopsWith_pure
  · split
    · exact stopsWith_fail.mpr rfl
    · refine (ParamOptions.checkRequestData_offResponse _ _).bind fun _ => ?_
      refine StopsWith.bind (stopsWith_within.mpr ?_) fun p => stopsWith_pure
      exact inf.param_offResponse _ _ _ _

theorem implied_offResponse (arg : Argument) : OffResponse (inf.implied arg) := by
  unfold implied
  split
  · exact stopsWith_ok
  · exact stopsWith_ok
  · exact stopsWith_map.mpr (stopsWith_within.mpr (inf.param_offResponse _ _ _ _))
  · exact stopsWith_map.mpr (stopsWith_within.mpr (inf.param_offResponse _ _ _ _))
  · exact stopsWith_map.mpr (inf.fieldParams_offResponse _ _ _)
  all_goals
    split
    · exact stopsWith_map.mpr (inf.param_offResponse _ _ _ _)
    · exact stopsWith_fail.mpr rfl

theorem requested_offResponse (arg : Argument) (groups : List ParamOptions) :
    OffResponse (inf.requested arg groups) := by
  have hgroups (groups : List ParamOptions) : OffResponse (groups.mapM (inf.groupParam arg)) :=
    .mapM fun group _ => (group.checkRequestData_offResponse _).bind fun _ =>
      stopsWith_within.mpr (inf.param_offResponse _ _ _ _)
  refine stopsWith_map.mpr ?_
  unfold requestedParams
  split
  · exact stopsWith_fail.mpr rfl
  · exact stopsWith_fail.mpr rfl
  · split
    · exact stopsWith_fail.mpr rfl
    · dsimp only
      split
      · exact stopsWith_fail.mpr rfl
      · exact inf.fieldParams_offResponse _ _ _
  all_goals
    split
    · exact stopsWith_fail.mpr rfl
    · exact hgroups _

theorem blank_offResponse (groups : List ParamOptions) : OffResponse (inf.blank groups) := by
  unfold blank
  split
  · exact stopsWith_fail.mpr rfl
  · refine stopsWith_map.mpr (.mapM fun group _ => ?_)
    unfold blankParam
    split
    · exact stopsWith_fail.mpr rfl
    · exact (group.checkRequestData_offResponse _).bind fun _ => inf.param_offResponse _ _ _ _

theorem wholeBody_offResponse (arg : Argument) : OffResponse (inf.wholeBody arg) :=
  stopsWith_map.mpr (stopsWith_within.mpr (arg.shape.checkFits_offResponse _))

end Inference

namespace Plan

theorem bindVariable_offResponse (naming : Naming) (var : String) (plan : Plan) :
    OffResponse (plan.bindVariable naming var) := by
  have hargument (b : PlannedBinding) : OffResponse (b.readFromPath var) := by
    unfold PlannedBinding.readFromPath
    split
    · exact stopsWith_fail.mpr rfl
    · exact StopsWith.bind (stopsWith_within.mpr (b.argument.shape.checkFits_offResponse _))
        fun _ => stopsWith_pure
  have hfield (argument : String) (p : PlannedParam) :
      OffResponse (PlannedBinding.fieldFromPath var argument p) := by
    unfold PlannedBinding.fieldFromPath
    split
    · exact stopsWith_fail.mpr rfl
    · exact StopsWith.bind (stopsWith_within.mpr (p.shape.checkFits_offResponse _))
        fun _ => stopsWith_pure
  unfold bindVariable
  split
  · exact stopsWith_ok
  · split
    · exact .updateFirst fun b _ => hargument b
    · split
      · exact .updateFirst fun b _ => stopsWith_map.mpr (.updateFirst fun p _ => hfield _ p)
      · exact stopsWith_fail.mpr rfl

theorem toQuery_offResponse (plan : Plan) : OffResponse plan.toQuery := by
  refine .mapM fun b _ => stopsWith_map.mpr (.mapM fun p _ => ?_)
  unfold PlannedParam.toQuery
  split
  · exact stopsWith_ok
  · exact stopsWith_map.mpr (stopsWith_within.mpr (p.shape.checkFits_offResponse _))

theorem overlay_offResponse (m : BodyOverlay) (plan : Plan) : OffResponse (plan.overlay m) := by
  induction plan with
  | nil => exact stopsWith_fail.mpr rfl
  | cons b rest ih =>
    rw [overlay]
    split
    · refine stopsWith_map.mpr ?_
      unfold PlannedBinding.overlay
      split
      · exact stopsWith_fail.mpr rfl
      · exact stopsWith_ok
      · exact stopsWith_fail.mpr rfl
    · exact stopsWith_map.mpr ih

theorem checkUnique_offResponse (plan : Plan) : OffResponse plan.checkUnique := by
  have hkeys (fs : List Feed) (seen : List (Location × String)) :
      OffResponse (checkKeys seen fs) := by
    induction fs generalizing seen with
    | nil => exact stopsWith_ok
    | cons f rest ih =>
      rw [checkKeys]
      split
      · exact stopsWith_fail.mpr rfl
      · exact ih _
  exact hkeys plan.feeds []

end Plan

end Plans

end Routespec
