import Routespec.Naming
import Routespec.Options.Param
import Routespec.Plan.Basic

/-!
# Inference

The binding of an argument follows from its shape and the options given for it. A scalar or a
sequence of scalars takes one parameter per option group, or one without options; a composite
takes one parameter per field; other sequences and maps are members of the body; context and
errors are never bound.
-/

namespace Routespec

/-- What the binding of an argument depends on besides the argument. -/
structure Inference where
  naming : Naming
  /-- The location of parameters that no option places. -/
  fallback : Location
  /-- The variables of all patterns of the method. -/
  pathVars : List String
  deriving DecidableEq, Inhabited

namespace Inference

/-- The wire name a source name gets. In the path, a name that a pattern declares is kept. -/
def wireName (inf : Inference) (source : String) (location : Location) : String :=
  if location = .path ∧ source ∈ inf.pathVars then source else inf.naming.apply source

/-- The parameter for a value of the given name, type and shape. -/
def param (inf : Inference) (source ty : String) (shape : Shape) (o : ParamOptions) :
    Checked PlannedParam :=
  let location := o.location.getD inf.fallback
  (shape.checkFits location).map fun _ =>
    { param :=
        { location
          name := o.name.getD (inf.wireName source location)
          ty := o.ty.getD ty
          repeated := shape.isRepeated
          required := location = .path || o.required.getD false
          description := o.description.getD ""
          field := none }
      explicit := o.location.isSome
      shape }

/-- The parameter for one option group of an argument. -/
def groupParam (inf : Inference) (arg : Argument) (group : ParamOptions) :
    Checked PlannedParam := do
  group.checkRequestData arg.name
  Checked.within (.argument arg.name) (inf.param arg.name arg.ty arg.shape group)

/-- The options of a field that its metadata leaves open are those of the whole argument. -/
def fieldOptions (group own : ParamOptions) : ParamOptions :=
  { own with location := own.location.or group.location, required := own.required.or group.required }

/-- The parameter for a field of a composite argument, none if the field is omitted. A field that
is not scalar has to be annotated. -/
def fieldParam (inf : Inference) (arg : Argument) (group : ParamOptions) (field : Field) :
    Checked (Option PlannedParam) := do
  let place := Place.field arg.name field.name
  let metadata ← Checked.within place (field.metadata.mapM FieldMeta.read)
  if metadata = some .omitted then return none
  if field.shape.isExcluded ∨ (!field.shape.isScalarLike ∧ metadata = none) then
    fail (.unsupportedField arg.name field.name field.ty field.shape.describe)
  else
    let own := match metadata with
      | some (.options o) => o
      | _ => {}
    let merged := fieldOptions group own
    merged.checkRequestData (arg.name ++ "." ++ field.name)
    let p ← Checked.within place (inf.param field.name field.ty field.shape merged)
    return some { p with param := { p.param with field := some field.name } }

/-- The parameters for the fields of a composite argument. -/
def fieldParams (inf : Inference) (arg : Argument) (fields : List Field) (group : ParamOptions) :
    Checked (List PlannedParam) :=
  (fields.mapM (inf.fieldParam arg group)).map (·.filterMap id)

/-- The field carries options of its own. -/
def isAnnotated (field : Field) : Bool :=
  field.metadata.any fun text => Text.trim text.toList ≠ ['-']

/-- The binding of an argument that no directive names. -/
def implied (inf : Inference) (arg : Argument) : Checked (Option PlannedBinding) :=
  match arg.shape with
  | .context | .error => .ok none
  | .scalar | .scalarSeq =>
    (Checked.within (.argument arg.name) (inf.param arg.name arg.ty arg.shape {})).map
      fun p => some ⟨arg, [p], false, false⟩
  | .composite fields =>
    (inf.fieldParams arg fields {}).map fun params =>
      some ⟨arg, params, fields.any isAnnotated, false⟩
  | .sequence | .map =>
    if inf.fallback = .body then
      (inf.param arg.name arg.ty arg.shape {}).map fun p => some ⟨arg, [p], false, false⟩
    else fail (.bodyOnlyArgument arg.name arg.ty arg.shape.describe)

/-- The parameters of an argument that a `param` directive names. -/
def requestedParams (inf : Inference) (arg : Argument) (groups : List ParamOptions) :
    Checked (List PlannedParam) :=
  match arg.shape with
  | .context | .error => fail (.unbindableArgument arg.name arg.shape.describe)
  | .composite fields =>
    if groups.length > 1 then fail (.aggregateComposite arg.name)
    else
      let group := groups.head?.getD {}
      if group.name.isSome ∨ group.ty.isSome then fail (.namedComposite arg.name)
      else inf.fieldParams arg fields group
  | .scalar | .scalarSeq | .sequence | .map =>
    if groups.length > 1 ∧ !arg.shape.isScalarLike then
      fail (.aggregateArgument arg.name arg.shape.describe)
    else (if groups = [] then [{}] else groups).mapM (inf.groupParam arg)

/-- The binding of an argument that a `param` directive names. -/
def requested (inf : Inference) (arg : Argument) (groups : List ParamOptions) :
    Checked PlannedBinding :=
  (inf.requestedParams arg groups).map fun params => ⟨arg, params, true, false⟩

/-- The parameter for one option group of a blank binding. It has to be named. -/
def blankParam (inf : Inference) (group : ParamOptions) : Checked PlannedParam :=
  match group.name with
  | none => fail (.unnamedBlankParameter blankName)
  | some name => do
    group.checkRequestData blankName
    inf.param name (group.ty.getD "string") .scalar group

/-- A binding of parameters that feed no argument. -/
def blank (inf : Inference) (groups : List ParamOptions) : Checked PlannedBinding :=
  if groups = [] then fail (.emptyBlankBinding blankName)
  else
    (groups.mapM inf.blankParam).map fun params =>
      ⟨⟨blankName, "string", .scalar⟩, params, true, true⟩

/-- The binding of the argument that is the whole body. -/
def wholeBody (inf : Inference) (arg : Argument) : Checked PlannedBinding :=
  (Checked.within (.bodyArgument arg.name) (arg.shape.checkFits .body)).map fun _ =>
    let param := Parameter.plain .body (inf.naming.apply arg.name) arg.ty
    ⟨arg, [⟨param, true, arg.shape⟩], true, false⟩

end Inference

end Routespec
