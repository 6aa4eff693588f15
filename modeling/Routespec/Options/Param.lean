import Routespec.Http
import Routespec.Options.Pair

/-!
# Parameter options

The options of one parameter: where it is read from, its wire name, its type, its description, and
whether it is required. Fields of composite arguments carry the same options as metadata.
-/

namespace Routespec

/-- The name of a binding that feeds no argument. -/
def blankName : String := "__"

/-- The options of one parameter; an option that was not given is `none`. -/
structure ParamOptions where
  location : Option Location := none
  name : Option String := none
  required : Option Bool := none
  ty : Option String := none
  description : Option String := none
  deriving DecidableEq, Inhabited

/-- The location that an option asks for. -/
def readLocation (value : String) : Checked Location :=
  match Location.selectable.find? (·.word = value) with
  | some location => .ok location
  | none => fail (.invalidLocation value (Location.selectable.map (·.word)))

/-- The truth value of an option. -/
def readBool (key value : String) : Checked Bool :=
  if value = "true" then .ok true
  else if value = "false" then .ok false
  else fail (.invalidBool key value)

/-- The data of a connection that parameters can be read from. -/
def requestData : List String := ["RemoteAddr"]

namespace ParamOptions

/-- The options a parameter understands. -/
def keys : List (OptionKey ParamOptions) := [
  ⟨"in", fun value o => (readLocation value).map fun l => { o with location := some l }⟩,
  ⟨"name", fun value o => .ok { o with name := some value }⟩,
  ⟨"required", fun value o => (readBool "required" value).map fun b => { o with required := b }⟩,
  ⟨"type", fun value o => .ok { o with ty := some value }⟩,
  ⟨"descr", fun value o => .ok { o with description := some value }⟩]

/-- The options given by a group of pairs. -/
def ofPairs (pairs : List OptionPair) : Checked ParamOptions := OptionKey.fill keys [] {} pairs

/-- The options given by a text with one group. -/
def read (t : Text) : Checked ParamOptions := (OptionPair.readAll t).bind ofPairs

/-- No option was given. -/
def isEmpty (o : ParamOptions) : Bool := o = {}

/-- A parameter read from the connection has to name data that the connection provides. -/
def checkRequestData (o : ParamOptions) (argument : String) : Checked Unit :=
  if o.location ≠ some .request ∨ ∃ name ∈ requestData, o.name = some name then .ok ()
  else fail (.unknownRequestData argument requestData (o.name.getD ""))

end ParamOptions

/-- The metadata of a field. -/
inductive FieldMeta
  /-- The field is not bound. -/
  | omitted
  | options (o : ParamOptions)
  deriving DecidableEq, Inhabited

/-- Read the metadata of a field; a lone hyphen omits it. -/
def FieldMeta.read (text : String) : Checked FieldMeta :=
  if Text.trim text.toList = ['-'] then .ok .omitted
  else (ParamOptions.read text.toList).map .options

end Routespec
