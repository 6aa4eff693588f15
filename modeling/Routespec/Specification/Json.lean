import Routespec.Signature.Json
import Routespec.Specification

/-!
# Specifications in JSON

The form in which specifications are handed on. Descriptions, tags and names that are empty or
absent are left out.
-/

namespace Routespec

open Json (Value filled filledOr unlessEmpty)

/-- A member with a string, left out when there is none. -/
def optionalString (name : String) : Option String → List (String × Value)
  | some s => [(name, .string s)]
  | none => []

namespace Parameter

/-- The JSON form of a parameter. -/
def toJson (p : Parameter) : Value :=
  .object ([
    ("in", .string p.location.word),
    ("name", .string p.name),
    ("ty", .string p.ty),
    ("repeated", .bool p.repeated),
    ("required", .bool p.required)] ++
    unlessEmpty "description" (.string p.description) (p.description = "") ++
    optionalString "field" p.field)

/-- The parameter that is written. -/
def ofJson? (v : Value) : Option Parameter := do
  let [location, name, ty, repeated, required, description, field] ←
    v.record? ["in", "name", "ty", "repeated", "required", "description", "field"] | none
  let location ← filled (Value.word? Location.ofWord?) location
  let name ← filled Value.string? name
  let ty ← filled Value.string? ty
  let repeated ← filledOr false Value.bool? repeated
  let required ← filledOr false Value.bool? required
  let description ← filledOr "" Value.string? description
  let field ← filledOr none (Value.nullable? Value.string?) field
  return { location, name, ty, repeated, required, description, field }

end Parameter

namespace Binding

/-- The JSON form of a binding. -/
def toJson (b : Binding) : Value :=
  .object [
    ("argument", b.argument.toJson),
    ("params", .array (b.params.map Parameter.toJson)),
    ("manual", .bool b.manual),
    ("blank", .bool b.blank)]

/-- The binding that is written. -/
def ofJson? (v : Value) : Option Binding := do
  let [argument, params, manual, blank] ←
    v.record? ["argument", "params", "manual", "blank"] | none
  let argument ← filled Argument.ofJson? argument
  let params ← filled (Value.list? Parameter.ofJson?) params
  let manual ← filledOr false Value.bool? manual
  let blank ← filledOr false Value.bool? blank
  return { argument, params, manual, blank }

end Binding

namespace RequestBody

/-- The kinds of body. -/
inductive Kind
  | synthesized | field | none
  deriving DecidableEq

/-- The kind with the given name. -/
def Kind.ofWord? (word : String) : Option Kind :=
  if word = "synthesized" then some .synthesized
  else if word = "field" then some .field
  else if word = "none" then some .none
  else Option.none

/-- The JSON form of a body: its kind, and the argument beside it if it is one. -/
def toJson : RequestBody → Value
  | .synthesized => .object [("kind", .string "synthesized")]
  | .field argument => .object [("kind", .string "field"), ("field", .string argument)]
  | .none => .object [("kind", .string "none")]

/-- The body of a kind, with what is written beside it. -/
def ofParts? : Kind → Option Value → Option RequestBody
  | .synthesized, Option.none | .synthesized, some .null => some .synthesized
  | .none, Option.none | .none, some .null => some .none
  | .field, some (.string argument) => some (.field argument)
  | _, _ => Option.none

/-- The body that is written. As an array, it is a pair. -/
def ofJson? : Value → Option RequestBody
  | .object members => do
    guard (members.countP (·.1 = "kind") ≤ 1 ∧ members.countP (·.1 = "field") ≤ 1)
    let kind ← filled (Value.word? Kind.ofWord?) (members.lookup "kind")
    ofParts? kind (members.lookup "field")
  | .array [kind, content] => do
    let kind ← Value.word? Kind.ofWord? kind
    ofParts? kind (some content)
  | _ => Option.none

end RequestBody

namespace Request

/-- The JSON form of a request. -/
def toJson (r : Request) : Value :=
  .object [
    ("media_type", .string r.mediaType),
    ("body", r.body.toJson),
    ("bindings", .array (r.bindings.map Binding.toJson))]

/-- The request that is written. -/
def ofJson? (v : Value) : Option Request := do
  let [mediaType, body, bindings] ← v.record? ["media_type", "body", "bindings"] | none
  let mediaType ← filled Value.string? mediaType
  let body ← filledOr .synthesized RequestBody.ofJson? body
  let bindings ← filled (Value.list? Binding.ofJson?) bindings
  return { mediaType, body, bindings }

end Request

namespace Response

/-- The JSON form of a response. -/
def toJson (r : Response) : Value :=
  .object ([
    ("status_code", .number (.natural r.statusCode.toNat)),
    ("media_type", .string r.mediaType)] ++
    optionalString "body_field" r.bodyField)

/-- The response that is written. -/
def ofJson? (v : Value) : Option Response := do
  let [statusCode, mediaType, bodyField] ←
    v.record? ["status_code", "media_type", "body_field"] | none
  let statusCode ← filled Value.uint16? statusCode
  let mediaType ← filled Value.string? mediaType
  let bodyField ← filledOr none (Value.nullable? Value.string?) bodyField
  return { statusCode, mediaType, bodyField }

end Response

namespace Operation

/-- The JSON form of an operation. -/
def toJson (o : Operation) : Value :=
  .object ([
    ("name", .string o.name),
    ("method_name", .string o.methodName),
    ("http_method", .string o.httpMethod.token),
    ("pattern", .string o.pattern),
    ("request", o.request.toJson),
    ("success", o.success.toJson)] ++
    unlessEmpty "tags" (Json.strings o.tags) o.tags.isEmpty ++
    unlessEmpty "description" (.string o.description) (o.description = ""))

/-- The operation that is written. -/
def ofJson? (v : Value) : Option Operation := do
  let [name, methodName, httpMethod, pattern, request, success, tags, description] ←
    v.record? ["name", "method_name", "http_method", "pattern", "request", "success", "tags",
      "description"] | none
  let name ← filled Value.string? name
  let methodName ← filled Value.string? methodName
  let httpMethod ← filled (Value.word? HttpMethod.ofToken?) httpMethod
  let pattern ← filled Value.string? pattern
  let request ← filled Request.ofJson? request
  let success ← filled Response.ofJson? success
  let tags ← filledOr [] (Value.list? Value.string?) tags
  let description ← filledOr "" Value.string? description
  return { name, methodName, httpMethod, pattern, request, success, tags, description }

end Operation

namespace SpecMeta

/-- The JSON form of what a specification says of the service. -/
def toJson (m : SpecMeta) : Value :=
  .object ([
    ("title", .string m.title),
    ("version", .string m.version),
    ("base_path", .string m.basePath)] ++
    unlessEmpty "tags" (Json.strings m.tags) m.tags.isEmpty ++
    unlessEmpty "description" (.string m.description) (m.description = ""))

/-- What is written of the service. -/
def ofJson? (v : Value) : Option SpecMeta := do
  let [title, version, basePath, tags, description] ←
    v.record? ["title", "version", "base_path", "tags", "description"] | none
  let title ← filled Value.string? title
  let version ← filled Value.string? version
  let basePath ← filledOr "" Value.string? basePath
  let tags ← filledOr [] (Value.list? Value.string?) tags
  let description ← filledOr "" Value.string? description
  return { title, version, basePath, tags, description }

end SpecMeta

namespace Specification

/-- The JSON form of a specification. -/
def toJson (s : Specification) : Value :=
  .object [
    ("meta", s.about.toJson),
    ("operations", .array (s.operations.map Operation.toJson))]

/-- The specification that is written. -/
def ofJson? (v : Value) : Option Specification := do
  let [about, operations] ← v.record? ["meta", "operations"] | none
  let about ← filled SpecMeta.ofJson? about
  let operations ← filled (Value.list? Operation.ofJson?) operations
  return { about, operations }

end Specification

end Routespec
