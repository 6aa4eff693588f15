import Routespec.Http
import Routespec.Signature

/-!
# Specifications

The resolved form of a service: its HTTP operations, each with the parameters that feed the
arguments of the method it calls. Every list is in declaration order.
-/

namespace Routespec

/-- The media type of request and response bodies. -/
def jsonMediaType : String := "application/json"

/-- One parameter of a request. -/
structure Parameter where
  location : Location
  /-- The wire name. -/
  name : String
  ty : String
  /-- The parameter carries a sequence of scalars. -/
  repeated : Bool
  required : Bool
  description : String
  /-- The field it feeds, when the argument is composite. -/
  field : Option String
  deriving DecidableEq, Inhabited

/-- A parameter with the defaults of its location: only path parameters are required. -/
def Parameter.plain (location : Location) (name ty : String) : Parameter :=
  { location, name, ty
    repeated := false
    required := location = .path
    description := ""
    field := none }

/-- An argument and the parameters that feed it. -/
structure Binding where
  argument : Argument
  params : List Parameter
  /-- The binding was asked for by a directive or by field metadata. -/
  manual : Bool
  /-- The parameters are declared without an argument to feed. -/
  blank : Bool
  deriving DecidableEq, Inhabited

namespace Binding

/-- The argument is assembled from several parameters. -/
def isAggregate (b : Binding) : Bool := b.params.length > 1

/-- The parameters in one location. -/
def paramsIn (b : Binding) (l : Location) : List Parameter := b.params.filter (·.location = l)

end Binding

/-- How the body of a request is formed. -/
inductive RequestBody
  /-- From every parameter in the body, possibly none. -/
  | synthesized
  /-- The named argument is the whole body. -/
  | field (argument : String)
  /-- There is no body. -/
  | none
  deriving DecidableEq, Inhabited

/-- What an operation reads from a request. -/
structure Request where
  mediaType : String
  body : RequestBody
  bindings : List Binding
  deriving DecidableEq, Inhabited

namespace Request

/-- The binding of a named argument. -/
def binding? (r : Request) (argument : String) : Option Binding :=
  r.bindings.find? fun b => !b.blank && b.argument.name = argument

/-- The parameters in one location, in binding order. -/
def paramsIn (r : Request) (l : Location) : List Parameter :=
  r.bindings.flatMap (·.paramsIn l)

/-- All parameters, in binding order. -/
def params (r : Request) : List Parameter := r.bindings.flatMap (·.params)

end Request

/-- What a successful call answers. -/
structure Response where
  statusCode : UInt16
  mediaType : String
  /-- The return value that is the whole body; without one, each result is a member of it. -/
  bodyField : Option String
  deriving DecidableEq, Inhabited

/-- One HTTP operation: a method and a URL pattern, and what they lead to. -/
structure Operation where
  name : String
  /-- The interface method the operation calls. -/
  methodName : String
  httpMethod : HttpMethod
  pattern : String
  request : Request
  success : Response
  tags : List String
  description : String
  deriving DecidableEq, Inhabited

/-- What a specification says of the service as a whole. -/
structure SpecMeta where
  title : String
  version : String
  basePath : String
  /-- Tags for operations that have none of their own. -/
  tags : List String
  description : String
  deriving DecidableEq, Inhabited

/-- The resolved specification of an interface. -/
structure Specification where
  about : SpecMeta
  operations : List Operation
  deriving DecidableEq, Inhabited

namespace Specification

/-- The first operation of the given name. -/
def operation? (s : Specification) (name : String) : Option Operation :=
  s.operations.find? (·.name = name)

/-- The operations that call one interface method. -/
def operationsFor (s : Specification) (method : String) : List Operation :=
  s.operations.filter (·.methodName = method)

end Specification

end Routespec
