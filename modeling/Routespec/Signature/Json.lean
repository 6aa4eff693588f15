import Routespec.Shape.Json
import Routespec.Signature

/-!
# Signatures in JSON

The form in which the signatures of a service are handed over. Only names, types and shapes have
to be given.
-/

namespace Routespec

open Json (Value filled filledOr)

namespace Argument

/-- The JSON form of an argument. -/
def toJson (a : Argument) : Value :=
  .object [("name", .string a.name), ("ty", .string a.ty), ("shape", a.shape.toJson)]

/-- The argument that is written. -/
def ofJson? (v : Value) : Option Argument := do
  let [name, ty, shape] ← v.record? ["name", "ty", "shape"] | none
  let name ← filled Value.string? name
  let ty ← filled Value.string? ty
  let shape ← filled Shape.ofJson? shape
  return { name, ty, shape }

end Argument

namespace ReturnValue

/-- The JSON form of a return value. -/
def toJson (r : ReturnValue) : Value :=
  .object [("name", .string r.name), ("ty", .string r.ty), ("shape", r.shape.toJson)]

/-- The return value that is written. -/
def ofJson? (v : Value) : Option ReturnValue := do
  let [name, ty, shape] ← v.record? ["name", "ty", "shape"] | none
  let name ← filled Value.string? name
  let ty ← filled Value.string? ty
  let shape ← filled Shape.ofJson? shape
  return { name, ty, shape }

end ReturnValue

namespace Method

/-- The JSON form of a method. -/
def toJson (m : Method) : Value :=
  .object [
    ("name", .string m.name),
    ("args", .array (m.args.map Argument.toJson)),
    ("returns", .array (m.returns.map ReturnValue.toJson)),
    ("doc", Json.strings m.doc)]

/-- The method that is written. -/
def ofJson? (v : Value) : Option Method := do
  let [name, args, returns, doc] ← v.record? ["name", "args", "returns", "doc"] | none
  let name ← filled Value.string? name
  let args ← filledOr [] (Value.list? Argument.ofJson?) args
  let returns ← filledOr [] (Value.list? ReturnValue.ofJson?) returns
  let doc ← filledOr [] (Value.list? Value.string?) doc
  return { name, args, returns, doc }

end Method

namespace Interface

/-- The JSON form of an interface. -/
def toJson (i : Interface) : Value :=
  .object [
    ("name", .string i.name),
    ("doc", Json.strings i.doc),
    ("methods", .array (i.methods.map Method.toJson))]

/-- The interface that is written. -/
def ofJson? (v : Value) : Option Interface := do
  let [name, doc, methods] ← v.record? ["name", "doc", "methods"] | none
  let name ← filled Value.string? name
  let doc ← filledOr [] (Value.list? Value.string?) doc
  let methods ← filledOr [] (Value.list? Method.ofJson?) methods
  return { name, doc, methods }

end Interface

end Routespec
