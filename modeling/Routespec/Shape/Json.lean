import Routespec.Json.Record
import Routespec.Shape

/-!
# Shapes in JSON

A shape is an object that names its kind, with the fields of a composite beside it. The fields
themselves are records.
-/

namespace Routespec

open Json (Value filled filledOr unlessEmpty)

namespace Shape

/-- The name of a shape's kind. -/
def kind : Shape → String
  | .scalar => "scalar"
  | .scalarSeq => "scalar_seq"
  | .composite _ => "composite"
  | .sequence => "sequence"
  | .map => "map"
  | .context => "context"
  | .error => "error"

/-- The names of all kinds, in order. -/
def kinds : List String :=
  ["scalar", "scalar_seq", "composite", "sequence", "map", "context", "error"]

/-- The shape of the kind with the given name, if it needs no fields. -/
def ofKind? (kind : String) : Option Shape :=
  [scalar, scalarSeq, sequence, map, context, error].find? (·.kind = kind)

mutual

/-- The JSON form of a shape. -/
def toJson : Shape → Value
  | .composite fields =>
    .object [("kind", .string "composite"), ("fields", .array (fieldsToJson fields))]
  | .scalar => .object [("kind", .string "scalar")]
  | .scalarSeq => .object [("kind", .string "scalar_seq")]
  | .sequence => .object [("kind", .string "sequence")]
  | .map => .object [("kind", .string "map")]
  | .context => .object [("kind", .string "context")]
  | .error => .object [("kind", .string "error")]

/-- The JSON form of a field. -/
def fieldToJson : Field → Value
  | ⟨name, ty, shape, metadata⟩ =>
    .object ([("name", .string name), ("ty", .string ty), ("shape", toJson shape)] ++
      match metadata with
      | some text => [("meta", .string text)]
      | none => [])

/-- The JSON forms of fields. -/
def fieldsToJson : List Field → List Value
  | [] => []
  | f :: rest => fieldToJson f :: fieldsToJson rest

end

/-- The name of a kind. Inside another shape, the kind's number will do too. -/
def kindOf? (nested : Bool) : Value → Option String
  | .string s => if s ∈ kinds then some s else none
  | .number (.natural n) => if nested then kinds[n]? else none
  | _ => none

/-- The kind of a written shape, and the fields beside it if there are any. As an array, a shape
is its kind followed by the fields, with nothing after them. -/
def parts? (nested : Bool) : Value → Option (String × Option Value)
  | .object members =>
    if members.countP (·.1 = "kind") ≤ 1 then
      (members.lookup "kind").bind (kindOf? nested) |>.bind fun kind =>
        if kind = "composite" ∧ 1 < members.countP (·.1 = "fields") then none
        else some (kind, members.lookup "fields")
    else none
  | .array (first :: rest) =>
    (kindOf? nested first).bind fun kind =>
      if rest.length ≤ if kind = "composite" then 1 else 0 then some (kind, rest.head?) else none
  | _ => none

theorem sizeOf_of_parts? {nested : Bool} {v w : Value} {kind : String}
    (h : parts? nested v = some (kind, some w)) : sizeOf w < sizeOf v := by
  cases v with
  | object members =>
    rw [parts?] at h
    split at h
    · obtain ⟨k, -, hk⟩ := Option.bind_eq_some_iff.mp h
      split at hk
      · contradiction
      · obtain ⟨-, hw⟩ := Prod.mk.inj (Option.some.inj hk)
        have := Json.Value.sizeOf_of_lookup hw
        rw [Value.object.sizeOf_spec]
        omega
    · contradiction
  | array items =>
    cases items with
    | nil => contradiction
    | cons first rest =>
      obtain ⟨k, -, hk⟩ := Option.bind_eq_some_iff.mp h
      by_cases hl : rest.length ≤ if k = "composite" then 1 else 0
      · rw [if_pos hl] at hk
        obtain ⟨-, hw⟩ := Prod.mk.inj (Option.some.inj hk)
        have := List.sizeOf_lt_of_mem (List.mem_of_mem_head? hw)
        rw [Value.array.sizeOf_spec, List.cons.sizeOf_spec]
        omega
      · rw [if_neg hl] at hk
        contradiction
  | _ => simp [parts?] at h

mutual

/-- The shape that is written. -/
def ofJsonWithin? (nested : Bool) (v : Value) : Option Shape :=
  match _h : parts? nested v with
  | some ("composite", some (.array items)) => do
    let fields ← items.attach.mapM fun item => fieldOfJson? item.1
    return .composite fields
  | some ("composite", _) => none
  | some (kind, _) => ofKind? kind
  | none => none
  termination_by sizeOf v
  decreasing_by
    have h := sizeOf_of_parts? _h
    have := List.sizeOf_lt_of_mem item.2
    simp only [Value.array.sizeOf_spec] at h
    omega

/-- The field that is written. -/
def fieldOfJson? (v : Value) : Option Field :=
  match _h : v.record? ["name", "ty", "shape", "meta"] with
  | some [name, ty, some shape, metadata] => do
    let name ← filled Value.string? name
    let ty ← filled Value.string? ty
    let shape ← ofJsonWithin? true shape
    let metadata ← filledOr none (Value.nullable? Value.string?) metadata
    return ⟨name, ty, shape, metadata⟩
  | _ => none
  termination_by sizeOf v
  decreasing_by exact Value.sizeOf_of_record? _h (by simp)

end

/-- The shape that is written, if everything in it is well formed. -/
def ofJson? (v : Value) : Option Shape :=
  if v.isWellFormed then ofJsonWithin? false v else none

end Shape

end Routespec
