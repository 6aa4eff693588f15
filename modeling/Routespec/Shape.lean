/-!
# Shapes

The shape of a value says how it can travel in a request. Shapes are a closed set, and composite
shapes hold the fields of the value with shapes of their own.
-/

namespace Routespec

mutual

/-- The shape of an argument, a field or a return value. -/
inductive Shape
  /-- One scalar. -/
  | scalar
  /-- A sequence of scalars. -/
  | scalarSeq
  /-- A record with named fields. -/
  | composite (fields : List Field)
  /-- A sequence of anything but scalars. -/
  | sequence
  /-- A map from keys to values. -/
  | map
  /-- The context of the call, which is never bound. -/
  | context
  /-- An error, which is never bound. -/
  | error

/-- A field of a composite value. -/
structure Field where
  /-- The declared name. -/
  name : String
  /-- The declared type, as text. -/
  ty : String
  shape : Shape
  /-- The text of the field's own options, if it has any. -/
  metadata : Option String

end

instance : Inhabited Shape := ⟨.scalar⟩

instance : Inhabited Field := ⟨⟨"", "", .scalar, none⟩⟩

mutual

/-- Equality of shapes can be decided. -/
def Shape.decEq : (a b : Shape) → Decidable (a = b)
  | .scalar, b => match b with
    | .scalar => .isTrue rfl
    | .scalarSeq | .composite _ | .sequence | .map | .context | .error => .isFalse (by simp)
  | .scalarSeq, b => match b with
    | .scalarSeq => .isTrue rfl
    | .scalar | .composite _ | .sequence | .map | .context | .error => .isFalse (by simp)
  | .composite fields, b => match b with
    | .composite others => match Shape.decEqFields fields others with
      | .isTrue h => .isTrue (by rw [h])
      | .isFalse h => .isFalse (by simpa using h)
    | .scalar | .scalarSeq | .sequence | .map | .context | .error => .isFalse (by simp)
  | .sequence, b => match b with
    | .sequence => .isTrue rfl
    | .scalar | .scalarSeq | .composite _ | .map | .context | .error => .isFalse (by simp)
  | .map, b => match b with
    | .map => .isTrue rfl
    | .scalar | .scalarSeq | .composite _ | .sequence | .context | .error => .isFalse (by simp)
  | .context, b => match b with
    | .context => .isTrue rfl
    | .scalar | .scalarSeq | .composite _ | .sequence | .map | .error => .isFalse (by simp)
  | .error, b => match b with
    | .error => .isTrue rfl
    | .scalar | .scalarSeq | .composite _ | .sequence | .map | .context => .isFalse (by simp)

/-- Equality of fields can be decided. -/
def Shape.decEqField : (a b : Field) → Decidable (a = b)
  | ⟨name, ty, shape, metadata⟩, ⟨name', ty', shape', metadata'⟩ =>
    match Shape.decEq shape shape' with
    | .isTrue h =>
      if g : name = name' ∧ ty = ty' ∧ metadata = metadata' then
        .isTrue (by obtain ⟨rfl, rfl, rfl⟩ := g; rw [h])
      else .isFalse (by simp only [Field.mk.injEq]; exact fun k => g ⟨k.1, k.2.1, k.2.2.2⟩)
    | .isFalse h => .isFalse (by simp only [Field.mk.injEq]; exact fun k => h k.2.2.1)

/-- Equality of lists of fields can be decided. -/
def Shape.decEqFields : (a b : List Field) → Decidable (a = b)
  | [], [] => .isTrue rfl
  | [], _ :: _ => .isFalse (by simp)
  | _ :: _, [] => .isFalse (by simp)
  | a :: as, b :: bs =>
    match Shape.decEqField a b with
    | .isTrue h => match Shape.decEqFields as bs with
      | .isTrue g => .isTrue (by rw [h, g])
      | .isFalse g => .isFalse (by simp only [List.cons.injEq]; exact fun k => g k.2)
    | .isFalse h => .isFalse (by simp only [List.cons.injEq]; exact fun k => h k.1)

end

instance : DecidableEq Shape := Shape.decEq

instance : DecidableEq Field := Shape.decEqField

namespace Shape

/-- A shape that never takes part in a binding. -/
def isExcluded : Shape → Bool
  | .context | .error => true
  | _ => false

/-- A shape that can travel in a path, a query or a header. -/
def isScalarLike : Shape → Bool
  | .scalar | .scalarSeq => true
  | _ => false

/-- A shape whose values are repeated scalars. -/
def isRepeated : Shape → Bool
  | .scalarSeq => true
  | _ => false

/-- The shape of an error. -/
def isError : Shape → Bool
  | .error => true
  | _ => false

/-- The fields of a composite shape. -/
def fields? : Shape → Option (List Field)
  | .composite fields => some fields
  | _ => none

/-- The name of the shape in messages. -/
def describe : Shape → String
  | .scalar => "scalar"
  | .scalarSeq => "sequence of scalars"
  | .composite _ => "composite"
  | .sequence => "sequence of non-scalars"
  | .map => "map"
  | .context => "context"
  | .error => "error"

end Shape

end Routespec
