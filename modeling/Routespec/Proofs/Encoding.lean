import Mathlib.Data.List.Nodup
import Mathlib.Data.Option.Basic
import Routespec.Proofs.PrintedJson
import Routespec.Signature.Json
import Routespec.Specification.Json

/-!
# Encoded values decode

The JSON form of a signature or of a specification decodes to just that signature or specification.
A member that is left out stands for what it would have held, and no two members of a form have one
name.
-/

namespace Routespec

open Json (Value filled filledOr unlessEmpty)

namespace Json

section Records

variable {α : Type}

/-- Without members of one name, each slot of a record holds the member of its name. -/
theorem Value.record?_of_nodup {names : List String} {members : List (String × Value)}
    (h : (members.map (·.1)).Nodup) :
    (Value.object members).record? names = some (names.map (List.lookup · members)) := by
  have hunique : names.all (fun name => members.countP (·.1 = name) ≤ 1) = true := by
    refine List.all_eq_true.mpr fun name _ => ?_
    have hcount : members.countP (·.1 = name) = (members.map (·.1)).count name := by
      rw [List.count_eq_countP, List.countP_map]
      exact List.countP_congr fun m _ => by simp
    rw [hcount]
    exact decide_eq_true (List.nodup_iff_count_le_one.mp h name)
  rw [Value.record?, if_pos hunique]

theorem lookup_singleton (name key : String) (v : Value) :
    [(name, v)].lookup key = if key = name then some v else none := by
  by_cases h : key = name
  · simp [h]
  · simp [List.lookup_cons, h, beq_eq_false_iff_ne.mpr h]

theorem lookup_unlessEmpty (name key : String) (v : Value) (empty : Bool) :
    (unlessEmpty name v empty).lookup key =
      if key = name then if empty then none else some v else none := by
  cases empty with
  | true => simp [unlessEmpty]
  | false => exact lookup_singleton name key v

@[simp]
theorem filled_some (decode : Value → Option α) (v : Value) : filled decode (some v) = decode v :=
  rfl

@[simp]
theorem filledOr_some (default : α) (decode : Value → Option α) (v : Value) :
    filledOr default decode (some v) = decode v := rfl

/-- A member that is left out is read as what it would have held. -/
theorem filledOr_unless {default x : α} {decode : Value → Option α} {v : Value} {p : Prop}
    [Decidable p] (hv : decode v = some x) (hdefault : p → x = default) :
    filledOr default decode (if p then none else some v) = some x := by
  by_cases h : p
  · rw [if_pos h, hdefault h]
    rfl
  · rw [if_neg h]
    exact hv

@[simp]
theorem Value.string?_string (s : String) : (Value.string s).string? = some s := rfl

@[simp]
theorem Value.word?_string (ofWord? : String → Option α) (word : String) :
    (Value.string word).word? ofWord? = ofWord? word := rfl

@[simp]
theorem Value.bool?_bool (b : Bool) : (Value.bool b).bool? = some b := rfl

@[simp]
theorem Value.uint16?_toNat (n : UInt16) :
    (Value.number (.natural n.toNat)).uint16? = some n := by
  have hn : n.toNat < 65536 := n.toNat_lt
  rw [Value.uint16?, if_pos hn]
  simp

theorem Value.list?_map {β : Type} {encode : β → Value} {decode : Value → Option β}
    (h : ∀ x, decode (encode x) = some x) (xs : List β) :
    (Value.array (xs.map encode)).list? decode = some xs := by
  rw [Value.list?, List.mapM_map]
  induction xs with
  | nil => rfl
  | cons x xs ih => simp [List.mapM_cons, h, ih]

@[simp]
theorem list?_strings (xs : List String) : (strings xs).list? Value.string? = some xs :=
  Value.list?_map Value.string?_string xs

@[simp]
theorem filledOr_unless_string (s : String) :
    filledOr "" Value.string? (if s = "" then none else some (.string s)) = some s :=
  filledOr_unless (Value.string?_string s) id

@[simp]
theorem filledOr_unless_strings (xs : List String) :
    filledOr [] (Value.list? Value.string?) (if xs = [] then none else some (strings xs)) =
      some xs :=
  filledOr_unless (list?_strings xs) id

end Records

end Json

section OptionalStrings

theorem lookup_optionalString (name key : String) (s? : Option String) :
    (optionalString name s?).lookup key = if key = name then s?.map .string else none := by
  cases s? with
  | none => simp [optionalString]
  | some s => exact Json.lookup_singleton name key (.string s)

@[simp]
theorem filledOr_map_string (s? : Option String) :
    filledOr none (Value.nullable? Value.string?) (s?.map .string) = some s? := by
  cases s? <;> rfl

end OptionalStrings

namespace Shape

/-- The parts of a shape that is written with its kind first and fields behind it, if any. -/
theorem parts?_object {nested : Bool} {kind : String} (hkind : kind ∈ kinds)
    {rest : List (String × Value)} (hrest : rest = [] ∨ ∃ v, rest = [("fields", v)]) :
    parts? nested (.object (("kind", .string kind) :: rest)) =
      some (kind, rest.lookup "fields") := by
  rcases hrest with rfl | ⟨v, rfl⟩ <;> simp [parts?, kindOf?, hkind, List.lookup_cons]

theorem ofJsonWithin?_composite {nested : Bool} {v : Value} {items : List Value}
    (h : parts? nested v = some ("composite", some (.array items))) :
    ofJsonWithin? nested v = (items.mapM fieldOfJson?).map .composite := by
  have hattach : items.attach.mapM (fun item => fieldOfJson? item.1) = items.mapM fieldOfJson? := by
    conv_rhs => rw [← List.attach_map_subtype_val items, List.mapM_map]
    rfl
  rw [ofJsonWithin?]
  split
  · next items' hparts =>
    rw [h] at hparts
    obtain rfl : items = items' := by simpa using hparts
    rw [hattach]
    cases items.mapM fieldOfJson? <;> rfl
  · next hother hparts =>
    rw [h] at hparts
    obtain ⟨-, rfl⟩ := Prod.mk.inj (Option.some.inj hparts)
    exact absurd rfl (hother items)
  · next hother hparts =>
    rw [h] at hparts
    obtain ⟨rfl, -⟩ := Prod.mk.inj (Option.some.inj hparts)
    exact absurd rfl hother
  · next hparts =>
    rw [h] at hparts
    cases hparts

theorem ofJsonWithin?_of_kind {nested : Bool} {v : Value} {kind : String} {fields : Option Value}
    (h : parts? nested v = some (kind, fields)) (hkind : kind ≠ "composite") :
    ofJsonWithin? nested v = ofKind? kind := by
  rw [ofJsonWithin?]
  split
  · next hparts =>
    rw [h] at hparts
    exact absurd (Prod.mk.inj (Option.some.inj hparts)).1 hkind
  · next hparts =>
    rw [h] at hparts
    exact absurd (Prod.mk.inj (Option.some.inj hparts)).1 hkind
  · next hparts =>
    rw [h] at hparts
    rw [(Prod.mk.inj (Option.some.inj hparts)).1]
  · next hparts =>
    rw [h] at hparts
    cases hparts

theorem fieldOfJson?_of_record {v shape : Value} {name ty metadata : Option Value}
    (h : v.record? ["name", "ty", "shape", "meta"] = some [name, ty, some shape, metadata]) :
    fieldOfJson? v = do
      let name ← filled Value.string? name
      let ty ← filled Value.string? ty
      let shape ← ofJsonWithin? true shape
      let metadata ← filledOr none (Value.nullable? Value.string?) metadata
      return ⟨name, ty, shape, metadata⟩ := by
  rw [fieldOfJson?]
  split
  · next hrecord =>
    rw [h] at hrecord
    simp only [Option.some.injEq, List.cons.injEq, and_true] at hrecord
    obtain ⟨rfl, rfl, rfl, rfl⟩ := hrecord
    rfl
  · next hrecord => exact absurd h (hrecord _ _ _ _)

/-- A shape without fields is written as its kind. -/
theorem ofJsonWithin?_kind (nested : Bool) (shape : Shape) (hkind : shape.kind ∈ kinds)
    (hcomposite : shape.kind ≠ "composite") (hshape : ofKind? shape.kind = some shape) :
    ofJsonWithin? nested (.object [("kind", .string shape.kind)]) = some shape := by
  rw [ofJsonWithin?_of_kind (parts?_object hkind (.inl rfl)) hcomposite, hshape]

mutual

theorem ofJsonWithin?_toJson (nested : Bool) : (shape : Shape) →
    ofJsonWithin? nested shape.toJson = some shape
  | .composite fields => by
    have hparts : parts? nested (toJson (.composite fields)) =
        some ("composite", some (.array (fieldsToJson fields))) := by
      rw [toJson, parts?_object (by decide) (.inr ⟨_, rfl⟩)]
      rfl
    rw [ofJsonWithin?_composite hparts, mapM_fieldsToJson fields]
    rfl
  | .scalar => ofJsonWithin?_kind nested .scalar (by decide) (by decide) rfl
  | .scalarSeq => ofJsonWithin?_kind nested .scalarSeq (by decide) (by decide) rfl
  | .sequence => ofJsonWithin?_kind nested .sequence (by decide) (by decide) rfl
  | .map => ofJsonWithin?_kind nested .map (by decide) (by decide) rfl
  | .context => ofJsonWithin?_kind nested .context (by decide) (by decide) rfl
  | .error => ofJsonWithin?_kind nested .error (by decide) (by decide) rfl

theorem fieldOfJson?_toJson : (field : Field) → fieldOfJson? (fieldToJson field) = some field
  | ⟨name, ty, shape, metadata⟩ => by
    have hrecord : (fieldToJson ⟨name, ty, shape, metadata⟩).record?
        ["name", "ty", "shape", "meta"] =
        some [some (.string name), some (.string ty), some shape.toJson,
          metadata.map .string] := by
      unfold fieldToJson
      rw [Value.record?_of_nodup]
      · cases metadata <;> simp [List.lookup_cons]
      · cases metadata <;> simp
    rw [fieldOfJson?_of_record hrecord, ofJsonWithin?_toJson true shape]
    simp

theorem mapM_fieldsToJson : (fields : List Field) →
    (fieldsToJson fields).mapM fieldOfJson? = some fields
  | [] => rfl
  | field :: rest => by
    rw [fieldsToJson, List.mapM_cons, fieldOfJson?_toJson field, mapM_fieldsToJson rest]
    rfl

end

mutual

theorem isPlain_toJson : (shape : Shape) → shape.toJson.isPlain = true
  | .composite fields => by
    simp [toJson, Value.isPlain, Value.havePlain, arePlain_fieldsToJson fields]
  | .scalar | .scalarSeq | .sequence | .map | .context | .error => rfl

theorem isPlain_fieldToJson : (field : Field) → (fieldToJson field).isPlain = true
  | ⟨name, ty, shape, metadata⟩ => by
    unfold fieldToJson
    cases metadata <;> simp [Value.isPlain, Value.havePlain, isPlain_toJson shape]

theorem arePlain_fieldsToJson : (fields : List Field) →
    Value.arePlain (fieldsToJson fields) = true
  | [] => rfl
  | field :: rest => by
    simp [fieldsToJson, Value.arePlain, isPlain_fieldToJson field, arePlain_fieldsToJson rest]

end

theorem ofJson?_toJson (shape : Shape) : ofJson? shape.toJson = some shape := by
  have hform := Value.isWellFormed_of_isPlain _ (isPlain_toJson shape)
  rw [ofJson?, if_pos hform, ofJsonWithin?_toJson]

end Shape

namespace Argument

theorem ofJson?_toJson (a : Argument) : ofJson? a.toJson = some a := by
  unfold toJson ofJson?
  rw [Value.record?_of_nodup (by simp)]
  simp [List.lookup_cons, Shape.ofJson?_toJson]

end Argument

namespace ReturnValue

theorem ofJson?_toJson (r : ReturnValue) : ofJson? r.toJson = some r := by
  unfold toJson ofJson?
  rw [Value.record?_of_nodup (by simp)]
  simp [List.lookup_cons, Shape.ofJson?_toJson]

end ReturnValue

namespace Method

theorem ofJson?_toJson (m : Method) : ofJson? m.toJson = some m := by
  unfold toJson ofJson?
  rw [Value.record?_of_nodup (by simp)]
  simp [List.lookup_cons, Value.list?_map Argument.ofJson?_toJson,
    Value.list?_map ReturnValue.ofJson?_toJson]

end Method

namespace Interface

theorem ofJson?_toJson (i : Interface) : ofJson? i.toJson = some i := by
  unfold toJson ofJson?
  rw [Value.record?_of_nodup (by simp)]
  simp [List.lookup_cons, Value.list?_map Method.ofJson?_toJson]

end Interface

namespace Parameter

theorem ofJson?_toJson (p : Parameter) : ofJson? p.toJson = some p := by
  unfold toJson ofJson?
  rw [Value.record?_of_nodup]
  · simp [List.lookup_append, List.lookup_cons, lookup_optionalString, Json.lookup_unlessEmpty,
      Location.ofWord?_word]
  · cases decide (p.description = "") <;> cases p.field <;> simp [unlessEmpty, optionalString]

end Parameter

namespace Binding

theorem ofJson?_toJson (b : Binding) : ofJson? b.toJson = some b := by
  unfold toJson ofJson?
  rw [Value.record?_of_nodup (by simp)]
  simp [List.lookup_cons, Argument.ofJson?_toJson, Value.list?_map Parameter.ofJson?_toJson]

end Binding

namespace RequestBody

theorem ofJson?_toJson (b : RequestBody) : ofJson? b.toJson = some b := by
  cases b with
  | synthesized => decide
  | field argument => simp [toJson, ofJson?, List.lookup_cons, Kind.ofWord?, ofParts?]
  | none => decide

end RequestBody

namespace Request

theorem ofJson?_toJson (r : Request) : ofJson? r.toJson = some r := by
  unfold toJson ofJson?
  rw [Value.record?_of_nodup (by simp)]
  simp [List.lookup_cons, RequestBody.ofJson?_toJson, Value.list?_map Binding.ofJson?_toJson]

end Request

namespace Response

theorem ofJson?_toJson (r : Response) : ofJson? r.toJson = some r := by
  unfold toJson ofJson?
  rw [Value.record?_of_nodup]
  · simp [List.lookup_cons, lookup_optionalString]
  · cases r.bodyField <;> simp [optionalString]

end Response

namespace Operation

theorem ofJson?_toJson (o : Operation) : ofJson? o.toJson = some o := by
  unfold toJson ofJson?
  rw [Value.record?_of_nodup]
  · simp [List.lookup_append, List.lookup_cons, Json.lookup_unlessEmpty, HttpMethod.ofToken?_token,
      Request.ofJson?_toJson, Response.ofJson?_toJson]
  · cases o.tags.isEmpty <;> cases decide (o.description = "") <;> simp [unlessEmpty]

end Operation

namespace SpecMeta

theorem ofJson?_toJson (m : SpecMeta) : ofJson? m.toJson = some m := by
  unfold toJson ofJson?
  rw [Value.record?_of_nodup]
  · simp [List.lookup_append, List.lookup_cons, Json.lookup_unlessEmpty]
  · cases m.tags.isEmpty <;> cases decide (m.description = "") <;> simp [unlessEmpty]

end SpecMeta

namespace Specification

theorem ofJson?_toJson (s : Specification) : ofJson? s.toJson = some s := by
  unfold toJson ofJson?
  rw [Value.record?_of_nodup (by simp)]
  simp [List.lookup_cons, SpecMeta.ofJson?_toJson, Value.list?_map Operation.ofJson?_toJson]

end Specification

end Routespec
