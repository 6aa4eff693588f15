import Mathlib.Logic.Relation
import Routespec.Proofs.Inference

/-!
# Binding path variables

What binding a variable does to a plan: nothing if some parameter is explicitly read from it, or
else one binding of an argument comes to read it. `Binds` says so for the plan as a whole, `ReadBy`
for the binding that changes.
-/

namespace Routespec

/-- The parameter moved to the path. -/
def PlannedParam.onPath (p : PlannedParam) : PlannedParam :=
  { p with param := { p.param with location := .path, required := true } }

namespace PlannedBinding

variable {naming : Naming} {var : String} {b b' : PlannedBinding}

/-- The parameter that reads the argument as a whole from the path. -/
def pathReader (var : String) (b : PlannedBinding) : PlannedParam :=
  ⟨{ Parameter.plain .path var b.argument.ty with
      description := (b.params.head?.map (·.param.description)).getD "" }, false, b.argument.shape⟩

/-- The binding comes to read the variable: the argument as a whole, or one of its fields. -/
inductive ReadBy (var : String) (b : PlannedBinding) : PlannedBinding → Prop
  | argument (hblank : b.blank = false) (hshape : b.argument.shape = .scalar)
      (hpath : ∀ p ∈ b.params, p.explicit = true → p.param.location = .path) :
      ReadBy var b { b with params := [b.pathReader var] }
  | field {i : Nat} {p : PlannedParam} (hblank : b.blank = false) (hp : b.params[i]? = some p)
      (hname : p.param.name = var) (hfield : p.param.field.isSome = true)
      (hshape : p.shape = .scalar) (hexplicit : p.explicit = false) :
      ReadBy var b { b with params := b.params.set i p.onPath }

theorem explicitElsewhere?_eq_none :
    b.explicitElsewhere? = none ↔
      ∀ p ∈ b.params, p.explicit = true → p.param.location = .path := by
  simp [explicitElsewhere?]

theorem readFromPath_eq (b : PlannedBinding) : b.readFromPath var =
    match b.explicitElsewhere? with
    | some location => fail (.argumentLocated var b.argument.name location)
    | none => (Checked.within (.pathParameter var) (b.argument.shape.checkFits .path)).map
        fun _ => { b with params := [b.pathReader var] } := by
  unfold readFromPath
  cases b.explicitElsewhere? with
  | some location => rfl
  | none => cases Checked.within (.pathParameter var) (b.argument.shape.checkFits .path) <;> rfl

theorem readFromPath_eq_ok :
    b.readFromPath var = .ok b' ↔ b.argument.shape = .scalar ∧
      (∀ p ∈ b.params, p.explicit = true → p.param.location = .path) ∧
      b' = { b with params := [b.pathReader var] } := by
  rw [← explicitElsewhere?_eq_none, ← Shape.fits_path, readFromPath_eq]
  cases b.explicitElsewhere? with
  | some location => simp
  | none => simp [map_checkFits_eq_ok]

theorem fieldFromPath_of_free {argument : String} {p : PlannedParam} (h : p.explicit = false) :
    fieldFromPath var argument p =
      (Checked.within (.pathParameter var) (p.shape.checkFits .path)).map fun _ => p.onPath := by
  rw [fieldFromPath, if_neg (by simp [h])]
  cases Checked.within (.pathParameter var) (p.shape.checkFits .path) <;> rfl

theorem fieldFromPath_eq_ok {argument : String} {p p' : PlannedParam} :
    fieldFromPath var argument p = .ok p' ↔
      p.shape = .scalar ∧ p.explicit = false ∧ p' = p.onPath := by
  rw [← Shape.fits_path]
  cases hexplicit : p.explicit with
  | true => simp [fieldFromPath, hexplicit]
  | false => simp [fieldFromPath_of_free hexplicit, map_checkFits_eq_ok]

theorem readFromPath_readBy (hb : b.isNamed naming var = true)
    (h : b.readFromPath var = .ok b') :
    b.ReadBy var b' ∧ b.argument.shape = .scalar ∧
      b' = { b with params := [b.pathReader var] } := by
  obtain ⟨hshape, hpath, rfl⟩ := readFromPath_eq_ok.mp h
  simp only [isNamed, Bool.and_eq_true, Bool.not_eq_true'] at hb
  exact ⟨.argument hb.1 hshape hpath, hshape, rfl⟩

theorem readFieldFromPath_readBy (hb : b.hasField var = true)
    (h : b.readFieldFromPath var = .ok b') :
    ∃ i p, b.ReadBy var b' ∧ b.params[i]? = some p ∧ p.explicit = false ∧
      p.param.name = var ∧ p.param.field.isSome = true ∧
      b' = { b with params := b.params.set i p.onPath } := by
  obtain ⟨params, hparams, rfl⟩ := map_eq_ok.mp h
  simp only [hasField, Bool.and_eq_true, Bool.not_eq_true'] at hb
  obtain ⟨i, p, p', -, hp, hfeeds, hp', rfl⟩ := updateFirst_of_any hb.2 hparams
  obtain ⟨hshape, hexplicit, rfl⟩ := fieldFromPath_eq_ok.mp hp'
  simp only [feedsField, Bool.and_eq_true, decide_eq_true_eq] at hfeeds
  exact ⟨i, p, .field hb.1 hp hfeeds.2 hfeeds.1 hshape hexplicit, hp, hexplicit, hfeeds.2,
    hfeeds.1, rfl⟩

namespace ReadBy

theorem argument_eq (h : b.ReadBy var b') : b'.argument = b.argument := by
  cases h <;> rfl

theorem blank_eq (h : b.ReadBy var b') : b.blank = false ∧ b'.blank = false := by
  cases h <;> exact ⟨‹_›, ‹_›⟩

/-- A parameter that was not there before is read from the path, under the name of the variable. -/
theorem mem_params (h : b.ReadBy var b') {p : PlannedParam} (hp : p ∈ b'.params) :
    p ∈ b.params ∨ (p.param.location = .path ∧ p.param.name = var ∧ p.explicit = false ∧
      p.param.required = true ∧ p.shape = .scalar ∧
      (p.param.repeated = true → ∃ q ∈ b.params, q.shape = p.shape ∧ q.param.repeated = true)) := by
  cases h with
  | argument hblank hshape hpath =>
    obtain rfl := List.mem_singleton.mp hp
    exact .inr ⟨rfl, rfl, rfl, rfl, hshape, by simp [pathReader, Parameter.plain]⟩
  | @field i q hblank hq hname hfield hshape hexplicit =>
    rcases List.mem_or_eq_of_mem_set hp with hp | rfl
    · exact .inl hp
    · exact .inr ⟨rfl, hname, hexplicit, rfl, hshape,
        fun hrep => ⟨q, List.mem_of_getElem? hq, rfl, hrep⟩⟩

theorem sound (h : b.ReadBy var b') (hb : ∀ p ∈ b.params, p.Sound) : ∀ p ∈ b'.params, p.Sound := by
  intro p hp
  rcases h.mem_params hp with hp | ⟨hloc, -, -, hreq, hshape, hrep⟩
  · exact hb p hp
  · refine ⟨by rw [hloc, Shape.fits_path, hshape], fun _ => hreq, fun hp => ?_⟩
    obtain ⟨q, hq, hqp, hqrep⟩ := hrep hp
    rw [← hqp]
    exact (hb q hq).repeated hqrep

/-- The parameters still make up the value they made up before. -/
theorem fedBy (h : b.ReadBy var b') (hb : b.argument.shape.FedBy b.params) :
    b'.argument.shape.FedBy b'.params := by
  cases h with
  | argument hblank hshape hpath => simp [hshape, Shape.FedBy, pathReader, Parameter.plain]
  | @field i p hblank hp hname hfield hshape hexplicit =>
    have hsame : List.Forall₂ (fun p q : PlannedParam =>
        q.param.field = p.param.field ∧ q.shape = p.shape) b.params (b.params.set i p.onPath) :=
      forall₂_set (fun _ => ⟨rfl, rfl⟩) hp ⟨rfl, rfl⟩
    exact hb.congr hsame

/-- A binding that is tied to a place other than the path, without a field, stays as it is. -/
theorem not_elsewhere (h : b.ReadBy var b') {p : PlannedParam} (hp : p ∈ b.params)
    (hexplicit : p.explicit = true) (hloc : p.param.location ≠ .path) :
    ∃ q ∈ b.params, q.param.field.isSome = true := by
  cases h with
  | argument hblank hshape hpath => exact absurd (hpath p hp hexplicit) hloc
  | field hblank hq hname hfield => exact ⟨_, List.mem_of_getElem? hq, hfield⟩

end ReadBy

end PlannedBinding

namespace Plan

open PlannedBinding

variable {naming : Naming} {var : String} {plan plan' : Plan}

/-- The plan with the variable bound, in each of the ways this may come about. -/
inductive Binds (naming : Naming) (var : String) (plan : Plan) : Plan → Prop
  /-- The variable is explicitly read already. -/
  | explicit (hvar : var ∈ plan.explicitPathNames) : Binds naming var plan plan
  /-- The first argument that the variable is named for is read from it. -/
  | argument {i : Nat} {b : PlannedBinding} (hvar : var ∉ plan.explicitPathNames)
      (hi : plan.findIdx? (·.isNamed naming var) = some i) (hb : plan[i]? = some b)
      (hshape : b.argument.shape = .scalar)
      (hread : b.ReadBy var { b with params := [b.pathReader var] }) :
      Binds naming var plan (plan.set i { b with params := [b.pathReader var] })
  /-- No argument has the name, and a field is read from the variable. -/
  | field {i j : Nat} {b : PlannedBinding} {p : PlannedParam}
      (hvar : var ∉ plan.explicitPathNames)
      (hnamed : plan.findIdx? (·.isNamed naming var) = none) (hb : plan[i]? = some b)
      (hp : b.params[j]? = some p) (hname : p.param.name = var)
      (hfield : p.param.field.isSome = true) (hexplicit : p.explicit = false)
      (hread : b.ReadBy var { b with params := b.params.set j p.onPath }) :
      Binds naming var plan (plan.set i { b with params := b.params.set j p.onPath })

theorem bindVariable_binds (h : plan.bindVariable naming var = .ok plan') :
    Binds naming var plan plan' := by
  unfold bindVariable at h
  split at h
  · next hvar =>
    obtain rfl := Except.ok.inj h
    exact .explicit hvar
  · next hvar =>
    split at h
    · next hany =>
      obtain ⟨i, b, b', hi, hb, hnamed, hb', rfl⟩ := updateFirst_of_any hany h
      obtain ⟨hread, hshape, rfl⟩ := readFromPath_readBy hnamed hb'
      exact .argument hvar hi hb hshape hread
    · next hnone =>
      split at h
      · next hany =>
        obtain ⟨i, b, b', -, hb, hfield, hb', rfl⟩ := updateFirst_of_any hany h
        obtain ⟨j, p, hread, hp, hexplicit, hname, hfield, rfl⟩ :=
          readFieldFromPath_readBy hfield hb'
        refine .field hvar ?_ hb hp hname hfield hexplicit hread
        simpa [List.findIdx?_eq_none_iff] using hnone
      · exact absurd h fail_ne_ok

/-- Binding a variable changes one binding at most, and nothing else. -/
theorem Binds.forall₂ (h : Binds naming var plan plan') :
    List.Forall₂ (Relation.ReflGen (ReadBy var)) plan plan' := by
  cases h with
  | explicit => exact List.forall₂_same.mpr fun _ _ => .refl
  | argument hvar hi hb hshape hread => exact forall₂_set (fun _ => .refl) hb (.single hread)
  | field hvar hnamed hb hp hname hfield hexplicit hread =>
    exact forall₂_set (fun _ => .refl) hb (.single hread)

end Plan

end Routespec
