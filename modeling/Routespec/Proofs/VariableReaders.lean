import Routespec.Proofs.PathOutcome

/-!
# Readers of variables

What a plan keeps when a variable comes to be read. The parameter of a field moves to the path and
is otherwise as it was. The parameters of an argument give way to one, which has the type of the
argument, whatever type was asked for, and the description of the first of them. Where several
fields have the wire name of the variable the first one decides, even if it is read elsewhere.
-/

namespace Routespec

/-- The parameter has come to read the variable, with all else as it was. -/
def PlannedParam.Rewritten (v : String) (p q : PlannedParam) : Prop :=
  q.param = { p.param with location := .path, name := v, required := true }

namespace PlannedBinding

variable {v : String} {b : PlannedBinding}

/-- The argument has one parameter, which carries it as a whole under its own type. -/
def CarriesAsIs (b : PlannedBinding) : Prop :=
  ∃ p, b.params = [p] ∧ p.param.ty = b.argument.ty ∧ p.param.repeated = false ∧
    p.param.field = none

/-- The field of the wire name is free to move to the path. -/
def isFreeField (v : String) (p : PlannedParam) : Bool :=
  feedsField v p && !p.explicit && p.shape = .scalar

theorem isFreeField_iff {p : PlannedParam} : isFreeField v p = true ↔
    feedsField v p = true ∧ p.explicit = false ∧ p.shape = .scalar := by
  simp [isFreeField, and_assoc]

/-- The reader of an argument is its one parameter rewritten, if that one carries the argument as a
whole under its own type. -/
theorem rewritten_pathReader_iff {p : PlannedParam} (hparams : b.params = [p]) :
    p.Rewritten v (b.pathReader v) ↔
      p.param.ty = b.argument.ty ∧ p.param.repeated = false ∧ p.param.field = none := by
  rw [PlannedParam.Rewritten, eq_comm]
  simp [pathReader, Parameter.plain, hparams]

end PlannedBinding

namespace Inference

variable {inf : Inference} {arg : Argument} {groups : List ParamOptions} {b : PlannedBinding}

/-- A scalar that a directive names has one parameter for each group of options, or one without
options, with the type and the description given there. -/
theorem requested_scalar (h : inf.requested arg groups = .ok b) (hshape : arg.shape = .scalar) :
    b.argument = arg ∧ List.Forall₂ (fun group p => p.param.ty = group.ty.getD arg.ty ∧
      p.param.description = group.description.getD "" ∧ p.param.repeated = false ∧
      p.param.field = none) (if groups = [] then [{}] else groups) b.params := by
  obtain ⟨params, hparams, rfl⟩ := map_eq_ok.mp h
  obtain ⟨fields, hfields, -⟩ | ⟨-, -, hparams⟩ := requestedParams_cases hparams
  · rw [hshape] at hfields
    cases hfields
  · refine ⟨rfl, (mapM_eq_ok.mp hparams).imp fun group p hp => ?_⟩
    obtain ⟨_, -, rfl⟩ := map_eq_ok.mp (groupParam_eq_ok hp)
    exact ⟨rfl, rfl, by simp [hshape, Shape.isRepeated], rfl⟩

/-- Of the options for a scalar, its reader from the path keeps the first description. -/
theorem description_pathReader (h : inf.requested arg groups = .ok b)
    (hshape : arg.shape = .scalar) (v : String) :
    (b.pathReader v).param.description = (groups.head?.bind (·.description)).getD "" := by
  obtain ⟨-, hparams⟩ := requested_scalar h hshape
  cases groups with
  | nil =>
    obtain ⟨p, rest, ⟨-, hdescription, -⟩, -, hb⟩ := List.forall₂_cons_left_iff.mp hparams
    simp [PlannedBinding.pathReader, hb, hdescription]
  | cons group groups =>
    obtain ⟨p, rest, ⟨-, hdescription, -⟩, -, hb⟩ := List.forall₂_cons_left_iff.mp hparams
    simp [PlannedBinding.pathReader, hb, hdescription]

/-- Reading a scalar from the path in place takes one group of options that leaves its type
alone. -/
theorem carriesAsIs_iff (h : inf.requested arg groups = .ok b) (hshape : arg.shape = .scalar) :
    b.CarriesAsIs ↔
      groups.length ≤ 1 ∧ ∀ group ∈ groups, group.ty.getD arg.ty = arg.ty := by
  obtain ⟨rfl, hparams⟩ := requested_scalar h hshape
  rcases groups with - | ⟨group, - | ⟨second, rest⟩⟩
  · obtain ⟨p, rest, ⟨hty, -, hplain⟩, hrest, hb⟩ := List.forall₂_cons_left_iff.mp hparams
    cases hrest
    exact iff_of_true ⟨p, hb, hty, hplain⟩ (by simp)
  · obtain ⟨p, rest, ⟨hty, -, hplain⟩, hrest, hb⟩ := List.forall₂_cons_left_iff.mp hparams
    cases hrest
    simp [PlannedBinding.CarriesAsIs, hb, hty, hplain]
  · refine iff_of_false ?_ (by simp)
    rintro ⟨p, hb, -⟩
    have hlength := hparams.length_eq
    simp [hb] at hlength

end Inference

namespace Plan

open PlannedBinding

variable {naming : Naming} {v : String} {plan plan' : Plan}

/-- One parameter at most has come to read the variable, and nothing else has changed. -/
inductive RewrittenInPlace (v : String) (plan : Plan) : Plan → Prop
  | unchanged : RewrittenInPlace v plan plan
  | rewritten {i j : Nat} {b : PlannedBinding} {p q : PlannedParam} (hb : plan[i]? = some b)
      (hp : b.params[j]? = some p) (hq : p.Rewritten v q) :
      RewrittenInPlace v plan (plan.set i { b with params := b.params.set j q })

/-- A binding is as it was, or else one of its parameters has come to read the variable. -/
theorem RewrittenInPlace.binding (h : plan.RewrittenInPlace v plan') {i : Nat}
    {b b' : PlannedBinding} (hb : plan[i]? = some b) (hb' : plan'[i]? = some b') :
    b' = b ∨ ∃ j p q, b.params[j]? = some p ∧ p.Rewritten v q ∧
      b' = { b with params := b.params.set j q } := by
  cases h with
  | unchanged => exact .inl (Option.some.inj (hb'.symm.trans hb))
  | @rewritten k j c p q hc hp hq =>
    rcases (getElem?_set_eq_some hc).mp hb' with ⟨rfl, rfl⟩ | ⟨-, hother⟩
    · obtain rfl : b = c := Option.some.inj (hb.symm.trans hc)
      exact .inr ⟨j, p, q, hp, hq, rfl⟩
    · exact .inl (Option.some.inj (hother.symm.trans hb))

/-- An argument is read from the variable in place if it has one parameter, under its own type. -/
theorem rewrittenInPlace_argument_iff {i : Nat} {b : PlannedBinding} (hb : plan[i]? = some b) :
    plan.RewrittenInPlace v (plan.set i { b with params := [b.pathReader v] }) ↔
      b.CarriesAsIs := by
  constructor
  · intro h
    obtain ⟨hi, -⟩ := List.getElem?_eq_some_iff.mp hb
    rcases h.binding hb (List.getElem?_set_self hi) with heq | ⟨j, p, q, hp, hq, heq⟩
    · exact ⟨b.pathReader v, (congrArg PlannedBinding.params heq).symm, rfl, rfl, rfl⟩
    · have hset : [b.pathReader v] = b.params.set j q := congrArg PlannedBinding.params heq
      -- what becomes a single parameter when one is replaced is a single parameter
      obtain ⟨p', hparams⟩ : ∃ p', b.params = [p'] := by
        rw [← List.length_eq_one_iff, ← List.length_set (i := j) (a := q), ← hset]
        rfl
      rw [hparams, List.getElem?_singleton] at hp
      obtain ⟨rfl, rfl⟩ : j = 0 ∧ p' = p := by simpa using hp
      rw [hparams, List.set_cons_zero, List.singleton_inj] at hset
      exact ⟨p', hparams, (rewritten_pathReader_iff hparams).mp (hset ▸ hq)⟩
  · rintro ⟨p, hparams, hsame⟩
    have hp : b.params[0]? = some p := by simp [hparams]
    have hread : p.Rewritten v (b.pathReader v) := (rewritten_pathReader_iff hparams).mpr hsame
    have h := RewrittenInPlace.rewritten hb hp hread
    rwa [hparams, List.set_cons_zero] at h

/-- The parameter of a field is read from the variable in place. -/
theorem rewrittenInPlace_field {i j : Nat} {b : PlannedBinding} {p : PlannedParam}
    (hb : plan[i]? = some b) (hp : b.params[j]? = some p) (hname : p.param.name = v) :
    plan.RewrittenInPlace v (plan.set i { b with params := b.params.set j p.onPath }) := by
  subst hname
  exact .rewritten hb hp rfl

/-- The first argument that the variable is named for, with its place in the plan. -/
def NamedAt (naming : Naming) (v : String) (plan : Plan) (i : Nat) (b : PlannedBinding) : Prop :=
  plan.findIdx? (·.isNamed naming v) = some i ∧ plan[i]? = some b

/-- What a plan keeps of the options that were given, when a variable comes to be read. -/
structure ReadingKeeps (naming : Naming) (v : String) (plan plan' : Plan) : Prop where
  /-- The variable is read in place, unless it is read from an argument that has several parameters
  or one of another type. -/
  inPlace_iff : plan.RewrittenInPlace v plan' ↔
    v ∈ plan.explicitPathNames ∨ ∀ i b, plan.NamedAt naming v i b → b.CarriesAsIs
  /-- The parameters of an argument become one of the argument's type. -/
  argument : v ∉ plan.explicitPathNames → ∀ i b, plan.NamedAt naming v i b →
    plan' = plan.set i { b with params := [b.pathReader v] }
  /-- That one keeps the first description that a directive gave, and no type or second group. -/
  options : v ∉ plan.explicitPathNames → ∀ i b, plan.NamedAt naming v i b →
    ∀ inf groups, Inference.requested inf b.argument groups = .ok b →
      (b.pathReader v).param.description = (groups.head?.bind (·.description)).getD "" ∧
      (b.CarriesAsIs ↔ groups.length ≤ 1 ∧
        ∀ group ∈ groups, group.ty.getD b.argument.ty = b.argument.ty)

theorem NamedAt.unique {i k : Nat} {b c : PlannedBinding} (h : plan.NamedAt naming v i b)
    (h' : plan.NamedAt naming v k c) : k = i ∧ c = b := by
  obtain rfl : i = k := Option.some.inj (h.1.symm.trans h'.1)
  exact ⟨rfl, Option.some.inj (h'.2.symm.trans h.2)⟩

/-- Where no argument is named for the variable, all options are kept. -/
theorem ReadingKeeps.of_unnamed (hnone : plan.findIdx? (·.isNamed naming v) = none)
    (hread : plan.RewrittenInPlace v plan') : ReadingKeeps naming v plan plan' := by
  have hnot {i : Nat} {b : PlannedBinding} : ¬ plan.NamedAt naming v i b := by
    simp [NamedAt, hnone]
  refine ⟨iff_of_true hread (.inr ?_), fun _ => ?_, fun _ => ?_⟩
  · exact fun _ _ hat => absurd hat hnot
  · exact fun _ _ hat => absurd hat hnot
  · exact fun _ _ hat => absurd hat hnot

/-- Of the options for an argument that is read as a whole, those of its reader are kept. -/
theorem ReadingKeeps.of_argument (hvar : v ∉ plan.explicitPathNames) {i : Nat}
    {b : PlannedBinding} (hat : plan.NamedAt naming v i b) (hshape : b.argument.shape = .scalar) :
    ReadingKeeps naming v plan (plan.set i { b with params := [b.pathReader v] }) := by
  refine ⟨?_, ?_, ?_⟩
  · rw [rewrittenInPlace_argument_iff hat.2]
    constructor
    · intro hsame
      refine .inr fun k c hat' => ?_
      rw [(hat.unique hat').2]
      exact hsame
    · rintro (hread | hsame)
      · exact absurd hread hvar
      · exact hsame i b hat
  · intro _ k c hat'
    obtain ⟨rfl, rfl⟩ := hat.unique hat'
    rfl
  · intro _ k c hat' inf groups hmade
    obtain ⟨rfl, rfl⟩ := hat.unique hat'
    exact ⟨Inference.description_pathReader hmade hshape v,
      Inference.carriesAsIs_iff hmade hshape⟩

/-- A field comes to be read from a variable in place, and so does an argument with one parameter
under its own type. Any other argument loses the type that was asked for, and all parameters but
one. -/
theorem readingKeeps_of_bindVariable (h : plan.bindVariable naming v = .ok plan') :
    ReadingKeeps naming v plan plan' := by
  rcases bindVariable_eq_ok.mp h with ⟨hvar, rfl⟩ | ⟨hvar, hgrants, rfl⟩
  · refine ⟨iff_of_true .unchanged (.inl hvar), fun hnot => ?_, fun hnot => ?_⟩
    · exact absurd hvar hnot
    · exact absurd hvar hnot
  cases hnamed : plan.findIdx? (·.isNamed naming v) with
  | none =>
    rw [hnamed] at hgrants
    obtain ⟨i, j, b, p, hidx, hb, hp, -⟩ := hgrants
    obtain ⟨-, hname⟩ := fed_of_fieldIdx? hidx hb hp
    rw [claimed_field hidx hb hp]
    exact .of_unnamed hnamed (rewrittenInPlace_field hb hp hname)
  | some i =>
    rw [hnamed] at hgrants
    obtain ⟨b, hb, -, hshape, -⟩ := hgrants
    rw [claimed_argument hb]
    exact .of_argument hvar ⟨hnamed, hb⟩ hshape

end Plan

/-- An argument with a type and a description of its own. -/
def typedUser : PlannedBinding where
  argument := ⟨"userID", "string", .scalar⟩
  params := [⟨⟨.body, "user_id", "uuid", false, false, "the user", none⟩, false, .scalar⟩]
  manual := true
  blank := false

namespace Plan

open PlannedBinding

theorem readingKeeps_of_typedUser :
    Inference.requested ⟨.snakeCase, .body, ["userID"]⟩ typedUser.argument
      [{ ty := some "uuid", description := some "the user" }] = .ok typedUser ∧
    bindVariable .snakeCase "userID" [typedUser] =
      .ok [{ typedUser with params := [typedUser.pathReader "userID"] }] ∧
    ReadingKeeps .snakeCase "userID" [typedUser]
      [{ typedUser with params := [typedUser.pathReader "userID"] }] := by
  have hbound : bindVariable .snakeCase "userID" [typedUser] =
      .ok [{ typedUser with params := [typedUser.pathReader "userID"] }] := by decide +kernel
  exact ⟨by decide +kernel, hbound, readingKeeps_of_bindVariable hbound⟩

/-- Not every variable comes to be read in place: the type that was asked for is lost. -/
theorem not_rewrittenInPlace : ¬ ∀ (naming : Naming) (v : String) (plan plan' : Plan),
    plan.bindVariable naming v = .ok plan' → plan.RewrittenInPlace v plan' := by
  intro h
  have hbound : bindVariable .snakeCase "userID" [typedUser] =
      .ok [{ typedUser with params := [typedUser.pathReader "userID"] }] := by decide +kernel
  have hsame : typedUser.CarriesAsIs :=
    (rewrittenInPlace_argument_iff (i := 0) rfl).mp (h _ _ _ _ hbound)
  obtain ⟨p, hparams, hty, -⟩ := hsame
  obtain rfl := List.singleton_inj.mp hparams
  exact absurd hty (by decide)

variable {naming : Naming} {v : String} {plan : Plan} {accepts accepts' : PlannedParam → Bool}

/-- The first that is accepted is the first that is accepted under a stricter condition which it
meets. -/
theorem firstField?_of_imp {i j : Nat} {b : PlannedBinding} {p : PlannedParam}
    (h : plan.firstField? accepts = some (i, j)) (hb : plan[i]? = some b)
    (hp : b.params[j]? = some p) (haccepts' : accepts' p = true)
    (himp : ∀ q, accepts' q = true → accepts q = true) :
    plan.firstField? accepts' = some (i, j) := by
  have hnot {q : PlannedParam} (hq : accepts q = false) : accepts' q = false := by
    by_contra hq'
    rw [himp q (by simpa using hq')] at hq
    cases hq
  obtain ⟨c, q, hc, hq, hblank, -, hbefore, hfirst⟩ := firstField?_eq_some.mp h
  obtain rfl : c = b := Option.some.inj (hc.symm.trans hb)
  obtain rfl : q = p := Option.some.inj (hq.symm.trans hp)
  exact firstField?_eq_some.mpr ⟨c, q, hc, hq, hblank, haccepts',
    fun k c hk hc hblank r hr => hnot (hbefore k c hk hc hblank r hr),
    fun l r hl hr => hnot (hfirst l r hl hr)⟩

/-- A variable that nothing is asked for under and no argument is named for is read from the first
field of its wire name, if that one is free. So where some field is free, the first such comes to
be read exactly if there is no field of the wire name before it that is read elsewhere or takes
more than a scalar; and then nothing else changes. -/
theorem bindVariable_field_iff (hvar : v ∉ plan.explicitPathNames)
    (hnamed : ∀ b ∈ plan, b.isNamed naming v = false)
    (hfree : ∃ b ∈ plan, b.blank = false ∧ ∃ p ∈ b.params, isFreeField v p = true) :
    ∃ i j b p, plan.firstField? (isFreeField v) = some (i, j) ∧ plan[i]? = some b ∧
      b.params[j]? = some p ∧ ∀ plan', plan.bindVariable naming v = .ok plan' ↔
        plan.firstField? (feedsField v) = some (i, j) ∧
          plan' = plan.set i { b with params := b.params.set j p.onPath } := by
  obtain ⟨i, j, hij⟩ := exists_firstField? hfree
  obtain ⟨b, p, hb, hp, -, hfits, -⟩ := firstField?_eq_some.mp hij
  obtain ⟨hfeeds, hexplicit, hshape⟩ := isFreeField_iff.mp hfits
  refine ⟨i, j, b, p, hij, hb, hp, fun plan' => ?_⟩
  have hnone : plan.findIdx? (·.isNamed naming v) = none := by
    simpa [List.findIdx?_eq_none_iff] using hnamed
  rw [bindVariable_eq_ok, hnone]
  simp only [hvar, false_and, false_or, not_false_eq_true, true_and]
  constructor
  · rintro ⟨⟨k, l, c, q, hidx, hc, hq, hscalar, hfield⟩, rfl⟩
    obtain ⟨hfed, hname⟩ := fed_of_fieldIdx? hidx hc hq
    rw [fieldIdx?_eq_firstField?] at hidx
    -- the first field of the name is free, so it is the first free one as well
    have hfirst : plan.firstField? (isFreeField v) = some (k, l) := by
      refine firstField?_of_imp hidx hc hq ?_ fun r hr => (isFreeField_iff.mp hr).1
      exact isFreeField_iff.mpr ⟨by simp [feedsField, hfed, hname], hfield, hscalar⟩
    obtain ⟨rfl, rfl⟩ : i = k ∧ j = l := by simpa [hij] using hfirst
    exact ⟨hidx, claimed_field hidx hb hp⟩
  · rintro ⟨hidx, rfl⟩
    exact ⟨⟨i, j, b, p, hidx, hb, hp, hshape, hexplicit⟩, (claimed_field hidx hb hp).symm⟩

end Plan

/-- A composite argument with two fields of one wire name, of which the first is free. -/
def numberedItem : PlannedBinding where
  argument := ⟨"item", "Item", .composite [⟨"ItemID", "string", .scalar, none⟩,
    ⟨"Alias", "string", .scalar, some "in=query name=item_id"⟩]⟩
  params :=
    [⟨⟨.body, "item_id", "string", false, false, "", some "ItemID"⟩, false, .scalar⟩,
      ⟨⟨.query, "item_id", "string", false, false, "", some "Alias"⟩, true, .scalar⟩]
  manual := true
  blank := false

/-- The same argument with its fields in the other order. -/
def aliasedItem : PlannedBinding where
  argument := ⟨"item", "Item", .composite [⟨"Alias", "string", .scalar,
    some "in=query name=item_id"⟩, ⟨"ItemID", "string", .scalar, none⟩]⟩
  params := numberedItem.params.reverse
  manual := true
  blank := false

namespace Plan

open PlannedBinding

theorem bindVariable_field_iff_of_numberedItem :
    Inference.implied ⟨.snakeCase, .body, ["item_id"]⟩ numberedItem.argument =
      .ok (some numberedItem) ∧
    ∃ i j b p, firstField? (isFreeField "item_id") [numberedItem] = some (i, j) ∧
      [numberedItem][i]? = some b ∧ b.params[j]? = some p ∧
      ∀ plan', bindVariable .snakeCase "item_id" [numberedItem] = .ok plan' ↔
        firstField? (feedsField "item_id") [numberedItem] = some (i, j) ∧
          plan' = [numberedItem].set i { b with params := b.params.set j p.onPath } :=
  ⟨by decide +kernel, bindVariable_field_iff (by decide) (by decide) (by decide)⟩

/-- A free field does not always come to be read: one of its wire name that is read elsewhere
may come first. -/
theorem freeField_unread : ¬ ∀ (naming : Naming) (v : String) (plan : Plan),
    v ∉ plan.explicitPathNames → (∀ b ∈ plan, b.isNamed naming v = false) →
    (∃ b ∈ plan, b.blank = false ∧ ∃ p ∈ b.params, isFreeField v p = true) →
    ∃ i j b p, plan.firstField? (isFreeField v) = some (i, j) ∧ plan[i]? = some b ∧
      b.params[j]? = some p ∧ plan.bindVariable naming v =
        .ok (plan.set i { b with params := b.params.set j p.onPath }) := by
  intro h
  have hstops : bindVariable .snakeCase "item_id" [aliasedItem] =
      fail (.fieldLocated "item_id" "Alias" "item" .query) := by decide +kernel
  obtain ⟨i, j, b, p, -, -, -, hbound⟩ :=
    h .snakeCase "item_id" [aliasedItem] (by decide) (by decide) (by decide)
  exact fail_ne_ok (hstops.symm.trans hbound)

end Plan

end Routespec
