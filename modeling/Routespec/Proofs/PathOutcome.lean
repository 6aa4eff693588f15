import Routespec.Proofs.PathClaims

/-!
# What path variables make of a plan

Binding all variables has a closed form: each argument is read from the variable that claims it
last, each field that is claimed is read from the path, and all else stays as it is. It succeeds if
whatever is claimed can be read from a path. The order of the variables enters through their claims
alone.
-/

namespace Routespec

section Lists

variable {α : Type}

theorem updateFirst_eq_ok {p : α → Bool} {f : α → Checked α} {xs ys : List α} {i : Nat} {x : α}
    (hi : xs.findIdx? p = some i) (hx : xs[i]? = some x) :
    updateFirst p f xs = .ok ys ↔ ∃ y, f x = .ok y ∧ ys = xs.set i y := by
  induction xs generalizing i ys with
  | nil => simp at hi
  | cons a xs ih =>
    rw [List.findIdx?_cons] at hi
    rw [updateFirst]
    by_cases ha : p a = true
    · rw [if_pos ha] at hi ⊢
      obtain rfl := Option.some.inj hi
      obtain rfl : a = x := by simpa using hx
      rw [map_eq_ok]
      exact exists_congr fun y => and_congr_right fun _ => eq_comm
    · rw [if_neg ha] at hi ⊢
      obtain ⟨k, hk, rfl⟩ := Option.map_eq_some_iff.mp hi
      rw [map_eq_ok]
      constructor
      · rintro ⟨rest, hrest, rfl⟩
        obtain ⟨y, hy, rfl⟩ := (ih hk (by simpa using hx)).mp hrest
        exact ⟨y, hy, rfl⟩
      · rintro ⟨y, hy, rfl⟩
        exact ⟨xs.set k y, (ih hk (by simpa using hx)).mpr ⟨y, hy, rfl⟩, rfl⟩

theorem findIdx?_eq_some_iff {p : α → Bool} {xs : List α} {i : Nat} :
    xs.findIdx? p = some i ↔
      (∃ x, xs[i]? = some x ∧ p x = true) ∧ ∀ k y, k < i → xs[k]? = some y → p y = false := by
  rw [List.findIdx?_eq_some_iff_getElem]
  constructor
  · rintro ⟨hi, hx, hbefore⟩
    refine ⟨⟨_, List.getElem?_eq_getElem hi, hx⟩, fun k y hk hy => ?_⟩
    obtain ⟨_, rfl⟩ := List.getElem?_eq_some_iff.mp hy
    simpa using hbefore k hk
  · rintro ⟨⟨x, hx, hpx⟩, hbefore⟩
    obtain ⟨hi, rfl⟩ := List.getElem?_eq_some_iff.mp hx
    refine ⟨hi, hpx, fun k hk => ?_⟩
    simpa using hbefore k _ hk (List.getElem?_eq_getElem (Nat.lt_trans hk hi))

theorem findIdx?_mapIdx {p : α → Bool} {f : Nat → α → α} (hf : ∀ i x, p (f i x) = p x)
    {xs : List α} : (xs.mapIdx f).findIdx? p = xs.findIdx? p := by
  have hmap : (xs.mapIdx f).map p = xs.map p := by
    refine List.ext_getElem? fun i => ?_
    simp [List.getElem?_mapIdx, Function.comp_def, hf]
  have hid := congrArg (List.findIdx? id) hmap
  rwa [List.findIdx?_map, List.findIdx?_map] at hid

theorem mapIdx_eq_self {f : Nat → α → α} {xs : List α}
    (hf : ∀ i x, xs[i]? = some x → f i x = x) : xs.mapIdx f = xs := by
  refine List.ext_getElem? fun i => ?_
  rw [List.getElem?_mapIdx]
  cases hx : xs[i]? with
  | none => rfl
  | some x => rw [Option.map_some, hf i x hx]

end Lists

namespace Plan

open PlannedBinding

variable {naming : Naming} {v : String} {vars : List String} {plan plan' : Plan}
  {claims : List (String × Option Nat)} {c c' : String × Option Nat}
  {accepts : PlannedParam → Bool}

/-- Where the first field of the variable's wire name is: the places of its binding in the plan and
of its parameter in the binding. -/
def fieldIdx? (v : String) (plan : Plan) : Option (Nat × Nat) := do
  let i ← plan.findIdx? (·.hasField v)
  let b ← plan[i]?
  let j ← b.params.findIdx? (feedsField v)
  return (i, j)

/-- Where the first field is whose parameter is accepted: the places of its binding in the plan and
of the parameter in the binding. -/
def firstField? (accepts : PlannedParam → Bool) (plan : Plan) : Option (Nat × Nat) := do
  let i ← plan.findIdx? fun b => !b.blank && b.params.any accepts
  let b ← plan[i]?
  let j ← b.params.findIdx? accepts
  return (i, j)

/-- The variable that claims an argument last. -/
def lastClaim? : List (String × Option Nat) → Nat → Option String
  | [], _ => none
  | (v, claim) :: later, i =>
    (lastClaim? later i).or (if claim = some i then some v else none)

/-- What is claimed can be read from the path. -/
def Grants (plan : Plan) : String × Option Nat → Prop
  | (_, some i) => ∃ b, plan[i]? = some b ∧ b.blank = false ∧ b.argument.shape = .scalar ∧
      ∀ p ∈ b.params, p.explicit = true → p.param.location = .path
  | (v, none) => ∃ i j b p, plan.fieldIdx? v = some (i, j) ∧ plan[i]? = some b ∧
      b.params[j]? = some p ∧ p.shape = .scalar ∧ p.explicit = false

/-- The parameter at a place, read from the path if it is for a field that is claimed. -/
def claimedParam (plan : Plan) (claims : List (String × Option Nat)) (i j : Nat)
    (p : PlannedParam) : PlannedParam :=
  if (p.param.name, none) ∈ claims ∧ plan.fieldIdx? p.param.name = some (i, j) then p.onPath else p

/-- The parameters of the binding at a place, read from the path as claims have it. -/
def claimedParams (plan : Plan) (claims : List (String × Option Nat)) (i : Nat)
    (b : PlannedBinding) : List PlannedParam :=
  match lastClaim? claims i with
  | some v => [b.pathReader v]
  | none => b.params.mapIdx (plan.claimedParam claims i)

/-- The plan with all claims met. -/
def claimed (plan : Plan) (claims : List (String × Option Nat)) : Plan :=
  plan.mapIdx fun i b => { b with params := plan.claimedParams claims i b }

theorem lastClaim?_eq_none {i : Nat} : lastClaim? claims i = none ↔ some i ∉ claims.map (·.2) := by
  induction claims with
  | nil => simp [lastClaim?]
  | cons c claims ih =>
    obtain ⟨v, claim⟩ := c
    rw [lastClaim?, List.map_cons, List.mem_cons, not_or, ← ih, Option.or_eq_none_iff]
    simp [eq_comm, and_comm]

theorem mem_of_lastClaim? {i : Nat} (h : lastClaim? claims i = some v) :
    some i ∈ claims.map (·.2) := by
  by_contra hi
  rw [lastClaim?_eq_none.mpr hi] at h
  cases h

theorem getElem?_claimed {i : Nat} : (plan.claimed claims)[i]? =
    (plan[i]?).map fun b => { b with params := plan.claimedParams claims i b } :=
  List.getElem?_mapIdx

theorem claimedParams_of_some {i : Nat} {b : PlannedBinding} (h : lastClaim? claims i = some v) :
    plan.claimedParams claims i b = [b.pathReader v] := by
  rw [claimedParams, h]

theorem claimedParams_of_none {i : Nat} {b : PlannedBinding} (h : lastClaim? claims i = none) :
    plan.claimedParams claims i b = b.params.mapIdx (plan.claimedParam claims i) := by
  rw [claimedParams, h]

/-- A field that is claimed keeps its name, its field, its value and who asked for its place. -/
theorem claimedParam_cases (plan : Plan) (claims : List (String × Option Nat)) (i j : Nat)
    (p : PlannedParam) : plan.claimedParam claims i j p = p ∨
      (plan.claimedParam claims i j p = p.onPath ∧ (p.param.name, none) ∈ claims ∧
        plan.fieldIdx? p.param.name = some (i, j)) := by
  unfold claimedParam
  split
  · next h => exact .inr ⟨rfl, h⟩
  · exact .inl rfl

/-- A reader that replaces others keeps the description of the first of them. -/
theorem head?_claimedParams {i : Nat} {b : PlannedBinding} :
    (((plan.claimedParams claims i b).head?.map (·.param.description)).getD "") =
      (b.params.head?.map (·.param.description)).getD "" := by
  unfold claimedParams
  split
  · rfl
  · cases hparams : b.params with
    | nil => rfl
    | cons p rest =>
      rcases claimedParam_cases plan claims i 0 p with h | ⟨h, -⟩
      · simp [h]
      · simp [h, PlannedParam.onPath]

theorem fieldIdx?_eq_some {i j : Nat} : plan.fieldIdx? v = some (i, j) ↔
    plan.findIdx? (·.hasField v) = some i ∧
      ∃ b, plan[i]? = some b ∧ b.params.findIdx? (feedsField v) = some j := by
  simp only [fieldIdx?, Option.bind_eq_bind, Option.bind_eq_some_iff, Option.pure_def,
    Option.some.injEq, Prod.mk.injEq]
  constructor
  · rintro ⟨_, hi, b, hb, _, hj, rfl, rfl⟩
    exact ⟨hi, b, hb, hj⟩
  · rintro ⟨hi, b, hb, hj⟩
    exact ⟨i, hi, b, hb, j, hj, rfl, rfl⟩

theorem fieldIdx?_eq_firstField? : plan.fieldIdx? v = plan.firstField? (feedsField v) := rfl

theorem firstField?_eq_some {i j : Nat} : plan.firstField? accepts = some (i, j) ↔
    ∃ b p, plan[i]? = some b ∧ b.params[j]? = some p ∧ b.blank = false ∧ accepts p = true ∧
      (∀ k c, k < i → plan[k]? = some c → c.blank = false → ∀ q ∈ c.params, accepts q = false) ∧
      ∀ l q, l < j → b.params[l]? = some q → accepts q = false := by
  simp only [firstField?, Option.bind_eq_bind, Option.bind_eq_some_iff, Option.pure_def,
    Option.some.injEq, Prod.mk.injEq, findIdx?_eq_some_iff]
  constructor
  · rintro ⟨_, ⟨⟨c, hc, hhas⟩, hbefore⟩, b, hb, _, ⟨⟨p, hp, haccepts⟩, hfirst⟩, rfl, rfl⟩
    obtain rfl : c = b := Option.some.inj (hc.symm.trans hb)
    simp only [Bool.and_eq_true, Bool.not_eq_true'] at hhas
    refine ⟨c, p, hb, hp, hhas.1, haccepts, fun k c hk hc hblank q hq => ?_, hfirst⟩
    have hnone := hbefore k c hk hc
    simp only [hblank, Bool.not_false, Bool.true_and, List.any_eq_false] at hnone
    simpa using hnone q hq
  · rintro ⟨b, p, hb, hp, hblank, haccepts, hbefore, hfirst⟩
    refine ⟨i, ⟨⟨b, hb, ?_⟩, fun k c hk hc => ?_⟩, b, hb, j, ⟨⟨p, hp, haccepts⟩, hfirst⟩, rfl, rfl⟩
    · simpa [hblank] using ⟨p, List.mem_of_getElem? hp, haccepts⟩
    · cases hblank' : c.blank with
      | true => simp
      | false => simpa [hblank'] using hbefore k c hk hc hblank'

theorem exists_firstField? (h : ∃ b ∈ plan, b.blank = false ∧ ∃ p ∈ b.params, accepts p = true) :
    ∃ i j, plan.firstField? accepts = some (i, j) := by
  obtain ⟨b, hb, hblank, p, hp, haccepts⟩ := h
  have hany : plan.any (fun b => !b.blank && b.params.any accepts) = true :=
    List.any_eq_true.mpr ⟨b, hb, by simpa [hblank] using ⟨p, hp, haccepts⟩⟩
  obtain ⟨i, hi⟩ := Option.isSome_iff_exists.mp (List.findIdx?_isSome.trans hany)
  obtain ⟨⟨c, hc, hhas⟩, -⟩ := findIdx?_eq_some_iff.mp hi
  simp only [Bool.and_eq_true] at hhas
  obtain ⟨j, hj⟩ := Option.isSome_iff_exists.mp (List.findIdx?_isSome.trans hhas.2)
  refine ⟨i, j, ?_⟩
  simp [firstField?, hi, hc, hj]

theorem exists_of_fieldIdx? {i j : Nat} (h : plan.fieldIdx? v = some (i, j)) :
    ∃ b p, plan[i]? = some b ∧ b.blank = false ∧ b.params[j]? = some p ∧
      p.param.field.isSome = true ∧ p.param.name = v := by
  rw [fieldIdx?_eq_firstField?] at h
  obtain ⟨b, p, hb, hp, hblank, hfeeds, -⟩ := firstField?_eq_some.mp h
  simp only [feedsField, Bool.and_eq_true, decide_eq_true_eq] at hfeeds
  exact ⟨b, p, hb, hblank, hp, hfeeds.1, hfeeds.2⟩

theorem fed_of_fieldIdx? {i j : Nat} {b : PlannedBinding} {p : PlannedParam}
    (h : plan.fieldIdx? v = some (i, j)) (hb : plan[i]? = some b) (hp : b.params[j]? = some p) :
    p.param.field.isSome = true ∧ p.param.name = v := by
  obtain ⟨b', p', hb', -, hp', hfed⟩ := exists_of_fieldIdx? h
  obtain rfl : b' = b := Option.some.inj (hb'.symm.trans hb)
  obtain rfl : p' = p := Option.some.inj (hp'.symm.trans hp)
  exact hfed

theorem any_hasField_iff : plan.any (·.hasField v) = true ↔
    ∃ i j b p, plan.fieldIdx? v = some (i, j) ∧ plan[i]? = some b ∧ b.params[j]? = some p := by
  constructor
  · intro hany
    obtain ⟨b, hb, hhas⟩ := List.any_eq_true.mp hany
    simp only [hasField, Bool.and_eq_true, Bool.not_eq_true', List.any_eq_true] at hhas
    obtain ⟨i, j, hidx⟩ := exists_firstField? ⟨b, hb, hhas⟩
    obtain ⟨c, q, hc, hq, -⟩ := firstField?_eq_some.mp hidx
    exact ⟨i, j, c, q, hidx, hc, hq⟩
  · rintro ⟨i, j, -, -, hidx, -⟩
    obtain ⟨b, p, hb, hblank, hp, hfield, hname⟩ := exists_of_fieldIdx? hidx
    refine List.any_eq_true.mpr ⟨b, List.mem_of_getElem? hb, ?_⟩
    have hfeeds : b.params.any (feedsField v) = true :=
      List.any_eq_true.mpr ⟨p, List.mem_of_getElem? hp, by simp [feedsField, hfield, hname]⟩
    simp [hasField, hblank, hfeeds]

theorem fieldIdx?_congr (h : plan.map (fun b => (b.blank, b.params.findIdx? (feedsField v))) =
    plan'.map fun b => (b.blank, b.params.findIdx? (feedsField v))) :
    plan.fieldIdx? v = plan'.fieldIdx? v := by
  have hhas (plan : Plan) : plan.findIdx? (·.hasField v) =
      (plan.map fun b => (b.blank, b.params.findIdx? (feedsField v))).findIdx?
        fun o => !o.1 && o.2.isSome := by
    rw [List.findIdx?_map]
    refine congrArg (fun p => plan.findIdx? p) (funext fun b => ?_)
    simp [hasField, List.findIdx?_isSome]
  have hfound (i : Nat) : (plan[i]?).map (fun b => b.params.findIdx? (feedsField v)) =
      (plan'[i]?).map fun b => b.params.findIdx? (feedsField v) := by
    have hi := congrArg (fun l => (l[i]?).map (·.2)) h
    simpa only [List.getElem?_map, Option.map_map, Function.comp_def] using hi
  unfold fieldIdx?
  rw [hhas plan, h, ← hhas plan']
  refine congrArg _ (funext fun i => ?_)
  have hi := hfound i
  cases hb : plan[i]? <;> cases hb' : plan'[i]? <;> simp_all

theorem scalar_of_grants (hclaims : ∀ c ∈ claims, plan.Grants c) {i : Nat} {b : PlannedBinding}
    (hb : plan[i]? = some b) (hi : some i ∈ claims.map (·.2)) :
    b.blank = false ∧ b.argument.shape = .scalar ∧
      ∀ p ∈ b.params, p.explicit = true → p.param.location = .path := by
  obtain ⟨⟨v, claim⟩, hc, rfl⟩ := List.mem_map.mp hi
  obtain ⟨b', hb', hgrants⟩ := hclaims _ hc
  obtain rfl : b' = b := Option.some.inj (hb'.symm.trans hb)
  exact hgrants

/-- A binding that is claimed has no fields, and a field that is claimed keeps what it is found
by. -/
theorem fieldIdx?_claimed (hfields : plan.FieldsApart) (hclaims : ∀ c ∈ claims, plan.Grants c)
    (v : String) : (plan.claimed claims).fieldIdx? v = plan.fieldIdx? v := by
  refine fieldIdx?_congr (List.ext_getElem? fun i => ?_)
  rw [List.getElem?_map, List.getElem?_map, getElem?_claimed, Option.map_map]
  refine Option.map_congr fun b hb => ?_
  have hb : plan[i]? = some b := hb
  simp only [Function.comp_apply, Prod.mk.injEq, true_and]
  cases hlast : lastClaim? claims i with
  | some w =>
    obtain ⟨hblank, hshape, -⟩ := scalar_of_grants hclaims hb (mem_of_lastClaim? hlast)
    have hnone : b.params.findIdx? (feedsField v) = none := by
      rw [List.findIdx?_eq_none_iff]
      intro p hp
      simp [feedsField, hfields b (List.mem_of_getElem? hb) hblank hshape p hp]
    rw [hnone, claimedParams_of_some hlast]
    simp [feedsField, pathReader, Parameter.plain]
  | none =>
    rw [claimedParams_of_none hlast]
    refine findIdx?_mapIdx fun j p => ?_
    rcases claimedParam_cases plan claims i j p with h | ⟨h, -⟩
    · rw [h]
    · rw [h]
      rfl

theorem claimedParams_eq_self {i : Nat} {b : PlannedBinding} (hlast : lastClaim? claims i = none)
    (hfree : ∀ j p, b.params[j]? = some p → (p.param.name, none) ∈ claims →
      plan.fieldIdx? p.param.name ≠ some (i, j)) : plan.claimedParams claims i b = b.params := by
  rw [claimedParams_of_none hlast]
  refine mapIdx_eq_self fun j p hp => ?_
  rw [claimedParam, if_neg fun h => hfree j p hp h.1 h.2]

theorem claimed_nil : plan.claimed [] = plan :=
  mapIdx_eq_self fun i b _ => by rw [claimedParams_eq_self rfl (by simp)]

theorem claimedParam_of_field {i j : Nat} {b : PlannedBinding} {p : PlannedParam}
    (hb : plan[i]? = some b) (hp : b.params[j]? = some p) (hfield : p.param.field = none) :
    plan.claimedParam claims i j p = p := by
  rcases claimedParam_cases plan claims i j p with h | ⟨-, -, hidx⟩
  · exact h
  · obtain ⟨hfed, -⟩ := fed_of_fieldIdx? hidx hb hp
    simp [hfield] at hfed

theorem claimed_argument {i : Nat} {b : PlannedBinding} (hb : plan[i]? = some b) :
    plan.claimed [(v, some i)] = plan.set i { b with params := [b.pathReader v] } := by
  refine List.ext_getElem? fun k => ?_
  rw [getElem?_claimed]
  by_cases hk : k = i
  · subst hk
    obtain ⟨hlt, -⟩ := List.getElem?_eq_some_iff.mp hb
    rw [hb, List.getElem?_set_self hlt, Option.map_some, claimedParams_of_some (v := v)]
    simp [lastClaim?]
  · rw [List.getElem?_set_ne (Ne.symm hk)]
    cases hb' : plan[k]? with
    | none => rfl
    | some b' =>
      rw [Option.map_some, claimedParams_eq_self (by simp [lastClaim?, Ne.symm hk]) (by simp)]

theorem claimed_field {i j : Nat} {b : PlannedBinding} {p : PlannedParam}
    (hv : plan.fieldIdx? v = some (i, j)) (hb : plan[i]? = some b) (hp : b.params[j]? = some p) :
    plan.claimed [(v, none)] = plan.set i { b with params := b.params.set j p.onPath } := by
  obtain ⟨-, hname⟩ := fed_of_fieldIdx? hv hb hp
  refine List.ext_getElem? fun k => ?_
  rw [getElem?_claimed]
  by_cases hk : k = i
  · subst hk
    obtain ⟨hlt, -⟩ := List.getElem?_eq_some_iff.mp hb
    rw [hb, List.getElem?_set_self hlt, Option.map_some,
      claimedParams_of_none (by simp [lastClaim?])]
    congr 2
    refine List.ext_getElem? fun l => ?_
    rw [List.getElem?_mapIdx]
    by_cases hl : l = j
    · subst hl
      obtain ⟨hlt', -⟩ := List.getElem?_eq_some_iff.mp hp
      rw [hp, List.getElem?_set_self hlt', Option.map_some, claimedParam,
        if_pos ⟨by simp [hname], hname ▸ hv⟩]
    · rw [List.getElem?_set_ne (Ne.symm hl)]
      cases hq : b.params[l]? with
      | none => rfl
      | some q =>
        rw [Option.map_some, claimedParam, if_neg]
        rintro ⟨hmem, hidx⟩
        obtain rfl : q.param.name = v := by simpa using hmem
        simp [hv, Ne.symm hl] at hidx
  · rw [List.getElem?_set_ne (Ne.symm hk)]
    cases hb' : plan[k]? with
    | none => rfl
    | some b' =>
      rw [Option.map_some, claimedParams_eq_self (by simp [lastClaim?])]
      intro l q _ hmem hidx
      obtain rfl : q.param.name = v := by simpa using hmem
      simp [hv, Ne.symm hk] at hidx

theorem claimedParam_cons (hfound : ∀ v, plan'.fieldIdx? v = plan.fieldIdx? v) {i j : Nat}
    {p : PlannedParam} : plan'.claimedParam claims i j (plan.claimedParam [c] i j p) =
      plan.claimedParam (c :: claims) i j p := by
  unfold claimedParam
  by_cases hidx : plan.fieldIdx? p.param.name = some (i, j)
  · by_cases hc : (p.param.name, none) = c
    · by_cases hmem : (p.param.name, none) ∈ claims <;>
        simp [hidx, hc.symm, hmem, hfound, PlannedParam.onPath]
    · simp [hidx, hc, hfound]
  · simp [hidx, hfound]

/-- Claims that are met one after the other are met together. -/
theorem claimed_claimed (hfields : plan.FieldsApart) (hc : plan.Grants c) :
    (plan.claimed [c]).claimed claims = plan.claimed (c :: claims) := by
  have hlast (i : Nat) : lastClaim? (c :: claims) i =
      (lastClaim? claims i).or (lastClaim? [c] i) := by
    simp [lastClaim?]
  have hfound (v : String) : (plan.claimed [c]).fieldIdx? v = plan.fieldIdx? v :=
    fieldIdx?_claimed hfields (by simpa using hc) v
  refine List.ext_getElem? fun i => ?_
  rw [getElem?_claimed, getElem?_claimed, getElem?_claimed, Option.map_map]
  refine Option.map_congr fun b hb => ?_
  rw [Function.comp_apply, PlannedBinding.mk.injEq]
  refine ⟨rfl, ?_, rfl, rfl⟩
  specialize hlast i
  cases hlater : lastClaim? claims i with
  | some w =>
    rw [hlater, Option.some_or] at hlast
    rw [claimedParams_of_some hlater, claimedParams_of_some hlast]
    simp [pathReader, head?_claimedParams]
  | none =>
    rw [hlater, Option.none_or] at hlast
    rw [claimedParams_of_none hlater]
    cases hfirst : lastClaim? [c] i with
    | some v =>
      -- what is left of the binding is one parameter, which is for no field
      rw [claimedParams_of_some (hlast.trans hfirst), claimedParams_of_some hfirst]
      have hb' : (plan.claimed [c])[i]? = some { b with params := [b.pathReader v] } := by
        rw [getElem?_claimed, hb, Option.map_some, claimedParams_of_some hfirst]
      exact congrArg (fun p => [p]) (claimedParam_of_field hb' rfl rfl)
    | none =>
      rw [claimedParams_of_none (hlast.trans hfirst), claimedParams_of_none hfirst]
      refine List.ext_getElem? fun j => ?_
      rw [List.getElem?_mapIdx, List.getElem?_mapIdx, List.getElem?_mapIdx, Option.map_map]
      exact Option.map_congr fun p _ => claimedParam_cons hfound

theorem fieldsApart_claimed (hfields : plan.FieldsApart) : (plan.claimed claims).FieldsApart := by
  intro b' hb' hblank hshape p' hp'
  obtain ⟨i, hi⟩ := List.mem_iff_getElem?.mp hb'
  rw [getElem?_claimed, Option.map_eq_some_iff] at hi
  obtain ⟨b, hb, rfl⟩ := hi
  have hb := hfields b (List.mem_of_getElem? hb) hblank hshape
  simp only [claimedParams] at hp'
  split at hp'
  · obtain rfl := List.mem_singleton.mp hp'
    rfl
  · obtain ⟨j, hj⟩ := List.mem_iff_getElem?.mp hp'
    rw [List.getElem?_mapIdx, Option.map_eq_some_iff] at hj
    obtain ⟨p, hp, rfl⟩ := hj
    have hnone := hb p (List.mem_of_getElem? hp)
    rcases claimedParam_cases plan claims i j p with h | ⟨h, -⟩
    · rw [h, hnone]
    · rw [h]
      exact hnone

theorem free_of_grants (hclaims : ∀ c ∈ claims, plan.Grants c) {i j : Nat} {b : PlannedBinding}
    {p : PlannedParam} (hb : plan[i]? = some b) (hp : b.params[j]? = some p)
    (hmem : (p.param.name, none) ∈ claims) (hidx : plan.fieldIdx? p.param.name = some (i, j)) :
    p.explicit = false := by
  obtain ⟨i', j', b', p', hidx', hb', hp', -, hexplicit⟩ := hclaims _ hmem
  obtain ⟨rfl, rfl⟩ : i' = i ∧ j' = j := by simpa [hidx'] using hidx
  obtain rfl : b' = b := Option.some.inj (hb'.symm.trans hb)
  obtain rfl : p' = p := Option.some.inj (hp'.symm.trans hp)
  exact hexplicit

/-- What was asked for a place of its own stays as it is, unless its argument is claimed. -/
theorem mem_claimedParams_iff (hclaims : ∀ c ∈ claims, plan.Grants c) {i : Nat}
    {b : PlannedBinding} (hb : plan[i]? = some b) (hlast : lastClaim? claims i = none)
    {p : PlannedParam} (hexplicit : p.explicit = true) :
    p ∈ plan.claimedParams claims i b ↔ p ∈ b.params := by
  rw [claimedParams_of_none hlast, List.mem_iff_getElem?, List.mem_iff_getElem?]
  refine exists_congr fun j => ?_
  rw [List.getElem?_mapIdx]
  cases hq : b.params[j]? with
  | none => simp
  | some q =>
    rw [Option.map_some]
    rcases claimedParam_cases plan claims i j q with h | ⟨h, hmem, hidx⟩
    · rw [h]
    · have hfree := free_of_grants hclaims hb hq hmem hidx
      constructor
      · intro heq
        obtain rfl : q.onPath = p := by simpa [h] using heq
        simp [PlannedParam.onPath, hfree] at hexplicit
      · intro heq
        obtain rfl : q = p := by simpa using heq
        simp [hfree] at hexplicit

/-- What can be claimed stays so whatever else is claimed before. -/
theorem grants_claimed (hfields : plan.FieldsApart) (hc : plan.Grants c) :
    (plan.claimed [c]).Grants c' ↔ plan.Grants c' := by
  have hclaims : ∀ c' ∈ [c], plan.Grants c' := by simpa using hc
  obtain ⟨w, claim⟩ := c'
  cases claim with
  | some k =>
    simp only [Grants, getElem?_claimed]
    cases hb : plan[k]? with
    | none => simp
    | some b =>
      simp only [Option.map_some, Option.some.injEq, exists_eq_left']
      refine and_congr_right fun _ => and_congr_right fun _ => ?_
      cases hlast : lastClaim? [c] k with
      | some v =>
        -- all that is left was not asked for, and what was there before was on the path
        have hread := (scalar_of_grants hclaims hb (mem_of_lastClaim? hlast)).2.2
        simp only [claimedParams_of_some hlast, List.mem_singleton, forall_eq]
        exact iff_of_true (fun hexplicit => by simp [pathReader] at hexplicit) hread
      | none =>
        refine forall_congr' fun p => ⟨fun h hp hexplicit => ?_, fun h hp hexplicit => ?_⟩
        · exact h ((mem_claimedParams_iff hclaims hb hlast hexplicit).mpr hp) hexplicit
        · exact h ((mem_claimedParams_iff hclaims hb hlast hexplicit).mp hp) hexplicit
  | none =>
    simp only [Grants, fieldIdx?_claimed hfields hclaims, getElem?_claimed]
    refine exists_congr fun i => exists_congr fun j => ?_
    by_cases hidx : plan.fieldIdx? w = some (i, j)
    · obtain ⟨b, p, hb, hblank, hp, hfield, -⟩ := exists_of_fieldIdx? hidx
      have hlast : lastClaim? [c] i = none := by
        by_contra hlast
        obtain ⟨v, hv⟩ := Option.ne_none_iff_exists'.mp hlast
        have hshape := (scalar_of_grants hclaims hb (mem_of_lastClaim? hv)).2.1
        have hnone := hfields b (List.mem_of_getElem? hb) hblank hshape p (List.mem_of_getElem? hp)
        simp [hnone] at hfield
      have hsame : (plan.claimedParam [c] i j p).shape = p.shape ∧
          (plan.claimedParam [c] i j p).explicit = p.explicit := by
        rcases claimedParam_cases plan [c] i j p with h | ⟨h, -⟩ <;> rw [h] <;> exact ⟨rfl, rfl⟩
      simp [hidx, hb, hp, claimedParams_of_none hlast, List.getElem?_mapIdx, hsame]
    · simp [hidx]

theorem outline_claimed_argument {i : Nat} (hc : plan.Grants (v, some i)) :
    (plan.claimed [(v, some i)]).map (·.outline) = (plan.release i).map (·.outline) := by
  obtain ⟨b, hb, -⟩ := hc
  have hb' : (plan.map (·.outline))[i]? = some b.outline := by simp [hb]
  rw [claimed_argument hb, outline_release, List.map_set, List.modify_eq_set, hb']
  rfl

theorem outline_claimed_field (hc : plan.Grants (v, none)) :
    (plan.claimed [(v, none)]).map (·.outline) = plan.map (·.outline) := by
  obtain ⟨i, j, b, p, hidx, hb, hp, -, hexplicit⟩ := hc
  rw [claimed_field hidx hb hp, List.map_set]
  have hsame : PlannedBinding.outline { b with params := b.params.set j p.onPath } =
      b.outline := by
    simp only [outline, PlannedBinding.explicitPathNames]
    rw [filter_set_of_neg hp (by simp [PlannedParam.isExplicitPath, hexplicit])
      (by simp [PlannedParam.isExplicitPath, PlannedParam.onPath, hexplicit])]
  have hb' : (plan.map (·.outline))[i]? = some b.outline := by simp [hb]
  obtain ⟨hi, hget⟩ := List.getElem?_eq_some_iff.mp hb'
  rw [hsame, ← hget, List.set_getElem_self]

theorem claims_cons (hv : v ∉ plan.explicitPathNames)
    (hgrants : plan.Grants (v, plan.findIdx? (·.isNamed naming v))) :
    plan.claims naming (v :: vars) = (v, plan.findIdx? (·.isNamed naming v)) ::
      (plan.claimed [(v, plan.findIdx? (·.isNamed naming v))]).claims naming vars := by
  rw [claims, if_neg hv]
  cases hi : plan.findIdx? (·.isNamed naming v) with
  | some i => exact congrArg _ (claims_congr (outline_claimed_argument (hi ▸ hgrants)).symm)
  | none => exact congrArg _ (claims_congr (outline_claimed_field (hi ▸ hgrants)).symm)

/-- Binding a variable meets its claim, if it has to claim anything. -/
theorem bindVariable_eq_ok : plan.bindVariable naming v = .ok plan' ↔
    (v ∈ plan.explicitPathNames ∧ plan' = plan) ∨
    (v ∉ plan.explicitPathNames ∧ plan.Grants (v, plan.findIdx? (·.isNamed naming v)) ∧
      plan' = plan.claimed [(v, plan.findIdx? (·.isNamed naming v))]) := by
  unfold bindVariable
  by_cases hv : v ∈ plan.explicitPathNames
  · simp [hv, eq_comm]
  simp only [hv, ↓reduceIte, false_and, not_false_eq_true, true_and, false_or]
  cases hi : plan.findIdx? (·.isNamed naming v) with
  | some i =>
    obtain ⟨hlt, hnamed, -⟩ := List.findIdx?_eq_some_iff_getElem.mp hi
    have hb : plan[i]? = some plan[i] := List.getElem?_eq_getElem hlt
    have hblank : plan[i].blank = false := by
      simp only [isNamed, Bool.and_eq_true, Bool.not_eq_true'] at hnamed
      exact hnamed.1
    rw [if_pos (List.any_eq_true.mpr ⟨_, List.getElem_mem hlt, hnamed⟩), updateFirst_eq_ok hi hb,
      claimed_argument hb]
    simp only [readFromPath_eq_ok, Grants, hb, Option.some.injEq, exists_eq_left', hblank, true_and]
    constructor
    · rintro ⟨_, ⟨hshape, hpath, rfl⟩, rfl⟩
      exact ⟨⟨hshape, hpath⟩, rfl⟩
    · rintro ⟨⟨hshape, hpath⟩, rfl⟩
      exact ⟨_, ⟨hshape, hpath, rfl⟩, rfl⟩
  | none =>
    have hunnamed : ¬ plan.any (·.isNamed naming v) = true := by
      simpa [List.findIdx?_eq_none_iff] using hi
    rw [if_neg hunnamed]
    by_cases hany : plan.any (·.hasField v) = true
    · rw [if_pos hany]
      obtain ⟨i, j, b, p, hidx, hb, hp⟩ := any_hasField_iff.mp hany
      obtain ⟨hi, _, hb', hj⟩ := fieldIdx?_eq_some.mp hidx
      obtain rfl := Option.some.inj (hb.symm.trans hb')
      rw [updateFirst_eq_ok hi hb, claimed_field hidx hb hp]
      simp only [readFieldFromPath, map_eq_ok, updateFirst_eq_ok hj hp, fieldFromPath_eq_ok, Grants]
      constructor
      · rintro ⟨_, ⟨_, ⟨_, ⟨hshape, hexplicit, rfl⟩, rfl⟩, rfl⟩, rfl⟩
        exact ⟨⟨i, j, b, p, hidx, hb, hp, hshape, hexplicit⟩, rfl⟩
      · rintro ⟨⟨i', j', b', p', hidx', hb', hp', hshape, hexplicit⟩, rfl⟩
        obtain ⟨rfl, rfl⟩ : i = i' ∧ j = j' := by simpa [hidx] using hidx'
        obtain rfl := Option.some.inj (hb.symm.trans hb')
        obtain rfl := Option.some.inj (hp.symm.trans hp')
        exact ⟨_, ⟨_, ⟨_, ⟨hshape, hexplicit, rfl⟩, rfl⟩, rfl⟩, rfl⟩
    · rw [if_neg hany]
      refine iff_of_false fail_ne_ok ?_
      rintro ⟨⟨i, j, b, p, hidx, hb, hp, -⟩, -⟩
      exact hany (any_hasField_iff.mpr ⟨i, j, b, p, hidx, hb, hp⟩)

/-- An argument that is claimed once is read from the variable that claims it. -/
theorem lastClaim?_eq_some (hdistinct : (claims.filterMap (·.2)).Nodup) {i : Nat} :
    lastClaim? claims i = some v ↔ (v, some i) ∈ claims := by
  induction claims with
  | nil => simp [lastClaim?]
  | cons c claims ih =>
    obtain ⟨w, claim⟩ := c
    cases claim with
    | none =>
      rw [List.filterMap_cons_none rfl] at hdistinct
      simp [lastClaim?, ih hdistinct]
    | some k =>
      have hdistinct : (k :: claims.filterMap (·.2)).Nodup := hdistinct
      rw [List.nodup_cons, List.mem_filterMap] at hdistinct
      rw [lastClaim?, List.mem_cons, ← ih hdistinct.2]
      by_cases hk : k = i
      · subst hk
        have hfree : lastClaim? claims k = none := by
          rw [lastClaim?_eq_none, List.mem_map]
          exact hdistinct.1
        simp [hfree, eq_comm]
      · simp [hk, Ne.symm hk]

/-- If no argument is claimed twice, the order of claims does not matter. -/
theorem claimed_perm {claims' : List (String × Option Nat)} (hperm : claims.Perm claims')
    (hdistinct : (claims.filterMap (·.2)).Nodup) : plan.claimed claims = plan.claimed claims' := by
  have hlast (i : Nat) : lastClaim? claims i = lastClaim? claims' i := by
    refine Option.ext fun v => ?_
    rw [lastClaim?_eq_some hdistinct, hperm.mem_iff]
    exact (lastClaim?_eq_some ((hperm.filterMap _).nodup_iff.mp hdistinct)).symm
  have hparam : plan.claimedParam claims = plan.claimedParam claims' := by
    funext i j p
    simp only [claimedParam, hperm.mem_iff]
  simp only [claimed, claimedParams, hlast, hparam]

/-- What variables claim if none of them takes an argument that is explicitly read from the path. -/
def freeClaims (naming : Naming) (plan : Plan) (vars : List String) : List (String × Option Nat) :=
  (vars.filter (· ∉ plan.explicitPathNames)).map fun v => (v, plan.findIdx? (·.isNamed naming v))

/-- No binding that is claimed is explicitly read from the path. -/
def Unread (plan : Plan) (claims : List (String × Option Nat)) : Prop :=
  ∀ (i : Nat) b, plan[i]? = some b → some i ∈ claims.map (·.2) → b.explicitPathNames = []

theorem freeClaims_cons : plan.freeClaims naming (v :: vars) =
    if v ∈ plan.explicitPathNames then plan.freeClaims naming vars
    else (v, plan.findIdx? (·.isNamed naming v)) :: plan.freeClaims naming vars := by
  by_cases hv : v ∈ plan.explicitPathNames <;> simp [freeClaims, hv]

theorem Unread.of_cons (h : plan.Unread (c :: claims)) : plan.Unread claims :=
  fun i b hb hi => h i b hb (List.mem_cons_of_mem _ hi)

theorem claims_release {i : Nat} (h : ∀ b, plan[i]? = some b → b.explicitPathNames = []) :
    (plan.release i).claims naming vars = plan.claims naming vars := by
  refine claims_congr ?_
  rw [outline_release]
  refine List.ext_getElem? fun k => ?_
  rw [List.getElem?_modify, List.getElem?_map]
  by_cases hk : i = k
  · subst hk
    cases hb : plan[i]? with
    | none => rfl
    | some b => simp [outline, h b hb]
  · simp [hk]

/-- Where nothing that is claimed is explicitly read from the path, what a variable claims does not
depend on the variables before it. -/
theorem claims_eq_freeClaims
    (h : plan.Unread (plan.claims naming vars) ∨ plan.Unread (plan.freeClaims naming vars)) :
    plan.claims naming vars = plan.freeClaims naming vars := by
  -- an argument that is claimed loses nothing that later variables look for
  induction vars with
  | nil => rfl
  | cons v vars ih =>
    rw [claims, freeClaims_cons] at h ⊢
    by_cases hv : v ∈ plan.explicitPathNames
    · rw [if_pos hv, if_pos hv] at h ⊢
      exact ih h
    · rw [if_neg hv, if_neg hv] at h ⊢
      cases hi : plan.findIdx? (·.isNamed naming v) with
      | none =>
        rw [hi] at h
        exact congrArg _ (ih (h.imp Unread.of_cons Unread.of_cons))
      | some i =>
        rw [hi] at h
        have hread : ∀ b, plan[i]? = some b → b.explicitPathNames = [] := fun b hb =>
          h.elim (fun h => h i b hb List.mem_cons_self) (fun h => h i b hb List.mem_cons_self)
        simp only [claims_release hread] at h ⊢
        exact congrArg _ (ih (h.imp Unread.of_cons Unread.of_cons))

/-- Where no argument is contested, the order of variables decides the order of their claims and
nothing else. -/
theorem Uncontested.perm {vars' : List String} (h : plan.Uncontested naming vars)
    (hperm : vars.Perm vars') : plan.Uncontested naming vars' ∧
      (plan.claims naming vars).Perm (plan.claims naming vars') := by
  have hfree := claims_eq_freeClaims (.inl h.unread)
  have hclaims : (plan.claims naming vars).Perm (plan.freeClaims naming vars') := by
    rw [hfree]
    exact (hperm.filter _).map _
  have hunread : plan.Unread (plan.freeClaims naming vars') := fun i b hb hi =>
    h.unread i b hb ((hclaims.map _).mem_iff.mpr hi)
  have hfree' := claims_eq_freeClaims (.inr hunread)
  rw [← hfree'] at hclaims hunread
  exact ⟨⟨(hclaims.filterMap _).nodup_iff.mp h.distinct, hunread⟩, hclaims⟩

end Plan

namespace Method

variable {m : Method} {options : ResolveOptions} {decl : Declarations} {plan plan' : Plan}
  {vars : List String}

/-- Binding variables one after the other succeeds if all that they claim can be read from the
path, and meets their claims. -/
theorem foldlM_bindPathVar_eq_ok (hfields : plan.FieldsApart) :
    vars.foldlM (m.bindPathVar decl options) plan = .ok plan' ↔
      (∀ c ∈ plan.claims options.naming vars, plan.Grants c) ∧
      plan' = plan.claimed (plan.claims options.naming vars) := by
  -- the plan is general, since later variables are bound in what earlier ones leave
  induction vars generalizing plan with
  | nil =>
    rw [List.foldlM_nil, pure_eq_ok]
    simp [Plan.claims, Plan.claimed_nil, eq_comm]
  | cons v vars ih =>
    rw [foldlM_cons_eq_ok]
    by_cases hv : v ∈ plan.explicitPathNames
    · have hstep {plan₁ : Plan} : m.bindPathVar decl options plan v = .ok plan₁ ↔ plan₁ = plan := by
        rw [bindPathVar, at_eq_ok, Plan.bindVariable_eq_ok]
        simp [hv]
      simp only [hstep, exists_eq_left]
      rw [ih hfields, Plan.claims, if_pos hv]
    · have hstep {plan₁ : Plan} : m.bindPathVar decl options plan v = .ok plan₁ ↔
          plan.Grants (v, plan.findIdx? (·.isNamed options.naming v)) ∧
            plan₁ = plan.claimed [(v, plan.findIdx? (·.isNamed options.naming v))] := by
        rw [bindPathVar, at_eq_ok, Plan.bindVariable_eq_ok]
        simp [hv]
      simp only [hstep, and_assoc]
      constructor
      · rintro ⟨_, hgrants, rfl, hrest⟩
        obtain ⟨hlater, rfl⟩ := (ih (Plan.fieldsApart_claimed hfields)).mp hrest
        rw [Plan.claims_cons hv hgrants, List.forall_mem_cons]
        refine ⟨⟨hgrants, fun c hc => ?_⟩, Plan.claimed_claimed hfields hgrants⟩
        exact (Plan.grants_claimed hfields hgrants).mp (hlater c hc)
      · rintro ⟨hall, rfl⟩
        have hgrants : plan.Grants (v, plan.findIdx? (·.isNamed options.naming v)) := by
          refine hall _ ?_
          rw [Plan.claims, if_neg hv]
          cases plan.findIdx? (·.isNamed options.naming v) <;> exact List.mem_cons_self
        rw [Plan.claims_cons hv hgrants, List.forall_mem_cons] at hall
        refine ⟨_, hgrants, rfl, (ih (Plan.fieldsApart_claimed hfields)).mpr ⟨fun c hc => ?_, ?_⟩⟩
        · exact (Plan.grants_claimed hfields hgrants).mpr (hall.2 c hc)
        · rw [Plan.claims_cons hv hgrants, Plan.claimed_claimed hfields hgrants]

/-- A method has a plan if its explicit path parameters are variables of some pattern and all that
variables claim can be read from the path; the plan meets their claims. -/
theorem plan_eq_claimed (hclauses : ∀ c ∈ decl.clauses, c.value.LeavesBody) :
    m.plan decl options = .ok plan ↔ ∃ bindings,
      m.bindings (inference decl options) decl = .ok bindings ∧
      m.checkPathNames decl.pathVars bindings = .ok () ∧
      (∀ c ∈ Plan.claims options.naming (bindings.map (·.value)) decl.pathVars,
        Plan.Grants (bindings.map (·.value)) c) ∧
      plan = Plan.claimed (bindings.map (·.value))
        (Plan.claims options.naming (bindings.map (·.value)) decl.pathVars) := by
  constructor
  · intro h
    obtain ⟨bindings, hbindings, h⟩ := bind_eq_ok.mp h
    obtain ⟨_, hnames, hrun⟩ := bind_eq_ok.mp h
    have hfields := fieldsApart_of_bindings hclauses hbindings
    exact ⟨bindings, hbindings, hnames, (foldlM_bindPathVar_eq_ok hfields).mp hrun⟩
  · rintro ⟨bindings, hbindings, hnames, hrun⟩
    have hfields := fieldsApart_of_bindings hclauses hbindings
    refine bind_eq_ok.mpr ⟨bindings, hbindings, bind_eq_ok.mpr ⟨(), hnames, ?_⟩⟩
    exact (foldlM_bindPathVar_eq_ok hfields).mpr hrun

end Method

end Routespec
