import Routespec.Proofs.SharedPlan

/-!
# Claims of path variables

A variable is bound to the argument it is named for even if the argument was bound to another
variable before, or is explicitly read from one; that other variable is then left without a reader.
Which variables keep theirs follows from what each of them claims when its turn comes.
-/

namespace Routespec

/-- Changing an element that a filter leaves out into another such element. -/
theorem filter_set_of_neg {α : Type} {p : α → Bool} {xs : List α} {i : Nat} {x y : α}
    (hx : xs[i]? = some x) (hpx : p x = false) (hpy : p y = false) :
    (xs.set i y).filter p = xs.filter p := by
  induction xs generalizing i with
  | nil => rfl
  | cons a xs ih =>
    cases i with
    | zero =>
      obtain rfl : a = x := by simpa using hx
      simp [hpx, hpy]
    | succ i => simp [List.filter_cons, ih (by simpa using hx)]

theorem getElem?_set_eq_some {α : Type} {xs : List α} {i k : Nat} {x y z : α}
    (hx : xs[i]? = some x) :
    (xs.set i y)[k]? = some z ↔ (k = i ∧ z = y) ∨ (k ≠ i ∧ xs[k]? = some z) := by
  obtain ⟨hi, -⟩ := List.getElem?_eq_some_iff.mp hx
  by_cases hk : k = i
  · subst hk
    simp [hi, eq_comm]
  · simp [List.getElem?_set_ne (Ne.symm hk), hk]

namespace PlannedBinding

/-- The names under which the binding is read from the path. -/
def pathNames (b : PlannedBinding) : List String :=
  (b.params.filter (·.param.location = .path)).map (·.param.name)

theorem mem_pathNames {b : PlannedBinding} {v : String} :
    v ∈ b.pathNames ↔ ∃ p ∈ b.params, p.param.location = .path ∧ p.param.name = v := by
  simp [pathNames, and_assoc]

/-- An argument read from a variable as a whole is read from nothing else. -/
theorem mem_pathNames_argument {b : PlannedBinding} {v u : String} :
    u ∈ pathNames { b with params := [b.pathReader v] } ↔ u = v := by
  simp [pathNames, pathReader, Parameter.plain]

/-- A field that is read from a variable leaves the other fields as they are. -/
theorem mem_pathNames_field {b : PlannedBinding} {j : Nat} {p : PlannedParam} {u : String}
    (hp : b.params[j]? = some p) :
    u ∈ pathNames { b with params := b.params.set j p.onPath } ↔
      u ∈ b.pathNames ∨ u = p.param.name := by
  rw [mem_pathNames, mem_pathNames]
  constructor
  · rintro ⟨q, hq, hpath, rfl⟩
    rcases List.mem_or_eq_of_mem_set hq with hq | rfl
    · exact .inl ⟨q, hq, hpath, rfl⟩
    · exact .inr rfl
  · have hj : p.onPath ∈ b.params.set j p.onPath := by
      obtain ⟨hlt, -⟩ := List.getElem?_eq_some_iff.mp hp
      exact List.mem_set hlt p.onPath
    rintro (⟨q, hq, hpath, rfl⟩ | rfl)
    · obtain ⟨k, hk⟩ := List.mem_iff_getElem?.mp hq
      by_cases hkj : k = j
      · subst hkj
        obtain rfl : p = q := Option.some.inj (hp.symm.trans hk)
        exact ⟨p.onPath, hj, rfl, rfl⟩
      · refine ⟨q, List.mem_of_getElem? (i := k) ?_, hpath, rfl⟩
        exact (getElem?_set_eq_some hp).mpr (.inr ⟨hkj, hk⟩)
    · exact ⟨p.onPath, hj, rfl, rfl⟩

/-- What claims on a binding depend on. -/
def outline (b : PlannedBinding) : Argument × Bool × List String :=
  (b.argument, b.blank, b.explicitPathNames)

end PlannedBinding

namespace Plan

open PlannedBinding

variable {naming : Naming} {v u : String} {vars : List String} {plan plan' : Plan}

/-- The plan with one argument that is no longer read from anything. -/
def release (plan : Plan) (i : Nat) : Plan := plan.modify i fun b => { b with params := [] }

/-- What variables claim when they are bound one after the other: the index of an argument, or
none for a field. A variable that is still explicitly read claims nothing. -/
def claims (naming : Naming) : Plan → List String → List (String × Option Nat)
  | _, [] => []
  | plan, v :: vars =>
    if v ∈ plan.explicitPathNames then claims naming plan vars
    else
      match plan.findIdx? (·.isNamed naming v) with
      | some i => (v, some i) :: claims naming (plan.release i) vars
      | none => (v, none) :: claims naming plan vars

theorem outline_release (plan : Plan) (i : Nat) :
    (plan.release i).map (·.outline) =
      (plan.map (·.outline)).modify i fun o => (o.1, o.2.1, []) := by
  refine List.ext_getElem? fun k => ?_
  rw [List.getElem?_map, release, List.getElem?_modify, List.getElem?_modify, List.getElem?_map]
  cases plan[k]? with
  | none => rfl
  | some b => by_cases hk : i = k <;> simp [hk, outline, PlannedBinding.explicitPathNames]

/-- The variable claims a field, or an argument that no variable claims after it. -/
def KeepsClaim (claims : List (String × Option Nat)) (v : String) : Prop :=
  ∃ earlier claim later, claims = earlier ++ (v, claim) :: later ∧
    (claim = none ∨ claim ∉ later.map (·.2))

/-- The variable has a reader when all variables are bound: one that was asked for, of an argument
that no variable claims, or else what the variable itself claims and keeps. -/
def IsRead (naming : Naming) (plan : Plan) (vars : List String) (v : String) : Prop :=
  (∃ (i : Nat) (b : PlannedBinding), plan[i]? = some b ∧ v ∈ b.explicitPathNames ∧
    some i ∉ (plan.claims naming vars).map (·.2)) ∨ KeepsClaim (plan.claims naming vars) v

theorem keepsClaim_cons {claim : Option Nat} {claims : List (String × Option Nat)} :
    KeepsClaim ((v, claim) :: claims) u ↔
      (u = v ∧ (claim = none ∨ claim ∉ claims.map (·.2))) ∨ KeepsClaim claims u := by
  constructor
  · rintro ⟨earlier, claim', later, heq, hkept⟩
    cases earlier with
    | nil =>
      obtain ⟨⟨rfl, rfl⟩, rfl⟩ : (v = u ∧ claim = claim') ∧ claims = later := by simpa using heq
      exact .inl ⟨rfl, hkept⟩
    | cons first earlier =>
      obtain ⟨-, rfl⟩ := List.cons.inj heq
      exact .inr ⟨earlier, claim', later, rfl, hkept⟩
  · rintro (⟨rfl, hkept⟩ | ⟨earlier, claim', later, rfl, hkept⟩)
    · exact ⟨[], claim, claims, rfl, hkept⟩
    · exact ⟨(v, claim) :: earlier, claim', later, rfl, hkept⟩

theorem claims_congr (h : plan.map (·.outline) = plan'.map (·.outline)) :
    claims naming plan vars = claims naming plan' vars := by
  induction vars generalizing plan plan' with
  | nil => rfl
  | cons v vars ih =>
    have hnames (plan : Plan) :
        plan.explicitPathNames = (plan.map (·.outline)).flatMap (·.2.2) := by
      rw [List.flatMap_map]
      rfl
    have hindex (plan : Plan) : plan.findIdx? (·.isNamed naming v) =
        (plan.map (·.outline)).findIdx?
          fun o => !o.2.1 && (o.1.name = v || naming.apply o.1.name = v) := by
      rw [List.findIdx?_map]
      rfl
    have hrelease (i : Nat) : (plan.release i).map (·.outline) =
        (plan'.release i).map (·.outline) := by
      rw [outline_release, outline_release, h]
    rw [claims, claims, hnames plan, hnames plan', hindex plan, hindex plan', h]
    split
    · exact ih h
    · split
      · rw [ih (hrelease _)]
      · rw [ih h]

theorem mem_of_mem_release {i : Nat} (h : v ∈ explicitPathNames (plan.release i)) :
    v ∈ plan.explicitPathNames := by
  obtain ⟨b, hb, hv⟩ := List.mem_flatMap.mp h
  obtain ⟨k, hk⟩ := List.mem_iff_getElem?.mp hb
  rw [release, List.getElem?_modify] at hk
  obtain ⟨b₀, hb₀, rfl⟩ := Option.map_eq_some_iff.mp hk
  refine List.mem_flatMap.mpr ⟨b₀, List.mem_of_getElem? hb₀, ?_⟩
  by_cases hik : i = k
  · simp [hik, PlannedBinding.explicitPathNames] at hv
  · simpa [hik] using hv

/-- A variable that claims nothing is explicitly read. -/
theorem claims_or_explicit (hv : v ∈ vars) :
    (∃ claim, (v, claim) ∈ plan.claims naming vars) ∨ v ∈ plan.explicitPathNames := by
  induction vars generalizing plan with
  | nil => cases hv
  | cons w vars ih =>
    rw [claims]
    split
    · next hw =>
      rcases List.mem_cons.mp hv with rfl | hv
      · exact .inr hw
      · exact ih hv
    · split
      · next i _ =>
        rcases List.mem_cons.mp hv with rfl | hv
        · exact .inl ⟨some i, List.mem_cons_self⟩
        · rcases @ih (plan.release i) hv with ⟨claim, hclaim⟩ | hread
          · exact .inl ⟨claim, List.mem_cons_of_mem _ hclaim⟩
          · exact .inr (mem_of_mem_release hread)
      · rcases List.mem_cons.mp hv with rfl | hv
        · exact .inl ⟨none, List.mem_cons_self⟩
        · rcases ih hv with ⟨claim, hclaim⟩ | hread
          · exact .inl ⟨claim, List.mem_cons_of_mem _ hclaim⟩
          · exact .inr hread

/-- No argument is claimed by two variables, and none that is explicitly read from the path. -/
structure Uncontested (naming : Naming) (plan : Plan) (vars : List String) : Prop where
  distinct : ((plan.claims naming vars).filterMap (·.2)).Nodup
  unread : ∀ (i : Nat) b, plan[i]? = some b →
    some i ∈ (plan.claims naming vars).map (·.2) → b.explicitPathNames = []

/-- Where no argument is contested, every variable has a reader. -/
theorem Uncontested.isRead (h : plan.Uncontested naming vars) (hv : v ∈ vars) :
    plan.IsRead naming vars v := by
  have hclaims : (∃ claim, (v, claim) ∈ plan.claims naming vars) ∨ v ∈ plan.explicitPathNames :=
    claims_or_explicit hv
  rcases hclaims with ⟨claim, hclaim⟩ | hread
  · obtain ⟨earlier, later, heq⟩ := List.append_of_mem hclaim
    refine .inr ⟨earlier, claim, later, heq, ?_⟩
    cases claim with
    | none => exact .inl rfl
    | some i =>
      refine .inr fun hi => ?_
      have hdistinct := h.distinct
      rw [heq, List.filterMap_append] at hdistinct
      have hlast : (i :: later.filterMap (·.2)).Nodup := (List.nodup_append.mp hdistinct).2.1
      have hfresh := (List.nodup_cons.mp hlast).1
      obtain ⟨later', hlater, hsnd⟩ := List.mem_map.mp hi
      exact hfresh (List.mem_filterMap.mpr ⟨later', hlater, hsnd⟩)
  · obtain ⟨b, hb, hv⟩ := List.mem_flatMap.mp hread
    obtain ⟨i, hi⟩ := List.mem_iff_getElem?.mp hb
    refine .inl ⟨i, b, hi, hv, fun hclaimed => ?_⟩
    rw [h.unread i b hi hclaimed] at hv
    cases hv

/-- What binding a variable does goes with what the variable claims. -/
theorem Binds.claims_cases (h : Binds naming v plan plan') (vars : List String) :
    (plan' = plan ∧ plan.claims naming (v :: vars) = plan'.claims naming vars) ∨
    (∃ (i : Nat) (b : PlannedBinding), plan[i]? = some b ∧ b.argument.shape = .scalar ∧
      plan' = plan.set i { b with params := [b.pathReader v] } ∧
      plan.claims naming (v :: vars) = (v, some i) :: plan'.claims naming vars) ∨
    (∃ (i j : Nat) (b : PlannedBinding) (p : PlannedParam), plan[i]? = some b ∧
      b.blank = false ∧ b.params[j]? = some p ∧ p.param.name = v ∧
      p.param.field.isSome = true ∧
      plan' = plan.set i { b with params := b.params.set j p.onPath } ∧
      plan.claims naming (v :: vars) = (v, none) :: plan'.claims naming vars) := by
  cases h with
  | explicit hvar => exact .inl ⟨rfl, by rw [claims, if_pos hvar]⟩
  | @argument i b hvar hi hb hshape hread =>
    refine .inr (.inl ⟨i, b, hb, hshape, rfl, ?_⟩)
    rw [claims, if_neg hvar, hi]
    refine congrArg _ (claims_congr ?_)
    have hb' : (plan.map (·.outline))[i]? = some b.outline := by simp [hb]
    rw [outline_release, List.map_set, List.modify_eq_set, hb']
    rfl
  | @field i j b p hvar hnamed hb hp hname hfield hexplicit hread =>
    refine .inr (.inr ⟨i, j, b, p, hb, hread.blank_eq.1, hp, hname, hfield, rfl, ?_⟩)
    rw [claims, if_neg hvar, hnamed]
    refine congrArg _ (claims_congr ?_)
    have hsame : PlannedBinding.outline { b with params := b.params.set j p.onPath } =
        b.outline := by
      simp only [outline, PlannedBinding.explicitPathNames]
      rw [filter_set_of_neg hp (by simp [PlannedParam.isExplicitPath, hexplicit])
        (by simp [PlannedParam.isExplicitPath, PlannedParam.onPath, hexplicit])]
    have hb' : (plan.map (·.outline))[i]? = some b.outline := by simp [hb]
    obtain ⟨hi, hget⟩ := List.getElem?_eq_some_iff.mp hb'
    rw [List.map_set, hsame, ← hget, List.set_getElem_self]

/-- Binding a variable leaves every argument where it is. -/
theorem Binds.argument_eq (h : Binds naming v plan plan') {i : Nat} {b' : PlannedBinding}
    (hb' : plan'[i]? = some b') : ∃ b, plan[i]? = some b ∧ b'.argument = b.argument := by
  obtain ⟨b, hb, hstep⟩ := forall₂_getElem? h.forall₂.flip hb'
  refine ⟨b, hb, ?_⟩
  cases hstep with
  | refl => rfl
  | single hread => exact hread.argument_eq

/-- The name is read from the path by an argument that is not claimed. -/
def ReadUnclaimed (plan : Plan) (claimed : List (Option Nat)) (u : String) : Prop :=
  ∃ (i : Nat) (b : PlannedBinding), plan[i]? = some b ∧ u ∈ b.pathNames ∧ some i ∉ claimed

/-- An argument that is claimed is read from the variable that claims it, until it is claimed
again. -/
theorem readUnclaimed_set_argument {i : Nat} {b : PlannedBinding} (hb : plan[i]? = some b)
    {later : List (Option Nat)} :
    ReadUnclaimed (plan.set i { b with params := [b.pathReader v] }) later u ↔
      plan.ReadUnclaimed (some i :: later) u ∨ (u = v ∧ some i ∉ later) := by
  constructor
  · rintro ⟨k, c, hc, hu, hk⟩
    rcases (getElem?_set_eq_some hb).mp hc with ⟨rfl, rfl⟩ | ⟨hki, hc⟩
    · exact .inr ⟨mem_pathNames_argument.mp hu, hk⟩
    · exact .inl ⟨k, c, hc, hu, by simp [hki, hk]⟩
  · rintro (⟨k, c, hc, hu, hk⟩ | ⟨rfl, hi⟩)
    · rw [List.mem_cons, not_or] at hk
      have hki : k ≠ i := fun hki => hk.1 (congrArg some hki)
      exact ⟨k, c, (getElem?_set_eq_some hb).mpr (.inr ⟨hki, hc⟩), hu, hk.2⟩
    · exact ⟨i, _, (getElem?_set_eq_some hb).mpr (.inl ⟨rfl, rfl⟩),
        mem_pathNames_argument.mpr rfl, hi⟩

/-- A field that is claimed is read from the variable that claims it. -/
theorem readUnclaimed_set_field {i j : Nat} {b : PlannedBinding} {p : PlannedParam}
    (hb : plan[i]? = some b) (hp : b.params[j]? = some p) {later : List (Option Nat)}
    (hi : some i ∉ later) :
    ReadUnclaimed (plan.set i { b with params := b.params.set j p.onPath }) later u ↔
      plan.ReadUnclaimed later u ∨ u = p.param.name := by
  constructor
  · rintro ⟨k, c, hc, hu, hk⟩
    rcases (getElem?_set_eq_some hb).mp hc with ⟨rfl, rfl⟩ | ⟨hki, hc⟩
    · rcases (mem_pathNames_field hp).mp hu with hu | hu
      · exact .inl ⟨k, b, hb, hu, hk⟩
      · exact .inr hu
    · exact .inl ⟨k, c, hc, hu, hk⟩
  · rintro (⟨k, c, hc, hu, hk⟩ | rfl)
    · by_cases hki : k = i
      · subst hki
        obtain rfl : b = c := Option.some.inj (hb.symm.trans hc)
        exact ⟨k, _, (getElem?_set_eq_some hb).mpr (.inl ⟨rfl, rfl⟩),
          (mem_pathNames_field hp).mpr (.inl hu), hk⟩
      · exact ⟨k, c, (getElem?_set_eq_some hb).mpr (.inr ⟨hki, hc⟩), hu, hk⟩
    · exact ⟨i, _, (getElem?_set_eq_some hb).mpr (.inl ⟨rfl, rfl⟩),
        (mem_pathNames_field hp).mpr (.inr rfl), hi⟩

/-- Parameters for fields feed composite arguments only. -/
def FieldsApart (plan : Plan) : Prop :=
  ∀ b ∈ plan, b.blank = false → b.argument.shape = .scalar → ∀ p ∈ b.params, p.param.field = none

theorem Binds.fieldsApart (h : Binds naming v plan plan') (hplan : plan.FieldsApart) :
    plan'.FieldsApart := by
  intro b' hb' hblank hshape p hp
  cases h with
  | explicit => exact hplan b' hb' hblank hshape p hp
  | argument hvar hi hb _ hread =>
    rcases List.mem_or_eq_of_mem_set hb' with hmem | rfl
    · exact hplan b' hmem hblank hshape p hp
    · obtain rfl := List.mem_singleton.mp hp
      rfl
  | field hvar hnamed hb hq hname hfield hexplicit hread =>
    rcases List.mem_or_eq_of_mem_set hb' with hmem | rfl
    · exact hplan b' hmem hblank hshape p hp
    · have hnone := hplan _ (List.mem_of_getElem? hb) hblank hshape _ (List.mem_of_getElem? hq)
      simp [hnone] at hfield

end Plan

namespace Method

variable {m : Method} {options : ResolveOptions} {decl : Declarations} {plan plan' : Plan}
  {vars : List String}

/-- Before variables are bound, parameters for fields feed composite arguments only. -/
theorem fieldsApart_of_bindings (hclauses : ∀ c ∈ decl.clauses, c.value.LeavesBody)
    {bs : List (Declared PlannedBinding)}
    (h : m.bindings (inference decl options) decl = .ok bs) :
    Plan.FieldsApart (bs.map (·.value)) := by
  intro b hb hnot hshape p hp
  rcases mem_bindings_cases rfl hclauses h hb with ⟨arg, hstarts⟩ | ⟨groups, hblank⟩
  · cases hstarts with
    | whole =>
      obtain rfl := List.mem_singleton.mp hp
      rfl
    | inferred hwhole hfor =>
      have hfed := hfor.fed
      rw [hfor.argument] at hshape
      rw [hshape] at hfed
      exact (hfed p hp).1
  · rw [hblank.blank] at hnot
    cases hnot

/-- Only scalars are claimed. -/
theorem scalar_of_claimed (h : vars.foldlM (m.bindPathVar decl options) plan = .ok plan') {i : Nat}
    (hi : some i ∈ (plan.claims options.naming vars).map (·.2)) :
    ∃ b, plan[i]? = some b ∧ b.argument.shape = .scalar := by
  induction vars generalizing plan with
  | nil => simp [Plan.claims] at hi
  | cons v vars ih =>
    obtain ⟨plan₁, hstep, hrest⟩ := foldlM_cons_eq_ok.mp h
    have hbinds := Plan.bindVariable_binds (at_eq_ok.mp hstep)
    have hlater (hi : some i ∈ (plan₁.claims options.naming vars).map (·.2)) :
        ∃ b, plan[i]? = some b ∧ b.argument.shape = .scalar := by
      obtain ⟨b₁, hb₁, hshape⟩ := ih hrest hi
      obtain ⟨b, hb, hargument⟩ := hbinds.argument_eq hb₁
      exact ⟨b, hb, hargument ▸ hshape⟩
    rcases hbinds.claims_cases vars with ⟨-, heq⟩ | ⟨k, b, hb, hshape, -, heq⟩ |
      ⟨k, j, b, p, -, -, -, -, -, -, heq⟩
    · exact hlater (heq ▸ hi)
    · rw [heq, List.map_cons, List.mem_cons] at hi
      rcases hi with hik | hi
      · exact ⟨b, Option.some.inj hik ▸ hb, hshape⟩
      · exact hlater hi
    · rw [heq, List.map_cons, List.mem_cons] at hi
      rcases hi with hik | hi
      · cases hik
      · exact hlater hi

/-- When all variables are bound, a name is read from the path if an argument that no variable
claims was read under it before, or else if the name is a variable that keeps what it claims. -/
theorem pathNames_of_run (h : vars.foldlM (m.bindPathVar decl options) plan = .ok plan')
    (hfields : plan.FieldsApart) {u : String} :
    (∃ b ∈ plan', u ∈ b.pathNames) ↔
      plan.ReadUnclaimed ((plan.claims options.naming vars).map (·.2)) u ∨
      Plan.KeepsClaim (plan.claims options.naming vars) u := by
  -- the plan is general, since the claims of later variables are made on what earlier ones leave
  induction vars generalizing plan with
  | nil =>
    obtain rfl := pure_eq_ok.mp h
    constructor
    · rintro ⟨b, hb, hu⟩
      obtain ⟨i, hi⟩ := List.mem_iff_getElem?.mp hb
      exact .inl ⟨i, b, hi, hu, by simp [Plan.claims]⟩
    · rintro (⟨i, b, hb, hu, -⟩ | ⟨earlier, claim, later, heq, -⟩)
      · exact ⟨b, List.mem_of_getElem? hb, hu⟩
      · simp [Plan.claims] at heq
  | cons v vars ih =>
    obtain ⟨plan₁, hstep, hrest⟩ := foldlM_cons_eq_ok.mp h
    have hbinds := Plan.bindVariable_binds (at_eq_ok.mp hstep)
    rw [ih hrest (hbinds.fieldsApart hfields)]
    rcases hbinds.claims_cases vars with ⟨rfl, heq⟩ | ⟨i, b, hb, -, rfl, heq⟩ |
      ⟨i, j, b, p, hb, hblank, hp, rfl, hfield, rfl, heq⟩
    · rw [heq]
    · rw [heq, Plan.keepsClaim_cons, Plan.readUnclaimed_set_argument hb, List.map_cons, or_assoc]
      simp
    · rw [heq, Plan.keepsClaim_cons, List.map_cons, Plan.readUnclaimed_set_field hb hp ?_,
        or_assoc]
      · simp [Plan.ReadUnclaimed]
      · -- the argument of the field is composite, and no composite argument is ever claimed
        intro hi
        obtain ⟨b', hb', hshape⟩ := scalar_of_claimed hrest hi
        rcases (getElem?_set_eq_some hb).mp hb' with ⟨-, rfl⟩ | ⟨hne, -⟩
        · have hmem : p ∈ b.params := List.mem_of_getElem? hp
          have hnone := hfields b (List.mem_of_getElem? hb) hblank hshape p hmem
          simp [hnone] at hfield
        · exact hne rfl

end Method

end Routespec
