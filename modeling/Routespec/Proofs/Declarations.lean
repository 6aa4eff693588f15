import Routespec.Method.Resolution
import Routespec.Proofs.Checked

/-!
# Declarations of a method, as read

What holds of everything that the directives of a method can declare: options never ask for the
body, the variables of a route are those of its pattern, and the operations of a method come from
its declarations.
-/

namespace Routespec

/-- A pair is filled in under a key that is known and was not given before. -/
theorem OptionKey.fill_cons_eq_ok {σ : Type} {keys : List (OptionKey σ)} {seen : List String}
    {record filled : σ} {pair : OptionPair} {rest : List OptionPair} :
    OptionKey.fill keys seen record (pair :: rest) = .ok filled ↔ ∃ key record',
      keys.find? (·.word = pair.key) = some key ∧ pair.key ∉ seen ∧
      key.set pair.value record = .ok record' ∧
      OptionKey.fill keys (pair.key :: seen) record' rest = .ok filled := by
  rw [OptionKey.fill]
  cases keys.find? (·.word = pair.key) with
  | none => simp
  | some key =>
    by_cases hseen : pair.key ∈ seen
    · simp [hseen]
    · simp only [hseen, ↓reduceIte, Option.some.injEq, not_false_eq_true, true_and]
      refine bind_eq_ok.trans ?_
      simp

/-- What every given key of a record keeps holds of the record filled in. -/
theorem OptionKey.fill_preserves {σ : Type} {keys : List (OptionKey σ)} {P : σ → Prop}
    {pairs : List OptionPair} {seen : List String} {record filled : σ}
    (hset : ∀ key ∈ keys, key.word ∈ pairs.map (·.key) → ∀ value record record',
      key.set value record = .ok record' → P record → P record')
    (hrecord : P record) (h : OptionKey.fill keys seen record pairs = .ok filled) : P filled := by
  induction pairs generalizing seen record with
  | nil =>
    rw [OptionKey.fill, Except.ok.injEq] at h
    exact h ▸ hrecord
  | cons pair rest ih =>
    obtain ⟨key, record', hkey, -, hrecord', h⟩ := OptionKey.fill_cons_eq_ok.mp h
    have hword : key.word = pair.key := by simpa using List.find?_some hkey
    rw [List.map_cons] at hset
    refine ih (fun key hkey hmem => hset key hkey (List.mem_cons_of_mem _ hmem))
      (hset key (List.mem_of_find?_eq_some hkey) ?_ _ _ _ hrecord' hrecord) h
    exact hword ▸ List.mem_cons_self

/-- Pairs that are filled in have distinct keys, none of which was given before. -/
theorem OptionKey.nodup_of_fill {σ : Type} {keys : List (OptionKey σ)} {pairs : List OptionPair}
    {seen : List String} {record filled : σ}
    (h : OptionKey.fill keys seen record pairs = .ok filled) :
    (pairs.map (·.key)).Nodup ∧ ∀ pair ∈ pairs, pair.key ∉ seen := by
  induction pairs generalizing seen record with
  | nil => simp
  | cons pair rest ih =>
    obtain ⟨_, _, -, hfresh, -, h⟩ := OptionKey.fill_cons_eq_ok.mp h
    obtain ⟨hdistinct, hrest⟩ := ih h
    rw [List.map_cons, List.nodup_cons, List.forall_mem_cons]
    refine ⟨⟨fun hmem => ?_, hdistinct⟩, hfresh, fun other hother hseen => ?_⟩
    · obtain ⟨other, hother, hkey⟩ := List.mem_map.mp hmem
      exact hrest other hother (hkey ▸ List.mem_cons_self)
    · exact hrest other hother (List.mem_cons_of_mem _ hseen)

/-- The body is not among the locations that an option may ask for. -/
theorem ne_body_of_readLocation {value : String} {l : Location} (h : readLocation value = .ok l) :
    l ≠ .body := by
  unfold readLocation at h
  split at h
  · next l' hl' =>
    obtain rfl : l' = l := by simpa using h
    have hmem := List.mem_of_find?_eq_some hl'
    rintro rfl
    exact absurd hmem (by decide)
  · exact absurd h fail_ne_ok

namespace ParamOptions

/-- The options do not ask for the body. -/
def LeaveBody (o : ParamOptions) : Prop := o.location ≠ some .body

theorem leaveBody_of_ofPairs {pairs : List OptionPair} {o : ParamOptions}
    (h : ofPairs pairs = .ok o) : o.LeaveBody := by
  refine OptionKey.fill_preserves (P := LeaveBody) ?_ (by simp [LeaveBody]) h
  intro key hkey _ value record record' hset hrecord
  simp only [keys, List.mem_cons, List.not_mem_nil, or_false] at hkey
  rcases hkey with rfl | rfl | rfl | rfl | rfl
  · obtain ⟨l, hl, rfl⟩ := map_eq_ok.mp hset
    simpa [LeaveBody] using ne_body_of_readLocation hl
  · obtain rfl := Except.ok.inj hset
    exact hrecord
  · obtain ⟨b, -, rfl⟩ := map_eq_ok.mp hset
    exact hrecord
  · obtain rfl := Except.ok.inj hset
    exact hrecord
  · obtain rfl := Except.ok.inj hset
    exact hrecord

theorem leaveBody_of_read {t : Text} {o : ParamOptions} (h : read t = .ok o) : o.LeaveBody := by
  obtain ⟨pairs, -, h⟩ := bind_eq_ok.mp h
  exact leaveBody_of_ofPairs h

end ParamOptions

theorem FieldMeta.leaveBody_of_read {text : String} {o : ParamOptions}
    (h : FieldMeta.read text = .ok (.options o)) : o.LeaveBody := by
  unfold FieldMeta.read at h
  split at h
  · simp at h
  · obtain ⟨o', ho', h⟩ := map_eq_ok.mp h
    obtain rfl : o' = o := by simpa using h
    exact ParamOptions.leaveBody_of_read ho'

/-- Metadata omits its field exactly if it is a lone hyphen. -/
theorem FieldMeta.read_eq_omitted {text : String} :
    FieldMeta.read text = .ok .omitted ↔ Text.trim text.toList = ['-'] := by
  unfold FieldMeta.read
  split
  · simp [*]
  · simp [map_eq_ok, *]

namespace ArgumentClause

/-- No option group of the clause asks for the body. -/
def LeavesBody (c : ArgumentClause) : Prop := ∀ group ∈ c.groups, group.LeaveBody

theorem leavesBody_of_read {clause : Text} {c : ArgumentClause} (h : read clause = .ok c) :
    c.LeavesBody := by
  obtain ⟨⟨argument, rest⟩, -, h⟩ := bind_eq_ok.mp h
  obtain ⟨pairs, -, h⟩ := bind_eq_ok.mp h
  obtain ⟨groups, hgroups, h⟩ := bind_eq_ok.mp h
  obtain rfl := pure_eq_ok.mp h
  intro group hgroup
  obtain ⟨ps, -, hps⟩ := forall₂_mem_right (mapM_eq_ok.mp (within_eq_ok.mp hgroups)) hgroup
  exact ParamOptions.leaveBody_of_ofPairs hps

theorem leavesBody_of_readAll {args : String} {cs : List ArgumentClause}
    (h : readAll args = .ok cs) : ∀ c ∈ cs, c.LeavesBody := by
  unfold readAll at h
  split at h
  · exact absurd h fail_ne_ok
  · intro c hc
    obtain ⟨text, -, htext⟩ := forall₂_mem_right (mapM_eq_ok.mp h) hc
    exact leavesBody_of_read htext

end ArgumentClause

/-- A route's variables are those of its pattern. -/
theorem Route.vars_of_read {args : String} {route : Route} (h : Route.read args = .ok route) :
    PathPattern.vars route.pattern = .ok route.vars := by
  unfold Route.read at h
  split at h
  · split at h
    · obtain ⟨vars, hvars, rfl⟩ := map_eq_ok.mp h
      exact hvars
    · exact absurd h fail_ne_ok
  · exact absurd h fail_ne_ok

namespace Declarations

/-- The directive declares the route. -/
def Declares (d : Directive) (route : Declared Route) : Prop :=
  Route.read d.args = .ok route.value ∧ route.raw = d.raw

/-- What no two routes share. -/
def routeKey (route : Declared Route) : HttpMethod × String :=
  (route.value.method, route.value.pattern)

theorem readRoutes_eq_ok {owner : String} {earlier : List (HttpMethod × String)}
    {ds : List Directive} {routes : List (Declared Route)} :
    readRoutes owner earlier ds = .ok routes ↔
      List.Forall₂ Declares ds routes ∧ (routes.map routeKey).Nodup ∧
        ∀ route ∈ routes, routeKey route ∉ earlier := by
  -- `earlier` is general, since each route that is read is added to it
  induction ds generalizing earlier routes with
  | nil =>
    constructor
    · intro h
      obtain rfl := Except.ok.inj h
      simp
    · rintro ⟨h, -, -⟩
      rw [List.forall₂_nil_left_iff.mp h]
      rfl
  | cons d ds ih =>
    constructor
    · intro h
      obtain ⟨value, hvalue, h⟩ := bind_eq_ok.mp h
      split at h
      · exact absurd (at_eq_ok.mp h) fail_ne_ok
      · next hfresh =>
        obtain ⟨rest, hrest, h⟩ := bind_eq_ok.mp h
        obtain rfl := pure_eq_ok.mp h
        obtain ⟨hdeclared, hnodup, hfree⟩ := ih.mp hrest
        refine ⟨.cons ⟨at_eq_ok.mp hvalue, rfl⟩ hdeclared, ?_, ?_⟩
        · rw [List.map_cons, List.nodup_cons]
          refine ⟨fun hmem => ?_, hnodup⟩
          obtain ⟨route, hroute, hkey⟩ := List.mem_map.mp hmem
          exact hfree route hroute (hkey ▸ List.mem_cons_self)
        · rw [List.forall_mem_cons]
          exact ⟨hfresh, fun route hroute hmem =>
            hfree route hroute (List.mem_cons_of_mem _ hmem)⟩
    · rintro ⟨hdeclared, hnodup, hfree⟩
      obtain ⟨⟨value, raw⟩, rest, ⟨hvalue, hraw⟩, hrest, rfl⟩ :=
        List.forall₂_cons_left_iff.mp hdeclared
      obtain rfl : raw = d.raw := hraw
      rw [List.map_cons, List.nodup_cons] at hnodup
      rw [List.forall_mem_cons] at hfree
      have hfresh : (value.method, value.pattern) ∉ earlier := hfree.1
      refine bind_eq_ok.mpr ⟨value, at_eq_ok.mpr hvalue, ?_⟩
      rw [if_neg hfresh]
      refine bind_eq_ok.mpr ⟨rest, ih.mpr ⟨hrest, hnodup.2, fun route hroute hmem => ?_⟩, rfl⟩
      rcases List.mem_cons.mp hmem with hkey | hmem
      · exact hnodup.1 (List.mem_map.mpr ⟨route, hroute, hkey⟩)
      · exact hfree.2 route hroute hmem

theorem routesOf_eq_ok {owner : String} {ds : List Directive} {routes : List (Declared Route)} :
    routesOf owner ds = .ok routes ↔
      List.Forall₂ Declares ds routes ∧ (routes.map routeKey).Nodup ∧ routes ≠ [] := by
  unfold routesOf
  rw [bind_eq_ok]
  constructor
  · rintro ⟨found, hfound, h⟩
    split at h
    · exact absurd (at_eq_ok.mp h) fail_ne_ok
    · next hsome =>
      obtain rfl := pure_eq_ok.mp h
      obtain ⟨hdeclared, hnodup, -⟩ := readRoutes_eq_ok.mp hfound
      exact ⟨hdeclared, hnodup, hsome⟩
  · rintro ⟨hdeclared, hnodup, hsome⟩
    exact ⟨routes, readRoutes_eq_ok.mpr ⟨hdeclared, hnodup, by simp⟩, by rw [if_neg hsome]; rfl⟩

theorem leavesBody_of_readClauses {m : Method} {ds : List Directive} {claimed : List String}
    {cs : List (Declared ArgumentClause)} (h : readClauses m claimed ds = .ok cs) :
    ∀ c ∈ cs, c.value.LeavesBody := by
  induction ds generalizing claimed cs with
  | nil =>
    obtain rfl := Except.ok.inj h
    simp
  | cons d ds ih =>
    obtain ⟨clauses, hclauses, h⟩ := bind_eq_ok.mp h
    obtain ⟨claimed', -, h⟩ := bind_eq_ok.mp h
    obtain ⟨more, hmore, h⟩ := bind_eq_ok.mp h
    obtain rfl := pure_eq_ok.mp h
    intro c hc
    rw [List.mem_append, List.mem_map] at hc
    rcases hc with ⟨clause, hclause, rfl⟩ | hc
    · exact ArgumentClause.leavesBody_of_readAll (at_eq_ok.mp hclauses) clause hclause
    · exact ih hmore c hc

/-- A directive that may be given once is not given, or given once. -/
theorem atMostOne_eq_ok {α : Type} {owner : String} {read : String → Checked α}
    {ds : List Directive} {v : Option (Declared α)} : atMostOne owner read ds = .ok v ↔
      (ds = [] ∧ v = none) ∨
        ∃ d value, ds = [d] ∧ read d.args = .ok value ∧ v = some ⟨value, d.raw⟩ := by
  rcases ds with _ | ⟨d, _ | ⟨again, rest⟩⟩
  · simp [atMostOne, eq_comm]
  · simp only [atMostOne, bind_eq_ok, at_eq_ok, pure_eq_ok]
    simp [eq_comm]
  · simp [atMostOne, bind_eq_ok]

/-- The parts that declarations are read from. -/
theorem read_eq_ok {m : Method} {ds : List Directive} {decl : Declarations} :
    read m ds = .ok decl ↔ routesOf m.name (select .op ds) = .ok decl.routes ∧
      atMostOne m.name BodyRule.read (select .body ds) = .ok decl.body ∧
      atMostOne m.name SuccessRule.read (select .success ds) = .ok decl.success ∧
      tagsOf m.name (select .oas ds) = .ok decl.tags ∧
      readClauses m [] (select .param ds) = .ok decl.clauses := by
  constructor
  · intro h
    obtain ⟨routes, hroutes, h⟩ := bind_eq_ok.mp h
    obtain ⟨body, hbody, h⟩ := bind_eq_ok.mp h
    obtain ⟨success, hsuccess, h⟩ := bind_eq_ok.mp h
    obtain ⟨tags, htags, h⟩ := bind_eq_ok.mp h
    obtain ⟨clauses, hclauses, h⟩ := bind_eq_ok.mp h
    obtain rfl := pure_eq_ok.mp h
    exact ⟨hroutes, hbody, hsuccess, htags, hclauses⟩
  · rintro ⟨hroutes, hbody, hsuccess, htags, hclauses⟩
    refine bind_eq_ok.mpr ⟨_, hroutes, bind_eq_ok.mpr ⟨_, hbody, bind_eq_ok.mpr ⟨_, hsuccess, ?_⟩⟩⟩
    exact bind_eq_ok.mpr ⟨_, htags, bind_eq_ok.mpr ⟨_, hclauses, rfl⟩⟩

theorem claim_doc {m : Method} (doc : List String) {cs : List ArgumentClause}
    {claimed : List String} :
    claim { m with doc } claimed cs = claim m claimed cs := by
  induction cs generalizing claimed with
  | nil => rfl
  | cons c cs ih =>
    simp only [claim, ih]
    rfl

theorem readClauses_doc {m : Method} {ds : List Directive} (doc : List String)
    {claimed : List String} :
    readClauses { m with doc } claimed ds = readClauses m claimed ds := by
  induction ds generalizing claimed with
  | nil => rfl
  | cons d ds ih => simp only [readClauses, claim_doc, ih]

/-- Directives declare what they do whatever comment they stand in. -/
theorem read_doc {m : Method} {ds : List Directive} (doc : List String) :
    read { m with doc } ds = read m ds := by
  simp only [read, readClauses_doc]

/-- The variables of a route, as declared, are those of its pattern. -/
theorem vars_of_read {m : Method} {ds : List Directive} {decl : Declarations}
    (h : read m ds = .ok decl) :
    ∀ route ∈ decl.routes, PathPattern.vars route.value.pattern = .ok route.value.vars := by
  obtain ⟨hdeclared, -, -⟩ := routesOf_eq_ok.mp (read_eq_ok.mp h).1
  intro route hroute
  obtain ⟨d, -, hread, -⟩ := forall₂_mem_right hdeclared hroute
  exact Route.vars_of_read hread

/-- No declared clause asks for the body. -/
theorem leavesBody_of_read {m : Method} {ds : List Directive} {decl : Declarations}
    (h : read m ds = .ok decl) : ∀ c ∈ decl.clauses, c.value.LeavesBody :=
  leavesBody_of_readClauses (read_eq_ok.mp h).2.2.2.2

/-- The arguments that clauses name, in order. -/
def namedArguments (cs : List ArgumentClause) : List String :=
  (cs.map (·.argument)).filter (· ≠ blankName)

theorem namedArguments_cons (c : ArgumentClause) (cs : List ArgumentClause) :
    namedArguments (c :: cs) =
      if c.argument = blankName then namedArguments cs else c.argument :: namedArguments cs := by
  by_cases hblank : c.argument = blankName <;> simp [namedArguments, hblank]

theorem namedArguments_perm {cs cs' : List ArgumentClause} (hperm : cs.Perm cs') :
    (namedArguments cs).Perm (namedArguments cs') :=
  (hperm.map _).filter _

/-- Clauses claim the arguments that they name, which the method has to have, each of them once. -/
theorem claim_eq_ok {m : Method} {cs : List ArgumentClause} {claimed claimed' : List String}
    (hclaimed : claimed.Nodup) :
    claim m claimed cs = .ok claimed' ↔ claimed' = (namedArguments cs).reverse ++ claimed ∧
      claimed'.Nodup ∧ ∀ a ∈ namedArguments cs, (m.arg? a).isSome = true := by
  induction cs generalizing claimed with
  | nil =>
    rw [claim, Except.ok.injEq, eq_comm]
    refine ⟨fun h => ⟨h, h ▸ hclaimed, by simp [namedArguments]⟩, fun h => h.1⟩
  | cons c cs ih =>
    rw [claim, namedArguments_cons]
    by_cases hblank : c.argument = blankName
    · rw [if_pos hblank, if_pos hblank, ih hclaimed]
    · rw [if_neg hblank, if_neg hblank, List.reverse_cons, List.append_assoc,
        List.forall_mem_cons]
      by_cases hunknown : (m.arg? c.argument).isNone = true
      · rw [if_pos hunknown]
        refine iff_of_false fail_ne_ok fun h => ?_
        have hknown := h.2.2.1
        rw [Option.isNone_iff_eq_none.mp hunknown] at hknown
        cases hknown
      · rw [if_neg hunknown]
        by_cases htaken : c.argument ∈ claimed
        · rw [if_pos htaken]
          refine iff_of_false fail_ne_ok fun h => ?_
          have hnodup := h.1 ▸ h.2.1
          exact (List.nodup_cons.mp hnodup.of_append_right).1 htaken
        · have hknown : (m.arg? c.argument).isSome = true := by
            rwa [← Option.not_isNone, Bool.not_eq_true', ← Bool.not_eq_true]
          rw [if_neg htaken, ih (List.nodup_cons.mpr ⟨htaken, hclaimed⟩)]
          simp [hknown]

/-- The clauses that a directive declares. -/
def clausesOf (d : Directive) : List (Declared ArgumentClause) :=
  ((ArgumentClause.readAll d.args).toOption.getD []).map (⟨·, d.raw⟩)

theorem clausesOf_of_readAll {d : Directive} {clauses : List ArgumentClause}
    (h : ArgumentClause.readAll d.args = .ok clauses) :
    clausesOf d = clauses.map (⟨·, d.raw⟩) := by
  simp [clausesOf, h, Except.toOption]

/-- Clauses are read directive by directive, and claim their arguments all together. -/
theorem readClauses_eq_ok {m : Method} {ds : List Directive} {claimed : List String}
    {cs : List (Declared ArgumentClause)} (hclaimed : claimed.Nodup) :
    readClauses m claimed ds = .ok cs ↔
      (∀ d ∈ ds, ∃ clauses, ArgumentClause.readAll d.args = .ok clauses) ∧
      cs = ds.flatMap clausesOf ∧
      ((namedArguments (cs.map (·.value))).reverse ++ claimed).Nodup ∧
      ∀ a ∈ namedArguments (cs.map (·.value)), (m.arg? a).isSome = true := by
  induction ds generalizing claimed cs with
  | nil =>
    rw [readClauses, Except.ok.injEq, eq_comm]
    refine ⟨fun h => ?_, fun h => h.2.1⟩
    subst h
    exact ⟨by simp, rfl, hclaimed, by simp [namedArguments]⟩
  | cons d ds ih =>
    have hnames (clauses : List ArgumentClause) (more : List (Declared ArgumentClause)) :
        namedArguments ((clauses.map (Declared.mk · d.raw) ++ more).map (·.value)) =
          namedArguments clauses ++ namedArguments (more.map (·.value)) := by
      simp [namedArguments, Function.comp_def]
    rw [List.forall_mem_cons, List.flatMap_cons]
    constructor
    · intro h
      obtain ⟨clauses, hclauses, h⟩ := bind_eq_ok.mp h
      obtain ⟨claimed', hclaim, h⟩ := bind_eq_ok.mp h
      obtain ⟨more, hmore, h⟩ := bind_eq_ok.mp h
      obtain rfl := pure_eq_ok.mp h
      rw [at_eq_ok] at hclauses hclaim
      obtain ⟨rfl, hnodup, hknown⟩ := (claim_eq_ok hclaimed).mp hclaim
      obtain ⟨hread, rfl, hnodup', hknown'⟩ := (ih hnodup).mp hmore
      refine ⟨⟨⟨clauses, hclauses⟩, hread⟩, by rw [clausesOf_of_readAll hclauses], ?_, ?_⟩
      · rwa [hnames, List.reverse_append, List.append_assoc]
      · rw [hnames]
        exact List.forall_mem_append.mpr ⟨hknown, hknown'⟩
    · rintro ⟨⟨⟨clauses, hclauses⟩, hread⟩, rfl, hnodup, hknown⟩
      rw [clausesOf_of_readAll hclauses, hnames, List.reverse_append, List.append_assoc] at hnodup
      rw [clausesOf_of_readAll hclauses, hnames] at hknown
      obtain ⟨hknown, hknown'⟩ := List.forall_mem_append.mp hknown
      have hclaimed' := hnodup.of_append_right
      refine bind_eq_ok.mpr ⟨clauses, at_eq_ok.mpr hclauses, bind_eq_ok.mpr ⟨_,
        at_eq_ok.mpr ((claim_eq_ok hclaimed).mpr ⟨rfl, hclaimed', hknown⟩), ?_⟩⟩
      refine bind_eq_ok.mpr ⟨_, (ih hclaimed').mpr ⟨hread, rfl, hnodup, hknown'⟩, ?_⟩
      rw [clausesOf_of_readAll hclauses]
      rfl

/-- A clause that names an argument is the one that the argument has. -/
theorem clause?_eq_some {m : Method} {ds : List Directive} {decl : Declarations}
    (h : read m ds = .ok decl) {c : Declared ArgumentClause} (hc : c ∈ decl.clauses)
    (hnamed : c.value.argument ≠ blankName) : decl.clause? c.value.argument = some c := by
  obtain ⟨-, -, hnodup, -⟩ := (readClauses_eq_ok List.nodup_nil).mp (read_eq_ok.mp h).2.2.2.2
  rw [List.append_nil, List.nodup_reverse, namedArguments, List.map_map, List.filter_map] at hnodup
  have hmem : c ∈ decl.clauses.filter (·.value.argument ≠ blankName) :=
    List.mem_filter.mpr ⟨hc, by simpa using hnamed⟩
  have hfound := find?_eq_some_of_nodup hnodup hmem
  rw [List.find?_filter] at hfound
  simpa [clause?] using hfound

/-- A whole body has to be an argument without a clause, and every route has to carry it. -/
theorem checkWholeBody_eq_ok {m : Method} {decl : Declarations} {u : Unit} :
    decl.checkWholeBody m = .ok u ↔ ∀ argument raw, decl.wholeBody? = some ⟨argument, raw⟩ →
      (∃ arg, m.arg? argument = some arg) ∧ (∀ c ∈ decl.clauses, c.value.argument ≠ argument) ∧
      ∀ route ∈ decl.routes, route.value.method.carriesBody = true := by
  unfold checkWholeBody
  cases decl.wholeBody? with
  | none => simp
  | some whole =>
    obtain ⟨argument, raw⟩ := whole
    have hone (P : String → Prop) :
        (∀ a r, some (⟨argument, raw⟩ : Declared String) = some ⟨a, r⟩ → P a) ↔ P argument :=
      ⟨fun h => h argument raw rfl, fun h a r heq => by cases heq; exact h⟩
    rw [hone fun argument => (∃ arg, m.arg? argument = some arg) ∧
      (∀ c ∈ decl.clauses, c.value.argument ≠ argument) ∧
      ∀ route ∈ decl.routes, route.value.method.carriesBody = true]
    simp only [at_eq_ok]
    cases harg : m.arg? argument with
    | none => simp
    | some arg =>
      by_cases hclause : decl.clauses.any (·.value.argument = argument) = true
      · rw [if_neg (by simp), if_pos hclause]
        obtain ⟨c, hc, hname⟩ := List.any_eq_true.mp hclause
        exact iff_of_false fail_ne_ok fun h => h.2.1 c hc (by simpa using hname)
      · rw [if_neg (by simp), if_neg hclause]
        have hfree : ∀ c ∈ decl.clauses, c.value.argument ≠ argument := by simpa using hclause
        cases hroute : decl.routes.find? (!·.value.method.carriesBody) with
        | none =>
          have hcarried : ∀ route ∈ decl.routes, route.value.method.carriesBody = true := by
            simpa using hroute
          exact iff_of_true rfl ⟨⟨arg, rfl⟩, hfree, hcarried⟩
        | some route =>
          refine iff_of_false fail_ne_ok fun h => ?_
          have hnot : route.value.method.carriesBody = false := by
            simpa using List.find?_some hroute
          rw [h.2.2 route (List.mem_of_find?_eq_some hroute)] at hnot
          cases hnot

theorem mem_pathVars {decl : Declarations} {v : String} :
    v ∈ decl.pathVars ↔ ∃ route ∈ decl.routes, v ∈ route.value.vars := by
  simp [pathVars]

end Declarations

end Routespec
