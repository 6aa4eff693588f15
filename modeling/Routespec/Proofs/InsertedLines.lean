import Routespec.Proofs.Resolution
import Routespec.Proofs.WrittenDirectives

/-!
# Comments with a line inserted

A line that is not broken itself goes into a comment behind lines that do not end in a broken one,
and changes none of the lines around it. If it is a directive, the comment has one directive more
and the same free text.
-/

namespace Routespec

namespace Comment

/-- What the next line continues behind the lines, of which the first continues `pending`. -/
def pendingAfter : Option Text → List Text → Option Text
  | pending, [] => pending
  | pending, line :: rest => pendingAfter (broken? (textAfter pending line)) rest

/-- The next line stands by itself. -/
def EndsUnbroken (lines : List String) : Prop := pendingAfter none (lines.map (·.toList)) = none

instance (lines : List String) : Decidable (EndsUnbroken lines) :=
  inferInstanceAs (Decidable (_ = _))

/-- Lines are joined in two parts where the second part continues nothing. -/
theorem joinFrom_append {pending : Option Text} {before : List Text} (after : List Text)
    (h : pendingAfter pending before = none) :
    joinFrom pending (before ++ after) = joinFrom pending before ++ joinLines after := by
  induction before generalizing pending with
  | nil =>
    obtain rfl : pending = none := h
    rfl
  | cons line before ih =>
    rw [pendingAfter] at h
    rw [List.cons_append, joinFrom_cons, joinFrom_cons]
    cases hbroken : broken? (textAfter pending line) with
    | some start => exact ih (hbroken ▸ h)
    | none => exact congrArg (textAfter pending line :: ·) (ih (hbroken ▸ h))

theorem joinLines_append {before : List String} (h : EndsUnbroken before) (after : List String) :
    joinLines ((before ++ after).map (·.toList)) =
      joinLines (before.map (·.toList)) ++ joinLines (after.map (·.toList)) := by
  rw [List.map_append]
  exact joinFrom_append _ h

/-- A line that is not broken is joined to nothing behind it. -/
theorem joinLines_cons {line : String} (h : broken? (Text.trimRight line.toList) = none)
    (after : List String) :
    joinLines ((line :: after).map (·.toList)) =
      Text.trimRight line.toList :: joinLines (after.map (·.toList)) := by
  have htext : textAfter none line.toList = Text.trimRight line.toList := rfl
  rw [List.map_cons, joinLines, joinFrom_cons, htext, h]
  rfl

/-- A directive is no free text. -/
theorem description_insert (before after : List Text) {line : Text}
    (hmarked : Directive.marked? line ≠ none) :
    description (before ++ line :: after) = description (before ++ after) := by
  unfold description
  rw [List.filter_append, List.filter_append, List.filter_cons_of_neg (by simp [hmarked])]

end Comment

namespace CommentBlock

variable {owner : String} {before after : List String} {line : String} {block : CommentBlock}

/-- A comment is read joined line by joined line. -/
theorem read_eq_ok_of_joined {lines : List String} {joined : List Text}
    (hjoined : Comment.joinLines (lines.map (·.toList)) = joined) :
    read owner lines = .ok block ↔ ∃ found,
      List.Forall₂ (fun line d? => Directive.ofLine owner line = .ok d?) joined found ∧
      block = ⟨found.filterMap id, String.ofList (Comment.description joined)⟩ := by
  unfold read
  dsimp only
  rw [hjoined, bind_eq_ok]
  refine exists_congr fun found => and_congr mapM_eq_ok ?_
  rw [pure_eq_ok, eq_comm]

/-- Without the joined line of a directive, a comment has the other directives and the same text. -/
theorem read_remove {lines lines' : List String} {joined₁ joined₂ : List Text} {text : Text}
    {d : Directive}
    (hjoined : Comment.joinLines (lines.map (·.toList)) = joined₁ ++ text :: joined₂)
    (hjoined' : Comment.joinLines (lines'.map (·.toList)) = joined₁ ++ joined₂)
    (hd : Directive.ofLine owner text = .ok (some d)) (h : read owner lines = .ok block) :
    ∃ ds₁ ds₂, block.directives = ds₁ ++ d :: ds₂ ∧
      read owner lines' = .ok ⟨ds₁ ++ ds₂, block.description⟩ := by
  obtain ⟨found, hfound, rfl⟩ := (read_eq_ok_of_joined hjoined).mp h
  obtain ⟨found₁, rest, rfl, hfound₁, hrest⟩ := forall₂_append_left hfound
  obtain ⟨d?, found₂, hd?, hfound₂, rfl⟩ := List.forall₂_cons_left_iff.mp hrest
  obtain rfl := Except.ok.inj (hd.symm.trans hd?)
  refine ⟨found₁.filterMap id, found₂.filterMap id, ?_, (read_eq_ok_of_joined hjoined').mpr
    ⟨found₁ ++ found₂, List.rel_append hfound₁ hfound₂, ?_⟩⟩
  · rw [List.filterMap_append, List.filterMap_cons_some (id_eq (some d))]
  · simp only [List.filterMap_append,
      Comment.description_insert _ _ (Directive.marked_of_ofLine hd).1]

/-- With a directive on a line of its own, a comment has that directive between the others. -/
theorem read_insert {d : Directive} (h : read owner (before ++ after) = .ok block)
    (hbefore : Comment.EndsUnbroken before)
    (hline : Comment.broken? (Text.trimRight line.toList) = none)
    (hd : Directive.ofLine owner line.toList = .ok (some d)) :
    ∃ ds₁ ds₂, block.directives = ds₁ ++ ds₂ ∧
      read owner (before ++ line :: after) = .ok ⟨ds₁ ++ d :: ds₂, block.description⟩ := by
  have hjoined := Comment.joinLines_append hbefore (line :: after)
  rw [Comment.joinLines_cons hline] at hjoined
  obtain ⟨found, hfound, rfl⟩ :=
    (read_eq_ok_of_joined (Comment.joinLines_append hbefore after)).mp h
  obtain ⟨found₁, found₂, rfl, hfound₁, hfound₂⟩ := forall₂_append_left hfound
  rw [← Directive.ofLine_trimRight] at hd
  refine ⟨found₁.filterMap id, found₂.filterMap id, List.filterMap_append,
    (read_eq_ok_of_joined hjoined).mpr ⟨found₁ ++ some d :: found₂, ?_, ?_⟩⟩
  · exact List.rel_append hfound₁ (.cons hd hfound₂)
  · simp only [List.filterMap_append, List.filterMap_cons_some (id_eq (some d)),
      Comment.description_insert _ _ (Directive.marked_of_ofLine hd).1]

end CommentBlock

namespace Method

variable {m : Method} {aliases : AliasTable}

/-- Directives are expanded in two parts. -/
theorem expandDirectives_append_eq_ok {description : String} {ds₁ ds₂ ds : List Directive} :
    m.expandDirectives aliases ⟨ds₁ ++ ds₂, description⟩ = .ok ds ↔ ∃ es₁ es₂, ds = es₁ ++ es₂ ∧
      m.expandDirectives aliases ⟨ds₁, description⟩ = .ok es₁ ∧
      m.expandDirectives aliases ⟨ds₂, description⟩ = .ok es₂ := by
  unfold expandDirectives
  rw [List.filter_append]
  simp only [mapM_eq_ok]
  constructor
  · exact forall₂_append_left
  · rintro ⟨es₁, es₂, rfl, hes₁, hes₂⟩
    exact List.rel_append hes₁ hes₂

/-- The first of some directives is expanded by itself. -/
theorem expandDirectives_cons_eq_ok {description : String} {ds es : List Directive} {d : Directive}
    (hd : d.keyword.isHttp = true) :
    m.expandDirectives aliases ⟨d :: ds, description⟩ = .ok es ↔ ∃ args rest,
      aliases.expand d.args = .ok args ∧
      m.expandDirectives aliases ⟨ds, description⟩ = .ok rest ∧ es = { d with args } :: rest := by
  have hkept : (d :: ds).filter (·.keyword.isHttp) = d :: ds.filter (·.keyword.isHttp) :=
    List.filter_cons_of_pos (p := fun d : Directive => d.keyword.isHttp) hd
  unfold expandDirectives
  rw [hkept]
  simp only [mapM_eq_ok, List.forall₂_cons_left_iff, map_eq_ok, at_eq_ok]
  constructor
  · rintro ⟨_, rest, ⟨args, hargs, rfl⟩, hrest, rfl⟩
    exact ⟨args, rest, hargs, hrest, rfl⟩
  · rintro ⟨args, rest, hargs, hrest, rfl⟩
    exact ⟨_, rest, ⟨args, hargs, rfl⟩, hrest, rfl⟩

/-- A directive without references stays as it is when aliases are expanded. -/
theorem expandDirectives_insert {description : String} {ds₁ ds₂ ds : List Directive} {d : Directive}
    (h : m.expandDirectives aliases ⟨ds₁ ++ ds₂, description⟩ = .ok ds)
    (hd : d.keyword.isHttp = true) (hargs : aliases.expand d.args = .ok d.args) :
    ∃ es₁ es₂, ds = es₁ ++ es₂ ∧
      m.expandDirectives aliases ⟨ds₁ ++ d :: ds₂, description⟩ = .ok (es₁ ++ d :: es₂) := by
  obtain ⟨es₁, es₂, rfl, hes₁, hes₂⟩ := expandDirectives_append_eq_ok.mp h
  exact ⟨es₁, es₂, rfl, expandDirectives_append_eq_ok.mpr
    ⟨es₁, d :: es₂, rfl, hes₁, (expandDirectives_cons_eq_ok hd).mpr ⟨_, es₂, hargs, hes₂, rfl⟩⟩⟩

/-- The other directives are expanded without one of them as with it. -/
theorem expandDirectives_remove {description : String} {ds₁ ds₂ ds : List Directive} {d : Directive}
    (h : m.expandDirectives aliases ⟨ds₁ ++ d :: ds₂, description⟩ = .ok ds)
    (hd : d.keyword.isHttp = true) : ∃ es₁ args es₂, ds = es₁ ++ { d with args } :: es₂ ∧
      aliases.expand d.args = .ok args ∧
      m.expandDirectives aliases ⟨ds₁ ++ ds₂, description⟩ = .ok (es₁ ++ es₂) := by
  obtain ⟨es₁, rest, rfl, hes₁, hrest⟩ := expandDirectives_append_eq_ok.mp h
  obtain ⟨args, es₂, hargs, hes₂, rfl⟩ := (expandDirectives_cons_eq_ok hd).mp hrest
  exact ⟨es₁, args, es₂, rfl, hargs,
    expandDirectives_append_eq_ok.mpr ⟨es₁, es₂, rfl, hes₁, hes₂⟩⟩

end Method

namespace Declarations

variable {m : Method} {ds₁ ds₂ : List Directive} {d : Directive} {decl : Declarations}
  {c : ArgumentClause}

/-- One more directive is not among those of another kind. -/
theorem select_insert_of_ne (ds₁ ds₂ : List Directive) {keyword : Keyword}
    (h : d.keyword ≠ keyword) :
    select keyword (ds₁ ++ d :: ds₂) = select keyword (ds₁ ++ ds₂) := by
  simp [select, h]

theorem select_insert_self (ds₁ ds₂ : List Directive) {keyword : Keyword}
    (h : d.keyword = keyword) :
    select keyword (ds₁ ++ d :: ds₂) = select keyword ds₁ ++ d :: select keyword ds₂ := by
  simp [select, h]

/-- One more clause names its own argument, unless it is for a blank binding, and no other. -/
theorem namedArguments_insert (cs₁ cs₂ : List (Declared ArgumentClause)) (c : ArgumentClause)
    (raw : String) : (namedArguments ((cs₁ ++ ⟨c, raw⟩ :: cs₂).map (·.value))).Perm
      (if c.argument = blankName then namedArguments ((cs₁ ++ cs₂).map (·.value))
        else c.argument :: namedArguments ((cs₁ ++ cs₂).map (·.value))) := by
  rw [← namedArguments_cons]
  have hmiddle : (cs₁ ++ ⟨c, raw⟩ :: cs₂).Perm (⟨c, raw⟩ :: (cs₁ ++ cs₂)) := List.perm_middle
  exact namedArguments_perm (hmiddle.map (·.value))

/-- One more clause, for an argument that has none, is declared between the others. -/
theorem read_insert_clause (h : read m (ds₁ ++ ds₂) = .ok decl) (hd : d.keyword = .param)
    (hread : ArgumentClause.readAll d.args = .ok [c]) (hknown : (m.arg? c.argument).isSome = true)
    (hfree : ∀ c' ∈ decl.clauses, c'.value.argument ≠ c.argument) :
    ∃ cs₁ cs₂, decl.clauses = cs₁ ++ cs₂ ∧
      read m (ds₁ ++ d :: ds₂) = .ok { decl with clauses := cs₁ ++ ⟨c, d.raw⟩ :: cs₂ } := by
  obtain ⟨hroutes, hbody, hsuccess, htags, hclauses⟩ := read_eq_ok.mp h
  have hother {keyword : Keyword} (hkeyword : .param ≠ keyword) :
      select keyword (ds₁ ++ d :: ds₂) = select keyword (ds₁ ++ ds₂) :=
    select_insert_of_ne ds₁ ds₂ (hd ▸ hkeyword)
  have hparam := select_insert_self ds₁ ds₂ hd
  obtain ⟨hall, hflat, hnodup, hnamed⟩ := (readClauses_eq_ok List.nodup_nil).mp hclauses
  rw [select, List.filter_append, ← select, ← select] at hall hflat
  rw [List.flatMap_append] at hflat
  refine ⟨_, _, hflat, read_eq_ok.mpr ⟨?_, ?_, ?_, ?_, ?_⟩⟩
  · rwa [hother (by decide)]
  · rwa [hother (by decide)]
  · rwa [hother (by decide)]
  · rwa [hother (by decide)]
  -- the clause names one argument more, which no other clause names
  have hnames := namedArguments_insert ((select .param ds₁).flatMap clausesOf)
    ((select .param ds₂).flatMap clausesOf) c d.raw
  rw [← hflat] at hnames
  refine (readClauses_eq_ok List.nodup_nil).mpr ⟨fun d' hd' => ?_, ?_, ?_, fun a ha => ?_⟩
  · rw [hparam, List.mem_append, List.mem_cons] at hd'
    rcases hd' with hd' | rfl | hd'
    · exact hall d' (List.mem_append_left _ hd')
    · exact ⟨[c], hread⟩
    · exact hall d' (List.mem_append_right _ hd')
  · rw [hparam, List.flatMap_append, List.flatMap_cons, clausesOf_of_readAll hread]
    rfl
  · rw [List.append_nil, List.nodup_reverse] at hnodup ⊢
    rw [hnames.nodup_iff]
    split
    · exact hnodup
    · refine List.nodup_cons.mpr ⟨fun hmem => ?_, hnodup⟩
      simp only [namedArguments, List.map_map, List.mem_filter, List.mem_map] at hmem
      obtain ⟨⟨c', hc', heq⟩, -⟩ := hmem
      exact hfree c' hc' heq
  · rw [hnames.mem_iff] at ha
    split at ha
    · exact hnamed a ha
    · rcases List.mem_cons.mp ha with rfl | ha
      · exact hknown
      · exact hnamed a ha

/-- A clause that no other one comes before is found by the argument that it names. -/
theorem clause?_insert_self {cs₁ cs₂ : List (Declared ArgumentClause)} {raw : String}
    (hfree : ∀ c' ∈ cs₁, c'.value.argument ≠ c.argument) (hnamed : c.argument ≠ blankName) :
    clause? { decl with clauses := cs₁ ++ ⟨c, raw⟩ :: cs₂ } c.argument = some ⟨c, raw⟩ := by
  have hnone : cs₁.find? (fun c' => decide (c'.value.argument ≠ blankName ∧
      c'.value.argument = c.argument)) = none :=
    List.find?_eq_none.mpr fun c' hc' => by simp [hfree c' hc']
  simp only [clause?, List.find?_append, hnone, Option.none_or]
  exact List.find?_cons_of_pos (by simp [hnamed])

/-- The clause of any other argument is found as before. -/
theorem clause?_insert_of_ne {cs₁ cs₂ : List (Declared ArgumentClause)} {raw : String}
    (hclauses : decl.clauses = cs₁ ++ cs₂) {argument : String} (hne : c.argument ≠ argument) :
    clause? { decl with clauses := cs₁ ++ ⟨c, raw⟩ :: cs₂ } argument = decl.clause? argument := by
  simp only [clause?, hclauses, List.find?_append]
  rw [List.find?_cons_of_neg (by simp [hne])]

theorem blankClauses_insert {cs₁ cs₂ : List (Declared ArgumentClause)} {raw : String}
    (hclauses : decl.clauses = cs₁ ++ cs₂) (hnamed : c.argument ≠ blankName) :
    blankClauses { decl with clauses := cs₁ ++ ⟨c, raw⟩ :: cs₂ } = decl.blankClauses := by
  simp only [blankClauses, hclauses, List.filter_append]
  rw [List.filter_cons_of_neg (by simp [hnamed])]

theorem checkWholeBody_insert {cs₁ cs₂ : List (Declared ArgumentClause)} {raw : String}
    (hclauses : decl.clauses = cs₁ ++ cs₂) (h : decl.checkWholeBody m = .ok ())
    (hwhole : ∀ raw, decl.wholeBody? ≠ some ⟨c.argument, raw⟩) :
    checkWholeBody m { decl with clauses := cs₁ ++ ⟨c, raw⟩ :: cs₂ } = .ok () := by
  refine checkWholeBody_eq_ok.mpr fun argument raw' hbody => ?_
  obtain ⟨hknown, hfree, hcarried⟩ := checkWholeBody_eq_ok.mp h argument raw' hbody
  rw [hclauses, List.forall_mem_append] at hfree
  refine ⟨hknown, List.forall_mem_append.mpr ⟨hfree.1, List.forall_mem_cons.mpr ⟨?_, hfree.2⟩⟩,
    hcarried⟩
  rintro rfl
  exact hwhole raw' hbody

end Declarations

end Routespec
