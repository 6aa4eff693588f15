import Routespec.Proofs.RouteOrder

/-!
# The order of directives in a comment

Where no line of a comment is continued, its directives may change places with each other and with
the free text, as long as the operations stay in order and so do the clauses that feed no argument.
All other clauses are found by the argument that they name, and all other directives are given once.
Free text makes the description, and nothing else depends on it.
-/

namespace Routespec

namespace ArgumentClause

/-- Some clause feeds no argument. -/
def someBlank (args : String) : Bool :=
  (Text.splitUnquoted ';' args.toList).any fun clause =>
    (splitClause clause).toOption.any (·.1 = blankName)

/-- Clauses that are read feed no argument only where their text says so. -/
theorem someBlank_of_readAll {args : String} {cs : List ArgumentClause} (h : readAll args = .ok cs)
    {c : ArgumentClause} (hc : c ∈ cs) (hblank : c.argument = blankName) :
    someBlank args = true := by
  unfold readAll at h
  split at h
  · exact absurd h fail_ne_ok
  · obtain ⟨clause, hclause, hread⟩ := forall₂_mem_right (mapM_eq_ok.mp h) hc
    obtain ⟨⟨argument, rest⟩, hsplit, hread⟩ := bind_eq_ok.mp hread
    obtain ⟨_, -, hread⟩ := bind_eq_ok.mp hread
    obtain ⟨groups, -, hread⟩ := bind_eq_ok.mp hread
    obtain rfl := pure_eq_ok.mp hread
    refine List.any_eq_true.mpr ⟨clause, hclause, ?_⟩
    simpa [hsplit, Except.toOption] using hblank

end ArgumentClause

namespace Directive

/-- Some clause of a `param` directive feeds no argument. -/
def feedsBlank (d : Directive) : Bool := d.keyword = .param && ArgumentClause.someBlank d.args

/-- The same of a directive whose aliases are still to be expanded. -/
def feedsBlankUnder (aliases : AliasTable) (d : Directive) : Bool :=
  (aliases.expand d.args).toOption.any fun args => feedsBlank { d with args }

/-- The directives changed places, but the operations among them are in order, and so are those that
`blank` accepts. -/
structure Rearranged (blank : Directive → Bool) (ds ds' : List Directive) : Prop where
  moved : ds.Perm ds'
  operations : ds.filter (·.keyword = .op) = ds'.filter (·.keyword = .op)
  blanks : ds.filter blank = ds'.filter blank

end Directive

namespace Comment

/-- The lines of a comment that are directives. -/
def directiveLines (lines : List String) : List String :=
  lines.filter fun line => (Directive.marked? line.toList).isSome

/-- The lines of a comment that are free text. -/
def freeLines (lines : List String) : List String :=
  lines.filter fun line => (Directive.marked? line.toList).isNone

/-- The lines of a comment that are `param` directives with a clause that feeds no argument. -/
def blankLines (aliases : AliasTable) (lines : List String) : List String :=
  lines.filter fun line =>
    (Directive.ofLine "" line.toList).toOption.join.any (·.feedsBlankUnder aliases)

/-- The directives changed places, but the operations are in order, and so are the directives with
clauses that feed no argument. Lines of free text may stand anywhere and say anything. -/
structure Rearranged (aliases : AliasTable) (lines lines' : List String) : Prop where
  moved : (directiveLines lines).Perm (directiveLines lines')
  operations : operationLines lines = operationLines lines'
  blanks : blankLines aliases lines = blankLines aliases lines'

theorem Rearranged.symm {aliases : AliasTable} {lines lines' : List String}
    (h : Rearranged aliases lines lines') : Rearranged aliases lines' lines :=
  ⟨h.moved.symm, h.operations.symm, h.blanks.symm⟩

theorem describe_freeLines (lines : List String) : describe (freeLines lines) = describe lines := by
  have hmarked : (fun line : Text => (Directive.marked? line).isNone) ∘
      (fun line : String => Text.trimRight line.toList) =
      fun line : String => (Directive.marked? line.toList).isNone := by
    funext line
    simp [Directive.marked?_trimRight]
  unfold describe description freeLines
  rw [List.filter_map, List.filter_map, hmarked, List.filter_filter]
  simp only [Bool.and_self]

end Comment

namespace CommentBlock

variable {owner : String} {lines lines' : List String} {block : CommentBlock}

/-- The directive on a line that can be read. -/
def directive? (owner : String) (line : String) : Option Directive :=
  (Directive.ofLine owner line.toList).toOption.join

theorem directive?_eq_some {line : String} {d : Directive} :
    directive? owner line = some d ↔ Directive.ofLine owner line.toList = .ok (some d) := by
  unfold directive?
  cases Directive.ofLine owner line.toList with
  | error => simp [Except.toOption]
  | ok d? => cases d? <;> simp [Except.toOption]

/-- Only a line with the mark is a directive. -/
theorem marked_of_directive? {line : String} {d : Directive} (h : directive? owner line = some d) :
    (Directive.marked? line.toList).isSome = true := by
  rw [directive?_eq_some] at h
  unfold Directive.ofLine at h
  cases hmark : Directive.marked? line.toList with
  | none => simp [hmark] at h
  | some => rfl

theorem filterMap_directiveLines (owner : String) (lines : List String) :
    (Comment.directiveLines lines).filterMap (directive? owner) =
      lines.filterMap (directive? owner) := by
  unfold Comment.directiveLines
  rw [← filter_filterMap_eq (q := fun _ => true) (fun line d hd => (marked_of_directive? hd).symm),
    List.filter_true]

/-- A comment can be read if each of its directive lines can. -/
theorem read_eq_ok_iff (hunbroken : Comment.Unbroken lines) :
    read owner lines = .ok block ↔
      (∀ line ∈ Comment.directiveLines lines, ∃ d?, Directive.ofLine owner line.toList = .ok d?) ∧
      block = ⟨lines.filterMap (directive? owner), Comment.describe lines⟩ := by
  have hfound {found : List (Option Directive)}
      (h : lines.mapM (fun line => Directive.ofLine owner line.toList) = .ok found) :
      found.filterMap id = lines.filterMap (directive? owner) := by
    rw [eq_filterMap_of_mapM h, List.filterMap_filterMap]
    rfl
  rw [read_eq_ok hunbroken]
  constructor
  · rintro ⟨found, h, rfl⟩
    refine ⟨fun line hline => ?_, by rw [hfound h]⟩
    obtain ⟨d?, -, hd⟩ := forall₂_mem_left (mapM_eq_ok.mp h) (List.mem_of_mem_filter hline)
    exact ⟨d?, hd⟩
  · rintro ⟨hread, rfl⟩
    have hall : ∀ line ∈ lines, ∃ d?, Directive.ofLine owner line.toList = .ok d? := by
      intro line hline
      cases hmark : Directive.marked? line.toList with
      | none => exact ⟨none, by simp [Directive.ofLine, hmark]⟩
      | some rest => exact hread line (List.mem_filter.mpr ⟨hline, by simp [hmark]⟩)
    obtain ⟨found, h⟩ := exists_mapM_eq_ok hall
    exact ⟨found, h, by rw [hfound h]⟩

/-- A rearranged comment has rearranged directives. -/
theorem read_rearranged {aliases : AliasTable} (hlines : Comment.Rearranged aliases lines lines')
    (hunbroken : Comment.Unbroken lines) (hunbroken' : Comment.Unbroken lines')
    (h : read owner lines = .ok block) :
    ∃ directives, read owner lines' = .ok ⟨directives, Comment.describe lines'⟩ ∧
      block.description = Comment.describe lines ∧
      Directive.Rearranged (·.feedsBlankUnder aliases) block.directives directives := by
  obtain ⟨hread, rfl⟩ := (read_eq_ok_iff hunbroken).mp h
  have hread' : ∀ line ∈ Comment.directiveLines lines',
      ∃ d?, Directive.ofLine owner line.toList = .ok d? :=
    fun line hline => hread line (hlines.moved.mem_iff.mpr hline)
  have hof {line : String} {d : Directive} (hd : directive? owner line = some d) :
      Directive.ofLine "" line.toList = .ok (some d) :=
    Directive.ofLine_owner (directive?_eq_some.mp hd) ""
  refine ⟨_, (read_eq_ok_iff hunbroken').mpr ⟨hread', rfl⟩, rfl, ?_, ?_, ?_⟩
  · rw [← filterMap_directiveLines owner lines, ← filterMap_directiveLines owner lines']
    exact hlines.moved.filterMap _
  · have hoperation : ∀ line d, directive? owner line = some d →
        decide (d.keyword = .op) = Directive.isOperation line.toList := by
      intro line d hd
      simp [Directive.isOperation_of_ofLine (hof hd)]
    simp only [filter_filterMap_eq hoperation]
    exact congrArg _ hlines.operations
  · have hblank : ∀ line d, directive? owner line = some d → d.feedsBlankUnder aliases =
        (Directive.ofLine "" line.toList).toOption.join.any (·.feedsBlankUnder aliases) := by
      intro line d hd
      simp [hof hd, Except.toOption]
    simp only [filter_filterMap_eq hblank]
    exact congrArg _ hlines.blanks

end CommentBlock

namespace Declarations

variable {owner : String} {ds ds' : List Directive} {m : Method} {decl : Declarations}
  {clauses' : List (Declared ArgumentClause)}

theorem eq_of_perm_of_atMostOne {α : Type} {read : String → Checked α} {v : Option (Declared α)}
    (hperm : ds.Perm ds') (h : atMostOne owner read ds = .ok v) : ds' = ds := by
  match ds, h with
  | [], _ => exact hperm.nil_eq.symm
  | [d], _ => exact List.perm_singleton.mp hperm.symm
  | d :: again :: rest, h =>
    obtain ⟨value, -, h⟩ := bind_eq_ok.mp h
    exact absurd (at_eq_ok.mp h) fail_ne_ok

theorem eq_of_perm_of_tagsOf {tags : List String} (hperm : ds.Perm ds')
    (h : tagsOf owner ds = .ok tags) : ds' = ds := by
  obtain ⟨rule, hrule, -⟩ := bind_eq_ok.mp h
  exact eq_of_perm_of_atMostOne hperm hrule

/-- A `param` directive whose text has no blank clause declares none. -/
theorem clausesOf_filter_blank {d : Directive} (hkeyword : d.keyword = .param)
    (hnone : d.feedsBlank = false) :
    (clausesOf d).filter (·.value.argument = blankName) = [] := by
  rw [List.filter_eq_nil_iff]
  intro c hc hblank
  unfold clausesOf at hc
  cases hread : ArgumentClause.readAll d.args with
  | error => simp [hread, Except.toOption] at hc
  | ok clauses =>
    obtain ⟨clause, hclause, rfl⟩ := by simpa [hread, Except.toOption] using hc
    have hsome := ArgumentClause.someBlank_of_readAll hread hclause (by simpa using hblank)
    simp [Directive.feedsBlank, hkeyword, hsome] at hnone

/-- Blank clauses are in the order of the directives that have some. -/
theorem filter_blank_flatMap {ds : List Directive} (hkeyword : ∀ d ∈ ds, d.keyword = .param) :
    (ds.flatMap clausesOf).filter (·.value.argument = blankName) =
      (ds.filter (·.feedsBlank)).flatMap fun d =>
        (clausesOf d).filter (·.value.argument = blankName) := by
  induction ds with
  | nil => rfl
  | cons d ds ih =>
    rw [List.forall_mem_cons] at hkeyword
    rw [List.flatMap_cons, List.filter_append, ih hkeyword.2]
    cases hblank : d.feedsBlank with
    | false =>
      rw [List.filter_cons_of_neg (by simp [hblank]), clausesOf_filter_blank hkeyword.1 hblank,
        List.nil_append]
    | true => rw [List.filter_cons_of_pos hblank, List.flatMap_cons]

/-- Blank clauses come from directives that all stay in order. -/
theorem filter_blank_select (ds : List Directive) :
    ((select .param ds).flatMap clausesOf).filter (·.value.argument = blankName) =
      (ds.filter (·.feedsBlank)).flatMap fun d =>
        (clausesOf d).filter (·.value.argument = blankName) := by
  have hparam : ∀ d ∈ select .param ds, d.keyword = .param :=
    fun d hd => by simpa using List.of_mem_filter hd
  have hblank : (select .param ds).filter (·.feedsBlank) = ds.filter (·.feedsBlank) := by
    unfold select
    rw [List.filter_filter]
    refine List.filter_congr fun d _ => ?_
    cases hkeyword : decide (d.keyword = .param) <;> simp [Directive.feedsBlank, hkeyword]
  rw [filter_blank_flatMap hparam, hblank]

/-- Rearranged directives declare the same, but for the order of clauses that name an argument. -/
theorem read_rearranged (hds : Directive.Rearranged (·.feedsBlank) ds ds')
    (h : read m ds = .ok decl) :
    ∃ clauses', read m ds' = .ok { decl with clauses := clauses' } ∧
      decl.clauses.Perm clauses' ∧
      decl.blankClauses = blankClauses { decl with clauses := clauses' } := by
  obtain ⟨hroutes, hbody, hsuccess, htags, hclauses⟩ := read_eq_ok.mp h
  have hselect (keyword : Keyword) : (select keyword ds).Perm (select keyword ds') :=
    hds.moved.filter _
  obtain ⟨hread, hflat, hnodup, hknown⟩ := (readClauses_eq_ok List.nodup_nil).mp hclauses
  have hperm : decl.clauses.Perm ((select .param ds').flatMap clausesOf) := by
    rw [hflat]
    exact (hselect .param).flatMap_right _
  have hnames := namedArguments_perm (hperm.map (·.value))
  refine ⟨(select .param ds').flatMap clausesOf, read_eq_ok.mpr ⟨?_, ?_, ?_, ?_, ?_⟩, hperm, ?_⟩
  · have hsame : select .op ds = select .op ds' := hds.operations
    rwa [← hsame]
  · rwa [eq_of_perm_of_atMostOne (hselect .body) hbody]
  · rwa [eq_of_perm_of_atMostOne (hselect .success) hsuccess]
  · rwa [eq_of_perm_of_tagsOf (hselect .oas) htags]
  · refine (readClauses_eq_ok List.nodup_nil).mpr ⟨fun d hd => ?_, rfl, ?_, fun a ha => ?_⟩
    · exact hread d ((hselect .param).mem_iff.mpr hd)
    · rw [List.append_nil, List.nodup_reverse] at hnodup ⊢
      exact hnames.nodup_iff.mp hnodup
    · exact hknown a (hnames.mem_iff.mpr ha)
  · unfold blankClauses
    rw [hflat, filter_blank_select, filter_blank_select, hds.blanks]

/-- A clause is found by the argument that it names, wherever it stands. -/
theorem clause?_moved
    (h' : read m ds' = .ok { decl with clauses := clauses' }) (hperm : decl.clauses.Perm clauses')
    (argument : String) :
    clause? { decl with clauses := clauses' } argument = decl.clause? argument := by
  cases hclause : decl.clause? argument with
  | none =>
    refine List.find?_eq_none.mpr fun c hc => ?_
    exact List.find?_eq_none.mp hclause c (hperm.mem_iff.mpr hc)
  | some c =>
    have hfound := List.find?_some hclause
    obtain ⟨hnamed, rfl⟩ : c.value.argument ≠ blankName ∧ c.value.argument = argument := by
      simpa using hfound
    have hc : c ∈ clauses' := hperm.mem_iff.mp (List.mem_of_find?_eq_some hclause)
    exact clause?_eq_some h' hc hnamed

theorem checkWholeBody_moved (hperm : decl.clauses.Perm clauses')
    (h : decl.checkWholeBody m = .ok ()) :
    checkWholeBody m { decl with clauses := clauses' } = .ok () := by
  refine checkWholeBody_eq_ok.mpr fun argument raw hwhole => ?_
  obtain ⟨hknown, hfree, hcarried⟩ := checkWholeBody_eq_ok.mp h argument raw hwhole
  exact ⟨hknown, fun c hc => hfree c (hperm.mem_iff.mpr hc), hcarried⟩

end Declarations

/-- The resolution with another description. -/
def MethodResolution.describedAs (r : MethodResolution) (description : String) : MethodResolution :=
  { r with operations := r.operations.map fun o => { o with description } }

namespace Method

variable {m : Method} {aliases : AliasTable} {options : ResolveOptions} {r : MethodResolution}
  {decl : Declarations}

theorem expandDirectives_rearranged {block : CommentBlock} {directives ds : List Directive}
    {description : String}
    (hblock : Directive.Rearranged (·.feedsBlankUnder aliases) block.directives directives)
    (h : m.expandDirectives aliases block = .ok ds) :
    ∃ ds', m.expandDirectives aliases ⟨directives, description⟩ = .ok ds' ∧
      Directive.Rearranged (·.feedsBlank) ds ds' := by
  let expanded (d : Directive) : Diagnosed Directive :=
    (Checked.at m.name d.raw (aliases.expand d.args)).map fun args => { d with args }
  have hexpanded {d d' : Directive} (hd : (expanded d).toOption = some d') :
      ∃ args, aliases.expand d.args = .ok args ∧ d' = { d with args } := by
    obtain ⟨args, hargs, rfl⟩ := map_eq_ok.mp (ok_of_toOption hd)
    exact ⟨args, at_eq_ok.mp hargs, rfl⟩
  have hmoved := hblock.moved.filter fun d => d.keyword.isHttp
  have hall : ∀ d ∈ directives.filter (·.keyword.isHttp), ∃ d', expanded d = .ok d' := by
    intro d hd
    obtain ⟨d', -, hd'⟩ := forall₂_mem_left (mapM_eq_ok.mp h) (hmoved.mem_iff.mpr hd)
    exact ⟨d', hd'⟩
  obtain ⟨ds', h'⟩ := exists_mapM_eq_ok hall
  obtain rfl := eq_filterMap_of_mapM h
  obtain rfl := eq_filterMap_of_mapM h'
  refine ⟨_, h', hmoved.filterMap _, ?_, ?_⟩
  · have hoperation : ∀ d d', (expanded d).toOption = some d' →
        decide (d'.keyword = .op) = decide (d.keyword = .op) := by
      intro d d' hd
      obtain ⟨args, -, rfl⟩ := hexpanded hd
      rfl
    have hoperations := congrArg (List.filter (·.keyword.isHttp)) hblock.operations
    rw [List.filter_comm, List.filter_comm _ _ directives] at hoperations
    rw [filter_filterMap_eq hoperation, filter_filterMap_eq hoperation, hoperations]
  · have hblank : ∀ d d', (expanded d).toOption = some d' →
        d'.feedsBlank = d.feedsBlankUnder aliases := by
      intro d d' hd
      obtain ⟨args, hargs, rfl⟩ := hexpanded hd
      simp [Directive.feedsBlankUnder, hargs, Except.toOption]
    have hblanks := congrArg (List.filter (·.keyword.isHttp)) hblock.blanks
    rw [List.filter_comm, List.filter_comm _ _ directives] at hblanks
    rw [filter_filterMap_eq hblank, filter_filterMap_eq hblank, hblanks]

/-- The plan looks clauses up by the arguments they name, and takes blank ones in order. -/
theorem plan_moved {clauses' : List (Declared ArgumentClause)}
    (hclause : ∀ argument, Declarations.clause? { decl with clauses := clauses' } argument =
      decl.clause? argument)
    (hblank : decl.blankClauses = Declarations.blankClauses { decl with clauses := clauses' }) :
    m.plan { decl with clauses := clauses' } options = m.plan decl options := by
  have hargument (inf : Inference) :
      m.bindArgument inf { decl with clauses := clauses' } = m.bindArgument inf decl := by
    funext arg
    unfold bindArgument
    rw [hclause]
    rfl
  have hbindings (inf : Inference) :
      m.bindings inf { decl with clauses := clauses' } = m.bindings inf decl := by
    unfold bindings
    rw [hargument, ← hblank]
  unfold plan
  rw [hbindings]
  rfl

/-- Operations are made whatever their description. -/
theorem operations_described {plan : Plan} {success : Response} {description : String}
    {ops : List Operation} (other : String)
    (h : decl.routes.zipIdx.mapM (m.operation decl plan success description) = .ok ops) :
    decl.routes.zipIdx.mapM (m.operation decl plan success other) =
      .ok (ops.map fun o => { o with description := other }) := by
  rw [mapM_eq_ok] at h ⊢
  rw [List.forall₂_map_right_iff]
  refine h.imp fun route o ho => ?_
  obtain ⟨request, hrequest, rfl⟩ := map_eq_ok.mp ho
  exact map_eq_ok.mpr ⟨request, hrequest, rfl⟩

/-- What resolves before lines are rearranged does so afterwards, to the same operations described
by the free text that there is now. -/
theorem resolve_rearranged {doc' : List String} (hdoc : Comment.Rearranged aliases m.doc doc')
    (hunbroken : Comment.Unbroken m.doc) (hunbroken' : Comment.Unbroken doc')
    (h : m.resolve aliases options = .ok r) :
    resolve { m with doc := doc' } aliases options =
        .ok (r.describedAs (Comment.describe doc')) ∧
      r = r.describedAs (Comment.describe m.doc) := by
  obtain ⟨block, hblock, h⟩ := resolve_eq_ok.mp h
  obtain ⟨directives, hblock', hdescription, hdirectives⟩ :=
    CommentBlock.read_rearranged hdoc hunbroken hunbroken' hblock
  have hhttp : CommentBlock.hasHttp ⟨directives, Comment.describe doc'⟩ = block.hasHttp :=
    hdirectives.moved.symm.any_eq
  rcases h with ⟨hnone, rfl⟩ | ⟨hsome, halias, ds, hds, h⟩
  · exact ⟨resolve_eq_ok.mpr ⟨_, hblock', .inl ⟨hhttp.trans hnone, rfl⟩⟩, rfl⟩
  · obtain ⟨decl, plan, success, hread, hwhole, hplan, hresponse, hserved⟩ :=
      resolveDirectives_eq_ok.mp h
    obtain ⟨ds', hds', hrearranged⟩ := expandDirectives_rearranged hdirectives hds
    obtain ⟨clauses', hread', hperm, hblank⟩ := Declarations.read_rearranged hrearranged hread
    have hclause := Declarations.clause?_moved hread' hperm
    have halias' : CommentBlock.of ⟨directives, Comment.describe doc'⟩ .alias = [] := by
      have hmoved : (block.of .alias).Perm _ := hdirectives.moved.filter _
      rw [halias] at hmoved
      exact hmoved.nil_eq.symm
    have hplan' : m.plan { decl with clauses := clauses' } options = .ok plan := by
      rw [plan_moved hclause hblank, hplan]
    rw [← Declarations.read_doc doc'] at hread'
    refine ⟨resolve_eq_ok.mpr ⟨_, hblock', .inr ⟨hhttp.trans hsome, halias', ds', hds', ?_⟩⟩, ?_⟩
    · exact resolveDirectives_eq_ok.mpr ⟨_, plan, success, hread',
        Declarations.checkWholeBody_moved hperm hwhole, hplan', hresponse,
        operations_described _ hserved⟩
    · -- the description is already that of the free text
      rw [hdescription] at hserved
      have hsame := hserved.symm.trans (operations_described _ hserved)
      exact congrArg (MethodResolution.mk · r.notices) (Except.ok.inj hsame)

/-- The order of directives decides nothing, as long as operations and blank clauses stay in order,
and free text decides nothing but the description. -/
theorem resolve_directive_order_irrelevant {doc' : List String}
    (hdoc : Comment.Rearranged aliases m.doc doc') (hunbroken : Comment.Unbroken m.doc)
    (hunbroken' : Comment.Unbroken doc') :
    ((∃ r, m.resolve aliases options = .ok r) ↔
      ∃ r', resolve { m with doc := doc' } aliases options = .ok r') ∧
    ∀ r r', m.resolve aliases options = .ok r →
      resolve { m with doc := doc' } aliases options = .ok r' →
      r = r.describedAs (Comment.describe (Comment.freeLines m.doc)) ∧
      r' = r.describedAs (Comment.describe (Comment.freeLines doc')) := by
  rw [Comment.describe_freeLines, Comment.describe_freeLines]
  refine ⟨⟨?_, ?_⟩, ?_⟩
  · rintro ⟨r, h⟩
    exact ⟨_, (resolve_rearranged hdoc hunbroken hunbroken' h).1⟩
  · rintro ⟨r', h'⟩
    have h := resolve_rearranged (m := { m with doc := doc' }) hdoc.symm hunbroken' hunbroken h'
    exact ⟨_, h.1⟩
  · intro r r' h h'
    obtain ⟨hmoved, hsame⟩ := resolve_rearranged hdoc hunbroken hunbroken' h
    exact ⟨hsame, Except.ok.inj (h'.symm.trans hmoved)⟩

/-- Two operations, and clauses of each kind. -/
def postNote : Method where
  name := "PostNote"
  args := [⟨"room", "string", .scalar⟩, ⟨"text", "string", .scalar⟩, ⟨"draft", "bool", .scalar⟩]
  returns := [⟨"id", "string", .scalar⟩]
  doc := ["PostNote posts a note.", "//kun:op POST /rooms/{room}/notes",
    "//kun:param draft in=query; __ in=header name=trace", "//kun:op PUT /rooms/{room}/note",
    "//kun:success statusCode=201", "It answers the id.", "//kun:param text name=note",
    "//kun:param __ in=query name=session"]

theorem resolve_directive_order_irrelevant_of_postNote :
    let doc' := ["//kun:success statusCode=201", "//kun:param text name=note", "Posts.",
      "//kun:param draft in=query; __ in=header name=trace", "//kun:op POST /rooms/{room}/notes",
      "//kun:param __ in=query name=session", "//kun:op PUT /rooms/{room}/note"]
    ∃ r, postNote.resolve .empty {} = .ok r ∧
      r.operations.map (fun o => (o.name, o.success.statusCode, o.description)) =
        [("PostNote1", 201, "PostNote posts a note.\nIt answers the id."),
          ("PostNote2", 201, "PostNote posts a note.\nIt answers the id.")] ∧
      resolve { postNote with doc := doc' } .empty {} = .ok (r.describedAs "Posts.") := by
  intro doc'
  have hdoc : Comment.Rearranged .empty postNote.doc doc' :=
    ⟨by decide +kernel, by decide +kernel, by decide +kernel⟩
  have hunbroken : Comment.Unbroken postNote.doc ∧ Comment.Unbroken doc' := by
    unfold Comment.Unbroken
    decide +kernel
  have hdescription : Comment.describe (Comment.freeLines doc') = "Posts." := by decide +kernel
  obtain ⟨r, h, hoperations⟩ : ∃ r, postNote.resolve .empty {} = .ok r ∧
      r.operations.map (fun o => (o.name, o.success.statusCode, o.description)) =
        [("PostNote1", 201, "PostNote posts a note.\nIt answers the id."),
          ("PostNote2", 201, "PostNote posts a note.\nIt answers the id.")] :=
    exists_ok_of_map (by decide +kernel)
  obtain ⟨hiff, hsame⟩ := resolve_directive_order_irrelevant hdoc hunbroken.1 hunbroken.2
  obtain ⟨r', h'⟩ := hiff.mp ⟨r, h⟩
  obtain ⟨-, rfl⟩ := hsame r r' h h'
  exact ⟨r, h, hoperations, hdescription ▸ h'⟩

end Method

end Routespec
