import Routespec.Proofs.AliasExpansion
import Routespec.Proofs.Clauses
import Routespec.Proofs.Diagnostics
import Routespec.Proofs.InsertedLines
import Routespec.Proofs.ManualMark
import Routespec.Proofs.SharedPlan

/-!
# Clauses without options

A clause that is nothing but the name of an argument asks for what inference gives the argument
anyway. With a line for such a clause a method resolves as it does without it, but for the mark that
the binding of the argument was asked for.
-/

namespace Routespec

section Lines

variable {name : String} (hname : isIdentifier name = true)

include hname

/-- An identifier has no white space around it. -/
theorem trimmed_of_isIdentifier : trimmed name = name := by
  obtain ⟨hne, hsolid⟩ := Text.solid_of_isIdentifier hname
  have htrim : Text.trim (name.toList ++ []) = name.toList ++ Text.trimRight [] :=
    Text.trim_append_of_solid hsolid hne []
  have hnothing : Text.trimRight [] = [] := rfl
  rw [hnothing, List.append_nil] at htrim
  rw [trimmed, htrim, String.ofList_toList]

/-- A directive that ends in an identifier is not continued. -/
theorem broken?_written (keyword : Keyword) :
    Comment.broken? (Text.trimRight (Directive.written keyword name).toList) = none := by
  obtain ⟨hne, hsolid⟩ := Text.solid_of_isIdentifier hname
  have hend : Text.EndsSolid name.toList := by
    have htrim := Text.trimRight_append_of_solid hsolid []
    have hnothing : Text.trimRight [] = [] := rfl
    rwa [hnothing, List.append_nil] at htrim
  have hline : (Directive.written keyword name).toList =
      (directiveMark.toList ++ (keyword.word.toList ++ [' '])) ++ name.toList := by
    rw [Directive.toList_written]
    simp
  have hlast : ((directiveMark.toList ++ (keyword.word.toList ++ [' '])) ++ name.toList).getLast? ≠
      some '\\' := by
    rw [List.getLast?_append_of_ne_nil _ hne]
    intro hlast
    exact absurd (Text.isIdentifierPart_of_isIdentifier hname _ (List.mem_of_getLast? hlast))
      (by decide)
  rw [hline, hend.append hne, Comment.broken?, Text.dropEnd?, if_neg hlast]
  rfl

/-- What is nothing but a name is a clause without options. -/
theorem ArgumentClause.readAll_name : readAll name = .ok [⟨name, []⟩] := by
  have hpart := (Text.passes_of_isIdentifier Text.separates_semicolon hname).1
  have hsplit : splitClause ([] ++ name.toList ++ []) = .ok (name, []) :=
    splitClause_name hname rfl rfl
  rw [List.nil_append, List.append_nil] at hsplit
  rw [readAll_eq_ok, Text.splitUnquoted, hpart]
  exact .cons (read_eq_ok.mpr ⟨[], [], hsplit, rfl, rfl⟩) .nil

theorem AliasTable.expand_of_isIdentifier (aliases : AliasTable) :
    aliases.expand name = .ok name := by
  refine aliases.expand_of_noReference (Text.NoReference.of_not_mem fun hmem => ?_)
  exact absurd (Text.isIdentifierPart_of_isIdentifier hname _ hmem) (by decide)

end Lines

/-- Without options an argument is bound as inference binds it, but for the mark. -/
theorem Inference.requested_nil {inf : Inference} {arg : Argument} {b : PlannedBinding}
    (h : inf.implied arg = .ok (some b)) :
    inf.requested arg [] = .ok { b with manual := true } := by
  obtain ⟨-, hnone⟩ | ⟨fields, params, hshape, hparams, hb⟩ | ⟨hwhole, p, hp, hb⟩ :=
    implied_cases h
  · cases hnone
  · obtain rfl := Option.some.inj hb
    refine map_eq_ok.mpr ⟨params, ?_, rfl⟩
    rw [requestedParams, hshape]
    exact hparams
  · obtain rfl := Option.some.inj hb
    refine map_eq_ok.mpr ⟨[p], ?_, rfl⟩
    -- a value that is bound as a whole has the parameter for an empty group of options
    have hgroup : [{}].mapM (inf.groupParam arg) = .ok [p] := by
      refine mapM_eq_ok.mpr (.cons (bind_eq_ok.mpr ⟨(), ?_, within_eq_ok.mpr hp⟩) .nil)
      simp [ParamOptions.checkRequestData]
    obtain ⟨hincluded, hunfielded⟩ := hwhole
    unfold requestedParams
    cases hshape : arg.shape with
    | context | error => simp [hshape, Shape.isExcluded] at hincluded
    | composite fields => exact absurd hshape (hunfielded fields)
    | scalar | scalarSeq | sequence | map => exact hgroup

/-- The declarations with a clause for the argument, without options, between the others. -/
def Declarations.withBareClause (decl : Declarations) (name raw : String)
    (cs₁ cs₂ : List (Declared ArgumentClause)) : Declarations :=
  { decl with clauses := cs₁ ++ ⟨⟨name, []⟩, raw⟩ :: cs₂ }

/-- No clause at all names an argument that is left open. -/
theorem Declarations.LeavesOpen.ne_of_mem {decl : Declarations} {arg : Argument}
    (h : decl.LeavesOpen arg) (hnamed : arg.name ≠ blankName) {c : Declared ArgumentClause}
    (hc : c ∈ decl.clauses) : c.value.argument ≠ arg.name := by
  intro hsame
  exact h.unnamed c hc (hsame ▸ hnamed) hsame

namespace Method

variable {m : Method} {aliases : AliasTable} {options : ResolveOptions} {decl : Declarations}
  {inf : Inference} {arg : Argument} {raw : String} {cs₁ cs₂ : List (Declared ArgumentClause)}
  {plan : Plan} {r : MethodResolution}

section Bindings

variable (hclauses : decl.clauses = cs₁ ++ cs₂) (hinf : inf.fallback = .body)

include hclauses hinf

/-- The argument of the clause is bound as it was, and marked. -/
theorem bindArgument_withBareClause (hnamed : arg.name ≠ blankName) (hopen : decl.LeavesOpen arg)
    (hincluded : arg.shape.isExcluded = false) {d? : Option (Declared PlannedBinding)}
    (h : m.bindArgument inf decl arg = .ok d?) :
    ∃ d?', m.bindArgument inf (decl.withBareClause arg.name raw cs₁ cs₂) arg = .ok d?' ∧
      Option.Rel (fun d d' => d'.value = d.value.markManual arg.name) d? d?' := by
  obtain ⟨b?, himplied, rfl⟩ := (bindArgument_of_leavesOpen hopen).mp h
  obtain ⟨hexcluded, -⟩ | ⟨b, rfl, hb⟩ := Inference.implied_inferred hinf himplied
  · rw [hincluded] at hexcluded
    cases hexcluded
  have hbody : (decl.withBareClause arg.name raw cs₁ cs₂).wholeBody?.filter
      (·.value = arg.name) = none := (Declarations.leavesOpen_iff.mp hopen).1
  have hclause : (decl.withBareClause arg.name raw cs₁ cs₂).clause? arg.name =
      some ⟨⟨arg.name, []⟩, raw⟩ :=
    Declarations.clause?_insert_self (c := ⟨arg.name, []⟩)
      (fun c hc => hopen.ne_of_mem hnamed (hclauses ▸ List.mem_append_left _ hc)) hnamed
  have hbound : m.bindArgument inf (decl.withBareClause arg.name raw cs₁ cs₂) arg =
      .ok (some ⟨{ b with manual := true }, raw⟩) := by
    unfold bindArgument
    rw [hbody, hclause]
    exact map_eq_ok.mpr ⟨_, at_eq_ok.mpr (Inference.requested_nil himplied), rfl⟩
  have hfeeds : b.feeds arg.name = true := by
    simp [PlannedBinding.feeds, hb.argument, hb.blank]
  exact ⟨_, hbound, .some (PlannedBinding.markManual_of_feeds hfeeds).symm⟩

variable (hleave : ∀ c ∈ decl.clauses, c.value.LeavesBody)

include hleave

/-- Every other argument is bound as it was, and there is nothing to mark. -/
theorem bindArgument_withBareClause_of_ne {other : Argument} (hne : arg.name ≠ other.name)
    {d? : Option (Declared PlannedBinding)} (h : m.bindArgument inf decl other = .ok d?) :
    ∃ d?', m.bindArgument inf (decl.withBareClause arg.name raw cs₁ cs₂) other = .ok d?' ∧
      Option.Rel (fun d d' => d'.value = d.value.markManual arg.name) d? d?' := by
  have hclause : (decl.withBareClause arg.name raw cs₁ cs₂).clause? other.name =
      decl.clause? other.name :=
    Declarations.clause?_insert_of_ne (c := ⟨arg.name, []⟩) hclauses hne
  have hbound : m.bindArgument inf (decl.withBareClause arg.name raw cs₁ cs₂) other =
      .ok d? := by
    unfold bindArgument at h ⊢
    rw [hclause]
    exact h
  refine ⟨d?, hbound, ?_⟩
  obtain ⟨-, rfl⟩ | ⟨-, d, rfl, hstarts⟩ := bindArgument_cases hinf hleave h
  · exact .none
  · have hfeeds : d.value.feeds arg.name = false := by
      simp [PlannedBinding.feeds, hstarts.argument_eq.1, Ne.symm hne]
    exact .some (PlannedBinding.markManual_of_not_feeds hfeeds).symm

/-- With the clause, the binding of its argument is marked, and no other one changes. -/
theorem bindings_withBareClause (hnamed : arg.name ≠ blankName)
    (hnames : (m.args.map (·.name)).Nodup) (harg : arg ∈ m.args) (hopen : decl.LeavesOpen arg)
    (hincluded : arg.shape.isExcluded = false)
    {bs : List (Declared PlannedBinding)} (h : m.bindings inf decl = .ok bs) :
    ∃ bs', m.bindings inf (decl.withBareClause arg.name raw cs₁ cs₂) = .ok bs' ∧
      List.Forall₂ (fun d d' => d'.value = d.value.markManual arg.name) bs bs' := by
  obtain ⟨fed, hfed, h⟩ := bind_eq_ok.mp h
  obtain ⟨blank, hblank, h⟩ := bind_eq_ok.mp h
  obtain rfl := pure_eq_ok.mp h
  obtain ⟨fed', hfed', hmarked⟩ := exists_mapM_related hfed
    (g := m.bindArgument inf (decl.withBareClause arg.name raw cs₁ cs₂))
    (R := Option.Rel fun d d' => d'.value = d.value.markManual arg.name)
    fun other d? hother _ hd => by
      by_cases hsame : arg.name = other.name
      · obtain rfl := List.inj_on_of_nodup_map hnames harg hother hsame
        exact bindArgument_withBareClause hclauses hinf hnamed hopen hincluded hd
      · exact bindArgument_withBareClause_of_ne hclauses hinf hleave hsame hd
  have hblanks : (decl.withBareClause arg.name raw cs₁ cs₂).blankClauses = decl.blankClauses :=
    Declarations.blankClauses_insert (c := ⟨arg.name, []⟩) hclauses hnamed
  have hunfed : ∀ d ∈ blank, d.value.feeds arg.name = false := by
    intro d hd
    obtain ⟨c, hc, hbound⟩ := forall₂_mem_right (mapM_eq_ok.mp hblank) hd
    obtain ⟨b, hb, rfl⟩ := map_eq_ok.mp hbound
    have hblank := (Inference.blank_inferred hinf (hleave c (List.mem_of_mem_filter hc))
      (at_eq_ok.mp hb)).blank
    simp [PlannedBinding.feeds, hblank]
  refine ⟨fed'.filterMap id ++ blank, bind_eq_ok.mpr ⟨fed', hfed', bind_eq_ok.mpr
    ⟨blank, hblanks ▸ hblank, rfl⟩⟩, List.rel_append ?_ ?_⟩
  · exact List.rel_filterMap (fun _ _ hd => hd) hmarked
  · exact List.forall₂_same.mpr fun d hd =>
      (PlannedBinding.markManual_of_not_feeds (hunfed d hd)).symm

end Bindings

/-- With the clause, the plan is made as it was, and the binding of the argument is marked. -/
theorem plan_withBareClause (hclauses : decl.clauses = cs₁ ++ cs₂) (hnamed : arg.name ≠ blankName)
    (hleave : ∀ c ∈ decl.clauses, c.value.LeavesBody) (hnames : (m.args.map (·.name)).Nodup)
    (harg : arg ∈ m.args) (hopen : decl.LeavesOpen arg) (hincluded : arg.shape.isExcluded = false)
    (h : m.plan decl options = .ok plan) :
    m.plan (decl.withBareClause arg.name raw cs₁ cs₂) options =
      .ok (plan.map (·.markManual arg.name)) := by
  obtain ⟨bs, hbs, h⟩ := bind_eq_ok.mp h
  obtain ⟨_, hpaths, hrun⟩ := bind_eq_ok.mp h
  obtain ⟨bs', hbs', hmarked⟩ :=
    bindings_withBareClause hclauses rfl hleave hnamed hnames harg hopen hincluded hbs
  have hvalues : bs'.map (·.value) = (bs.map (·.value)).map (·.markManual arg.name) := by
    rw [← List.forall₂_eq_eq_eq, List.forall₂_map_left_iff, List.map_map,
      List.forall₂_map_right_iff]
    exact hmarked.flip.imp fun _ _ h => h
  refine bind_eq_ok.mpr ⟨bs', hbs', bind_eq_ok.mpr ⟨(), checkPathNames_eq_ok.mpr ?_, ?_⟩⟩
  · intro d' hd' name hname
    obtain ⟨d, hd, hvalue⟩ := forall₂_mem_right hmarked hd'
    rw [hvalue] at hname
    exact checkPathNames_eq_ok.mp hpaths d hd name hname
  · have hmoved : decl.pathVars.foldlM (m.bindPathVar decl options) (bs'.map (·.value)) =
        .ok (plan.map (·.markManual arg.name)) := by
      rw [hvalues, foldlM_bindPathVar_markManual, hrun]
      rfl
    exact hmoved

/-- To name an argument that is left open, and say nothing of it, marks its binding wherever it
occurs and changes nothing else. -/
theorem resolve_bareClause {before after : List String} (h : m.resolve aliases options = .ok r)
    (hdecl : m.declarations aliases = .ok decl) (hnames : (m.args.map (·.name)).Nodup)
    (harg : arg ∈ m.args) (hincluded : arg.shape.isExcluded = false)
    (hname : isIdentifier arg.name = true) (hnamed : arg.name ≠ blankName)
    (hopen : decl.LeavesOpen arg) (hdoc : m.doc = before ++ after)
    (hbefore : Comment.EndsUnbroken before) :
    resolve { m with doc := before ++ Directive.written .param arg.name :: after } aliases options =
      .ok (r.markManual arg.name) := by
  obtain ⟨block, hblock, ⟨hnone, -⟩ | ⟨hhttp, halias, ds, hds, h⟩⟩ := resolve_eq_ok.mp h
  · rw [hasHttp_of_declarations hblock hdecl] at hnone
    cases hnone
  obtain ⟨decl', plan, success, hread, hwhole, hplan, hresponse, hserved⟩ :=
    resolveDirectives_eq_ok.mp h
  obtain rfl : decl' = decl := by
    have hdecl' : m.declarations aliases = .ok decl' :=
      bind_eq_ok.mpr ⟨block, hblock, bind_eq_ok.mpr ⟨ds, hds, hread⟩⟩
    exact Except.ok.inj (hdecl'.symm.trans hdecl)
  -- the line is read as a directive of its own, between those before and behind it
  have hline := Directive.ofLine_written m.name .param arg.name
  rw [trimmed_of_isIdentifier hname] at hline
  rw [hdoc] at hblock
  obtain ⟨ds₁, ds₂, hdirectives, hblock'⟩ :=
    CommentBlock.read_insert hblock hbefore (broken?_written hname .param) hline
  obtain ⟨directives, description⟩ := block
  obtain rfl : directives = ds₁ ++ ds₂ := hdirectives
  obtain ⟨es₁, es₂, rfl, hexpanded⟩ := expandDirectives_insert hds
    (d := ⟨.param, arg.name, trimmed (Directive.written .param arg.name)⟩) rfl
    (AliasTable.expand_of_isIdentifier hname aliases)
  -- the directive is a clause of its own, which the plan notices by a mark
  have hknown : (m.arg? arg.name).isSome = true :=
    List.find?_isSome.mpr ⟨arg, harg, by simp⟩
  obtain ⟨cs₁, cs₂, hclauses, hread'⟩ := Declarations.read_insert_clause hread
    (d := ⟨.param, arg.name, trimmed (Directive.written .param arg.name)⟩) (c := ⟨arg.name, []⟩) rfl
    (ArgumentClause.readAll_name hname) hknown fun c hc => hopen.ne_of_mem hnamed hc
  have hleave := Declarations.leavesBody_of_read hread
  refine resolve_eq_ok.mpr ⟨_, hblock', .inr ⟨?_, ?_, _, hexpanded, ?_⟩⟩
  · simp [CommentBlock.hasHttp, Keyword.isHttp]
  · simpa [CommentBlock.of] using halias
  rw [resolveDirectives_doc, resolveDirectives_eq_ok]
  refine ⟨_, _, success, hread', ?_, plan_withBareClause hclauses hnamed hleave hnames harg hopen
    hincluded hplan, hresponse, operations_markManual hserved⟩
  exact Declarations.checkWholeBody_insert hclauses hwhole fun raw hbody =>
    hopen.notBody _ hbody rfl

/-- A note, one field of which is left out and another one read from the path. -/
def noteArgument : Argument :=
  ⟨"note", "Note", .composite [⟨"Secret", "string", .scalar, some "-"⟩,
    ⟨"Title", "string", .scalar, none⟩, ⟨"ItemID", "string", .scalar, none⟩]⟩

/-- Notes on items, added in two ways, with a comment that goes on over a line break. -/
def addNote : Method where
  name := "AddNote"
  args := [⟨"ctx", "Context", .context⟩, ⟨"id", "string", .scalar⟩,
    ⟨"tags", "[]string", .scalarSeq⟩, noteArgument]
  returns := []
  doc := ["// AddNote adds a note to \\", "// an item.", "//kun:op POST /items/{item_id}/notes",
    "//kun:op PUT /notes/{id}", "//kun:param tags in=query", "//kun:success statusCode=204"]

theorem resolve_bareClause_of_addNote : ∃ r, addNote.resolve .empty {} = .ok r ∧
    r.operations.map (fun o => o.request.bindings.map fun b => (b.argument.name, b.manual)) =
      [[("tags", true), ("note", false)], [("id", false), ("tags", true), ("note", false)]] ∧
    resolve { addNote with
      doc := addNote.doc.take 3 ++ "//kun:param note" :: addNote.doc.drop 3 } .empty {} =
      .ok (r.markManual "note") := by
  obtain ⟨r, hr, hmanual⟩ : ∃ r, addNote.resolve .empty {} = .ok r ∧
      r.operations.map (fun o => o.request.bindings.map fun b => (b.argument.name, b.manual)) =
        [[("tags", true), ("note", false)], [("id", false), ("tags", true), ("note", false)]] :=
    exists_ok_of_map (by decide +kernel)
  obtain ⟨decl, hdecl, hopen⟩ : ∃ decl, addNote.declarations .empty = .ok decl ∧
      decide (decl.LeavesOpen noteArgument) = true :=
    exists_ok_of_map (by decide +kernel)
  exact ⟨r, hr, hmanual, resolve_bareClause hr hdecl (by decide) (by simp [addNote]) rfl
    (by decide) (by decide) (of_decide_eq_true hopen) rfl (by decide)⟩

end Method

end Routespec
