import Routespec.Proofs.AliasParts
import Routespec.Proofs.Relabelling
import Routespec.Proofs.Resolution
import Routespec.Proofs.WrittenDirectives

/-!
# Aliases written out

A method whose aliases are written out in its comment resolves without aliases as it did with them.
White space that an alias brings along at the start or end of the arguments does not matter, since
no directive sees it there. What is written out must not hold references of its own, which would be
expanded in their turn, and must not continue a line.
-/

namespace Routespec

/-- No dollar sign stands before an identifier. -/
def Text.NoReference (t : Text) : Prop :=
  ∀ before c after, t = before ++ '$' :: c :: after → isIdentifierStart c = false

namespace Text.NoReference

variable {t : Text}

theorem of_infix {u : Text} (h : u.NoReference) (hpart : t <:+: u) : t.NoReference := by
  obtain ⟨l, r, rfl⟩ := hpart
  rintro before c after rfl
  refine h (l ++ before) c (after ++ r) ?_
  simp

theorem trim (h : t.NoReference) : t.trim.NoReference := by
  obtain ⟨l, r, -, -, ht⟩ := Text.exists_eq_append_trim t
  exact h.of_infix ⟨l, r, ht.symm⟩

theorem of_not_mem (h : '$' ∉ t) : t.NoReference := by
  rintro before c after rfl
  simp at h

theorem scan_eq (h : t.NoReference) : AliasPiece.scan t = t.map .plain := by
  induction t with
  | nil => rw [AliasPiece.scan, List.map_nil]
  | cons c t ih =>
    have hplain : ¬(c = '$' ∧ (Text.spanIdentifier t).1 ≠ []) := by
      rintro ⟨rfl, hname⟩
      cases t with
      | nil => exact hname rfl
      | cons d t =>
        have hd : isIdentifierStart d = false := h [] d t rfl
        simp [Text.spanIdentifier, hd] at hname
    have hrest : Text.NoReference t := h.of_infix ⟨[c], [], by simp⟩
    rw [AliasPiece.scan, if_neg hplain, ih hrest, List.map_cons]

end Text.NoReference

/-- A text without references stands for itself. -/
theorem AliasTable.expand_of_noReference (table : AliasTable) {s : String}
    (h : Text.NoReference s.toList) : table.expand s = .ok s := by
  unfold expand expandText
  rw [h.scan_eq, mapM_resolve_plain]
  simp only [Except.map]
  rw [← List.flatMap_def, List.flatMap_singleton', String.ofList_toList]

namespace Comment

/-- The line with the aliases of its directive written out, if it is about HTTP. -/
def inlineLine (aliases : AliasTable) (line : String) : String :=
  match Directive.ofLine "" line.toList with
  | .ok (some d) =>
    if d.keyword.isHttp then
      match aliases.expand d.args with
      | .ok args => Directive.written d.keyword args
      | .error _ => line
    else line
  | _ => line

theorem inlineLine_of_unmarked {aliases : AliasTable} {line : String}
    (h : (Directive.marked? line.toList).isNone = true) : inlineLine aliases line = line := by
  have hline : Directive.ofLine "" line.toList = .ok none := by
    unfold Directive.ofLine
    rw [Option.isNone_iff_eq_none.mp h]
  unfold inlineLine
  rw [hline]

/-- Directives stay directives, and free text stays free text. -/
theorem isNone_marked?_inlineLine (aliases : AliasTable) (line : String) :
    (Directive.marked? (inlineLine aliases line).toList).isNone =
      (Directive.marked? line.toList).isNone := by
  cases hmark : Directive.marked? line.toList with
  | none => rw [inlineLine_of_unmarked (by rw [hmark]; rfl), hmark]
  | some rest =>
    have hsame : (Directive.marked? line.toList).isNone = false := by rw [hmark]; rfl
    unfold inlineLine
    split
    · split
      · split
        · rw [Directive.marked?_written]
          rfl
        · exact hsame
      · exact hsame
    · exact hsame

/-- The joined lines of a comment with the aliases of HTTP directives written out. -/
def inlined (aliases : AliasTable) (lines : List String) : List String :=
  (join lines).map (inlineLine aliases)

/-- Writing aliases out leaves the free text as it is. -/
theorem describe_inlined (aliases : AliasTable) (lines : List String) :
    describe (inlined aliases lines) =
      String.ofList (description (joinLines (lines.map (·.toList)))) := by
  let rewritten (line : Text) : Text :=
    Text.trimRight (inlineLine aliases (String.ofList line)).toList
  have hlines : (inlined aliases lines).map (fun line => Text.trimRight line.toList) =
      (joinLines (lines.map (·.toList))).map rewritten := by
    simp only [inlined, join, List.map_map, Function.comp_def, rewritten]
  have hmark (line : Text) :
      (Directive.marked? (rewritten line)).isNone = (Directive.marked? line).isNone := by
    unfold rewritten
    rw [Directive.marked?_trimRight, isNone_marked?_inlineLine, String.toList_ofList]
  have hfixed : ∀ line ∈ joinLines (lines.map (·.toList)),
      (Directive.marked? line).isNone = true → rewritten line = line := by
    intro line hline hunmarked
    have hsolid : Text.trimRight line = line := endsSolid_of_mem_joinLines line hline
    unfold rewritten
    rw [inlineLine_of_unmarked (by rwa [String.toList_ofList]), String.toList_ofList, hsolid]
  have hfree := filter_map_of_fixed (p := fun line => (Directive.marked? line).isNone)
    (g := rewritten) (fun line _ => hmark line) hfixed
  unfold describe description
  rw [hlines, hfree]

end Comment

/-- The directive says the same with the aliases written out, if it is about HTTP. -/
structure Directive.InlinedTo (aliases : AliasTable) (d d' : Directive) : Prop where
  keyword : d'.keyword = d.keyword
  args : d.keyword.isHttp = true → ∃ args, aliases.expand d.args = .ok args ∧
    Text.NoReference args.toList ∧ d'.args = trimmed args

namespace CommentBlock

variable {aliases : AliasTable} {owner : String} {lines : List String} {block : CommentBlock}

/-- The aliases of all HTTP directives are known, and what they stand for has no references. -/
def Expands (aliases : AliasTable) (block : CommentBlock) : Prop :=
  ∀ d ∈ block.directives, d.keyword.isHttp = true →
    ∃ args, aliases.expand d.args = .ok args ∧ Text.NoReference args.toList

/-- A line is read as before but for the arguments of an HTTP directive. -/
theorem ofLine_inlineLine {line : String} {d? : Option Directive}
    (h : Directive.ofLine owner line.toList = .ok d?)
    (hexpand : ∀ d, d? = some d → d.keyword.isHttp = true →
      ∃ args, aliases.expand d.args = .ok args ∧ Text.NoReference args.toList) :
    ∃ d?', Directive.ofLine owner (Comment.inlineLine aliases line).toList = .ok d?' ∧
      Option.Rel (Directive.InlinedTo aliases) d? d?' := by
  unfold Comment.inlineLine
  rw [Directive.ofLine_owner h ""]
  cases d? with
  | none => exact ⟨none, h, .none⟩
  | some d =>
    cases hhttp : d.keyword.isHttp with
    | false =>
      refine ⟨some d, by simpa [hhttp] using h, .some ⟨rfl, fun hsome => ?_⟩⟩
      rw [hhttp] at hsome
      cases hsome
    | true =>
      obtain ⟨args, hargs, hfree⟩ := hexpand d rfl hhttp
      simp only [hhttp, hargs, ↓reduceIte]
      exact ⟨_, Directive.ofLine_written owner d.keyword args,
        .some ⟨rfl, fun _ => ⟨args, hargs, hfree, rfl⟩⟩⟩

/-- A comment with its aliases written out has the same text, and its directives say the same. -/
theorem read_inlined (h : read owner lines = .ok block) (hexpands : block.Expands aliases)
    (hunbroken : Comment.Unbroken (Comment.inlined aliases lines)) :
    ∃ directives, read owner (Comment.inlined aliases lines) =
        .ok ⟨directives, block.description⟩ ∧
      List.Forall₂ (Directive.InlinedTo aliases) block.directives directives := by
  obtain ⟨found, hfound, h⟩ := bind_eq_ok.mp h
  obtain rfl := pure_eq_ok.mp h
  obtain ⟨found', hfound', hinlined⟩ := exists_mapM_related
    (g := fun line => Directive.ofLine owner
      (Comment.inlineLine aliases (String.ofList line)).toList)
    (R := Option.Rel (Directive.InlinedTo aliases)) hfound fun line d? _ hd? hline => by
      refine ofLine_inlineLine (by rwa [String.toList_ofList]) fun d hd hhttp => ?_
      subst hd
      exact hexpands d (List.mem_filterMap.mpr ⟨_, hd?, rfl⟩) hhttp
  have hread : (Comment.inlined aliases lines).mapM
      (fun line => Directive.ofLine owner line.toList) = .ok found' := by
    unfold Comment.inlined Comment.join
    rw [List.mapM_map, List.mapM_map]
    simpa only [Function.comp_def] using hfound'
  have hblock := (read_eq_ok hunbroken).mpr ⟨found', hread, rfl⟩
  rw [Comment.describe_inlined] at hblock
  exact ⟨_, hblock, List.rel_filterMap (fun _ _ hd => hd) hinlined⟩

theorem hasHttp_inlined {directives : List Directive} {description : String}
    (h : List.Forall₂ (Directive.InlinedTo aliases) block.directives directives) :
    hasHttp ⟨directives, description⟩ = block.hasHttp := by
  unfold hasHttp
  generalize block.directives = ds at h
  induction h with
  | nil => rfl
  | cons hd _ ih =>
    rw [List.any_cons, List.any_cons, hd.keyword]
    exact congrArg _ ih

end CommentBlock

namespace Method

variable {m : Method} {aliases : AliasTable} {options : ResolveOptions} {block : CommentBlock}
  {directives : List Directive}

/-- Aliases that are written out are expanded to what they were, trimmed. -/
theorem agree_expandDirectives (description : String)
    (hinlined : List.Forall₂ (Directive.InlinedTo aliases) block.directives directives) :
    Agree (List.Forall₂ Directive.TrimmedTo) (m.expandDirectives aliases block)
      (m.expandDirectives .empty ⟨directives, description⟩) := by
  have hhttp : List.Forall₂ (fun d d' => d.keyword.isHttp = true ∧ d.InlinedTo aliases d')
      (block.directives.filter (·.keyword.isHttp)) (directives.filter (·.keyword.isHttp)) := by
    refine (List.forall₂_and_left _ _).mpr ⟨fun d hd => (List.mem_filter.mp hd).2, ?_⟩
    exact forall₂_filter (fun d d' hd => by rw [hd.keyword]) hinlined
  refine Agree.mapM hhttp fun d d' hd => ?_
  obtain ⟨hd, hinlined⟩ := hd
  obtain ⟨args, hargs, hfree, hargs'⟩ := hinlined.args hd
  have hfree' : Text.NoReference d'.args.toList := by
    rw [hargs', toList_trimmed]
    exact hfree.trim
  rw [hargs, AliasTable.expand_of_noReference .empty hfree']
  exact ⟨hinlined.keyword, hargs'⟩

/-- A method that is read resolves as the comment that was read says. -/
theorem resolve_of_read (h : CommentBlock.read m.name m.doc = .ok block) :
    m.resolve aliases options =
      if !block.hasHttp then .ok ⟨[], []⟩
      else match (block.of .alias).head? with
        | some d => Checked.at m.name d.raw (fail .misplacedAlias)
        | none =>
          m.expandDirectives aliases block >>= m.resolveDirectives options block.description := by
  unfold resolve
  rw [h]
  rfl

theorem resolveDirectives_doc (doc : List String) {description : String} {ds : List Directive} :
    resolveDirectives { m with doc } options description ds =
      m.resolveDirectives options description ds := by
  unfold resolveDirectives
  rw [Declarations.read_doc]
  rfl

theorem agree_resolve_inlined (h : CommentBlock.read m.name m.doc = .ok block)
    (hexpands : block.Expands aliases)
    (hunbroken : Comment.Unbroken (Comment.inlined aliases m.doc)) :
    Agree Eq (m.resolve aliases options)
      (resolve { m with doc := Comment.inlined aliases m.doc } .empty options) := by
  obtain ⟨directives, h', hinlined⟩ := CommentBlock.read_inlined h hexpands hunbroken
  have hhttp : CommentBlock.hasHttp ⟨directives, block.description⟩ = block.hasHttp :=
    CommentBlock.hasHttp_inlined hinlined
  have halias : List.Forall₂ (Directive.InlinedTo aliases) (block.of .alias)
      (CommentBlock.of ⟨directives, block.description⟩ .alias) :=
    forall₂_filter (fun d d' hd => by rw [hd.keyword]) hinlined
  rw [resolve_of_read h, resolve_of_read (m := { m with doc := _ }) h', hhttp]
  split
  · exact agree_pure rfl
  · have hexpanded := agree_expandDirectives (m := m) block.description hinlined
    have hresolved : Agree Eq
        (m.expandDirectives aliases block >>= m.resolveDirectives options block.description)
        (m.expandDirectives .empty ⟨directives, block.description⟩ >>=
          resolveDirectives { m with doc := Comment.inlined aliases m.doc } options
            block.description) := by
      refine hexpanded.bind fun ds ds' hds => ?_
      rw [resolveDirectives_doc (Comment.inlined aliases m.doc)]
      exact agree_resolveDirectives hds
    generalize block.of .alias = as at halias
    generalize CommentBlock.of ⟨directives, block.description⟩ .alias = as' at halias
    cases halias with
    | nil => exact hresolved
    | cons => exact agree_fail rfl

/-- A method resolves with its aliases written out, and none given, as it does with aliases: to the
same operations and notices, or not at all for a fault of the same kind. -/
theorem resolve_inlined (h : CommentBlock.read m.name m.doc = .ok block)
    (hexpands : block.Expands aliases)
    (hunbroken : Comment.Unbroken (Comment.inlined aliases m.doc)) :
    (∃ r, m.resolve aliases options = .ok r ∧
      resolve { m with doc := Comment.inlined aliases m.doc } .empty options = .ok r) ∨
    ∃ d e, m.resolve aliases options = .error d ∧
      resolve { m with doc := Comment.inlined aliases m.doc } .empty options = .error e ∧
      d.fault.kind = e.fault.kind :=
  (agree_resolve_inlined h hexpands hunbroken).cases

/-- Aliases for a clause with white space behind it, for the pattern and for the status. -/
def pinNote : Method where
  name := "PinNote"
  args := [⟨"room", "string", .scalar⟩, ⟨"token", "string", .scalar⟩]
  returns := []
  doc := ["PinNote pins a note.", "//kun:op $route", "//kun:param \\", "//  $auth",
    "//kun:success $created"]

theorem resolve_inlined_of_pinNote :
    let aliases : AliasTable := ⟨[("auth", " token in=header name=Authorization  "),
      ("route", "PUT  /rooms/{room}/pin "), ("created", "statusCode=204 ")]⟩
    Comment.inlined aliases pinNote.doc = ["PinNote pins a note.",
        "//kun:op PUT  /rooms/{room}/pin ", "//kun:param  token in=header name=Authorization  ",
        "//kun:success statusCode=204 "] ∧
      ∃ r, pinNote.resolve aliases {} = .ok r ∧
        r.operations.map (·.pattern) = ["/rooms/{room}/pin"] ∧
        resolve { pinNote with doc := Comment.inlined aliases pinNote.doc } .empty {} = .ok r := by
  intro aliases
  obtain ⟨block, hblock, hargs⟩ : ∃ block, CommentBlock.read pinNote.name pinNote.doc = .ok block ∧
      block.directives.map (fun d => (aliases.expand d.args).toOption) =
        [some "PUT  /rooms/{room}/pin ", some " token in=header name=Authorization  ",
          some "statusCode=204 "] :=
    exists_ok_of_map (by decide +kernel)
  have hexpands : block.Expands aliases := by
    intro d hd _
    have hexpanded := List.mem_map_of_mem (f := fun d => (aliases.expand d.args).toOption) hd
    rw [hargs] at hexpanded
    cases hd : aliases.expand d.args with
    | error => simp [hd, Except.toOption] at hexpanded
    | ok args =>
      refine ⟨args, rfl, Text.NoReference.of_not_mem ?_⟩
      simp only [hd, Except.toOption, List.mem_cons, Option.some.injEq, List.not_mem_nil,
        or_false] at hexpanded
      rcases hexpanded with rfl | rfl | rfl <;> decide
  have hunbroken : Comment.Unbroken (Comment.inlined aliases pinNote.doc) := by
    unfold Comment.Unbroken
    decide +kernel
  obtain ⟨r, hr, hpattern⟩ : ∃ r, pinNote.resolve aliases {} = .ok r ∧
      r.operations.map (·.pattern) = ["/rooms/{room}/pin"] :=
    exists_ok_of_map (by decide +kernel)
  refine ⟨by decide +kernel, r, hr, hpattern, ?_⟩
  have hinlined := @resolve_inlined pinNote aliases {} block hblock hexpands hunbroken
  obtain ⟨r', hr', hsame⟩ | ⟨d, _, hd, -, -⟩ := hinlined
  · obtain rfl : r = r' := Except.ok.inj (hr.symm.trans hr')
    exact hsame
  · rw [hr] at hd
    cases hd

end Method

end Routespec
