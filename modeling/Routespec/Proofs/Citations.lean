import Routespec.Interface.Resolution
import Routespec.Proofs.Diagnostics
import Routespec.Proofs.WrittenDirectives

/-!
# What a diagnostic cites

A diagnostic carries the name of the method or interface that it is about, and cites one of the
directive lines of its comment, as written. A method is told without a line where no single one is
behind the fault: it has directives and no operation among them, or what is inferred for an argument
that no directive decides about fails, or reads a field from the path under a name that no pattern
has.
-/

namespace Routespec

/-- The text is a directive line of a comment, without the white space around it. -/
def Comment.Cites (doc : List String) (text : String) : Prop :=
  ∃ line ∈ Comment.join doc, text = String.ofList (Text.trim line.toList) ∧
    directiveMark.toList <+: text.toList

section Lines

variable {doc : List String} {owner : String}

theorem Comment.Cites.ne_empty {text : String} (h : Comment.Cites doc text) : text ≠ "" := by
  intro hempty
  obtain ⟨-, -, -, hmark⟩ := h
  rw [hempty] at hmark
  have hnil : directiveMark.toList = [] := List.prefix_nil.mp hmark
  revert hnil
  decide

/-- Every joined line with the mark is cited by what it is without the white space around it. -/
theorem Comment.cites_of_marked {line : Text} (hline : line ∈ joinLines (doc.map (·.toList)))
    (hmark : Directive.marked? line ≠ none) : Comment.Cites doc (String.ofList line.trim) := by
  obtain ⟨rest, hrest⟩ := Option.ne_none_iff_exists'.mp hmark
  refine ⟨String.ofList line, List.mem_map_of_mem hline, ?_, ?_⟩
  · rw [String.toList_ofList]
  · rw [String.toList_ofList, Text.eq_append_of_dropStart? hrest]
    exact List.prefix_append _ _

/-- Every directive of a comment cites a line of it. -/
theorem CommentBlock.cites_of_read {block : CommentBlock}
    (h : CommentBlock.read owner doc = .ok block) : ∀ d ∈ block.directives,
      Comment.Cites doc d.raw := by
  obtain ⟨found, hfound, h⟩ := bind_eq_ok.mp h
  obtain rfl := pure_eq_ok.mp h
  intro d hd
  obtain ⟨d?, hd?, rfl⟩ := List.mem_filterMap.mp hd
  obtain ⟨line, hline, hread⟩ := forall₂_mem_right (mapM_eq_ok.mp hfound) hd?
  obtain ⟨hmark, hraw⟩ := Directive.marked_of_ofLine hread
  rw [hraw]
  exact Comment.cites_of_marked hline hmark

end Lines

namespace Method

variable {m : Method} {aliases : AliasTable} {options : ResolveOptions}

/-- A fault of a method that no single directive is behind. -/
inductive Uncited (m : Method) (aliases : AliasTable) (options : ResolveOptions) : Fault → Prop
  /-- The method has HTTP directives and no operation among them. -/
  | noOperation {block : CommentBlock} (hblock : CommentBlock.read m.name m.doc = .ok block)
      (hhttp : block.hasHttp = true) (hop : block.of .op = []) :
      Uncited m aliases options (Cause.noOperation directiveMark).fault
  /-- The fault is one of what is inferred for an argument that no directive decides about. -/
  | implied {decl : Declarations} {f : Fault} (hdecl : m.declarations aliases = .ok decl)
      (hf : m.ImpliedFault decl options f) : Uncited m aliases options f

/-- Expanding aliases keeps the lines of directives. -/
theorem raw_of_expandDirectives {block : CommentBlock} {ds : List Directive}
    (h : m.expandDirectives aliases block = .ok ds) :
    ∀ d ∈ ds, ∃ d' ∈ block.directives, d.raw = d'.raw := by
  intro d hd
  obtain ⟨d', hd', hexpanded⟩ := forall₂_mem_right (mapM_eq_ok.mp h) hd
  obtain ⟨args, -, rfl⟩ := map_eq_ok.mp hexpanded
  exact ⟨d', List.mem_of_mem_filter hd', rfl⟩

/-- Whatever may be said of a directive line, and without one of a fault that none is behind, is
said of every diagnostic of a method. -/
theorem stopsWith_resolve {P : Diagnostic → Prop}
    (hcited : ∀ raw, Comment.Cites m.doc raw → ∀ f, P ⟨m.name, raw, f⟩)
    (huncited : ∀ f, m.Uncited aliases options f → P ⟨m.name, "", f⟩) :
    StopsWith P (m.resolve aliases options) := by
  have hread : StopsWith P (CommentBlock.read m.name m.doc) :=
    CommentBlock.stopsWith_read fun line hline hmark f _ =>
      hcited _ (Comment.cites_of_marked hline hmark) f
  refine stopsWith_bind.mpr ⟨hread, fun block hblock => ?_⟩
  have hlines : ∀ d ∈ block.directives, ∀ f, P ⟨m.name, d.raw, f⟩ := fun d hd =>
    hcited d.raw (CommentBlock.cites_of_read hblock d hd)
  cases hhttp : block.hasHttp with
  | false => exact stopsWith_pure
  | true =>
    have hrest : StopsWith P (do
        let ds ← m.expandDirectives aliases block
        m.resolveDirectives options block.description ds) := by
      refine stopsWith_bind.mpr ⟨stopsWith_expandDirectives fun d hd _ f _ => hlines d hd f,
        fun ds hds => ?_⟩
      have hpermits : ∀ d ∈ ds, ∀ f, P ⟨m.name, d.raw, f⟩ := by
        intro d hd
        obtain ⟨d', hd', hraw⟩ := raw_of_expandDirectives hds d hd
        exact hraw ▸ hlines d' hd'
      -- without an operation among the expanded directives there was none before
      have hnone : Declarations.select .op ds = [] →
          P ⟨m.name, "", (Cause.noOperation directiveMark).fault⟩ := by
        intro hselect
        have hexpanded := expandDirectives_select .op rfl hds
        rw [hselect, List.forall₂_nil_right_iff] at hexpanded
        exact huncited _ (.noOperation hblock hhttp hexpanded)
      refine stopsWith_bind.mpr ⟨Declarations.stopsWith_read (fun d hd f _ => hpermits d hd f)
        hnone, fun decl hdecl => ?_⟩
      have hdeclared : m.declarations aliases = .ok decl :=
        bind_eq_ok.mpr ⟨block, hblock, bind_eq_ok.mpr ⟨ds, hds, hdecl⟩⟩
      have hpermitted : decl.Permitted P m.name :=
        Declarations.permitted_of_read (fun d hd f _ => hpermits d hd f) hdecl
      have hsuccess : ∀ rule, decl.success = some rule → ∀ f, P ⟨m.name, rule.raw, f⟩ := by
        intro rule hrule
        obtain ⟨-, -, hread, -, -⟩ := Declarations.read_eq_ok.mp hdecl
        obtain ⟨d, hd, hraw⟩ := Declarations.mem_of_atMostOne (hrule ▸ hread)
        exact hraw ▸ hpermits d (List.mem_of_mem_filter hd)
      refine (Declarations.stopsWith_checkWholeBody hpermitted).bind fun _ => ?_
      refine (stopsWith_plan hpermitted fun f _ hf => huncited f (.implied hdeclared hf)).bind
        fun plan => ?_
      refine (stopsWith_response hsuccess).bind fun (success, notices) => ?_
      exact (stopsWith_operations hpermitted).bind fun _ => stopsWith_pure
    simp only [Bool.not_true, Bool.false_eq_true, ↓reduceIte]
    split
    · next d halias =>
      have hd : d ∈ block.directives := List.mem_of_mem_filter (List.mem_of_mem_head? halias)
      exact (stopsWith_at.mpr fun f _ => hlines d hd f).bind fun _ => hrest
    · exact hrest

end Method

namespace Interface

/-- Whatever may be said of a directive line is said of every diagnostic of an interface. -/
theorem stopsWith_resolve {i : Interface} {options : ResolveOptions} {P : Diagnostic → Prop}
    (hcited : ∀ raw, Comment.Cites i.doc raw → ∀ f, P ⟨i.name, raw, f⟩) :
    StopsWith P (i.resolve options) := by
  have hread : StopsWith P (CommentBlock.read i.name i.doc) :=
    CommentBlock.stopsWith_read fun line hline hmark f _ =>
      hcited _ (Comment.cites_of_marked hline hmark) f
  have hpreamble : StopsWith P i.preamble := by
    refine stopsWith_bind.mpr ⟨hread, fun block hblock => .foldlM fun p d hd => ?_⟩
    exact stopsWith_at.mpr fun f _ => hcited d.raw (CommentBlock.cites_of_read hblock d hd) f
  exact hpreamble.bind fun p => stopsWith_pure

end Interface

/-- A diagnostic of a method carries its name, and cites a directive line of its comment unless no
single one is behind the fault. One of an interface carries its name and always cites a line. -/
theorem diagnostics_cited :
    (∀ (m : Method) (aliases : AliasTable) (options : ResolveOptions) (d : Diagnostic),
      m.resolve aliases options = .error d →
        d.owner = m.name ∧ (d.directive = "" ∨ Comment.Cites m.doc d.directive) ∧
        (d.directive = "" → m.Uncited aliases options d.fault)) ∧
    ∀ (i : Interface) (options : ResolveOptions) (d : Diagnostic),
      i.resolve options = .error d →
        d.owner = i.name ∧ d.directive ≠ "" ∧ Comment.Cites i.doc d.directive := by
  constructor
  · intro m aliases options d h
    have hcited : StopsWith (fun d => d.owner = m.name ∧ (Comment.Cites m.doc d.directive ∨
        d.directive = "" ∧ m.Uncited aliases options d.fault)) (m.resolve aliases options) :=
      Method.stopsWith_resolve (fun raw hraw f => ⟨rfl, .inl hraw⟩)
        fun f hf => ⟨rfl, .inr ⟨rfl, hf⟩⟩
    obtain ⟨howner, hcites | ⟨hnone, huncited⟩⟩ := hcited d h
    · exact ⟨howner, .inr hcites, fun hnone => absurd hnone hcites.ne_empty⟩
    · exact ⟨howner, .inl hnone, fun _ => huncited⟩
  · intro i options d h
    have hcited : StopsWith (fun d => d.owner = i.name ∧ Comment.Cites i.doc d.directive)
        (i.resolve options) :=
      Interface.stopsWith_resolve fun raw hraw f => ⟨rfl, hraw⟩
    obtain ⟨howner, hcites⟩ := hcited d h
    exact ⟨howner, hcites.ne_empty, hcites⟩

/-- The fault of one method lies in a continued directive, that of the other one in the shape of an
argument; and the interface has a directive of methods. -/
def shelf : Interface where
  name := "Shelf"
  doc := ["Shelf keeps books.", "\t//kun:op GET /shelf "]
  methods := [
    { name := "GetBook", args := [⟨"id", "string", .scalar⟩], returns := []
      doc := ["GetBook finds a book.", "//kun:op GET /books/{id}",
        "  //kun:param id in=path, \\", "// in=cookie name=book "] },
    { name := "AddBook"
      args := [⟨"book", "Book", .composite [⟨"Pages", "[]Page", .sequence, none⟩]⟩]
      returns := [], doc := ["//kun:op POST /books"] }]

theorem diagnostics_cited_of_shelf :
    (shelf.methods.map fun m => match m.resolve .empty {} with
      | .ok _ => none
      | .error d => some (d.owner, d.directive)) =
      [some ("GetBook", "//kun:param id in=path, in=cookie name=book"), some ("AddBook", "")] ∧
    (∀ m ∈ shelf.methods, ∀ d, m.resolve .empty {} = .error d →
      d.owner = m.name ∧ (d.directive = "" ∨ Comment.Cites m.doc d.directive) ∧
      (d.directive = "" → m.Uncited .empty {} d.fault)) ∧
    ∃ d, shelf.resolve {} = .error d ∧ d.directive = "//kun:op GET /shelf" ∧
      d.owner = shelf.name ∧ d.directive ≠ "" ∧ Comment.Cites shelf.doc d.directive := by
  refine ⟨by decide +kernel, fun m _ d => diagnostics_cited.1 m .empty {} d, ?_⟩
  have hfault : shelf.resolve {} =
      .error ⟨"Shelf", "//kun:op GET /shelf", (Cause.methodOnlyDirective "op").fault⟩ := by
    decide +kernel
  exact ⟨_, hfault, rfl, diagnostics_cited.2 shelf {} _ hfault⟩

/-- A method with a field that its metadata puts into the path, where no pattern has its name. -/
def addNote : Method where
  name := "AddNote"
  args := [⟨"note", "Note", .composite [⟨"Slug", "string", .scalar, some "in=path name=slug"⟩]⟩]
  returns := []
  doc := ["//kun:op POST /notes"]

/-- A diagnostic without a line does not only come of a method without an operation or of an
inference that fails. -/
theorem uncited_beyond_inference :
    ¬ ∀ (m : Method) (aliases : AliasTable) (options : ResolveOptions) (d : Diagnostic),
      m.resolve aliases options = .error d → d.directive = "" →
      (∃ block, CommentBlock.read m.name m.doc = .ok block ∧ block.hasHttp = true ∧
        block.of .op = []) ∨
      ∃ decl, m.declarations aliases = .ok decl ∧ ∃ arg ∈ m.args, decl.LeavesOpen arg ∧
        ∃ f, (Method.inference decl options).implied arg = .error f := by
  intro h
  have hfault : addNote.resolve .empty {} =
      .error ⟨"AddNote", "", (Cause.foreignPathParameter "slug").fault⟩ := by
    decide +kernel
  rcases h addNote .empty {} _ hfault rfl with
    ⟨block, hblock, -, hop⟩ | ⟨decl, hdecl, arg, harg, -, f, hf⟩
  · obtain ⟨block', hblock', hops⟩ : ∃ block, CommentBlock.read addNote.name addNote.doc =
        .ok block ∧ (block.of .op).length = 1 :=
      exists_ok_of_map (by decide +kernel)
    obtain rfl : block = block' := Except.ok.inj (hblock.symm.trans hblock')
    rw [hop] at hops
    cases hops
  · obtain ⟨decl', hdecl', himplied⟩ : ∃ decl, addNote.declarations .empty = .ok decl ∧
        (addNote.args.all fun arg => ((Method.inference decl {}).implied arg).isOk) = true :=
      exists_ok_of_map (by decide +kernel)
    obtain rfl : decl = decl' := Except.ok.inj (hdecl.symm.trans hdecl')
    have hok := List.all_eq_true.mp himplied arg harg
    rw [hf] at hok
    cases hok

end Routespec
