import Routespec.Interface.Resolution
import Routespec.Proofs.Resolution

/-!
# Where directives may stand

Aliases are declared on the interface, and what makes operations is declared on methods. A directive
that an interface must not have is refused wherever it stands in the comment, unless one before it
is refused. A method looks at the aliases of its comment only if some directive is about HTTP: it is
then refused for the first alias, and is passed over otherwise.
-/

namespace Routespec

/-- A directive that only methods may have. -/
def Keyword.isMethodOnly : Keyword → Bool
  | .op | .param | .body | .success => true
  | .alias | .oas | .grpc | .event => false

namespace Method

variable {m : Method} {block : CommentBlock} {d : Directive} {rest : List Directive}

/-- What becomes of a method with an alias in its comment. -/
theorem resolve_of_alias (hblock : CommentBlock.read m.name m.doc = .ok block)
    (halias : block.of .alias = d :: rest) (aliases : AliasTable) (options : ResolveOptions) :
    m.resolve aliases options =
      if block.hasHttp then .error ⟨m.name, d.raw, Cause.misplacedAlias.fault⟩
      else .ok ⟨[], []⟩ := by
  unfold resolve
  rw [hblock]
  change (if !block.hasHttp then _ else _) = _
  rw [halias]
  cases block.hasHttp <;> rfl

end Method

namespace Interface

/-- What is declared before the first directive of the comment. -/
def opening (i : Interface) (description : String) : Preamble where
  aliases := .empty
  about := { title := i.name, version := defaultVersion, basePath := "", tags := [], description }

variable {i : Interface} {block : CommentBlock} {d : Directive} {before after : List Directive}

theorem preamble_of_read (hblock : CommentBlock.read i.name i.doc = .ok block) :
    i.preamble = block.directives.foldlM (Preamble.apply i.name) (i.opening block.description) := by
  unfold preamble
  rw [hblock]
  rfl

/-- A directive of methods is refused whatever has been declared. -/
theorem apply_of_isMethodOnly {owner : String} (h : d.keyword.isMethodOnly = true) (p : Preamble) :
    Preamble.apply owner p d =
      .error ⟨owner, d.raw, (Cause.methodOnlyDirective d.keyword.word).fault⟩ := by
  unfold Preamble.apply
  cases hkeyword : d.keyword <;> first | rfl | (rw [hkeyword] at h; cases h)

/-- A run of declarations stops at a directive of methods, if it gets there. -/
theorem foldlM_apply_of_isMethodOnly {owner : String} (h : d.keyword.isMethodOnly = true)
    (p : Preamble) : (before ++ d :: after).foldlM (Preamble.apply owner) p =
      before.foldlM (Preamble.apply owner) p >>= fun _ =>
        .error ⟨owner, d.raw, (Cause.methodOnlyDirective d.keyword.word).fault⟩ := by
  rw [List.foldlM_append]
  refine bind_congr fun q => ?_
  rw [List.foldlM_cons, apply_of_isMethodOnly h]
  rfl

theorem resolve_of_preamble_error {e : Diagnostic} (h : i.preamble = .error e)
    (options : ResolveOptions) : i.resolve options = .error e := by
  unfold resolve
  rw [h]
  rfl

/-- The first fault of a comment that has a directive of methods behind `before`. -/
def refusal (i : Interface) (description : String) (before : List Directive) (d : Directive) :
    Diagnostic :=
  match before.foldlM (Preamble.apply i.name) (i.opening description) with
  | .error e => e
  | .ok _ => ⟨i.name, d.raw, (Cause.methodOnlyDirective d.keyword.word).fault⟩

/-- An interface with a directive of methods in its comment is refused: for that directive, unless
one before it cannot be applied. -/
theorem resolve_of_isMethodOnly (hblock : CommentBlock.read i.name i.doc = .ok block)
    (hdirectives : block.directives = before ++ d :: after) (h : d.keyword.isMethodOnly = true)
    (options : ResolveOptions) :
    i.resolve options = .error (i.refusal block.description before d) := by
  refine resolve_of_preamble_error ?_ options
  rw [preamble_of_read hblock, hdirectives, foldlM_apply_of_isMethodOnly h, refusal]
  cases before.foldlM (Preamble.apply i.name) (i.opening block.description) <;> rfl

end Interface

/-- A method with an alias in its comment is refused for the first one if some directive is about
HTTP, and resolves to nothing otherwise. An interface with a directive of methods in its comment is
refused. -/
theorem directive_placement (aliases : AliasTable) (options : ResolveOptions) :
    (∀ (m : Method) (block : CommentBlock) (d : Directive) (rest : List Directive),
      CommentBlock.read m.name m.doc = .ok block → block.of .alias = d :: rest →
      m.resolve aliases options =
        if block.hasHttp then .error ⟨m.name, d.raw, Cause.misplacedAlias.fault⟩
        else .ok ⟨[], []⟩) ∧
    (∀ (i : Interface) (block : CommentBlock) (before after : List Directive) (d : Directive),
      CommentBlock.read i.name i.doc = .ok block → block.directives = before ++ d :: after →
      d.keyword.isMethodOnly = true →
      i.resolve options = .error (i.refusal block.description before d)) :=
  ⟨fun _ _ _ _ hblock halias => Method.resolve_of_alias hblock halias aliases options,
    fun _ _ _ _ _ hblock hdirectives h =>
      Interface.resolve_of_isMethodOnly hblock hdirectives h options⟩

/-- A method of two protocols that declares an alias, which it must not. -/
def aliasedPing : Method where
  name := "Ping"
  args := []
  returns := []
  doc := ["//kun:grpc Ping", "// Ping answers.", "//kun:alias \\", "//  page=`in=query`",
    "//kun:event ping", "//kun:op GET /ping"]

/-- An interface that declares an alias, which it may, and an operation, which it must not. -/
def routedShelf : Interface where
  name := "Shelf"
  methods := [aliasedPing]
  doc := ["//kun:alias page=`in=query`", "//kun:event shelf", "// Shelf holds books.",
    "//kun:op GET /shelf", "//kun:grpc Shelf"]

theorem directive_placement_of_shelf :
    aliasedPing.resolve .empty {} =
      .error ⟨"Ping", "//kun:alias page=`in=query`", Cause.misplacedAlias.fault⟩ ∧
    routedShelf.resolve {} =
      .error ⟨"Shelf", "//kun:op GET /shelf", (Cause.methodOnlyDirective "op").fault⟩ := by
  constructor
  · obtain ⟨block, hblock, hread⟩ : ∃ block, CommentBlock.read "Ping" aliasedPing.doc = .ok block ∧
        (block.of .alias, block.hasHttp) =
          ([⟨.alias, "page=`in=query`", "//kun:alias page=`in=query`"⟩], true) :=
      exists_ok_of_map (by decide +kernel)
    obtain ⟨halias, hhttp⟩ := Prod.mk.inj hread
    have h := (directive_placement .empty {}).1 aliasedPing block _ _ hblock halias
    rwa [hhttp] at h
  · obtain ⟨block, hblock, hread⟩ : ∃ block, CommentBlock.read "Shelf" routedShelf.doc = .ok block ∧
        (block.directives, block.description) =
          ([⟨.alias, "page=`in=query`", "//kun:alias page=`in=query`"⟩,
            ⟨.event, "shelf", "//kun:event shelf"⟩, ⟨.op, "GET /shelf", "//kun:op GET /shelf"⟩,
            ⟨.grpc, "Shelf", "//kun:grpc Shelf"⟩], "Shelf holds books.") :=
      exists_ok_of_map (by decide +kernel)
    obtain ⟨hdirectives, hdescription⟩ := Prod.mk.inj hread
    have h := (directive_placement .empty {}).2 routedShelf block (block.directives.take 2)
      (block.directives.drop 3) ⟨.op, "GET /shelf", "//kun:op GET /shelf"⟩ hblock
      (by rw [hdirectives]; rfl) rfl
    rw [h, hdirectives, hdescription]
    decide +kernel

/-- Not every method with an alias in its comment is refused. -/
theorem alias_alone_passes : ¬ ∀ (m : Method) (aliases : AliasTable) (options : ResolveOptions)
    (block : CommentBlock), CommentBlock.read m.name m.doc = .ok block →
      (∃ d ∈ block.directives, d.keyword = .alias) → ∃ e, m.resolve aliases options = .error e := by
  intro h
  have hblock : CommentBlock.read "Ping" ["//kun:alias page=`in=query`"] =
      .ok ⟨[⟨.alias, "page=`in=query`", "//kun:alias page=`in=query`"⟩], ""⟩ := by rfl
  obtain ⟨e, he⟩ := h ⟨"Ping", [], [], ["//kun:alias page=`in=query`"]⟩ .empty {} _ hblock
    ⟨_, List.mem_singleton.mpr rfl, rfl⟩
  rw [Method.resolve_of_alias hblock rfl] at he
  cases he

end Routespec
