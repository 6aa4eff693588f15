import Routespec.Method.Resolution

/-!
# Resolution of an interface

The directives of the interface define aliases and properties of the document; then every method
is resolved by itself. A method with a fault is left out and its diagnostic kept.
-/

namespace Routespec

/-- What an interface resolves to. -/
structure Resolution where
  spec : Specification
  /-- The diagnostics of the methods that were left out, in method order. -/
  errors : List Diagnostic
  notices : List Notice
  deriving DecidableEq, Inhabited

namespace Resolution

/-- No method was left out. -/
def isComplete (r : Resolution) : Bool := r.errors.isEmpty

end Resolution

namespace Interface

/-- The version of documents that set none. -/
def defaultVersion : String := "0.0.0"

/-- What the directives of an interface have declared so far. -/
structure Preamble where
  aliases : AliasTable
  about : SpecMeta
  deriving DecidableEq, Inhabited

/-- The document with the properties of a rule; tags add up. -/
def Preamble.describe (p : Preamble) (rule : DocumentRule) : Preamble :=
  { p with
    about := { p.about with
      title := rule.title.getD p.about.title
      version := rule.version.getD p.about.version
      basePath := rule.basePath.getD p.about.basePath
      tags := p.about.tags ++ rule.tags.getD [] } }

/-- What has been declared after one more directive. -/
def Preamble.apply (owner : String) (p : Preamble) (d : Directive) : Diagnosed Preamble :=
  Checked.at owner d.raw <|
    match d.keyword with
    | .alias => (p.aliases.define d.args).map fun aliases => { p with aliases }
    | .oas => (DocumentRule.read d.args).map p.describe
    | .grpc | .event => .ok p
    | .op | .param | .body | .success => fail (.methodOnlyDirective d.keyword.word)

/-- What the comment of the interface declares. -/
def preamble (i : Interface) : Diagnosed Preamble := do
  let block ← CommentBlock.read i.name i.doc
  let start : Preamble :=
    { aliases := .empty
      about :=
        { title := i.name, version := defaultVersion, basePath := "", tags := []
          description := block.description } }
  block.directives.foldlM (Preamble.apply i.name) start

/-- Resolve an interface. It fails only if its own comment has a fault. -/
def resolve (i : Interface) (options : ResolveOptions) : Diagnosed Resolution := do
  let p ← i.preamble
  let results := i.methods.map fun m => m.resolve p.aliases options
  let resolved := results.filterMap fun
    | .ok r => some r
    | .error _ => none
  let errors := results.filterMap fun
    | .ok _ => none
    | .error e => some e
  return {
    spec := { about := p.about, operations := resolved.flatMap (·.operations) }
    errors
    notices := resolved.flatMap (·.notices) }

end Interface

end Routespec
