import Routespec.Options.Pair

/-!
# Document rules

The arguments of an `oas` directive: properties of the specification as a whole.
-/

namespace Routespec

/-- What an `oas` directive asks for. -/
structure DocumentRule where
  title : Option String := none
  version : Option String := none
  basePath : Option String := none
  tags : Option (List String) := none
  deriving DecidableEq, Inhabited

/-- The tags in a value: the trimmed parts between commas, blank ones left out. -/
def readTags (value : String) : List String :=
  (((value.toList.splitOnP (· = ',')).map Text.trim).filter (!·.isEmpty)).map String.ofList

namespace DocumentRule

/-- The options an `oas` directive understands. -/
def keys : List (OptionKey DocumentRule) := [
  ⟨"title", fun value r => .ok { r with title := some value }⟩,
  ⟨"version", fun value r => .ok { r with version := some value }⟩,
  ⟨"basePath", fun value r => .ok { r with basePath := some value }⟩,
  ⟨"tags", fun value r => .ok { r with tags := some (readTags value) }⟩]

/-- Read the arguments of an `oas` directive. -/
def read (args : String) : Checked DocumentRule :=
  (OptionPair.readAll args.toList).bind (OptionKey.fill keys [] {})

/-- The first property of the rule that only an interface can have. -/
def interfaceOnly? (r : DocumentRule) : Option String :=
  if r.title.isSome then some "title"
  else if r.version.isSome then some "version"
  else if r.basePath.isSome then some "basePath"
  else none

end DocumentRule

end Routespec
