import Routespec.Failure
import Routespec.ResolveOptions.Toml
import Routespec.Toml.Reader

/-!
# Configuration

What a user may keep in a file instead of asking for it with every run.
-/

namespace Routespec

/-- A configuration. -/
structure Config where
  resolve : ResolveOptions := {}
  /-- The path of the fixture file. -/
  fixtures : Option String := none
  deriving DecidableEq, Inhabited

namespace Config

/-- Where the configuration is looked for if nothing else is asked for. -/
def defaultPath : String := "kun.toml"

/-- The configuration that is written. Members it does not know are skipped. -/
def ofToml? (members : Toml.Members) : Option Config := do
  let resolve ← match members.lookup "resolve" with
    | none => some {}
    | some v => ResolveOptions.ofToml? v
  let fixtures ← match members.lookup "fixtures" with
    | none => some none
    | some (.string path) => some (some path)
    | some _ => none
  return { resolve, fixtures }

/-- The configuration at a path, or the default one if nothing is there. -/
def load {m : Type → Type} [Monad m] [Host m] (path : String) : Attempt m Config := do
  if ← Attempt.isPresent path then
    let text ← Attempt.orFail .access (Host.readFile path)
    Attempt.ofOption .malformedConfig ((Toml.read? text).bind ofToml?)
  else return {}

end Config

end Routespec
