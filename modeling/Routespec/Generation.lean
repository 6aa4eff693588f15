import Routespec.Config
import Routespec.Fixtures
import Routespec.FilePath
import Routespec.Interface.Resolution
import Routespec.Json.Printer
import Routespec.Signature.Json
import Routespec.Specification.Json

/-!
# Generating a specification

A run reads the description of an interface, resolves it and writes the specification into a
folder; then it checks the fixtures, if there are any, and writes them next to it.
-/

namespace Routespec

namespace Generation

/-- The name of the file that a specification is written to. -/
def specFile : String := "spec.json"

/-- The name of the file that fixtures are written to. -/
def fixturesFile : String := "fixtures.json"

variable {m : Type → Type} [Monad m] [Host m]

/-- The interface that the file at a path describes. -/
def readInterface (path : String) : Attempt m Interface := do
  let text ← Attempt.orFail (fun _ => .unreadableInterface path) (Host.readFile path)
  Attempt.ofOption (.malformedInterface path) ((Json.read? text).bind Interface.ofJson?)

/-- The specification of an interface whose methods all resolve. Notices and the faults of methods
go to the log. -/
def resolve (i : Interface) (options : ResolveOptions) : Attempt m Specification := do
  let r ← Attempt.ofExcept ((i.resolve options).mapError .interfaceFault)
  r.notices.forM fun n => Attempt.log .info s!"method {n.method}: {n.message}"
  if r.isComplete then return r.spec
  else
    r.errors.forM fun e => Attempt.log .error ("[" ++ e.fault.kind.code ++ "] " ++ e.display)
    throw (.methodFaults r.errors.length i.name)

/-- Write a value to the file at a path. -/
def writeJson (path : String) (v : Json.Value) : Attempt m Unit :=
  Attempt.orFail (fun _ => .unwritable path) (Host.writeFile path v.pretty)

/-- Check the fixtures at a path against a specification, and write them into a folder. -/
def copyFixtures (path output : String) (spec : Specification) : Attempt m Unit := do
  if let some fixtures ← Fixtures.load path then
    Attempt.ofExcept (fixtures.check spec)
    writeJson (FilePath.join output fixturesFile) fixtures.toJson

/-- Resolve the interface described at `input` and write the specification into the folder
`output`. -/
def run (input output : String) (config : Config) : Attempt m Specification := do
  Attempt.log .info s!"Reading interface: {input}"
  let i ← readInterface input
  let spec ← resolve i config.resolve
  Attempt.orFail .access (Host.makeFolders output)
  writeJson (FilePath.join output specFile) spec.toJson
  Attempt.log .info s!"Wrote {spec.operations.length} operations to {output}"
  if let some path := config.fixtures then copyFixtures path output spec
  return spec

end Generation

end Routespec
