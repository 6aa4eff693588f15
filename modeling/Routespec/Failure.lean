import Routespec.Fault
import Routespec.Host

/-!
# Failures of a run

Why a run ends without a specification. Each failure has one line of text; what it was caused by
is not part of it.
-/

namespace Routespec

/-- Why a run fails. -/
inductive Failure
  /-- A file or folder could not be used, for a reason that stands by itself. -/
  | access (fault : AccessFault)
  /-- The configuration is no TOML, or holds something else than a configuration. -/
  | malformedConfig
  /-- The configuration that was asked for is not there. -/
  | missingConfig (path : String)
  /-- A naming convention that does not exist was asked for. -/
  | unknownNaming (word : String)
  /-- A policy that does not exist was asked for. -/
  | unknownVoidSuccess (word : String)
  | unreadableInterface (path : String)
  | malformedInterface (path : String)
  /-- The comment of the interface has a fault. -/
  | interfaceFault (diagnostic : Diagnostic)
  /-- Methods of an interface have faults, which the log tells. -/
  | methodFaults (count : Nat) (interface : String)
  | unwritable (path : String)
  | malformedFixtures (path : String)
  /-- Fixtures have names that no operation has. -/
  | unknownOperations (names : List String)
  deriving DecidableEq, Inhabited

/-- The text of a failure. -/
def Failure.message : Failure → String
  | .access fault => fault.message
  | .malformedConfig => "TOML parse error"
  | .missingConfig path => s!"config file not found: {path}"
  | .unknownNaming word => s!"Unsupported naming convention: {word}"
  | .unknownVoidSuccess word => s!"Unsupported void-success policy: {word}"
  | .unreadableInterface path => s!"failed to read {path}"
  | .malformedInterface path => s!"invalid interface description {path}"
  | .interfaceFault diagnostic => diagnostic.display
  | .methodFaults count interface => s!"{count} method(s) of {interface} failed to resolve"
  | .unwritable path => s!"failed to write {path}"
  | .malformedFixtures path => s!"invalid fixture file {path}"
  | .unknownOperations names =>
    "fixtures reference unknown operations: " ++ ", ".intercalate names

/-- A computation on a host that may fail. -/
abbrev Attempt (m : Type → Type) := ExceptT Failure m

namespace Attempt

variable {m : Type → Type} [Monad m]

/-- What the host answers, or the failure that its fault stands for. -/
def orFail {α : Type} (failure : AccessFault → Failure) (x : m (Except AccessFault α)) :
    Attempt m α :=
  ExceptT.mk ((·.mapError failure) <$> x)

/-- What was found out without the host. -/
def ofExcept {α : Type} (x : Except Failure α) : Attempt m α := ExceptT.mk (pure x)

/-- The value, if there is one. -/
def ofOption {α : Type} (failure : Failure) (x : Option α) : Attempt m α :=
  ofExcept (x.elim (.error failure) .ok)

/-- There is a file or folder at a path. -/
def isPresent [Host m] (path : String) : Attempt m Bool := ExceptT.lift (Host.isPresent path)

/-- Add an entry to the log. -/
def log [Host m] (level : LogLevel) (message : String) : Attempt m Unit :=
  ExceptT.lift (Host.log ⟨level, message⟩)

end Attempt

end Routespec
