import Routespec.Text.Blank

/-!
# Paths of files

A path is written with slashes between its parts, and leads from one folder to the next.
-/

namespace Routespec

/-- One step of a path. -/
inductive PathStep
  /-- Nothing between two slashes, or behind the last one. -/
  | empty
  /-- A single point: the folder reached so far. -/
  | here
  /-- Two points: the folder that one lies in. -/
  | up
  /-- The name of a file or folder. -/
  | down (name : String)
  deriving DecidableEq, Repr, Inhabited

namespace PathStep

/-- The step that a part of a path stands for. -/
def ofPart (part : Text) : PathStep :=
  if part = [] then .empty
  else if part = ['.'] then .here
  else if part = ['.', '.'] then .up
  else .down (String.ofList part)

/-- The step goes nowhere. -/
def isIdle : PathStep → Bool
  | .empty | .here => true
  | .up | .down _ => false

end PathStep

/-- Where a path begins and how it goes on. -/
structure FilePath where
  /-- It begins at the root of the machine, and not at the working folder. -/
  isAbsolute : Bool
  steps : List PathStep
  deriving DecidableEq, Repr, Inhabited

namespace FilePath

/-- The most bytes that a path has. -/
def maxBytes : Nat := 4095

/-- The most bytes that a name in a path has. -/
def maxNameBytes : Nat := 255

/-- The path that a text describes. A text that is empty or has a null character describes none. -/
def ofText? (t : Text) : Option FilePath :=
  if t = [] ∨ '\x00' ∈ t then none
  else some ⟨t.head? = some '/', (t.splitOnP (· = '/')).map PathStep.ofPart⟩

/-- The path of a name inside a folder. -/
def join (folder name : String) : String :=
  if folder = "" then name
  else if folder.toList.getLast? = some '/' then folder ++ name
  else folder ++ "/" ++ name

end FilePath

end Routespec
