import Routespec.FilePath
import Routespec.Host
import Routespec.KeyedList

/-!
# Trees of files

The files and folders of a machine as far as a program that starts in a working folder knows them,
as a value. A path is followed step by step; every step has to start in a folder. The root of the
machine, the working folder and the folders above that are there from the start.
-/

namespace Routespec

/-- A folder that is there from the start. -/
inductive Ground
  /-- The root of the machine. -/
  | root
  /-- The folder so many levels above the working folder, which itself is at level zero. -/
  | above (levels : Nat)
  deriving DecidableEq, Repr, Inhabited

/-- Where a file or folder is: its name and the names of the folders it lies in, innermost first,
and the folder which those lie in. -/
structure FileAddress where
  ground : Ground
  names : List String
  deriving DecidableEq, Repr, Inhabited

namespace FileAddress

/-- The working folder. -/
def working : FileAddress := ⟨.above 0, []⟩

/-- What has the given name in a folder. -/
def child (a : FileAddress) (name : String) : FileAddress := { a with names := name :: a.names }

/-- The folder that something lies in. The root of the machine lies in itself. -/
def parent : FileAddress → FileAddress
  | ⟨ground, _ :: names⟩ => ⟨ground, names⟩
  | ⟨.above levels, []⟩ => ⟨.above (levels + 1), []⟩
  | ⟨.root, []⟩ => ⟨.root, []⟩

/-- The path from the working folder to something inside it. -/
def path? (a : FileAddress) : Option String :=
  if a.ground = .above 0 then some ("/".intercalate a.names.reverse) else none

end FileAddress

/-- What is at an address. -/
inductive FileEntry
  | file (content : String)
  | folder
  deriving DecidableEq, Inhabited

/-- A tree, with an entry for every file and folder that was not there from the start. -/
structure FileTree where
  entries : List (FileAddress × FileEntry)
  deriving DecidableEq, Inhabited

namespace FileTree

/-- The tree without files. -/
def empty : FileTree := ⟨[]⟩

/-- What is at an address. -/
def get? (t : FileTree) (a : FileAddress) : Option FileEntry :=
  if a.names = [] then some .folder else t.entries.lookup a

/-- The tree with a new entry at an address. -/
def set (t : FileTree) (a : FileAddress) (e : FileEntry) : FileTree :=
  ⟨KeyedList.put a e t.entries⟩

/-- Only the entry at the address changes, which is not that of a folder from the start. -/
theorem get?_set (t : FileTree) {a : FileAddress} (ha : a.names ≠ []) (e : FileEntry)
    (b : FileAddress) : (t.set a e).get? b = if b = a then some e else t.get? b := by
  by_cases hb : b.names = []
  · have hne : b ≠ a := fun h => ha (h ▸ hb)
    simp only [get?, hb, if_true, if_neg hne]
  · simp only [get?, hb, if_false]
    exact KeyedList.lookup_put a e t.entries b

/-- The address that steps lead to. There may be nothing at it, but it lies in a folder. -/
def follow (t : FileTree) : FileAddress → List PathStep → Except AccessFault FileAddress
  | a, [] => .ok a
  | a, step :: steps =>
    match t.get? a with
    | none => .error .absent
    | some (.file _) => .error .notFolder
    | some .folder =>
      match step with
      | .empty | .here => t.follow a steps
      | .up => t.follow a.parent steps
      | .down name =>
        if FilePath.maxNameBytes < name.utf8ByteSize then .error .tooLong
        else t.follow (a.child name) steps

/-- The tree with the folders that steps lead through. A folder that is missing cannot be made by
steps that end in a point behind it. -/
def makeAlong (t : FileTree) : FileAddress → List PathStep → Except AccessFault FileTree
  | _, [] => .ok t
  | a, .empty :: steps | a, .here :: steps => t.makeAlong a steps
  | a, .up :: steps => t.makeAlong a.parent steps
  | a, .down name :: steps =>
    match t.get? (a.child name) with
    | some .folder => t.makeAlong (a.child name) steps
    | some (.file _) => .error (if steps.all (· = .empty) then .occupied else .notFolder)
    | none =>
      if FilePath.maxNameBytes < name.utf8ByteSize then .error .tooLong
      else if steps.all PathStep.isIdle ∧ .here ∈ steps then .error .absent
      else (t.set (a.child name) .folder).makeAlong (a.child name) steps

/-- Where a path begins, and its steps from there. -/
def startOf (path : String) : Except AccessFault (FileAddress × List PathStep) :=
  if FilePath.maxBytes < path.utf8ByteSize then .error .tooLong
  else
    match FilePath.ofText? path.toList with
    | none => .error .absent
    | some p => .ok (if p.isAbsolute then ⟨.root, []⟩ else .working, p.steps)

/-- The address of a path. -/
def locate (t : FileTree) (path : String) : Except AccessFault FileAddress := do
  let (a, steps) ← startOf path
  t.follow a steps

/-- There is a file or folder at a path. -/
def isPresent (t : FileTree) (path : String) : Bool :=
  match t.locate path with
  | .ok a => (t.get? a).isSome
  | .error _ => false

/-- The content of the file at a path. -/
def read (t : FileTree) (path : String) : Except AccessFault String := do
  match t.get? (← t.locate path) with
  | some (.file content) => return content
  | some .folder => .error .isFolder
  | none => .error .absent

/-- The tree with a content for the file at a path. -/
def write (t : FileTree) (path content : String) : Except AccessFault FileTree := do
  let a ← t.locate path
  match t.get? a with
  | some .folder => .error .isFolder
  | _ => return t.set a (.file content)

/-- The tree with the folder at a path and those it lies in. The empty path asks for nothing. -/
def makeFolders (t : FileTree) (path : String) : Except AccessFault FileTree :=
  if path = "" then .ok t
  else do
    let (a, steps) ← startOf path
    t.makeAlong a steps

/-- The tree with a file, and the folders it lies in. -/
def withFile (t : FileTree) (path content : String) : Except AccessFault FileTree := do
  let (a, steps) ← startOf path
  let t ← t.makeAlong a steps.dropLast
  t.write path content

/-- The tree of the given files. -/
def ofFiles (files : List (String × String)) : Except AccessFault FileTree :=
  files.foldlM (fun t file => t.withFile file.1 file.2) empty

/-- The files in the working folder and inside it, each with its path and content. -/
def files (t : FileTree) : List (String × String) :=
  t.entries.filterMap fun
    | (a, .file content) => a.path?.map (·, content)
    | (_, .folder) => none

/-- The files that `before` does not have with the same content. -/
def changesFrom (t before : FileTree) : List (String × String) :=
  t.files.filter fun file => file ∉ before.files

end FileTree

end Routespec
