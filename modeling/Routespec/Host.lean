/-!
# What a run needs of its surroundings

Files that are named by paths, and a log. A program over an abstract host runs on the files of a
machine as well as on a tree that is held as a value.
-/

namespace Routespec

/-- Why a file or folder cannot be used. -/
inductive AccessFault
  | absent
  /-- A folder was needed, and something else is there. -/
  | notFolder
  /-- A file was needed, and a folder is there. -/
  | isFolder
  /-- A folder was to be made, and a file is there. -/
  | occupied
  /-- A path is too long, or a name in it. -/
  | tooLong
  /-- Anything else, as reported. -/
  | reported (message : String)
  deriving DecidableEq, Inhabited

/-- The text of a fault. -/
def AccessFault.message : AccessFault → String
  | .absent => "No such file or directory (os error 2)"
  | .notFolder => "Not a directory (os error 20)"
  | .isFolder => "Is a directory (os error 21)"
  | .occupied => "File exists (os error 17)"
  | .tooLong => "File name too long (os error 36)"
  | .reported message => message

/-- How much a log entry matters. -/
inductive LogLevel
  | info | warn | error
  deriving DecidableEq, Repr, Inhabited

/-- The name of a level. -/
def LogLevel.word : LogLevel → String
  | .info => "INFO"
  | .warn => "WARN"
  | .error => "ERROR"

/-- A line of the log. -/
structure LogEntry where
  level : LogLevel
  message : String
  deriving DecidableEq, Inhabited

/-- A monad in which files can be used and a log be kept. -/
class Host (m : Type → Type) where
  /-- There is a file or folder at a path. -/
  isPresent : (path : String) → m Bool
  /-- The content of the file at a path. -/
  readFile : (path : String) → m (Except AccessFault String)
  /-- Make the folder at a path, and those it lies in, where they are missing. -/
  makeFolders : (path : String) → m (Except AccessFault Unit)
  /-- Give the file at a path a content, whether it was there or not. -/
  writeFile : (path content : String) → m (Except AccessFault Unit)
  /-- Add an entry to the log. -/
  log : LogEntry → m Unit

end Routespec
