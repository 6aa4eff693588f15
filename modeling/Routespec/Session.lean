import Routespec.FileTree

/-!
# Sessions

A host whose files are a tree and whose log is a list.
-/

namespace Routespec

/-- The files and the log so far. -/
structure Session where
  tree : FileTree
  log : List LogEntry := []
  deriving DecidableEq, Inhabited

namespace Session

/-- A change of the tree that may fail, and then changes nothing. -/
def change (f : FileTree → Except AccessFault FileTree) : StateM Session (Except AccessFault Unit) :=
  fun s =>
    match f s.tree with
    | .ok tree => (.ok (), { s with tree })
    | .error e => (.error e, s)

instance : Host (StateM Session) where
  isPresent path := fun s => (s.tree.isPresent path, s)
  readFile path := fun s => (s.tree.read path, s)
  makeFolders path := change (·.makeFolders path)
  writeFile path content := change (·.write path content)
  log entry := fun s => ((), { s with log := s.log ++ [entry] })

end Session

end Routespec
