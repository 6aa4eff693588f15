import Routespec.CommandLine

/-!
# The program

The command line over the files of the machine. The log goes to the standard output, failures to
the standard error.
-/

namespace Routespec

/-- What an action on files comes to. -/
def accessed {α : Type} (action : IO α) : IO (Except AccessFault α) := do
  try
    return .ok (← action)
  catch e => return .error (.reported e.toString)

instance : Host IO where
  isPresent path := do return (← accessed (IO.FS.realPath path)).toBool
  readFile path := accessed (IO.FS.readFile path)
  makeFolders path := accessed (if path = "" then pure () else IO.FS.createDirAll path)
  writeFile path content := accessed (IO.FS.writeFile path content)
  log entry := IO.println s!"{entry.level.word} {entry.message}"

/-- How to use the program. -/
def usage : String :=
  "Resolve //kun: directives into an HTTP specification\n\n" ++
  "Usage: routespec [OPTIONS] --input <INPUT> --output <OUTPUT>\n\n" ++
  "Options:\n" ++
  "  -i, --input <INPUT>                Interface description (JSON)\n" ++
  "  -o, --output <OUTPUT>              Output directory\n" ++
  "  -c, --config <CONFIG>              Config file (defaults to ./kun.toml when present)\n" ++
  "      --naming <NAMING>              Wire naming convention (snake, camel)\n" ++
  "      --void-success <VOID_SUCCESS>  Void methods with an explicit 200 (reject, rewrite)\n" ++
  "      --fixtures <FIXTURES>          Test fixture file\n" ++
  "  -h, --help                         Print help"

end Routespec

open Routespec in
/-- Run the command line. -/
def main (args : List String) : IO UInt32 := do
  let exit ← Command.execute args
  match exit with
  | .done => pure ()
  | .refused .help => IO.println usage
  | .refused .usage => IO.eprintln usage
  | .failed failure => IO.eprintln s!"Error: {failure.message}"
  return exit.code.toUInt32
