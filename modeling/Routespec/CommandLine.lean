import Routespec.Generation

/-!
# The command line

Arguments are read from left to right. A flag takes its value from its own argument or from the
next one, which then may not begin like a flag.
-/

namespace Routespec

/-- A flag. Each takes a value. -/
inductive Flag
  | input | output | config | naming | voidSuccess | fixtures
  deriving DecidableEq, Repr, Inhabited

namespace Flag

/-- Every flag. -/
def all : List Flag := [.input, .output, .config, .naming, .voidSuccess, .fixtures]

/-- The name of a flag, behind two dashes. -/
def name : Flag → String
  | .input => "input"
  | .output => "output"
  | .config => "config"
  | .naming => "naming"
  | .voidSuccess => "void-success"
  | .fixtures => "fixtures"

/-- The letter of a flag, behind one dash. -/
def letter? : Flag → Option Char
  | .input => some 'i'
  | .output => some 'o'
  | .config => some 'c'
  | .naming | .voidSuccess | .fixtures => none

/-- The flag of a name. -/
def ofName? (name : String) : Option Flag := all.find? (·.name = name)

/-- The flag of a letter. -/
def ofLetter? (c : Char) : Option Flag := all.find? (·.letter? = some c)

/-- The value is a path, which is not empty. -/
def isPath : Flag → Bool
  | .input | .output | .config | .fixtures => true
  | .naming | .voidSuccess => false

end Flag

/-- What one argument is. -/
inductive Word
  /-- Two dashes alone: everything behind them is a value. -/
  | divider
  | help
  /-- A flag, and its value if that is in the same argument. -/
  | flag (f : Flag) (value : Option String)
  /-- What looks like a flag and is none. -/
  | unknown
  | plain (text : String)
  deriving DecidableEq, Inhabited

/-- What a long flag without its dashes is. -/
def Word.ofLong (t : Text) : Word :=
  let (name, value) := match Text.cutAt? (· = '=') t with
    | some (name, value) => (name, some (String.ofList value))
    | none => (t, none)
  if name = "help".toList then if value.isSome then .unknown else .help
  else
    match Flag.ofName? (String.ofList name) with
    | some f => .flag f value
    | none => .unknown

/-- What a short flag is, given its letter and what stands behind it. -/
def Word.ofShort (c : Char) (rest : Text) : Word :=
  if c = 'h' then .help
  else
    match Flag.ofLetter? c, rest with
    | none, _ => .unknown
    | some f, [] => .flag f none
    | some f, '=' :: value => .flag f (some (String.ofList value))
    | some f, value => .flag f (some (String.ofList value))

/-- What an argument is. -/
def Word.ofArgument (arg : String) : Word :=
  match arg.toList with
  | ['-', '-'] => .divider
  | '-' :: '-' :: t => .ofLong t
  | '-' :: c :: rest => .ofShort c rest
  | _ => .plain arg

/-- Why a command line asks for no run. -/
inductive Refusal
  /-- It asks for help. -/
  | help
  /-- It is malformed. -/
  | usage
  deriving DecidableEq, Repr, Inhabited

/-- The flags that were given, with their values. -/
abbrev Given := List (Flag × String)

/-- One more flag. None may be given twice. -/
def Given.add (given : Given) (f : Flag) (value : String) : Except Refusal Given :=
  if (given.lookup f).isSome ∨ (f.isPath ∧ value = "") then .error .usage
  else .ok (given ++ [(f, value)])

/-- The flags given by words; `pending` is one that waits for its value. -/
def Given.read (given : Given) : (pending : Option Flag) → List Word → Except Refusal Given
  | none, [] => .ok given
  | some _, [] => .error .usage
  | none, .plain _ :: _ => .error .usage
  | some f, .plain text :: words => do (← given.add f text).read none words
  | some _, _ :: _ => .error .usage
  | none, .divider :: words => if words = [] then .ok given else .error .usage
  | none, .help :: _ => .error .help
  | none, .unknown :: _ => .error .usage
  | none, .flag f none :: words => given.read (some f) words
  | none, .flag f (some value) :: words => do (← given.add f value).read none words

/-- What a command line asks for. -/
structure Command where
  input : String
  output : String
  config : Option String
  naming : Option String
  voidSuccess : Option String
  fixtures : Option String
  deriving DecidableEq, Inhabited

namespace Command

/-- The command of given flags; input and output have to be among them. -/
def ofGiven (given : Given) : Except Refusal Command :=
  match given.lookup .input, given.lookup .output with
  | some input, some output =>
    .ok {
      input, output
      config := given.lookup .config
      naming := given.lookup .naming
      voidSuccess := given.lookup .voidSuccess
      fixtures := given.lookup .fixtures }
  | _, _ => .error .usage

/-- The command of a command line. -/
def read (args : List String) : Except Refusal Command := do
  ofGiven (← Given.read [] none (args.map .ofArgument))

/-- The configuration with what the command asks for in its place. -/
def adjust (c : Command) (config : Config) : Except Failure Config := do
  let naming ← match c.naming with
    | none => .ok config.resolve.naming
    | some word =>
      match Naming.ofUserName? word with
      | some naming => .ok naming
      | none => .error (.unknownNaming word)
  let voidSuccess ← match c.voidSuccess with
    | none => .ok config.resolve.voidSuccess
    | some word =>
      match VoidSuccess.ofWord? word with
      | some policy => .ok policy
      | none => .error (.unknownVoidSuccess word)
  return { resolve := { naming, voidSuccess }, fixtures := c.fixtures.or config.fixtures }

variable {m : Type → Type} [Monad m] [Host m]

/-- The configuration that the command asks for. One that is asked for by its path has to be
there. -/
def loadConfig (c : Command) : Attempt m Config := do
  match c.config with
  | none => Config.load Config.defaultPath
  | some path =>
    if ← Attempt.isPresent path then Config.load path else throw (.missingConfig path)

/-- Do what the command asks for. -/
def run (c : Command) : Attempt m Specification := do
  let config ← c.loadConfig
  let config ← Attempt.ofExcept (c.adjust config)
  Generation.run c.input c.output config

end Command

/-- How a command line ends. -/
inductive Exit
  | done
  /-- There was no run. -/
  | refused (r : Refusal)
  /-- The run failed. -/
  | failed (f : Failure)
  deriving DecidableEq, Inhabited

/-- The exit code. -/
def Exit.code : Exit → Nat
  | .done | .refused .help => 0
  | .failed _ => 1
  | .refused .usage => 2

/-- Read a command line and do what it asks for. -/
def Command.execute {m : Type → Type} [Monad m] [Host m] (args : List String) : m Exit := do
  match Command.read args with
  | .error refusal => return .refused refusal
  | .ok command =>
    match ← command.run.run with
    | .ok _ => return .done
    | .error failure => return .failed failure

end Routespec
