import Routespec.Fault
import Routespec.Text.Blank

/-!
# Directives

A directive is a comment line that starts with the mark `//kun:` and a keyword.
-/

namespace Routespec

/-- What every directive line starts with. -/
def directiveMark : String := "//kun:"

/-- The word that says what a directive is about. -/
inductive Keyword
  | op | param | body | success | alias | oas
  /-- Read by another resolver. -/
  | grpc
  /-- Read by another resolver. -/
  | event
  deriving DecidableEq, Repr, Inhabited

namespace Keyword

/-- The keyword as written. -/
def word : Keyword → String
  | .op => "op"
  | .param => "param"
  | .body => "body"
  | .success => "success"
  | .alias => "alias"
  | .oas => "oas"
  | .grpc => "grpc"
  | .event => "event"

/-- Every keyword. -/
def all : List Keyword := [.op, .param, .body, .success, .alias, .oas, .grpc, .event]

/-- The keyword written as `word`. -/
def ofWord? (word : String) : Option Keyword := all.find? (·.word = word)

/-- A keyword that a method's HTTP operations are made from. -/
def isHttp : Keyword → Bool
  | .op | .param | .body | .success | .oas => true
  | .alias | .grpc | .event => false

theorem ofWord?_word (k : Keyword) : ofWord? k.word = some k := by
  cases k <;> decide

end Keyword

/-- A directive line. -/
structure Directive where
  keyword : Keyword
  /-- What follows the keyword, trimmed. -/
  args : String
  /-- The whole line, trimmed. -/
  raw : String
  deriving DecidableEq, Inhabited

namespace Directive

/-- What follows the mark in a line, if the line starts with it. -/
def marked? (line : Text) : Option Text := Text.dropStart? directiveMark.toList line.trim

/-- The keyword and the arguments in what follows the mark. -/
def split (rest : Text) : Text × Text :=
  match rest.cutAt? isBlank with
  | some (word, args) => (word, args.trim)
  | none => (rest, [])

/-- The directive on a line, if the line has the mark. -/
def ofLine (owner : String) (line : Text) : Diagnosed (Option Directive) :=
  match marked? line with
  | none => .ok none
  | some rest =>
    let (word, args) := split rest
    let raw := String.ofList line.trim
    match Keyword.ofWord? (String.ofList word) with
    | some keyword => .ok (some ⟨keyword, String.ofList args, raw⟩)
    | none =>
      .error ⟨owner, raw, (Cause.unknownDirective directiveMark (String.ofList word)).fault⟩

end Directive

end Routespec
