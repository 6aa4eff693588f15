import Routespec.Fault
import Routespec.KeyedList
import Routespec.Text.Identifier

/-!
# Aliases

An interface may give names to pieces of directive text. A reference is a dollar sign before the
name; it is replaced by the text, which is not looked at again. A dollar sign before anything but
an identifier stands for itself.
-/

namespace Routespec

/-- The aliases of an interface, each name once. -/
structure AliasTable where
  entries : List (String × String)
  deriving DecidableEq

namespace AliasTable

/-- No aliases. -/
def empty : AliasTable := ⟨[]⟩

instance : Inhabited AliasTable := ⟨empty⟩

/-- The text of an alias. -/
def get? (table : AliasTable) (name : String) : Option String := table.entries.lookup name

/-- The number of aliases. -/
def size (table : AliasTable) : Nat := table.entries.length

/-- A table without aliases. -/
def isEmpty (table : AliasTable) : Bool := table.entries.isEmpty

/-- The table with one alias defined, in place of an earlier one of that name. -/
def insert (table : AliasTable) (name text : String) : AliasTable :=
  ⟨KeyedList.put name text table.entries⟩

@[simp]
theorem get?_empty (name : String) : empty.get? name = none := rfl

theorem get?_insert (table : AliasTable) (name text other : String) :
    (table.insert name text).get? other = if other = name then some text else table.get? other :=
  KeyedList.lookup_put name text table.entries other

end AliasTable

/-- The character around the text of an alias definition. -/
def aliasQuote : Char := '\x60'

/-- The name and the text in the arguments of an `alias` directive: an identifier, an equals sign
and text between two alias quotes that has none inside. -/
def aliasDefinition? (args : Text) : Option (Text × Text) := do
  let (name, value) ← args.cutAt? (· = '=')
  guard (Text.isIdentifier name.trim)
  let text ← (← Text.dropStart? [aliasQuote] value.trim).dropEnd? aliasQuote
  guard (aliasQuote ∉ text)
  return (name.trim, text)

namespace AliasTable

/-- The table after an `alias` directive. -/
def define (table : AliasTable) (args : String) : Checked AliasTable :=
  match aliasDefinition? args.toList with
  | some (name, text) => .ok (table.insert (String.ofList name) (String.ofList text))
  | none => fail (.invalidAlias args)

end AliasTable

/-- A piece of a text in which aliases may be referred to. -/
inductive AliasPiece
  /-- A character that stands for itself. -/
  | plain (c : Char)
  /-- A dollar sign and the longest identifier after it. -/
  | reference (name : Text)
  deriving DecidableEq, Inhabited

namespace AliasPiece

/-- The characters of a piece. -/
def source : AliasPiece → Text
  | .plain c => [c]
  | .reference name => '$' :: name

/-- The pieces of a text. -/
def scan : Text → List AliasPiece
  | [] => []
  | c :: rest =>
    if c = '$' ∧ (Text.spanIdentifier rest).1 ≠ [] then
      .reference (Text.spanIdentifier rest).1 :: scan (Text.spanIdentifier rest).2
    else
      .plain c :: scan rest
  termination_by t => t.length
  decreasing_by
    · have h := congrArg List.length (Text.spanIdentifier_append rest)
      simp only [List.length_append, List.length_cons] at h ⊢
      omega
    · simp

end AliasPiece

namespace AliasTable

/-- What a piece stands for. -/
def resolve (table : AliasTable) : AliasPiece → Checked Text
  | .plain c => .ok [c]
  | .reference name =>
    match table.get? (String.ofList name) with
    | some text => .ok text.toList
    | none => fail (.undefinedAlias (String.ofList name))

/-- A text with every piece replaced by what it stands for. -/
def expandText (table : AliasTable) (t : Text) : Checked Text :=
  ((AliasPiece.scan t).mapM table.resolve).map List.flatten

/-- A string with every reference replaced by what it stands for. -/
def expand (table : AliasTable) (s : String) : Checked String :=
  (table.expandText s.toList).map String.ofList

end AliasTable

end Routespec
