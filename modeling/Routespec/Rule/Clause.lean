import Routespec.Options.Param

/-!
# Argument clauses

The arguments of a `param` directive: clauses separated by semicolons outside quotes, each an
argument's name and the option groups of its parameters.
-/

namespace Routespec

/-- The name that starts a clause, and what follows it. -/
def splitClause (clause : Text) : Checked (String × Text) :=
  let t := clause.trim
  if t = [] then fail .emptyBinding
  else
    let (name, rest) := (t.cutAt? isBlank).getD (t, [])
    if Text.isIdentifier name then .ok (String.ofList name, rest)
    else fail (.invalidArgumentName (String.ofList name))

/-- An argument and the option groups of its parameters. -/
structure ArgumentClause where
  argument : String
  groups : List ParamOptions
  deriving DecidableEq, Inhabited

namespace ArgumentClause

/-- Read one clause. -/
def read (clause : Text) : Checked ArgumentClause := do
  let (argument, rest) ← splitClause clause
  let groups ← OptionPair.readGroups rest
  let groups ← Checked.within (.argument argument) (groups.mapM ParamOptions.ofPairs)
  return ⟨argument, groups⟩

/-- Read the clauses of a `param` directive. -/
def readAll (args : String) : Checked (List ArgumentClause) :=
  if Text.isBlankText args.toList then fail .paramWithoutArgument
  else (Text.splitUnquoted ';' args.toList).mapM read

end ArgumentClause

end Routespec
