import Routespec.Fault
import Routespec.Text.Blank
import Routespec.Text.Runs

/-!
# URL patterns

A pattern starts with a slash and may hold variables in braces. The name of a variable ends at the
first colon inside its braces; what follows the colon constrains the variable and is not read.
-/

namespace Routespec

namespace PathPattern

/-- The name of the variable whose braces hold `inner`. -/
def variableName (inner : Text) : Text := Text.trim (inner.takeWhile (· ≠ ':'))

/-- The name is what stands before the first colon, trimmed; without a colon, all of it is. -/
theorem variableName_append {name rest : Text} (hname : ':' ∉ name)
    (hrest : ∀ c ∈ rest.head?, c = ':') : variableName (name ++ rest) = name.trim := by
  have htake : (name ++ rest).takeWhile (· ≠ ':') = name := by
    refine Text.takeWhile_exact (fun c hc => ?_) fun c hc => ?_
    · exact decide_eq_true (ne_of_mem_of_not_mem hc hname)
    · exact decide_eq_false (not_not_intro (hrest c hc))
  rw [variableName, htake]

/-- The variables of the rest of `pattern`. `opened` holds what was read since an opening brace,
and `seen` the variables before it. -/
def varsFrom (pattern : String) (seen : List String) : Option Text → Text → Checked (List String)
  | none, [] => .ok []
  | some _, [] => fail (.unbalancedPattern pattern)
  | none, c :: rest =>
    if c = '{' then varsFrom pattern seen (some []) rest
    else if c = '}' then fail (.unbalancedPattern pattern)
    else varsFrom pattern seen none rest
  | some inner, c :: rest =>
    if c = '{' then fail (.unbalancedPattern pattern)
    else if c = '}' then
      let name := String.ofList (variableName inner)
      if name = "" then fail (.emptyPathVariable pattern)
      else if name ∈ seen then fail (.repeatedPathVariable name pattern)
      else (varsFrom pattern (name :: seen) none rest).map (name :: ·)
    else varsFrom pattern seen (some (inner ++ [c])) rest

/-- The variables of a pattern, in order. -/
def vars (pattern : String) : Checked (List String) :=
  if pattern.toList.head? = some '/' then varsFrom pattern [] none pattern.toList
  else fail (.unrootedPattern pattern)

end PathPattern

end Routespec
