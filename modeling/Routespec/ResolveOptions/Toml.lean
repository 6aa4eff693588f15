import Routespec.ResolveOptions
import Routespec.Toml.Value

/-!
# Options in TOML

Options are a table, or an array that gives them by position. Those that are left out have their
defaults. A date or time counts as a table without options.
-/

namespace Routespec

open Toml (Value)

namespace Toml.Value

/-- An array or table without items. -/
def isVoid : Value → Bool
  | .array [] | .table _ [] => true
  | _ => false

/-- One of some words, written as a string or as a table with that member alone, which holds
nothing. -/
def word? {α : Type} (ofWord? : String → Option α) : Value → Option α
  | .string s => ofWord? s
  | .table _ [(word, v)] => if v.isVoid then ofWord? word else none
  | _ => none

/-- The items of an array; tables under a repeated header are one. -/
def items? : Value → Option (List Value)
  | .array items => some items
  | .tables last before => some ((last :: before).reverse.map (.table .header ·))
  | _ => none

end Toml.Value

namespace ResolveOptions

/-- The options that are written. -/
def ofToml? (v : Value) : Option ResolveOptions := do
  let (naming, voidSuccess) ← match v with
    | .table _ members => some (members.lookup "naming", members.lookup "void_success")
    | .moment => some (none, none)
    | v => v.items?.map fun items => (items[0]?, items[1]?)
  let naming ← (naming.map (Value.word? Naming.ofWord?)).getD (some .snakeCase)
  let voidSuccess ← (voidSuccess.map (Value.word? VoidSuccess.ofWord?)).getD (some .reject)
  return { naming, voidSuccess }

end ResolveOptions

end Routespec
