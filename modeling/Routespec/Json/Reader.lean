import Routespec.Json.Token

/-!
# Reading JSON

A value is read token by token, with a stack of the arrays and objects that are still open. An
array or object inside too many others is read and found malformed, and so is an object with a
malformed name.
-/

namespace Routespec

namespace Json

/-- How many arrays and objects may be open at once. -/
def maxDepth : Nat := 127

/-- The members of an object that were read so far, last first. A name may be malformed. -/
abbrev Members := List (Option Text × Value)

/-- An array or object that waits for a value. -/
inductive Frame
  /-- An array with the items so far, last first. -/
  | array (items : List Value)
  /-- An object with the members so far, and the name of the next one. -/
  | object (members : Members) (key : Option Text)

/-- Where in a text the reader stands. -/
inductive State
  /-- Before a value, or before the end of an array that may close without items. -/
  | value (stack : List Frame) (mayClose : Bool)
  /-- Before the name of a member, or before the end of an object that may close. -/
  | name (members : Members) (stack : List Frame) (mayClose : Bool)
  /-- After the name of a member. -/
  | colon (members : Members) (key : Option Text) (stack : List Frame)
  /-- After an item. -/
  | item (items : List Value) (stack : List Frame)
  /-- After a member. -/
  | member (members : Members) (stack : List Frame)
  /-- After the whole value. -/
  | done (v : Value)

/-- Hand a value over to what waits for it. -/
def deliver (v : Value) : List Frame → State
  | [] => .done v
  | .array items :: stack => .item (v :: items) stack
  | .object members key :: stack => .member ((key, v) :: members) stack

/-- The object with the given members, last first. -/
def objectOf (members : Members) : Value :=
  match members.reverse.mapM fun (key, v) => key.map fun k => (String.ofList k, v) with
  | some members => .object members
  | none => .malformed

/-- Hand over an array or object that was open inside `stack`. -/
def close (v : Value) (stack : List Frame) : State :=
  deliver (if stack.length < maxDepth then v else .malformed) stack

/-- The value of a token with a value of its own. -/
def Token.scalar? : Token → Option Value
  | .null => some .null
  | .bool b => some (.bool b)
  | .number n => some ((n.map .number).getD .malformed)
  | .string s => some ((s.map fun t => .string (String.ofList t)).getD .malformed)
  | _ => none

/-- The state after one more token. -/
def State.step : State → Token → Option State
  | .value stack mayClose, token =>
    match token with
    | .openArray => some (.value (.array [] :: stack) true)
    | .openObject => some (.name [] stack true)
    | .closeArray =>
      match mayClose, stack with
      | true, .array [] :: stack => some (close (.array []) stack)
      | _, _ => none
    | token => token.scalar?.map (deliver · stack)
  | .name members stack mayClose, token =>
    match token with
    | .string s => some (.colon members s stack)
    | .closeObject => if mayClose then some (close (objectOf members) stack) else none
    | _ => none
  | .colon members key stack, token =>
    match token with
    | .colon => some (.value (.object members key :: stack) false)
    | _ => none
  | .item items stack, token =>
    match token with
    | .comma => some (.value (.array items :: stack) false)
    | .closeArray => some (close (.array items.reverse) stack)
    | _ => none
  | .member members stack, token =>
    match token with
    | .comma => some (.name members stack false)
    | .closeObject => some (close (objectOf members) stack)
    | _ => none
  | .done _, _ => none

/-- The value that a text holds. -/
def read? (s : String) : Option Value := do
  let tokens ← tokens s.toList
  match ← tokens.foldlM State.step (.value [] false) with
  | .done v => some v
  | _ => none

end Json

end Routespec
