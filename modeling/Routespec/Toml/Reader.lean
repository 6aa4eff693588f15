import Routespec.Toml.Quoted
import Routespec.Toml.Scalar
import Routespec.Toml.Value

/-!
# Reading TOML

A text is a sequence of lines, each with a header, a member or nothing, and a comment or none. The
lines are read one after another into the table that the last header named.
-/

namespace Routespec

namespace Toml

/-- How many parts a dotted name may have, and how many arrays and tables may be open at once. -/
def maxDepth : Nat := 79

/-- The text with a line feed for each line end. -/
def unifyLineEnds : Text → Text
  | '\r' :: '\n' :: rest => '\n' :: unifyLineEnds rest
  | c :: rest => c :: unifyLineEnds rest
  | [] => []

/-- The text without the blanks it starts with. -/
def skipSpace (t : Text) : Text := t.dropWhile isSpace

/-- The text without the comment it starts with, if there is one. -/
def skipComment : Text → Text
  | '#' :: rest => rest.dropWhile isPrintable
  | t => t

/-- A character of a name without quotes. -/
def isBare (c : Char) : Bool := c.isAlphanum || c == '_' || c == '-'

/-- One part of a dotted name, and what follows it. Quoted parts stand on one line. -/
def scanKey (t : Text) : Option (String × Text) :=
  match t.takeWhile isBare with
  | [] => do
    let (q, _) ← QuoteStyle.open? t
    guard (!q.isTriple)
    scanQuoted t
  | key => some (String.ofList key, t.dropWhile isBare)

/-- A dotted name of at most `parts` parts, and what follows it; blanks around the parts do not
count. -/
def scanPathWithin : (parts : Nat) → Text → Option (List String × Text)
  | 0, _ => none
  | parts + 1, t => do
    let (key, t) ← scanKey (skipSpace t)
    match skipSpace t with
    | '.' :: rest =>
      let (path, t) ← scanPathWithin parts rest
      return (key :: path, t)
    | t => return ([key], t)

/-- A dotted name, cut before its last part, and what follows it. -/
def scanPath (t : Text) : Option ((List String × String) × Text) := do
  let (path, t) ← scanPathWithin maxDepth t
  return ((path.dropLast, ← path.getLast?), t)

/-- A name and the value assigned to it, and what follows them. -/
def scanMember (value? : Text → Option (Value × Text)) (t : Text) :
    Option (((List String × String) × Value) × Text) := do
  let (path, t) ← scanPath t
  let t ← Text.dropStart? ['='] t
  let (v, t) ← value? (skipSpace t)
  return ((path, v), t)

/-- The text without the blanks, line ends and comments it starts with, as far as `lines` line
ends. -/
def skipLinesWithin : (lines : Nat) → Text → Text
  | 0, t => t
  | lines + 1, t =>
    match skipComment (skipSpace t) with
    | '\n' :: rest => skipLinesWithin lines rest
    | t => t

/-- The text without the blanks, line ends and comments it starts with. -/
def skipLines (t : Text) : Text := skipLinesWithin (t.length + 1) t

/-- Items up to a closing bracket, as far as `items` items, and what follows the bracket. -/
def scanItemsWithin (value? : Text → Option (Value × Text)) :
    (items : Nat) → Text → Option (List Value × Text)
  | 0, _ => none
  | items + 1, t =>
    match skipLines t with
    | ']' :: rest => some ([], rest)
    | t => do
      let (v, t) ← value? t
      match skipLines t with
      | ',' :: rest =>
        let (vs, t) ← scanItemsWithin value? items rest
        return (v :: vs, t)
      | ']' :: rest => return ([v], rest)
      | _ => none

/-- Members up to a closing brace, added to `members`, as far as `count` of them, and what follows
the brace. -/
def scanMembersWithin (value? : Text → Option (Value × Text)) :
    (count : Nat) → Members → Text → Option (Members × Text)
  | 0, _, _ => none
  | count + 1, members, t => do
    let (((path, name), v), t) ← scanMember value? t
    let members ← members.assign? name v path
    match skipSpace t with
    | ',' :: rest => scanMembersWithin value? count members rest
    | '}' :: rest => return (members, rest)
    | _ => none

/-- The value that a text begins with, with at most `depth` arrays and tables open at once, and
what follows it. -/
def scanValueWithin : (depth : Nat) → Text → Option (Value × Text)
  | _, [] => none
  | depth, c :: rest =>
    if c = '"' ∨ c = '\'' then (scanQuoted (c :: rest)).map fun (s, t) => (.string s, t)
    else if c = '[' then
      match depth with
      | 0 => none
      | depth + 1 =>
        (scanItemsWithin (scanValueWithin depth) (rest.length + 1) rest).map
          fun (items, t) => (.array items, t)
    else if c = '{' then
      match depth with
      | 0 => none
      | depth + 1 =>
        match skipSpace rest with
        | '}' :: t => some (.table .braces [], t)
        | t =>
          (scanMembersWithin (scanValueWithin depth) (t.length + 1) [] t).map
            fun (members, t) => (.table .braces members, t)
    else
      match afterDateTime? (c :: rest) with
      | some t => some (.moment, t)
      | none => (afterScalar? (c :: rest)).map (.scalar, ·)

/-- The value that a text begins with, and what follows it. -/
def scanValue (t : Text) : Option (Value × Text) := scanValueWithin maxDepth t

/-- What has been read. -/
structure Draft where
  root : Members
  /-- The names of the table that members are added to. -/
  path : List String
  deriving Inhabited

namespace Draft

/-- The draft after what a line begins with, and what follows it. -/
def statement? (d : Draft) (t : Text) : Option (Draft × Text) :=
  match t with
  | [] => some (d, [])
  | '\n' :: _ | '#' :: _ => some (d, t)
  | '[' :: '[' :: rest => do
    let ((path, name), t) ← scanPath rest
    let t ← Text.dropStart? [']', ']'] t
    let root ← d.root.changeAt? (·.openItem? name) path
    return (⟨root, path ++ [name]⟩, t)
  | '[' :: rest => do
    let ((path, name), t) ← scanPath rest
    let t ← Text.dropStart? [']'] t
    let root ← d.root.changeAt? (·.openTable? name) path
    return (⟨root, path ++ [name]⟩, t)
  | t => do
    let (((path, name), v), t) ← scanMember scanValue t
    let root ← d.root.changeAt? (·.assign? name v path) d.path
    return ({ d with root }, t)

/-- The draft after the lines of a text, as far as `lines` lines. -/
def readWithin : (lines : Nat) → Draft → Text → Option Draft
  | 0, _, _ => none
  | lines + 1, d, t => do
    let (d, t) ← d.statement? (skipSpace t)
    match skipComment (skipSpace t) with
    | [] => some d
    | '\n' :: rest => readWithin lines d rest
    | _ => none

end Draft

/-- The members of the table that a text holds. -/
def read? (s : String) : Option Members :=
  let t := unifyLineEnds ((Text.dropStart? ['\uFEFF'] s.toList).getD s.toList)
  (Draft.readWithin (t.length + 1) ⟨[], []⟩ t).map (·.root)

end Toml

end Routespec
