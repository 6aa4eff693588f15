import Routespec.Text.Blank

/-!
# Continued lines

A comment line that ends in a backslash is continued by the line after it, which loses its own
comment marker. A text that still ends in a backslash after it was joined is continued again; a
backslash at the end of the last line is dropped.
-/

namespace Routespec

namespace Comment

/-- A comment line without the white space before its text and without its comment marker. -/
def withoutMarker (line : Text) : Text :=
  let t := line.trimLeft
  (Text.dropStart? ['/', '/'] t).getD t

/-- What stands before the backslash that ends a line, if one does. -/
def broken? (line : Text) : Option Text := (line.dropEnd? '\\').map Text.trimRight

/-- A broken line and the line that continues it, with one space between them. -/
def resume (start line : Text) : Text :=
  let rest := (withoutMarker line).trimLeft
  if rest = [] then start else if start = [] then rest else start ++ ' ' :: rest

/-- Join lines behind `pending`, the text of the broken line before them. -/
def joinFrom : Option Text → List Text → List Text
  | none, [] => []
  | some start, [] => [start]
  | pending, line :: rest =>
    let text := match pending with
      | none => line.trimRight
      | some start => resume start line.trimRight
    match broken? text with
    | some start => joinFrom (some start) rest
    | none => text :: joinFrom none rest

/-- The lines of a comment with every continued line joined. -/
def joinLines (lines : List Text) : List Text := joinFrom none lines

/-- The lines of a comment with every continued line joined. -/
def join (lines : List String) : List String :=
  (joinLines (lines.map (·.toList))).map String.ofList

end Comment

end Routespec
