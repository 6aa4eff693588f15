import Routespec.Text.Blank

/-!
# Identifiers

An identifier is an ASCII letter or underscore followed by ASCII letters, digits and underscores.
-/

namespace Routespec

/-- A character that may start an identifier. -/
def isIdentifierStart (c : Char) : Bool := c == '_' || c.isAlpha

/-- A character that may continue an identifier. -/
def isIdentifierPart (c : Char) : Bool := c == '_' || c.isAlphanum

namespace Text

/-- A text that is one identifier. -/
def isIdentifier : Text → Bool
  | [] => false
  | c :: rest => isIdentifierStart c && rest.all isIdentifierPart

/-- The longest identifier at the start of a text (empty if there is none), and what follows. -/
def spanIdentifier : Text → Text × Text
  | [] => ([], [])
  | c :: rest =>
    if isIdentifierStart c then
      (c :: rest.takeWhile isIdentifierPart, rest.dropWhile isIdentifierPart)
    else
      ([], c :: rest)

/-- Nothing of the text is lost. -/
theorem spanIdentifier_append (t : Text) : (spanIdentifier t).1 ++ (spanIdentifier t).2 = t := by
  cases t with
  | nil => rfl
  | cons c rest =>
    simp only [spanIdentifier]
    split <;> simp

end Text

/-- A string that is one identifier. -/
def isIdentifier (s : String) : Bool := Text.isIdentifier s.toList

end Routespec
