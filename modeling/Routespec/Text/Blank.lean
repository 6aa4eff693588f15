/-!
# Texts and white space

A text is a list of characters. White space is the Unicode property White_Space, which holds the
no-break and ideographic spaces but not the zero-width ones; trimming, cutting and splitting into
words all go by it.
-/

namespace Routespec

/-- The characters of a piece of text. -/
abbrev Text := List Char

/-- A white-space character. -/
def isBlank (c : Char) : Bool :=
  let n := c.toNat
  (0x09 ≤ n && n ≤ 0x0D) || n == 0x20 || n == 0x85 || n == 0xA0 || n == 0x1680 ||
    (0x2000 ≤ n && n ≤ 0x200A) || n == 0x2028 || n == 0x2029 || n == 0x202F || n == 0x205F ||
    n == 0x3000

namespace Text

/-- The text without the white space it starts with. -/
def trimLeft (t : Text) : Text := t.dropWhile isBlank

/-- The text without the white space it ends with. -/
def trimRight (t : Text) : Text := (t.reverse.dropWhile isBlank).reverse

/-- The text without the white space around it. -/
def trim (t : Text) : Text := trimRight (trimLeft t)

/-- A text of white space only; the empty text is one. -/
def isBlankText (t : Text) : Bool := t.all isBlank

/-- What stands before and after the first character that `p` accepts. -/
def cutAt? (p : Char → Bool) (t : Text) : Option (Text × Text) :=
  match t.dropWhile (!p ·) with
  | [] => none
  | _ :: rest => some (t.takeWhile (!p ·), rest)

/-- The longest runs of characters other than white space. -/
def words (t : Text) : List Text := (t.splitOnP isBlank).filter (!·.isEmpty)

/-- The text without `start`, if it begins so. -/
def dropStart? : (start t : Text) → Option Text
  | [], t => some t
  | _ :: _, [] => none
  | c :: start, d :: t => if c = d then dropStart? start t else none

/-- The text without its last character, if that is `c`. -/
def dropEnd? (c : Char) (t : Text) : Option Text :=
  if t.getLast? = some c then some t.dropLast else none

end Text

end Routespec
