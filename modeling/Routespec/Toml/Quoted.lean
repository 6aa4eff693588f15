import Routespec.Number.Hexadecimal

/-!
# TOML strings

A string stands between quotes on one line, or between triple quotes on several. Double quotes
allow escapes, single quotes do not. Lines end in line feeds here.
-/

namespace Routespec

namespace Toml

/-- A blank inside a line. -/
def isSpace (c : Char) : Bool := c == ' ' || c == '\t'

/-- A character that may stand in a comment or string: a tab, or no ASCII control character. -/
def isPrintable (c : Char) : Bool := c == '\t' || (0x20 ≤ c.toNat && c.toNat != 0x7F)

/-- A way to quote a string. -/
structure QuoteStyle where
  mark : Char
  /-- Three marks on each side and not one. -/
  isTriple : Bool
  deriving DecidableEq, Repr

namespace QuoteStyle

/-- What stands on each side of a string. -/
def delimiter (q : QuoteStyle) : Text := List.replicate (if q.isTriple then 3 else 1) q.mark

/-- A backslash begins an escape. -/
def allowsEscapes (q : QuoteStyle) : Bool := q.mark = '"'

/-- A character that may stand in a string. -/
def admits (q : QuoteStyle) (c : Char) : Bool := isPrintable c || (q.isTriple && c == '\n')

/-- The style of the string that a text begins with, and what follows the opening delimiter. -/
def open? (t : Text) : Option (QuoteStyle × Text) :=
  let styles : List QuoteStyle := [⟨'"', true⟩, ⟨'"', false⟩, ⟨'\'', true⟩, ⟨'\'', false⟩]
  styles.findSome? fun q => (Text.dropStart? q.delimiter t).map (q, ·)

/-- What stands before the closing delimiter, and what follows it. Up to two marks before a
closing triple belong to the string. -/
def close? (q : QuoteStyle) : Text → Option (Text × Text)
  | [] => none
  | c :: rest =>
    match Text.dropStart? q.delimiter (c :: rest) with
    | some rest =>
      let extra := if q.isTriple then (rest.takeWhile (· = q.mark)).take 2 else []
      some (extra, rest.drop extra.length)
    | none =>
      match rest with
      | d :: tail =>
        if c = '\\' ∧ q.allowsEscapes then
          (q.close? tail).map fun (raw, rest) => (c :: d :: raw, rest)
        else (q.close? (d :: tail)).map fun (raw, rest) => (c :: raw, rest)
      | [] => none

end QuoteStyle

/-- The character with the given code. -/
def scalar? (code : Nat) : Option Char :=
  if code.isValidChar then some (Char.ofNat code) else none

/-- The character that a letter after a backslash stands for. -/
def shortEscape? (c : Char) : Option Char :=
  match c with
  | '"' | '\\' => some c
  | 'b' => some '\x08'
  | 't' => some '\t'
  | 'n' => some '\n'
  | 'f' => some '\x0c'
  | 'r' => some '\r'
  | _ => none

/-- The text with its escapes resolved. A backslash at the end of a line takes the line end and
all blanks and line ends after it away; `skipping` says that such are being taken away. -/
def unescape? (skipping : Bool) : Text → Option Text
  | [] => some []
  | '\\' :: 'u' :: a :: b :: c :: d :: rest => do
    let c ← scalar? (← Hexadecimal.value? [a, b, c, d])
    return c :: (← unescape? false rest)
  | '\\' :: 'U' :: a :: b :: c :: d :: e :: f :: g :: h :: rest => do
    let c ← scalar? (← Hexadecimal.value? [a, b, c, d, e, f, g, h])
    return c :: (← unescape? false rest)
  | '\\' :: c :: rest =>
    if isSpace c ∨ c = '\n' then
      if ((c :: rest).dropWhile isSpace).head? = some '\n' then unescape? true rest else none
    else do
      let c ← shortEscape? c
      return c :: (← unescape? false rest)
  | c :: rest =>
    if skipping ∧ (isSpace c ∨ c = '\n') then unescape? true rest
    else if c = '\\' then none
    else (unescape? false rest).map (c :: ·)

/-- The string that a text begins with, and what follows it. A line end right after an opening
triple is left out. -/
def scanQuoted (t : Text) : Option (String × Text) := do
  let (q, t) ← QuoteStyle.open? t
  let t := if q.isTriple then (Text.dropStart? ['\n'] t).getD t else t
  let (raw, rest) ← q.close? t
  guard (raw.all q.admits)
  let s ← if q.allowsEscapes then unescape? false raw else some raw
  return (String.ofList s, rest)

end Toml

end Routespec
