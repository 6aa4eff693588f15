import Routespec.Json.Value
import Routespec.Number.Decimal
import Routespec.Number.Hexadecimal

/-!
# JSON tokens

The tokens of a JSON text. A string or number may have the form of a token and still stand for
nothing; such a token has no value.
-/

namespace Routespec

namespace Json

/-- A token. -/
inductive Token
  | openArray | closeArray | openObject | closeObject | comma | colon | null
  | bool (b : Bool)
  | number (n : Option Number)
  | string (s : Option Text)
  deriving DecidableEq, Inhabited

/-- A piece of a string: a character, or a 16-bit unit given by its number. -/
inductive StringPiece
  | plain (c : Char)
  | unit (n : Nat)
  deriving DecidableEq, Inhabited

/-- The character that a letter after a backslash stands for. -/
def shortEscape? (c : Char) : Option Char :=
  match c with
  | '"' | '\\' | '/' => some c
  | 'b' => some '\x08'
  | 'f' => some '\x0c'
  | 'n' => some '\n'
  | 'r' => some '\r'
  | 't' => some '\t'
  | _ => none

/-- The pieces of a string up to its closing quote, and what follows. -/
def scanString : Text → Option (List StringPiece × Text)
  | [] => none
  | '"' :: rest => some ([], rest)
  | '\\' :: 'u' :: a :: b :: c :: d :: rest => do
    let n ← Hexadecimal.value? [a, b, c, d]
    let (pieces, rest) ← scanString rest
    return (.unit n :: pieces, rest)
  | '\\' :: c :: rest => do
    let c ← shortEscape? c
    let (pieces, rest) ← scanString rest
    return (.plain c :: pieces, rest)
  | c :: rest =>
    if c = '\\' ∨ c.toNat < 0x20 then none
    else (scanString rest).map fun (pieces, rest) => (.plain c :: pieces, rest)

/-- The characters of a string, none if a surrogate is without its partner. -/
def assemble? : List StringPiece → Option Text
  | [] => some []
  | .plain c :: rest => (assemble? rest).map (c :: ·)
  | .unit n :: rest =>
    if 0xDC00 ≤ n ∧ n < 0xE000 then none
    else if 0xD800 ≤ n ∧ n < 0xDC00 then
      match rest with
      | .unit low :: rest =>
        if 0xDC00 ≤ low ∧ low < 0xE000 then
          let code := 0x10000 + (n - 0xD800) * 0x400 + (low - 0xDC00)
          (assemble? rest).map (Char.ofNat code :: ·)
        else none
      | _ => none
    else (assemble? rest).map (Char.ofNat n :: ·)

/-- A numeral taken apart. -/
structure Numeral where
  isNegative : Bool
  /-- The digits before the point. -/
  whole : Text
  /-- The digits after the point, if there is one. -/
  fraction : Option Text
  /-- The exponent, if there is one. -/
  exponent : Option Int
  deriving DecidableEq, Inhabited

/-- The exponent at the start of a text, if there is one, and what follows. It is `none` if an
exponent is begun and not finished. -/
def scanExponent : Text → Option (Option Int × Text)
  | [] => some (none, [])
  | c :: rest =>
    if c = 'e' ∨ c = 'E' then
      let (isNegative, rest) := match rest with
        | '-' :: rest => (true, rest)
        | '+' :: rest => (false, rest)
        | rest => (false, rest)
      let digits := rest.takeWhile Char.isDigit
      if digits = [] then none
      else
        let n : Int := Decimal.value digits
        some (some (if isNegative then -n else n), rest.dropWhile Char.isDigit)
    else some (none, c :: rest)

/-- The numeral at the start of a text, and what follows. -/
def scanNumeral (t : Text) : Option (Numeral × Text) := do
  let (isNegative, t) := match t with
    | '-' :: rest => (true, rest)
    | t => (false, t)
  let whole := t.takeWhile Char.isDigit
  guard (whole ≠ [] ∧ (whole.head? = some '0' → whole.length = 1))
  match t.dropWhile Char.isDigit with
  | '.' :: rest =>
    let fraction := rest.takeWhile Char.isDigit
    guard (fraction ≠ [])
    let (exponent, rest) ← scanExponent (rest.dropWhile Char.isDigit)
    return (⟨isNegative, whole, some fraction, exponent⟩, rest)
  | rest =>
    let (exponent, rest) ← scanExponent rest
    return (⟨isNegative, whole, none, exponent⟩, rest)

/-- One more than the largest significand. -/
def significandLimit : Nat := Nat.pow 2 64

/-- The number that a numeral stands for, none if it is beyond every double. Digits are taken into
a significand of 64 bits as long as it holds them; later digits before the point count as zeros,
and later digits after it are left out. -/
def Numeral.number? (n : Numeral) : Option Number :=
  let (significand, left) := Decimal.absorb significandLimit 0 n.whole
  let fraction := n.fraction.getD []
  if left = [] ∧ n.fraction = none ∧ n.exponent = none then
    if !n.isNegative then some (.natural significand)
    else if 0 < significand ∧ significand ≤ Nat.pow 2 63 then some (.negative significand)
    else (Binary64.ofNat? significand).map (.real true)
  else
    let (significand, unread) := Decimal.absorb significandLimit significand fraction
    let e : Int := left.length - (fraction.length - unread.length : Nat) + n.exponent.getD 0
    do
      let x ← Binary64.ofNat? significand
      let magnitude ← x.scale? e
      return .real n.isNegative magnitude

/-- The token at the start of a text that does not begin with white space, and what follows. -/
def scanToken (t : Text) : Option (Token × Text) :=
  match t with
  | [] => none
  | '[' :: rest => some (.openArray, rest)
  | ']' :: rest => some (.closeArray, rest)
  | '{' :: rest => some (.openObject, rest)
  | '}' :: rest => some (.closeObject, rest)
  | ',' :: rest => some (.comma, rest)
  | ':' :: rest => some (.colon, rest)
  | '"' :: rest => (scanString rest).map fun (pieces, rest) => (.string (assemble? pieces), rest)
  | 'n' :: rest => (Text.dropStart? ['u', 'l', 'l'] rest).map fun rest => (.null, rest)
  | 't' :: rest => (Text.dropStart? ['r', 'u', 'e'] rest).map fun rest => (.bool true, rest)
  | 'f' :: rest => (Text.dropStart? ['a', 'l', 's', 'e'] rest).map fun rest => (.bool false, rest)
  | t => (scanNumeral t).map fun (n, rest) => (.number n.number?, rest)

/-- A character that may stand between tokens. -/
def isSpace (c : Char) : Bool := c == ' ' || c == '\n' || c == '\t' || c == '\r'

/-- The tokens of a text, as far as `steps` tokens. -/
def tokensWithin : Nat → Text → Option (List Token)
  | 0, _ => none
  | steps + 1, t =>
    match t.dropWhile isSpace with
    | [] => some []
    | t => do
      let (token, rest) ← scanToken t
      let tokens ← tokensWithin steps rest
      return token :: tokens

/-- The tokens of a text. A token has a character at least, so there are no more of them than
characters. -/
def tokens (t : Text) : Option (List Token) := tokensWithin (t.length + 1) t

end Json

end Routespec
