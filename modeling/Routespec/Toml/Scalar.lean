import Routespec.Number.Binary64
import Routespec.Number.Decimal
import Routespec.Number.Hexadecimal

/-!
# TOML numbers, dates and truth values

Nothing that is read from a configuration depends on which of these was written, so they are
checked and passed over: every function here answers what follows the scalar that a text begins
with.
-/

namespace Routespec

namespace Toml

/-- The digits that continue a numeral, and what follows them. An underscore may stand between two
digits. -/
def moreDigits (isDigit : Char → Bool) : Text → Text × Text
  | [] => ([], [])
  | [c] => if isDigit c then ([c], []) else ([], [c])
  | c :: d :: rest =>
    if isDigit c then
      let (digits, rest) := moreDigits isDigit (d :: rest)
      (c :: digits, rest)
    else if c = '_' ∧ isDigit d then
      let (digits, rest) := moreDigits isDigit rest
      (d :: digits, rest)
    else ([], c :: d :: rest)

/-- The digits at the start of a text, one at least, and what follows them. -/
def digits? (isDigit : Char → Bool) : Text → Option (Text × Text)
  | [] => none
  | c :: rest =>
    if isDigit c then
      let (digits, rest) := moreDigits isDigit rest
      some (c :: digits, rest)
    else none

/-- One more than the largest integer. -/
def integerLimit : Nat := Nat.pow 2 63

/-- What follows an integer in base sixteen, eight or two. -/
def afterBased? : Text → Option Text
  | '0' :: mark :: rest => do
    let base ← match mark with
      | 'x' => some 16
      | 'o' => some 8
      | 'b' => some 2
      | _ => none
    let value (c : Char) : Option Nat := (Hexadecimal.digit? c).filter (· < base)
    let (digits, rest) ← digits? (fun c => (value c).isSome) rest
    let n := digits.foldl (fun n c => base * n + (value c).getD 0) 0
    guard (n < integerLimit)
    return rest
  | _ => none

/-- What follows a sign or the lack of one, and whether it was a minus. -/
def afterSign : Text → Bool × Text
  | '-' :: rest => (true, rest)
  | '+' :: rest => (false, rest)
  | t => (false, t)

/-- The exponent at the start of a text, if there is one, and what follows. It is `none` if an
exponent is begun and not finished. -/
def scanExponent : Text → Option (Option Int × Text)
  | [] => some (none, [])
  | c :: rest =>
    if c = 'e' ∨ c = 'E' then do
      let (isNegative, rest) := afterSign rest
      let (digits, rest) ← digits? Char.isDigit rest
      let n : Int := Decimal.value digits
      return (some (if isNegative then -n else n), rest)
    else some (none, c :: rest)

/-- A number with the given digits, times a power of ten, is beyond every double. -/
def isOverflow (digits : Text) (e : Int) : Bool :=
  let digits := digits.dropWhile (· = '0')
  let order := digits.length + e
  if digits = [] ∨ order ≤ Binary64.maxTen then false
  else if Binary64.maxTen + 1 < order then true
  else
    let n := Decimal.value digits
    (Binary64.ofRatio? (n * Nat.pow 10 e.toNat) (Nat.pow 10 (-e).toNat)).isNone

/-- What follows a decimal integer or a float. An integer has 64 bits; a float may be too small
to be held but not too large, below zero excepted. -/
def afterDecimal? (t : Text) : Option Text := do
  let (isNegative, t) := afterSign t
  let (whole, t) ← digits? Char.isDigit t
  guard (whole.head? = some '0' → whole.length = 1)
  let (fraction, t) ← match t with
    | '.' :: rest => do
      let (fraction, rest) ← digits? Char.isDigit rest
      pure (some fraction, rest)
    | t => pure (none, t)
  let (exponent, t) ← scanExponent t
  if fraction.isNone ∧ exponent.isNone then
    let n := Decimal.value whole
    guard (if isNegative then n ≤ integerLimit else n < integerLimit)
  else
    let fraction := fraction.getD []
    guard (isNegative ∨ ¬ isOverflow (whole ++ fraction) (exponent.getD 0 - fraction.length))
  return t

/-- What follows an infinity or a value that is no number. -/
def afterSpecial? (t : Text) : Option Text :=
  let t := (afterSign t).2
  (Text.dropStart? ['i', 'n', 'f'] t).or (Text.dropStart? ['n', 'a', 'n'] t)

/-- A number of exactly `count` digits that is not below `least` and not above `most`, and what
follows it. -/
def fixed? (count least most : Nat) (t : Text) : Option (Nat × Text) :=
  let digits := t.take count
  let n := Decimal.value digits
  if digits.length = count ∧ digits.all Char.isDigit ∧ least ≤ n ∧ n ≤ most then
    some (n, t.drop count)
  else none

/-- The last day of a month. -/
def daysIn (year month : Nat) : Nat :=
  if month = 2 then
    if year % 4 = 0 ∧ (year % 100 ≠ 0 ∨ year % 400 = 0) then 29 else 28
  else if month = 4 ∨ month = 6 ∨ month = 9 ∨ month = 11 then 30
  else 31

/-- What follows a date. -/
def afterDate? (t : Text) : Option Text := do
  let (year, t) ← fixed? 4 0 9999 t
  let t ← Text.dropStart? ['-'] t
  let (month, t) ← fixed? 2 1 12 t
  let t ← Text.dropStart? ['-'] t
  let (_, t) ← fixed? 2 1 (daysIn year month) t
  return t

/-- What follows hours and minutes. -/
def afterMinute? (t : Text) : Option Text := do
  let (_, t) ← fixed? 2 0 23 t
  let t ← Text.dropStart? [':'] t
  let (_, t) ← fixed? 2 0 59 t
  return t

/-- What follows a time of day, which may have a leap second and a fraction of one. -/
def afterTime? (t : Text) : Option Text := do
  let t ← afterMinute? t
  let t ← Text.dropStart? [':'] t
  let (_, t) ← fixed? 2 0 60 t
  match t with
  | '.' :: rest =>
    guard (rest.head?.any Char.isDigit)
    return rest.dropWhile Char.isDigit
  | t => return t

/-- What follows an offset from universal time. -/
def afterOffset? : Text → Option Text
  | [] => none
  | c :: rest =>
    if c = 'Z' ∨ c = 'z' then some rest
    else if c = '+' ∨ c = '-' then afterMinute? rest
    else none

/-- What follows a time of day behind a date and a mark, with an offset or not. -/
def afterDayTime? : Text → Option Text
  | [] => none
  | c :: rest => do
    guard (c = 'T' ∨ c = 't' ∨ c = ' ')
    let t ← afterTime? rest
    return (afterOffset? t).getD t

/-- What follows a date, a time of day, or both. -/
def afterDateTime? (t : Text) : Option Text :=
  match afterDate? t with
  | some t => some ((afterDayTime? t).getD t)
  | none => afterTime? t

/-- What follows a truth value. -/
def afterBool? (t : Text) : Option Text :=
  (Text.dropStart? ['t', 'r', 'u', 'e'] t).or (Text.dropStart? ['f', 'a', 'l', 's', 'e'] t)

/-- What follows a number or truth value. -/
def afterScalar? (t : Text) : Option Text :=
  (afterBool? t).or <| (afterSpecial? t).or <| (afterBased? t).or (afterDecimal? t)

end Toml

end Routespec
