/-!
# Double-precision numbers

Finite, non-negative numbers with 53 significant bits, and arithmetic on them. Every operation
takes the exact result to the nearest such number; of two equally near ones it takes the one with
the even mantissa. A result beyond the largest number is `none`.
-/

namespace Routespec

/-- The number `mantissa * 2 ^ exponent`. Unless the exponent is the least, the mantissa has 53
bits. -/
structure Binary64 where
  mantissa : Nat
  exponent : Int
  deriving DecidableEq, Repr, Inhabited

/-- The quotient of two numbers to the nearest whole number, halves to the even one. -/
def roundHalfEven (num den : Nat) : Nat :=
  let q := num / den
  let r := num % den
  if 2 * r < den then q else if den < 2 * r then q + 1 else q + q % 2

namespace Binary64

/-- The least exponent. -/
def minExponent : Int := -1074

/-- The largest exponent. -/
def maxExponent : Int := 971

/-- Zero. -/
def zero : Binary64 := ⟨0, minExponent⟩

/-- The exponent that gives a quotient 53 bits before its point. -/
def exponentOf (num den : Nat) : Int :=
  let e : Int := (num.log2 : Int) - den.log2 - 53
  let k := e + 53
  if den * Nat.pow 2 k.toNat ≤ num * Nat.pow 2 (-k).toNat then e + 1 else e

/-- The number nearest to a quotient. -/
def ofRatio? (num den : Nat) : Option Binary64 :=
  if num = 0 then some zero
  else
    let e := max minExponent (exponentOf num den)
    let m := roundHalfEven (num * Nat.pow 2 (-e).toNat) (den * Nat.pow 2 e.toNat)
    let x : Binary64 := if m = Nat.pow 2 53 then ⟨Nat.pow 2 52, e + 1⟩ else ⟨m, e⟩
    if x.exponent ≤ maxExponent then some x else none

/-- The number nearest to a whole number. -/
def ofNat? (n : Nat) : Option Binary64 := ofRatio? n 1

/-- The number nearest to `num / den * 2 ^ e`. -/
def ofScaled? (num den : Nat) (e : Int) : Option Binary64 :=
  ofRatio? (num * Nat.pow 2 e.toNat) (den * Nat.pow 2 (-e).toNat)

/-- The product of two numbers. -/
def mul? (x y : Binary64) : Option Binary64 :=
  ofScaled? (x.mantissa * y.mantissa) 1 (x.exponent + y.exponent)

/-- The quotient of a number by one other than zero. -/
def div? (x y : Binary64) : Option Binary64 :=
  ofScaled? x.mantissa y.mantissa (x.exponent - y.exponent)

/-- The largest power of ten below the largest number. -/
def maxTen : Nat := 308

/-- A number times a power of ten, which is itself taken to the nearest number first. A power too
small for that is divided by in several steps. -/
def scale? (x : Binary64) (e : Int) : Option Binary64 :=
  if 0 ≤ e then
    if e ≤ maxTen then (ofNat? (Nat.pow 10 e.toNat)).bind x.mul?
    else if x.mantissa = 0 then some x
    else none
  else if -e ≤ maxTen then (ofNat? (Nat.pow 10 (-e).toNat)).bind x.div?
  else if x.mantissa = 0 then some x
  else ((ofNat? (Nat.pow 10 maxTen)).bind x.div?).bind fun y => scale? y (e + maxTen)
  termination_by (-e).toNat
  decreasing_by
    simp only [maxTen] at *
    omega

end Binary64

end Routespec
