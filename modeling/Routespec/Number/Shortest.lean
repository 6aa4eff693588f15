import Routespec.Number.Binary64
import Routespec.Text.Blank

/-!
# Shortest decimals

A number is written with the fewest digits that read back as that number, and of those with the
nearest. Numbers that are neither very large nor very small are written without an exponent.
-/

namespace Routespec

/-- The number `digits * 10 ^ exponent`. -/
structure DecimalForm where
  digits : Nat
  exponent : Int
  deriving DecidableEq, Repr, Inhabited

namespace Binary64

/-- The multiple of `10 ^ k` next to a number, among those that are nearer to it than to any other
number, if there is one. -/
def onGrid? (x : Binary64) (k : Int) : Option Nat :=
  let m := x.mantissa
  let s := x.exponent - 2
  let step := Nat.pow 10 k.toNat * Nat.pow 2 (-s).toNat
  let unit := Nat.pow 2 s.toNat * Nat.pow 10 (-k).toNat
  let v := 4 * m * unit
  let low := if m = Nat.pow 2 52 ∧ minExponent < x.exponent then v - unit else v - 2 * unit
  let high := v + 2 * unit
  let inside (c : Nat) : Bool :=
    if m % 2 = 0 then low ≤ c * step && c * step ≤ high else low < c * step && c * step < high
  let c := v / step
  match inside c, inside (c + 1) with
  | true, true =>
    let below := v - c * step
    let above := (c + 1) * step - v
    if below < above then some c
    else if above < below then some (c + 1)
    else some (c + c % 2)
  | true, false => some c
  | false, true => some (c + 1)
  | false, false => none

/-- The first grid with a hit, from the powers of ten `k`, `k - 1`, … on. -/
def shortestFrom (x : Binary64) : Nat → Int → DecimalForm
  | 0, _ => ⟨0, 0⟩
  | steps + 1, k =>
    match x.onGrid? k with
    | some c => ⟨c, k⟩
    | none => shortestFrom x steps (k - 1)

/-- The shortest decimal that reads back as the number. It has at most 17 digits, so few grids
below the size of the number have to be tried. -/
def shortest (x : Binary64) : DecimalForm :=
  if x.mantissa = 0 then ⟨0, 0⟩
  else
    let bits := (x.mantissa.log2 : Int) + x.exponent + 1
    shortestFrom x 24 ((bits * 30103).fdiv 100000 + 1)

end Binary64

namespace DecimalForm

/-- The text of a decimal. The point may stand up to 16 places after the first digit and up to
four zeros before it; beyond that an exponent, with its sign, says where it belongs. -/
def text (d : DecimalForm) : Text :=
  let digits := Nat.toDigits 10 d.digits
  let point := (digits.length : Int) + d.exponent
  if 0 ≤ d.exponent ∧ point ≤ 16 then
    digits ++ List.replicate d.exponent.toNat '0' ++ ['.', '0']
  else if 0 < point ∧ point ≤ 16 then
    digits.take point.toNat ++ '.' :: digits.drop point.toNat
  else if -5 < point ∧ point ≤ 0 then
    ['0', '.'] ++ List.replicate (-point).toNat '0' ++ digits
  else
    let fraction := if digits.length = 1 then [] else '.' :: digits.drop 1
    let e := point - 1
    let sign := if e < 0 then '-' else '+'
    digits.take 1 ++ fraction ++ 'e' :: sign :: Nat.toDigits 10 e.natAbs

end DecimalForm

end Routespec
