import EventTaxonomy.Json.Basic

/-!
# Decimal text of numbers

A double is written with the fewest decimal digits that read back as the same double. All of it
is exact arithmetic on natural numbers: `Dyadic` is a double as `m * 2 ^ q`, `Dyadic.shortest`
searches the decimal grids from one digit to seventeen, and `Number.text` lays the digits out.
-/

namespace EventTaxonomy

/-- A positive double: `mantissa * 2 ^ exponent`. -/
structure Dyadic where
  mantissa : Nat
  exponent : Int
  /-- The next smaller double is only half as far away as the next larger one. -/
  narrowBelow : Bool

/-- Decimal digits and the power of ten of the first one. -/
structure Decimal where
  digits : List Char
  exponent : Int

namespace Dyadic

/-- The magnitude of a finite double. -/
def ofFloat (x : Float) : Dyadic :=
  let bits : Nat := x.toBits.toNat
  let fraction : Nat := bits % Nat.pow 2 52
  let scale : Nat := bits / Nat.pow 2 52 % Nat.pow 2 11
  if scale = 0 then ⟨fraction, -1074, false⟩
  else ⟨fraction + Nat.pow 2 52, (scale : Int) - 1075, fraction = 0 && scale > 1⟩

/-- The fraction `n / d` that equals `k / 4` units in the last place of the double. -/
def quarters (x : Dyadic) (k : Nat) : Nat × Nat :=
  let e := x.exponent - 2
  (k * Nat.pow 2 e.toNat, Nat.pow 2 (-e).toNat)

/-- The number of decimal digits, none for zero. -/
def digitCount (n : Nat) : Nat := if n = 0 then 0 else (Nat.toDigits 10 n).length

/-- The power of ten of the first digit of `n / d`. -/
def leading (n d : Nat) : Int :=
  if d ≤ n then (digitCount (n / d) : Int) - 1 else -(digitCount ((d - 1) / n) : Int)

/-- The multiple of `10 ^ step` nearest to the double, of those that read back as it: the number
of steps. A tie goes to the even one. -/
def onGrid (x : Dyadic) (step : Int) : Option Nat :=
  let up := Nat.pow 10 (-step).toNat
  let down := Nat.pow 10 step.toNat
  let value := x.quarters (4 * x.mantissa)
  let low := x.quarters (4 * x.mantissa - (if x.narrowBelow then 1 else 2))
  let high := x.quarters (4 * x.mantissa + 2)
  let unit := value.2 * down
  let k := value.1 * up / unit
  let ends := x.mantissa % 2 = 0
  let reads (c : Nat) : Bool :=
    let c := c * unit
    (low.1 * up < c || (ends && low.1 * up = c)) && (c < high.1 * up || (ends && c = high.1 * up))
  let below := 2 * (value.1 * up - k * unit)
  match reads k, reads (k + 1) with
  | true, true => some (if below < unit || (below = unit && k % 2 = 0) then k else k + 1)
  | true, false => some k
  | false, true => some (k + 1)
  | false, false => none

/-- The digits of `n` without trailing zeros. -/
def significant (n : Nat) : List Char :=
  ((Nat.toDigits 10 n).reverse.dropWhile (· = '0')).reverse

/-- The shortest decimal that reads back as the double. -/
def shortest (x : Dyadic) : Decimal :=
  let value := x.quarters (4 * x.mantissa)
  let first := leading value.1 value.2
  let attempt (places : Nat) : Option Decimal :=
    let step := first - places
    (x.onGrid step).map fun n =>
      ⟨significant n, step + (digitCount n : Int) - 1⟩
  ((List.range 17).findSome? attempt).getD ⟨['0'], 0⟩

end Dyadic

namespace Decimal

/-- The text of a decimal: plain from `10 ^ -5` to below `10 ^ 16`, with at least one digit
after the point; otherwise with an exponent, whose sign is always written. -/
def text (x : Decimal) : List Char :=
  if -5 ≤ x.exponent && x.exponent ≤ 15 then
    if x.exponent < 0 then
      '0' :: '.' :: (List.replicate ((-x.exponent).toNat - 1) '0' ++ x.digits)
    else
      let whole := x.exponent.toNat + 1
      let after := x.digits.drop whole
      x.digits.take whole ++ List.replicate (whole - x.digits.length) '0' ++
        '.' :: (if after.isEmpty then ['0'] else after)
  else
    let after := x.digits.drop 1
    x.digits.take 1 ++ (if after.isEmpty then [] else '.' :: after) ++
      'e' :: (if x.exponent < 0 then '-' else '+') :: Nat.toDigits 10 x.exponent.natAbs

end Decimal

namespace Number

/-- The text of a double. -/
def floatText (x : Float) : List Char :=
  let magnitude := if x == 0 then ['0', '.', '0'] else (Dyadic.ofFloat x).shortest.text
  if x.toBits.toNat / Nat.pow 2 63 = 1 then '-' :: magnitude else magnitude

/-- The text of an integer. -/
def intText : Int → List Char
  | .ofNat n => Nat.toDigits 10 n
  | .negSucc n => '-' :: Nat.toDigits 10 (n + 1)

/-- The text of a number. -/
def text : Number → List Char
  | .int n => intText n
  | .float x => floatText x

end Number

end EventTaxonomy
