import Settlement.Binary64

/-!
# The shortest decimal for a binary number

A binary number stands for every real number that rounds to it. `Magnitude.shortest` is the decimal
with the fewest digits among those; of several with that many digits, the nearest to the number.
For each count of digits only the two neighbours of the number on the grid of decimals with that
many digits are tried.
-/

namespace Settlement

/-- The decimal `0.d₁d₂… * 10 ^ point`: the digits, and how many of them stand before the point. -/
structure DecimalDigits where
  digits : List Char
  point : Int
  deriving DecidableEq

namespace Magnitude

/-- A number and the ends of the interval that rounds to it, over one denominator. -/
structure Neighbourhood where
  low : Nat
  value : Nat
  high : Nat
  den : Nat
  ends : Bool

/-- The reals that round to `x`: half a step up, and half the step below it down. -/
def neighbourhood (x : Magnitude) : Neighbourhood :=
  let unit := twoPow (x.exponent - 2).toNat
  let below := if x.mantissa = twoPow 52 ∧ x.exponent > minExponent then 1 else 2
  { low := (4 * x.mantissa - below) * unit
    value := 4 * x.mantissa * unit
    high := (4 * x.mantissa + 2) * unit
    den := twoPow (2 - x.exponent).toNat
    ends := x.mantissa % 2 == 0 }

namespace Neighbourhood

/-- Digits before the point of the value; at most zero for a value below one. -/
def point (v : Neighbourhood) : Int :=
  let whole := v.value / v.den
  if whole > 0 then (Nat.toDigits 10 whole).length
  else
    match (List.range 400).find? fun shift => v.value * tenPow shift ≥ v.den with
    | some shift => 1 - (shift : Int)
    | none => 0

/-- The decimal `count * 10 ^ shift` lies in the interval. -/
def holds (v : Neighbourhood) (count : Nat) (shift : Int) : Bool :=
  let decimal := count * v.den * tenPow shift.toNat
  let scale := tenPow (-shift).toNat
  if v.ends then v.low * scale ≤ decimal && decimal ≤ v.high * scale
  else v.low * scale < decimal && decimal < v.high * scale

/-- The decimal with `places` digits in the interval, if there is one: its digits as a number and
the power of ten they count. -/
def decimal? (v : Neighbourhood) (places : Nat) : Option (Nat × Int) :=
  let shift := v.point - places
  let num := v.value * tenPow (-shift).toNat
  let den := v.den * tenPow shift.toNat
  let below := num / den
  match v.holds below shift, v.holds (below + 1) shift with
  | true, true =>
    let twice := 2 * (num % den)
    let up := twice > den || (twice == den && below % 2 == 1)
    some (if up then below + 1 else below, shift)
  | true, false => some (below, shift)
  | false, true => some (below + 1, shift)
  | false, false => none

end Neighbourhood

/-- Zeros at the end taken off. -/
def significant (digits : List Char) : List Char :=
  (digits.reverse.dropWhile (· == '0')).reverse

/-- The decimal with the fewest digits that rounds to `x`. -/
def shortest (x : Magnitude) : DecimalDigits :=
  if x.mantissa = 0 then ⟨['0'], 1⟩
  else
    match (List.range 17).findSome? fun n => x.neighbourhood.decimal? (n + 1) with
    | some (count, shift) =>
      let digits := Nat.toDigits 10 count
      ⟨significant digits, digits.length + shift⟩
    | none => ⟨['0'], 1⟩

end Magnitude

namespace DecimalDigits

/-- Digits before and behind the point, with the zeros that reach it; no digit before the point is
written as a zero. -/
def positional (d : DecimalDigits) : List Char × List Char :=
  if d.point ≤ 0 then (['0'], List.replicate (-d.point).toNat '0' ++ d.digits)
  else
    let whole := d.digits.take d.point.toNat
    (whole ++ List.replicate (d.point.toNat - whole.length) '0', d.digits.drop d.point.toNat)

end DecimalDigits

namespace Binary64

def signed (x : Binary64) (text : List Char) : String :=
  String.ofList (if x.negative then '-' :: text else text)

/-- The shortest decimal in positional notation, without a point for a whole number. -/
def positionalText (x : Binary64) : String :=
  let (whole, fraction) := x.magnitude.shortest.positional
  x.signed (if fraction.isEmpty then whole else whole ++ '.' :: fraction)

/-- An exponent with its sign and at least two digits. -/
def exponentText (exponent : Int) : List Char :=
  let digits := Nat.toDigits 10 exponent.natAbs
  (if exponent < 0 then '-' else '+') :: (if digits.length < 2 then '0' :: digits else digits)

/-- The shortest decimal with a point or an exponent: positional while the first digit counts at
least a hundred thousandth and less than ten to the sixteen, else with an exponent. -/
def text (x : Binary64) : String :=
  let shortest := x.magnitude.shortest
  let exponent := shortest.point - 1
  if -5 ≤ exponent ∧ exponent < 16 then
    let (whole, fraction) := shortest.positional
    x.signed (whole ++ '.' :: (if fraction.isEmpty then ['0'] else fraction))
  else
    let mantissa := match shortest.digits with
      | first :: second :: rest => first :: '.' :: second :: rest
      | digits => digits
    x.signed (mantissa ++ 'e' :: exponentText exponent)

end Binary64

end Settlement
