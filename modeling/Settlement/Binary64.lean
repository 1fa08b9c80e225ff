import Settlement.Rounding

/-!
# Binary floating point numbers

The finite numbers with 53 significant bits and an exponent between -1074 and 971, as exact
fractions. `Magnitude.nearest?` rounds a positive fraction to the nearest of them, half to even;
product and quotient are the rounded exact ones.
-/

namespace Settlement

/-- The number `mantissa * 2 ^ exponent`. -/
structure Magnitude where
  mantissa : Nat
  exponent : Int
  deriving DecidableEq, Inhabited

namespace Magnitude

def minExponent : Int := -1074

def maxExponent : Int := 971

def zero : Magnitude := ⟨0, minExponent⟩

/-- Numerator of `mantissa * 2 ^ exponent` over a power of two. -/
def num (x : Magnitude) : Nat := x.mantissa * twoPow x.exponent.toNat

/-- Denominator of `mantissa * 2 ^ exponent`, a power of two. -/
def den (x : Magnitude) : Nat := twoPow (-x.exponent).toNat

/-- The exponent at which `num / den` has 53 bits, or the least one. -/
def fittingExponent (num den : Nat) : Int :=
  let guess : Int := (num.log2 : Int) - den.log2 - 52
  let exponent :=
    if num * twoPow (-guess).toNat < den * twoPow guess.toNat * twoPow 52 then guess - 1 else guess
  max exponent minExponent

/-- The number nearest to `num / den`; none when that is past the largest one. -/
def nearest? (num den : Nat) : Option Magnitude :=
  if num = 0 then some zero
  else
    let exponent := fittingExponent num den
    let mantissa := divHalfEven (num * twoPow (-exponent).toNat) (den * twoPow exponent.toNat)
    let result : Magnitude :=
      if mantissa < twoPow 53 then ⟨mantissa, exponent⟩ else ⟨twoPow 52, exponent + 1⟩
    if result.exponent ≤ maxExponent then some result else none

def ofNat? (n : Nat) : Option Magnitude := nearest? n 1

/-- The rounded product. -/
def mul? (x y : Magnitude) : Option Magnitude := nearest? (x.num * y.num) (x.den * y.den)

/-- The rounded quotient by a number that is not zero. -/
def div? (x y : Magnitude) : Option Magnitude := nearest? (x.num * y.den) (x.den * y.num)

end Magnitude

/-- A finite binary floating point number; zero has two signs. -/
structure Binary64 where
  negative : Bool
  magnitude : Magnitude
  deriving DecidableEq, Inhabited

end Settlement
