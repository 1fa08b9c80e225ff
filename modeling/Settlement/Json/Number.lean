import Settlement.Binary64.Shortest

/-!
# Numbers of a JSON text

A number without fraction and exponent is whole if it fits 64 bits, with or without a sign. Every
other number is a binary one. Its digits are gathered into 64 bits, the ones that no longer fit
count as powers of ten or are left out, and the result is scaled by a power of ten in floating point
arithmetic.
-/

namespace Settlement.Json

/-- A number as a program holds it: whole, from `-2 ^ 63` up to `2 ^ 64 - 1`, or binary. -/
inductive Number where
  | whole (n : Int)
  | real (x : Binary64)
  deriving DecidableEq, Inhabited

namespace Number

def text : Number → String
  | whole n => toString n
  | real x => x.text

end Number

/-- The parts of a written number, digits by their values. The exponent has its sign. -/
structure Numeral where
  negative : Bool
  whole : List Nat
  fraction : List Nat
  exponent : Option (Bool × List Nat)
  deriving DecidableEq

namespace Numeral

/-- One more than the largest number of 64 bits. -/
def wordBound : Nat := twoPow 64

/-- The digits that fit 64 bits, and the ones behind them. -/
def gather : Nat → List Nat → Nat × List Nat
  | n, [] => (n, [])
  | n, d :: ds => if n * 10 + d < wordBound then gather (n * 10 + d) ds else (n, d :: ds)

def largestExponent : Nat := twoPow 31 - 1

/-- The value of exponent digits, none when it has more than 31 bits. -/
def exponentValue? : Nat → List Nat → Option Nat
  | n, [] => some n
  | n, d :: ds =>
    if n * 10 + d ≤ largestExponent then exponentValue? (n * 10 + d) ds else none

/-- Cut to a 32-bit word with a sign. -/
def saturate (n : Int) : Int := max (-(twoPow 31 : Int)) (min ((twoPow 31 : Int) - 1) n)

/-- The power `10 ^ n`, rounded. -/
def powerOfTen? (n : Nat) : Option Magnitude := Magnitude.ofNat? (tenPow n)

/-- A number times a power of ten, by steps of at most `10 ^ 308`. -/
def scaled? : Nat → Magnitude → Int → Option Magnitude
  | 0, _, _ => none
  | fuel + 1, x, exponent =>
    if exponent.natAbs ≤ 308 then do
      let power ← powerOfTen? exponent.natAbs
      if exponent ≥ 0 then x.mul? power else x.div? power
    else if x.mantissa = 0 then some x
    else if exponent ≥ 0 then none
    else do
      let power ← powerOfTen? 308
      let smaller ← x.div? power
      scaled? fuel smaller (exponent + 308)

/-- The binary number that a numeral stands for; none past the largest one. -/
def real? (numeral : Numeral) : Option Magnitude :=
  let (first, dropped) := gather 0 numeral.whole
  let (digits, left) := gather first numeral.fraction
  let places : Int := (dropped.length : Int) - (numeral.fraction.length - left.length : Nat)
  let scale (exponent : Int) : Option Magnitude := do
    let x ← Magnitude.ofNat? digits
    scaled? (exponent.natAbs + 1) x exponent
  match numeral.exponent with
  | none => scale places
  | some (negative, ds) =>
    match exponentValue? 0 ds with
    | some e => scale (saturate (if negative then places - e else places + e))
    | none => if digits ≠ 0 ∧ !negative then none else some Magnitude.zero

/-- The number that a numeral stands for; none past the largest one. -/
def number? (numeral : Numeral) : Option Number :=
  let asReal := numeral.real?.map fun x => Number.real ⟨numeral.negative, x⟩
  if numeral.fraction.isEmpty && numeral.exponent.isNone then
    match gather 0 numeral.whole with
    | (n, []) =>
      if !numeral.negative then some (.whole n)
      else if 0 < n ∧ n ≤ twoPow 63 then some (.whole (-(n : Int)))
      else asReal
    | _ => asReal
  else asReal

end Numeral

end Settlement.Json
