import Settlement.Rounding

/-!
# Decimal amounts

An amount is a whole number of units together with the place of its decimal point: the value is
`units / 10 ^ scale`. The scale is part of the amount, so `20.000` and `20` are different amounts
of equal value. The units of an amount that the program holds have at most 96 bits (`Fits`) and
its scale is at most 28.

A sum is formed at the larger of the two scales. When it has more than 96 bits there, `fit?`
drops digits from its end, the fewest that make it fit, and rounds half to even; a sum that does
not fit without a fraction is no amount. Adding a zero gives the other amount with its own scale.
-/

namespace Settlement

/-- The amount `units / 10 ^ scale`. -/
structure Decimal where
  units : Int
  scale : Nat
  deriving DecidableEq, Inhabited

namespace Decimal

/-- One more than the largest number of units. -/
def bound : Nat := twoPow 96

def maxScale : Nat := 28

def zero : Decimal := ⟨0, 0⟩

def ofInt (n : Int) : Decimal := ⟨n, 0⟩

/-- The amount is one the program can hold. -/
def Fits (d : Decimal) : Prop := d.units.natAbs < bound ∧ d.scale ≤ maxScale

instance (d : Decimal) : Decidable d.Fits := inferInstanceAs (Decidable (_ ∧ _))

/-- Units of the value of `d` at a scale not below its own. -/
def unitsAt (d : Decimal) (scale : Nat) : Int := d.units * tenPow (scale - d.scale)

/-- Numeric order, whatever the scales. -/
def le (a b : Decimal) : Bool :=
  a.unitsAt (max a.scale b.scale) ≤ b.unitsAt (max a.scale b.scale)

def lt (a b : Decimal) : Bool := !le b a

/-- The fewest digits to drop, of at most `scale`, so that fewer than 97 bits are left. -/
def excess? (magnitude scale : Nat) : Option Nat :=
  (List.range (scale + 1)).find? fun drop => magnitude / tenPow drop < bound

/-- A magnitude at a scale, brought into 96 bits. Rounding may carry into the 97th bit; then one
more digit goes. -/
def fit? (magnitude scale : Nat) : Option (Nat × Nat) :=
  match excess? magnitude scale with
  | none => none
  | some drop =>
    let rounded := divHalfEven magnitude (tenPow drop)
    if rounded < bound then some (rounded, scale - drop)
    else if scale - drop = 0 then none
    else some (divHalfEven rounded 10, scale - drop - 1)

def withSign (negative : Bool) (magnitude : Nat) : Int :=
  if negative then -(magnitude : Int) else magnitude

/-- The sum; none when it does not fit even without a fraction. -/
def add? (a b : Decimal) : Option Decimal :=
  if a.units = 0 then some b
  else if b.units = 0 then some a
  else
    let scale := max a.scale b.scale
    let units := a.unitsAt scale + b.unitsAt scale
    (fit? units.natAbs scale).map fun (magnitude, scale) =>
      ⟨withSign (units < 0) magnitude, scale⟩

/-- The product with a whole number; none when it does not fit even without a fraction. -/
def scale? (a : Decimal) (count : Nat) : Option Decimal :=
  if a.units = 0 ∨ count = 0 then some zero
  else
    (fit? (a.units.natAbs * count) a.scale).map fun (magnitude, scale) =>
      ⟨withSign (a.units < 0) magnitude, scale⟩

/-- The whole part. -/
def trunc (a : Decimal) : Decimal := ⟨a.units.tdiv (tenPow a.scale), 0⟩

/-- The sum of a list, from zero and from left to right. -/
def sum? (amounts : List Decimal) : Option Decimal :=
  amounts.foldlM add? zero

theorem add?_zero_left (b : Decimal) : add? zero b = some b := rfl

end Decimal

end Settlement
