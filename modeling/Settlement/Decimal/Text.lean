import Settlement.Decimal
import Settlement.Text.Integer

/-!
# Decimal amounts as text

`Decimal.text` writes the units with the point `scale` places from the end and at least one digit
before it. `Decimal.ofText?` reads a sign, digits with at most one point among them, and
underscores after the first digit. A fraction is read to 28 places or until the next digit would
not fit 96 bits; the digit after that decides the rounding, a five going up, and what follows it is
not looked at. `Decimal.ofExponentText?` reads the same with an exponent after it.
-/

namespace Settlement

namespace Decimal

/-- The text of an amount. -/
def text (d : Decimal) : String :=
  let digits := Nat.toDigits 10 d.units.natAbs
  let padded := List.replicate (d.scale + 1 - digits.length) '0' ++ digits
  let (whole, fraction) := padded.splitAt (padded.length - d.scale)
  let body := if fraction.isEmpty then whole else whole ++ '.' :: fraction
  String.ofList (if d.units < 0 then '-' :: body else body)

/-- What has been read of a number: its digits, the places after the point, and whether the point
and a first digit have come. -/
structure Reading where
  digits : Nat
  places : Nat
  pointed : Bool
  started : Bool

namespace Reading

def empty : Reading := ⟨0, 0, false, false⟩

/-- The reading one digit further. -/
def push (r : Reading) (digit : Nat) : Reading :=
  ⟨r.digits * 10 + digit, if r.pointed then r.places + 1 else r.places, r.pointed, true⟩

/-- No further digit can be taken in: the fraction has all its places, or the digits would have
more than 96 bits. -/
def full (r : Reading) (digit : Nat) : Bool :=
  (r.pointed && r.places ≥ maxScale) || r.digits * 10 + digit ≥ bound

/-- The amount read, rounded by the first digit left out. -/
def rounded? (r : Reading) (digit : Nat) : Option (Nat × Nat) :=
  if digit < 5 then some (r.digits, r.places)
  else if r.digits + 1 < bound then some (r.digits + 1, r.places)
  else if r.places = 0 then none
  else some ((r.digits + 1 + 4) / 10, r.places - 1)

/-- The digits and the places of a number text, its sign taken off. -/
def run? : Reading → List Char → Option (Nat × Nat)
  | r, [] => if r.started then some (r.digits, r.places) else none
  | r, c :: cs =>
    if c.isDigit then
      let digit := c.toNat - '0'.toNat
      if !r.full digit then run? (r.push digit) cs
      else if r.pointed then r.rounded? digit
      else none
    else if r.pointed && r.places ≥ maxScale && r.started then
      -- the place after the last one decides the rounding and need not be a digit
      if c == '_' || c == '.' then r.rounded? 0 else none
    else if c == '.' && !r.pointed then run? { r with pointed := true } cs
    else if c == '_' && r.started then run? r cs
    else none

end Reading

/-- The amount that a text without exponent stands for. -/
def ofChars? (cs : List Char) : Option Decimal :=
  let (negative, body) :=
    match cs with
    | '-' :: rest => (true, rest)
    | '+' :: rest => (false, rest)
    | rest => (false, rest)
  (Reading.empty.run? body).map fun (digits, places) => ⟨withSign negative digits, places⟩

def ofText? (s : String) : Option Decimal := ofChars? s.toList

/-- The number behind the mark of an exponent, without a minus sign. -/
def exponent? (cs : List Char) : Option Nat :=
  (Text.natural? 32 cs).toOption

/-- An amount moved by a power of ten. The point moves within the scale first; a whole number that
is left grows, as long as it fits. -/
def shift? (d : Decimal) (exponent : Int) : Option Decimal :=
  let scale : Int := d.scale - exponent
  if exponent ≤ d.scale then
    if scale ≤ maxScale then some ⟨d.units, scale.toNat⟩ else none
  else if exponent > maxScale then none
  else if d.units = 0 then some zero
  else
    let grown := d.units.natAbs * tenPow (-scale).toNat
    if grown < bound then some ⟨withSign (d.units < 0) grown, 0⟩ else none

/-- The amount that a text with an exponent stands for. -/
def ofExponentText? (s : String) : Option Decimal :=
  let isMark : Char → Bool := fun c => c == 'e' || c == 'E'
  let cs := s.toList
  match cs.dropWhile (!isMark ·) with
  | [] => none
  | _ :: exponent => do
    let base ← ofChars? (cs.takeWhile (!isMark ·))
    match exponent with
    | '-' :: digits => base.shift? (-(← exponent? digits))
    | digits => base.shift? (← exponent? digits)

end Decimal

end Settlement
