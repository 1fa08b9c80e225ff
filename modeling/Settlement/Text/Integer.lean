import Settlement.Power

/-!
# Whole numbers as text

A number text is at most one sign and at least one decimal digit. Digits are read from the left and
the first fault found is reported, so a number that is too large for its width is only reported
when no stray character comes before the digit that makes it so.
-/

namespace Settlement.Text

/-- Why a text is no number of the wanted width. -/
inductive IntegerFault where
  | empty
  | invalidDigit
  | tooLarge
  deriving DecidableEq

namespace IntegerFault

def message : IntegerFault → String
  | empty => "cannot parse integer from empty string"
  | invalidDigit => "invalid digit found in string"
  | tooLarge => "number too large to fit in target type"

end IntegerFault

/-- The digit that a character stands for. -/
def digit? (c : Char) : Option Nat :=
  if c.isDigit then some (c.toNat - '0'.toNat) else none

/-- The number that digits stand for behind the digits of `n`, below `2 ^ bits`. -/
def naturalFrom (bits : Nat) : Nat → List Char → Except IntegerFault Nat
  | n, [] => .ok n
  | n, c :: cs =>
    match digit? c with
    | none => .error .invalidDigit
    | some d =>
      if n * 10 + d < twoPow bits then naturalFrom bits (n * 10 + d) cs else .error .tooLarge

/-- The number below `2 ^ bits` that a text stands for; a plus sign may come before the digits. -/
def natural? (bits : Nat) : List Char → Except IntegerFault Nat
  | [] => .error .empty
  | ['+'] => .error .invalidDigit
  | '+' :: cs => naturalFrom bits 0 cs
  | cs => naturalFrom bits 0 cs

end Settlement.Text
