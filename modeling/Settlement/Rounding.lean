import Settlement.Power

/-!
# Rounding a quotient

`divHalfEven` is the whole number nearest to a quotient; of two equally near ones, the even one.
-/

namespace Settlement

/-- `num / den` to the nearest whole number, a half to the even neighbour. -/
def divHalfEven (num den : Nat) : Nat :=
  let quotient := num / den
  let twice := 2 * (num % den)
  if twice > den ∨ (twice = den ∧ quotient % 2 = 1) then quotient + 1 else quotient

theorem divHalfEven_mul (n : Nat) {den : Nat} (pos : 0 < den) : divHalfEven (n * den) den = n := by
  simp [divHalfEven, Nat.mul_div_cancel n pos, Nat.ne_of_lt pos]

end Settlement
