import Mathlib.Algebra.Ring.Int.Defs
import Settlement.Proofs.Digits
import Settlement.Proofs.Json.Written

/-!
# The numbers of written digits

Digits whose number has 64 bits are gathered without a loss (`gather_digits`). Without a fraction
and an exponent they are that whole number (`number?_whole`); with a fraction they are rounded to a
binary number and divided by the power of ten that stands for their places (`real?_pointed`).
-/

namespace Settlement.Json

open Numeral (gather wordBound)

/-- Digits that stand for a number of 64 bits are all gathered. -/
theorem gather_digits (ds : List Char) (n : Nat) (h : Nat.ofDigitChars 10 ds n < wordBound) :
    gather n (ds.map digitValue) = (Nat.ofDigitChars 10 ds n, []) := by
  induction ds generalizing n with
  | nil => rfl
  | cons c ds ih =>
      have hstep : 10 * n + (c.toNat - '0'.toNat) = n * 10 + digitValue c := by
        rw [digitValue, Nat.mul_comm]
      rw [Nat.ofDigitChars_cons, hstep] at h ⊢
      rw [List.map_cons, gather, if_pos (Nat.lt_of_le_of_lt (le_ofDigitChars ds _) h), ih _ h]

/-- The numeral of a whole number of 64 bits stands for it. -/
theorem number?_whole {n : Int} (low : -(2 ^ 63) ≤ n) (high : n < 2 ^ 64) :
    Numeral.number? ⟨decide (n < 0), (Nat.toDigits 10 n.natAbs).map digitValue, [], none⟩ =
      some (.whole n) := by
  have hword : wordBound = 2 ^ 64 := rfl
  have hvalue := gather_digits (Nat.toDigits 10 n.natAbs) 0 (by
    rw [Nat.ofDigitChars_ten_toDigits]
    omega)
  rw [Nat.ofDigitChars_ten_toDigits] at hvalue
  have hsigned : twoPow 63 = 2 ^ 63 := rfl
  rw [Numeral.number?]
  simp only [hvalue, List.isEmpty_nil, Option.isNone_none, Bool.and_self, if_true]
  by_cases hneg : n < 0
  · have habs : -(n.natAbs : Int) = n := by omega
    rw [if_neg (by simp [hneg]), if_pos (by omega), habs]
  · have habs : (n.natAbs : Int) = n := by omega
    rw [if_pos (by simp [hneg]), habs]

/-- A small negative power of ten is divided by. -/
theorem scaled?_neg (fuel : Nat) (x : Magnitude) {p : Nat} (pos : 0 < p) (small : p ≤ 308) :
    Numeral.scaled? (fuel + 1) x (-(p : Int)) = (Magnitude.ofNat? (tenPow p)).bind x.div? := by
  have habs : (-(p : Int)).natAbs = p := by omega
  have hneg : ¬-(p : Int) ≥ 0 := by omega
  simp only [Numeral.scaled?, habs, small, hneg, if_true, if_false, Numeral.powerOfTen?, bind]

/-- The number of digits on both sides of the point, which is moved behind the last one and back. -/
theorem real?_pointed (negative : Bool) (whole fraction : List Char)
    (fits : Nat.ofDigitChars 10 (whole ++ fraction) 0 < wordBound) :
    Numeral.real? ⟨negative, whole.map digitValue, fraction.map digitValue, none⟩ =
      (Magnitude.ofNat? (Nat.ofDigitChars 10 (whole ++ fraction) 0)).bind fun x =>
        Numeral.scaled? (fraction.length + 1) x (-(fraction.length : Int)) := by
  rw [Nat.ofDigitChars_append] at fits ⊢
  have hwhole := gather_digits whole 0 (Nat.lt_of_le_of_lt (le_ofDigitChars fraction _) fits)
  have hfraction := gather_digits fraction _ fits
  simp [Numeral.real?, hwhole, hfraction, bind]

end Settlement.Json
