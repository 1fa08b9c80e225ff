import Mathlib.Algebra.Order.Field.Rat
import Mathlib.Data.List.Basic
import Mathlib.Data.List.Induction
import Mathlib.Tactic.FieldSimp
import Mathlib.Tactic.NormNum
import Mathlib.Tactic.Ring
import Settlement.Decimal

/-!
# The number that an amount stands for

`value d` is the number `units / 10 ^ scale`. A number is `Exact` when it is the value of an amount
that the program can hold. A sum whose value is exact is formed without rounding, whatever the
scales of the summands (`value_add?`): digits are only dropped from the end while they are zeros.
-/

namespace Settlement

theorem cast_tenPow (n : Nat) : (tenPow n : ℚ) = 10 ^ n := by
  induction n with
  | zero => simp [tenPow_zero]
  | succ n ih => rw [tenPow_succ, Nat.cast_mul, ih, pow_succ, Nat.cast_ofNat]

theorem tenPow_add (m n : Nat) : tenPow (m + n) = tenPow m * tenPow n := by
  induction n with
  | zero => simp [tenPow_zero]
  | succ n ih => rw [← Nat.add_assoc, tenPow_succ, ih, tenPow_succ, Nat.mul_assoc]

namespace Decimal

/-- The number that the amount stands for. -/
def value (d : Decimal) : ℚ := d.units / 10 ^ d.scale

/-- The number is the value of an amount that the program can hold. -/
def Exact (q : ℚ) : Prop := ∃ d : Decimal, d.Fits ∧ d.value = q

theorem value_eq_zero {d : Decimal} (h : d.units = 0) : d.value = 0 := by
  simp [value, h]

theorem unitsAt_eq {d : Decimal} {scale : Nat} (h : d.scale ≤ scale) :
    (d.unitsAt scale : ℚ) = d.value * 10 ^ scale := by
  have hscale : (10 : ℚ) ^ scale = 10 ^ d.scale * 10 ^ (scale - d.scale) := by
    rw [← pow_add, Nat.add_sub_cancel' h]
  unfold unitsAt value
  rw [Int.cast_mul, Int.cast_natCast, cast_tenPow, hscale]
  field_simp

/-- Amounts are ordered as the numbers that they stand for. -/
theorem le_iff {a b : Decimal} : a.le b = true ↔ a.value ≤ b.value := by
  have ha := unitsAt_eq (Nat.le_max_left a.scale b.scale)
  have hb := unitsAt_eq (Nat.le_max_right a.scale b.scale)
  have hpos : (0 : ℚ) < 10 ^ max a.scale b.scale := by positivity
  rw [le, decide_eq_true_iff, ← Int.cast_le (R := ℚ), ha, hb, mul_le_mul_iff_left₀ hpos]

theorem lt_iff {a b : Decimal} : a.lt b = true ↔ a.value < b.value := by
  rw [lt, Bool.not_eq_true', ← Bool.not_eq_true, le_iff, not_le]

/-- The fewest digits to drop are no more than any number of zeros at the end that would do. -/
theorem excess?_mul_tenPow {n k scale : Nat} (hn : n < bound) (hk : k ≤ scale) :
    ∃ drop ≤ k, excess? (n * tenPow k) scale = some drop ∧
      n * tenPow (k - drop) < bound := by
  have hdiv : ∀ drop ≤ k, n * tenPow k / tenPow drop = n * tenPow (k - drop) := by
    intro drop hdrop
    have hsplit : n * tenPow k = n * tenPow (k - drop) * tenPow drop := by
      rw [Nat.mul_assoc, ← tenPow_add, Nat.sub_add_cancel hdrop]
    rw [hsplit, Nat.mul_div_cancel _ (tenPow_pos drop)]
  have hlast : decide (n * tenPow k / tenPow k < bound) = true := by
    simpa [hdiv k le_rfl, tenPow_zero] using hn
  unfold excess?
  cases hfind : (List.range (scale + 1)).find? fun drop => n * tenPow k / tenPow drop < bound with
  | none =>
      have hno := List.find?_eq_none.1 hfind k (List.mem_range.2 (by omega))
      exact absurd hlast hno
  | some drop =>
      obtain ⟨hdrop, -, hleast⟩ := List.find?_range_eq_some.1 hfind
      have hle : drop ≤ k := by
        by_contra hlt
        have hbad := hleast k (by omega)
        simp [hlast] at hbad
      refine ⟨drop, hle, rfl, ?_⟩
      rw [← hdiv drop hle]
      simpa using hdrop

theorem fit?_of_lt {magnitude : Nat} (h : magnitude < bound) (scale : Nat) :
    fit? magnitude scale = some (magnitude, scale) := by
  have hexcess : excess? magnitude scale = some 0 := by
    rw [excess?, List.range_succ_eq_map, List.find?_cons_of_pos]
    simpa [tenPow_zero] using h
  have hround : divHalfEven magnitude (tenPow 0) = magnitude := by
    simpa [tenPow_zero] using divHalfEven_mul magnitude (tenPow_pos 0)
  simp [fit?, hexcess, hround, h]

theorem fit?_mul_tenPow {n k scale : Nat} (hn : n < bound) (hk : k ≤ scale) :
    ∃ m s, fit? (n * tenPow k) scale = some (m, s) ∧
      (m / 10 ^ s : ℚ) = (n * tenPow k : ℕ) / 10 ^ scale := by
  obtain ⟨drop, hdrop, hexcess, hlt⟩ := excess?_mul_tenPow hn hk
  have hsplit : n * tenPow k = n * tenPow (k - drop) * tenPow drop := by
    rw [Nat.mul_assoc, ← tenPow_add, Nat.sub_add_cancel hdrop]
  have hround : divHalfEven (n * tenPow k) (tenPow drop) = n * tenPow (k - drop) := by
    rw [hsplit, divHalfEven_mul _ (tenPow_pos drop)]
  refine ⟨n * tenPow (k - drop), scale - drop, ?_, ?_⟩
  · simp [fit?, hexcess, hround, hlt]
  · have hscale : (10 : ℚ) ^ scale = 10 ^ (scale - drop) * 10 ^ drop := by
      rw [← pow_add, Nat.sub_add_cancel (by omega)]
    rw [hsplit, hscale]
    push_cast
    rw [cast_tenPow, cast_tenPow]
    field_simp

theorem eq_mul_tenPow {a b : Int} {m n : Nat} (h : a * (tenPow m : Int) = b * (tenPow n : Int))
    (hle : m ≤ n) : a = b * (tenPow (n - m) : Int) := by
  have hpos : (tenPow m : Int) ≠ 0 := by
    exact_mod_cast (tenPow_pos m).ne'
  refine mul_right_cancel₀ hpos ?_
  rw [h, mul_assoc]
  congr 1
  rw [← Nat.cast_mul, ← tenPow_add, Nat.sub_add_cancel hle]

/-- A magnitude whose value is exact is brought into 96 bits without a loss. -/
theorem fit?_of_exact {d : Decimal} {units : Int} {scale : Nat} (fits : d.Fits)
    (h : d.value = units / 10 ^ scale) :
    ∃ m s, fit? units.natAbs scale = some (m, s) ∧
      (m / 10 ^ s : ℚ) = (units.natAbs : ℕ) / 10 ^ scale := by
  have hcross : d.units * (tenPow scale : Int) = units * (tenPow d.scale : Int) := by
    have hq : (d.units : ℚ) * 10 ^ scale = units * 10 ^ d.scale := by
      rw [value, div_eq_div_iff (by positivity) (by positivity)] at h
      exact h
    rw [← cast_tenPow, ← cast_tenPow] at hq
    exact_mod_cast hq
  rcases Nat.le_total scale d.scale with hle | hle
  · have hunits : d.units = units * (tenPow (d.scale - scale) : Int) := eq_mul_tenPow hcross hle
    have hsmall : units.natAbs < bound := by
      refine lt_of_le_of_lt ?_ fits.1
      rw [hunits, Int.natAbs_mul, Int.natAbs_natCast]
      exact Nat.le_mul_of_pos_right _ (tenPow_pos _)
    simpa [tenPow_zero] using fit?_mul_tenPow hsmall (Nat.zero_le scale)
  · have hunits : units.natAbs = d.units.natAbs * tenPow (scale - d.scale) := by
      have hu : units = d.units * (tenPow (scale - d.scale) : Int) :=
        eq_mul_tenPow hcross.symm hle
      rw [hu, Int.natAbs_mul, Int.natAbs_natCast]
    rw [hunits]
    exact fit?_mul_tenPow fits.1 (Nat.sub_le _ _)

/-- A sum whose value is exact is formed exactly. -/
theorem value_add? {a b : Decimal} (h : Exact (a.value + b.value)) :
    ∃ c, a.add? b = some c ∧ c.value = a.value + b.value := by
  unfold add?
  by_cases ha : a.units = 0
  · exact ⟨b, by simp [ha], by rw [value_eq_zero ha, zero_add]⟩
  by_cases hb : b.units = 0
  · exact ⟨a, by simp [ha, hb], by rw [value_eq_zero hb, add_zero]⟩
  rw [if_neg ha, if_neg hb]
  obtain ⟨d, fits, hd⟩ := h
  have hsum : a.value + b.value =
      (a.unitsAt (max a.scale b.scale) + b.unitsAt (max a.scale b.scale) : ℤ) /
        10 ^ max a.scale b.scale := by
    rw [Int.cast_add, unitsAt_eq (Nat.le_max_left _ _), unitsAt_eq (Nat.le_max_right _ _),
      ← add_mul, mul_div_assoc, div_self (by positivity), mul_one]
  generalize hunits : a.unitsAt (max a.scale b.scale) + b.unitsAt (max a.scale b.scale) = units
    at hsum
  obtain ⟨m, s, hfit, hm⟩ := fit?_of_exact fits (hd.trans hsum)
  refine ⟨⟨withSign (units < 0) m, s⟩, by simp [hunits, hfit], ?_⟩
  rw [hsum]
  unfold value withSign
  by_cases hneg : units < 0
  · have habs : ((units.natAbs : ℕ) : ℚ) = -units := by
      rw [Nat.cast_natAbs, abs_of_neg hneg, Int.cast_neg]
    rw [habs, neg_div] at hm
    simp [hneg, neg_div, hm]
  · have habs : ((units.natAbs : ℕ) : ℚ) = units := by
      rw [Nat.cast_natAbs, abs_of_nonneg (not_lt.1 hneg)]
    rw [habs] at hm
    simp [hneg, hm]

/-- The sum of a list is formed exactly where the values of its beginnings are exact. -/
theorem value_sum? {amounts : List Decimal}
    (exact : ∀ first, first <+: amounts → Exact (first.map value).sum) :
    ∃ sum, sum? amounts = some sum ∧ sum.value = (amounts.map value).sum := by
  induction amounts using List.reverseRecOn with
  | nil => exact ⟨zero, rfl, by simp [value_eq_zero (d := zero) rfl]⟩
  | append_singleton first a ih =>
      obtain ⟨sum, hsum, hvalue⟩ := ih fun before hbefore =>
        exact before (hbefore.trans (List.prefix_append _ _))
      have hexact := exact (first ++ [a]) (List.prefix_refl _)
      rw [List.map_append, List.sum_append, ← hvalue, List.map_singleton, List.sum_singleton]
        at hexact
      obtain ⟨total, htotal, hvalue'⟩ := value_add? hexact
      refine ⟨total, ?_, ?_⟩
      · rw [sum?, List.foldlM_append, ← sum?, hsum]
        simpa using htotal
      · rw [hvalue', hvalue, List.map_append, List.sum_append, List.map_singleton,
          List.sum_singleton]

/-! ## Whole amounts -/

theorem fit?_whole (magnitude : Nat) :
    fit? magnitude 0 = if magnitude < bound then some (magnitude, 0) else none := by
  split_ifs with hlt
  · exact fit?_of_lt hlt 0
  · have hexcess : excess? magnitude 0 = none := by
      simpa [excess?, tenPow_zero] using hlt
    rw [fit?, hexcess]

/-- A sum of whole amounts is formed as long as it can be held. -/
theorem add?_whole {a b : Nat} (ha : a < bound) (hb : b < bound) :
    add? ⟨a, 0⟩ ⟨b, 0⟩ = if a + b < bound then some ⟨(a + b : ℕ), 0⟩ else none := by
  unfold add?
  by_cases hzero : a = 0
  · simp [hzero, hb]
  by_cases hzero' : b = 0
  · simp [hzero, hzero', ha]
  have hunits : unitsAt ⟨a, 0⟩ 0 + unitsAt ⟨b, 0⟩ 0 = (a + b : ℕ) := by
    simp [unitsAt, tenPow_zero]
  have hnonneg : ¬((a + b : ℕ) : ℤ) < 0 := by omega
  rw [if_neg (Int.natCast_ne_zero.2 hzero), if_neg (Int.natCast_ne_zero.2 hzero')]
  simp only [Nat.max_self, hunits, Int.natAbs_natCast, fit?_whole, withSign, hnonneg,
    decide_false, Bool.false_eq_true, if_false]
  split_ifs <;> rfl

theorem foldlM_whole {amounts : List Nat} (small : ∀ n ∈ amounts, n < bound) :
    ∀ {a : Nat}, a < bound →
      (amounts.map fun n : Nat => (⟨n, 0⟩ : Decimal)).foldlM add? ⟨a, 0⟩ =
        if a + amounts.sum < bound then some ⟨(a + amounts.sum : ℕ), 0⟩ else none := by
  induction amounts with
  | nil =>
      intro a ha
      simp [ha]
  | cons n amounts ih =>
      intro a ha
      rw [List.map_cons, List.foldlM_cons, add?_whole ha (small n List.mem_cons_self),
        List.sum_cons, ← Nat.add_assoc]
      split_ifs with hhead htotal htotal
      · exact (ih (fun n hn => small n (List.mem_cons_of_mem _ hn)) hhead).trans (if_pos htotal)
      · exact (ih (fun n hn => small n (List.mem_cons_of_mem _ hn)) hhead).trans (if_neg htotal)
      · omega
      · rfl

/-- Whole amounts add up exactly, or to more than can be held. -/
theorem sum?_whole {amounts : List Nat} (small : ∀ n ∈ amounts, n < bound) :
    sum? (amounts.map fun n : Nat => ⟨n, 0⟩) =
      if amounts.sum < bound then some ⟨amounts.sum, 0⟩ else none := by
  have h := foldlM_whole small (a := 0) (by decide)
  rwa [Nat.zero_add] at h

end Decimal

end Settlement
