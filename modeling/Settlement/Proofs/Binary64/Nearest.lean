import Mathlib.Algebra.Order.Field.Power
import Mathlib.Tactic.Linarith
import Mathlib.Tactic.Positivity
import Settlement.Binary64.Shortest
import Settlement.Proofs.Decimal.Value

/-!
# The nearest binary number

A fraction that is rounded to a binary number lies in the neighbourhood of that number, the reals
that round to it (`nearest?_spec`). The neighbourhood is no wider than one step of the number, and a
step is at most the fraction over `2 ^ 51`, so two numbers in it are close to each other
(`sub_le_of_contains`). Whole numbers of 53 bits are binary numbers themselves (`ofNat?_exact`).
-/

namespace Settlement

theorem cast_twoPow (n : Nat) : (twoPow n : ℚ) = 2 ^ n := by
  induction n with
  | zero => simp [twoPow_zero]
  | succ n ih => rw [twoPow_succ, Nat.cast_mul, ih, pow_succ, Nat.cast_ofNat]

/-- A power with an exponent of either sign, as the quotient of two powers without one. -/
theorem pow_toNat_div (b : ℚ) (k : ℤ) : b ^ k.toNat / b ^ (-k).toNat = b ^ k := by
  rcases Int.le_total 0 k with h | h
  · obtain ⟨n, rfl⟩ := Int.eq_ofNat_of_zero_le h
    simp
  · obtain ⟨n, hn⟩ := Int.eq_ofNat_of_zero_le (Int.neg_nonneg_of_nonpos h)
    obtain rfl : k = -(n : ℤ) := by omega
    simp

theorem twoPow_div (k : ℤ) : (twoPow k.toNat : ℚ) / twoPow (-k).toNat = 2 ^ k := by
  rw [cast_twoPow, cast_twoPow, pow_toNat_div]

theorem tenPow_div (k : ℤ) : (tenPow k.toNat : ℚ) / tenPow (-k).toNat = 10 ^ k := by
  rw [cast_tenPow, cast_tenPow, pow_toNat_div]

/-- A fraction over a power of either sign, as the quotient of two whole numbers. -/
theorem scaled_div {pow : Nat → Nat} {b : ℚ} {k : ℤ}
    (hpow : (pow k.toNat : ℚ) / pow (-k).toNat = b ^ k) (num den : Nat) :
    ((num * pow (-k).toNat : ℕ) : ℚ) / (den * pow k.toNat : ℕ) = num / den / b ^ k := by
  rw [← hpow, Nat.cast_mul, Nat.cast_mul, mul_div_mul_comm, div_div_eq_mul_div, mul_div_assoc]

/-- A quotient is at most a half away from what it is rounded to, and less than that when the
rounded one is odd. -/
theorem divHalfEven_near (num : Nat) {den : Nat} (pos : 0 < den) :
    2 * num ≤ 2 * (divHalfEven num den * den) + den ∧
      2 * (divHalfEven num den * den) ≤ 2 * num + den ∧
      (divHalfEven num den % 2 = 1 → 2 * num < 2 * (divHalfEven num den * den) + den ∧
        2 * (divHalfEven num den * den) < 2 * num + den) := by
  have hsplit : den * (num / den) + num % den = num := Nat.div_add_mod num den
  have hrest : num % den < den := Nat.mod_lt num pos
  rw [Nat.mul_comm] at hsplit
  unfold divHalfEven
  dsimp only
  split
  next hup =>
    rw [Nat.add_mul, Nat.one_mul]
    generalize num / den * den = product at *
    omega
  next hdown =>
    generalize num / den * den = product at *
    omega

theorem cast_divHalfEven (num : Nat) {den : Nat} (pos : 0 < den) :
    (divHalfEven num den : ℚ) - 1 / 2 ≤ num / den ∧ (num : ℚ) / den ≤ divHalfEven num den + 1 / 2 ∧
      (divHalfEven num den % 2 = 1 → (divHalfEven num den : ℚ) - 1 / 2 < num / den ∧
        (num : ℚ) / den < divHalfEven num den + 1 / 2) := by
  have hpos : (0 : ℚ) < den := Nat.cast_pos.2 pos
  obtain ⟨high, low, odd⟩ := divHalfEven_near num pos
  rw [← Nat.cast_le (α := ℚ)] at high low
  rw [← Nat.cast_lt (α := ℚ), ← Nat.cast_lt (α := ℚ)] at odd
  rw [le_div_iff₀ hpos, div_le_iff₀ hpos, lt_div_iff₀ hpos, div_lt_iff₀ hpos]
  push_cast at high low odd
  refine ⟨by linarith, by linarith, fun h => ?_⟩
  obtain ⟨high, low⟩ := odd h
  constructor <;> linarith

namespace Magnitude

/-- The number that is meant. -/
def value (x : Magnitude) : ℚ := x.mantissa * 2 ^ x.exponent

theorem num_div_den (x : Magnitude) : (x.num : ℚ) / x.den = x.value := by
  rw [num, den, Nat.cast_mul, mul_div_assoc, twoPow_div, value]

/-- The fraction that a quotient is rounded from. -/
theorem quotient_eq (x y : Magnitude) :
    ((x.num * y.den : ℕ) : ℚ) / (x.den * y.num : ℕ) = x.value / y.value := by
  rw [← num_div_den, ← num_div_den, Nat.cast_mul, Nat.cast_mul, div_div_div_eq]

namespace Neighbourhood

/-- The number lies in the interval, its ends included if they are. -/
def Contains (v : Neighbourhood) (q : ℚ) : Prop :=
  if v.ends then v.low / v.den ≤ q ∧ q ≤ v.high / v.den
  else v.low / v.den < q ∧ q < v.high / v.den

variable {v : Neighbourhood} {q : ℚ}

theorem Contains.low (h : v.Contains q) : (v.low : ℚ) / v.den ≤ q := by
  unfold Contains at h
  split at h
  · exact h.1
  · exact h.1.le

theorem Contains.high (h : v.Contains q) : q ≤ (v.high : ℚ) / v.den := by
  unfold Contains at h
  split at h
  · exact h.2
  · exact h.2.le

/-- What lies between two numbers of the interval lies in it. -/
theorem Contains.between {p r : ℚ} (hp : v.Contains p) (hr : v.Contains r) (hpq : p ≤ q)
    (hqr : q ≤ r) : v.Contains q := by
  unfold Contains at *
  split at hp
  next hends =>
    rw [if_pos hends] at hr ⊢
    exact ⟨hp.1.trans hpq, hqr.trans hr.2⟩
  next hends =>
    rw [if_neg hends] at hr ⊢
    exact ⟨hp.1.trans_le hpq, hqr.trans_lt hr.2⟩

end Neighbourhood

section

variable {x : Magnitude} {q r : ℚ}

/-- A step of the number is four units of its neighbourhood. -/
theorem unit_div_den (x : Magnitude) :
    (twoPow (x.exponent - 2).toNat : ℚ) / x.neighbourhood.den = 2 ^ x.exponent / 4 := by
  have hden : x.neighbourhood.den = twoPow (-(x.exponent - 2)).toNat :=
    congrArg (fun k : ℤ => twoPow k.toNat) (neg_sub x.exponent 2).symm
  rw [hden, twoPow_div, zpow_sub₀ two_ne_zero]
  norm_num

theorem high_div_den (x : Magnitude) :
    (x.neighbourhood.high : ℚ) / x.neighbourhood.den =
      (x.mantissa + 1 / 2) * 2 ^ x.exponent := by
  rw [show x.neighbourhood.high = (4 * x.mantissa + 2) * twoPow (x.exponent - 2).toNat from rfl]
  rw [Nat.cast_mul, mul_div_assoc, unit_div_den]
  push_cast
  ring

/-- What the interval reaches below the number, in quarters of a step. -/
def below (x : Magnitude) : Nat :=
  if x.mantissa = twoPow 52 ∧ x.exponent > minExponent then 1 else 2

theorem below_le (x : Magnitude) : 1 ≤ x.below ∧ x.below ≤ 2 := by
  unfold below
  split <;> omega

theorem low_div_den (hx : 1 ≤ x.mantissa) :
    (x.neighbourhood.low : ℚ) / x.neighbourhood.den =
      (x.mantissa - x.below / 4) * 2 ^ x.exponent := by
  have hbelow := x.below_le
  rw [show x.neighbourhood.low =
    (4 * x.mantissa - x.below) * twoPow (x.exponent - 2).toNat from rfl]
  rw [Nat.cast_mul, mul_div_assoc, unit_div_den, Nat.cast_sub (by omega)]
  push_cast
  ring

theorem value_div_den (x : Magnitude) :
    (x.neighbourhood.value : ℚ) / x.neighbourhood.den = x.value := by
  rw [show x.neighbourhood.value = 4 * x.mantissa * twoPow (x.exponent - 2).toNat from rfl]
  rw [Nat.cast_mul, mul_div_assoc, unit_div_den, value]
  push_cast
  ring

/-- A number lies in the neighbourhood of one that it is at most half a step away from, less if that
is odd; below the first number of its exponent the steps are halved. -/
theorem contains_of_near (hx : 1 ≤ x.mantissa)
    (low : x.mantissa - 1 / 2 ≤ q / 2 ^ x.exponent)
    (high : q / 2 ^ x.exponent ≤ x.mantissa + 1 / 2)
    (odd : x.mantissa % 2 = 1 →
      x.mantissa - 1 / 2 < q / 2 ^ x.exponent ∧ q / 2 ^ x.exponent < x.mantissa + 1 / 2)
    (edge : x.mantissa = twoPow 52 → x.mantissa - 1 / 4 ≤ q / 2 ^ x.exponent) :
    x.neighbourhood.Contains q := by
  have hstep : (0 : ℚ) < 2 ^ x.exponent := zpow_pos two_pos _
  have hends : x.neighbourhood.ends = (x.mantissa % 2 == 0) := rfl
  unfold Neighbourhood.Contains
  rw [high_div_den, low_div_den hx, hends]
  split
  next heven =>
    rw [← le_div_iff₀ hstep, ← div_le_iff₀ hstep]
    refine ⟨?_, high⟩
    unfold below
    split
    next hedge =>
      have := edge hedge.1
      push_cast
      linarith
    next =>
      push_cast
      linarith
  next hodd =>
    have hmod : x.mantissa % 2 = 1 := by
      rw [beq_iff_eq] at hodd
      omega
    have hbelow : x.below = 2 := by
      refine if_neg fun hedge => ?_
      rw [hedge.1] at hmod
      cases hmod
    rw [← lt_div_iff₀ hstep, ← div_lt_iff₀ hstep, hbelow]
    obtain ⟨hlow, hhigh⟩ := odd hmod
    refine ⟨?_, hhigh⟩
    push_cast
    linarith

theorem contains_value (hx : 1 ≤ x.mantissa) : x.neighbourhood.Contains x.value := by
  have hstep : (2 : ℚ) ^ x.exponent ≠ 0 := (zpow_pos two_pos _).ne'
  have hvalue : x.value / 2 ^ x.exponent = x.mantissa := mul_div_cancel_right₀ _ hstep
  refine contains_of_near hx ?_ ?_ (fun _ => ⟨?_, ?_⟩) fun _ => ?_ <;> rw [hvalue] <;> linarith

/-- Two numbers of a neighbourhood are at most a step apart. -/
theorem sub_le_of_contains (hx : 1 ≤ x.mantissa) (hq : x.neighbourhood.Contains q)
    (hr : x.neighbourhood.Contains r) : q - r ≤ 2 ^ x.exponent := by
  have hstep : (0 : ℚ) < 2 ^ x.exponent := zpow_pos two_pos _
  have hhigh := hq.high
  have hlow := hr.low
  rw [high_div_den] at hhigh
  rw [low_div_den hx] at hlow
  have hbelow : (x.below : ℚ) ≤ 2 := by exact_mod_cast x.below_le.2
  nlinarith

end

section

variable {num den : Nat}

theorem cast_log2 {n : Nat} (pos : 0 < n) :
    (2 : ℚ) ^ (n.log2 : ℤ) ≤ n ∧ (n : ℚ) < 2 ^ ((n.log2 : ℤ) + 1) := by
  have low : 2 ^ n.log2 ≤ n := Nat.log2_self_le pos.ne'
  have high : n < 2 ^ (n.log2 + 1) := Nat.lt_log2_self
  constructor
  · exact_mod_cast low
  · exact_mod_cast high

/-- The guessed exponent is right or one too large. -/
theorem guess_near (hnum : 0 < num) (hden : 0 < den) :
    (2 : ℚ) ^ ((num.log2 : ℤ) - den.log2 - 52 + 51) < num / den ∧
      (num : ℚ) / den < 2 ^ ((num.log2 : ℤ) - den.log2 - 52 + 53) := by
  obtain ⟨numLow, numHigh⟩ := cast_log2 hnum
  obtain ⟨denLow, denHigh⟩ := cast_log2 hden
  have hpos : (0 : ℚ) < den := Nat.cast_pos.2 hden
  constructor
  · rw [lt_div_iff₀ hpos]
    calc (2 : ℚ) ^ ((num.log2 : ℤ) - den.log2 - 52 + 51) * den
        < 2 ^ ((num.log2 : ℤ) - den.log2 - 52 + 51) * 2 ^ ((den.log2 : ℤ) + 1) :=
          mul_lt_mul_of_pos_left denHigh (zpow_pos two_pos _)
      _ = 2 ^ (num.log2 : ℤ) := by
          rw [← zpow_add₀ two_ne_zero]
          ring_nf
      _ ≤ num := numLow
  · rw [div_lt_iff₀ hpos]
    calc (num : ℚ) < 2 ^ ((num.log2 : ℤ) + 1) := numHigh
      _ = 2 ^ ((num.log2 : ℤ) - den.log2 - 52 + 53) * 2 ^ (den.log2 : ℤ) := by
          rw [← zpow_add₀ two_ne_zero]
          ring_nf
      _ ≤ 2 ^ ((num.log2 : ℤ) - den.log2 - 52 + 53) * den :=
          mul_le_mul_of_nonneg_left denLow (zpow_pos two_pos _).le

/-- The guess is tested without a division. -/
theorem guess_test (hden : 0 < den) (guess : ℤ) :
    num * twoPow (-guess).toNat < den * twoPow guess.toNat * twoPow 52 ↔
      (num : ℚ) / den < 2 ^ (guess + 52) := by
  have hden' : (0 : ℚ) < den := Nat.cast_pos.2 hden
  have hpow : (0 : ℚ) < twoPow (-guess).toNat := Nat.cast_pos.2 (twoPow_pos _)
  have hsplit : (2 : ℚ) ^ (guess + 52) =
      twoPow guess.toNat / twoPow (-guess).toNat * twoPow 52 := by
    rw [twoPow_div, cast_twoPow, zpow_add₀ two_ne_zero]
    norm_num
  rw [hsplit, div_lt_iff₀ hden', div_mul_eq_mul_div, div_mul_eq_mul_div, lt_div_iff₀ hpow,
    ← Nat.cast_lt (α := ℚ)]
  push_cast
  constructor <;> intro h <;> linarith

/-- Over the fitting exponent a fraction has 53 bits, unless it is too small for that. -/
theorem fittingExponent_spec (hnum : 0 < num) (hden : 0 < den)
    (normal : (2 : ℚ) ^ (-1022 : ℤ) ≤ num / den) :
    (2 : ℚ) ^ (fittingExponent num den + 52) ≤ num / den ∧
      (num : ℚ) / den < 2 ^ (fittingExponent num den + 53) := by
  obtain ⟨low, high⟩ := guess_near hnum hden
  have hfit : ∃ e : ℤ, fittingExponent num den = max e minExponent ∧
      (2 : ℚ) ^ (e + 52) ≤ num / den ∧ (num : ℚ) / den < 2 ^ (e + 53) := by
    unfold fittingExponent
    generalize (num.log2 : ℤ) - den.log2 - 52 = guess at low high
    refine ⟨_, rfl, ?_⟩
    rw [show (if num * twoPow (-guess).toNat < den * twoPow guess.toNat * twoPow 52 then guess - 1
      else guess) = if (num : ℚ) / den < 2 ^ (guess + 52) then guess - 1 else guess from
        if_congr (guess_test hden guess) rfl rfl]
    split
    next hsmall =>
      rw [show guess - 1 + 52 = guess + 51 by ring, show guess - 1 + 53 = guess + 52 by ring]
      exact ⟨low.le, hsmall⟩
    next hlarge => exact ⟨not_lt.1 hlarge, high⟩
  obtain ⟨e, hmax, hlow, hhigh⟩ := hfit
  have hmin : minExponent ≤ e := by
    have := (zpow_lt_zpow_iff_right₀ (one_lt_two (α := ℚ))).1 (normal.trans_lt hhigh)
    unfold minExponent
    omega
  rw [hmax, max_eq_left hmin]
  exact ⟨hlow, hhigh⟩

/-- The quotient that a fraction of 53 bits is rounded to has 53 bits, or it is the next power. -/
theorem mantissa_range {e : ℤ} {m : Nat} (low : (2 : ℚ) ^ (e + 52) ≤ num / den)
    (high : (num : ℚ) / den < 2 ^ (e + 53)) (below : (m : ℚ) - 1 / 2 ≤ num / den / 2 ^ e)
    (above : (num : ℚ) / den / 2 ^ e ≤ m + 1 / 2) : 2 ^ 52 ≤ m ∧ m ≤ 2 ^ 53 := by
  have hstep : (0 : ℚ) < 2 ^ e := zpow_pos two_pos _
  rw [zpow_add₀ two_ne_zero, mul_comm, ← le_div_iff₀ hstep, zpow_ofNat] at low
  rw [zpow_add₀ two_ne_zero, mul_comm, ← div_lt_iff₀ hstep, zpow_ofNat] at high
  have hlow : ((2 ^ 52 : ℕ) : ℚ) < (m + 1 : ℕ) := by
    push_cast
    linarith
  have hhigh : (m : ℚ) < (2 ^ 53 + 1 : ℕ) := by
    push_cast
    linarith
  exact ⟨Nat.lt_succ_iff.1 (Nat.cast_lt.1 hlow), Nat.lt_succ_iff.1 (Nat.cast_lt.1 hhigh)⟩

/-- A number just below a power of two that is rounded up to it lies in the neighbourhood of the
power, where the steps are twice as large. -/
theorem contains_carry {e : ℤ} {q : ℚ} (high : q < 2 ^ (e + 53))
    (below : ((2 ^ 53 : ℕ) : ℚ) - 1 / 2 ≤ q / 2 ^ e) :
    (⟨twoPow 52, e + 1⟩ : Magnitude).neighbourhood.Contains q := by
  have hstep : (0 : ℚ) < 2 ^ e := zpow_pos two_pos _
  rw [zpow_add₀ two_ne_zero, mul_comm, ← div_lt_iff₀ hstep, zpow_ofNat] at high
  push_cast at below
  have hhalf : q / 2 ^ (e + 1) = q / 2 ^ e / 2 := by
    rw [zpow_add_one₀ two_ne_zero, div_div _ (2 ^ e)]
  have htop : ((twoPow 52 : ℕ) : ℚ) = 2 ^ 52 := cast_twoPow 52
  have heven : twoPow 52 % 2 ≠ 1 := by decide
  refine contains_of_near (twoPow_pos 52) ?_ ?_ (fun h => absurd h heven) fun _ => ?_ <;>
    dsimp only <;> rw [hhalf, htop] <;> linarith

/-- A fraction within range is rounded to a number in whose neighbourhood it lies, with steps that
are small against it. -/
theorem nearest?_spec (hnum : 0 < num) (hden : 0 < den)
    (normal : (2 : ℚ) ^ (-1022 : ℤ) ≤ num / den) (small : (num : ℚ) / den < 2 ^ (1023 : ℤ)) :
    ∃ x, nearest? num den = some x ∧ 1 ≤ x.mantissa ∧ x.neighbourhood.Contains (num / den) ∧
      (2 : ℚ) ^ (x.exponent + 51) ≤ num / den := by
  obtain ⟨low, high⟩ := fittingExponent_spec hnum hden normal
  have hexponent : fittingExponent num den + 52 < 1023 :=
    (zpow_lt_zpow_iff_right₀ (one_lt_two (α := ℚ))).1 (low.trans_lt small)
  rw [nearest?, if_neg hnum.ne']
  generalize fittingExponent num den = e at low high hexponent
  have near := cast_divHalfEven (num * twoPow (-e).toNat) (Nat.mul_pos hden (twoPow_pos e.toNat))
  rw [scaled_div (twoPow_div e)] at near
  dsimp only
  generalize divHalfEven (num * twoPow (-e).toNat) (den * twoPow e.toNat) = m at near
  obtain ⟨below, above, odd⟩ := near
  obtain ⟨hlow, hhigh⟩ := mantissa_range low high below above
  split
  next hfits =>
    rw [if_pos (show e ≤ maxExponent by unfold maxExponent; omega)]
    refine ⟨⟨m, e⟩, rfl, by dsimp only; omega, ?_, ?_⟩
    · refine contains_of_near (by dsimp only; omega) below above odd fun hedge => ?_
      have hedge : (m : ℚ) = 2 ^ 52 := by
        rw [show m = 2 ^ 52 from hedge]
        norm_num
      rw [zpow_add₀ two_ne_zero, mul_comm, ← le_div_iff₀ (zpow_pos two_pos _), zpow_ofNat] at low
      dsimp only
      linarith
    · exact (zpow_le_zpow_right₀ one_le_two (by dsimp only; omega)).trans low
  next hcarry =>
    obtain rfl : m = 2 ^ 53 := Nat.le_antisymm hhigh (not_lt.1 hcarry)
    rw [if_pos (show e + 1 ≤ maxExponent by unfold maxExponent; omega)]
    refine ⟨⟨twoPow 52, e + 1⟩, rfl, twoPow_pos 52, contains_carry high below, ?_⟩
    rw [show e + 1 + 51 = e + 52 by ring]
    exact low

/-- A whole number of at most 53 bits is a binary number. -/
theorem ofNat?_exact {n : Nat} (pos : 0 < n) (small : n < 2 ^ 53) :
    ∃ x, ofNat? n = some x ∧ x.value = n := by
  have hlog : n.log2 < 53 := (Nat.log2_lt pos.ne').2 small
  have hfit : fittingExponent n 1 = -(52 - n.log2 : ℕ) := by
    have hlow : 2 ^ n.log2 ≤ n := Nat.log2_self_le pos.ne'
    have hguess : (n.log2 : ℤ) - (1 : ℕ).log2 - 52 = -(52 - n.log2 : ℕ) := by
      rw [show (1 : ℕ).log2 = 0 by decide]
      omega
    have hlarge : ¬n * twoPow (52 - n.log2) < 1 * twoPow 0 * twoPow 52 := by
      have hpow : 2 ^ n.log2 * 2 ^ (52 - n.log2) = 2 ^ 52 := by
        rw [← Nat.pow_add, Nat.add_sub_cancel' (Nat.lt_succ_iff.1 hlog)]
      refine not_lt.2 ?_
      calc 1 * twoPow 0 * twoPow 52 = 2 ^ n.log2 * 2 ^ (52 - n.log2) := hpow.symm
        _ ≤ n * twoPow (52 - n.log2) := Nat.mul_le_mul_right _ hlow
    unfold fittingExponent
    dsimp only
    rw [hguess, neg_neg, Int.toNat_natCast, Int.toNat_neg_natCast, if_neg hlarge]
    unfold minExponent
    omega
  have hmantissa : n * twoPow (52 - n.log2) < twoPow 53 := by
    have hhigh : n < 2 ^ (n.log2 + 1) := Nat.lt_log2_self
    have hpow : 2 ^ (n.log2 + 1) * 2 ^ (52 - n.log2) = 2 ^ 53 := by
      rw [← Nat.pow_add]
      congr 1
      omega
    calc n * twoPow (52 - n.log2) < 2 ^ (n.log2 + 1) * 2 ^ (52 - n.log2) :=
          Nat.mul_lt_mul_of_pos_right hhigh (Nat.two_pow_pos _)
      _ = twoPow 53 := hpow
  refine ⟨⟨n * twoPow (52 - n.log2), -(52 - n.log2 : ℕ)⟩, ?_, ?_⟩
  · have hexponent : -((52 - n.log2 : ℕ) : ℤ) ≤ maxExponent := by
      unfold maxExponent
      omega
    have hround : divHalfEven (n * twoPow (52 - n.log2)) (1 * twoPow 0) =
        n * twoPow (52 - n.log2) := by
      have := divHalfEven_mul (n * twoPow (52 - n.log2)) Nat.one_pos
      rwa [Nat.mul_one] at this
    rw [ofNat?, nearest?, if_neg pos.ne', hfit]
    simp only [neg_neg, Int.toNat_natCast, Int.toNat_neg_natCast, hround, hmantissa, hexponent,
      if_true]
  · rw [value]
    push_cast
    rw [cast_twoPow, zpow_neg, zpow_natCast, mul_assoc, mul_inv_cancel₀ (by positivity), mul_one]

end

end Magnitude

end Settlement
