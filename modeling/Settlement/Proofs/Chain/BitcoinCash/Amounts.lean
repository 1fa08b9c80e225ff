import Settlement.Chain.BitcoinCash.Node
import Settlement.Proofs.Binary64.Shortest
import Settlement.Proofs.Decimal.Reading
import Settlement.Proofs.Json.Printing

/-!
# Amounts in whole coins

A node writes an amount of satoshis in whole coins, with eight decimals (`coins`). It is read as a
binary number, printed as the shortest decimal that stands for this number and read again as an
amount, which is then multiplied and cut. For all amounts up to the 21 million coins that there can
be, the steps of the binary numbers are smaller than a satoshi, so the decimal that is printed is
the one that was written. It is printed with an exponent if it is less than a thousand satoshis and
not zero (`Dust`), and an exponent is not read: dust is refused, and all other amounts come back as
they were (`satoshis_coins`).
-/

namespace Settlement.BitcoinCash

open Json

/-- The number of satoshis `n`, written in whole coins with eight decimals. -/
def coins (n : Nat) : WrittenNumber :=
  (parts_toDigits (n / satsPerCoin) (isDigit_padded 8 (n % satsPerCoin))).number false none

example : String.ofList (coins 100000).chars = "0.00100000" := by decide +kernel

/-- The satoshis of 21 million coins. -/
def supply : Nat := 2100000000000000

/-! ## The binary number -/

theorem length_fraction (n : Nat) : (coins n).fraction.length = 8 :=
  length_padded (by decide) (Nat.mod_lt n (by decide))

theorem ofDigitChars_coins (n : Nat) :
    Nat.ofDigitChars 10 ((coins n).whole ++ (coins n).fraction) 0 = n := by
  have hfraction : Nat.ofDigitChars 10 (coins n).fraction 0 = n % satsPerCoin :=
    ofDigitChars_padded 8 _
  have hwhole : Nat.ofDigitChars 10 (coins n).whole 0 = n / satsPerCoin :=
    Nat.ofDigitChars_ten_toDigits
  have hsplit := Nat.div_add_mod n satsPerCoin
  rw [Nat.ofDigitChars_append, Nat.ofDigitChars_eq_ofDigitChars_zero, hwhole, hfraction,
    length_fraction]
  exact hsplit

/-- The amount is read as the quotient of two binary numbers. -/
theorem doc_coins {n : Nat} (h : n < 2 ^ 64) {x : Magnitude}
    (quotient : ((Magnitude.ofNat? n).bind fun x =>
      (Magnitude.ofNat? (tenPow 8)).bind x.div?) = some x) :
    (coins n).doc = .number (.ok (.real ⟨false, x⟩)) := by
  have hfraction : ((coins n).fraction.map digitValue).isEmpty = false := by
    rw [List.isEmpty_eq_false_iff, ne_eq, List.map_eq_nil_iff, ← List.length_eq_zero_iff,
      length_fraction]
    decide
  have hnumeral : (coins n).numeral =
      ⟨false, (coins n).whole.map digitValue, (coins n).fraction.map digitValue, none⟩ := rfl
  have hreal : (coins n).numeral.real? = some x := by
    rw [hnumeral, real?_pointed false _ _ (by rwa [ofDigitChars_coins]), ofDigitChars_coins,
      length_fraction, ← quotient]
    exact Option.bind_congr fun count _ => scaled?_neg 8 count (by decide) (by decide)
  have hnumber : (coins n).numeral.number? = some (.real ⟨false, x⟩) := by
    rw [Numeral.number?, hreal, hnumeral]
    simp only [hfraction, Bool.false_and, Bool.false_eq_true, if_false, Option.map_some]
  rw [WrittenNumber.doc, hnumber]

section

variable {n : Nat}

/-- The binary number of an amount, with steps that are smaller than a satoshi. -/
theorem exists_nearest (two : 2 ≤ n) (most : n ≤ supply) :
    ∃ x : Magnitude, (coins n).doc = .number (.ok (.real ⟨false, x⟩)) ∧ 1 ≤ x.mantissa ∧
      x.neighbourhood.Contains (n / 10 ^ 8) ∧ (2 : ℚ) ^ (x.exponent + 51) ≤ n / 10 ^ 8 := by
  have hsupply : supply = 2100000000000000 := rfl
  obtain ⟨count, hcount, hn⟩ := Magnitude.ofNat?_exact (n := n) (by omega) (by omega)
  obtain ⟨power, hpower, h8⟩ := Magnitude.ofNat?_exact (tenPow_pos 8) (by decide)
  have hquotient :
      ((count.num * power.den : ℕ) : ℚ) / (count.den * power.num : ℕ) = n / 10 ^ 8 := by
    rw [Magnitude.quotient_eq, hn, h8, cast_tenPow]
  have htwo : (2 : ℚ) ≤ n := by exact_mod_cast two
  have hmost : (n : ℚ) ≤ 2100000000000000 := by exact_mod_cast most
  have hpositive : ((count.num * power.den : ℕ) : ℚ) / (count.den * power.num : ℕ) ≠ 0 := by
    rw [hquotient]
    positivity
  obtain ⟨hnum, hden⟩ := div_ne_zero_iff.1 hpositive
  have hnormal : (2 : ℚ) ^ (-1022 : ℤ) ≤ n / 10 ^ 8 := by
    calc (2 : ℚ) ^ (-1022 : ℤ) ≤ 2 ^ (-26 : ℤ) := zpow_le_zpow_right₀ one_le_two (by decide)
      _ ≤ 2 / 10 ^ 8 := by norm_num
      _ ≤ n / 10 ^ 8 := div_le_div_of_nonneg_right htwo (by positivity)
  have hsmall : (n : ℚ) / 10 ^ 8 < 2 ^ (1023 : ℤ) := by
    calc (n : ℚ) / 10 ^ 8 ≤ 2100000000000000 / 10 ^ 8 :=
          div_le_div_of_nonneg_right hmost (by positivity)
      _ < 2 ^ (25 : ℤ) := by norm_num
      _ ≤ 2 ^ (1023 : ℤ) := zpow_le_zpow_right₀ one_le_two (by decide)
  obtain ⟨x, hx, positive, contains, step⟩ := Magnitude.nearest?_spec
    (Nat.pos_of_ne_zero (Nat.cast_ne_zero.1 hnum)) (Nat.pos_of_ne_zero (Nat.cast_ne_zero.1 hden))
    (hquotient ▸ hnormal) (hquotient ▸ hsmall)
  rw [hquotient] at contains step
  refine ⟨x, doc_coins (by omega) ?_, positive, contains, step⟩
  rw [hcount, Option.bind_some, hpower, Option.bind_some]
  exact hx

/-- The decimal point of the number stands where eight decimals and at most 17 digits are seen. -/
theorem point_near {x : Magnitude} (two : 2 ≤ n) (most : n ≤ supply) (positive : 1 ≤ x.mantissa)
    (contains : x.neighbourhood.Contains (n / 10 ^ 8))
    (step : (2 : ℚ) ^ (x.exponent + 51) ≤ n / 10 ^ 8) :
    0 < x.neighbourhood.point + (8 : ℕ) ∧ x.neighbourhood.point + (8 : ℕ) ≤ 17 := by
  have htwo : (2 : ℚ) ≤ n := by exact_mod_cast two
  have hmost : (n : ℚ) ≤ 2100000000000000 := by exact_mod_cast most
  have hden : (0 : ℚ) < x.neighbourhood.den := Nat.cast_pos.2 (twoPow_pos _)
  have hstep : (2 : ℚ) ^ x.exponent * 2 ^ 51 ≤ n / 10 ^ 8 := by
    rwa [zpow_add₀ two_ne_zero, zpow_ofNat] at step
  have value := Magnitude.contains_value positive
  have above := Magnitude.sub_le_of_contains positive value contains
  have below := Magnitude.sub_le_of_contains positive contains value
  rw [← Magnitude.value_div_den] at above below
  constructor
  · have hreach : x.neighbourhood.den ≤ x.neighbourhood.value * tenPow 8 := by
      have : (1 : ℚ) / 10 ^ 8 ≤ x.neighbourhood.value / x.neighbourhood.den := by
        norm_num at hstep below ⊢
        linarith
      rw [div_le_div_iff₀ (by positivity) hden, one_mul] at this
      exact_mod_cast this
    have := Magnitude.Neighbourhood.neg_lt_point (p := 8) (by decide) hreach
    omega
  · have hfew : x.neighbourhood.value < tenPow 9 * x.neighbourhood.den := by
      have : (x.neighbourhood.value : ℚ) / x.neighbourhood.den < 10 ^ 9 := by
        norm_num at hstep above ⊢
        linarith
      rw [div_lt_iff₀ hden] at this
      exact_mod_cast this
    have := Magnitude.Neighbourhood.point_le (k := 9) (by decide) hfew
    omega

/-- The shortest decimal of the binary number is the amount that was written. -/
theorem shortest_coins {x : Magnitude} (two : 2 ≤ n) (most : n ≤ supply)
    (positive : 1 ≤ x.mantissa) (contains : x.neighbourhood.Contains (n / 10 ^ 8))
    (step : (2 : ℚ) ^ (x.exponent + 51) ≤ n / 10 ^ 8) :
    ∃ (digits : List Char) (zeros : Nat), x.shortest = ⟨digits, digits.length + zeros - (8 : ℕ)⟩ ∧
      Leading digits ∧ Nat.ofDigitChars 10 digits 0 * 10 ^ zeros = n := by
  have hmost : (n : ℚ) ≤ 2100000000000000 := by exact_mod_cast most
  have alone : (2 : ℚ) ^ x.exponent < 1 / 10 ^ 8 := by
    rw [zpow_add₀ two_ne_zero, zpow_ofNat] at step
    norm_num at step ⊢
    linarith
  obtain ⟨reach, few⟩ := point_near two most positive contains step
  exact Magnitude.shortest_spec positive (by omega) contains alone reach few

/-! ## The text of the number -/

theorem small_units {digits : List Char} {zeros : Nat} (most : n ≤ supply)
    (value : Nat.ofDigitChars 10 digits 0 * 10 ^ zeros = n) :
    Nat.ofDigitChars 10 digits 0 ≤ supply := by
  have hpos : 0 < 10 ^ zeros := Nat.pow_pos (by decide)
  exact (Nat.le_mul_of_pos_right _ hpos).trans (value.le.trans most)

/-- Around the point stand the digits, as many of them behind it as there are decimals that are not
zeros at the end, and zeros before it for those that are left over. -/
theorem positional_shortest {x : Magnitude} {digits : List Char} {zeros : Nat}
    (shortest : x.shortest = ⟨digits, digits.length + zeros - (8 : ℕ)⟩) :
    Nat.ofDigitChars 10 (x.shortest.positional.1 ++ x.shortest.positional.2) 0 =
        Nat.ofDigitChars 10 digits 0 * 10 ^ (zeros - 8) ∧
      x.shortest.positional.2.length = 8 - zeros := by
  obtain ⟨hdigits, hlength⟩ := x.shortest.positional_digits
  have hpoint : x.shortest.point = digits.length + zeros - (8 : ℕ) := by rw [shortest]
  have hcount : x.shortest.digits = digits := by rw [shortest]
  have hzeros : (x.shortest.point - digits.length).toNat = zeros - 8 := by omega
  rw [hcount] at hdigits hlength
  rw [hdigits, hlength, hzeros]
  exact ⟨rfl, by omega⟩

/-- The shortest decimal with a point among its digits is read as the amount. -/
theorem amount_positional {x : Magnitude} {digits : List Char} {zeros : Nat} (most : n ≤ supply)
    (shortest : x.shortest = ⟨digits, digits.length + zeros - (8 : ℕ)⟩)
    (value : Nat.ofDigitChars 10 digits 0 * 10 ^ zeros = n) :
    ∃ units scale : Nat, scale ≤ 8 ∧ units * 10 ^ 8 = n * 10 ^ scale ∧
      Decimal.ofChars? (x.shortest.positional.1 ++ '.' ::
        (if x.shortest.positional.2.isEmpty then ['0'] else x.shortest.positional.2)) =
          some ⟨units, scale⟩ := by
  have hbound : supply * 10 < Decimal.bound := by decide
  have parts := (parts_positional x).pointed
  obtain ⟨hdigits, hbehind⟩ := positional_shortest shortest
  rcases Nat.lt_or_ge zeros 8 with hfew | hmany
  · have hfraction : x.shortest.positional.2.isEmpty = false := by
      rw [List.isEmpty_eq_false_iff, ne_eq, ← List.length_eq_zero_iff]
      omega
    rw [Nat.sub_eq_zero_of_le hfew.le, Nat.pow_zero, Nat.mul_one] at hdigits
    rw [hfraction] at parts ⊢
    refine ⟨_, _, ?_, ?_, Decimal.ofChars?_pointed parts.isDigit parts.whole_ne ?_ ?_⟩
    all_goals simp only [Bool.false_eq_true, if_false, hdigits, hbehind]
    · omega
    · rw [← value, Nat.mul_assoc, ← Nat.pow_add, Nat.add_sub_cancel' hfew.le]
    · exact (small_units most value).trans_lt
        ((Nat.le_mul_of_pos_right _ (by decide)).trans_lt hbound)
    · exact (Nat.sub_le _ _).trans (by decide)
  · have hfraction : x.shortest.positional.2 = [] := by
      rw [← List.length_eq_zero_iff]
      omega
    rw [hfraction, List.append_nil] at hdigits
    have hzero : Nat.ofDigitChars 10 (x.shortest.positional.1 ++ ['0']) 0 =
        Nat.ofDigitChars 10 digits 0 * 10 ^ (zeros - 8) * 10 := by
      rw [Nat.ofDigitChars_append, hdigits, Nat.mul_comm _ 10]
      rfl
    have hvalue : Nat.ofDigitChars 10 digits 0 * 10 ^ (zeros - 8) * 10 ^ 8 = n := by
      rw [Nat.mul_assoc, ← Nat.pow_add, Nat.sub_add_cancel hmany, value]
    rw [hfraction] at parts ⊢
    refine ⟨_, _, ?_, ?_, Decimal.ofChars?_pointed parts.isDigit parts.whole_ne ?_ ?_⟩
    all_goals simp only [List.isEmpty_nil, if_true, List.length_singleton, hzero]
    · decide
    · rw [← hvalue, pow_one, mul_right_comm]
    · have hle : Nat.ofDigitChars 10 digits 0 * 10 ^ (zeros - 8) ≤ n :=
        (Nat.le_mul_of_pos_right _ (by decide)).trans hvalue.le
      exact (Nat.mul_le_mul_right 10 (hle.trans most)).trans_lt hbound
    · decide

/-- Of less than a thousand satoshis, at most three of the eight decimals are not zeros in front. -/
theorem thousand_le_iff {digits : List Char} {zeros : Nat} (leading : Leading digits)
    (value : Nat.ofDigitChars 10 digits 0 * 10 ^ zeros = n) :
    1000 ≤ n ↔ 4 ≤ digits.length + zeros := by
  have hlength := List.length_pos_of_ne_nil leading.ne_nil
  constructor
  · intro hmany
    by_contra hfew
    have hsmall : n < 10 ^ 3 := by
      calc n = Nat.ofDigitChars 10 digits 0 * 10 ^ zeros := value.symm
        _ < 10 ^ digits.length * 10 ^ zeros :=
          Nat.mul_lt_mul_of_pos_right (ofDigitChars_lt_tenPow leading.isDigit)
            (Nat.pow_pos (by decide))
        _ = 10 ^ (digits.length + zeros) := (Nat.pow_add _ _ _).symm
        _ ≤ 10 ^ 3 := Nat.pow_le_pow_right (by decide) (by omega)
    omega
  · intro hmany
    calc 1000 = 10 ^ 3 := by decide
      _ ≤ 10 ^ (digits.length - 1 + zeros) := Nat.pow_le_pow_right (by decide) (by omega)
      _ = 10 ^ (digits.length - 1) * 10 ^ zeros := Nat.pow_add _ _ _
      _ ≤ Nat.ofDigitChars 10 digits 0 * 10 ^ zeros :=
        Nat.mul_le_mul_right _ (tenPow_le_of_leading leading)
      _ = n := value

/-- No amount has so many digits that it would be printed with a positive exponent. -/
theorem point_lt {digits : List Char} {zeros : Nat} (most : n ≤ supply) (leading : Leading digits)
    (value : Nat.ofDigitChars 10 digits 0 * 10 ^ zeros = n) : digits.length + zeros < 25 := by
  by_contra hmany
  have hlow : 10 ^ 24 ≤ n := by
    calc 10 ^ 24 ≤ 10 ^ (digits.length - 1 + zeros) :=
          Nat.pow_le_pow_right (by decide) (by omega)
      _ = 10 ^ (digits.length - 1) * 10 ^ zeros := Nat.pow_add _ _ _
      _ ≤ Nat.ofDigitChars 10 digits 0 * 10 ^ zeros :=
          Nat.mul_le_mul_right _ (tenPow_le_of_leading leading)
      _ = n := value
  exact absurd (hlow.trans most) (by decide)

/-- The shortest decimal with an exponent is no amount, whatever the exponent. -/
theorem unread_exponent {x : Magnitude} (leading : Leading x.shortest.digits)
    (few : x.shortest.digits.length ≤ 28)
    (fits : Nat.ofDigitChars 10 x.shortest.digits 0 < Decimal.bound)
    (range : ¬(-5 ≤ x.shortest.point - 1 ∧ x.shortest.point - 1 < 16)) :
    Decimal.ofText? (Binary64.text ⟨false, x⟩) = none := by
  unfold Binary64.text
  dsimp only
  rw [if_neg range, Decimal.ofText?, Binary64.signed, String.toList_ofList]
  generalize x.shortest.digits = digits at leading few fits
  rcases digits with _ | ⟨d, _ | ⟨d', rest⟩⟩
  · exact absurd rfl leading.ne_nil
  · exact Decimal.ofChars?_whole_mark leading.isDigit leading.ne_nil fits _
  · have places : (d' :: rest).length ≤ Decimal.maxScale := (Nat.le_succ _).trans few
    have unread (behind : List Char) :
        Decimal.ofChars? ([d] ++ '.' :: ((d' :: rest) ++ 'e' :: behind)) = none :=
      Decimal.ofChars?_pointed_mark leading.isDigit (List.cons_ne_nil _ _) fits places behind
    simpa using unread _

/-! ## The satoshis -/

/-- The amounts whose numbers are printed with an exponent: the ones below a thousand satoshis. -/
def Dust (n : Nat) : Prop := 0 < n ∧ n < 1000

instance (n : Nat) : Decidable (Dust n) := inferInstanceAs (Decidable (_ ∧ _))

/-- The text that is printed for an amount once it has been read as a number. -/
def printed (n : Nat) : String :=
  match (coins n).doc with
  | .number (.ok x) => x.text
  | _ => ""

example : printed 100000 = "0.001" := by decide +kernel

example : printed 546 = "5.46e-06" := by decide +kernel

/-- The text of the binary number is read as the amount that was written, unless that is dust. -/
theorem read_text {x : Magnitude} (two : 2 ≤ n) (most : n ≤ supply) (positive : 1 ≤ x.mantissa)
    (contains : x.neighbourhood.Contains (n / 10 ^ 8))
    (step : (2 : ℚ) ^ (x.exponent + 51) ≤ n / 10 ^ 8) :
    (n < 1000 → Decimal.ofText? (Binary64.text ⟨false, x⟩) = none) ∧
      (1000 ≤ n → ∃ units scale : Nat,
        Decimal.ofText? (Binary64.text ⟨false, x⟩) = some ⟨units, scale⟩ ∧ scale ≤ 8 ∧
          units * 10 ^ 8 = n * 10 ^ scale) := by
  obtain ⟨digits, zeros, shortest, leading, value⟩ :=
    shortest_coins two most positive contains step
  have hmany := thousand_le_iff leading value
  have hfew := point_lt most leading value
  have hpoint : x.shortest.point = digits.length + zeros - (8 : ℕ) := by rw [shortest]
  constructor
  · intro small
    have hfits := (small_units most value).trans_lt (show supply < Decimal.bound by decide)
    have hdigits : x.shortest.digits = digits := by rw [shortest]
    refine unread_exponent ?_ ?_ ?_ (by omega)
    all_goals rw [hdigits]
    · exact leading
    · omega
    · exact hfits
  · intro large
    obtain ⟨units, scale, few, exact', read⟩ := amount_positional most shortest value
    refine ⟨units, scale, ?_, few, exact'⟩
    unfold Binary64.text
    dsimp only
    rw [if_pos (by omega), Decimal.ofText?, Binary64.signed, String.toList_ofList]
    exact read

/-- An amount is read as a number whose text is no amount if it is dust, and else is the amount. -/
theorem exists_number (most : n ≤ supply) :
    ∃ x : Number, (coins n).doc = .number (.ok x) ∧
      (Dust n → Decimal.ofText? x.text = none) ∧
      (¬Dust n → ∃ units scale : Nat, Decimal.ofText? x.text = some ⟨units, scale⟩ ∧ scale ≤ 8 ∧
        units * 10 ^ 8 = n * 10 ^ scale) := by
  match n with
  | 0 =>
      refine ⟨.real ⟨false, Magnitude.zero⟩, doc_coins (by decide) (by decide +kernel),
        fun dust => absurd dust (by decide), fun _ => ?_⟩
      exact ⟨0, 1, by decide +kernel, by decide, rfl⟩
  | 1 =>
      refine ⟨.real ⟨false, ⟨6044629098073146, -79⟩⟩, doc_coins (by decide) (by decide +kernel),
        fun _ => by decide +kernel, fun other => absurd (by decide) other⟩
  | n + 2 =>
      have two : 2 ≤ n + 2 := Nat.le_add_left 2 n
      obtain ⟨x, doc, positive, contains, step⟩ := exists_nearest two most
      obtain ⟨small, large⟩ := read_text two most positive contains step
      refine ⟨.real ⟨false, x⟩, doc, fun dust => small dust.2, fun other => large ?_⟩
      exact Nat.le_of_not_lt fun h => other ⟨Nat.succ_pos _, h⟩

/-- An amount in whole coins that is scaled to satoshis and cut is the number of them. -/
theorem trunc_scale? {units scale : Nat} (most : n ≤ supply) (few : scale ≤ 8)
    (value : units * 10 ^ 8 = n * 10 ^ scale) :
    ∃ d, (Decimal.mk units scale).scale? satsPerCoin = some d ∧ d.trunc = ⟨n, 0⟩ := by
  rw [Decimal.scale?]
  split
  next hzero =>
    obtain rfl : units = 0 := by
      rcases hzero with hzero | hzero
      · exact Int.natCast_eq_zero.1 hzero
      · cases hzero
    obtain rfl : n = 0 := by
      rw [Nat.zero_mul] at value
      exact (Nat.mul_eq_zero.1 value.symm).resolve_right (Nat.pow_pos (by decide)).ne'
    exact ⟨_, rfl, rfl⟩
  next =>
    have hunits : units * 10 ^ 8 < Decimal.bound := by
      calc units * 10 ^ 8 = n * 10 ^ scale := value
        _ ≤ supply * 10 ^ 8 := Nat.mul_le_mul most (Nat.pow_le_pow_right (by decide) few)
        _ < Decimal.bound := by decide
    have hnegative : ¬((units : ℤ) < 0) := by omega
    have hpow : (tenPow scale : ℤ) ≠ 0 := by exact_mod_cast (tenPow_pos scale).ne'
    refine ⟨⟨(units * 10 ^ 8 : ℕ), scale⟩, ?_, ?_⟩
    · change (Decimal.fit? (units * 10 ^ 8) scale).map _ = _
      rw [Decimal.fit?_of_lt hunits scale]
      simp [Decimal.withSign, hnegative]
    · rw [Decimal.trunc, value]
      congr 1
      rw [Nat.cast_mul]
      exact Int.mul_tdiv_cancel _ hpow

/-- An amount that a node writes is read as the satoshis that it was written for, unless it is
dust, which is refused. -/
theorem satoshis_coins (most : n ≤ supply) :
    ∃ x, (coins n).doc = .number (.ok x) ∧
      satoshis x = if Dust n then .error (.badValue (printed n)) else .ok ⟨n, 0⟩ := by
  obtain ⟨x, doc, unread, reads⟩ := exists_number most
  refine ⟨x, doc, ?_⟩
  split
  next dust => rw [satoshis, unread dust, printed, doc]
  next other =>
    obtain ⟨units, scale, read, few, value⟩ := reads other
    obtain ⟨d, hd, hn⟩ := trunc_scale? most few value
    rw [satoshis, read]
    dsimp only
    rw [hd]
    dsimp only
    rw [hn]

end

end Settlement.BitcoinCash
