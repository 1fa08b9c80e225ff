import Settlement.Proofs.Binary64.Digits
import Settlement.Proofs.Binary64.Nearest

/-!
# Decimals that survive

A decimal that rounds to a binary number is its shortest one, up to zeros at the end, when no other
decimal with as many places rounds to it (`shortest_spec`). The search for the shortest decimal
tries two candidates for each count of digits, the neighbours of the number; since the reals that
round to the number form an interval, one of them is found whenever any decimal is.
-/

namespace Settlement.Magnitude

namespace Neighbourhood

variable {v : Neighbourhood}

/-- The search tests whether the decimal lies in the interval. -/
theorem holds_iff (hden : 0 < v.den) (count : Nat) (shift : ℤ) :
    v.holds count shift = true ↔ v.Contains (count * 10 ^ shift) := by
  have hden' : (0 : ℚ) < v.den := Nat.cast_pos.2 hden
  have hscale : (0 : ℚ) < tenPow (-shift).toNat := Nat.cast_pos.2 (tenPow_pos _)
  have hlow : ∀ b : Nat, (b : ℚ) / v.den ≤ count * 10 ^ shift ↔
      b * tenPow (-shift).toNat ≤ count * v.den * tenPow shift.toNat := by
    intro b
    rw [← tenPow_div, ← mul_div_assoc, div_le_div_iff₀ hden' hscale, ← Nat.cast_le (α := ℚ)]
    push_cast
    rw [mul_right_comm (count : ℚ)]
  have hhigh : ∀ b : Nat, count * 10 ^ shift ≤ (b : ℚ) / v.den ↔
      count * v.den * tenPow shift.toNat ≤ b * tenPow (-shift).toNat := by
    intro b
    rw [← tenPow_div, ← mul_div_assoc, div_le_div_iff₀ hscale hden', ← Nat.cast_le (α := ℚ)]
    push_cast
    rw [mul_right_comm (count : ℚ)]
  unfold holds Contains
  dsimp only
  split
  next => rw [hlow, hhigh, Bool.and_eq_true, decide_eq_true_eq, decide_eq_true_eq]
  next =>
    rw [Bool.and_eq_true, decide_eq_true_eq, decide_eq_true_eq, ← not_le, ← not_le, ← hlow, ← hhigh,
      not_le, not_le]

/-- If any decimal with so many digits lies in the interval, a neighbour of the value does. -/
theorem decimal?_isSome (hden : 0 < v.den) (value : v.Contains (v.value / v.den))
    {places count : Nat} (h : v.Contains (count * 10 ^ (v.point - places))) :
    (v.decimal? places).isSome = true := by
  unfold decimal?
  generalize v.point - (places : ℤ) = shift at h
  dsimp only
  have hpos : 0 < v.den * tenPow shift.toNat := Nat.mul_pos hden (tenPow_pos _)
  have hbelow := Nat.div_mul_le_self (v.value * tenPow (-shift).toNat) (v.den * tenPow shift.toNat)
  have habove := Nat.lt_div_mul_add (a := v.value * tenPow (-shift).toNat) hpos
  generalize v.value * tenPow (-shift).toNat / (v.den * tenPow shift.toNat) = below at hbelow habove
  have hstep : (0 : ℚ) < 10 ^ shift := zpow_pos (by norm_num) _
  have hquotient := scaled_div (tenPow_div shift) v.value v.den
  have hpos' : (0 : ℚ) < (v.den * tenPow shift.toNat : ℕ) := Nat.cast_pos.2 hpos
  have hlow : (below : ℚ) * 10 ^ shift ≤ v.value / v.den := by
    rw [← le_div_iff₀ hstep, ← hquotient, le_div_iff₀ hpos']
    exact_mod_cast hbelow
  have hhigh : (v.value : ℚ) / v.den ≤ (below + 1 : ℕ) * 10 ^ shift := by
    rw [← div_le_iff₀ hstep, ← hquotient, div_le_iff₀ hpos', ← Nat.cast_mul, Nat.cast_le,
      Nat.succ_mul]
    exact habove.le
  have hfound : v.holds below shift = true ∨ v.holds (below + 1) shift = true := by
    rw [holds_iff hden, holds_iff hden]
    rcases Nat.lt_or_ge below count with hlt | hle
    · have hcount : ((below + 1 : ℕ) : ℚ) ≤ count := Nat.cast_le.2 hlt
      exact Or.inr (value.between h hhigh (mul_le_mul_of_nonneg_right hcount hstep.le))
    · have hcount : (count : ℚ) ≤ below := Nat.cast_le.2 hle
      exact Or.inl (h.between value (mul_le_mul_of_nonneg_right hcount hstep.le) hlow)
  split
  next => rfl
  next => rfl
  next => rfl
  next hfst hsnd =>
    rw [hfst, hsnd] at hfound
    simp at hfound

theorem neg_lt_point {p : Nat} (hp : p < 400) (h : v.den ≤ v.value * tenPow p) :
    -(p : ℤ) < v.point := by
  unfold point
  dsimp only
  split
  next =>
    have := Nat.length_toDigits_pos (b := 10) (n := v.value / v.den)
    omega
  next =>
    split
    next shift hfind =>
      obtain ⟨-, -, hleast⟩ := List.find?_range_eq_some.1 hfind
      have hle : shift ≤ p := by
        by_contra hlt
        have := hleast p (by omega)
        simp only [ge_iff_le, Bool.not_eq_true', decide_eq_false_iff_not] at this
        exact this h
      omega
    next hfind =>
      have := List.find?_eq_none.1 hfind p (List.mem_range.2 hp)
      simp only [ge_iff_le, decide_eq_true_eq] at this
      exact absurd h this

theorem point_le {k : Nat} (hk : 0 < k) (h : v.value < tenPow k * v.den) : v.point ≤ k := by
  unfold point
  dsimp only
  split
  next =>
    have : (Nat.toDigits 10 (v.value / v.den)).length ≤ k :=
      (Nat.length_toDigits_le_iff (by decide) hk).2 (Nat.div_lt_of_lt_mul (by rwa [Nat.mul_comm]))
    exact_mod_cast this
  next =>
    split <;> omega

/-- A search through a range ends at the first number that gives something. -/
theorem findSome?_range_le {β : Type} {f : Nat → Option β} {b : β} {n k : Nat} (hk : k < n)
    (some_k : (f k).isSome = true) (h : (List.range n).findSome? f = some b) :
    ∃ i ≤ k, f i = some b := by
  obtain ⟨before, i, after, hsplit, hi, hbefore⟩ := List.findSome?_eq_some_iff.1 h
  refine ⟨i, not_lt.1 fun hlt => ?_, hi⟩
  have hsorted : (before ++ i :: after).Pairwise (· < ·) := hsplit ▸ List.pairwise_lt_range
  have hmem : k ∈ before ++ i :: after := hsplit ▸ List.mem_range.2 hk
  obtain ⟨-, htail, -⟩ := List.pairwise_append.1 hsorted
  rcases List.mem_append.1 hmem with hmem | hmem
  · rw [hbefore k hmem] at some_k
    cases some_k
  · rcases List.mem_cons.1 hmem with rfl | hmem
    · exact lt_irrefl _ hlt
    · exact lt_asymm hlt (List.rel_of_pairwise_cons htail hmem)

/-- The search finds a decimal with no more digits than any other in the interval has. -/
theorem exists_of_search (hden : 0 < v.den) (value : v.Contains (v.value / v.den))
    {places count : Nat} (pos : 0 < places) (few : places ≤ 17)
    (h : v.Contains (count * 10 ^ (v.point - places))) :
    ∃ least found : Nat, 0 < least ∧ least ≤ places ∧ v.Contains (found * 10 ^ (v.point - least)) ∧
      ((List.range 17).findSome? fun n => v.decimal? (n + 1)) = some (found, v.point - least) := by
  have hplaces : places - 1 + 1 = places := Nat.sub_add_cancel pos
  have hlt : places - 1 < 17 := by omega
  have hsome : (v.decimal? (places - 1 + 1)).isSome = true := by
    rw [hplaces]
    exact decimal?_isSome hden value h
  cases hfind : (List.range 17).findSome? fun n => v.decimal? (n + 1) with
  | none =>
      rw [List.findSome?_eq_none_iff.1 hfind (places - 1) (List.mem_range.2 hlt)] at hsome
      cases hsome
  | some decimal =>
      obtain ⟨found, shift⟩ := decimal
      obtain ⟨n, hle, hn⟩ := findSome?_range_le hlt hsome hfind
      obtain ⟨rfl, hholds⟩ := holds_of_decimal? hn
      exact ⟨n + 1, found, Nat.succ_pos n, by omega, (holds_iff hden _ _).1 hholds, rfl⟩

end Neighbourhood

/-- Only zeros are taken off. -/
theorem significant_zeros (digits : List Char) :
    ∃ zeros, digits = significant digits ++ List.replicate zeros '0' := by
  refine ⟨(digits.reverse.takeWhile (· == '0')).length, ?_⟩
  have hzeros : digits.reverse.takeWhile (· == '0') =
      List.replicate (digits.reverse.takeWhile (· == '0')).length '0' :=
    List.eq_replicate_of_mem fun c hc =>
      beq_iff_eq.1 (List.all_eq_true.1 List.all_takeWhile c hc)
  calc digits = (digits.reverse.takeWhile (· == '0') ++
        digits.reverse.dropWhile (· == '0')).reverse := by
        rw [List.takeWhile_append_dropWhile, List.reverse_reverse]
    _ = significant digits ++ (digits.reverse.takeWhile (· == '0')).reverse := List.reverse_append
    _ = _ := by rw [hzeros, List.reverse_replicate, List.length_replicate]

variable {x : Magnitude}

/-- When the steps of a number are smaller than `10 ^ -p`, at most one multiple of `10 ^ -p` rounds to
it. -/
theorem eq_of_contains {m n p : Nat} (hx : 1 ≤ x.mantissa)
    (alone : (2 : ℚ) ^ x.exponent < 1 / 10 ^ p)
    (hm : x.neighbourhood.Contains ((m : ℚ) / 10 ^ p))
    (hn : x.neighbourhood.Contains ((n : ℚ) / 10 ^ p)) : m = n := by
  have hten : (0 : ℚ) < 10 ^ p := by positivity
  have habove := (sub_le_of_contains hx hm hn).trans_lt alone
  have hbelow := (sub_le_of_contains hx hn hm).trans_lt alone
  rw [← sub_div, div_lt_div_iff_of_pos_right hten, sub_lt_iff_lt_add] at habove hbelow
  have habove' : m < 1 + n := by exact_mod_cast habove
  have hbelow' : n < 1 + m := by exact_mod_cast hbelow
  omega

/-- A multiple of `10 ^ -p` that rounds to a number is its shortest decimal, without zeros at the
end, if the steps of the number are smaller than `10 ^ -p`. -/
theorem shortest_spec {n p : Nat} (hx : 1 ≤ x.mantissa) (pos : 0 < n)
    (rounds : x.neighbourhood.Contains (n / 10 ^ p)) (alone : (2 : ℚ) ^ x.exponent < 1 / 10 ^ p)
    (reach : 0 < x.neighbourhood.point + p) (few : x.neighbourhood.point + p ≤ 17) :
    ∃ (digits : List Char) (zeros : Nat), x.shortest = ⟨digits, digits.length + zeros - p⟩ ∧
      Leading digits ∧ Nat.ofDigitChars 10 digits 0 * 10 ^ zeros = n := by
  have hden : 0 < x.neighbourhood.den := twoPow_pos _
  have hvalue : x.neighbourhood.Contains (x.neighbourhood.value / x.neighbourhood.den) := by
    rw [value_div_den]
    exact contains_value hx
  obtain ⟨places, hplaces⟩ : ∃ k : ℕ, x.neighbourhood.point + p = k :=
    Int.eq_ofNat_of_zero_le reach.le
  have hshift : x.neighbourhood.point - places = -(p : ℤ) := by omega
  have hgrid : x.neighbourhood.Contains ((n : ℚ) * 10 ^ (x.neighbourhood.point - places)) := by
    rwa [hshift, zpow_neg, zpow_natCast, ← div_eq_mul_inv]
  obtain ⟨least, found, hleast, hle, hfound, hsearch⟩ :=
    Neighbourhood.exists_of_search hden hvalue (by omega) (by omega) hgrid
  -- the decimal that was found and the given one are multiples of one power
  obtain ⟨s, hs⟩ : ∃ s : ℕ, x.neighbourhood.point - least = s - (p : ℤ) :=
    ⟨places - least, by omega⟩
  have hcount : (found : ℚ) * 10 ^ (x.neighbourhood.point - least) =
      (found * 10 ^ s : ℕ) / 10 ^ p := by
    rw [hs, zpow_sub₀ (by norm_num), zpow_natCast, zpow_natCast]
    push_cast
    ring
  rw [hcount] at hfound
  have hsame : found * 10 ^ s = n := eq_of_contains hx alone hfound rounds
  obtain ⟨k, hk⟩ := significant_zeros (Nat.toDigits 10 found)
  have hpos : 0 < found := Nat.pos_of_ne_zero fun hzero => by
    rw [hzero, Nat.zero_mul] at hsame
    omega
  refine ⟨significant (Nat.toDigits 10 found), k + s, ?_,
    leading_significant (leading_toDigits hpos), ?_⟩
  · have hlength := congrArg List.length hk
    rw [List.length_append, List.length_replicate] at hlength
    rw [shortest, if_neg (by omega), hsearch]
    simp only [DecimalDigits.mk.injEq, true_and]
    omega
  · have hdigits := Nat.ofDigitChars_ten_toDigits (n := found)
    rw [hk, Nat.ofDigitChars_append, Nat.ofDigitChars_replicate_zero] at hdigits
    calc Nat.ofDigitChars 10 (significant (Nat.toDigits 10 found)) 0 * 10 ^ (k + s)
        = 10 ^ k * Nat.ofDigitChars 10 (significant (Nat.toDigits 10 found)) 0 * 10 ^ s := by ring
      _ = n := by rw [hdigits, hsame]

end Settlement.Magnitude
