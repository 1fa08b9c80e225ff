import Settlement.Binary64.Shortest
import Settlement.Proofs.Digits

/-!
# The digits of a shortest decimal

The digits of a shortest decimal start with one that is not zero, unless they are a lone zero before
the point (`digits_shortest`). So they make a number text without a superfluous zero at its front,
whether they have an exponent or the point stands among them; in the latter case zeros may fill the
way to the point (`positional_digits`).
-/

namespace Settlement

/-- With the point among the digits they stand for the same number, and as many of them stand behind
it as before. -/
theorem DecimalDigits.positional_digits (d : DecimalDigits) :
    Nat.ofDigitChars 10 (d.positional.1 ++ d.positional.2) 0 =
        Nat.ofDigitChars 10 d.digits 0 * 10 ^ (d.point - d.digits.length).toNat ∧
      d.positional.2.length = (d.digits.length - d.point).toNat := by
  unfold positional
  split
  next hpoint =>
    have hzeros : (d.point - d.digits.length).toNat = 0 := by omega
    have hfront : Nat.ofDigitChars 10 ['0'] 0 = 0 := rfl
    constructor
    · rw [Nat.ofDigitChars_append, hfront, Nat.ofDigitChars_append,
        Nat.ofDigitChars_replicate_zero, Nat.mul_zero, hzeros, Nat.pow_zero, Nat.mul_one]
    · rw [List.length_append, List.length_replicate]
      omega
  next hpoint =>
    dsimp only
    rcases Nat.le_total d.point.toNat d.digits.length with hle | hle
    · have hzeros : (d.point - d.digits.length).toNat = 0 := by omega
      rw [List.length_take, List.length_drop, Nat.min_eq_left hle, Nat.sub_self,
        List.replicate_zero, List.append_nil, List.take_append_drop, hzeros, Nat.pow_zero,
        Nat.mul_one]
      exact ⟨rfl, by omega⟩
    · have hzeros : d.point.toNat - d.digits.length = (d.point - d.digits.length).toNat := by omega
      rw [List.take_of_length_le hle, List.drop_of_length_le hle, List.append_nil,
        Nat.ofDigitChars_append, Nat.ofDigitChars_replicate_zero, hzeros, Nat.mul_comm]
      refine ⟨rfl, ?_⟩
      rw [List.length_nil]
      omega

namespace Magnitude

/-- Taking the zeros at the end off leaves the first digit where it is. -/
theorem leading_significant {digits : List Char} (h : Leading digits) :
    Leading (significant digits) := by
  obtain ⟨isDigit, ne_nil, head_ne⟩ := h
  obtain ⟨c, cs, rfl⟩ := List.exists_cons_of_ne_nil ne_nil
  have hc : c ≠ '0' := fun hc => head_ne (congrArg some hc)
  have hsplit : significant (c :: cs) = c :: significant cs := by
    unfold significant
    rw [List.reverse_cons, List.dropWhile_append]
    split
    next hempty =>
      rw [List.isEmpty_iff.1 hempty, List.dropWhile_cons_of_neg (by simpa using hc)]
      rfl
    next => simp
  have hsub : ∀ d ∈ significant cs, d ∈ cs := fun d hd =>
    List.mem_reverse.1 ((List.dropWhile_sublist _).subset (List.mem_reverse.1 hd))
  rw [hsplit]
  refine ⟨?_, List.cons_ne_nil _ _, head_ne⟩
  rintro d (- | ⟨_, hd⟩)
  · exact isDigit c List.mem_cons_self
  · exact isDigit d (List.mem_cons_of_mem _ (hsub d hd))

theorem low_pos {x : Magnitude} (h : x.mantissa ≠ 0) : 0 < x.neighbourhood.low := by
  refine Nat.mul_pos ?_ (twoPow_pos _)
  split <;> omega

namespace Neighbourhood

variable {v : Neighbourhood}

theorem pos_of_holds {count : Nat} {shift : Int} (low : 0 < v.low)
    (h : v.holds count shift = true) : 0 < count := by
  have hscale : 0 < v.low * tenPow (-shift).toNat := Nat.mul_pos low (tenPow_pos _)
  refine Nat.pos_of_ne_zero fun hzero => ?_
  subst hzero
  unfold holds at h
  split at h <;> simp only [Nat.zero_mul, Bool.and_eq_true, decide_eq_true_eq] at h <;> omega

/-- The decimal that is chosen lies in the interval. -/
theorem holds_of_decimal? {places count : Nat} {shift : Int}
    (h : v.decimal? places = some (count, shift)) :
    shift = v.point - places ∧ v.holds count shift = true := by
  unfold decimal? at h
  dsimp only at h
  split at h
  next hbelow habove =>
    simp only [Option.some.injEq, Prod.mk.injEq] at h
    obtain ⟨hcount, rfl⟩ := h
    refine ⟨rfl, ?_⟩
    split at hcount <;> subst hcount <;> assumption
  next hbelow habove =>
    obtain ⟨rfl, rfl⟩ := Prod.mk.inj (Option.some.inj h)
    exact ⟨rfl, hbelow⟩
  next hbelow habove =>
    obtain ⟨rfl, rfl⟩ := Prod.mk.inj (Option.some.inj h)
    exact ⟨rfl, habove⟩
  next => cases h

end Neighbourhood

/-- The digits of the shortest decimal start with one that is not zero, or they are a lone zero. -/
theorem digits_shortest (x : Magnitude) :
    Leading x.shortest.digits ∨ x.shortest = ⟨['0'], 1⟩ := by
  unfold shortest
  split
  next => exact Or.inr rfl
  next hmantissa =>
    split
    next count shift hfind =>
      obtain ⟨places, -, hdecimal⟩ := List.exists_of_findSome?_eq_some hfind
      have holds := (Neighbourhood.holds_of_decimal? hdecimal).2
      exact Or.inl (leading_significant (leading_toDigits
        (Neighbourhood.pos_of_holds (low_pos hmantissa) holds)))
    next => exact Or.inr rfl

end Magnitude

end Settlement
