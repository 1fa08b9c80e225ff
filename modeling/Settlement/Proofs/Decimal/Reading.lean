import Settlement.Decimal.Text
import Settlement.Proofs.Digits

/-!
# Reading an amount

Digits with at most 28 of them behind the point are read as the amount that they stand for, if that
has no more than 96 bits (`ofChars?_pointed`). With an exponent behind them they are not read
(`ofChars?_pointed_mark`).
-/

namespace Settlement.Decimal

/-- What has been read once more digits have come. -/
def Reading.further (r : Reading) (digits : List Char) : Reading :=
  ⟨Nat.ofDigitChars 10 digits r.digits, if r.pointed then r.places + digits.length else r.places,
    r.pointed, r.started || !digits.isEmpty⟩

/-- Digits are read one by one while they fit. -/
theorem run?_digits {digits : List Char} (isDigit : ∀ c ∈ digits, c.isDigit = true)
    (rest : List Char) : ∀ r : Reading, Nat.ofDigitChars 10 digits r.digits < bound →
      (r.pointed = true → r.places + digits.length ≤ maxScale) →
      r.run? (digits ++ rest) = (r.further digits).run? rest := by
  induction digits with
  | nil =>
      intro r _ _
      rw [Reading.further]
      simp
  | cons c digits ih =>
      intro r fits places
      have hc := isDigit c List.mem_cons_self
      have hpush : 10 * r.digits + (c.toNat - '0'.toNat) =
          r.digits * 10 + (c.toNat - '0'.toNat) := by
        rw [Nat.mul_comm]
      rw [Nat.ofDigitChars_cons, hpush] at fits
      have hfull : r.full (c.toNat - '0'.toNat) = false := by
        have hdigit := Nat.lt_of_le_of_lt (le_ofDigitChars digits _) fits
        have hplaces : r.pointed = true → r.places < maxScale := fun h => by
          have := places h
          rw [List.length_cons] at this
          omega
        simp only [Reading.full, Bool.or_eq_false_iff, Bool.and_eq_false_iff,
          decide_eq_false_iff_not, ge_iff_le, Nat.not_le]
        refine ⟨?_, hdigit⟩
        cases hpointed : r.pointed with
        | false => exact Or.inl rfl
        | true => exact Or.inr (hplaces hpointed)
      have hstep : r.run? (c :: (digits ++ rest)) =
          (r.push (c.toNat - '0'.toNat)).run? (digits ++ rest) := by
        rw [Reading.run?, if_pos hc]
        simp only [hfull, Bool.not_false, if_true]
      rw [List.cons_append, hstep, ih (fun d hd => isDigit d (List.mem_cons_of_mem c hd)) _ fits]
      · congr 1
        rw [Reading.further, Reading.further, Nat.ofDigitChars_cons, hpush]
        cases hpointed : r.pointed <;> simp [Reading.push, hpointed]
        omega
      · intro hpointed
        have := places hpointed
        rw [List.length_cons] at this
        simp only [Reading.push] at hpointed ⊢
        rw [if_pos hpointed]
        omega

section

variable {whole fraction : List Char}

/-- A text that starts with a digit has no sign. -/
theorem ofChars?_unsigned (isDigit : ∀ c ∈ whole, c.isDigit = true) (ne_nil : whole ≠ [])
    (rest : List Char) : ofChars? (whole ++ rest) =
      (Reading.empty.run? (whole ++ rest)).map fun (digits, places) => ⟨digits, places⟩ := by
  obtain ⟨c, cs, rfl⟩ := List.exists_cons_of_ne_nil ne_nil
  have hc := isDigit c List.mem_cons_self
  have hminus : c ≠ '-' := by
    rintro rfl
    cases hc
  have hplus : c ≠ '+' := by
    rintro rfl
    cases hc
  simp [ofChars?, hminus, hplus, withSign]

/-- What is read up to the end of the digits behind the point. -/
theorem run?_pointed (isDigit : ∀ c ∈ whole ++ fraction, c.isDigit = true) (ne_nil : whole ≠ [])
    (fits : Nat.ofDigitChars 10 (whole ++ fraction) 0 < bound)
    (places : fraction.length ≤ maxScale) (rest : List Char) :
    Reading.empty.run? (whole ++ '.' :: (fraction ++ rest)) =
      Reading.run? ⟨Nat.ofDigitChars 10 (whole ++ fraction) 0, fraction.length, true, true⟩
        rest := by
  have hwhole : ∀ c ∈ whole, c.isDigit = true := fun c hc => isDigit c (List.mem_append_left _ hc)
  have hfraction : ∀ c ∈ fraction, c.isDigit = true := fun c hc =>
    isDigit c (List.mem_append_right _ hc)
  rw [Nat.ofDigitChars_append] at fits ⊢
  have hfits := Nat.lt_of_le_of_lt (le_ofDigitChars fraction _) fits
  have hstart := run?_digits hwhole ('.' :: (fraction ++ rest)) Reading.empty hfits nofun
  have hpoint : (Reading.empty.further whole).run? ('.' :: (fraction ++ rest)) =
      Reading.run? ⟨Nat.ofDigitChars 10 whole 0, 0, true, true⟩ (fraction ++ rest) := by
    have hdot : '.'.isDigit = false := rfl
    have hstarted : whole.isEmpty = false := by simpa using ne_nil
    simp [Reading.run?, Reading.further, Reading.empty, hdot, hstarted]
  have hend := run?_digits hfraction rest ⟨Nat.ofDigitChars 10 whole 0, 0, true, true⟩ fits
    fun _ => by simpa using places
  rw [hstart, hpoint, hend]
  simp [Reading.further]

theorem ofChars?_pointed (isDigit : ∀ c ∈ whole ++ fraction, c.isDigit = true) (ne_nil : whole ≠ [])
    (fits : Nat.ofDigitChars 10 (whole ++ fraction) 0 < bound)
    (places : fraction.length ≤ maxScale) :
    ofChars? (whole ++ '.' :: fraction) =
      some ⟨Nat.ofDigitChars 10 (whole ++ fraction) 0, fraction.length⟩ := by
  have hrun := run?_pointed isDigit ne_nil fits places []
  rw [List.append_nil] at hrun
  rw [ofChars?_unsigned (fun c hc => isDigit c (List.mem_append_left _ hc)) ne_nil, hrun]
  simp [Reading.run?]

/-! ## Exponents -/

/-- The mark of an exponent is no part of a number without one. -/
theorem run?_mark (r : Reading) (rest : List Char) : r.run? ('e' :: rest) = none := by
  have hmark : 'e'.isDigit = false := rfl
  simp [Reading.run?, hmark]

theorem ofChars?_whole_mark (isDigit : ∀ c ∈ whole, c.isDigit = true) (ne_nil : whole ≠ [])
    (fits : Nat.ofDigitChars 10 whole 0 < bound) (rest : List Char) :
    ofChars? (whole ++ 'e' :: rest) = none := by
  rw [ofChars?_unsigned isDigit ne_nil, run?_digits isDigit _ Reading.empty fits nofun, run?_mark]
  rfl

theorem ofChars?_pointed_mark (isDigit : ∀ c ∈ whole ++ fraction, c.isDigit = true)
    (ne_nil : whole ≠ []) (fits : Nat.ofDigitChars 10 (whole ++ fraction) 0 < bound)
    (places : fraction.length ≤ maxScale) (rest : List Char) :
    ofChars? (whole ++ '.' :: (fraction ++ 'e' :: rest)) = none := by
  rw [ofChars?_unsigned (fun c hc => isDigit c (List.mem_append_left _ hc)) ne_nil,
    run?_pointed isDigit ne_nil fits places, run?_mark]
  rfl

end

end Settlement.Decimal
