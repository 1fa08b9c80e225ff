import Mathlib.Algebra.Ring.Nat

/-!
# Decimal digits

The number that a row of digits stands for is `Nat.ofDigitChars`. Zeros at its front count nothing;
a row is `Leading` when it has none. A number may be padded with them to a fixed count of digits
(`padded`). Rows of one length are in the order of their numbers (`lt_of_ofDigitChars_lt`).
-/

namespace Settlement

/-! ## First digits -/

/-- Decimal digits of which the first is not zero. -/
structure Leading (digits : List Char) : Prop where
  isDigit : ∀ c ∈ digits, c.isDigit = true
  ne_nil : digits ≠ []
  head_ne : digits.head? ≠ some '0'

theorem digitChar_ne_zero : ∀ n < 10, 0 < n → Nat.digitChar n ≠ '0' := by
  decide

theorem leading_toDigits {n : Nat} (h : 0 < n) : Leading (Nat.toDigits 10 n) where
  isDigit c hc := Nat.isDigit_of_mem_toDigits (by decide) (by decide) hc
  ne_nil := Nat.toDigits_ne_nil
  head_ne := by
    induction n using Nat.strongRecOn with
    | ind n ih =>
        rw [Nat.toDigits_eq_if (by decide)]
        split
        next hsmall =>
          intro hhead
          exact digitChar_ne_zero n hsmall h (Option.some.inj hhead)
        next hlarge =>
          rw [List.head?_append, Option.or_of_isSome (List.isSome_head?.2 Nat.toDigits_ne_nil)]
          exact ih (n / 10) (by omega) (by omega)

theorem leading_take {digits : List Char} (h : Leading digits) {n : Nat} (pos : 0 < n) :
    Leading (digits.take n) where
  isDigit c hc := h.isDigit c (List.mem_of_mem_take hc)
  ne_nil := by
    rw [ne_eq, List.take_eq_nil_iff, not_or]
    exact ⟨Nat.ne_of_gt pos, h.ne_nil⟩
  head_ne := by
    rw [List.head?_take, if_neg (Nat.ne_of_gt pos)]
    exact h.head_ne

theorem isDigit_replicate (n : Nat) : ∀ c ∈ List.replicate n '0', c.isDigit = true := by
  intro c hc
  rw [List.eq_of_mem_replicate hc]
  rfl

theorem leading_append_zeros {digits : List Char} (h : Leading digits) (n : Nat) :
    Leading (digits ++ List.replicate n '0') where
  isDigit c hc := (List.mem_append.1 hc).elim (h.isDigit c) (isDigit_replicate n c)
  ne_nil := by simp [h.ne_nil]
  head_ne := by
    rw [List.head?_append, Option.or_of_isSome (List.isSome_head?.2 h.ne_nil)]
    exact h.head_ne

/-- A row of digits counts at least its first place. -/
theorem tenPow_le_of_leading {digits : List Char} (h : Leading digits) :
    10 ^ (digits.length - 1) ≤ Nat.ofDigitChars 10 digits 0 := by
  obtain ⟨isDigit, ne_nil, head_ne⟩ := h
  obtain ⟨c, cs, rfl⟩ := List.exists_cons_of_ne_nil ne_nil
  have hdigit := Char.isDigit_iff_toNat.1 (isDigit c List.mem_cons_self)
  have hzero : c.toNat ≠ '0'.toNat := fun h => head_ne (congrArg some (Char.toNat_inj.1 h))
  have hfirst : 1 ≤ 10 * 0 + (c.toNat - '0'.toNat) := by omega
  rw [Nat.ofDigitChars_cons, Nat.ofDigitChars_eq_ofDigitChars_zero, List.length_cons,
    Nat.add_sub_cancel]
  calc 10 ^ cs.length = 10 ^ cs.length * 1 := (Nat.mul_one _).symm
    _ ≤ 10 ^ cs.length * (10 * 0 + (c.toNat - '0'.toNat)) := Nat.mul_le_mul_left _ hfirst
    _ ≤ _ := Nat.le_add_right _ _

/-! ## Numbers -/

theorem ofDigitChars_cons_zero (c : Char) (cs : List Char) :
    Nat.ofDigitChars 10 (c :: cs) 0 =
      10 ^ cs.length * (c.toNat - '0'.toNat) + Nat.ofDigitChars 10 cs 0 := by
  rw [Nat.ofDigitChars_cons, Nat.ofDigitChars_eq_ofDigitChars_zero, Nat.mul_zero, Nat.zero_add]

/-- A row of digits has room for no more than its places. -/
theorem ofDigitChars_lt_tenPow {ds : List Char} (h : ∀ c ∈ ds, c.isDigit = true) :
    Nat.ofDigitChars 10 ds 0 < 10 ^ ds.length := by
  induction ds with
  | nil => decide
  | cons c cs ih =>
      obtain ⟨hc, hcs⟩ := List.forall_mem_cons.1 h
      have hnine : c.toNat - '0'.toNat + 1 ≤ 10 :=
        Nat.succ_le_succ (Nat.sub_le_sub_right (Char.isDigit_iff_toNat.1 hc).2 '0'.toNat)
      rw [ofDigitChars_cons_zero, List.length_cons, Nat.pow_succ]
      calc 10 ^ cs.length * (c.toNat - '0'.toNat) + Nat.ofDigitChars 10 cs 0
          < 10 ^ cs.length * (c.toNat - '0'.toNat) + 10 ^ cs.length :=
            Nat.add_lt_add_left (ih hcs) _
        _ = 10 ^ cs.length * (c.toNat - '0'.toNat + 1) := (Nat.mul_succ _ _).symm
        _ ≤ 10 ^ cs.length * 10 := Nat.mul_le_mul_left _ hnine

/-- Of two rows of digits of one length, that of the smaller number comes first. -/
theorem lt_of_ofDigitChars_lt {ds es : List Char} (hds : ∀ c ∈ ds, c.isDigit = true)
    (hes : ∀ c ∈ es, c.isDigit = true) (length : ds.length = es.length)
    (h : Nat.ofDigitChars 10 ds 0 < Nat.ofDigitChars 10 es 0) : ds < es := by
  induction ds generalizing es with
  | nil =>
      obtain rfl := List.eq_nil_of_length_eq_zero length.symm
      exact absurd h (Nat.lt_irrefl _)
  | cons c cs ih =>
      obtain ⟨e, rest, rfl⟩ := List.exists_cons_of_length_eq_add_one length.symm
      obtain ⟨hc, hcs⟩ := List.forall_mem_cons.1 hds
      obtain ⟨he, hrest⟩ := List.forall_mem_cons.1 hes
      have hlength : cs.length = rest.length := Nat.succ.inj length
      have hsmall := ofDigitChars_lt_tenPow hrest
      rw [ofDigitChars_cons_zero, ofDigitChars_cons_zero, hlength] at h
      rw [List.cons_lt_cons_iff]
      rcases Nat.lt_trichotomy c.toNat e.toNat with hlt | heq | hgt
      · exact Or.inl (Char.lt_def.2 hlt)
      · rw [heq] at h
        exact Or.inr ⟨Char.toNat_inj.1 heq, ih hcs hrest hlength (Nat.lt_of_add_lt_add_left h)⟩
      · -- a greater first digit is not made up for by the places behind it
        have hzero := (Char.isDigit_iff_toNat.1 he).1
        have hstep : e.toNat - '0'.toNat + 1 ≤ c.toNat - '0'.toNat := by omega
        have hmul := Nat.mul_le_mul_left (10 ^ rest.length) hstep
        rw [Nat.mul_succ] at hmul
        omega

theorem le_ofDigitChars (ds : List Char) (n : Nat) : n ≤ Nat.ofDigitChars 10 ds n := by
  rw [Nat.ofDigitChars_eq_ofDigitChars_zero]
  exact Nat.le_trans (Nat.le_mul_of_pos_left n (Nat.pow_pos (by decide))) (Nat.le_add_right _ _)

/-- The digits of a number behind as many zeros as make them `places` digits. -/
def padded (places n : Nat) : List Char :=
  List.replicate (places - (Nat.toDigits 10 n).length) '0' ++ Nat.toDigits 10 n

theorem isDigit_padded (places n : Nat) : ∀ c ∈ padded places n, c.isDigit = true := by
  intro c hc
  rcases List.mem_append.1 hc with hzero | hdigit
  · exact isDigit_replicate _ c hzero
  · exact Nat.isDigit_of_mem_toDigits (by decide) (by decide) hdigit

theorem ofDigitChars_padded (places n : Nat) : Nat.ofDigitChars 10 (padded places n) 0 = n := by
  rw [padded, Nat.ofDigitChars_append, Nat.ofDigitChars_replicate_zero, Nat.mul_zero,
    Nat.ofDigitChars_ten_toDigits]

theorem length_padded {places n : Nat} (pos : 0 < places) (h : n < 10 ^ places) :
    (padded places n).length = places := by
  have := (Nat.length_toDigits_le_iff (by decide) pos).2 h
  rw [padded, List.length_append, List.length_replicate]
  omega

end Settlement
