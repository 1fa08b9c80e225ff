import Settlement.Proofs.Decimal.Value

/-!
# Sums that grow

Adding an amount that is not negative gives no less than there was (`Held.le_of_add?`), although the
sum may be rounded. It is enough that the number of units is below the bound. As long as no digit of
the amount itself is dropped, rounding keeps the order. When one is dropped, the sum has outgrown
the bound, whose last digit is a six: so a sum that has just outgrown it is rounded up.
-/

namespace Settlement

theorem le_divHalfEven {n num den : Nat} (pos : 0 < den) (h : n * den ≤ num) :
    n ≤ divHalfEven num den := by
  have hquotient : n ≤ num / den := (Nat.le_div_iff_mul_le pos).2 h
  unfold divHalfEven
  dsimp only
  split
  · exact Nat.le_succ_of_le hquotient
  · exact hquotient

/-- A quotient that is nearer to the next number is rounded up. -/
theorem lt_divHalfEven {n num den : Nat} (pos : 0 < den) (h : (2 * n + 1) * den < 2 * num) :
    n < divHalfEven num den := by
  have hsplit := Nat.div_add_mod' num den
  have htwice : 2 * (n * den) + den < 2 * num := by
    calc 2 * (n * den) + den = (2 * n + 1) * den := by ring
      _ < 2 * num := h
  have hquotient : n ≤ num / den := (Nat.le_div_iff_mul_le pos).2 (by omega)
  unfold divHalfEven
  dsimp only
  rcases Nat.lt_or_eq_of_le hquotient with hlt | heq
  · split
    · exact Nat.lt_succ_of_lt hlt
    · exact hlt
  · rw [← heq] at hsplit ⊢
    rw [if_pos (Or.inl (by omega))]
    exact Nat.lt_succ_self n

theorem divHalfEven_le (num den : Nat) : divHalfEven num den ≤ num / den + 1 := by
  unfold divHalfEven
  dsimp only
  split
  · exact Nat.le_refl _
  · exact Nat.le_succ _

namespace Decimal

/-- The amount is not negative, and its units have at most 96 bits. -/
structure Held (d : Decimal) : Prop where
  nonneg : 0 ≤ d.units
  small : d.units.natAbs < bound

theorem held_zero : zero.Held := ⟨le_refl _, by decide⟩

theorem excess?_eq_some {magnitude scale drop : Nat} (h : excess? magnitude scale = some drop) :
    drop ≤ scale ∧ magnitude / tenPow drop < bound ∧
      ∀ fewer < drop, bound ≤ magnitude / tenPow fewer := by
  obtain ⟨hdrop, hmem, hleast⟩ := List.find?_range_eq_some.1 h
  refine ⟨by simpa [Nat.lt_succ_iff] using hmem, by simpa using hdrop, fun fewer hfewer => ?_⟩
  simpa using hleast fewer hfewer

section

variable {k t magnitude scale drop : Nat}

/-- When digits of `k` itself go, the magnitude has outgrown the bound. -/
theorem bound_le_of_grew (grew : ∀ fewer < drop, bound ≤ magnitude / tenPow fewer)
    (pos : 0 < drop) : bound ≤ 10 * divHalfEven magnitude (tenPow drop) := by
  obtain ⟨fewer, rfl⟩ := Nat.exists_eq_succ_of_ne_zero (Nat.ne_of_gt pos)
  have hgrew : bound * tenPow fewer ≤ magnitude :=
    (Nat.le_div_iff_mul_le (tenPow_pos fewer)).1 (grew fewer (Nat.lt_succ_self fewer))
  have hup : bound / 10 < divHalfEven magnitude (tenPow (fewer + 1)) := by
    refine lt_divHalfEven (tenPow_pos _) ?_
    have hsix : (2 * (bound / 10) + 1) * 10 < 2 * bound := by decide
    calc (2 * (bound / 10) + 1) * tenPow (fewer + 1)
        = (2 * (bound / 10) + 1) * 10 * tenPow fewer := by rw [tenPow_succ]; ring
      _ < 2 * bound * tenPow fewer := Nat.mul_lt_mul_of_pos_right hsix (tenPow_pos fewer)
      _ = 2 * (bound * tenPow fewer) := Nat.mul_assoc ..
      _ ≤ 2 * magnitude := Nat.mul_le_mul_left 2 hgrew
  rw [Nat.succ_eq_add_one]
  omega

/-- If all digits of `k` stay, it is on the coarser grid too. -/
theorem le_drop_of_kept (kept : t ≤ scale - drop) (le : drop ≤ scale)
    (h : k * tenPow scale ≤ magnitude * tenPow t) :
    k * tenPow (scale - drop) ≤ divHalfEven magnitude (tenPow drop) * tenPow t := by
  have hscale : scale = scale - drop - t + drop + t := by omega
  have hgrid : k * tenPow (scale - drop - t) * tenPow drop ≤ magnitude := by
    refine Nat.le_of_mul_le_mul_right ?_ (tenPow_pos t)
    rw [Nat.mul_assoc k, ← tenPow_add, Nat.mul_assoc, ← tenPow_add, ← hscale]
    exact h
  have hround := le_divHalfEven (tenPow_pos drop) hgrid
  have hsplit : k * tenPow (scale - drop) = k * tenPow (scale - drop - t) * tenPow t := by
    rw [Nat.mul_assoc, ← tenPow_add, Nat.sub_add_cancel kept]
  rw [hsplit]
  exact Nat.mul_le_mul_right _ hround

/-- If digits of `k` go, the magnitude is still a tenth of the bound, and `k` is less than that. -/
theorem le_drop_of_grew (hk : k < bound) (gone : scale - drop < t)
    (grew : bound ≤ 10 * divHalfEven magnitude (tenPow drop)) :
    k * tenPow (scale - drop) ≤ divHalfEven magnitude (tenPow drop) * tenPow t := by
  obtain ⟨more, hmore⟩ := Nat.exists_eq_add_of_lt gone
  have hten : tenPow t = tenPow (scale - drop) * 10 * tenPow more := by
    rw [hmore, Nat.add_right_comm, tenPow_add, tenPow_succ]
  rw [hten]
  calc k * tenPow (scale - drop)
      ≤ 10 * divHalfEven magnitude (tenPow drop) * tenPow (scale - drop) :=
        Nat.mul_le_mul_right _ (by omega)
    _ = divHalfEven magnitude (tenPow drop) * (tenPow (scale - drop) * 10) := by ring
    _ ≤ divHalfEven magnitude (tenPow drop) * (tenPow (scale - drop) * 10 * tenPow more) :=
        Nat.mul_le_mul_left _ (Nat.le_mul_of_pos_right _ (tenPow_pos more))

/-- Dropping digits keeps a magnitude above `k / 10 ^ t`. -/
theorem le_drop (hk : k < bound) (le : drop ≤ scale)
    (grew : ∀ fewer < drop, bound ≤ magnitude / tenPow fewer)
    (h : k * tenPow scale ≤ magnitude * tenPow t) :
    k * tenPow (scale - drop) ≤ divHalfEven magnitude (tenPow drop) * tenPow t := by
  rcases Nat.lt_or_ge (scale - drop) t with gone | kept
  · rcases Nat.eq_zero_or_pos drop with rfl | pos
    · have hsame : divHalfEven magnitude (tenPow 0) = magnitude := by
        simpa [tenPow_zero] using divHalfEven_mul magnitude (tenPow_pos 0)
      rwa [hsame, Nat.sub_zero]
    · exact le_drop_of_grew hk gone (bound_le_of_grew grew pos)
  · exact le_drop_of_kept kept le h

/-- A magnitude that is brought into 96 bits stays above `k / 10 ^ t`. -/
theorem le_fit? {m s : Nat} (hk : k < bound) (h : k * tenPow scale ≤ magnitude * tenPow t)
    (hfit : fit? magnitude scale = some (m, s)) : m < bound ∧ k * tenPow s ≤ m * tenPow t := by
  unfold fit? at hfit
  split at hfit
  next => cases hfit
  next drop hexcess =>
    obtain ⟨hle, hsmall, grew⟩ := excess?_eq_some hexcess
    have hround := le_drop hk hle grew h
    dsimp only at hfit
    split at hfit
    next hlt =>
      obtain ⟨rfl, rfl⟩ := Prod.mk.inj (Option.some.inj hfit)
      exact ⟨hlt, hround⟩
    next hcarry =>
      split at hfit
      next => cases hfit
      next hscale =>
        obtain ⟨rfl, rfl⟩ := Prod.mk.inj (Option.some.inj hfit)
        have hten : tenPow 1 = 10 := rfl
        refine ⟨?_, ?_⟩
        · have hup := divHalfEven_le magnitude (tenPow drop)
          have hup' := divHalfEven_le (divHalfEven magnitude (tenPow drop)) 10
          have hbig : 20 < bound := by decide
          omega
        · rw [← hten]
          refine le_drop hk (Nat.one_le_iff_ne_zero.2 hscale) (fun fewer hfewer => ?_) hround
          obtain rfl := Nat.lt_one_iff.1 hfewer
          rw [tenPow_zero, Nat.div_one]
          exact Nat.le_of_not_lt hcarry

end

theorem value_le_of_natAbs {a b : Decimal} (ha : 0 ≤ a.units) (hb : 0 ≤ b.units)
    (h : a.units.natAbs * tenPow b.scale ≤ b.units.natAbs * tenPow a.scale) :
    a.value ≤ b.value := by
  have hcast : (a.units.natAbs : ℚ) * 10 ^ b.scale ≤ b.units.natAbs * 10 ^ a.scale := by
    rw [← cast_tenPow, ← cast_tenPow]
    exact_mod_cast h
  rw [Nat.cast_natAbs, Nat.cast_natAbs, abs_of_nonneg ha, abs_of_nonneg hb] at hcast
  unfold value
  rw [div_le_div_iff₀ (by positivity) (by positivity)]
  exact hcast

theorem Held.value_nonneg {a : Decimal} (h : a.Held) : 0 ≤ a.value :=
  div_nonneg (Int.cast_nonneg h.nonneg) (by positivity)

theorem natAbs_unitsAt_add {a b : Decimal} (ha : a.Held) (hb : b.Held) (scale : Nat) :
    0 ≤ a.unitsAt scale + b.unitsAt scale ∧
      a.units.natAbs * tenPow (scale - a.scale) ≤
        (a.unitsAt scale + b.unitsAt scale).natAbs := by
  have hfirst : 0 ≤ a.unitsAt scale := Int.mul_nonneg ha.nonneg (Int.natCast_nonneg _)
  have hsecond : 0 ≤ b.unitsAt scale := Int.mul_nonneg hb.nonneg (Int.natCast_nonneg _)
  have hunits : (a.unitsAt scale).natAbs = a.units.natAbs * tenPow (scale - a.scale) := by
    rw [unitsAt, Int.natAbs_mul, Int.natAbs_natCast]
  refine ⟨Int.add_nonneg hfirst hsecond, ?_⟩
  omega

/-- A sum of amounts that are not negative is not negative either, and no less than the first. -/
theorem Held.le_of_add? {a b c : Decimal} (ha : a.Held) (hb : b.Held) (h : a.add? b = some c) :
    c.Held ∧ a.value ≤ c.value := by
  unfold add? at h
  split at h
  next hzero =>
    obtain rfl := Option.some.inj h
    exact ⟨hb, value_eq_zero hzero ▸ hb.value_nonneg⟩
  next =>
    split at h
    next =>
      obtain rfl := Option.some.inj h
      exact ⟨ha, le_refl _⟩
    next =>
      obtain ⟨⟨m, s⟩, hfit, rfl⟩ := Option.map_eq_some_iff.1 h
      obtain ⟨hnonneg, hle⟩ := natAbs_unitsAt_add ha hb (max a.scale b.scale)
      have hkept : a.units.natAbs * tenPow (max a.scale b.scale) ≤
          (a.unitsAt (max a.scale b.scale) + b.unitsAt (max a.scale b.scale)).natAbs *
            tenPow a.scale := by
        have hsplit : tenPow (max a.scale b.scale) =
            tenPow (max a.scale b.scale - a.scale) * tenPow a.scale := by
          rw [← tenPow_add, Nat.sub_add_cancel (Nat.le_max_left _ _)]
        rw [hsplit, ← Nat.mul_assoc]
        exact Nat.mul_le_mul_right _ hle
      obtain ⟨hm, hvalue⟩ := le_fit? ha.small hkept hfit
      have hsign : withSign
          (a.unitsAt (max a.scale b.scale) + b.unitsAt (max a.scale b.scale) < 0) m = m := by
        simp [withSign, not_lt.2 hnonneg]
      dsimp only
      rw [hsign]
      exact ⟨⟨Int.natCast_nonneg m, hm⟩,
        value_le_of_natAbs ha.nonneg (Int.natCast_nonneg m) hvalue⟩

end Decimal

end Settlement
