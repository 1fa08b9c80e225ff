import Settlement.Chain.Dash.Confirmer
import Settlement.Proofs.Decimal.Value

/-!
# Deposits that count once

A payment forward reports its deposits again and again; of the deposits of one transaction the first
one counts (`fresh`). A tally that holds some deposits has seen their transactions, and its total is
what they bring together, without rounding (`Tally.Holds`). What is done with an answer is settled
by the deposits on it that are fresh (`takeDeposits_cases`).
-/

namespace Settlement.Dash

/-- The first deposit of each transaction, without those of the transactions that were seen. -/
def fresh (seen : List String) : List Deposit → List Deposit
  | [] => []
  | deposit :: rest =>
    if deposit.inputHash ∈ seen then fresh seen rest
    else deposit :: fresh (deposit.inputHash :: seen) rest

/-- What the deposits bring together, in duffs. -/
def duffs (deposits : List Deposit) : Nat := (deposits.map Deposit.duffs).sum

/-- The total of deposits that were counted one by one. -/
def total (deposits : List Deposit) : Decimal :=
  if deposits = [] then .zero else duffsToDash (duffs deposits)

/-- There are deposits, and together they cover the charge. -/
def Covers (charge : Decimal) (deposits : List Deposit) : Prop :=
  deposits ≠ [] ∧ charge.value ≤ (duffs deposits : ℚ) / 10 ^ 8

theorem fresh_congr {seen seen' : List String} (h : ∀ hash, hash ∈ seen ↔ hash ∈ seen')
    (deposits : List Deposit) : fresh seen deposits = fresh seen' deposits := by
  induction deposits generalizing seen seen' with
  | nil => rfl
  | cons deposit rest ih =>
      have hcons : ∀ hash, hash ∈ deposit.inputHash :: seen ↔ hash ∈ deposit.inputHash :: seen' :=
        fun hash => by rw [List.mem_cons, List.mem_cons, h]
      simp only [fresh, h deposit.inputHash, ih h, ih hcons]

/-- Of two answers the second one brings what is fresh after the first one. -/
theorem fresh_append (seen : List String) (first second : List Deposit) :
    fresh seen (first ++ second) = fresh seen first ++
      fresh ((fresh seen first).map Deposit.inputHash ++ seen) second := by
  induction first generalizing seen with
  | nil => rfl
  | cons deposit rest ih =>
      rw [List.cons_append, fresh, fresh]
      split
      · exact ih seen
      · rw [ih, List.cons_append]
        refine congrArg _ (congrArg _ (fresh_congr (fun hash => ?_) second))
        rw [List.map_cons, List.mem_append, List.cons_append, List.mem_cons, List.mem_cons,
          List.mem_append]
        exact or_left_comm

theorem duffs_append (first second : List Deposit) :
    duffs (first ++ second) = duffs first + duffs second := by
  simp [duffs]

theorem duffs_mono {first deposits : List Deposit} (h : first <+: deposits) :
    duffs first ≤ duffs deposits := by
  obtain ⟨second, rfl⟩ := h
  rw [duffs_append]
  exact Nat.le_add_right _ _

theorem value_total (deposits : List Deposit) :
    (total deposits).value = (duffs deposits : ℚ) / 10 ^ 8 := by
  unfold total
  split
  next h => simp [h, duffs, Decimal.value, Decimal.zero]
  next => simp [duffsToDash, Decimal.value]

/-- One more deposit adds its amount to the total, if that can be counted. -/
theorem add?_total {deposits : List Deposit} {deposit : Deposit}
    (small : duffs (deposits ++ [deposit]) < Decimal.bound) :
    (total deposits).add? (duffsToDash deposit.duffs) = some (total (deposits ++ [deposit])) := by
  have htotal : total (deposits ++ [deposit]) = duffsToDash (duffs deposits + deposit.duffs) := by
    simp [total, duffs]
  rw [htotal]
  rw [duffs_append, duffs, duffs, List.map_singleton, List.sum_singleton, ← duffs] at small
  unfold total
  split
  next h => simp [h, duffs, Decimal.add?_zero_left]
  next =>
    unfold Decimal.add?
    by_cases ha : duffs deposits = 0
    · simp [duffsToDash, ha]
    by_cases hb : deposit.duffs = 0
    · simp [duffsToDash, ha, hb]
    have hsum : ((duffs deposits : Int) + deposit.duffs).natAbs =
        duffs deposits + deposit.duffs := by
      omega
    have hpos : ¬(duffs deposits : Int) + deposit.duffs < 0 := by omega
    simp [duffsToDash, ha, hb, Decimal.unitsAt, tenPow_zero, hsum, Decimal.fit?_of_lt small,
      Decimal.withSign, hpos]

namespace Tally

/-- The tally has counted the deposits, and no more than can be counted exactly. -/
structure Holds (tally : Tally) (deposits : List Deposit) : Prop where
  seen : ∀ hash, hash ∈ tally.seen ↔ hash ∈ deposits.map Deposit.inputHash
  total : duffs deposits < Decimal.bound → tally.total = Dash.total deposits

variable {tally tally' : Tally} {deposits : List Deposit} {deposit : Deposit} {charge : Decimal}

theorem holds_empty : empty.Holds [] := ⟨by simp [empty], fun _ => rfl⟩

theorem holds_add? (holds : tally.Holds deposits)
    (h : (tally.see deposit).add? deposit = some tally') :
    tally'.Holds (deposits ++ [deposit]) := by
  obtain ⟨sum, hsum, rfl⟩ := Option.map_eq_some_iff.1 h
  refine ⟨fun hash => ?_, fun small => ?_⟩
  · simp [see, holds.seen, or_comm]
  · have before := (duffs_mono (List.prefix_append deposits [deposit])).trans_lt small
    have hadd := add?_total small
    rw [← holds.total before] at hadd
    exact Option.some.inj (hsum.symm.trans hadd)

theorem exists_add? (holds : tally.Holds deposits)
    (small : duffs (deposits ++ [deposit]) < Decimal.bound) :
    ∃ tally', (tally.see deposit).add? deposit = some tally' := by
  have before := (duffs_mono (List.prefix_append deposits [deposit])).trans_lt small
  refine ⟨{ tally.see deposit with total := Dash.total (deposits ++ [deposit]) }, ?_⟩
  have hadd := add?_total small
  rw [← holds.total before] at hadd
  rw [add?, see, hadd]
  rfl

theorem covers_iff (holds : tally.Holds deposits) (small : duffs deposits < Decimal.bound) :
    tally.covers charge = true ↔ Covers charge deposits := by
  have hseen : tally.seen = [] ↔ deposits = [] := by
    rw [List.eq_nil_iff_forall_not_mem, ← List.map_eq_nil_iff (f := Deposit.inputHash),
      List.eq_nil_iff_forall_not_mem]
    exact forall_congr' fun hash => not_congr (holds.seen hash)
  rw [covers, Bool.and_eq_true, Bool.not_eq_true', List.isEmpty_eq_false_iff, ne_eq, hseen,
    Decimal.le_iff, holds.total small, value_total, Covers]

/-- The deposits from the first new one on begin with a fresh one. -/
theorem uncounted_cases (tally : Tally) (deposits : List Deposit) :
    (tally.uncounted deposits = [] ∧ fresh tally.seen deposits = []) ∨
      ∃ deposit rest, tally.uncounted deposits = deposit :: rest ∧
        deposit.inputHash ∉ tally.seen ∧
        fresh tally.seen deposits = deposit :: fresh (tally.see deposit).seen rest := by
  induction deposits with
  | nil => exact Or.inl ⟨rfl, rfl⟩
  | cons deposit rest ih =>
      by_cases hseen : deposit.inputHash ∈ tally.seen
      · have hskip : tally.uncounted (deposit :: rest) = tally.uncounted rest :=
          List.dropWhile_cons_of_pos (List.contains_iff_mem.2 hseen)
        rw [hskip, fresh, if_pos hseen]
        exact ih
      · have hkeep : tally.uncounted (deposit :: rest) = deposit :: rest :=
          List.dropWhile_cons_of_neg (mt List.contains_iff_mem.1 hseen)
        exact Or.inr ⟨deposit, rest, hkeep, hseen, if_neg hseen⟩

end Tally

/-- Without a fresh deposit the sum is looked at; else the first fresh one is settled. -/
theorem Confirmer.takeDeposits_cases (c : Confirmer) (charge : Decimal) (tally : Tally)
    (deposits : List Deposit) :
    (fresh tally.seen deposits = [] ∧
        c.takeDeposits charge tally deposits =
          if tally.covers charge then .done (.ok tally.total)
          else .pause c.forwardPollInterval none (.looking tally) .interrupted) ∨
      ∃ deposit rest, deposit.inputHash ∉ tally.seen ∧
        fresh tally.seen deposits = deposit :: fresh (tally.see deposit).seen rest ∧
        c.takeDeposits charge tally deposits =
          .ask (.transaction deposit.inputHash) none
            fun r => .settling (tally.see deposit) deposit rest (.looked r) := by
  unfold takeDeposits
  rcases tally.uncounted_cases deposits with
    ⟨huncounted, hfresh⟩ | ⟨d, rest, huncounted, hnew, hfresh⟩
  · exact Or.inl ⟨hfresh, by rw [huncounted]⟩
  · exact Or.inr ⟨d, rest, hnew, hfresh, by rw [huncounted]⟩

end Settlement.Dash
