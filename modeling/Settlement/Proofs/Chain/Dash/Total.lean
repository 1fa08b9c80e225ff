import Settlement.Proofs.Chain.Dash.Distinct
import Settlement.Proofs.Solo

/-!
# What a confirmed total is made of

`Counting` links every stage to what was answered on the way. The deposits that the forward has
reported, each transaction once, are the ones that the tally holds and the ones that are still
ahead, in the order in which they were reported; and the ones that the tally holds are cleared: a
transaction that was deep enough was read, and right after it a height that is not behind its lock
time. So a total that is returned is the sum of all deposits that were reported, and each of them is
cleared (`total_of_counting`).
-/

namespace Settlement.Dash

def depositsIn : Asked Query Query.Reply → List Deposit
  | ⟨.forward _, (.ok deposits : Except ConfirmationError (List Deposit))⟩ => deposits
  | _ => []

/-- The deposits that were reported, answer by answer. -/
def forwarded (asked : List (Asked Query Query.Reply)) : List Deposit :=
  asked.reverse.flatMap depositsIn

theorem forwarded_append (later earlier : List (Asked Query Query.Reply)) :
    forwarded (later ++ earlier) = forwarded earlier ++ forwarded later := by
  simp [forwarded]

namespace Confirmer

variable {c : Confirmer} {forward hash : String} {charge : Decimal}
  {asked before : List (Asked Query Query.Reply)} {stage stage' : Stage} {tally tally' : Tally}
  {settled ahead rest : List Deposit} {deposit : Deposit} {s s' : Settling}
  {now limit limit' : Instant}

/-- The transaction was read when it was deep enough, and a height right after it that is not behind
its lock time. A lock time that is a time was not ahead of the clock, not later than `limit`. -/
def Cleared (c : Confirmer) (limit : Instant) (asked : List (Asked Query Query.Reply))
    (hash : String) : Prop :=
  ∃ later tx height earlier checked,
    asked = later ++ ⟨.height, (.ok height : Except ConfirmationError Nat)⟩ ::
      ⟨.transaction hash, (.ok tx : Except ConfirmationError Transaction)⟩ :: earlier ∧
    c.policy.required < tx.confirmations ∧ checked ≤ limit ∧
    tx.lockTime ≤ LockTime.current tx.lockTime height (c.wallClock checked)

theorem Cleared.append (cleared : Cleared c limit before hash)
    (asked : List (Asked Query Query.Reply)) : Cleared c limit (asked ++ before) hash := by
  obtain ⟨later, tx, height, earlier, checked, rfl, deep, reached⟩ := cleared
  exact ⟨asked ++ later, tx, height, earlier, checked, (List.append_assoc ..).symm, deep, reached⟩

theorem Cleared.mono (cleared : Cleared c limit asked hash) (hle : limit ≤ limit') :
    Cleared c limit' asked hash := by
  obtain ⟨later, tx, height, earlier, checked, hasked, deep, before, reached⟩ := cleared
  exact ⟨later, tx, height, earlier, checked, hasked, deep, Nat.le_trans before hle, reached⟩

/-- Some deposits are settled, and with those ahead they are all that were reported. -/
structure Accounted (c : Confirmer) (limit : Instant) (asked : List (Asked Query Query.Reply))
    (tally : Tally) (settled ahead : List Deposit) : Prop where
  all : fresh [] (forwarded asked) = settled ++ fresh tally.seen ahead
  holds : tally.Holds settled
  cleared : ∀ d ∈ settled, Cleared c limit asked d.inputHash

/-- Between the settled deposits and those ahead one deposit is settled, which has been seen. -/
structure Awaited (c : Confirmer) (limit : Instant) (asked : List (Asked Query Query.Reply))
    (tally : Tally) (settled : List Deposit) (deposit : Deposit) (ahead : List Deposit) :
    Prop where
  all : fresh [] (forwarded asked) = settled ++ deposit :: fresh tally.seen ahead
  holds : ∃ former : Tally, tally = former.see deposit ∧ former.Holds settled
  cleared : ∀ d ∈ settled, Cleared c limit asked d.inputHash

/-- What was read last while a deposit is settled. -/
def Pending (c : Confirmer) (hash : String) (asked : List (Asked Query Query.Reply)) :
    Settling → Prop
  | .looked r => ∃ earlier, asked = ⟨.transaction hash, r⟩ :: earlier
  | .deep tx r => c.policy.required < tx.confirmations ∧ ∃ earlier, asked =
      ⟨.height, r⟩ :: ⟨.transaction hash, (.ok tx : Except ConfirmationError Transaction)⟩ ::
        earlier
  | _ => True

/-- What was answered up to a stage, and checked not later than `limit`. -/
def Counting (c : Confirmer) (limit : Instant) (asked : List (Asked Query Query.Reply)) :
    Stage → Prop
  | .looking tally => ∃ settled, Accounted c limit asked tally settled []
  | .looked tally r => ∃ settled, Accounted c limit asked tally settled (r.toOption.getD [])
  | .settling tally deposit rest s =>
    (∃ settled, Awaited c limit asked tally settled deposit rest) ∧
      Pending c deposit.inputHash asked s
  | .interrupted => True

theorem Accounted.mono (accounted : Accounted c limit asked tally settled ahead)
    (hle : limit ≤ limit') : Accounted c limit' asked tally settled ahead :=
  ⟨accounted.all, accounted.holds, fun d hd => (accounted.cleared d hd).mono hle⟩

theorem Counting.mono (counting : Counting c limit asked stage) (hle : limit ≤ limit') :
    Counting c limit' asked stage := by
  cases stage with
  | looking tally =>
      obtain ⟨settled, accounted⟩ := counting
      exact ⟨settled, accounted.mono hle⟩
  | looked tally r =>
      obtain ⟨settled, accounted⟩ := counting
      exact ⟨settled, accounted.mono hle⟩
  | settling tally deposit rest s =>
      obtain ⟨⟨settled, awaited⟩, pending⟩ := counting
      exact ⟨⟨settled, awaited.all, awaited.holds, fun d hd => (awaited.cleared d hd).mono hle⟩,
        pending⟩
  | interrupted => trivial

theorem Awaited.append (awaited : Awaited c limit before tally settled deposit ahead)
    (silent : forwarded asked = []) :
    Awaited c limit (asked ++ before) tally settled deposit ahead where
  all := by rw [forwarded_append, silent, List.append_nil, awaited.all]
  holds := awaited.holds
  cleared := fun d hd => (awaited.cleared d hd).append asked

/-- A settled deposit is cleared, and one more that the tally holds. -/
theorem Awaited.settle {tx : Transaction} {height : Nat}
    (awaited : Awaited c limit asked tally settled deposit ahead)
    (pending : Pending c deposit.inputHash asked (.deep tx (.ok height))) (inTime : now ≤ limit)
    (reached : LockTime.check tx.lockTime height (c.wallClock now) = .ok ())
    (hsum : tally.add? deposit = some tally') :
    Accounted c limit asked tally' (settled ++ [deposit]) ahead := by
  obtain ⟨former, rfl, holds⟩ := awaited.holds
  have held := Tally.holds_add? holds hsum
  refine ⟨?_, held, fun d hd => ?_⟩
  · have same : ∀ hash, hash ∈ tally'.seen ↔ hash ∈ (former.see deposit).seen := fun hash => by
      rw [held.seen, Tally.see, List.mem_cons, holds.seen]
      simp [or_comm]
    rw [awaited.all, List.append_assoc, fresh_congr same]
    rfl
  · rcases List.mem_append.1 hd with hd | hd
    · exact awaited.cleared d hd
    · obtain rfl := List.mem_singleton.1 hd
      obtain ⟨deep, earlier, hasked⟩ := pending
      exact ⟨[], tx, height, earlier, now, hasked, deep, inTime,
        LockTime.check_eq_ok_iff.1 reached⟩

theorem counting_takeDeposits (accounted : Accounted c limit before tally settled ahead)
    (h : (c.takeDeposits charge tally ahead).Leads asked stage) :
    Counting c limit (asked ++ before) stage := by
  rcases c.takeDeposits_cases charge tally ahead with
    ⟨hfresh, hturn⟩ | ⟨deposit, rest, -, hfresh, hturn⟩
  · rw [hturn] at h
    split at h
    · exact h.elim
    · obtain ⟨rfl, rfl | rfl⟩ := Turn.leads_pause.1 h
      · exact ⟨settled, by rw [List.nil_append, accounted.all, hfresh, fresh], accounted.holds,
          accounted.cleared⟩
      · trivial
  · rw [hturn] at h
    obtain ⟨r, rfl, rfl⟩ := Turn.leads_ask.1 h
    have awaited : Awaited c limit before (tally.see deposit) settled deposit rest :=
      ⟨by rw [accounted.all, hfresh], ⟨tally, rfl, accounted.holds⟩, accounted.cleared⟩
    exact ⟨⟨settled, awaited.append rfl⟩, before, rfl⟩

/-- A deposit is settled with a height that is not behind its lock time. -/
theorem reached_of_settle {tx : Transaction} (h : c.settle hash now s = .done (.ok tx)) :
    ∃ height, s = .deep tx (.ok height) ∧
      LockTime.check tx.lockTime height (c.wallClock now) = .ok () := by
  cases s with
  | looking => simp [settle] at h
  | looked r =>
      rcases r with e | tx'
      · simp [settle] at h
      · simp only [settle] at h
        split at h <;> simp at h
  | deep tx' r =>
      match r, h with
      | .ok height, h =>
          simp only [settle] at h
          split at h
          next hcheck =>
            obtain rfl : tx' = tx := by simpa using h
            exact ⟨height, rfl, hcheck⟩
          next => simp at h
  | interrupted => simp [settle] at h

theorem pending_step (pending : Pending c hash before s)
    (h : (c.settle hash now s).Leads asked s') :
    forwarded asked = [] ∧ Pending c hash (asked ++ before) s' := by
  cases s with
  | looking =>
      obtain ⟨r, rfl, rfl⟩ := Turn.leads_ask.1 h
      exact ⟨rfl, before, rfl⟩
  | looked r =>
      match r, h with
      | .ok tx, h =>
          simp only [settle] at h
          split at h
          next deep =>
            obtain ⟨r, rfl, rfl⟩ := Turn.leads_ask.1 h
            obtain ⟨earlier, rfl⟩ := pending
            exact ⟨rfl, deep, earlier, rfl⟩
          next =>
            obtain ⟨rfl, rfl | rfl⟩ := Turn.leads_pause.1 h <;> exact ⟨rfl, trivial⟩
  | deep tx r =>
      match r, h with
      | .ok height, h =>
          simp only [settle] at h
          split at h <;> exact h.elim
  | interrupted => exact h.elim

theorem counting_step (counting : Counting c limit before stage) (inTime : now ≤ limit)
    (h : (c.turn forward charge now stage).Leads asked stage') :
    Counting c limit (asked ++ before) stage' := by
  cases stage with
  | looking tally =>
      obtain ⟨r, rfl, rfl⟩ := Turn.leads_ask.1 h
      obtain ⟨settled, accounted⟩ := counting
      refine ⟨settled, ?_, accounted.holds, fun d hd => (accounted.cleared d hd).append _⟩
      have hseen : ∀ hash, hash ∈ settled.map Deposit.inputHash ++ [] ↔ hash ∈ tally.seen :=
        fun hash => by rw [List.append_nil, accounted.holds.seen]
      have hnil := accounted.all
      rw [fresh, List.append_nil] at hnil
      rw [forwarded_append, fresh_append, hnil, fresh_congr hseen]
      cases r <;> simp [forwarded, depositsIn, Except.toOption]
  | looked tally r =>
      rcases r with e | deposits
      · exact h.elim
      · obtain ⟨settled, accounted⟩ := counting
        exact counting_takeDeposits accounted h
  | settling tally deposit rest s =>
      obtain ⟨⟨settled, awaited⟩, pending⟩ := counting
      rcases Turn.leads_andThen h with ⟨result, ends, hnext⟩ | ⟨s', step, rfl⟩
      · rcases result with e | tx
        · exact hnext.elim
        · obtain ⟨height, rfl, reached⟩ := reached_of_settle ends
          dsimp only at hnext
          split at hnext
          -- a sum that is no amount breaks the confirmation down
          next => exact hnext.elim
          next tally' hsum =>
            exact counting_takeDeposits (awaited.settle pending inTime reached hsum) hnext
      · obtain ⟨silent, pending'⟩ := pending_step pending step
        exact ⟨⟨settled, awaited.append silent⟩, pending'⟩
  | interrupted => exact h.elim

theorem counting_start (limit : Instant) : Counting c limit [] (.looking .empty) :=
  ⟨[], rfl, Tally.holds_empty, by simp⟩

theorem counting_of_course
    (h : Course (c.turn forward charge) (.looking .empty) asked stage) :
    ∃ limit, Counting c limit asked stage := by
  induction h with
  | start => exact ⟨0, counting_start 0⟩
  | next now _ step ih =>
      obtain ⟨limit, counting⟩ := ih
      exact ⟨max limit now, counting_step (counting.mono (Nat.le_max_left _ _))
        (Nat.le_max_right _ _) step⟩

theorem counting_of_comes {W : Type} {answer : Instant → (call : Query) → W → Answer W call.Reply}
    {world : W} {cancelAt : Option Instant} {y : Point Query Query.Reply W (Timed Stage)}
    (comes : (Machine.mk (c.timedTurn forward charge) answer).Comes cancelAt
      ⟨0, world, c.start 0, []⟩ y) :
    y.stage = .expired ∨ ∃ stage, y.stage = .running c.policy.deadline.nanos stage ∧
      Counting c y.instant y.asked stage := by
  refine comes.keeps_timed (Counting c) (counting_start 0) ?_ ?_
  · exact fun counting step => counting_step counting (Nat.le_refl _) step
  · exact fun hle counting => counting.mono hle

theorem total_of_takeDeposits {total : Decimal}
    (accounted : Accounted c limit asked tally settled ahead)
    (h : c.takeDeposits charge tally ahead = .done (.ok total)) :
    Accounted c limit asked tally settled [] ∧ tally.covers charge = true ∧
      tally.total = total := by
  rcases c.takeDeposits_cases charge tally ahead with
    ⟨hfresh, hturn⟩ | ⟨deposit, rest, -, -, hturn⟩
  · rw [hturn] at h
    split at h
    next hcovers =>
      refine ⟨⟨?_, accounted.holds, accounted.cleared⟩, hcovers, by simpa using h⟩
      rw [accounted.all, hfresh, fresh]
    next => simp at h
  · rw [hturn] at h
    simp at h

/-- A total that is returned covers the charge, is the sum of the deposits that were reported, and
all of them are cleared. -/
theorem total_of_counting {total : Decimal} (counting : Counting c now asked stage)
    (ends : c.turn forward charge now stage = .done (.ok total)) :
    charge.value ≤ total.value ∧ fresh [] (forwarded asked) ≠ [] ∧
      (duffs (fresh [] (forwarded asked)) < Decimal.bound →
        total = duffsToDash (duffs (fresh [] (forwarded asked)))) ∧
      ∀ d ∈ fresh [] (forwarded asked), Cleared c now asked d.inputHash := by
  have last : ∃ tally settled, Accounted c now asked tally settled [] ∧
      tally.covers charge = true ∧ tally.total = total := by
    cases stage with
    | looking tally => simp [turn] at ends
    | looked tally r =>
        match r, ends with
        | .ok deposits, ends =>
            obtain ⟨settled, accounted⟩ := counting
            exact ⟨tally, settled, total_of_takeDeposits accounted ends⟩
    | settling tally deposit rest s =>
        obtain ⟨⟨settled, awaited⟩, pending⟩ := counting
        obtain ⟨result, ends, hnext⟩ := Turn.eq_done_of_andThen ends
        match result, ends, hnext with
        | .ok tx, ends, hnext =>
            obtain ⟨height, rfl, reached⟩ := reached_of_settle ends
            dsimp only at hnext
            split at hnext
            next => simp at hnext
            next tally' hsum =>
              have settled := awaited.settle pending (Nat.le_refl now) reached hsum
              exact ⟨tally', _, total_of_takeDeposits settled hnext⟩
    | interrupted => simp [turn] at ends
  obtain ⟨tally, settled, accounted, covers, rfl⟩ := last
  have all : fresh [] (forwarded asked) = settled := by
    rw [accounted.all, fresh, List.append_nil]
  rw [all]
  rw [Tally.covers, Bool.and_eq_true, Decimal.le_iff] at covers
  obtain ⟨hseen, hcharge⟩ := covers
  have hne : settled ≠ [] := by
    rintro rfl
    have hnil : tally.seen = [] := List.eq_nil_iff_forall_not_mem.2 fun hash hmem => by
      simpa using (accounted.holds.seen hash).1 hmem
    simp [hnil] at hseen
  refine ⟨hcharge, hne, fun small => ?_, accounted.cleared⟩
  rw [accounted.holds.total small, total, if_neg hne]

end Confirmer

end Settlement.Dash
