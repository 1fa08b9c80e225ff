import Mathlib.Data.List.GetD
import Mathlib.Data.Nat.Count
import Settlement.Proofs.Chain.Pauses
import Settlement.Proofs.Timeline

/-!
# When an Ethereum transaction is confirmed

A node answers at once, with transactions, receipts and heads in turn. The confirmation pauses after
each transaction that is in no block, and after each head that is not high enough and the same as
the head before it. So the instants and the calls of its stages are known (`seen`, `counted`), and
it ends with what the checks say if that is not after the deadline, and over time at the deadline
if it is (`finishes_punctually`).
-/

namespace Settlement.Ethereum

open Rehearsal

/-- Answers in turn, of which the last one stays. -/
structure Succession (α : Type) where
  earlier : List α
  last : α

namespace Succession

variable {α β : Type}

/-- The answer to the call with the number `n`. -/
def get (s : Succession α) (n : Nat) : α := s.earlier.getD n s.last

/-- What is left after `n` calls. -/
def drop (s : Succession α) (n : Nat) : Succession α := ⟨s.earlier.drop n, s.last⟩

def map (f : α → β) (s : Succession α) : Succession β := ⟨s.earlier.map f, f s.last⟩

/-- The script that answers so, without delays and failures. -/
def script (s : Succession α) : Script α :=
  some ((s.earlier ++ [s.last]).map fun a => ⟨⟨0⟩, .ok a⟩)

theorem get_map (f : α → β) (s : Succession α) (n : Nat) : (s.map f).get n = f (s.get n) := by
  simp only [map, get, List.getD_eq_getElem?_getD, List.getElem?_map]
  cases s.earlier[n]? <;> rfl

theorem drop_map (f : α → β) (s : Succession α) (n : Nat) :
    (s.map f).drop n = (s.drop n).map f := by
  simp [map, drop, List.map_drop]

/-- The last answer stays. -/
theorem get_of_le {s : Succession α} {n : Nat} (h : s.earlier.length ≤ n) : s.get n = s.last :=
  List.getD_eq_default _ _ h

/-- A call takes the next answer. -/
theorem next_script (argument : String) (s : Succession α) (n : Nat) :
    Script.next argument (s.drop n).script =
      (⟨⟨0⟩, .ok (s.get n)⟩, (s.drop (n + 1)).script) := by
  rcases Nat.lt_or_ge n s.earlier.length with more | beyond
  · rw [get, List.getD_eq_getElem _ _ more, drop, List.drop_eq_getElem_cons more]
    -- something is left behind the answer, so that it does not stay
    obtain ⟨item, rest, hrest⟩ := List.exists_cons_of_ne_nil
      (List.append_ne_nil_of_right_ne_nil (s.earlier.drop (n + 1)) (List.cons_ne_nil s.last []))
    simp only [script, drop, List.cons_append, hrest, List.map_cons]
    rfl
  · rw [get_of_le beyond, drop, drop, List.drop_eq_nil_of_le beyond,
      List.drop_eq_nil_of_le (Nat.le_succ_of_le beyond)]
    rfl

end Succession

/-- The node with these answers. -/
def answering (node : Node) (txs : Succession Transaction) (receipts : Succession Receipt)
    (heads : Succession Nat) : Node :=
  { node with
    ethereumTransactions := (txs.map some).script
    receipts := (receipts.map some).script
    heights := heads.script }

/-- The first transaction that is in a block has the number `p`. -/
def FirstMined (txs : Succession Transaction) (p : Nat) : Prop :=
  (txs.get p).block.isSome ∧ ∀ i < p, (txs.get i).block = none

/-- The first head that is as far ahead of the block as required has the number `k`. -/
def FirstDeep (required block : Nat) (heads : Succession Nat) (k : Nat) : Prop :=
  required ≤ heads.get k - block ∧ ∀ i < k, heads.get i - block < required

theorem exists_firstMined {txs : Succession Transaction} {i : Nat}
    (h : (txs.get i).block ≠ none) : ∃ p ≤ i, FirstMined txs p := by
  have hsome : ∃ p, (txs.get p).block.isSome := ⟨i, Option.isSome_iff_ne_none.2 h⟩
  exact ⟨Nat.find hsome, Nat.find_min' hsome (Option.isSome_iff_ne_none.2 h),
    Nat.find_spec hsome, fun j hj => Option.not_isSome_iff_eq_none.1 (Nat.find_min hsome hj)⟩

theorem exists_firstDeep {required block : Nat} {heads : Succession Nat}
    (h : ∃ k, required ≤ heads.get k - block) : ∃ k, FirstDeep required block heads k :=
  ⟨Nat.find h, Nat.find_spec h, fun _ hj => Nat.lt_of_not_le (Nat.find_min h hj)⟩

/-- The head is the same as the one before it. -/
def Stalls (heads : Succession Nat) (i : Nat) : Prop := 0 < i ∧ heads.get i = heads.get (i - 1)

instance (heads : Succession Nat) : DecidablePred (Stalls heads) :=
  fun i => inferInstanceAs (Decidable (0 < i ∧ heads.get i = heads.get (i - 1)))

/-- How many of the first `k` heads are the same as the one before. -/
def stalls (heads : Succession Nat) (k : Nat) : Nat := Nat.count (Stalls heads) k

theorem stalls_zero (heads : Succession Nat) : stalls heads 0 = 0 := Nat.count_zero _

theorem stalls_succ_of_stalls {heads : Succession Nat} {i : Nat} (h : Stalls heads i) :
    stalls heads (i + 1) = stalls heads i + 1 := by
  rw [stalls, Nat.count_succ, if_pos h]
  rfl

theorem stalls_succ_of_not {heads : Succession Nat} {i : Nat} (h : ¬Stalls heads i) :
    stalls heads (i + 1) = stalls heads i := by
  rw [stalls, Nat.count_succ, if_neg h]
  rfl

/-- The heads stall for good in the end. -/
theorem le_stalls (heads : Succession Nat) (n : Nat) :
    n ≤ stalls heads (heads.earlier.length + 1 + n) := by
  induction n with
  | zero => exact Nat.zero_le _
  | succ n ih =>
      have stall : Stalls heads (heads.earlier.length + 1 + n) :=
        ⟨by omega, by
          rw [Succession.get_of_le (by omega), Succession.get_of_le (by omega)]⟩
      rw [← Nat.add_assoc, stalls_succ_of_stalls stall]
      exact Nat.succ_le_succ ih

/-- Where the stalls exceed a number there is one that does it. -/
theorem exists_stall {heads : Succession Nat} {enough m : Nat} (h : enough < stalls heads m) :
    ∃ n < m, Stalls heads n ∧ stalls heads n = enough := by
  induction m with
  | zero => simp [stalls_zero] at h
  | succ m ih =>
      by_cases before : enough < stalls heads m
      · obtain ⟨n, hn, stall, heq⟩ := ih before
        exact ⟨n, Nat.lt_succ_of_lt hn, stall, heq⟩
      · by_cases stall : Stalls heads m
        · rw [stalls_succ_of_stalls stall] at h
          exact ⟨m, Nat.lt_succ_self m, stall, by omega⟩
        · rw [stalls_succ_of_not stall] at h
          exact absurd h before

namespace Confirmer

variable (c : Confirmer) (hash : Hash) (expected : Expectation) (node : Node)
  (txs : Succession Transaction) (receipts : Succession Receipt) (heads : Succession Nat)
  (block p : Nat)

/-- What the checks say of a transaction and its receipt. -/
def verdict (tx : Transaction) (receipt : Receipt) : Except ConfirmationError Receipt :=
  match validate c.contracts expected tx receipt with
  | .ok () => .ok receipt
  | .error e => .error (.validation e)

/-- The length of `n` pauses. -/
def pauses (n : Nat) : Nat := c.policy.pollInterval.nanos * n

/-- The first `n` looks at the transaction, latest first. -/
def looks : Nat → List (Asked Query Query.Reply)
  | 0 => []
  | n + 1 =>
    ⟨.transaction hash,
      (.ok (some (txs.get n)) : Except ConfirmationError (Option Transaction))⟩ :: looks n

/-- The calls up to the `n`th head, latest first, where the transaction with the number `p` is the
first one in a block. -/
def counts : Nat → List (Asked Query Query.Reply)
  | 0 =>
    ⟨.receipt hash,
      (.ok (some (receipts.get 0)) : Except ConfirmationError (Option Receipt))⟩ ::
      looks hash txs (p + 1)
  | n + 1 => ⟨.head, (.ok (heads.get n) : Except ConfirmationError Nat)⟩ :: counts n

/-- The head before the one with the number `n`. -/
def previous? : Nat → Option Nat
  | 0 => none
  | n + 1 => some (heads.get n)

/-- About to look at the transaction for the `n`th time. -/
def looking (n : Nat) : Moment Query Query.Reply Node Stage :=
  ⟨c.pauses n, answering node (txs.drop n) receipts heads, .looking, looks hash txs n⟩

/-- After the `n`th look at the transaction. -/
def seen (n : Nat) : Moment Query Query.Reply Node Stage :=
  ⟨c.pauses n, answering node (txs.drop (n + 1)) receipts heads, .looked (.ok (some (txs.get n))),
    looks hash txs (n + 1)⟩

/-- After the first receipt. -/
def placed : Moment Query Query.Reply Node Stage :=
  ⟨c.pauses p, answering node (txs.drop (p + 1)) (receipts.drop 1) heads,
    .placed (.ok (some (receipts.get 0))), counts hash txs receipts heads p 0⟩

/-- After the `n`th head. -/
def counted (n : Nat) : Moment Query Query.Reply Node Stage :=
  ⟨c.pauses (p + stalls heads n),
    answering node (txs.drop (p + 1)) (receipts.drop 1) (heads.drop (n + 1)),
    .counted block (previous? heads n) (.ok (heads.get n)),
    counts hash txs receipts heads p (n + 1)⟩

/-- After the pause that follows the `n`th head. -/
def rested (n : Nat) : Moment Query Query.Reply Node Stage :=
  ⟨c.pauses (p + stalls heads n + 1),
    answering node (txs.drop (p + 1)) (receipts.drop 1) (heads.drop (n + 1)),
    .counting block (some (heads.get n)), counts hash txs receipts heads p (n + 1)⟩

/-- After the second receipt, which follows the `n`th head. -/
def buried (n : Nat) : Moment Query Query.Reply Node Stage :=
  ⟨c.pauses (p + stalls heads n),
    answering node (txs.drop (p + 1)) (receipts.drop 2) (heads.drop (n + 1)),
    .buried (.ok (some (receipts.get 1))),
    ⟨.receipt hash,
      (.ok (some (receipts.get 1)) : Except ConfirmationError (Option Receipt))⟩ ::
      counts hash txs receipts heads p (n + 1)⟩

/-- After the last transaction, which follows the `n`th head. -/
def settled (n : Nat) : Moment Query Query.Reply Node Stage :=
  ⟨c.pauses (p + stalls heads n),
    answering node (txs.drop (p + 2)) (receipts.drop 2) (heads.drop (n + 1)),
    .settled (receipts.get 1) (.ok (some (txs.get (p + 1)))),
    ⟨.transaction hash,
      (.ok (some (txs.get (p + 1))) : Except ConfirmationError (Option Transaction))⟩ ::
    ⟨.receipt hash,
      (.ok (some (receipts.get 1)) : Except ConfirmationError (Option Receipt))⟩ ::
      counts hash txs receipts heads p (n + 1)⟩

theorem calls_looks (n : Nat) :
    (looks hash txs n).map Asked.call = List.replicate n (.transaction hash) := by
  induction n with
  | zero => rfl
  | succ n ih => rw [looks, List.map_cons, ih, List.replicate_succ]

theorem calls_counts (n : Nat) :
    (counts hash txs receipts heads p n).map Asked.call =
      List.replicate n .head ++ .receipt hash :: List.replicate (p + 1) (.transaction hash) := by
  induction n with
  | zero => rw [counts, List.map_cons, calls_looks]; rfl
  | succ n ih => rw [counts, List.map_cons, ih]; rfl

theorem answer_transaction (n : Nat) :
    (answering node (txs.drop n) receipts heads).ethereum (.transaction hash) =
      ⟨(.ok (some (txs.get n)) : Except ConfirmationError (Option Transaction)), ⟨0⟩,
        answering node (txs.drop (n + 1)) receipts heads⟩ := by
  simp only [Node.ethereum, answering, ← Succession.drop_map, Succession.next_script,
    Succession.get_map]
  rfl

theorem answer_receipt (n : Nat) :
    (answering node txs (receipts.drop n) heads).ethereum (.receipt hash) =
      ⟨(.ok (some (receipts.get n)) : Except ConfirmationError (Option Receipt)), ⟨0⟩,
        answering node txs (receipts.drop (n + 1)) heads⟩ := by
  simp only [Node.ethereum, answering, ← Succession.drop_map, Succession.next_script,
    Succession.get_map]
  rfl

theorem answer_head (n : Nat) :
    (answering node txs receipts (heads.drop n)).ethereum .head =
      ⟨(.ok (heads.get n) : Except ConfirmationError Nat), ⟨0⟩,
        answering node txs receipts (heads.drop (n + 1))⟩ := by
  simp only [Node.ethereum, Node.height, answering, Succession.next_script]
  rfl

theorem looking_zero :
    looking c hash node txs receipts heads 0 =
      ⟨0, answering node txs receipts heads, .looking, []⟩ := rfl

/-- A look takes no time. -/
theorem proceeds_look (n : Nat) :
    (c.untimed hash expected).Proceeds (looking c hash node txs receipts heads n)
      (seen c hash node txs receipts heads n) :=
  Machine.proceeds_ask rfl (answer_transaction hash node txs receipts heads n) rfl

variable {c hash expected node txs receipts heads block p} {n : Nat}

/-- A transaction that is in no block is looked at again after a pause. -/
theorem proceeds_pending (pending : (txs.get n).block = none) :
    (c.untimed hash expected).Proceeds (seen c hash node txs receipts heads n)
      (looking c hash node txs receipts heads (n + 1)) := by
  have hturn : c.turn hash expected (.looked (.ok (some (txs.get n)))) = c.poll .looking := by
    simp [turn, pending]
  exact .pause (x := seen c hash node txs receipts heads n) hturn

/-- It comes to the `n`th look when no transaction before that was in a block. -/
theorem arrives_seen (pending : ∀ i < n, (txs.get i).block = none) :
    (c.untimed hash expected).Arrives ⟨0, answering node txs receipts heads, .looking, []⟩
      (seen c hash node txs receipts heads n) := by
  induction n with
  | zero => exact .single (proceeds_look c hash expected node txs receipts heads 0)
  | succ n ih =>
      have before := ih fun i hi => pending i (Nat.lt_succ_of_lt hi)
      have paused := before.tail (proceeds_pending (pending n (Nat.lt_succ_self n)))
      exact paused.tail (proceeds_look c hash expected node txs receipts heads (n + 1))

theorem proceeds_mined (mined : (txs.get p).block.isSome) :
    (c.untimed hash expected).Proceeds (seen c hash node txs receipts heads p)
      (placed c hash node txs receipts heads p) := by
  have hturn : c.turn hash expected (.looked (.ok (some (txs.get p)))) =
      askReceipt hash .placed := by
    simp [turn, mined]
  exact Machine.proceeds_ask (x := seen c hash node txs receipts heads p) hturn
    (answer_receipt hash node (txs.drop (p + 1)) receipts heads 0) rfl

theorem proceeds_placed (hblock : (receipts.get 0).block = some block) :
    (c.untimed hash expected).Proceeds (placed c hash node txs receipts heads p)
      (counted c hash node txs receipts heads block p 0) := by
  have hturn : c.turn hash expected (.placed (.ok (some (receipts.get 0)))) =
      askHead block none := by
    simp only [turn, hblock]
  exact Machine.proceeds_ask (x := placed c hash node txs receipts heads p) hturn
    (answer_head node (txs.drop (p + 1)) (receipts.drop 1) heads 0) rfl

theorem previous?_eq_some_iff :
    previous? heads n = some (heads.get n) ↔ Stalls heads n := by
  cases n with
  | zero => simp [previous?, Stalls]
  | succ n => simp [previous?, Stalls, eq_comm]

/-- A head that is too low and the same as the one before is followed by a pause. -/
theorem proceeds_stalled (low : heads.get n - block < c.policy.required)
    (stall : Stalls heads n) :
    (c.untimed hash expected).Proceeds (counted c hash node txs receipts heads block p n)
      (rested c hash node txs receipts heads block p n) := by
  have hturn : c.turn hash expected (.counted block (previous? heads n) (.ok (heads.get n))) =
      c.poll (.counting block (some (heads.get n))) := by
    simp only [turn, ge_iff_le, Nat.not_le.2 low, previous?_eq_some_iff.2 stall, if_true, if_false]
  exact .pause (x := counted c hash node txs receipts heads block p n) hturn

/-- After a head that is too low it comes to the next one. -/
theorem arrives_low (low : heads.get n - block < c.policy.required) :
    (c.untimed hash expected).Arrives (counted c hash node txs receipts heads block p n)
      (counted c hash node txs receipts heads block p (n + 1)) := by
  have hanswer := answer_head node (txs.drop (p + 1)) (receipts.drop 1) heads (n + 1)
  by_cases stall : Stalls heads n
  · refine .tail (.single (proceeds_stalled low stall)) (Machine.proceeds_ask rfl hanswer ?_)
    simp only [counted, stalls_succ_of_stalls stall]
    rfl
  · have hturn : c.turn hash expected (.counted block (previous? heads n) (.ok (heads.get n))) =
        askHead block (some (heads.get n)) := by
      simp only [turn, ge_iff_le, Nat.not_le.2 low, mt previous?_eq_some_iff.1 stall, if_false]
    refine .single (Machine.proceeds_ask
      (x := counted c hash node txs receipts heads block p n) hturn hanswer ?_)
    simp only [counted, stalls_succ_of_not stall]
    rfl

/-- It comes to the `n`th head when no head before that was high enough. -/
theorem arrives_counted (mined : FirstMined txs p) (hblock : (receipts.get 0).block = some block)
    (low : ∀ i < n, heads.get i - block < c.policy.required) :
    (c.untimed hash expected).Arrives ⟨0, answering node txs receipts heads, .looking, []⟩
      (counted c hash node txs receipts heads block p n) := by
  induction n with
  | zero =>
      exact ((arrives_seen mined.2).tail (proceeds_mined mined.1)).tail (proceeds_placed hblock)
  | succ n ih =>
      have before := ih fun i hi => low i (Nat.lt_succ_of_lt hi)
      exact before.trans (arrives_low (low n (Nat.lt_succ_self n)))

/-- After a head that is high enough it comes to the checks. -/
theorem arrives_deep (deep : c.policy.required ≤ heads.get n - block) :
    (c.untimed hash expected).Arrives (counted c hash node txs receipts heads block p n)
      (settled c hash node txs receipts heads p n) := by
  have hturn : c.turn hash expected (.counted block (previous? heads n) (.ok (heads.get n))) =
      askReceipt hash .buried := by
    simp only [turn, ge_iff_le, deep, if_true]
  have toBuried : (c.untimed hash expected).Proceeds
      (counted c hash node txs receipts heads block p n)
      (buried c hash node txs receipts heads p n) :=
    Machine.proceeds_ask (x := counted c hash node txs receipts heads block p n) hturn
      (answer_receipt hash node (txs.drop (p + 1)) receipts (heads.drop (n + 1)) 1) rfl
  exact (Relation.ReflTransGen.single toBuried).tail (Machine.proceeds_ask rfl
    (answer_transaction hash node txs (receipts.drop 2) (heads.drop (n + 1)) (p + 1)) rfl)

theorem turn_settled (hash : Hash) (tx : Transaction) (receipt : Receipt) :
    c.turn hash expected (.settled receipt (.ok (some tx))) =
      .done (c.verdict expected tx receipt) := by
  simp only [turn, verdict]
  cases validate c.contracts expected tx receipt <;> rfl

/-- The end of a confirmation that is in time. -/
theorem finishes_inTime {k : Nat} (mined : FirstMined txs p)
    (hblock : (receipts.get 0).block = some block)
    (deep : FirstDeep c.policy.required block heads k)
    (inTime : c.pauses (p + stalls heads k) ≤ c.policy.deadline.nanos) :
    (ethereumMachine c hash expected).Finishes (answering node txs receipts heads) (c.start 0)
      (c.pauses (p + stalls heads k)) (settled c hash node txs receipts heads p k).asked
      (c.verdict expected (txs.get (p + 1)) (receipts.get 1)) :=
  Machine.finishes_timed (.error (.timeout c.policy.deadline))
    ((arrives_counted mined hblock deep.2).trans (arrives_deep deep.1))
    (turn_settled hash (txs.get (p + 1)) (receipts.get 1)) inTime

/-- The number of the last pause that ends in time. -/
def inTime (c : Confirmer) : Nat := c.policy.deadline.nanos / c.policy.pollInterval.nanos

theorem pauses_inTime_le (c : Confirmer) : c.pauses c.inTime ≤ c.policy.deadline.nanos :=
  Nat.mul_div_le _ _

theorem lt_pauses_inTime_succ (ahead : 0 < c.policy.pollInterval.nanos) :
    c.policy.deadline.nanos < c.pauses (c.inTime + 1) :=
  Nat.lt_mul_div_succ _ ahead

theorem pauses_le_iff (ahead : 0 < c.policy.pollInterval.nanos) :
    c.pauses n ≤ c.policy.deadline.nanos ↔ n ≤ c.inTime := by
  rw [inTime, Nat.le_div_iff_mul_le ahead, pauses, Nat.mul_comm]

/-- While no transaction is in a block, the pause that crosses the deadline is the last. -/
theorem finishes_pending (ahead : 0 < c.policy.pollInterval.nanos)
    (pending : ∀ i ≤ c.inTime, (txs.get i).block = none) :
    ∃ asked, (ethereumMachine c hash expected).Finishes (answering node txs receipts heads)
      (c.start 0) c.policy.deadline.nanos asked (.error (.timeout c.policy.deadline)) := by
  have arrives : (c.untimed hash expected).Arrives
      ⟨0, answering node txs receipts heads, .looking, []⟩
      (seen c hash node txs receipts heads c.inTime) :=
    arrives_seen fun i hi => pending i (Nat.le_of_lt hi)
  exact ⟨_, Machine.finishes_late _ arrives (proceeds_pending (pending c.inTime (Nat.le_refl _)))
    c.pauses_inTime_le (lt_pauses_inTime_succ ahead)⟩

/-- While no head is high enough, the stall whose pause crosses the deadline is the last. -/
theorem finishes_low {m : Nat} (ahead : 0 < c.policy.pollInterval.nanos)
    (mined : FirstMined txs p) (hblock : (receipts.get 0).block = some block)
    (low : ∀ i < m, heads.get i - block < c.policy.required) (before : p ≤ c.inTime)
    (after : c.inTime < p + stalls heads m) :
    ∃ asked, (ethereumMachine c hash expected).Finishes (answering node txs receipts heads)
      (c.start 0) c.policy.deadline.nanos asked (.error (.timeout c.policy.deadline)) := by
  have enough : c.inTime - p < stalls heads m := by omega
  obtain ⟨n, hn, stall, hcount⟩ := exists_stall enough
  have hlast : p + stalls heads n = c.inTime := by omega
  have arrives : (c.untimed hash expected).Arrives
      ⟨0, answering node txs receipts heads, .looking, []⟩
      (counted c hash node txs receipts heads block p n) :=
    arrives_counted mined hblock fun i hi => low i (Nat.lt_trans hi hn)
  refine ⟨_, Machine.finishes_late _ arrives (proceeds_stalled (low n hn) stall) ?_ ?_⟩
  · exact Nat.le_trans (Nat.le_of_eq (congrArg c.pauses hlast)) c.pauses_inTime_le
  · exact Nat.lt_of_lt_of_eq (lt_pauses_inTime_succ ahead)
      (congrArg (fun n => c.pauses (n + 1)) hlast.symm)

/-- The end of a confirmation that is not in time. -/
theorem finishes_overTime (ahead : 0 < c.policy.pollInterval.nanos)
    (hblock : (receipts.get 0).block = some block)
    (late : ∀ p k, FirstMined txs p → FirstDeep c.policy.required block heads k →
      c.policy.deadline.nanos < c.pauses (p + stalls heads k)) :
    ∃ asked, (ethereumMachine c hash expected).Finishes (answering node txs receipts heads)
      (c.start 0) c.policy.deadline.nanos asked (.error (.timeout c.policy.deadline)) := by
  by_cases pending : ∀ i ≤ c.inTime, (txs.get i).block = none
  · exact finishes_pending ahead pending
  push Not at pending
  obtain ⟨i, hi, hblocks⟩ := pending
  obtain ⟨p, hp, mined⟩ := exists_firstMined hblocks
  have before : p ≤ c.inTime := Nat.le_trans hp hi
  by_cases deep : ∃ k, c.policy.required ≤ heads.get k - block
  · obtain ⟨k, first⟩ := exists_firstDeep deep
    have after : c.inTime < p + stalls heads k :=
      Nat.lt_of_not_le fun h => Nat.not_le.2 (late p k mined first) ((pauses_le_iff ahead).2 h)
    exact finishes_low ahead mined hblock first.2 before after
  · push Not at deep
    have after := le_stalls heads (c.inTime + 1)
    have crossed : c.inTime < p + stalls heads (heads.earlier.length + 1 + (c.inTime + 1)) := by
      omega
    exact finishes_low ahead mined hblock (fun i _ => deep i) before crossed

/-- What a confirmation has asked for in the end, latest first: the transaction up to the first look
at which it is in a block, its receipt, the heads up to the first one that is high enough, then
receipt and transaction once more. -/
def inquiries (hash : Hash) (p k : Nat) : List Query :=
  .transaction hash :: .receipt hash :: (List.replicate (k + 1) .head ++
    .receipt hash :: List.replicate (p + 1) (.transaction hash))

/-- The confirmation pauses for each look at which the transaction is in no block and for each head
that stalls. Where these pauses are over at the deadline it ends with what the checks say of the
last transaction and receipt, and else over time at the deadline. -/
theorem finishes_punctually (c : Confirmer) (hash : Hash) (expected : Expectation) (node : Node)
    (txs : Succession Transaction) (receipts : Succession Receipt) (heads : Succession Nat)
    {block : Nat} (ahead : 0 < c.policy.pollInterval.nanos)
    (hblock : (receipts.get 0).block = some block) :
    (∀ p k, FirstMined txs p → FirstDeep c.policy.required block heads k →
      c.policy.pollInterval.nanos * (p + stalls heads k) ≤ c.policy.deadline.nanos →
      ∃ asked,
        (ethereumMachine c hash expected).Finishes (answering node txs receipts heads) (c.start 0)
          (c.policy.pollInterval.nanos * (p + stalls heads k)) asked
          (c.verdict expected (txs.get (p + 1)) (receipts.get 1)) ∧
        asked.map Asked.call = inquiries hash p k) ∧
    ((∀ p k, FirstMined txs p → FirstDeep c.policy.required block heads k →
        c.policy.deadline.nanos < c.policy.pollInterval.nanos * (p + stalls heads k)) →
      ∃ asked,
        (ethereumMachine c hash expected).Finishes (answering node txs receipts heads) (c.start 0)
          c.policy.deadline.nanos asked (.error (.timeout c.policy.deadline))) := by
  refine ⟨fun p k mined deep inTime => ⟨_, finishes_inTime mined hblock deep inTime, ?_⟩,
    finishes_overTime ahead hblock⟩
  rw [settled, List.map_cons, List.map_cons, calls_counts]
  rfl

namespace Stalling

/-- Three confirmations, a look each second, and a deadline of `seconds`. -/
def confirmer (seconds : Nat) : Confirmer := ⟨⟨3, .ofSecs 1, .ofSecs seconds⟩, ⟨1, 2⟩⟩

def transactions : Succession Transaction := ⟨[⟨3, some 1, none⟩], ⟨3, some 1, some 100⟩⟩

def receipt : Receipt := ⟨some 100, some 1, [⟨1, []⟩]⟩

def rising : Succession Nat := ⟨[101, 101, 102], 103⟩

theorem firstMined : FirstMined transactions 1 := by
  refine ⟨rfl, fun i hi => ?_⟩
  obtain rfl := Nat.lt_one_iff.1 hi
  rfl

theorem firstDeep : FirstDeep 3 100 rising 3 := ⟨by decide, by decide⟩

end Stalling

open Stalling in
/-- With one look in vain and one stall the confirmation takes two seconds, or runs out of time. -/
theorem finishes_punctually_stalling :
    0 < (confirmer 2).policy.pollInterval.nanos ∧
      (∃ asked, (ethereumMachine (confirmer 2) 0 ⟨.native, none⟩).Finishes
          (answering Node.empty transactions ⟨[], receipt⟩ rising) ((confirmer 2).start 0)
          (Duration.ofSecs 2).nanos asked (.ok receipt) ∧
        asked.map Asked.call = inquiries 0 1 3) ∧
      ∃ asked, (ethereumMachine (confirmer 1) 0 ⟨.native, none⟩).Finishes
        (answering Node.empty transactions ⟨[], receipt⟩ rising) ((confirmer 1).start 0)
        (Duration.ofSecs 1).nanos asked (.error (.timeout (.ofSecs 1))) := by
  have ahead : 0 < (Duration.ofSecs 1).nanos := by decide
  refine ⟨ahead, ?_, ?_⟩
  · exact (finishes_punctually (confirmer 2) 0 ⟨.native, none⟩ Node.empty transactions
      ⟨[], receipt⟩ rising ahead rfl).1 1 3 firstMined firstDeep (by decide)
  · refine (finishes_punctually (confirmer 1) 0 ⟨.native, none⟩ Node.empty transactions
      ⟨[], receipt⟩ rising ahead rfl).2 fun p k mined deep => ?_
    have hp : 1 ≤ p := Nat.one_le_iff_ne_zero.2 fun h => by
      rw [h] at mined
      exact absurd mined.1 (by decide)
    have hk : 3 ≤ k := by
      by_contra small
      have low := firstDeep.2 k (Nat.lt_of_not_le small)
      have high : 3 ≤ rising.get k - 100 := deep.1
      omega
    have hstalls : 1 ≤ stalls rising k :=
      Nat.le_trans (by decide : 1 ≤ stalls rising 3) (Nat.count_monotone _ hk)
    calc (Duration.ofSecs 1).nanos < (Duration.ofSecs 1).nanos * 2 := by decide
      _ ≤ (Duration.ofSecs 1).nanos * (p + stalls rising k) :=
        Nat.mul_le_mul_left _ (Nat.add_le_add hp hstalls)

end Confirmer

end Settlement.Ethereum
