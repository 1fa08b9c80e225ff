import Settlement.Proofs.Chain.Dash.Total
import Settlement.Proofs.Deadline

/-!
# When a Dash payment is confirmed

A service that never fails answers every call in turn (`Feed`). The confirmation reads answer after
answer, and settles the deposits that are fresh on each, one by one (`usesUp_takeDeposits`,
`usesUp_looking`). It ends with the first answer after which the deposits cover the charge; until
then it has settled every deposit once, in the order in which they were reported, and its total is
their sum (`total_of_deposits`).
-/

namespace Settlement.Dash

/-- What a service answers, time after time, and how long its answers take. -/
structure Feed where
  forwards : Nat → List Deposit
  transactions : String → Nat → Transaction
  heights : Nat → Nat
  delay : Query → Nat → Duration

namespace Feed

def replies (feed : Feed) : Replies Query Query.Reply where
  reply := fun
    | .transaction hash, n =>
      (.ok (feed.transactions hash n) : Except ConfirmationError Transaction)
    | .forward _, n => (.ok (feed.forwards n) : Except ConfirmationError (List Deposit))
    | .height, n => (.ok (feed.heights n) : Except ConfirmationError Nat)
  delay := feed.delay

/-- The deposits of the first `n` answers, each transaction once. -/
def collected (feed : Feed) (n : Nat) : List Deposit :=
  fresh [] ((List.range n).flatMap feed.forwards)

theorem collected_succ (feed : Feed) (n : Nat) :
    feed.collected (n + 1) = feed.collected n ++
      fresh ((feed.collected n).map Deposit.inputHash) (feed.forwards n) := by
  rw [collected, List.range_succ, List.flatMap_append, fresh_append, ← collected,
    List.flatMap_singleton, List.append_nil]

theorem collected_mono (feed : Feed) (n : Nat) :
    feed.collected n <+: feed.collected (n + 1) := by
  rw [collected_succ]
  exact List.prefix_append _ _

end Feed

/-- The transaction is deep at look `depth` and not before. -/
structure Clears (c : Confirmer) (feed : Feed) (hash : String) (depth : Nat) : Prop where
  shallow : ∀ n < depth, (feed.transactions hash n).confirmations ≤ c.policy.required
  deep : c.policy.required < (feed.transactions hash depth).confirmations

/-- Each of the deposits clears. -/
def AllClear (c : Confirmer) (feed : Feed) (depth : String → Nat) (deposits : List Deposit) :
    Prop :=
  ∀ deposit ∈ deposits, Clears c feed deposit.inputHash (depth deposit.inputHash)

theorem AllClear.mono {c : Confirmer} {feed : Feed} {depth : String → Nat}
    {first deposits : List Deposit} (clears : AllClear c feed depth deposits)
    (h : first <+: deposits) : AllClear c feed depth first :=
  fun deposit hdeposit => clears deposit (h.subset hdeposit)

/-- The calls that settle deposits one after the other. -/
def settlements (depth : String → Nat) (deposits : List Deposit) : List Query :=
  deposits.flatMap fun deposit =>
    List.replicate (depth deposit.inputHash + 1) (.transaction deposit.inputHash) ++ [.height]

namespace Confirmer

variable (c : Confirmer) (forward : String) (charge : Decimal) (feed : Feed)

/-- The confirmation of one transaction. -/
def settlement (hash : String) :
    Machine Query Query.Reply (Query → Nat) Settling (Except ConfirmationError Transaction) where
  turn := c.settle hash
  answer := feed.replies.answer

/-- The confirmation without its deadline. -/
def free : Machine Query Query.Reply (Query → Nat) Stage (Except ConfirmationError Decimal) where
  turn := c.turn forward charge
  answer := feed.replies.answer

/-- The confirmation by a service that answers in turn. -/
def watch :
    Machine Query Query.Reply (Query → Nat) (Timed Stage) (Except ConfirmationError Decimal) where
  turn := c.timedTurn forward charge
  answer := feed.replies.answer

/-- The confirmation comes to this moment. -/
abbrev Met (x : Moment Query Query.Reply (Query → Nat) Stage) : Prop :=
  (c.free forward charge feed).Arrives ⟨0, fun _ => 0, .looking .empty, []⟩ x

/-- No lock time is ahead: wherever the confirmation comes to the check of a transaction, its lock
time has been reached then. -/
def NoneAhead : Prop :=
  ∀ x tally deposit rest n i, Met c forward charge feed x →
    x.stage = .settling tally deposit rest
      (.deep (feed.transactions deposit.inputHash n) (.ok (feed.heights i))) →
    LockTime.check (feed.transactions deposit.inputHash n).lockTime (feed.heights i)
      (c.wallClock x.instant) = .ok ()

variable {c forward charge feed} {depth : String → Nat} {n : Nat} {hash : String}
  {settled ahead rest new : List Deposit} {deposit : Deposit} {tally : Tally}

/-- A transaction is looked at until it is deep, and then the height is. -/
theorem arrives_deep {last i k : Nat} (clears : Clears c feed hash last)
    {x : Moment Query Query.Reply (Query → Nat) Settling} (count : n + k = last)
    (stage : x.stage = .looked (.ok (feed.transactions hash n)))
    (looks : x.world (.transaction hash) = n + 1) (heights : x.world .height = i) :
    ∃ y, (c.settlement feed hash).Arrives x y ∧
      y.stage = .deep (feed.transactions hash last) (.ok (feed.heights i)) ∧
      y.world .height = i + 1 ∧
      (∀ q, q ≠ .height → q ≠ .transaction hash → y.world q = x.world q) ∧
      y.asked.map Asked.call =
        .height :: (List.replicate k (.transaction hash) ++ x.asked.map Asked.call) := by
  induction k generalizing n x with
  | zero =>
      obtain rfl : n = last := count
      have hturn : (c.settlement feed hash).turn x.instant x.stage =
          .ask .height none (.deep (feed.transactions hash n)) := by
        rw [stage]
        exact if_pos clears.deep
      obtain ⟨y, step, hworld, hstage, hasked⟩ := Replies.exists_proceeds rfl hturn heights
      refine ⟨y, .single step, hstage, by simp [hworld], fun q hq _ => by simp [hworld, hq], ?_⟩
      rw [hasked]
      rfl
  | succ k ih =>
      have hshallow := clears.shallow n (by omega)
      have hturn : (c.settlement feed hash).turn x.instant x.stage =
          .pause (c.wait (feed.transactions hash n).confirmations) none .looking .interrupted := by
        rw [stage]
        exact if_neg (Nat.not_lt.2 hshallow)
      have paused := Machine.Proceeds.pause hturn
      obtain ⟨y, looked, hworld, hstage, hasked⟩ :=
        Replies.exists_proceeds (m := c.settlement feed hash) (x := ⟨_, _, .looking, _⟩)
          rfl rfl looks
      obtain ⟨z, row, hdeep, hheights, hothers, hcalls⟩ := ih (n := n + 1) (by omega) hstage
        (by simp [hworld]) (by simpa [hworld] using heights)
      refine ⟨z, .head paused (.head looked row), hdeep, hheights, fun q hq hq' => ?_, ?_⟩
      · rw [hothers q hq hq', hworld]
        simp [hq']
      · rw [hcalls, hasked, List.replicate_succ']
        simp

/-- What has been asked when `n` answers have been read and some deposits settled. -/
structure Made (forward : String) (depth : String → Nat) (n : Nat) (settled : List Deposit)
    (x : Moment Query Query.Reply (Query → Nat) Stage) : Prop where
  forwards : x.world (.forward forward) = n
  heights : x.world .height = settled.length
  unasked : ∀ hash, hash ∉ settled.map Deposit.inputHash → x.world (.transaction hash) = 0
  polls : (x.asked.map Asked.call).count (.forward forward) = n
  calls : ((x.asked.map Asked.call).filter fun q => q ≠ .forward forward).reverse =
    settlements depth settled

/-- A deposit is settled, and what is left of the answer is taken up. -/
theorem arrives_settled (reached : NoneAhead c forward charge feed)
    {x : Moment Query Query.Reply (Query → Nat) Stage} (met : Met c forward charge feed x)
    (made : Made forward depth n settled x) (holds : tally.Holds settled)
    (new : deposit.inputHash ∉ tally.seen)
    (turn : c.turn forward charge x.instant x.stage = .ask (.transaction deposit.inputHash) none
      fun r => .settling (tally.see deposit) deposit rest (.looked r))
    (clears : Clears c feed deposit.inputHash (depth deposit.inputHash))
    (small : duffs (settled ++ [deposit]) < Decimal.bound) :
    ∃ y tally', (c.free forward charge feed).Arrives x y ∧
      Made forward depth n (settled ++ [deposit]) y ∧ tally'.Holds (settled ++ [deposit]) ∧
      c.turn forward charge y.instant y.stage = c.takeDeposits charge tally' rest := by
  have unseen := mt (holds.seen _).2 new
  obtain ⟨tally', hsum⟩ := Tally.exists_add? holds small
  obtain ⟨⟨now, world, stage, asked⟩, step, hworld, hstage, hasked⟩ :=
    Replies.exists_proceeds (m := c.free forward charge feed) rfl turn (made.unasked _ unseen)
  dsimp only at hworld hstage hasked
  obtain ⟨y, row, hdeep, hheights, hothers, hcalls⟩ := arrives_deep clears
    (x := ⟨now, world, .looked (.ok (feed.transactions deposit.inputHash 0)), asked⟩)
    (Nat.zero_add _) rfl (by simp [hworld]) (by simpa [hworld] using made.heights)
  have whole := row.within (n := c.free forward charge feed)
    (.settling (tally.see deposit) deposit rest) rfl fun now s => rfl
  subst hstage
  have check := reached _ _ _ _ _ _ (met.trans (.head step whole)) (congrArg _ hdeep)
  refine ⟨_, tally', .head step whole, ⟨?_, ?_, fun other hother => ?_, ?_, ?_⟩,
    Tally.holds_add? holds hsum, ?_⟩
  · have hsame := hothers (.forward forward) (by simp) (by simp)
    simpa [Moment.map, hsame, hworld] using made.forwards
  · simpa [Moment.map] using hheights
  · obtain ⟨hsettled, hne⟩ : other ∉ settled.map Deposit.inputHash ∧ other ≠ deposit.inputHash := by
      simpa [not_or] using hother
    have hsame := hothers (.transaction other) (by simp) (by simpa using hne)
    simpa [Moment.map, hsame, hworld, hne] using made.unasked other hsettled
  · have hpolls := made.polls
    simp only [Moment.map, hcalls, hasked]
    simpa [List.count_cons, List.count_append, List.count_replicate] using hpolls
  · have hcalls' := made.calls
    simp only [Moment.map, hcalls, hasked]
    simp only [settlements, List.flatMap_append, List.flatMap_singleton] at hcalls' ⊢
    rw [← hcalls']
    simp [List.filter_append, List.replicate_succ]
  · simp only [Moment.map] at check
    simp only [Moment.map, hdeep, Confirmer.turn, settle, check, hsum]
    rfl

/-- What is done when an answer has been used up. -/
def afterwards (c : Confirmer) (charge : Decimal) (tally : Tally) : Step Stage :=
  if tally.covers charge then .done (.ok tally.total)
  else .pause c.forwardPollInterval none (.looking tally) .interrupted

/-- From a moment on an answer is used up; then `n` answers have been read and some deposits
settled. -/
def UsesUp (c : Confirmer) (forward : String) (charge : Decimal) (feed : Feed)
    (depth : String → Nat) (n : Nat) (settled : List Deposit)
    (x : Moment Query Query.Reply (Query → Nat) Stage) : Prop :=
  ∃ y tally, (c.free forward charge feed).Arrives x y ∧ Made forward depth n settled y ∧
    tally.Holds settled ∧ c.turn forward charge y.instant y.stage = c.afterwards charge tally

/-- The fresh deposits of an answer are settled one by one. -/
theorem usesUp_takeDeposits (reached : NoneAhead c forward charge feed)
    {x : Moment Query Query.Reply (Query → Nat) Stage} (met : Met c forward charge feed x)
    (made : Made forward depth n settled x) (holds : tally.Holds settled)
    (hnew : fresh tally.seen ahead = new)
    (turn : c.turn forward charge x.instant x.stage = c.takeDeposits charge tally ahead)
    (clears : AllClear c feed depth (settled ++ new))
    (small : duffs (settled ++ new) < Decimal.bound) :
    UsesUp c forward charge feed depth n (settled ++ new) x := by
  induction new generalizing settled ahead tally x with
  | nil =>
      rcases c.takeDeposits_cases charge tally ahead with
        ⟨-, hturn⟩ | ⟨deposit, rest, -, hfresh, -⟩
      · rw [List.append_nil]
        exact ⟨x, tally, .refl, made, holds, turn.trans hturn⟩
      · simp [hnew] at hfresh
  | cons deposit new ih =>
      rcases c.takeDeposits_cases charge tally ahead with
        ⟨hnone, -⟩ | ⟨first, rest, unseen, hfresh, hturn⟩
      · simp [hnew] at hnone
      obtain ⟨rfl, hrest⟩ := List.cons.inj (hnew.symm.trans hfresh)
      have hassoc : settled ++ deposit :: new = settled ++ [deposit] ++ new := by simp
      rw [hassoc] at clears small ⊢
      have small' := (duffs_mono (List.prefix_append _ new)).trans_lt small
      obtain ⟨y, tally', row, made', holds', hturn'⟩ := arrives_settled reached met made holds
        unseen (turn.trans hturn) (clears deposit (by simp)) small'
      have same : ∀ hash, hash ∈ tally'.seen ↔ hash ∈ (tally.see deposit).seen := fun hash => by
        rw [holds'.seen, Tally.see, List.mem_cons, holds.seen]
        simp [or_comm]
      obtain ⟨z, tally'', row', rest'⟩ := ih (met.trans row) made' holds'
        ((fresh_congr same rest).trans hrest.symm) hturn' clears small
      exact ⟨z, tally'', row.trans row', rest'⟩

/-- An answer is asked for, and its fresh deposits are settled. -/
theorem usesUp_looking (reached : NoneAhead c forward charge feed)
    {x : Moment Query Query.Reply (Query → Nat) Stage} (met : Met c forward charge feed x)
    (made : Made forward depth n (feed.collected n) x) (holds : tally.Holds (feed.collected n))
    (stage : x.stage = .looking tally) (clears : AllClear c feed depth (feed.collected (n + 1)))
    (small : duffs (feed.collected (n + 1)) < Decimal.bound) :
    UsesUp c forward charge feed depth (n + 1) (feed.collected (n + 1)) x := by
  have hturn : (c.free forward charge feed).turn x.instant x.stage =
      .ask (.forward forward) none (.looked tally) := by
    rw [stage]
    rfl
  obtain ⟨y, asked, hworld, hstage, hasked⟩ :=
    Replies.exists_proceeds rfl hturn made.forwards
  have made' : Made forward depth (n + 1) (feed.collected n) y := by
    refine ⟨by simp [hworld], by simpa [hworld] using made.heights, fun hash hhash => ?_, ?_, ?_⟩
    · simpa [hworld] using made.unasked hash hhash
    · simpa [hasked] using made.polls
    · simpa [hasked] using made.calls
  have hfresh : fresh tally.seen (feed.forwards n) =
      fresh ((feed.collected n).map Deposit.inputHash) (feed.forwards n) :=
    fresh_congr holds.seen _
  rw [Feed.collected_succ] at clears small ⊢
  obtain ⟨z, tally', row, rest⟩ := usesUp_takeDeposits reached (met.tail asked) made' holds hfresh
    (by rw [hstage]; rfl) clears small
  exact ⟨z, tally', .head asked row, rest⟩

/-- Answer after answer is used up while the deposits do not cover the charge. -/
theorem usesUp_start (reached : NoneAhead c forward charge feed)
    (clears : AllClear c feed depth (feed.collected (n + 1)))
    (small : duffs (feed.collected (n + 1)) < Decimal.bound)
    (short : ∀ i < n, ¬Covers charge (feed.collected (i + 1))) :
    UsesUp c forward charge feed depth (n + 1) (feed.collected (n + 1))
      ⟨0, fun _ => 0, .looking .empty, []⟩ := by
  induction n with
  | zero =>
      exact usesUp_looking reached .refl ⟨rfl, rfl, fun _ _ => rfl, rfl, rfl⟩ Tally.holds_empty rfl
        clears small
  | succ n ih =>
      have part := feed.collected_mono (n + 1)
      have small' := (duffs_mono part).trans_lt small
      obtain ⟨y, tally, row, made, holds, hturn⟩ := ih (clears.mono part) small'
        fun i hi => short i (Nat.lt_succ_of_lt hi)
      have hshort := mt (Tally.covers_iff holds small').1 (short n (Nat.lt_succ_self n))
      rw [afterwards, if_neg hshort] at hturn
      have paused := Machine.Proceeds.pause (m := c.free forward charge feed) hturn
      have more : UsesUp c forward charge feed depth (n + 2) (feed.collected (n + 2))
          ⟨y.instant + c.forwardPollInterval.nanos, y.world, .looking tally, y.asked⟩ :=
        usesUp_looking reached (row.tail paused)
          ⟨made.forwards, made.heights, made.unasked, made.polls, made.calls⟩ holds rfl clears small
      obtain ⟨z, tally', row', rest⟩ := more
      exact ⟨z, tally', (row.tail paused).trans row', rest⟩

/-- The first turns of a confirmation, with a service that may answer anything. -/
def attempt {W : Type} (c : Confirmer) (forward : String) (charge : Decimal)
    (answer : Instant → (call : Query) → W → Answer W call.Reply) (world : W)
    (cancelAt : Option Instant) (fuel : Nat) :
    System Query Query.Reply W (Timed Stage) (Except ConfirmationError Decimal) :=
  System.run ⟨c.timedTurn forward charge, answer⟩ fuel
    ⟨0, world, [.begin (c.start 0) cancelAt], 0, []⟩

/-- When all deposits clear and no lock time is ahead, the confirmation ends with the first answer
after which they cover the charge, if that is in time: its total is their sum, and it has settled
each of them once and in order. Whatever is answered, a total that is returned covers the charge and
is the sum of the deposits that were reported, and each of these has cleared. -/
theorem total_of_deposits (c : Confirmer) (forward : String) (charge : Decimal) :
    (∀ feed depth j, NoneAhead c forward charge feed →
        AllClear c feed depth (feed.collected (j + 1)) →
        duffs (feed.collected (j + 1)) < Decimal.bound →
        Covers charge (feed.collected (j + 1)) →
        (∀ i < j, ¬Covers charge (feed.collected (i + 1))) →
        ∃ instant asked,
          (c.free forward charge feed).Finishes (fun _ => 0) (.looking .empty) instant asked
            (.ok (duffsToDash (duffs (feed.collected (j + 1))))) ∧
          (instant ≤ c.policy.deadline.nanos →
            (c.watch forward charge feed).Finishes (fun _ => 0) (c.start 0) instant asked
              (.ok (duffsToDash (duffs (feed.collected (j + 1)))))) ∧
          (asked.map Asked.call).count (.forward forward) = j + 1 ∧
          ((asked.map Asked.call).filter fun q => q ≠ .forward forward).reverse =
            settlements depth (feed.collected (j + 1))) ∧
      ∀ (W : Type) (answer : Instant → (call : Query) → W → Answer W call.Reply) (world : W)
        (cancelAt : Option Instant) (fuel : Nat) (total : Decimal),
        (attempt c forward charge answer world cancelAt fuel).result? 0 = some (.ok total) →
        ∃ deposits,
          deposits =
            fresh [] (forwarded ((attempt c forward charge answer world cancelAt fuel).askedBy 0)) ∧
          deposits ≠ [] ∧ charge.value ≤ total.value ∧
          (duffs deposits < Decimal.bound → total = duffsToDash (duffs deposits)) ∧
          ∀ d ∈ deposits,
            Cleared c (attempt c forward charge answer world cancelAt fuel).now
              ((attempt c forward charge answer world cancelAt fuel).askedBy 0) d.inputHash := by
  refine ⟨fun feed depth j reached clears small covers short => ?_, ?_⟩
  · obtain ⟨y, tally, row, made, holds, hturn⟩ := usesUp_start reached clears small short
    have htotal : tally.total = duffsToDash (duffs (feed.collected (j + 1))) := by
      rw [holds.total small, total, if_neg covers.1]
    rw [afterwards, if_pos ((Tally.covers_iff holds small).2 covers), htotal] at hturn
    exact ⟨y.instant, y.asked, Machine.finishes_of_next row.next hturn,
      Machine.finishes_timed _ row hturn, made.polls, made.calls⟩
  · intro W answer world cancelAt fuel total ok
    obtain ⟨y, comes, stops, hnow, hasked⟩ := Machine.comes_of_result? ok
    rcases counting_of_comes comes with hexpired | ⟨stage, hstage, counting⟩
    · rw [Machine.StopsAt, hexpired] at stops
      cases stops
    · rw [Machine.StopsAt, hstage] at stops
      have ends := Turn.eq_done_of_stops
        (Ranked.stops_of_timed (.error (.timeout c.policy.deadline)) stops)
      obtain ⟨hcharge, hne, htotal, cleared⟩ := total_of_counting counting ends
      rw [attempt, hnow, hasked]
      exact ⟨_, rfl, hne, hcharge, htotal, cleared⟩

end Confirmer

namespace Confirmer

namespace Sample

def confirmer : Confirmer := ⟨⟨3, .ofSecs 120, .ofSecs 5400⟩, .ofSecs 240, fun _ => 0⟩

/-- Two answers with one deposit in common, whose transaction is shallow when it is first read. -/
def feed : Feed where
  forwards := fun n => if n = 0 then [⟨"a", 50000000⟩] else [⟨"b", 100000000⟩, ⟨"a", 50000000⟩]
  transactions := fun hash n => ⟨hash, 0, if hash = "a" ∧ n = 0 then 1 else 4⟩
  heights := fun _ => 900000
  delay := fun _ _ => ⟨0⟩

def depth (hash : String) : Nat := if hash = "a" then 1 else 0

def charge : Decimal := ⟨15, 1⟩

end Sample

open Sample in
/-- The two deposits are the charge, and the second answer brings no deposit twice. -/
theorem total_of_deposits_two_answers :
    ∃ asked,
      (confirmer.watch "forward" charge feed).Finishes (fun _ => 0) (confirmer.start 0)
        (Duration.ofSecs 600).nanos asked (.ok ⟨150000000, 8⟩) ∧
      ((asked.map Asked.call).filter fun q => q ≠ .forward "forward").reverse =
        [.transaction "a", .transaction "a", .height, .transaction "b", .height] := by
  have collected : feed.collected 2 = [⟨"a", 50000000⟩, ⟨"b", 100000000⟩] := by decide +kernel
  have clears : AllClear confirmer feed depth (feed.collected 2) := by
    rw [collected]
    have shallow : ∀ hash, ∀ n < depth hash, (feed.transactions hash n).confirmations ≤ 3 := by
      intro hash n hn
      by_cases first : hash = "a"
      · subst first
        obtain rfl : n = 0 := Nat.lt_one_iff.1 hn
        decide
      · simp [depth, first] at hn
    have first : Clears confirmer feed "a" 1 := ⟨shallow "a", by decide⟩
    have second : Clears confirmer feed "b" 0 := ⟨shallow "b", by decide⟩
    simpa [AllClear] using ⟨first, second⟩
  have reached : NoneAhead confirmer "forward" charge feed :=
    fun _ _ _ _ _ _ _ _ => LockTime.check_eq_ok_iff.2 (Nat.zero_le _)
  have covers : Covers charge (feed.collected 2) := by
    rw [collected]
    exact ⟨by simp, by norm_num [charge, duffs, Decimal.value]⟩
  have short : ∀ i < 1, ¬Covers charge (feed.collected (i + 1)) := by
    intro i hi hcovers
    obtain rfl : i = 0 := Nat.lt_one_iff.1 hi
    have first : feed.collected 1 = [⟨"a", 50000000⟩] := by decide +kernel
    have hcharge := hcovers.2
    rw [first] at hcharge
    norm_num [charge, duffs, Decimal.value] at hcharge
  have small : duffs (feed.collected 2) < Decimal.bound := by
    rw [collected]
    decide
  obtain ⟨instant, asked, ends, inTime, -, calls⟩ :=
    (total_of_deposits confirmer "forward" charge).1 feed depth 1 reached clears small covers short
  rw [collected] at ends inTime calls
  have last : (System.run (confirmer.free "forward" charge feed) 20
      ⟨0, fun _ => 0, [.begin (.looking .empty) none], 0, []⟩).workers =
        [⟨none, false, .finished (Duration.ofSecs 600).nanos (.ok ⟨150000000, 8⟩)⟩] := rfl
  obtain ⟨rfl, -, -⟩ := ends.unique (Machine.finishes_of_run last)
  exact ⟨asked, inTime (by decide), calls⟩

end Confirmer

end Settlement.Dash
