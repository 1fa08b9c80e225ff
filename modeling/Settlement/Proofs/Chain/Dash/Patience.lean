import Mathlib.Algebra.BigOperators.Group.Finset.Basic
import Settlement.Proofs.Chain.Dash.Collected
import Settlement.Proofs.Solo

/-!
# How long a deposit's transaction is waited for

A service answers at once, and for one transaction with what `txs` says, look after look. After a
look that is not deep enough the wait is the poll interval for each confirmation that is missing
(`Confirmer.gap`), so the looks are made at the instants `Confirmer.elapsed`. The transaction is
looked at up to the first look that is deep enough, the height is asked for once, and then the lock
time decides; without such a look there is no end (`settles_iff`).
-/

namespace Settlement.Dash

/-- A service that answers at once. -/
def prompt (txs : Nat → Transaction) (heights : Nat → Nat) : Feed where
  forwards := fun _ => []
  transactions := fun _ => txs
  heights := heights
  delay := fun _ _ => ⟨0⟩

namespace Confirmer

variable (c : Confirmer) (hash : String) (txs : Nat → Transaction) (heights : Nat → Nat)

/-- The wait after a count of confirmations that is not enough, in nanoseconds: the poll interval
for each one that is missing, of which at most 2^32 - 1 are counted, and no longer than a duration
can be. -/
def gap (confirmations : Nat) : Nat :=
  min (c.policy.pollInterval.nanos * min (c.policy.required + 1 - confirmations) (2 ^ 32 - 1))
    Duration.longest.nanos

/-- The instant of the look with the number `n`. -/
def elapsed (n : Nat) : Instant := ∑ i ∈ Finset.range n, c.gap (txs i).confirmations

/-- The first `n` looks at the transaction, latest first. -/
def looks : Nat → List (Entry Query Query.Reply)
  | 0 => []
  | n + 1 =>
    ⟨c.elapsed txs n, 0, .transaction hash, (.ok (txs n) : Except ConfirmationError Transaction)⟩ ::
      looks n

/-- No look before the one with the number `n` was deep enough. -/
def ShallowBefore (n : Nat) : Prop := ∀ i < n, (txs i).confirmations ≤ c.policy.required

/-- What is made of a transaction that is deep enough, with the clock as it is at an instant. -/
def judged (now : Instant) (tx : Transaction) (height : Nat) :
    Except ConfirmationError Transaction :=
  if tx.lockTime ≤ LockTime.current tx.lockTime height (c.wallClock now) then .ok tx
  else .error (.validation (.lockTimeNotReached tx.lockTime
    (LockTime.current tx.lockTime height (c.wallClock now))))

/-- The transaction has been asked for `n` times, and nothing else has. -/
def asks (n : Nat) : Query → Nat := Function.update (fun _ => 0) (.transaction hash) n

/-- About to look for the `n`th time. -/
def looking (n : Nat) : Point Query Query.Reply (Query → Nat) Settling :=
  ⟨c.elapsed txs n, asks hash n, .looking, c.looks hash txs n⟩

/-- After the `n`th look. -/
def looked (n : Nat) : Point Query Query.Reply (Query → Nat) Settling :=
  ⟨c.elapsed txs n, asks hash (n + 1), .looked (.ok (txs n)), c.looks hash txs (n + 1)⟩

/-- After the height, which follows the `n`th look. -/
def buried (n : Nat) : Point Query Query.Reply (Query → Nat) Settling :=
  ⟨c.elapsed txs n, Function.update (asks hash (n + 1)) .height 1,
    .deep (txs n) (.ok (heights 0)),
    ⟨c.elapsed txs n, 0, .height, (.ok (heights 0) : Except ConfirmationError Nat)⟩ ::
      c.looks hash txs (n + 1)⟩

theorem looking_zero : c.looking hash txs 0 = ⟨0, fun _ => 0, .looking, []⟩ := by
  have hasks : asks hash 0 = fun _ => 0 := Function.update_eq_self _ _
  rw [looking, hasks]
  rfl

variable {c hash txs heights} {n : Nat}

/-- The number of missing confirmations does not underflow, and no wait is shorter than the poll
interval. -/
theorem gap_spec (inRange : c.policy.pollInterval.InRange) {confirmations : Nat}
    (shallow : confirmations ≤ c.policy.required) :
    ∃ missing, confirmations + missing = c.policy.required + 1 ∧ 1 ≤ missing ∧
      c.gap confirmations = min (c.policy.pollInterval.nanos * min missing (2 ^ 32 - 1))
        Duration.longest.nanos ∧
      c.policy.pollInterval.nanos ≤ c.gap confirmations := by
  have one : 1 ≤ min (c.policy.required + 1 - confirmations) (2 ^ 32 - 1) :=
    Nat.le_min.2 ⟨by omega, by decide⟩
  exact ⟨c.policy.required + 1 - confirmations, by omega, by omega, rfl,
    Nat.le_min.2 ⟨Nat.le_mul_of_pos_right _ one, inRange⟩⟩

/-- The number of confirmations that are needed is a word, so it is not wrapped. -/
theorem nanos_wait (small : c.policy.required < 2 ^ 64 - 1) {confirmations : Nat}
    (shallow : confirmations ≤ c.policy.required) :
    (c.wait confirmations).nanos = c.gap confirmations := by
  have word : (c.policy.required + 1) % twoPow 64 = c.policy.required + 1 :=
    Nat.mod_eq_of_lt (show c.policy.required + 1 < 2 ^ 64 by omega)
  have hmissing : c.missing confirmations = c.policy.required + 1 - confirmations := by
    rw [missing, word, Nat.max_eq_left (by omega)]
  rw [wait, hmissing]
  rfl

theorem elapsed_succ (n : Nat) :
    c.elapsed txs (n + 1) = c.elapsed txs n + c.gap (txs n).confirmations :=
  Finset.sum_range_succ _ n

theorem after_looking (n : Nat) :
    (c.settlement (prompt txs heights) hash).after? none (c.looking hash txs n) =
      some (c.looked hash txs n) := by
  have hturn : (c.settlement (prompt txs heights) hash).turn (c.looking hash txs n).instant
      (c.looking hash txs n).stage = .ask (.transaction hash) none .looked := rfl
  rw [Machine.after?_ask hturn]
  simp [settlement, Replies.answer, Feed.replies, prompt, looking, looked, asks, endOfWait, looks]

theorem after_shallow (small : c.policy.required < 2 ^ 64 - 1)
    (shallow : (txs n).confirmations ≤ c.policy.required) :
    (c.settlement (prompt txs heights) hash).after? none (c.looked hash txs n) =
      some (c.looking hash txs (n + 1)) := by
  have hturn : (c.settlement (prompt txs heights) hash).turn (c.looked hash txs n).instant
      (c.looked hash txs n).stage =
        .pause (c.wait (txs n).confirmations) none .looking .interrupted :=
    if_neg (Nat.not_lt.2 shallow)
  rw [Machine.after?_pause hturn]
  simp [endOfPause, endOfWait, nanos_wait small shallow, looked, looking, elapsed_succ]

theorem after_deep (deep : c.policy.required < (txs n).confirmations) :
    (c.settlement (prompt txs heights) hash).after? none (c.looked hash txs n) =
      some (c.buried hash txs heights n) := by
  have hturn : (c.settlement (prompt txs heights) hash).turn (c.looked hash txs n).instant
      (c.looked hash txs n).stage = .ask .height none (.deep (txs n)) :=
    if_pos deep
  rw [Machine.after?_ask hturn]
  simp [settlement, Replies.answer, Feed.replies, prompt, looked, buried, asks, endOfWait]

theorem stops_buried (n : Nat) :
    (c.settlement (prompt txs heights) hash).StopsAt (c.buried hash txs heights n)
      (some (c.judged (c.elapsed txs n) (txs n) (heights 0))) := by
  have hturn : c.settle hash (c.elapsed txs n) (.deep (txs n) (.ok (heights 0))) =
      .done (c.judged (c.elapsed txs n) (txs n) (heights 0)) := by
    by_cases reached : (txs n).lockTime ≤
        LockTime.current (txs n).lockTime (heights 0) (c.wallClock (c.elapsed txs n))
    · simp [settle, judged, reached, LockTime.check_eq_ok_iff.2 reached]
    · simp [settle, judged, reached, LockTime.check, Nat.lt_of_not_le reached]
  simp only [Machine.StopsAt, settlement, buried, hturn]
  rfl

/-- It comes to the `n`th look when no look before that was deep enough. -/
theorem comes_looked (small : c.policy.required < 2 ^ 64 - 1) (shallow : c.ShallowBefore txs n) :
    (c.settlement (prompt txs heights) hash).Comes none ⟨0, fun _ => 0, .looking, []⟩
      (c.looked hash txs n) := by
  induction n with
  | zero =>
      rw [← c.looking_zero hash txs]
      exact .single (after_looking 0)
  | succ n ih =>
      have before := ih fun i hi => shallow i (Nat.lt_succ_of_lt hi)
      have paused := before.tail (after_shallow small (shallow n (Nat.lt_succ_self n)))
      exact paused.tail (after_looking (n + 1))

/-- Where the confirmation of the transaction may be. -/
inductive Standing (c : Confirmer) (hash : String) (txs : Nat → Transaction)
    (heights : Nat → Nat) : Point Query Query.Reply (Query → Nat) Settling → Prop
  | looking {n : Nat} (shallow : c.ShallowBefore txs n) :
      Standing c hash txs heights (c.looking hash txs n)
  | looked {n : Nat} (shallow : c.ShallowBefore txs n) :
      Standing c hash txs heights (c.looked hash txs n)
  | buried {n : Nat} (shallow : c.ShallowBefore txs n)
      (deep : c.policy.required < (txs n).confirmations) :
      Standing c hash txs heights (c.buried hash txs heights n)

theorem Standing.next {x y : Point Query Query.Reply (Query → Nat) Settling}
    (small : c.policy.required < 2 ^ 64 - 1) (standing : Standing c hash txs heights x)
    (step : (c.settlement (prompt txs heights) hash).after? none x = some y) :
    Standing c hash txs heights y := by
  cases standing with
  | @looking n shallow =>
      obtain rfl := Option.some.inj ((after_looking n).symm.trans step)
      exact .looked shallow
  | @looked n shallow =>
      rcases Nat.lt_or_ge c.policy.required (txs n).confirmations with deep | still
      · obtain rfl := Option.some.inj ((after_deep deep).symm.trans step)
        exact .buried shallow deep
      · obtain rfl := Option.some.inj ((after_shallow small still).symm.trans step)
        refine .looking fun i hi => ?_
        rcases Nat.lt_succ_iff_lt_or_eq.1 hi with hi | rfl
        · exact shallow i hi
        · exact still
  | @buried n shallow deep =>
      rw [Machine.after?_of_stops (stops_buried n)] at step
      cases step

theorem standing_of_comes {x : Point Query Query.Reply (Query → Nat) Settling}
    (small : c.policy.required < 2 ^ 64 - 1)
    (comes : (c.settlement (prompt txs heights) hash).Comes none ⟨0, fun _ => 0, .looking, []⟩ x) :
    Standing c hash txs heights x := by
  induction comes with
  | refl =>
      rw [← c.looking_zero hash txs]
      exact .looking fun i hi => absurd hi (Nat.not_lt_zero i)
  | tail _ step ih => exact ih.next small step

/-- It stops only where the transaction is deep enough. -/
theorem Standing.stops {x : Point Query Query.Reply (Query → Nat) Settling}
    {result : Option (Except ConfirmationError Transaction)}
    (small : c.policy.required < 2 ^ 64 - 1) (standing : Standing c hash txs heights x)
    (stops : (c.settlement (prompt txs heights) hash).StopsAt x result) :
    ∃ n, c.ShallowBefore txs n ∧ c.policy.required < (txs n).confirmations ∧
      x = c.buried hash txs heights n ∧
        result = some (c.judged (c.elapsed txs n) (txs n) (heights 0)) := by
  have ended : (c.settlement (prompt txs heights) hash).after? none x = none :=
    Machine.after?_of_stops stops
  cases standing with
  | @looking n shallow =>
      rw [after_looking] at ended
      cases ended
  | @looked n shallow =>
      rcases Nat.lt_or_ge c.policy.required (txs n).confirmations with deep | still
      · rw [after_deep deep] at ended
        cases ended
      · rw [after_shallow small still] at ended
        cases ended
  | @buried n shallow deep => exact ⟨n, shallow, deep, rfl, stops.unique (stops_buried n)⟩

/-- The waits are the poll interval for each missing confirmation, and at least one interval. The
transaction is looked at up to the first look that is deep enough, at the instants that the waits
add up to, and the height once after that; then the transaction is returned if its lock time is not
ahead, of the height or of the clock at that instant. There is no other end. -/
theorem settles_iff (c : Confirmer) (hash : String) (txs : Nat → Transaction) (heights : Nat → Nat)
    (small : c.policy.required < 2 ^ 64 - 1) (inRange : c.policy.pollInterval.InRange) :
    (∀ confirmations ≤ c.policy.required,
      ∃ missing, confirmations + missing = c.policy.required + 1 ∧ 1 ≤ missing ∧
        c.gap confirmations = min (c.policy.pollInterval.nanos * min missing (2 ^ 32 - 1))
          Duration.longest.nanos ∧
        c.policy.pollInterval.nanos ≤ c.gap confirmations) ∧
    ∀ instant log result,
      (c.settlement (prompt txs heights) hash).Halts (fun _ => 0) .looking none instant log result ↔
        ∃ k, c.ShallowBefore txs k ∧ c.policy.required < (txs k).confirmations ∧
          instant = ∑ i ∈ Finset.range k, c.gap (txs i).confirmations ∧
          log = ⟨instant, 0, .height, (.ok (heights 0) : Except ConfirmationError Nat)⟩ ::
            c.looks hash txs (k + 1) ∧
          result = some (c.judged instant (txs k) (heights 0)) := by
  refine ⟨fun confirmations shallow => gap_spec inRange shallow, fun instant log result => ⟨?_, ?_⟩⟩
  · intro halts
    obtain ⟨y, comes, stops, rfl, rfl⟩ := Machine.comes_of_halts halts
    obtain ⟨k, shallow, deep, rfl, hresult⟩ := (standing_of_comes small comes).stops small stops
    exact ⟨k, shallow, deep, rfl, rfl, hresult⟩
  · rintro ⟨k, shallow, deep, rfl, rfl, rfl⟩
    exact Machine.halts_of_comes ((comes_looked small shallow).tail (after_deep deep))
      (stops_buried k)

namespace Falling

def confirmer : Confirmer := ⟨⟨6, .ofSecs 120, .ofSecs 5400⟩, .ofSecs 240, fun _ => 0⟩

/-- The confirmations fall from five to three before they are enough. -/
def falling : Nat → Transaction
  | 0 => ⟨"v1", 900000, 5⟩
  | 1 => ⟨"v1", 900000, 3⟩
  | _ => ⟨"v1", 900000, 7⟩

end Falling

open Falling in
/-- The third look comes after two waits, for two and for four missing confirmations. -/
theorem settles_iff_falling :
    confirmer.policy.required < 2 ^ 64 - 1 ∧ confirmer.policy.pollInterval.InRange ∧
      (confirmer.settlement (prompt falling fun _ => 900000) "v1").Halts (fun _ => 0) .looking none
        (Duration.ofSecs 720).nanos
        (⟨(Duration.ofSecs 720).nanos, 0, .height,
            (.ok 900000 : Except ConfirmationError Nat)⟩ :: confirmer.looks "v1" falling 3)
        (some (.ok ⟨"v1", 900000, 7⟩)) := by
  have small : confirmer.policy.required < 2 ^ 64 - 1 := by decide
  have inRange : confirmer.policy.pollInterval.InRange := by decide
  refine ⟨small, inRange, ((settles_iff confirmer "v1" falling (fun _ => 900000) small inRange).2
    _ _ _).2 ⟨2, ?_, by decide, by decide +kernel, rfl, rfl⟩⟩
  intro i hi
  match i, hi with
  | 0, _ => decide
  | 1, _ => decide

end Confirmer

end Settlement.Dash
