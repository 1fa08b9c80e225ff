import Settlement.Chain.BitcoinCash.Confirmer
import Settlement.Proofs.Decimal.Value
import Settlement.Proofs.Timeline

/-!
# When a Bitcoin Cash payment is confirmed

A node answers with transactions in turn, at once, and with one height. The first transaction passes
the checks (`Passed`) or is refused for the first of them that it fails (`Refused`). After that the
payment is confirmed, found locked or given up at an instant, and after a number of calls, that the
confirmations, the poll interval and the deadline settle (`Settled`). A confirmation comes to that
and to nothing else (`finishes_iff_settled`).
-/

namespace Settlement.BitcoinCash

/-- The amounts that the transaction pays to an address. -/
def Transaction.deposits (tx : Transaction) (address : String) : List Decimal :=
  (tx.outputs.filter fun out => isAddress address out.address).map Output.sats

/-- All addresses are the one that is meant. -/
def Own (wanted : String) (addresses : List (Option String)) : Prop :=
  ∀ address ∈ addresses, isAddress wanted address

/-- The first of the addresses that is not the one that is meant. -/
def FirstStranger (wanted : String) (addresses : List (Option String)) (stranger : Option String) :
    Prop :=
  ∃ before after, addresses = before ++ stranger :: after ∧ Own wanted before ∧
    ¬isAddress wanted stranger

/-- The transaction pays enough, and in strict mode only between sender and deposit address. -/
def Passed (c : Confirmer) (expected : Expectation) (tx : Transaction) (paid : Decimal) : Prop :=
  expected.sats.value ≤ paid.value ∧
    (c.strict → Own expected.sender tx.inputs ∧ Own c.deposit (tx.outputs.map Output.address))

/-- The first check that the transaction fails: its value, its inputs, its outputs. -/
inductive Refused (c : Confirmer) (expected : Expectation) (tx : Transaction) (paid : Decimal) :
    ValidationError → Prop
  | short (less : paid.value < expected.sats.value) :
      Refused c expected tx paid (.insufficientValue expected.sats.text paid.text)
  | sender {stranger : Option String} (enough : expected.sats.value ≤ paid.value)
      (strict : c.strict) (first : FirstStranger expected.sender tx.inputs stranger) :
      Refused c expected tx paid (.invalidSender (stranger.getD "unknown"))
  | recipient {stranger : Option String} (enough : expected.sats.value ≤ paid.value)
      (strict : c.strict) (own : Own expected.sender tx.inputs)
      (first : FirstStranger c.deposit (tx.outputs.map Output.address) stranger) :
      Refused c expected tx paid (.invalidRecipient (stranger.getD "unknown"))

theorem stranger?_eq_some_iff {wanted name : String} {addresses : List (Option String)} :
    Transaction.stranger? wanted addresses = some name ↔
      ∃ stranger, FirstStranger wanted addresses stranger ∧ name = stranger.getD "unknown" := by
  simp only [Transaction.stranger?, Option.map_eq_some_iff, List.find?_eq_some_iff_append,
    FirstStranger, Own]
  constructor
  · rintro ⟨stranger, ⟨hstranger, before, after, rfl, hbefore⟩, rfl⟩
    exact ⟨stranger, ⟨before, after, rfl, by simpa using hbefore, by simpa using hstranger⟩, rfl⟩
  · rintro ⟨stranger, ⟨before, after, rfl, hbefore, hstranger⟩, rfl⟩
    exact ⟨stranger, ⟨by simpa using hstranger, before, after, rfl, by simpa using hbefore⟩, rfl⟩

theorem stranger?_eq_none_iff {wanted : String} {addresses : List (Option String)} :
    Transaction.stranger? wanted addresses = none ↔ Own wanted addresses := by
  simp [Transaction.stranger?, Own]

namespace Confirmer

variable {c : Confirmer} {expected : Expectation} {tx : Transaction} {paid : Decimal}

theorem lt_eq_false (enough : expected.sats.value ≤ paid.value) :
    paid.lt expected.sats = false := by
  rw [← Bool.not_eq_true, Decimal.lt_iff, not_lt]
  exact enough

theorem validate_of_passed (passed : Passed c expected tx paid) :
    c.validate expected tx paid = .ok () := by
  obtain ⟨enough, clean⟩ := passed
  unfold validate
  cases hstrict : c.strict with
  | false =>
      simp only [lt_eq_false enough]
      rfl
  | true =>
      obtain ⟨inputs, outputs⟩ := clean hstrict
      simp only [lt_eq_false enough, Transaction.validateSender, Transaction.validateRecipient,
        stranger?_eq_none_iff.2 inputs, stranger?_eq_none_iff.2 outputs]
      rfl

theorem validate_of_refused {e : ValidationError} (refused : Refused c expected tx paid e) :
    c.validate expected tx paid = .error e := by
  unfold validate
  cases refused with
  | short less =>
      simp only [Decimal.lt_iff.2 less]
      rfl
  | sender enough strict first =>
      simp only [lt_eq_false enough, strict, Transaction.validateSender,
        stranger?_eq_some_iff.2 ⟨_, first, rfl⟩]
      rfl
  | recipient enough strict own first =>
      simp only [lt_eq_false enough, strict, Transaction.validateSender,
        Transaction.validateRecipient, stranger?_eq_none_iff.2 own,
        stranger?_eq_some_iff.2 ⟨_, first, rfl⟩]
      rfl

theorem own_or_stranger (wanted : String) (addresses : List (Option String)) :
    Own wanted addresses ∨ ∃ stranger, FirstStranger wanted addresses stranger := by
  cases h : Transaction.stranger? wanted addresses with
  | none => exact Or.inl (stranger?_eq_none_iff.1 h)
  | some name =>
      obtain ⟨stranger, first, -⟩ := stranger?_eq_some_iff.1 h
      exact Or.inr ⟨stranger, first⟩

/-- A transaction passes the checks or is refused for one of them. -/
theorem passed_or_refused (c : Confirmer) (expected : Expectation) (tx : Transaction)
    (paid : Decimal) : Passed c expected tx paid ∨ ∃ e, Refused c expected tx paid e := by
  rcases lt_or_ge paid.value expected.sats.value with less | enough
  · exact Or.inr ⟨_, .short less⟩
  by_cases strict : c.strict
  · rcases own_or_stranger expected.sender tx.inputs with inputs | ⟨stranger, first⟩
    · rcases own_or_stranger c.deposit (tx.outputs.map Output.address) with
        outputs | ⟨stranger, first⟩
      · exact Or.inl ⟨enough, fun _ => ⟨inputs, outputs⟩⟩
      · exact Or.inr ⟨_, .recipient enough strict inputs first⟩
    · exact Or.inr ⟨_, .sender enough strict first⟩
  · exact Or.inl ⟨enough, fun h => absurd h strict⟩

end Confirmer

/-- A node that answers with the transactions in turn, at once, and always with one height. -/
def inTurn (txs : Nat → Transaction) (height : Nat) : Replies Query Query.Reply where
  reply := fun
    | .transaction _, n => (.ok (txs n) : Except ConfirmationError Transaction)
    | .height, _ => (.ok height : Except ConfirmationError Nat)
  delay := fun _ _ => ⟨0⟩

/-- The first `n` looks at the transaction, latest first. -/
def looks (hash : String) (txs : Nat → Transaction) : Nat → List (Asked Query Query.Reply)
  | 0 => []
  | n + 1 => ⟨.transaction hash, (.ok (txs n) : Except ConfirmationError Transaction)⟩ ::
    looks hash txs n

theorem calls_looks (hash : String) (txs : Nat → Transaction) (n : Nat) :
    (looks hash txs n).map Asked.call = List.replicate n (.transaction hash) := by
  induction n with
  | zero => rfl
  | succ n ih => rw [looks, List.map_cons, ih, List.replicate_succ]

/-- Nothing but the transaction has been asked for, `n` times. -/
def asks (hash : String) (n : Nat) : Query → Nat :=
  Function.update (fun _ => 0) (.transaction hash) n

theorem answer_transaction (hash : String) (txs : Nat → Transaction) (height n : Nat)
    (now : Instant) :
    (inTurn txs height).answer now (.transaction hash) (asks hash n) =
      ⟨(.ok (txs n) : Except ConfirmationError Transaction), ⟨0⟩, asks hash (n + 1)⟩ := by
  simp [Replies.answer, inTurn, asks]

theorem asks_zero (hash : String) : asks hash 0 = fun _ => 0 := Function.update_eq_self _ _

namespace Confirmer

variable (c : Confirmer) (expected : Expectation) (txs : Nat → Transaction) (height : Nat)
  (paid : Decimal)

/-- The confirmation without its deadline. -/
def free : Machine Query Query.Reply (Query → Nat) Stage (Except ConfirmationError Decimal) where
  turn := c.turn expected
  answer := (inTurn txs height).answer

/-- The confirmation by a node that answers in turn. -/
def watch :
    Machine Query Query.Reply (Query → Nat) (Timed Stage) (Except ConfirmationError Decimal) where
  turn := c.timedTurn expected
  answer := (inTurn txs height).answer

/-- Where the confirmation is when it is about to look for the `n`th time. -/
def looking (n : Nat) : Moment Query Query.Reply (Query → Nat) Stage where
  instant := c.policy.pollInterval.nanos * n
  world := asks expected.hash n
  stage := if n = 0 then .looking else .waiting paid
  asked := looks expected.hash txs n

/-- Where the confirmation is when it has looked for the `n`th time. -/
def looked (n : Nat) : Moment Query Query.Reply (Query → Nat) Stage where
  instant := c.policy.pollInterval.nanos * n
  world := asks expected.hash (n + 1)
  stage := if n = 0 then .looked (.ok (txs 0)) else .waited paid (.ok (txs n))
  asked := looks expected.hash txs (n + 1)

theorem looking_zero : c.looking expected txs paid 0 = ⟨0, fun _ => 0, .looking, []⟩ := by
  rw [← asks_zero expected.hash]
  rfl

/-- A look takes no time. -/
theorem proceeds_look (n : Nat) :
    (c.free expected txs height).Proceeds (c.looking expected txs paid n)
      (c.looked expected txs paid n) := by
  have hanswer := answer_transaction expected.hash txs height n (c.policy.pollInterval.nanos * n)
  cases n with
  | zero => exact Machine.proceeds_ask rfl hanswer rfl
  | succ n => exact Machine.proceeds_ask rfl hanswer rfl

variable {c expected txs paid}

theorem turn_looked (hpaid : (txs 0).valueTo? c.deposit = some paid)
    (passed : Passed c expected (txs 0) paid) (now : Instant) (n : Nat) :
    c.turn expected now (c.looked expected txs paid n).stage = c.count paid (txs n) := by
  cases n with
  | zero => simp only [looked, if_true, turn, hpaid, validate_of_passed passed]
  | succ n => rfl

/-- A transaction that is not deep enough is looked at again after a pause. -/
theorem proceeds_shallow (hpaid : (txs 0).valueTo? c.deposit = some paid)
    (passed : Passed c expected (txs 0) paid) {n : Nat}
    (shallow : (txs n).confirmations < c.policy.required) :
    (c.free expected txs height).Proceeds (c.looked expected txs paid n)
      (c.looking expected txs paid (n + 1)) := by
  have hturn := turn_looked hpaid passed (c.policy.pollInterval.nanos * n) n
  rw [count, if_neg (Nat.not_le.2 shallow)] at hturn
  exact .pause hturn

/-- The height is asked for when the transaction is deep enough. -/
theorem proceeds_deep (hpaid : (txs 0).valueTo? c.deposit = some paid)
    (passed : Passed c expected (txs 0) paid) {n : Nat}
    (deep : c.policy.required ≤ (txs n).confirmations) :
    ∃ world, (c.free expected txs height).Proceeds (c.looked expected txs paid n)
      ⟨c.policy.pollInterval.nanos * n, world, .deep paid (txs n) (.ok height),
        ⟨.height, (.ok height : Except ConfirmationError Nat)⟩ ::
          looks expected.hash txs (n + 1)⟩ := by
  have hturn := turn_looked hpaid passed (c.policy.pollInterval.nanos * n) n
  rw [count, if_pos deep] at hturn
  exact ⟨_, Machine.proceeds_ask hturn rfl rfl⟩

theorem arrives_first (c : Confirmer) (expected : Expectation) (txs : Nat → Transaction)
    (height : Nat) (paid : Decimal) :
    (c.free expected txs height).Arrives ⟨0, fun _ => 0, .looking, []⟩
      (c.looked expected txs paid 0) := by
  rw [← c.looking_zero expected txs paid]
  exact .single (c.proceeds_look expected txs height paid 0)

/-- It comes to the `n`th look when no look before that was deep enough. -/
theorem arrives_looked (hpaid : (txs 0).valueTo? c.deposit = some paid)
    (passed : Passed c expected (txs 0) paid) {n : Nat}
    (shallow : ∀ i < n, (txs i).confirmations < c.policy.required) :
    (c.free expected txs height).Arrives ⟨0, fun _ => 0, .looking, []⟩
      (c.looked expected txs paid n) := by
  induction n with
  | zero => exact arrives_first c expected txs height paid
  | succ n ih =>
      have before := ih fun i hi => shallow i (Nat.lt_succ_of_lt hi)
      have paused := before.tail
        (proceeds_shallow height hpaid passed (shallow n (Nat.lt_succ_self n)))
      exact paused.tail (c.proceeds_look expected txs height paid (n + 1))

end Confirmer

/-- When a confirmation ends, after which calls, latest first, and with which result. The
transaction is looked at until it is deep enough, and the height once after that; a lock time that
is a time is compared with the clock of that instant. Between looks that take no time the time
stands still, and the deadline does not come. -/
inductive Settled (c : Confirmer) (expected : Expectation) (txs : Nat → Transaction) (height : Nat)
    (paid : Decimal) : Instant → List Query → Except ConfirmationError Decimal → Prop
  | refused {e : ValidationError} (refused : Refused c expected (txs 0) paid e) :
      Settled c expected txs height paid 0 [.transaction expected.hash] (.error (.validation e))
  | deep {k : Nat} (passed : Passed c expected (txs 0) paid)
      (shallow : ∀ i < k, (txs i).confirmations < c.policy.required)
      (deep : c.policy.required ≤ (txs k).confirmations)
      (inTime : c.policy.pollInterval.nanos * k ≤ c.policy.deadline.nanos) :
      Settled c expected txs height paid (c.policy.pollInterval.nanos * k)
        (.height :: List.replicate (k + 1) (.transaction expected.hash))
        (if LockTime.current (txs k).lockTime height
            (c.wallClock (c.policy.pollInterval.nanos * k)) < (txs k).lockTime then
          .error (.validation (.lockTimeNotReached (txs k).lockTime
            (LockTime.current (txs k).lockTime height
              (c.wallClock (c.policy.pollInterval.nanos * k)))))
        else .ok paid)
  | late (passed : Passed c expected (txs 0) paid) (ahead : 0 < c.policy.pollInterval.nanos)
      (late : ∀ k, c.policy.required ≤ (txs k).confirmations →
        c.policy.deadline.nanos < c.policy.pollInterval.nanos * k) :
      Settled c expected txs height paid c.policy.deadline.nanos
        (List.replicate (c.policy.deadline.nanos / c.policy.pollInterval.nanos + 1)
          (.transaction expected.hash))
        (.error (.timeout c.policy.deadline))

namespace Confirmer

variable {c : Confirmer} {expected : Expectation} {txs : Nat → Transaction} {height : Nat}
  {paid : Decimal} {instant : Instant} {calls : List Query}
  {result : Except ConfirmationError Decimal}

theorem turn_deep (expected : Expectation) (now : Instant) (paid : Decimal) (tx : Transaction)
    (height : Nat) : c.turn expected now (.deep paid tx (.ok height)) = .done
      (if LockTime.current tx.lockTime height (c.wallClock now) < tx.lockTime then
        .error (.validation (.lockTimeNotReached tx.lockTime
          (LockTime.current tx.lockTime height (c.wallClock now))))
      else .ok paid) := by
  by_cases ahead : LockTime.current tx.lockTime height (c.wallClock now) < tx.lockTime <;>
    simp [turn, LockTime.check, ahead]

/-- What a confirmation ends with. -/
theorem finishes_of_settled (hpaid : (txs 0).valueTo? c.deposit = some paid)
    (settled : Settled c expected txs height paid instant calls result) :
    ∃ asked, (c.watch expected txs height).Finishes (fun _ => 0) (c.start 0) instant asked result ∧
      asked.map Asked.call = calls := by
  cases settled with
  | @refused e refused =>
      have hturn : c.turn expected 0 (.looked (.ok (txs 0))) = .done (.error (.validation e)) := by
        simp only [turn, hpaid, validate_of_refused refused]
      exact ⟨_, Machine.finishes_timed _ (arrives_first c expected txs height paid) hturn
        (Nat.zero_le _), rfl⟩
  | @deep k passed shallow deep inTime =>
      obtain ⟨world, step⟩ := proceeds_deep height hpaid passed deep
      have row := (arrives_looked height hpaid passed shallow).tail step
      refine ⟨_, Machine.finishes_timed _ row ?_ inTime, ?_⟩
      · exact turn_deep expected _ paid (txs k) height
      · rw [List.map_cons, calls_looks]
  | late passed ahead late =>
      -- the last look is the last one that is not after the deadline
      have hlast : c.policy.pollInterval.nanos *
          (c.policy.deadline.nanos / c.policy.pollInterval.nanos) ≤ c.policy.deadline.nanos :=
        Nat.mul_div_le _ _
      have hnext : c.policy.deadline.nanos < c.policy.pollInterval.nanos *
          (c.policy.deadline.nanos / c.policy.pollInterval.nanos + 1) :=
        Nat.lt_mul_div_succ _ ahead
      have shallow : ∀ i ≤ c.policy.deadline.nanos / c.policy.pollInterval.nanos,
          (txs i).confirmations < c.policy.required := by
        intro i hi
        by_contra deep
        exact absurd ((Nat.mul_le_mul_left _ hi).trans hlast)
          (Nat.not_le.2 (late i (Nat.le_of_not_lt deep)))
      have row := arrives_looked height hpaid passed fun i hi => shallow i hi.le
      have step := proceeds_shallow height hpaid passed (shallow _ le_rfl)
      exact ⟨_, Machine.finishes_late _ row step hlast hnext, calls_looks _ _ _⟩

/-- A confirmation that cannot add up the outputs breaks down. -/
theorem paid_of_finishes {asked : List (Asked Query Query.Reply)}
    (h : (c.watch expected txs height).Finishes (fun _ => 0) (c.start 0) instant asked result) :
    ∃ paid, (txs 0).valueTo? c.deposit = some paid := by
  cases hpaid : (txs 0).valueTo? c.deposit with
  | some paid => exact ⟨paid, rfl⟩
  | none =>
      have hturn : ∀ now, c.turn expected now (.looked (.ok (txs 0))) = .crash := fun now => by
        simp only [turn, hpaid]
      have row := (arrives_first c expected txs height .zero).next_timed
        (.error (.timeout c.policy.deadline)) (Nat.zero_le c.policy.deadline.nanos)
      rw [start, Machine.start_zero] at h
      refine absurd h (Machine.not_finishes_of_crash row ?_)
      simp only [watch, timedTurn, Moment.map, Timed.turn, looked, if_true, hturn]
      rfl

/-- Looks that take no time and never find the transaction deep enough have no end. -/
theorem ahead_of_finishes {asked : List (Asked Query Query.Reply)}
    (hpaid : (txs 0).valueTo? c.deposit = some paid) (passed : Passed c expected (txs 0) paid)
    (shallow : ∀ k, (txs k).confirmations < c.policy.required)
    (h : (c.watch expected txs height).Finishes (fun _ => 0) (c.start 0) instant asked result) :
    0 < c.policy.pollInterval.nanos := by
  by_contra still
  have zero : c.policy.pollInterval.nanos = 0 := Nat.eq_zero_of_not_pos still
  have inTime : ∀ n, c.policy.pollInterval.nanos * n ≤ c.policy.deadline.nanos := fun n => by
    rw [zero, Nat.zero_mul]
    exact Nat.zero_le _
  rw [start, Machine.start_zero] at h
  refine Machine.not_finishes_of_endless (P := fun x => ∃ n,
    x = (c.looking expected txs paid n).map (.running c.policy.deadline.nanos) ∨
      x = (c.looked expected txs paid n).map (.running c.policy.deadline.nanos)) ?_ ?_ h
  · exact ⟨0, .inl (by rw [looking_zero]; rfl)⟩
  · rintro x ⟨n, rfl | rfl⟩
    · exact ⟨_, (c.proceeds_look expected txs height paid n).next_timed _ (inTime n), n, .inr rfl⟩
    · exact ⟨_, (proceeds_shallow height hpaid passed (shallow n)).next_timed _ (inTime (n + 1)),
        n + 1, .inl rfl⟩

/-- A confirmation comes to one of the listed ends. -/
theorem settled_of_finishes {asked : List (Asked Query Query.Reply)}
    (hpaid : (txs 0).valueTo? c.deposit = some paid)
    (h : (c.watch expected txs height).Finishes (fun _ => 0) (c.start 0) instant asked result) :
    Settled c expected txs height paid instant (asked.map Asked.call) result := by
  have conclude : ∀ {instant' calls' result'},
      Settled c expected txs height paid instant' calls' result' →
        Settled c expected txs height paid instant (asked.map Asked.call) result := by
    intro instant' calls' result' settled
    obtain ⟨asked', h', rfl⟩ := finishes_of_settled hpaid settled
    obtain ⟨rfl, rfl, rfl⟩ := h.unique h'
    exact settled
  rcases passed_or_refused c expected (txs 0) paid with passed | ⟨e, refused⟩
  swap
  · exact conclude (.refused refused)
  by_cases inTime : ∃ k, c.policy.required ≤ (txs k).confirmations ∧
      c.policy.pollInterval.nanos * k ≤ c.policy.deadline.nanos
  · obtain ⟨k, deep, hk⟩ := inTime
    -- the first deep answer comes no later than this one
    have found : ∃ k, c.policy.required ≤ (txs k).confirmations := ⟨k, deep⟩
    refine conclude (.deep passed (fun i hi => Nat.lt_of_not_le (Nat.find_min found hi))
      (Nat.find_spec found) ((Nat.mul_le_mul_left _ (Nat.find_min' found deep)).trans hk))
  · have late : ∀ k, c.policy.required ≤ (txs k).confirmations →
        c.policy.deadline.nanos < c.policy.pollInterval.nanos * k := fun k deep =>
      Nat.lt_of_not_le fun hk => inTime ⟨k, deep, hk⟩
    rcases Nat.eq_zero_or_pos c.policy.pollInterval.nanos with zero | ahead
    · have shallow : ∀ k, (txs k).confirmations < c.policy.required := fun k => by
        refine Nat.lt_of_not_le fun deep => ?_
        have hk := late k deep
        rw [zero, Nat.zero_mul] at hk
        exact absurd hk (Nat.not_lt_zero _)
      exact absurd (ahead_of_finishes hpaid passed shallow h) (by rw [zero]; exact Nat.lt_irrefl 0)
    · exact conclude (.late passed ahead late)

/-- What is paid is the sum of the outputs to the deposit address, and the confirmation comes to the
end that `Settled` lists and to no other. -/
theorem finishes_iff_settled (c : Confirmer) (expected : Expectation) (txs : Nat → Transaction)
    (height : Nat) :
    ((∀ first, first <+: (txs 0).deposits c.deposit → Decimal.Exact (first.map Decimal.value).sum) →
        ∃ paid, (txs 0).valueTo? c.deposit = some paid ∧
          paid.value = (((txs 0).deposits c.deposit).map Decimal.value).sum) ∧
      ∀ instant calls result,
        (∃ asked, (c.watch expected txs height).Finishes (fun _ => 0) (c.start 0) instant asked
            result ∧ asked.map Asked.call = calls) ↔
          ∃ paid, (txs 0).valueTo? c.deposit = some paid ∧
            Settled c expected txs height paid instant calls result := by
  refine ⟨fun exact => Decimal.value_sum? exact, fun instant calls result => ⟨?_, ?_⟩⟩
  · rintro ⟨asked, h, rfl⟩
    obtain ⟨paid, hpaid⟩ := paid_of_finishes h
    exact ⟨paid, hpaid, settled_of_finishes hpaid h⟩
  · rintro ⟨paid, hpaid, settled⟩
    exact finishes_of_settled hpaid settled

namespace Sample

/-- A confirmation in strict mode. -/
def confirmer (poll : Duration) : Confirmer where
  policy := ⟨3, poll, .ofSecs 10800⟩
  deposit := "bitcoincash:qdeposit"
  strict := true
  wallClock := fun _ => 0

def expectation : Expectation := ⟨"deadbeef", ⟨50000, 0⟩, "bitcoincash:qpayer"⟩

/-- A transaction that has two outputs to the deposit address. -/
def paying (payer : String) (a b : Decimal) (confirmations : Nat) : Transaction where
  hash := "deadbeef"
  confirmations := confirmations
  lockTime := 0
  inputs := [some payer]
  outputs := [⟨some "bitcoincash:qdeposit", a⟩, ⟨some "bitcoincash:qdeposit", b⟩]

/-- A foreign transaction with two outputs of the largest amount that the program can hold. -/
def hoard : Transaction :=
  paying "bitcoincash:qstranger" ⟨79228162514264337593543950335, 0⟩
    ⟨79228162514264337593543950335, 0⟩ 3

theorem deposits_paying (poll : Duration) (payer : String) (a b : Decimal) (confirmations : Nat) :
    (paying payer a b confirmations).deposits (confirmer poll).deposit = [a, b] := by
  simp [Transaction.deposits, paying, confirmer, isAddress, sameAddress_refl]

theorem passed_paying (poll : Duration) {a b paid : Decimal} (confirmations : Nat)
    (enough : expectation.sats.value ≤ paid.value) :
    Passed (confirmer poll) expectation (paying expectation.sender a b confirmations) paid := by
  refine ⟨enough, fun _ => ⟨?_, ?_⟩⟩ <;>
    simp [Own, paying, confirmer, isAddress, sameAddress_refl]

end Sample

open Sample in
/-- With a block for each look the confirmation ends at the fourth, after three pauses. -/
theorem finishes_iff_settled_three_pauses :
    ∃ paid : Decimal, paid.value = 50000 ∧ ∃ asked,
      ((confirmer (.ofSecs 600)).watch expectation
          (paying expectation.sender ⟨300000, 1⟩ ⟨20000, 0⟩) 700000).Finishes (fun _ => 0)
        ((confirmer (.ofSecs 600)).start 0) ((Duration.ofSecs 600).nanos * 3) asked (.ok paid) ∧
      asked.map Asked.call = .height :: List.replicate 4 (.transaction "deadbeef") := by
  obtain ⟨sum, ends⟩ := finishes_iff_settled (confirmer (.ofSecs 600)) expectation
    (paying expectation.sender ⟨300000, 1⟩ ⟨20000, 0⟩) 700000
  obtain ⟨paid, hpaid, hvalue⟩ := sum (by
    rw [deposits_paying]
    intro first hfirst
    rw [List.prefix_cons_iff] at hfirst
    rcases hfirst with rfl | ⟨rest, rfl, hrest⟩
    · exact ⟨⟨0, 0⟩, by decide, by norm_num [Decimal.value]⟩
    rw [List.prefix_cons_iff] at hrest
    rcases hrest with rfl | ⟨rest, rfl, hrest⟩
    · exact ⟨⟨30000, 0⟩, by decide, by norm_num [Decimal.value]⟩
    · obtain rfl := List.prefix_nil.1 hrest
      exact ⟨⟨50000, 0⟩, by decide, by norm_num [Decimal.value]⟩)
  have hvalue' : paid.value = 50000 := by
    rw [hvalue, deposits_paying]
    norm_num [Decimal.value]
  have passed : Passed (confirmer (.ofSecs 600)) expectation
      (paying expectation.sender ⟨300000, 1⟩ ⟨20000, 0⟩ 0) paid :=
    passed_paying _ 0 (by rw [hvalue']; norm_num [expectation, Decimal.value])
  exact ⟨paid, hvalue', (ends _ _ _).2
    ⟨paid, hpaid, .deep passed (fun i hi => hi) (Nat.le_refl 3) (by decide)⟩⟩

open Sample in
/-- Two outputs of the largest amount are not added up, and the foreign input is never looked at;
and where a pause takes no time a payment that stays shallow is not given up. -/
theorem not_finishes_of_hoard :
    (expectation.sats.value ≤
          ((hoard.deposits (confirmer (.ofSecs 600)).deposit).map Decimal.value).sum ∧
        FirstStranger expectation.sender hoard.inputs (some "bitcoincash:qstranger") ∧
        ∀ instant asked result,
          ¬((confirmer (.ofSecs 600)).watch expectation (fun _ => hoard) 700000).Finishes
            (fun _ => 0) ((confirmer (.ofSecs 600)).start 0) instant asked result) ∧
      ∀ instant asked result,
        ¬((confirmer ⟨0⟩).watch expectation
            (fun _ => paying expectation.sender ⟨30000, 0⟩ ⟨20000, 0⟩ 2) 700000).Finishes
          (fun _ => 0) ((confirmer ⟨0⟩).start 0) instant asked result := by
  refine ⟨⟨?_, ⟨[], [], rfl, by simp [Own], by decide +kernel⟩, ?_⟩, ?_⟩
  · rw [hoard, deposits_paying]
    norm_num [expectation, Decimal.value]
  · intro instant asked result h
    obtain ⟨paid, hpaid⟩ := paid_of_finishes h
    rw [Transaction.valueTo?, ← Transaction.deposits, hoard, deposits_paying] at hpaid
    have none : Decimal.sum? [⟨79228162514264337593543950335, 0⟩,
        ⟨79228162514264337593543950335, 0⟩] = none := by
      decide +kernel
    simp [none] at hpaid
  · intro instant asked result h
    have hpaid : (paying expectation.sender ⟨30000, 0⟩ ⟨20000, 0⟩ 2).valueTo?
        (confirmer ⟨0⟩).deposit = some ⟨50000, 0⟩ := by
      rw [Transaction.valueTo?, ← Transaction.deposits, deposits_paying]
      decide +kernel
    exact absurd
      (ahead_of_finishes hpaid (passed_paying _ 2 le_rfl) (fun _ => Nat.lt_succ_self 2) h)
      (Nat.lt_irrefl 0)

end Confirmer

end Settlement.BitcoinCash
