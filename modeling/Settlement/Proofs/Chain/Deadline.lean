import Settlement.Proofs.Chain.BitcoinCash.Ranking
import Settlement.Proofs.Chain.Dash.Ranking
import Settlement.Proofs.Chain.Ethereum.Ranking

/-!
# Confirmations end by their deadline

Between two pauses each confirmation makes only so many calls, so it comes to its end by the
deadline (`ends_in_time`). A timeout is the deadline's own, or one that the node answered with.
-/

namespace Settlement.Rehearsal

variable {C : Type} {R : C → Type} {S α : Type}

/-- A confirmation comes to an end, not after its deadline: with a result, or broken down, which
happens only as `broken` says. A timeout that it ends with is its deadline, and it ends just then;
or the script fails with that timeout. -/
def EndsInTime (m : Machine C R Node (Timed S) (Except ConfirmationError α)) (node : Node)
    (first : Timed S) (cancelAt : Option Instant) (deadline : Duration)
    (broken : List (Asked C R) → Prop) : Prop :=
  ∃ instant log result, m.Halts node first cancelAt instant log result ∧
    instant ≤ deadline.nanos ∧ (result = none → broken (log.map Entry.asked)) ∧
    ∀ limit, result = some (.error (.timeout limit)) →
      (limit = deadline ∧ instant = deadline.nanos) ∨ node.Fails (.timeout limit)

theorem endsInTime_of_ranked {inner : Instant → S → Turn C R S (Except ConfirmationError α)}
    {answer : Instant → (call : C) → Node → Answer Node (R call)} {P : Node → S → Prop}
    {rank : Node → S → Nat} {node : Node} {first : S} {breaks : Prop}
    {broken : List (Asked C R) → Prop}
    (ranked : Ranked inner answer P (Ended node breaks) rank) (start : P node first)
    (hbroken : ∀ now asked stage, Course inner first asked stage →
      (inner now stage).Stops none → breaks → broken asked)
    (deadline : Duration) (cancelAt : Option Instant) :
    EndsInTime ⟨fun now => Timed.turn (inner now) (.error (.timeout deadline)), answer⟩ node
      (.start 0 deadline first) cancelAt deadline broken := by
  obtain ⟨y, result, halts, hle, hlast⟩ :=
    ranked.halts (.error (.timeout deadline)) start deadline cancelAt
  refine ⟨y.instant, y.log, result, halts, hle, ?_, ?_⟩
  · rintro rfl
    rcases hlast with ⟨hresult, -⟩ | ⟨ended, stage, course, stops⟩
    · cases hresult
    · exact hbroken _ _ _ course stops ended
  · rintro limit rfl
    rcases hlast with ⟨hresult, hinstant⟩ | ⟨told, -⟩
    · cases hresult
      exact Or.inl ⟨rfl, hinstant⟩
    · exact Or.inr (told limit rfl)

/-- Each confirmation comes to an end by its deadline, whatever the scripts say, and whether it is
cancelled or not, if its poll intervals are not zero. Only sums that are no amounts break it down:
on Bitcoin Cash one of the outputs of a transaction, on Dash one of deposits of 2^96 duffs or more.
And where no script fails with a timeout, it ends with one only at its deadline. -/
theorem ends_in_time (node : Node) (cancelAt : Option Instant) :
    (∀ (c : Ethereum.Confirmer) (hash : Hash) (expected : Ethereum.Expectation),
      0 < c.policy.pollInterval.nanos →
      EndsInTime (ethereumMachine c hash expected) node (c.start 0) cancelAt c.policy.deadline
        fun _ => False) ∧
    (∀ (c : Dash.Confirmer) (forward : String) (charge : Decimal),
      0 < c.policy.pollInterval.nanos → 0 < c.forwardPollInterval.nanos →
      EndsInTime (dashMachine c forward charge) node (c.start 0) cancelAt c.policy.deadline
        fun asked => Decimal.bound ≤ Dash.duffs (Dash.fresh [] (Dash.forwarded asked))) ∧
    (∀ (c : BitcoinCash.Confirmer) (expected : BitcoinCash.Expectation),
      0 < c.policy.pollInterval.nanos →
      EndsInTime (bitcoinCashMachine c expected) node (c.start 0) cancelAt c.policy.deadline
        fun asked => ∃ tx : BitcoinCash.Transaction,
          ⟨.transaction expected.hash, (.ok tx : Except ConfirmationError _)⟩ ∈ asked ∧
            tx.valueTo? c.deposit = none) := by
  have same : node.Later node := fun e fails => fails
  refine ⟨?_, ?_, ?_⟩
  · intro c hash expected poll
    refine endsInTime_of_ranked (P := fun world stage => node.Later world ∧ stage.Told node)
      (fun _ world stage kept => c.descends_turn hash expected poll kept.1 stage kept.2)
      ⟨same, trivial⟩ ?_ _ _
    exact fun _ _ _ _ _ breaks => breaks
  · intro c forward charge poll forwardPoll
    refine endsInTime_of_ranked (P := fun world stage => node.Later world ∧ stage.Told node)
      (fun now world stage kept =>
        c.descends_turn forward charge now poll forwardPoll kept.1 stage kept.2)
      ⟨same, trivial⟩ ?_ _ _
    exact fun _ _ _ course stops _ => Dash.Confirmer.broken_of_course course stops
  · intro c expected poll
    refine endsInTime_of_ranked (P := fun world stage => node.Later world ∧ stage.Told node)
      (fun now world stage kept => c.descends_turn expected now poll kept.1 stage kept.2)
      ⟨same, trivial⟩ ?_ _ _
    exact fun _ _ _ course stops _ => BitcoinCash.Confirmer.broken_of_course course stops

namespace Stalled

def policy : Policy := ⟨3, ⟨1⟩, ⟨5⟩⟩

def ethereum : Ethereum.Confirmer := ⟨policy, ⟨1, 2⟩⟩

def dash : Dash.Confirmer := ⟨policy, ⟨2⟩, fun _ => 0⟩

def bitcoinCash : BitcoinCash.Confirmer := ⟨policy, "deposit", false, fun _ => 0⟩

/-- A node on which nothing ever happens: an Ethereum transaction stays out of the blocks, a payment
forward without deposits, and a Bitcoin Cash transaction without confirmations. -/
def node : Node :=
  { Node.empty with
    ethereumTransactions := some [⟨⟨0⟩, .ok (some ⟨3, some 1, none⟩)⟩]
    forwards := some [⟨⟨1⟩, .ok []⟩]
    bitcoinCashTransactions := some [⟨⟨0⟩, .ok ⟨"hash", 0, 0, [], []⟩⟩] }

end Stalled

open Stalled in
theorem ends_in_time_stalled :
    0 < policy.pollInterval.nanos ∧ 0 < dash.forwardPollInterval.nanos ∧
    EndsInTime (ethereumMachine ethereum 0 ⟨.native, none⟩) node (ethereum.start 0) none
      policy.deadline (fun _ => False) ∧
    EndsInTime (dashMachine dash "forward" .zero) node (dash.start 0) none policy.deadline
      (fun asked => Decimal.bound ≤ Dash.duffs (Dash.fresh [] (Dash.forwarded asked))) ∧
    EndsInTime (bitcoinCashMachine bitcoinCash ⟨"hash", .zero, "sender"⟩) node
      (bitcoinCash.start 0) none policy.deadline (fun asked => ∃ tx : BitcoinCash.Transaction,
        ⟨.transaction "hash", (.ok tx : Except ConfirmationError _)⟩ ∈ asked ∧
          tx.valueTo? "deposit" = none) := by
  have poll : 0 < policy.pollInterval.nanos := by decide
  have forwardPoll : 0 < dash.forwardPollInterval.nanos := by decide
  obtain ⟨onEthereum, onDash, onBitcoinCash⟩ := ends_in_time node none
  exact ⟨poll, forwardPoll, onEthereum ethereum 0 ⟨.native, none⟩ poll,
    onDash dash "forward" .zero poll forwardPoll,
    onBitcoinCash bitcoinCash ⟨"hash", .zero, "sender"⟩ poll⟩

end Settlement.Rehearsal
