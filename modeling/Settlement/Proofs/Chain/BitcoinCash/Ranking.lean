import Settlement.Proofs.Chain.Scripts
import Settlement.Proofs.Deadline

/-!
# How many calls a Bitcoin Cash confirmation makes at once

Between two looks at the transaction the confirmation pauses, and it ends after the height. It
breaks down only on the first look, when the outputs have no sum.
-/

namespace Settlement.BitcoinCash

open Rehearsal (Ended)

/-- A timeout that is held at a stage is one of a script. -/
def Stage.Told (node : Rehearsal.Node) : Stage → Prop
  | looked r => Rehearsal.Told node r
  | waited _ r => Rehearsal.Told node r
  | deep _ _ r => Rehearsal.Told node r
  | _ => True

/-- The calls that may still be made while no time passes. -/
def rank (_ : Rehearsal.Node) : Stage → Nat
  | .looking => 3
  | .looked _ => 2
  | .waiting _ => 3
  | .waited _ _ => 2
  | .deep _ _ _ => 1
  | .interrupted => 0

variable {node later : Rehearsal.Node}

theorem Confirmer.descends_count (c : Confirmer) (poll : 0 < c.policy.pollInterval.nanos)
    (hlater : node.Later later) (paid : Decimal) (tx : Transaction) :
    (c.count paid tx).Descends (fun _ query node => node.bitcoinCash query)
      (fun world stage => node.Later world ∧ stage.Told node) (Ended node True) rank later 2 := by
  unfold count
  split
  · exact ⟨rfl, fun now => ⟨later.answers_height.later hlater, Nat.lt_succ_self 1⟩⟩
  · exact ⟨rfl, poll, ⟨hlater, trivial⟩, ⟨hlater, trivial⟩, Nat.succ_pos 1⟩

theorem Confirmer.descends_turn (c : Confirmer) (expected : Expectation) (now : Instant)
    (poll : 0 < c.policy.pollInterval.nanos) (hlater : node.Later later) (stage : Stage)
    (told : stage.Told node) : (c.turn expected now stage).Descends
      (fun _ query node => node.bitcoinCash query)
      (fun world stage => node.Later world ∧ stage.Told node) (Ended node True) rank later
      (rank later stage) := by
  have htransaction := (later.answers_bitcoinCashTransaction expected.hash).later hlater
  cases stage with
  | looking => exact ⟨rfl, fun now => ⟨htransaction, Nat.lt_succ_self 2⟩⟩
  | looked r =>
      cases r with
      | error e => exact told.error
      | ok tx =>
          simp only [turn]
          split
          · trivial
          · split
            · exact nofun
            · exact c.descends_count poll hlater _ _
  | waiting paid => exact ⟨rfl, fun now => ⟨htransaction, Nat.lt_succ_self 2⟩⟩
  | waited paid r =>
      cases r with
      | error e => exact told.error
      | ok tx => exact c.descends_count poll hlater _ _
  | deep paid tx r =>
      cases r with
      | error e => exact told.error
      | ok height =>
          simp only [turn]
          split <;> exact nofun
  | interrupted => exact nofun

theorem Confirmer.not_looked_of_count (c : Confirmer) {paid : Decimal} {tx : Transaction}
    {asked : List (Asked Query Query.Reply)} {r : Except ConfirmationError Transaction} :
    ¬(c.count paid tx).Leads asked (.looked r) := by
  intro h
  unfold count at h
  split at h
  · obtain ⟨r, -, heq⟩ := Turn.leads_ask.1 h
    cases heq
  · obtain ⟨-, heq | heq⟩ := Turn.leads_pause.1 h <;> cases heq

/-- The first answer is what was answered. -/
theorem Confirmer.asked_of_looked {c : Confirmer} {expected : Expectation}
    {asked : List (Asked Query Query.Reply)} {r : Except ConfirmationError Transaction}
    (h : Course (c.turn expected) .looking asked (.looked r)) :
    ⟨.transaction expected.hash, r⟩ ∈ asked := by
  cases h with
  | @next before asked stage _ now course step =>
      cases stage with
      | looking =>
          obtain ⟨r, rfl, heq⟩ := Turn.leads_ask.1 step
          cases heq
          exact List.mem_append_left _ List.mem_cons_self
      | looked r =>
          cases r with
          | error e => exact step.elim
          | ok tx =>
              simp only [turn] at step
              split at step
              · exact step.elim
              · split at step
                · exact step.elim
                · exact absurd step c.not_looked_of_count
      | waiting paid =>
          obtain ⟨r, -, heq⟩ := Turn.leads_ask.1 step
          cases heq
      | waited paid r =>
          cases r with
          | error e => exact step.elim
          | ok tx => exact absurd step c.not_looked_of_count
      | deep paid tx r =>
          cases r with
          | error e => exact step.elim
          | ok height =>
              simp only [turn] at step
              split at step <;> exact step.elim
      | interrupted => exact step.elim

/-- The confirmation breaks down on a first answer whose outputs have no sum. -/
theorem Confirmer.broken_of_course {c : Confirmer} {expected : Expectation}
    {asked : List (Asked Query Query.Reply)} {stage : Stage} {now : Instant}
    (course : Course (c.turn expected) .looking asked stage)
    (h : (c.turn expected now stage).Stops none) :
    ∃ tx : Transaction,
      ⟨.transaction expected.hash, (.ok tx : Except ConfirmationError _)⟩ ∈ asked ∧
        tx.valueTo? c.deposit = none := by
  have counts : ∀ paid tx, ¬(c.count paid tx).Stops none := by
    intro paid tx h
    unfold count at h
    split at h <;> exact h.elim
  cases stage with
  | looking => exact h.elim
  | looked r =>
      cases r with
      | error e => cases h
      | ok tx =>
          simp only [turn] at h
          split at h
          next unpaid => exact ⟨tx, asked_of_looked course, unpaid⟩
          next =>
            split at h
            · cases h
            · exact absurd h (counts _ _)
  | waiting paid => exact h.elim
  | waited paid r =>
      cases r with
      | error e => cases h
      | ok tx => exact absurd h (counts _ _)
  | deep paid tx r =>
      cases r with
      | error e => cases h
      | ok height =>
          simp only [turn] at h
          split at h <;> cases h
  | interrupted => cases h

end Settlement.BitcoinCash
