import Settlement.Proofs.Chain.Dash.Total
import Settlement.Proofs.Chain.Scripts
import Settlement.Proofs.Deadline

/-!
# How many calls a Dash confirmation makes at once

While no time passes, the confirmation settles the deposits of one answer, one after the other, with
two calls for each; before the next answer it pauses. It breaks down only where a sum of deposits is
no amount.
-/

namespace Settlement.Dash

open Rehearsal (Ended)

/-- A timeout that is held while a deposit is settled is one of a script. -/
def Settling.Told (node : Rehearsal.Node) : Settling → Prop
  | looked r => Rehearsal.Told node r
  | deep _ r => Rehearsal.Told node r
  | _ => True

/-- A timeout that is held at a stage is one of a script. -/
def Stage.Told (node : Rehearsal.Node) : Stage → Prop
  | looked _ r => Rehearsal.Told node r
  | settling _ _ _ s => s.Told node
  | _ => True

/-- The calls that may still be made while no time passes, when `behind` deposits are behind the one
that is settled. -/
def settlingRank (behind : Nat) : Settling → Nat
  | .looking => 3 * behind + 3
  | .looked _ => 3 * behind + 2
  | .deep _ _ => 3 * behind + 1
  | .interrupted => 0

/-- The calls that may still be made while no time passes, for the deposits of an answer. -/
def answerRank (r : Except ConfirmationError (List Deposit)) : Nat :=
  3 * (r.toOption.getD []).length + 1

/-- The calls that may still be made while no time passes. -/
def rank (forward : String) (node : Rehearsal.Node) : Stage → Nat
  | .looking _ => answerRank (node.forwards.next forward).1.outcome + 1
  | .looked _ r => answerRank r
  | .settling _ _ rest s => settlingRank rest.length s
  | .interrupted => 0

variable {node later : Rehearsal.Node}

theorem Confirmer.wait_pos (c : Confirmer) (poll : 0 < c.policy.pollInterval.nanos)
    (confirmations : Nat) : 0 < (c.wait confirmations).nanos := by
  have hmissing : 0 < min (c.missing confirmations) (twoPow 32 - 1) :=
    Nat.lt_min.2 ⟨Nat.lt_of_lt_of_le Nat.zero_lt_one (Nat.le_max_right _ _), by decide⟩
  exact Nat.lt_min.2 ⟨Nat.mul_pos poll hmissing, by decide⟩

theorem length_uncounted_le (tally : Tally) (deposits : List Deposit) :
    (tally.uncounted deposits).length ≤ deposits.length :=
  (List.dropWhile_sublist _).length_le

theorem Confirmer.descends_takeDeposits (c : Confirmer) (forward : String) (charge : Decimal)
    (poll : 0 < c.forwardPollInterval.nanos) (hlater : node.Later later) (tally : Tally)
    (deposits : List Deposit) : (c.takeDeposits charge tally deposits).Descends
      (fun _ query node => node.dash query)
      (fun world stage => node.Later world ∧ stage.Told node) (Ended node True) (rank forward)
      later (3 * deposits.length + 1) := by
  unfold takeDeposits
  split
  next deposit rest hrest =>
    have hle := length_uncounted_le tally deposits
    rw [hrest, List.length_cons] at hle
    refine ⟨rfl, fun now => ⟨(later.answers_dashTransaction deposit.inputHash).later hlater, ?_⟩⟩
    change 3 * rest.length + 2 < _
    omega
  next =>
    split
    · exact nofun
    · exact ⟨rfl, poll, ⟨hlater, trivial⟩, ⟨hlater, trivial⟩, Nat.succ_pos _⟩

theorem Confirmer.descends_settle (c : Confirmer) (hash : String) (now : Instant)
    (poll : 0 < c.policy.pollInterval.nanos) (hlater : node.Later later) (behind : Nat)
    (s : Settling) (told : s.Told node)
    {Q : Option (Except ConfirmationError Transaction) → Prop}
    (fails : ∀ e, Rehearsal.Told node (.error e : Except ConfirmationError Transaction) →
      Q (some (.error e)))
    (settles : ∀ tx height, s = .deep tx (.ok height) → Q (some (.ok tx))) :
    (c.settle hash now s).Descends (fun _ query node => node.dash query)
      (fun world s => node.Later world ∧ s.Told node) Q (fun _ s => settlingRank behind s) later
      (settlingRank behind s) := by
  cases s with
  | looking =>
      exact ⟨rfl, fun now => ⟨(later.answers_dashTransaction hash).later hlater,
        Nat.lt_succ_self _⟩⟩
  | looked r =>
      cases r with
      | error e => exact fails e told
      | ok tx =>
          simp only [settle]
          split
          · exact ⟨rfl, fun now => ⟨later.answers_height.later hlater, Nat.lt_succ_self _⟩⟩
          · exact ⟨rfl, c.wait_pos poll _, ⟨hlater, trivial⟩, ⟨hlater, trivial⟩, Nat.succ_pos _⟩
  | deep tx r =>
      cases r with
      | error e => exact fails e told.error
      | ok height =>
          simp only [settle]
          split
          · exact settles tx height rfl
          · exact fails _ (by simp [Rehearsal.Told])
  | interrupted => exact fails _ (by simp [Rehearsal.Told])

theorem Confirmer.descends_turn (c : Confirmer) (forward : String) (charge : Decimal)
    (now : Instant) (poll : 0 < c.policy.pollInterval.nanos)
    (forwardPoll : 0 < c.forwardPollInterval.nanos) (hlater : node.Later later) (stage : Stage)
    (told : stage.Told node) :
    (c.turn forward charge now stage).Descends (fun _ query node => node.dash query)
      (fun world stage => node.Later world ∧ stage.Told node) (Ended node True) (rank forward)
      later (rank forward later stage) := by
  cases stage with
  | looking tally =>
      exact ⟨rfl, fun now => ⟨(later.answers_forward forward).later hlater, Nat.lt_succ_self _⟩⟩
  | looked tally r =>
      cases r with
      | error e => exact told.error
      | ok deposits =>
          exact c.descends_takeDeposits forward charge forwardPoll hlater tally deposits
  | settling tally deposit rest s =>
      refine Turn.descends_andThen
        (c.descends_settle deposit.inputHash now poll hlater rest.length s told ?_ ?_)
      · exact fun e told => told.error
      · rintro tx height rfl
        simp only [Option.elim_some]
        cases tally.add? deposit with
        | none => trivial
        | some tally => exact c.descends_takeDeposits forward charge forwardPoll hlater tally rest
  | interrupted => exact nofun

theorem Confirmer.settle_ne_crash (c : Confirmer) (hash : String) (now : Instant)
    (s : Settling) : c.settle hash now s ≠ .crash := by
  cases s with
  | looking => simp [settle]
  | looked r =>
      cases r with
      | error e => simp [settle]
      | ok tx =>
          simp only [settle]
          split <;> simp
  | deep tx r =>
      cases r with
      | error e => simp [settle]
      | ok height =>
          simp only [settle]
          split <;> simp
  | interrupted => simp [settle]

/-- The confirmation breaks down only where the deposits that were reported are too many duffs for
an amount. -/
theorem Confirmer.broken_of_course {c : Confirmer} {forward : String} {charge : Decimal}
    {asked : List (Asked Query Query.Reply)} {stage : Stage} {now : Instant}
    (course : Course (c.turn forward charge) (.looking .empty) asked stage)
    (h : (c.turn forward charge now stage).Stops none) :
    Decimal.bound ≤ duffs (fresh [] (forwarded asked)) := by
  obtain ⟨limit, counting⟩ := counting_of_course course
  have takes : ∀ tally deposits, ¬(c.takeDeposits charge tally deposits).Stops none := by
    intro tally deposits h
    unfold takeDeposits at h
    split at h
    · exact h.elim
    · split at h
      · cases h
      · exact h.elim
  cases stage with
  | looking tally => exact h.elim
  | looked tally r =>
      cases r with
      | error e => cases h
      | ok deposits => exact absurd h (takes _ _)
  | settling tally deposit rest s =>
      obtain ⟨⟨settled, awaited⟩, -⟩ := counting
      obtain ⟨former, rfl, holds⟩ := awaited.holds
      by_contra small
      have hprefix : settled ++ [deposit] <+: fresh [] (forwarded asked) := by
        rw [awaited.all]
        refine (List.prefix_append_right_inj settled).2 ?_
        exact List.cons_prefix_cons.2 ⟨rfl, List.nil_prefix⟩
      obtain ⟨tally', hsum⟩ := Tally.exists_add? holds
        (Nat.lt_of_le_of_lt (duffs_mono hprefix) (Nat.lt_of_not_le small))
      simp only [turn] at h
      cases hsettle : c.settle deposit.inputHash now s with
      | done result =>
          rw [hsettle] at h
          cases result with
          | error e => cases h
          | ok tx =>
              simp only [Turn.andThen, Turn.within_done, hsum] at h
              exact takes _ _ h
      | crash => exact c.settle_ne_crash _ _ _ hsettle
      | ask call cut resume => rw [hsettle] at h; exact h.elim
      | pause length cut woken cancelled => rw [hsettle] at h; exact h.elim
  | interrupted => cases h

end Settlement.Dash
