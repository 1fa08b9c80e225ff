import Settlement.Rehearsal.Node

/-!
# What the confirmations wait for

Each confirmation pauses for one of its poll intervals, or for as many as there are confirmations
missing, and a pause that is cancelled leads it to its end. Nothing else in it pauses.
-/

namespace Settlement

namespace Turn

variable {C : Type} {R : C → Type} {S S' A B : Type}

/-- How long the turn pauses, if it does, and where a cancellation leads it, fulfils `P`. -/
def Pauses (P : Duration → S → Prop) : Turn C R S A → Prop
  | pause length _ _ cancelled => P length cancelled
  | _ => True

theorem Pauses.imp {P Q : Duration → S → Prop} {t : Turn C R S A} (h : t.Pauses P)
    (imp : ∀ length cancelled, P length cancelled → Q length cancelled) : t.Pauses Q := by
  cases t with
  | pause length cut woken cancelled => exact imp _ _ h
  | _ => trivial

/-- The whole pauses as its part does, or as what follows it. -/
theorem pauses_within {D : Type} {Q : D → Type} {P : Duration → S' → Prop} {call : C → D}
    {reply : ∀ c, Q (call c) → R c} {stage : S → S'} {next : A → Turn D Q S' B}
    {t : Turn C R S A} (h : t.Pauses fun length cancelled => P length (stage cancelled))
    (hnext : ∀ a, (next a).Pauses P) : (t.within call reply stage next).Pauses P := by
  cases t with
  | done a => exact hnext a
  | pause length cut woken cancelled => exact h
  | ask call cut resume => trivial
  | crash => trivial

theorem pauses_andThen {P : Duration → S' → Prop} {stage : S → S'}
    {next : A → Turn C R S' B} {t : Turn C R S A}
    (h : t.Pauses fun length cancelled => P length (stage cancelled))
    (hnext : ∀ a, (next a).Pauses P) : (t.andThen stage next).Pauses P :=
  pauses_within h hnext

end Turn

/-- The confirmation of an Ethereum transaction without a deadline. -/
def Ethereum.Confirmer.untimed (c : Confirmer) (hash : Hash) (expected : Expectation) :
    Machine Query Query.Reply Rehearsal.Node Stage (Except ConfirmationError Receipt) where
  turn := fun _ => c.turn hash expected
  answer := fun _ query node => node.ethereum query

/-- The confirmation of a Dash payment without a deadline. -/
def Dash.Confirmer.untimed (c : Confirmer) (forward : String) (charge : Decimal) :
    Machine Query Query.Reply Rehearsal.Node Stage (Except ConfirmationError Decimal) where
  turn := c.turn forward charge
  answer := fun _ query node => node.dash query

/-- The confirmation of a Bitcoin Cash payment without a deadline. -/
def BitcoinCash.Confirmer.untimed (c : Confirmer) (expected : Expectation) :
    Machine Query Query.Reply Rehearsal.Node Stage (Except ConfirmationError Decimal) where
  turn := c.turn expected
  answer := fun _ query node => node.bitcoinCash query

theorem Ethereum.Confirmer.pauses_turn (c : Confirmer) (hash : Hash) (expected : Expectation)
    (stage : Stage) : (c.turn hash expected stage).Pauses fun length cancelled =>
      length = c.policy.pollInterval ∧ cancelled = .interrupted := by
  cases stage with
  | looking => trivial
  | looked r =>
      rcases r with e | _ | tx
      · trivial
      · trivial
      · simp only [turn]
        split
        · trivial
        · exact ⟨rfl, rfl⟩
  | placed r =>
      rcases r with e | _ | receipt
      · trivial
      · trivial
      · simp only [turn]
        split <;> trivial
  | counting block last => trivial
  | counted block last r =>
      cases r with
      | error e => trivial
      | ok head =>
          simp only [turn]
          split
          · trivial
          · split
            · exact ⟨rfl, rfl⟩
            · trivial
  | buried r => rcases r with e | _ | receipt <;> trivial
  | settled receipt r =>
      rcases r with e | _ | tx
      · trivial
      · trivial
      · simp only [turn]
        split <;> trivial
  | interrupted => trivial

theorem BitcoinCash.Confirmer.pauses_count (c : Confirmer) (paid : Decimal) (tx : Transaction) :
    (c.count paid tx).Pauses fun length cancelled =>
      length = c.policy.pollInterval ∧ cancelled = .interrupted := by
  unfold count
  split
  · trivial
  · exact ⟨rfl, rfl⟩

theorem BitcoinCash.Confirmer.pauses_turn (c : Confirmer) (expected : Expectation) (now : Instant)
    (stage : Stage) : (c.turn expected now stage).Pauses fun length cancelled =>
      length = c.policy.pollInterval ∧ cancelled = .interrupted := by
  cases stage with
  | looking => trivial
  | looked r =>
      cases r with
      | error e => trivial
      | ok tx =>
          simp only [turn]
          split
          · trivial
          · split
            · trivial
            · exact c.pauses_count _ _
  | waiting paid => trivial
  | waited paid r =>
      cases r with
      | error e => trivial
      | ok tx => exact c.pauses_count _ _
  | deep paid tx r =>
      cases r with
      | error e => trivial
      | ok height =>
          simp only [turn]
          split <;> trivial
  | interrupted => trivial

theorem Dash.Confirmer.pauses_takeDeposits (c : Confirmer) (charge : Decimal) (tally : Tally)
    (deposits : List Deposit) : (c.takeDeposits charge tally deposits).Pauses
      fun length cancelled => length = c.forwardPollInterval ∧ cancelled = .interrupted := by
  unfold takeDeposits
  split
  · trivial
  · split
    · trivial
    · exact ⟨rfl, rfl⟩

theorem Dash.Confirmer.pauses_settle (c : Confirmer) (hash : String) (now : Instant)
    (s : Settling) : (c.settle hash now s).Pauses fun length cancelled =>
      (∃ confirmations, length = c.wait confirmations) ∧ cancelled = .interrupted := by
  cases s with
  | looking => trivial
  | looked r =>
      cases r with
      | error e => trivial
      | ok tx =>
          simp only [settle]
          split
          · trivial
          · exact ⟨⟨_, rfl⟩, rfl⟩
  | deep tx r =>
      cases r with
      | error e => trivial
      | ok height =>
          simp only [settle]
          split <;> trivial
  | interrupted => trivial

theorem Dash.Confirmer.pauses_turn (c : Confirmer) (forward : String) (charge : Decimal)
    (now : Instant) (stage : Stage) :
    (c.turn forward charge now stage).Pauses fun length cancelled =>
      (length = c.forwardPollInterval ∧ cancelled = .interrupted) ∨
        (∃ confirmations, length = c.wait confirmations) ∧
          ∃ tally deposit rest, cancelled = .settling tally deposit rest .interrupted := by
  have htake : ∀ tally deposits, (c.takeDeposits charge tally deposits).Pauses
      fun length cancelled => (length = c.forwardPollInterval ∧ cancelled = .interrupted) ∨
        (∃ confirmations, length = c.wait confirmations) ∧
          ∃ tally deposit rest, cancelled = .settling tally deposit rest .interrupted :=
    fun tally deposits => (c.pauses_takeDeposits charge tally deposits).imp fun _ _ => Or.inl
  cases stage with
  | looking tally => trivial
  | looked tally r =>
      cases r with
      | error e => trivial
      | ok deposits => exact htake tally deposits
  | settling tally deposit rest s =>
      refine Turn.pauses_andThen ((c.pauses_settle _ now s).imp ?_) fun r => ?_
      · rintro length _ ⟨hlength, rfl⟩
        exact Or.inr ⟨hlength, tally, deposit, rest, rfl⟩
      · cases r with
        | error e => trivial
        | ok tx =>
            dsimp only
            split
            · trivial
            · exact htake _ rest
  | interrupted => trivial

end Settlement
