import Settlement.Proofs.Chain.Pauses
import Settlement.Proofs.Solo

/-!
# Cancelling a confirmation

A cancellation is noticed in a pause and nowhere else, and a pause that is cancelled leads straight
to the end (`Machine.Heeds`). So the run that is cancelled is the run that is not, up to a pause in
which it ends, or all of it (`Machine.Interrupts`). That holds of any machine that heeds a
cancellation, whatever its world answers, and of an activity under a deadline if it holds of the
activity (`Heeds.timed`).
-/

namespace Settlement

variable {C : Type} {R : C → Type} {W S A : Type}

namespace Machine

/-- A pause that is cancelled leads to the end, with the result `gone`. -/
def Heeds (m : Machine C R W S A) (gone : A) : Prop :=
  ∀ now stage length cut woken cancelled, m.turn now stage = .pause length cut woken cancelled →
    ∀ later, m.turn later cancelled = .done gone

/-- What it comes to that a lone activity is cancelled at an instant. The calls that it has made, at
any time of its run, are the first of those that it makes when it is not cancelled, at the same
times and with the same replies. If it ends when it is not cancelled, it ends in the same way or,
not later, with `gone`; if it ends when it is cancelled, the same holds the other way round. So it
never gets another result than `gone` by the cancellation. The calls are listed latest first. -/
structure Interrupts (m : Machine C R W S A) (world : W) (first : S) (instant : Instant)
    (gone : A) : Prop where
  traced : ∀ fuel, ∃ more,
    (System.run m fuel ⟨0, world, [.begin first (some instant)], 0, []⟩).log <:+
      (System.run m more ⟨0, world, [.begin first none], 0, []⟩).log
  ends : ∀ {time log result}, m.Halts world first none time log result →
    m.Halts world first (some instant) time log result ∨
      ∃ time' log', m.Halts world first (some instant) time' log' (some gone) ∧ time' ≤ time ∧
        log' <:+ log
  agrees : ∀ {time log result}, m.Halts world first (some instant) time log result →
    m.Halts world first none time log result ∨ result = some gone
  verdict : ∀ {time time' log log' result result'}, m.Halts world first none time log result →
    m.Halts world first (some instant) time' log' result' → result' = result ∨ result' = some gone

variable {m : Machine C R W S A} {gone : A} {world : W} {first : S} {instant : Instant}
  {x y : Point C R W S} {result : Option A}

/-- The cancellation changes nothing at a point, or the activity is at its end after that. -/
theorem after?_some (heeds : m.Heeds gone) (instant : Instant) (x : Point C R W S) :
    m.after? (some instant) x = m.after? none x ∨
      ∃ y z, m.after? none x = some y ∧ m.after? (some instant) x = some z ∧
        m.StopsAt z (some gone) ∧ z.log = x.log ∧ z.instant ≤ y.instant := by
  cases hturn : m.turn x.instant x.stage with
  | done a => exact Or.inl (by rw [after?, after?, hturn])
  | crash => exact Or.inl (by rw [after?, after?, hturn])
  | ask call cut resume => exact Or.inl ((after?_ask hturn).trans (after?_ask hturn).symm)
  | pause length cut woken cancelled =>
      rw [after?_pause hturn, after?_pause hturn]
      by_cases h : max x.instant instant ≤
          (endOfWait x.instant (x.instant + length.nanos) cut woken).1
      · have hend : endOfPause x.instant (x.instant + length.nanos) cut woken cancelled
            (some instant) = (max x.instant instant, cancelled) := if_pos h
        rw [hend]
        refine Or.inr ⟨_, _, rfl, rfl, ?_, rfl, h⟩
        rw [StopsAt, heeds _ _ _ _ _ _ hturn]
        rfl
      · have hend : endOfPause x.instant (x.instant + length.nanos) cut woken cancelled
            (some instant) = endOfWait x.instant (x.instant + length.nanos) cut woken := if_neg h
        rw [hend]
        exact Or.inl rfl

/-- A row of turns is one of the activity that is cancelled, too, or that ends on the way. -/
theorem Comes.cancelled (heeds : m.Heeds gone) (comes : m.Comes none x y) (instant : Instant) :
    m.Comes (some instant) x y ∨
      ∃ z, m.Comes (some instant) x z ∧ m.StopsAt z (some gone) ∧ z.instant ≤ y.instant ∧
        z.log <:+ y.log := by
  induction comes using Relation.ReflTransGen.head_induction_on with
  | refl => exact Or.inl .refl
  | @head x next step rest ih =>
      rcases after?_some heeds instant x with hsame | ⟨next', z, step', hz, stops, hlog, hle⟩
      · rcases ih with ih | ⟨z, comes, ends⟩
        · exact Or.inl (.head (hsame.trans step) ih)
        · exact Or.inr ⟨z, .head (hsame.trans step) comes, ends⟩
      · obtain rfl := Option.some.inj (step.symm.trans step')
        refine Or.inr ⟨z, .single hz, stops, Nat.le_trans hle (Comes.instant_le rest), ?_⟩
        rw [hlog]
        exact (log_suffix_of_after step).trans (Comes.log_suffix rest)

/-- Where the cancelled activity is, the other one is as well, or it has just been before the
cancelled one ended. -/
theorem Comes.uncancelled (heeds : m.Heeds gone) (comes : m.Comes (some instant) x y) :
    m.Comes none x y ∨ m.StopsAt y (some gone) ∧ ∃ z, m.Comes none x z ∧ z.log = y.log := by
  induction comes with
  | refl => exact Or.inl .refl
  | @tail before after _ step ih =>
      rcases ih with ih | ⟨stops, -⟩
      · rcases after?_some heeds instant before with hsame | ⟨_, z, -, hz, stops, hlog, -⟩
        · exact Or.inl (ih.tail (hsame.symm.trans step))
        · obtain rfl := Option.some.inj (hz.symm.trans step)
          exact Or.inr ⟨stops, before, ih, hlog.symm⟩
      · cases (after?_of_stops stops).symm.trans step

theorem Heeds.traced (heeds : m.Heeds gone) (world : W) (first : S) (instant : Instant)
    (fuel : Nat) : ∃ more,
      (System.run m fuel ⟨0, world, [.begin first (some instant)], 0, []⟩).log <:+
        (System.run m more ⟨0, world, [.begin first none], 0, []⟩).log := by
  obtain ⟨y, comes, hlog, -⟩ := comes_of_fuel m world first (some instant) fuel
  have hother : ∃ z, m.Comes none ⟨0, world, first, []⟩ z ∧ z.log = y.log := by
    rcases comes.uncancelled heeds with comes | ⟨-, z, comes, hlog⟩
    · exact ⟨y, comes, rfl⟩
    · exact ⟨z, comes, hlog⟩
  obtain ⟨z, comes', hlog'⟩ := hother
  obtain ⟨enough, hsuffix⟩ := log_of_comes comes'
  exact ⟨enough, hlog ▸ hlog' ▸ hsuffix enough (Nat.le_refl _)⟩

theorem Heeds.ends (heeds : m.Heeds gone) (instant : Instant) {time : Instant}
    {log : List (Entry C R)} (halts : m.Halts world first none time log result) :
    m.Halts world first (some instant) time log result ∨
      ∃ time' log', m.Halts world first (some instant) time' log' (some gone) ∧ time' ≤ time ∧
        log' <:+ log := by
  obtain ⟨y, comes, stops, rfl, rfl⟩ := comes_of_halts halts
  rcases comes.cancelled heeds instant with comes | ⟨z, comes, gone, hle, hlog⟩
  · exact Or.inl (halts_of_comes comes stops)
  · exact Or.inr ⟨z.instant, z.log, halts_of_comes comes gone, hle, hlog⟩

theorem Heeds.interrupts (heeds : m.Heeds gone) (world : W) (first : S) (instant : Instant) :
    m.Interrupts world first instant gone where
  traced := heeds.traced world first instant
  ends := heeds.ends instant
  agrees halts := by
    obtain ⟨y, comes, stops, rfl, rfl⟩ := comes_of_halts halts
    rcases comes.uncancelled heeds with comes | ⟨stops', -⟩
    · exact Or.inl (halts_of_comes comes stops)
    · exact Or.inr (stops.unique stops')
  verdict halts halts' := by
    rcases heeds.ends instant halts with same | ⟨time, log, cut, -, -⟩
    · exact Or.inl (halts'.unique same)
    · exact Or.inr (halts'.unique cut)

/-- A machine heeds a cancellation if each of its pauses does. -/
theorem heeds_of_pauses
    (h : ∀ now stage, (m.turn now stage).Pauses fun _ cancelled =>
      ∀ later, m.turn later cancelled = .done gone) : m.Heeds gone := by
  intro now stage length cut woken cancelled turn
  have hpause := h now stage
  rw [turn] at hpause
  exact hpause

theorem Heeds.pauses (heeds : m.Heeds gone) (now : Instant) (stage : S) :
    (m.turn now stage).Pauses fun _ cancelled => ∀ later, m.turn later cancelled = .done gone := by
  cases hturn : m.turn now stage with
  | pause length cut woken cancelled => exact heeds _ _ _ _ _ _ hturn
  | _ => trivial

/-- A deadline does not change what a cancellation leads to. -/
theorem Heeds.timed (heeds : m.Heeds gone) (late : A) : (m.timed late).Heeds gone := by
  intro now stage length cut woken cancelled turn later
  cases stage with
  | expired => cases turn
  | running deadline stage =>
      simp only [Machine.timed, Timed.turn] at turn
      cases hturn : m.turn now stage with
      | done a => rw [hturn] at turn; cases turn
      | crash => rw [hturn] at turn; cases turn
      | ask call cut resume => rw [hturn] at turn; cases cut <;> cases turn
      | pause length cut woken cancelled =>
          have hgone := heeds _ _ _ _ _ _ hturn later
          rw [hturn] at turn
          cases cut <;>
            · cases turn
              simp only [Machine.timed, Timed.turn, hgone]
              rfl

end Machine

theorem Ethereum.Confirmer.heeds (c : Confirmer) (hash : Hash) (expected : Expectation) :
    (c.untimed hash expected).Heeds (.error .cancelled) := by
  refine Machine.heeds_of_pauses fun now stage => (c.pauses_turn hash expected stage).imp ?_
  rintro _ _ ⟨-, rfl⟩ later
  rfl

theorem Dash.Confirmer.heeds (c : Confirmer) (forward : String) (charge : Decimal) :
    (c.untimed forward charge).Heeds (.error .cancelled) := by
  refine Machine.heeds_of_pauses fun now stage => (c.pauses_turn forward charge now stage).imp ?_
  rintro _ _ (⟨-, rfl⟩ | ⟨-, tally, deposit, rest, rfl⟩) later
  · rfl
  · rfl

theorem BitcoinCash.Confirmer.heeds (c : Confirmer) (expected : Expectation) :
    (c.untimed expected).Heeds (.error .cancelled) := by
  refine Machine.heeds_of_pauses fun now stage => (c.pauses_turn expected now stage).imp ?_
  rintro _ _ ⟨-, rfl⟩ later
  rfl

/-- Whatever a node answers, and whenever a confirmation on one of the chains is cancelled: the run
that is cancelled is the run that is not, result, time and calls, or it ends as cancelled after the
first of the same calls. So it never confirms what would have been refused, nor refuses what would
have been confirmed. -/
theorem interrupts_confirmation (node : Rehearsal.Node) (instant : Instant) :
    (∀ (c : Ethereum.Confirmer) (hash : Hash) (expected : Ethereum.Expectation),
      (Rehearsal.ethereumMachine c hash expected).Interrupts node (c.start 0) instant
        (.error .cancelled)) ∧
    (∀ (c : Dash.Confirmer) (forward : String) (charge : Decimal),
      (Rehearsal.dashMachine c forward charge).Interrupts node (c.start 0) instant
        (.error .cancelled)) ∧
    (∀ (c : BitcoinCash.Confirmer) (expected : BitcoinCash.Expectation),
      (Rehearsal.bitcoinCashMachine c expected).Interrupts node (c.start 0) instant
        (.error .cancelled)) := by
  refine ⟨?_, ?_, ?_⟩
  · intro c hash expected
    exact ((c.heeds hash expected).timed _).interrupts _ _ _
  · intro c forward charge
    exact ((c.heeds forward charge).timed _).interrupts _ _ _
  · intro c expected
    exact ((c.heeds expected).timed _).interrupts _ _ _

end Settlement
