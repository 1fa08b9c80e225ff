import Settlement.Proofs.Hosting
import Settlement.Rehearsal.World

/-!
# The attempts of an Ethereum verification

An attempt is one confirmation with a deadline of its own. `Begun` says when an attempt begins, in
which world and after which calls: the one before it failed in a way that another attempt may clear
up, and there was a pause that nobody cancelled. `Concluded` says how the verification ends: as the
last attempt did, or cancelled in a pause. A verification comes to that and to nothing else
(`halts_iff_concluded`).

While an attempt is under way, the verification goes on as the attempt does (`Machine.Hosts`).
-/

namespace Settlement

namespace Verifier

/-- A verification; there is no stage before its first turn. -/
def course {W : Type} (answer : Instant → (call : Call) → W → Answer W call.Reply) (v : Verifier)
    (request : Request) (payment : Payment) :
    Machine Call Call.Reply W (Option VerifierStage) Verdict where
  turn := fun now => fun
    | none => (v.begin request payment now).andThen some .done
    | some s => (v.turn payment now s).andThen some .done
  answer := answer

end Verifier

/-- What the attempts of a verification depend on. -/
structure Trials (W : Type) where
  answer : Instant → (call : Call) → W → Answer W call.Reply
  confirmer : Ethereum.Confirmer
  attempts : Nat
  retryPause : Duration
  hash : Hash
  expected : Ethereum.Expectation
  cancelAt : Option Instant

namespace Trials

open Verifier

variable {W : Type} (t : Trials W)

def verifier : Verifier := .ethereum t.confirmer t.attempts t.retryPause

/-- One confirmation, for which the same collaborators are asked. -/
def attempt : Machine Ethereum.Query Ethereum.Query.Reply W (Timed Ethereum.Stage)
    (Except ConfirmationError Ethereum.Receipt) where
  turn := fun _ => t.confirmer.timedTurn t.hash t.expected
  answer := fun now query => t.answer now (.ethereum query)

/-- An attempt that begins at an instant, with all the time that the policy gives, ends at a
point. -/
def Tried (now : Instant) (w : W)
    (y : Point Ethereum.Query Ethereum.Query.Reply W (Timed Ethereum.Stage))
    (result : Except ConfirmationError Ethereum.Receipt) : Prop :=
  t.attempt.Comes t.cancelAt ⟨now, w, t.confirmer.start now, []⟩ y ∧
    t.attempt.StopsAt y (some result)

/-- The attempt with the number `n` ended in a way that another one may clear up, and there are more
of them. -/
def Repeats (n : Nat) : Except ConfirmationError Ethereum.Receipt → Prop
  | .ok _ => False
  | .error e => e.isRetryable = true ∧ n < attemptsMade t.attempts

/-- The attempt with the number `n` begins at an instant in a world, after calls, latest first; the
first one at `start` in `w₁`, after `calls`. -/
inductive Begun (start : Instant) (w₁ : W) (calls : List (Entry Call Call.Reply)) :
    Nat → Instant → W → List (Entry Call Call.Reply) → Prop
  | first : Begun start w₁ calls 1 start w₁ calls
  | next {n : Nat} {now : Instant} {w : W} {before : List (Entry Call Call.Reply)}
      {y : Point Ethereum.Query Ethereum.Query.Reply W (Timed Ethereum.Stage)}
      {result : Except ConfirmationError Ethereum.Receipt}
      (begun : Begun start w₁ calls n now w before) (tried : t.Tried now w y result)
      (repeats : t.Repeats n result)
      (undisturbed : ∀ instant, t.cancelAt = some instant →
        y.instant + t.retryPause.nanos < instant) :
      Begun start w₁ calls (n + 1) (y.instant + t.retryPause.nanos) y.world
        (y.log.map (Entry.within .ethereum) ++ before)

/-- The verification ends at an instant, after calls, with a verdict: the one on the last attempt,
or that it was cancelled in a pause. -/
inductive Concluded (start : Instant) (w₁ : W) (calls : List (Entry Call Call.Reply)) :
    Instant → List (Entry Call Call.Reply) → Verdict → Prop
  | settled {n : Nat} {now : Instant} {w : W} {before : List (Entry Call Call.Reply)}
      {y : Point Ethereum.Query Ethereum.Query.Reply W (Timed Ethereum.Stage)}
      {result : Except ConfirmationError Ethereum.Receipt}
      (begun : t.Begun start w₁ calls n now w before) (tried : t.Tried now w y result)
      (last : ¬t.Repeats n result) :
      Concluded start w₁ calls y.instant (y.log.map (Entry.within .ethereum) ++ before)
        (verdict result)
  | cancelled {n : Nat} {now instant : Instant} {w : W} {before : List (Entry Call Call.Reply)}
      {y : Point Ethereum.Query Ethereum.Query.Reply W (Timed Ethereum.Stage)}
      {result : Except ConfirmationError Ethereum.Receipt}
      (begun : t.Begun start w₁ calls n now w before) (tried : t.Tried now w y result)
      (repeats : t.Repeats n result) (cancelled : t.cancelAt = some instant)
      (during : instant ≤ y.instant + t.retryPause.nanos) :
      Concluded start w₁ calls (max y.instant instant)
        (y.log.map (Entry.within .ethereum) ++ before) (.error (.verification .cancelled))

/-- The stage of the verification while the attempt with the number `n` is under way. -/
def trying (n : Nat) (s : Timed Ethereum.Stage) : Option VerifierStage :=
  some (.ethereum (.attempting t.hash t.expected n s))

/-- What the verification does when that attempt is over. -/
def afterwards (n : Nat) (result : Except ConfirmationError Ethereum.Receipt) :
    Step (Option VerifierStage) Verdict :=
  ((afterAttempt t.attempts t.retryPause t.hash t.expected n result).andThen
    VerifierStage.ethereum .done).andThen some .done

theorem turn_ne_crash (c : Ethereum.Confirmer) (hash : Hash) (expected : Ethereum.Expectation)
    (s : Ethereum.Stage) : c.turn hash expected s ≠ .crash := by
  fun_cases Ethereum.Confirmer.turn c hash expected s <;> exact nofun

theorem timedTurn_ne_crash (c : Ethereum.Confirmer) (hash : Hash)
    (expected : Ethereum.Expectation) (s : Timed Ethereum.Stage) :
    c.timedTurn hash expected s ≠ .crash := by
  intro crash
  cases s with
  | expired => cases crash
  | running deadline s =>
      simp only [Ethereum.Confirmer.timedTurn, Timed.turn] at crash
      cases hturn : c.turn hash expected s with
      | crash => exact turn_ne_crash c hash expected s hturn
      | done a => rw [hturn] at crash; cases crash
      | ask call cut resume => rw [hturn] at crash; cases cut <;> cases crash
      | pause length cut woken cancelled => rw [hturn] at crash; cases cut <;> cases crash

/-- The verification is where its attempt with the number `n` is, after the calls `before`. -/
abbrev Trying (request : Request) (payment : Payment) (n : Nat)
    (before : List (Entry Call Call.Reply))
    (y : Point Ethereum.Query Ethereum.Query.Reply W (Timed Ethereum.Stage))
    (z : Point Call Call.Reply W (Option VerifierStage)) : Prop :=
  Machine.Hosts Call.ethereum t.attempt (course t.answer t.verifier request payment) (t.trying n)
    (t.afterwards n) before y z

variable {t} {request : Request} {payment : Payment} {n : Nat} {now start : Instant} {w w₁ : W}
  {calls before log : List (Entry Call Call.Reply)}
  {y : Point Ethereum.Query Ethereum.Query.Reply W (Timed Ethereum.Stage)}
  {z z' : Point Call Call.Reply W (Option VerifierStage)}
  {result : Except ConfirmationError Ethereum.Receipt}

theorem turn_attempt (s : Timed Ethereum.Stage) :
    ((attemptTurn t.confirmer t.attempts t.retryPause t.hash t.expected n s).andThen
        VerifierStage.ethereum .done).andThen some .done =
      (t.attempt.turn now s).within Call.ethereum (fun _ r => r) (t.trying n) (t.afterwards n) := by
  unfold attemptTurn
  exact (congrArg (Turn.andThen some .done) (Turn.andThen_within _)).trans (Turn.andThen_within _)

theorem turn_trying (now : Instant) (s : Timed Ethereum.Stage) :
    (course t.answer t.verifier request payment).turn now (t.trying n s) =
      (t.attempt.turn now s).within Call.ethereum (fun _ r => r) (t.trying n) (t.afterwards n) :=
  turn_attempt s

/-- A verification that is about to retry begins the next attempt. -/
theorem trying_of_retrying :
    t.Trying request payment n log ⟨now, w, t.confirmer.start now, []⟩
      ⟨now, w, some (.ethereum (.retrying t.hash t.expected n)), log⟩ :=
  ⟨rfl, rfl, turn_attempt (t := t) (n := n) (t.confirmer.start now), rfl⟩

/-- A verification that has been told the registered address begins the first attempt. -/
theorem trying_of_addressed {registered : Option String}
    (hexpected : expectation payment registered = .ok t.expected) :
    t.Trying request payment 1 log ⟨now, w, t.confirmer.start now, []⟩
      ⟨now, w, some (.ethereum (.addressed t.hash (.ok registered))), log⟩ := by
  refine ⟨rfl, rfl, Eq.trans ?_ (turn_attempt (t.confirmer.start now)), rfl⟩
  simp only [course, verifier, Verifier.turn, ethereumTurn, hexpected]

theorem Trying.comes
    (trying : t.Trying request payment n before ⟨now, w, t.confirmer.start now, []⟩ z)
    (comes : t.attempt.Comes t.cancelAt ⟨now, w, t.confirmer.start now, []⟩ y) :
    ∃ z', (course t.answer t.verifier request payment).Comes t.cancelAt z z' ∧
      t.Trying request payment n before y z' :=
  Machine.Hosts.comes (fun _ _ _ => rfl) turn_trying trying comes

/-- When the attempt is over, the verification does what follows it. -/
theorem Trying.over (trying : t.Trying request payment n before y z)
    (stops : t.attempt.StopsAt y (some result)) :
    (course t.answer t.verifier request payment).turn z.instant z.stage =
      t.afterwards n result :=
  Machine.Hosts.over trying stops

theorem afterwards_of_last (last : ¬t.Repeats n result) :
    t.afterwards n result = .done (verdict result) := by
  cases result with
  | ok receipt => rfl
  | error e =>
      have hlast : ¬(e.isRetryable && decide (n < attemptsMade t.attempts)) = true := by
        simpa [Repeats] using last
      rw [afterwards, afterAttempt, if_neg hlast]
      rfl

/-- After the last attempt the verification ends with the verdict on it. -/
theorem Trying.stops_last (trying : t.Trying request payment n before y z)
    (stops : t.attempt.StopsAt y (some result)) (last : ¬t.Repeats n result) :
    (course t.answer t.verifier request payment).StopsAt z (some (verdict result)) := by
  rw [Machine.StopsAt, trying.over stops, afterwards_of_last last]
  rfl

theorem afterwards_of_repeats (repeats : t.Repeats n result) :
    t.afterwards n result = .pause t.retryPause none
      (some (.ethereum (.retrying t.hash t.expected (n + 1)))) (some (.ethereum .interrupted)) := by
  cases result with
  | ok receipt => exact repeats.elim
  | error e =>
      have hmore : (e.isRetryable && decide (n < attemptsMade t.attempts)) = true := by
        simpa [Repeats] using repeats
      rw [afterwards, afterAttempt, if_pos hmore]
      rfl

/-- A pause that nobody cancels is followed by the next attempt. -/
theorem Trying.next (trying : t.Trying request payment n before y z)
    (stops : t.attempt.StopsAt y (some result)) (repeats : t.Repeats n result)
    (undisturbed : ∀ instant, t.cancelAt = some instant →
      y.instant + t.retryPause.nanos < instant) :
    ∃ z', (course t.answer t.verifier request payment).after? t.cancelAt z = some z' ∧
      t.Trying request payment (n + 1) (y.log.map (Entry.within .ethereum) ++ before)
        ⟨y.instant + t.retryPause.nanos, y.world,
          t.confirmer.start (y.instant + t.retryPause.nanos), []⟩ z' := by
  have woken : endOfPause y.instant (y.instant + t.retryPause.nanos) none
      (some (VerifierStage.ethereum (.retrying t.hash t.expected (n + 1))))
      (some (.ethereum .interrupted)) t.cancelAt =
        (y.instant + t.retryPause.nanos,
          some (.ethereum (.retrying t.hash t.expected (n + 1)))) := by
    cases hcancel : t.cancelAt with
    | none => rfl
    | some instant =>
        have late := undisturbed instant hcancel
        exact if_neg (Nat.not_le.2 (Nat.lt_of_lt_of_le late (Nat.le_max_right _ _)))
  refine ⟨_, Machine.after?_pause ((trying.over stops).trans (afterwards_of_repeats repeats)), ?_⟩
  rw [trying.instant, trying.world, trying.log, woken]
  exact trying_of_retrying

/-- A pause that is cancelled is followed by the end. -/
theorem Trying.cancelled {instant : Instant} (trying : t.Trying request payment n before y z)
    (stops : t.attempt.StopsAt y (some result)) (repeats : t.Repeats n result)
    (cancelled : t.cancelAt = some instant)
    (during : instant ≤ y.instant + t.retryPause.nanos) :
    (course t.answer t.verifier request payment).after? t.cancelAt z =
      some ⟨max y.instant instant, y.world, some (.ethereum .interrupted),
        y.log.map (Entry.within .ethereum) ++ before⟩ := by
  have early : max y.instant instant ≤ y.instant + t.retryPause.nanos :=
    Nat.max_le.2 ⟨Nat.le_add_right _ _, during⟩
  have ends : endOfPause y.instant (y.instant + t.retryPause.nanos) none
      (some (VerifierStage.ethereum (.retrying t.hash t.expected (n + 1))))
      (some (.ethereum .interrupted)) t.cancelAt =
        (max y.instant instant, some (.ethereum .interrupted)) := by
    rw [cancelled]
    exact if_pos early
  rw [Machine.after?_pause ((trying.over stops).trans (afterwards_of_repeats repeats)),
    trying.instant, trying.world, trying.log, ends]

theorem stopsAt_interrupted (instant : Instant) (w : W) (log : List (Entry Call Call.Reply)) :
    (course t.answer t.verifier request payment).StopsAt
      ⟨instant, w, some (.ethereum .interrupted), log⟩
      (some (.error (.verification .cancelled))) := rfl

/-- An attempt does not break down. -/
theorem not_stopsAt_none : ¬t.attempt.StopsAt y none := by
  intro stops
  rcases Turn.cases_of_stops stops with ⟨a, -, hnone⟩ | ⟨crash, -⟩
  · cases hnone
  · exact timedTurn_ne_crash t.confirmer t.hash t.expected y.stage crash

/-- An attempt that is over is the last one, or is followed by a pause that is cancelled, or by the
next attempt. -/
theorem last_or_cancelled_or_repeats (t : Trials W) (n : Nat) (later : Instant)
    (result : Except ConfirmationError Ethereum.Receipt) :
    ¬t.Repeats n result ∨
      (t.Repeats n result ∧
        ∃ instant, t.cancelAt = some instant ∧ instant ≤ later + t.retryPause.nanos) ∨
      (t.Repeats n result ∧
        ∀ instant, t.cancelAt = some instant → later + t.retryPause.nanos < instant) := by
  by_cases repeats : t.Repeats n result
  · by_cases cancelled :
        ∃ instant, t.cancelAt = some instant ∧ instant ≤ later + t.retryPause.nanos
    · exact Or.inr (Or.inl ⟨repeats, cancelled⟩)
    · exact Or.inr (Or.inr ⟨repeats, fun instant hcancel =>
        Nat.lt_of_not_le fun h => cancelled ⟨instant, hcancel, h⟩⟩)
  · exact Or.inl repeats

/-- It comes to each attempt that begins. -/
theorem Begun.comes (begun : t.Begun start w₁ calls n now w before)
    (first : t.Trying request payment 1 calls ⟨start, w₁, t.confirmer.start start, []⟩ z) :
    ∃ z', (course t.answer t.verifier request payment).Comes t.cancelAt z z' ∧
      t.Trying request payment n before ⟨now, w, t.confirmer.start now, []⟩ z' := by
  induction begun with
  | first => exact ⟨z, .refl, first⟩
  | next _ tried repeats undisturbed ih =>
      obtain ⟨z₁, comes, trying⟩ := ih
      obtain ⟨z₂, comes', ended⟩ := trying.comes tried.1
      obtain ⟨z₃, step, trying'⟩ := ended.next tried.2 repeats undisturbed
      exact ⟨z₃, (comes.trans comes').tail step, trying'⟩

/-- It comes to the end that it concludes with. -/
theorem Concluded.comes {instant : Instant} {verdict : Verdict}
    (concluded : t.Concluded start w₁ calls instant log verdict)
    (first : t.Trying request payment 1 calls ⟨start, w₁, t.confirmer.start start, []⟩ z) :
    ∃ z', (course t.answer t.verifier request payment).Comes t.cancelAt z z' ∧
      (course t.answer t.verifier request payment).StopsAt z' (some verdict) ∧
      z'.instant = instant ∧ z'.log = log := by
  cases concluded with
  | settled begun tried last =>
      obtain ⟨z₁, comes, trying⟩ := begun.comes first
      obtain ⟨z₂, comes', ended⟩ := trying.comes tried.1
      exact ⟨z₂, comes.trans comes', ended.stops_last tried.2 last, ended.instant, ended.log⟩
  | cancelled begun tried repeats cancelled during =>
      obtain ⟨z₁, comes, trying⟩ := begun.comes first
      obtain ⟨z₂, comes', ended⟩ := trying.comes tried.1
      have step := ended.cancelled tried.2 repeats cancelled during
      exact ⟨_, (comes.trans comes').tail step, stopsAt_interrupted _ _ _, rfl, rfl⟩

/-- Where the verification may be after the address is known. -/
inductive Underway (t : Trials W) (request : Request) (payment : Payment) (start : Instant) (w₁ : W)
    (calls : List (Entry Call Call.Reply)) (z : Point Call Call.Reply W (Option VerifierStage)) :
    Prop
  | trying {n : Nat} {now : Instant} {w : W} {before : List (Entry Call Call.Reply)}
      {y : Point Ethereum.Query Ethereum.Query.Reply W (Timed Ethereum.Stage)}
      (begun : t.Begun start w₁ calls n now w before)
      (comes : t.attempt.Comes t.cancelAt ⟨now, w, t.confirmer.start now, []⟩ y)
      (trying : t.Trying request payment n before y z)
  | cancelled (stage : z.stage = some (.ethereum .interrupted))
      (concluded : t.Concluded start w₁ calls z.instant z.log
        (.error (.verification .cancelled)))

theorem Underway.next (underway : t.Underway request payment start w₁ calls z)
    (step : (course t.answer t.verifier request payment).after? t.cancelAt z = some z') :
    t.Underway request payment start w₁ calls z' := by
  cases underway with
  | cancelled stage concluded =>
      obtain ⟨instant, w, stage', log⟩ := z
      obtain rfl : stage' = _ := stage
      rw [Machine.after?_of_stops (stopsAt_interrupted _ _ _)] at step
      cases step
  | @trying n now w before y begun comes trying =>
      rcases t.attempt.after_or_stops t.cancelAt y with ⟨y', goes⟩ | ⟨_ | result, stops⟩
      · obtain ⟨z'', step', trying'⟩ := trying.step (fun _ _ _ => rfl) turn_trying goes
        obtain rfl := Option.some.inj (step.symm.trans step')
        exact .trying begun (comes.tail goes) trying'
      · exact (not_stopsAt_none stops).elim
      rcases t.last_or_cancelled_or_repeats n y.instant result with
        last | ⟨repeats, instant, cancelled, during⟩ | ⟨repeats, undisturbed⟩
      · rw [Machine.after?_of_stops (trying.stops_last stops last)] at step
        cases step
      · obtain rfl := Option.some.inj
          (step.symm.trans (trying.cancelled stops repeats cancelled during))
        exact .cancelled rfl (.cancelled begun ⟨comes, stops⟩ repeats cancelled during)
      · obtain ⟨z'', step', trying'⟩ := trying.next stops repeats undisturbed
        obtain rfl := Option.some.inj (step.symm.trans step')
        exact .trying (.next begun ⟨comes, stops⟩ repeats undisturbed) .refl trying'

theorem Underway.comes (underway : t.Underway request payment start w₁ calls z)
    (comes : (course t.answer t.verifier request payment).Comes t.cancelAt z z') :
    t.Underway request payment start w₁ calls z' := by
  induction comes with
  | refl => exact underway
  | tail _ step ih => exact ih.next step

/-- Where the verification stops it is concluded. -/
theorem Underway.stops {verdict? : Option Verdict}
    (underway : t.Underway request payment start w₁ calls z)
    (stops : (course t.answer t.verifier request payment).StopsAt z verdict?) :
    ∃ verdict, verdict? = some verdict ∧
      t.Concluded start w₁ calls z.instant z.log verdict := by
  cases underway with
  | cancelled stage concluded =>
      obtain ⟨instant, w, stage', log⟩ := z
      obtain rfl : stage' = _ := stage
      exact ⟨_, stops.unique (stopsAt_interrupted _ _ _), concluded⟩
  | @trying n now w before y begun comes trying =>
      have ended : (course t.answer t.verifier request payment).after? t.cancelAt z = none :=
        Machine.after?_of_stops stops
      rcases t.attempt.after_or_stops t.cancelAt y with ⟨y', goes⟩ | ⟨_ | result, ends⟩
      · obtain ⟨z'', step', -⟩ := trying.step (fun _ _ _ => rfl) turn_trying goes
        cases ended.symm.trans step'
      · exact (not_stopsAt_none ends).elim
      rcases t.last_or_cancelled_or_repeats n y.instant result with
        last | ⟨repeats, instant, cancelled, during⟩ | ⟨repeats, undisturbed⟩
      · refine ⟨_, stops.unique (trying.stops_last ends last), ?_⟩
        rw [trying.instant, trying.log]
        exact .settled begun ⟨comes, ends⟩ last
      · cases ended.symm.trans (trying.cancelled ends repeats cancelled during)
      · obtain ⟨z'', step', -⟩ := trying.next ends repeats undisturbed
        cases ended.symm.trans step'

/-- Where each attempt ends there is a last one. -/
theorem Begun.concluded (begun : t.Begun start w₁ calls n now w before)
    (ends : ∀ n now w before, t.Begun start w₁ calls n now w before →
      ∃ y result, t.Tried now w y result) :
    ∃ instant log verdict, t.Concluded start w₁ calls instant log verdict := by
  induction hleft : attemptsMade t.attempts - n generalizing n now w before with
  | zero =>
      obtain ⟨y, result, tried⟩ := ends n now w before begun
      refine ⟨_, _, _, .settled begun tried ?_⟩
      cases result with
      | ok receipt => exact id
      | error e => exact fun repeats => absurd repeats.2 (by omega)
  | succ left ih =>
      obtain ⟨y, result, tried⟩ := ends n now w before begun
      rcases t.last_or_cancelled_or_repeats n y.instant result with
        last | ⟨repeats, instant, cancelled, during⟩ | ⟨repeats, undisturbed⟩
      · exact ⟨_, _, _, .settled begun tried last⟩
      · exact ⟨_, _, _, .cancelled begun tried repeats cancelled during⟩
      · exact ih (.next begun tried repeats undisturbed) (by omega)

/-- The question for the registered address, with which a verification begins. -/
def inquiry (payment : Payment) (registered : Option String) : List (Entry Call Call.Reply) :=
  [⟨0, 0, .findAddress payment.user, (.ok registered : Except StoreError (Option String))⟩]

theorem after?_opening (ask : EthereumRequest) {world : W} {registered : Option String}
    {delay : Duration} (hhash : paymentHash payment = .ok t.hash)
    (hanswer : t.answer 0 (.findAddress payment.user) world =
      ⟨(.ok registered : Except StoreError (Option String)), delay, w₁⟩) :
    (course t.answer t.verifier (.ethereum ask) payment).after? t.cancelAt
        ⟨0, world, none, []⟩ =
      some ⟨delay.nanos, w₁, some (.ethereum (.addressed t.hash (.ok registered))),
        inquiry payment registered⟩ := by
  have hturn : (course t.answer t.verifier (.ethereum ask) payment).turn 0 none =
      .ask (.findAddress payment.user) none
        fun r => some (.ethereum (.addressed t.hash r)) := by
    simp only [course, verifier, Verifier.begin, hhash]
    rfl
  have hcourse : (course t.answer t.verifier (.ethereum ask) payment).answer 0
      (.findAddress payment.user) world = ⟨.ok registered, delay, w₁⟩ := hanswer
  rw [Machine.after?_ask (x := ⟨0, world, none, []⟩) hturn]
  simp only [hcourse, endOfWait, Nat.zero_add]
  rfl

/-- The verification of a payment whose hash and whose registered address can be read makes one
attempt after the other, up to the first that is not repeated, with a pause between two of them,
unless a pause is cancelled; it ends in no other way, and it does end where each attempt does. -/
theorem halts_iff_concluded (t : Trials W) (ask : EthereumRequest) (payment : Payment)
    (world : W) {registered : Option String} {delay : Duration} {w₁ : W}
    (hhash : paymentHash payment = .ok t.hash)
    (hanswer : t.answer 0 (.findAddress payment.user) world =
      ⟨(.ok registered : Except StoreError (Option String)), delay, w₁⟩)
    (hexpected : expectation payment registered = .ok t.expected) :
    (∀ instant log verdict?,
      (course t.answer t.verifier (.ethereum ask) payment).Halts world none t.cancelAt instant log
          verdict? ↔
        ∃ verdict, verdict? = some verdict ∧
          t.Concluded delay.nanos w₁ (inquiry payment registered) instant log verdict) ∧
    ((∀ n now w before,
        t.Begun delay.nanos w₁ (inquiry payment registered) n now w before →
          ∃ y result, t.Tried now w y result) →
      ∃ instant log verdict,
        (course t.answer t.verifier (.ethereum ask) payment).Halts world none t.cancelAt instant
          log (some verdict)) := by
  have opening := after?_opening ask hhash hanswer
  have first : t.Trying (.ethereum ask) payment 1 (inquiry payment registered)
      ⟨delay.nanos, w₁, t.confirmer.start delay.nanos, []⟩
      ⟨delay.nanos, w₁, some (.ethereum (.addressed t.hash (.ok registered))),
        inquiry payment registered⟩ := trying_of_addressed hexpected
  have halts : ∀ instant log verdict,
      t.Concluded delay.nanos w₁ (inquiry payment registered) instant log verdict →
      (course t.answer t.verifier (.ethereum ask) payment).Halts world none t.cancelAt instant log
        (some verdict) := by
    intro instant log verdict concluded
    obtain ⟨z, comes, stops, rfl, rfl⟩ := concluded.comes first
    exact Machine.halts_of_comes (.head opening comes) stops
  refine ⟨fun instant log verdict? => ⟨fun ends => ?_, ?_⟩, fun ends => ?_⟩
  · obtain ⟨z, comes, stops, rfl, rfl⟩ := Machine.comes_of_halts ends
    rcases comes.cases_head with rfl | ⟨z₁, step, rest⟩
    · rw [Machine.after?_of_stops stops] at opening
      cases opening
    · obtain rfl := Option.some.inj (opening.symm.trans step)
      exact ((Underway.trying .first .refl first).comes rest).stops stops
  · rintro ⟨verdict, rfl, concluded⟩
    exact halts instant log verdict concluded
  · obtain ⟨instant, log, verdict, concluded⟩ := Begun.concluded .first ends
    exact ⟨instant, log, verdict, halts instant log verdict concluded⟩

namespace Absent

/-- A transaction that the node never knows is looked for twice. -/
def trials (cancelAt : Option Instant) : Trials Rehearsal.World where
  answer := fun now call w => w.answer now call
  confirmer := ⟨⟨3, ⟨1⟩, ⟨1000⟩⟩, ⟨1, 2⟩⟩
  attempts := 2
  retryPause := ⟨5⟩
  hash := 0
  expected := ⟨.native, none⟩
  cancelAt := cancelAt

def owed : Payment :=
  ⟨1, "alice", String.ofList ('0' :: 'x' :: List.replicate 64 '0'), .ethereum, .native, ⟨0, 0⟩,
    ⟨20, 0⟩, false, ⟨0, 0⟩⟩

def world : Rehearsal.World where
  node := { Rehearsal.Node.empty with ethereumTransactions := some [⟨⟨1⟩, .ok none⟩] }
  store := ⟨[owed], [⟨"alice", "alice@example.com", false, ⟨0, 0⟩⟩], []⟩
  locks := .empty
  broker := .empty
  faults := .none

/-- The question for the transaction at an instant, and the answer. -/
def look (instant : Instant) : Entry Ethereum.Query Ethereum.Query.Reply :=
  ⟨instant, 0, .transaction 0,
    (.ok none : Except ConfirmationError (Option Ethereum.Transaction))⟩

/-- Each attempt ends after its only look. -/
theorem tried (cancelAt : Option Instant) (now : Instant) :
    (trials cancelAt).Tried now world
      ⟨now + 1, world, .running (now + 1000) (.looked (.ok none)), [look now]⟩
      (.error (Ethereum.unknown 0)) := by
  refine ⟨.single ?_, rfl⟩
  have inTime : now + 1 ≤ now + 1000 := Nat.add_le_add_left (by decide) now
  have hturn : (trials cancelAt).attempt.turn now ((trials cancelAt).confirmer.start now) =
      .ask (.transaction 0) (some ⟨now + 1000, .expired⟩)
        fun r => .running (now + 1000) (.looked r) := rfl
  have hends : endOfWait now (now + 1) (some ⟨now + 1000, .expired⟩)
      (Timed.running (now + 1000) (Ethereum.Stage.looked (.ok none))) =
        (now + 1, .running (now + 1000) (.looked (.ok none))) := if_pos inTime
  exact (Machine.after?_ask (x := ⟨now, world, (trials cancelAt).confirmer.start now, []⟩)
    hturn).trans (congrArg (fun p => some (Point.mk p.1 world p.2 [look now])) hends)

end Absent

open Absent in
/-- The transaction is looked for twice, or once if the pause after that is cancelled. -/
theorem halts_iff_concluded_absent :
    paymentHash owed = .ok 0 ∧ expectation owed none = .ok ⟨.native, none⟩ ∧
      (course (trials none).answer (trials none).verifier (.ethereum ⟨1, "alice", 1⟩)
          owed).Halts world none none 7
        ([look 6].map (Entry.within .ethereum) ++
          ([look 0].map (Entry.within .ethereum) ++ inquiry owed none))
        (some (.error (.verification (Ethereum.unknown 0)))) ∧
      (course (trials (some 3)).answer (trials (some 3)).verifier (.ethereum ⟨1, "alice", 1⟩)
          owed).Halts world none (some 3) 3
        ([look 0].map (Entry.within .ethereum) ++ inquiry owed none)
        (some (.error (.verification .cancelled))) := by
  have hhash : paymentHash owed = .ok 0 := by decide +kernel
  have hexpected : expectation owed none = .ok ⟨.native, none⟩ := rfl
  have hanswer : world.answer 0 (.findAddress "alice") =
      ⟨(.ok none : Except StoreError (Option String)), ⟨0⟩, world⟩ := rfl
  refine ⟨hhash, hexpected, ?_, ?_⟩
  · refine ((halts_iff_concluded (trials none) ⟨1, "alice", 1⟩ owed world hhash hanswer
      hexpected).1 _ _ _).2 ⟨_, rfl, ?_⟩
    have opens : (trials none).Begun 0 world (inquiry owed none) 1 0 world (inquiry owed none) :=
      .first
    have second := opens.next (tried none 0) ⟨rfl, by decide⟩ nofun
    exact .settled second (tried none 6) fun repeats => absurd repeats.2 (by decide)
  · refine ((halts_iff_concluded (trials (some 3)) ⟨1, "alice", 1⟩ owed world hhash hanswer
      hexpected).1 _ _ _).2 ⟨_, rfl, ?_⟩
    exact .cancelled .first (tried (some 3) 0) ⟨rfl, by decide⟩ rfl (by decide)

end Trials

end Settlement
