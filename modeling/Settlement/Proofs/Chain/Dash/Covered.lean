import Settlement.Proofs.Chain.Dash.Counted
import Settlement.Proofs.Chain.Dash.Ranking
import Settlement.Proofs.Decimal.Growth
import Settlement.Proofs.Hosting

/-!
# What happens once the charge is covered

The sum is looked at when an answer has been used up, not before. So a confirmation whose deposits
already cover the charge still settles the other fresh deposits of the answer, one after the other
(`Watch.Concludes`): the first of them that fails, or that runs into the deadline, decides; if none
does, the total of all of them is returned. It does come to one of these ends or to none at all
(`covered_concludes`), since the total never falls (`Tally.covers_add?`) and so no other answer is
asked for.
-/

namespace Settlement.Dash

/-- The amounts that are reported fit into 64 bits. -/
theorem held_duffsToDash {duffs : Nat} (word : duffs < twoPow 64) : (duffsToDash duffs).Held where
  nonneg := Int.natCast_nonneg duffs
  small := by
    have hle : twoPow 64 ≤ Decimal.bound := by decide
    exact Nat.lt_of_lt_of_le (by simpa [duffsToDash] using word) hle

namespace Tally

variable {tally tally' : Tally} {deposit : Deposit} {charge : Decimal}

theorem held_add? (held : tally.total.Held) (word : deposit.duffs < twoPow 64)
    (h : tally.add? deposit = some tally') :
    tally'.total.Held ∧ tally.total.value ≤ tally'.total.value := by
  obtain ⟨sum, hsum, rfl⟩ := Option.map_eq_some_iff.1 h
  exact held.le_of_add? (held_duffsToDash word) hsum

theorem held_see (deposit : Deposit) (held : tally.total.Held) : (tally.see deposit).total.Held :=
  held

/-- What covers the charge still does so with one more deposit. -/
theorem covers_add? (covers : tally.covers charge = true) (held : tally.total.Held)
    (word : deposit.duffs < twoPow 64) (h : (tally.see deposit).add? deposit = some tally') :
    tally'.covers charge = true := by
  have hle := (held_add? (held_see deposit held) word h).2
  have hseen : tally'.seen = deposit.inputHash :: tally.seen := seen_of_add? h
  simp only [Tally.covers, Bool.and_eq_true, Decimal.le_iff] at covers ⊢
  exact ⟨by simp [hseen], covers.2.trans hle⟩

end Tally

theorem mem_of_mem_fresh (seen : List String) {deposits : List Deposit} {d : Deposit}
    (h : d ∈ fresh seen deposits) : d ∈ deposits := by
  induction deposits generalizing seen with
  | nil => exact h
  | cons deposit rest ih =>
      unfold fresh at h
      split at h
      · exact List.mem_cons_of_mem _ (ih _ h)
      · rcases List.mem_cons.1 h with rfl | h
        · exact List.mem_cons_self
        · exact List.mem_cons_of_mem _ (ih _ h)

/-- The amounts are 64-bit words, as the service reports them. -/
def Words (deposits : List Deposit) : Prop := ∀ d ∈ deposits, d.duffs < twoPow 64

/-- The sum so far is an amount that can be held. -/
def Stage.Held : Stage → Prop
  | .looking tally => tally.total.Held
  | .looked tally _ => tally.total.Held
  | .settling tally _ _ _ => tally.total.Held
  | .interrupted => True

namespace Confirmer

variable {c : Confirmer} {forward : String} {charge : Decimal}
  {asked before : List (Asked Query Query.Reply)} {stage stage' : Stage} {tally tally' : Tally}
  {deposit : Deposit} {ahead rest : List Deposit} {s : Settling} {now limit : Instant}

/-- At the stage the rest of an answer is taken up: the answer has just come, or a deposit on it has
just been settled and counted. -/
inductive TakesUp (c : Confirmer) (now : Instant) : Stage → Tally → List Deposit → Prop
  | answered {tally : Tally} {deposits : List Deposit} :
      TakesUp c now (.looked tally (.ok deposits)) tally deposits
  | settled {tally tally' : Tally} {deposit : Deposit} {rest : List Deposit} {s : Settling}
      {tx : Transaction} (ends : c.settle deposit.inputHash now s = .done (.ok tx))
      (sum : tally.add? deposit = some tally') :
      TakesUp c now (.settling tally deposit rest s) tally' rest

theorem TakesUp.turn_eq (takes : c.TakesUp now stage tally ahead) :
    c.turn forward charge now stage = c.takeDeposits charge tally ahead := by
  cases takes with
  | answered => rfl
  | settled ends sum => simp [turn, ends, Turn.andThen, Turn.within_done, sum]

theorem held_takeDeposits (held : tally.total.Held)
    (h : (c.takeDeposits charge tally ahead).Leads asked stage) : stage.Held := by
  rcases c.takeDeposits_cases charge tally ahead with ⟨-, hturn⟩ | ⟨deposit, rest, -, -, hturn⟩
  · rw [hturn] at h
    split at h
    · exact h.elim
    · obtain ⟨-, rfl | rfl⟩ := Turn.leads_pause.1 h
      · exact held
      · trivial
  · rw [hturn] at h
    obtain ⟨r, -, rfl⟩ := Turn.leads_ask.1 h
    exact held

/-- The deposit that is being settled was reported. -/
theorem word_of_counting (words : Words (forwarded asked))
    (counting : Counting c limit asked (.settling tally deposit rest s)) :
    deposit.duffs < twoPow 64 := by
  obtain ⟨⟨settled, awaited⟩, -⟩ := counting
  refine words deposit (mem_of_mem_fresh [] ?_)
  rw [awaited.all]
  simp

theorem held_step (held : stage.Held) (words : Words (forwarded before))
    (counting : Counting c limit before stage)
    (h : (c.turn forward charge now stage).Leads asked stage') : stage'.Held := by
  cases stage with
  | looking tally =>
      obtain ⟨r, -, rfl⟩ := Turn.leads_ask.1 h
      exact held
  | looked tally r =>
      rcases r with e | deposits
      · exact h.elim
      · exact held_takeDeposits held h
  | settling tally deposit rest s =>
      have word := word_of_counting words counting
      obtain ⟨⟨settled, awaited⟩, -⟩ := counting
      obtain ⟨former, rfl, -⟩ := awaited.holds
      rcases Turn.leads_andThen h with ⟨result, -, hnext⟩ | ⟨s', -, rfl⟩
      · rcases result with e | tx
        · exact hnext.elim
        · dsimp only at hnext
          split at hnext
          next => exact hnext.elim
          next tally' hsum =>
            exact held_takeDeposits (Tally.held_add? held word hsum).1 hnext
      · exact held
  | interrupted => exact h.elim

theorem held_of_course
    (course : Course (c.turn forward charge) (.looking .empty) asked stage)
    (words : Words (forwarded asked)) : stage.Held := by
  induction course with
  | start => exact Decimal.held_zero
  | next now course step ih =>
      rw [forwarded_append] at words
      have words' : Words (forwarded _) := fun d hd => words d (List.mem_append_left _ hd)
      obtain ⟨limit, counting⟩ := counting_of_course course
      exact held_step (ih words') words' counting step

/-- What has been counted when the rest of an answer is taken up, and what is ahead. -/
theorem TakesUp.accounted (takes : c.TakesUp now stage tally ahead)
    (counting : Counting c now asked stage) (held : stage.Held) (words : Words (forwarded asked)) :
    (∃ settled, Accounted c now asked tally settled ahead) ∧ tally.total.Held := by
  cases takes with
  | answered => exact ⟨counting, held⟩
  | settled ends sum =>
      have word := word_of_counting words counting
      obtain ⟨⟨settled, awaited⟩, pending⟩ := counting
      obtain ⟨height, rfl, reached⟩ := reached_of_settle ends
      refine ⟨⟨_, awaited.settle pending (Nat.le_refl now) reached sum⟩, ?_⟩
      obtain ⟨former, rfl, -⟩ := awaited.holds
      exact (Tally.held_add? held word sum).1

theorem Accounted.words {settled : List Deposit}
    (accounted : Accounted c limit asked tally settled ahead) (words : Words (forwarded asked)) :
    Words (fresh tally.seen ahead) := by
  intro d hd
  refine words d (mem_of_mem_fresh [] ?_)
  rw [accounted.all]
  exact List.mem_append_right _ hd

end Confirmer

/-- A payment forward that is watched, the service that is asked, and when the watch is cancelled,
if it is. -/
structure Watch (W : Type) where
  confirmer : Confirmer
  forward : String
  charge : Decimal
  answer : Instant → (query : Query) → W → Answer W query.Reply
  cancelAt : Option Instant

namespace Watch

open Confirmer

variable {W : Type} (t : Watch W)

/-- The confirmation under its deadline. -/
def confirmation :
    Machine Query Query.Reply W (Timed Stage) (Except ConfirmationError Decimal) where
  turn := t.confirmer.timedTurn t.forward t.charge
  answer := t.answer

/-- The confirmation of one transaction, which is over time when the whole is. -/
def settlement (deadline : Instant) (hash : String) :
    Machine Query Query.Reply W (Option Settling) (Except ConfirmationError Transaction) where
  turn := fun now => fun
    | some s => ((t.confirmer.settle hash now s).andThen some .done).cutAt deadline none
    | none => .done (.error (.timeout t.confirmer.policy.deadline))
  answer := t.answer

/-- A transaction that is looked at for the first time at `now` is confirmed, or fails, at `later`.
-/
def Settles (deadline : Instant) (hash : String) (now : Instant) (w : W) (later : Instant) (w' : W)
    (result : Except ConfirmationError Transaction) : Prop :=
  ∃ y, (t.settlement deadline hash).Comes t.cancelAt ⟨now, w, some .looking, []⟩ y ∧
    (t.settlement deadline hash).StopsAt y (some result) ∧ y.instant = later ∧ y.world = w'

/-- What becomes of a confirmation whose deposits cover the charge: the fresh deposits ahead are
settled in turn. The first one that fails is the end; so is a sum that is no amount. Without such a
one the total of all is returned. -/
inductive Concludes (deadline : Instant) : Instant → W → Tally → List Deposit → Instant → W →
    Option (Except ConfirmationError Decimal) → Prop
  | covered {now : Instant} {w : W} {tally : Tally} {ahead : List Deposit}
      (finished : tally.uncounted ahead = []) :
      Concludes deadline now w tally ahead now w (some (.ok tally.total))
  | failed {now later : Instant} {w w' : W} {tally : Tally} {ahead rest : List Deposit}
      {deposit : Deposit} {e : ConfirmationError} (next : tally.uncounted ahead = deposit :: rest)
      (settles : t.Settles deadline deposit.inputHash now w later w' (.error e)) :
      Concludes deadline now w tally ahead later w' (some (.error e))
  | broken {now later : Instant} {w w' : W} {tally : Tally} {ahead rest : List Deposit}
      {deposit : Deposit} {tx : Transaction} (next : tally.uncounted ahead = deposit :: rest)
      (settles : t.Settles deadline deposit.inputHash now w later w' (.ok tx))
      (sum : (tally.see deposit).add? deposit = none) :
      Concludes deadline now w tally ahead later w' none
  | settled {now later last : Instant} {w w' w'' : W} {tally tally' : Tally}
      {ahead rest : List Deposit} {deposit : Deposit} {tx : Transaction}
      {result : Option (Except ConfirmationError Decimal)}
      (next : tally.uncounted ahead = deposit :: rest)
      (settles : t.Settles deadline deposit.inputHash now w later w' (.ok tx))
      (sum : (tally.see deposit).add? deposit = some tally')
      (concludes : Concludes deadline later w' tally' rest last w'' result) :
      Concludes deadline now w tally ahead last w'' result

/-- The stage of the confirmation while a deposit is settled. -/
def during (deadline : Instant) (tally : Tally) (deposit : Deposit) (rest : List Deposit) :
    Option Settling → Timed Stage
  | some s => .running deadline (.settling (tally.see deposit) deposit rest s)
  | none => .expired

/-- A turn of the confirmation, as it is under the deadline. -/
def cut (deadline : Instant) (turn : Step Stage) : Step (Timed Stage) :=
  (turn.andThen (.running deadline) .done).cutAt deadline .expired

/-- What the confirmation does when a deposit is settled, or has failed. -/
def onward (tally : Tally) (deposit : Deposit) (rest : List Deposit) :
    Except ConfirmationError Transaction → Step Stage
  | .error e => .done (.error e)
  | .ok _ =>
    match (tally.see deposit).add? deposit with
    | none => .crash
    | some tally' => t.confirmer.takeDeposits t.charge tally' rest

def afterwards (deadline : Instant) (tally : Tally) (deposit : Deposit) (rest : List Deposit)
    (r : Except ConfirmationError Transaction) : Step (Timed Stage) :=
  cut deadline (t.onward tally deposit rest r)

/-- The confirmation is about to take up the rest of an answer. -/
def Taking (deadline : Instant) (tally : Tally) (ahead : List Deposit)
    (x : Point Query Query.Reply W (Timed Stage)) : Prop :=
  t.confirmation.turn x.instant x.stage =
    cut deadline (t.confirmer.takeDeposits t.charge tally ahead)

/-- The charge is covered, and will be so with each deposit that is ahead. -/
structure Covering (tally : Tally) (ahead : List Deposit) : Prop where
  covers : tally.covers t.charge = true
  held : tally.total.Held
  words : Words (fresh tally.seen ahead)

variable {t} {deadline : Instant} {tally tally' : Tally} {deposit : Deposit}
  {ahead rest : List Deposit} {x y z : Point Query Query.Reply W (Timed Stage)}
  {result : Option (Except ConfirmationError Decimal)}

theorem turn_during (now : Instant) (s : Option Settling) :
    t.confirmation.turn now (during deadline tally deposit rest s) =
      ((t.settlement deadline deposit.inputHash).turn now s).within id (fun _ r => r)
        (during deadline tally deposit rest) (t.afterwards deadline tally deposit rest) := by
  cases s with
  | none => rfl
  | some s =>
      calc t.confirmation.turn now (during deadline tally deposit rest (some s))
          = (((t.confirmer.settle deposit.inputHash now s).andThen
                (.settling (tally.see deposit) deposit rest) (t.onward tally deposit rest)).andThen
              (.running deadline) .done).cutAt deadline .expired := rfl
        _ = (((t.confirmer.settle deposit.inputHash now s).andThen some .done).andThen
              (during deadline tally deposit rest)
              fun r => (t.onward tally deposit rest r).andThen (.running deadline) .done).cutAt
                deadline (during deadline tally deposit rest none) := by
          rw [Turn.andThen_andThen, Turn.andThen_andThen]
          rfl
        _ = _ := Turn.cutAt_within _

/-- While a deposit is settled, the confirmation is where its settlement is. -/
abbrev During (t : Watch W) (deadline : Instant) (tally : Tally) (deposit : Deposit)
    (rest : List Deposit) (before : List (Entry Query Query.Reply))
    (y : Point Query Query.Reply W (Option Settling))
    (z : Point Query Query.Reply W (Timed Stage)) : Prop :=
  Machine.Hosts id (t.settlement deadline deposit.inputHash) t.confirmation
    (during deadline tally deposit rest) (t.afterwards deadline tally deposit rest) before y z

theorem Taking.during (taking : t.Taking deadline tally ahead x)
    (next : tally.uncounted ahead = deposit :: rest) :
    t.During deadline tally deposit rest x.log ⟨x.instant, x.world, some .looking, []⟩ x where
  instant := rfl
  world := rfl
  turn := by
    rw [Taking, takeDeposits, next] at taking
    exact taking
  log := rfl

theorem settlement_ne_none {hash : String} {y : Point Query Query.Reply W (Option Settling)} :
    ¬(t.settlement deadline hash).StopsAt y none := by
  intro stops
  obtain ⟨instant, world, _ | s, log⟩ := y
  · cases stops
  · simp only [Machine.StopsAt, settlement] at stops
    cases hsettle : t.confirmer.settle hash instant s with
    | done a => rw [hsettle] at stops; cases stops
    | crash => exact t.confirmer.settle_ne_crash hash instant s hsettle
    | ask call k resume => rw [hsettle] at stops; cases k <;> exact stops.elim
    | pause length k woken cancelled => rw [hsettle] at stops; cases k <;> exact stops.elim

theorem Taking.stops_covered (taking : t.Taking deadline tally ahead x)
    (finished : tally.uncounted ahead = []) (covers : tally.covers t.charge = true) :
    t.confirmation.StopsAt x (some (.ok tally.total)) := by
  rw [Taking, takeDeposits, finished] at taking
  rw [Machine.StopsAt, taking]
  simp only [covers, if_true]
  rfl

theorem fresh_of_uncounted (next : tally.uncounted ahead = deposit :: rest)
    (sum : (tally.see deposit).add? deposit = some tally') :
    fresh tally.seen ahead = deposit :: fresh tally'.seen rest := by
  rcases tally.uncounted_cases ahead with ⟨huncounted, -⟩ | ⟨d, rest', huncounted, -, hfresh⟩
  · cases next.symm.trans huncounted
  · obtain ⟨rfl, rfl⟩ := List.cons.inj (next.symm.trans huncounted)
    rw [hfresh, seen_of_add? sum]

theorem length_of_uncounted (next : tally.uncounted ahead = deposit :: rest) :
    rest.length < ahead.length := by
  have hle := length_uncounted_le tally ahead
  rw [next, List.length_cons] at hle
  exact hle

theorem Covering.next (covering : t.Covering tally ahead)
    (next : tally.uncounted ahead = deposit :: rest)
    (sum : (tally.see deposit).add? deposit = some tally') : t.Covering tally' rest := by
  obtain ⟨covers, held, words⟩ := covering
  rw [fresh_of_uncounted next sum] at words
  have word := words deposit List.mem_cons_self
  exact ⟨Tally.covers_add? covers held word sum,
    (Tally.held_add? (Tally.held_see deposit held) word sum).1,
    fun d hd => words d (List.mem_cons_of_mem _ hd)⟩

/-- When a deposit is settled, the rest of the answer is taken up. -/
theorem During.taking {before : List (Entry Query Query.Reply)}
    {p : Point Query Query.Reply W (Option Settling)} {tx : Transaction}
    (during : t.During deadline tally deposit rest before p z)
    (ended : (t.settlement deadline deposit.inputHash).StopsAt p (some (.ok tx)))
    (sum : (tally.see deposit).add? deposit = some tally') : t.Taking deadline tally' rest z := by
  rw [Taking, Machine.Hosts.over during ended, afterwards, onward, sum]

/-- If it has failed, or the sum is no amount, that is the end. -/
theorem During.failed {before : List (Entry Query Query.Reply)}
    {p : Point Query Query.Reply W (Option Settling)} {e : ConfirmationError}
    (during : t.During deadline tally deposit rest before p z)
    (ended : (t.settlement deadline deposit.inputHash).StopsAt p (some (.error e))) :
    t.confirmation.StopsAt z (some (.error e)) := by
  rw [Machine.StopsAt, Machine.Hosts.over during ended]
  rfl

theorem During.broken {before : List (Entry Query Query.Reply)}
    {p : Point Query Query.Reply W (Option Settling)} {tx : Transaction}
    (during : t.During deadline tally deposit rest before p z)
    (ended : (t.settlement deadline deposit.inputHash).StopsAt p (some (.ok tx)))
    (sum : (tally.see deposit).add? deposit = none) : t.confirmation.StopsAt z none := by
  rw [Machine.StopsAt, Machine.Hosts.over during ended, afterwards, onward, sum]
  rfl

/-- Each end that the deposits ahead can bring about is come to. -/
theorem Concludes.comes {now later : Instant} {w w' : W}
    (concludes : t.Concludes deadline now w tally ahead later w' result)
    (taking : t.Taking deadline tally ahead x) (hinstant : x.instant = now) (hworld : x.world = w)
    (covering : t.Covering tally ahead) :
    ∃ z, t.confirmation.Comes t.cancelAt x z ∧ t.confirmation.StopsAt z result ∧
      z.instant = later ∧ z.world = w' := by
  induction concludes generalizing x with
  | covered finished =>
      exact ⟨x, .refl, taking.stops_covered finished covering.covers, hinstant, hworld⟩
  | failed next settles =>
      subst hinstant hworld
      obtain ⟨y, comes, ended, rfl, rfl⟩ := settles
      obtain ⟨z, comes', during⟩ :=
        (taking.during next).comes (fun _ _ _ => rfl) turn_during comes
      exact ⟨z, comes', During.failed during ended, during.instant, during.world⟩
  | broken next settles sum =>
      subst hinstant hworld
      obtain ⟨y, comes, ended, rfl, rfl⟩ := settles
      obtain ⟨z, comes', during⟩ :=
        (taking.during next).comes (fun _ _ _ => rfl) turn_during comes
      exact ⟨z, comes', During.broken during ended sum, during.instant, during.world⟩
  | settled next settles sum _ ih =>
      subst hinstant hworld
      obtain ⟨y, comes, ended, rfl, rfl⟩ := settles
      obtain ⟨z, comes', during⟩ :=
        (taking.during next).comes (fun _ _ _ => rfl) turn_during comes
      obtain ⟨z', comes'', stops, last⟩ := ih (During.taking during ended sum) during.instant
        during.world (covering.next next sum)
      exact ⟨z', comes'.trans comes'', stops, last⟩

/-- A confirmation that takes up deposits while the charge is covered ends in no other way. -/
theorem Taking.concludes (taking : t.Taking deadline tally ahead x)
    (covering : t.Covering tally ahead) (comes : t.confirmation.Comes t.cancelAt x z)
    (stops : t.confirmation.StopsAt z result) :
    t.Concludes deadline x.instant x.world tally ahead z.instant z.world result := by
  -- Each deposit shortens the answer, but those that are counted already are skipped with it.
  induction hlength : ahead.length using Nat.strong_induction_on generalizing tally ahead x with
  | _ length ih =>
  subst hlength
  cases next : tally.uncounted ahead with
  | nil =>
      have done := taking.stops_covered next covering.covers
      obtain rfl := comes.eq_of_stops done
      rw [stops.unique done]
      exact .covered next
  | cons deposit rest =>
      obtain ⟨y, r, z₁, part, ended, during, comes'⟩ :=
        (taking.during next).ends (fun _ _ _ => rfl) turn_during comes stops
      cases r with
      | none => exact (settlement_ne_none ended).elim
      | some r =>
      have settles : t.Settles deadline deposit.inputHash x.instant x.world z₁.instant z₁.world r :=
        ⟨y, part, ended, during.instant.symm, during.world.symm⟩
      cases r with
      | error e =>
          have last := During.failed during ended
          obtain rfl := comes'.eq_of_stops last
          rw [stops.unique last]
          exact .failed next settles
      | ok tx =>
          cases sum : (tally.see deposit).add? deposit with
          | none =>
              have last := During.broken during ended sum
              obtain rfl := comes'.eq_of_stops last
              rw [stops.unique last]
              exact .broken next settles sum
          | some tally' =>
              exact .settled next settles sum (ih rest.length (length_of_uncounted next)
                (During.taking during ended sum) (covering.next next sum) comes' rfl)

/-- When the deposits that have been settled cover the charge, the confirmation does not return
yet: it settles the other fresh deposits of the same answer in turn, and ends as they let it, and in
no other way. Only if there is none does it return the total at once. -/
theorem covered_concludes {s : Stage} {world : W}
    (comes : t.confirmation.Comes t.cancelAt ⟨0, world, t.confirmer.start 0, []⟩ x)
    (words : Words (forwarded x.asked)) (running : x.stage = .running deadline s)
    (takes : t.confirmer.TakesUp x.instant s tally ahead) (covers : tally.covers t.charge = true) :
    (∃ settled, Accounted t.confirmer x.instant x.asked tally settled ahead) ∧
      (fresh tally.seen ahead = [] → t.confirmation.StopsAt x (some (.ok tally.total))) ∧
      ∀ later w' result,
        (∃ z, t.confirmation.Comes t.cancelAt x z ∧ t.confirmation.StopsAt z result ∧
          z.instant = later ∧ z.world = w') ↔
        t.Concludes deadline x.instant x.world tally ahead later w' result := by
  have course : Course (t.confirmer.turn t.forward t.charge) (.looking .empty) x.asked s := by
    rcases course_timed comes.course with hlate | ⟨s', hs', course⟩
    · cases running.symm.trans hlate
    · obtain ⟨-, rfl⟩ := Timed.running.inj (running.symm.trans hs')
      exact course
  have counting : Counting t.confirmer x.instant x.asked s := by
    rcases counting_of_comes comes with hlate | ⟨s', hs', counting⟩
    · cases running.symm.trans hlate
    · obtain ⟨-, rfl⟩ := Timed.running.inj (running.symm.trans hs')
      exact counting
  obtain ⟨⟨settled, accounted⟩, held⟩ :=
    takes.accounted counting (held_of_course course words) words
  have taking : t.Taking deadline tally ahead x := by
    rw [Taking, running]
    exact congrArg (cut deadline) takes.turn_eq
  have covering : t.Covering tally ahead := ⟨covers, held, accounted.words words⟩
  refine ⟨⟨settled, accounted⟩, fun hfresh => taking.stops_covered ?_ covers, ?_⟩
  · rcases tally.uncounted_cases ahead with ⟨huncounted, -⟩ | ⟨d, rest, -, -, hcons⟩
    · exact huncounted
    · cases hfresh.symm.trans hcons
  · intro later w' result
    constructor
    · rintro ⟨z, comes', stops, rfl, rfl⟩
      exact taking.concludes covering comes' stops
    · intro concludes
      exact concludes.comes taking rfl rfl covering

/-! A forward passes on a deposit that is the charge, and perhaps others behind it. -/

namespace Stray

/-- Of all transactions only the first one is confirmed. -/
def scene (others : List Deposit) : Watch Unit where
  confirmer := ⟨⟨6, .ofSecs 120, .ofSecs 5400⟩, .ofSecs 240, fun _ => 0⟩
  forward := "pf-1"
  charge := ⟨1, 0⟩
  answer := fun _ query _ =>
    match query with
    | .forward _ => ⟨.ok (⟨"v1", 100000000⟩ :: others), ⟨0⟩, ()⟩
    | .transaction hash => ⟨.ok ⟨hash, 0, if hash = "v1" then 100 else 0⟩, ⟨0⟩, ()⟩
    | .height => ⟨.ok 1000, ⟨0⟩, ()⟩
  cancelAt := none

def stray : Deposit := ⟨"v2", 1000⟩

def first (others : List Deposit) : Point Query Query.Reply Unit (Timed Stage) :=
  ⟨0, (), (scene others).confirmer.start 0, []⟩

/-- The first deposit has been settled. -/
def paid (others : List Deposit) : Point Query Query.Reply Unit (Timed Stage) :=
  (scene others).confirmation.follow none 3 (first others)

def soFar : Tally := ⟨["v1"], ⟨100000000, 8⟩⟩

theorem takes (others : List Deposit) : (scene others).confirmer.TakesUp (paid others).instant
    (.settling ⟨["v1"], .zero⟩ ⟨"v1", 100000000⟩ others (.deep ⟨"v1", 0, 100⟩ (.ok 1000))) soFar
      others :=
  have deep : (scene others).confirmer.settle "v1" (paid others).instant
      (.deep ⟨"v1", 0, 100⟩ (.ok 1000)) =
      .done (.ok ⟨"v1", 0, 100⟩) := rfl
  .settled deep rfl

/-- The settlement of the stray deposit comes to its deadline after six waits. -/
theorem settles : (scene [stray]).Settles (Duration.ofSecs 5400).nanos "v2" 0 ()
    (Duration.ofSecs 5400).nanos () (.error (.timeout (.ofSecs 5400))) :=
  ⟨_, Machine.comes_follow _ none 14 _, rfl, rfl, rfl⟩

end Stray

open Stray in
/-- The charge is covered at once. Without the stray deposit the total is returned then; with it,
the confirmation times out an hour and a half later. -/
theorem covered_concludes_stray :
    soFar.covers ⟨1, 0⟩ = true ∧
      (∃ z, (scene []).confirmation.Comes none (first []) z ∧
        (scene []).confirmation.StopsAt z (some (.ok ⟨100000000, 8⟩)) ∧ z.instant = 0) ∧
      ∃ z, (scene [stray]).confirmation.Comes none (first [stray]) z ∧
        (scene [stray]).confirmation.StopsAt z (some (.error (.timeout (.ofSecs 5400)))) ∧
        z.instant = (Duration.ofSecs 5400).nanos := by
  have covers : soFar.covers ⟨1, 0⟩ = true := by decide +kernel
  have comes : ∀ others, (scene others).confirmation.Comes none (first others) (paid others) :=
    fun others => Machine.comes_follow _ none 3 _
  have alone : Words (forwarded (paid []).asked) := by
    have h : ∀ d ∈ [(⟨"v1", 100000000⟩ : Deposit)], d.duffs < twoPow 64 := by decide
    exact h
  have both : Words (forwarded (paid [stray]).asked) := by
    have h : ∀ d ∈ [⟨"v1", 100000000⟩, stray], d.duffs < twoPow 64 := by decide
    exact h
  refine ⟨covers, ?_, ?_⟩
  · obtain ⟨-, atOnce, -⟩ :=
      covered_concludes (t := scene []) (comes []) alone rfl (takes []) covers
    exact ⟨_, comes [], atOnce rfl, rfl⟩
  · obtain ⟨-, -, ends⟩ :=
      covered_concludes (t := scene [stray]) (comes [stray]) both rfl (takes [stray]) covers
    obtain ⟨z, comes', stops, hinstant, -⟩ := (ends _ _ _).2 (.failed rfl settles)
    exact ⟨z, (comes [stray]).trans comes', stops, hinstant⟩

end Watch

end Settlement.Dash
