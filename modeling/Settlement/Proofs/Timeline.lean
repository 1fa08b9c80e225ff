import Settlement.Proofs.Interleaving

/-!
# The timeline of a lone activity

An activity that is alone in its world, and that nobody cancels, goes from moment to moment, and
the clock follows it (`Machine.Next`, `System.run_of_next`). A turn that nothing cuts short takes as
long as its reply or its pause (`Machine.Proceeds`, `Machine.Arrives`). Under a deadline the moments
are the same as long as they are not after the deadline (`Machine.finishes_timed`), and a turn that
would go past it ends the activity there (`Machine.finishes_late`).

`Replies` is a world that replies to each call in turn, time after time.
-/

namespace Settlement

variable {C : Type} {R : C → Type} {W S S' A B : Type}

/-- Where a lone activity is: the instant at which it goes on, the world then, its stage, and what
it has asked, latest first. -/
structure Moment (C : Type) (R : C → Type) (W S : Type) where
  instant : Instant
  world : W
  stage : S
  asked : List (Asked C R)

namespace Moment

def map (f : S → S') (x : Moment C R W S) : Moment C R W S' :=
  ⟨x.instant, x.world, f x.stage, x.asked⟩

end Moment

theorem le_endOfWait {now natural : Instant} (cut : Option (Cut S)) (stage : S)
    (h : now ≤ natural) : now ≤ (endOfWait now natural cut stage).1 := by
  unfold endOfWait
  split
  · exact h
  · split
    · exact h
    · exact Nat.le_max_left _ _

namespace Machine

/-- One turn of an activity that nobody cancels and nothing cuts short. -/
inductive Proceeds (m : Machine C R W S A) : Moment C R W S → Moment C R W S → Prop
  | ask {x : Moment C R W S} {call : C} {resume : R call → S}
      (turn : m.turn x.instant x.stage = .ask call none resume) :
      Proceeds m x
        ⟨x.instant + (m.answer x.instant call x.world).delay.nanos,
          (m.answer x.instant call x.world).world,
          resume (m.answer x.instant call x.world).reply,
          ⟨call, (m.answer x.instant call x.world).reply⟩ :: x.asked⟩
  | pause {x : Moment C R W S} {length : Duration} {woken cancelled : S}
      (turn : m.turn x.instant x.stage = .pause length none woken cancelled) :
      Proceeds m x ⟨x.instant + length.nanos, x.world, woken, x.asked⟩

/-- A row of such turns. -/
def Arrives (m : Machine C R W S A) : Moment C R W S → Moment C R W S → Prop :=
  Relation.ReflTransGen m.Proceeds

/-- One turn of an activity that nobody cancels, but that may be cut short. -/
inductive Next (m : Machine C R W S A) : Moment C R W S → Moment C R W S → Prop
  | ask {x : Moment C R W S} {call : C} {cut : Option (Cut S)} {resume : R call → S}
      {wake : Instant} {stage : S} (turn : m.turn x.instant x.stage = .ask call cut resume)
      (ends : endOfWait x.instant (x.instant + (m.answer x.instant call x.world).delay.nanos) cut
        (resume (m.answer x.instant call x.world).reply) = (wake, stage)) :
      Next m x
        ⟨wake, (m.answer x.instant call x.world).world, stage,
          ⟨call, (m.answer x.instant call x.world).reply⟩ :: x.asked⟩
  | pause {x : Moment C R W S} {length : Duration} {cut : Option (Cut S)} {woken cancelled : S}
      {wake : Instant} {stage : S}
      (turn : m.turn x.instant x.stage = .pause length cut woken cancelled)
      (ends : endOfWait x.instant (x.instant + length.nanos) cut woken = (wake, stage)) :
      Next m x ⟨wake, x.world, stage, x.asked⟩

variable {m : Machine C R W S A} {x y z : Moment C R W S}

theorem proceeds_ask {call : C} {resume : R call → S} {answer : Answer W (R call)}
    (turn : m.turn x.instant x.stage = .ask call none resume)
    (hanswer : m.answer x.instant call x.world = answer)
    (hy : y = ⟨x.instant + answer.delay.nanos, answer.world, resume answer.reply,
      ⟨call, answer.reply⟩ :: x.asked⟩) : m.Proceeds x y := by
  subst hy hanswer
  exact .ask turn

theorem Proceeds.instant_le (h : m.Proceeds x y) : x.instant ≤ y.instant := by
  cases h with
  | ask turn => exact Nat.le_add_right _ _
  | pause turn => exact Nat.le_add_right _ _

theorem Proceeds.next (h : m.Proceeds x y) : m.Next x y := by
  cases h with
  | ask turn => exact .ask turn rfl
  | pause turn => exact .pause turn rfl

theorem Arrives.next (h : m.Arrives x y) : Relation.ReflTransGen m.Next x y :=
  Relation.ReflTransGen.mono (fun _ _ => Proceeds.next) _ _ h

theorem Arrives.instant_le (h : m.Arrives x y) : x.instant ≤ y.instant := by
  induction h with
  | refl => exact Nat.le_refl _
  | tail _ step ih => exact Nat.le_trans ih step.instant_le

/-- The whole proceeds as its part does, while the part is not done. -/
theorem Arrives.within {n : Machine C R W S' B} {next : A → Turn C R S' B} (h : m.Arrives x y)
    (stage : S → S') (answer : n.answer = m.answer)
    (turn : ∀ now s, n.turn now (stage s) = (m.turn now s).andThen stage next) :
    n.Arrives (x.map stage) (y.map stage) := by
  induction h with
  | refl => exact .refl
  | tail _ step ih =>
      refine ih.tail ?_
      cases step with
      | @ask call resume hturn =>
          rename_i z _
          have hwhole : n.turn z.instant (stage z.stage) =
              .ask call none fun r => stage (resume r) := by
            rw [turn, hturn]
            rfl
          have hstep := Proceeds.ask (x := z.map stage) hwhole
          rwa [answer] at hstep
      | @pause length woken cancelled hturn =>
          rename_i z _
          have hwhole : n.turn z.instant (stage z.stage) =
              .pause length none (stage woken) (stage cancelled) := by
            rw [turn, hturn]
            rfl
          exact Proceeds.pause (x := z.map stage) hwhole

end Machine

namespace System

/-- The system is one worker at a moment of its activity. -/
structure Alone (sys : System C R W S A) (x : Moment C R W S) : Prop where
  worker : ∃ status, sys.workers = [⟨none, false, status⟩]
  turn : sys.turn? 0 = some (x.instant, x.stage)
  world : sys.world = x.world
  calls : sys.calls = x.asked.map (Prod.mk 0)

variable {m : Machine C R W S A} {sys : System C R W S A} {x y : Moment C R W S}

theorem askedBy_of_single {asked : List (Asked C R)}
    (h : sys.calls = asked.map (Prod.mk 0)) : sys.askedBy 0 = asked := by
  rw [askedBy, h, List.filter_map]
  simp [Function.comp_def]

theorem next?_of_single {worker : Worker S A} (h : sys.workers = [worker]) :
    sys.next? = (sys.turn? 0).map fun (instant, stage) => (0, instant, stage) := by
  obtain ⟨cancelAt, background, status⟩ := worker
  cases status <;> simp [next?, turn?, h, firstReady, firstWoken]

theorem run_of_settled (h : sys.isSettled = true) (fuel : Nat) : run m fuel sys = sys := by
  cases fuel with
  | zero => rfl
  | succ fuel => rw [run, if_pos h]

theorem run_succ {cancelAt : Option Instant} {status : Status S A} {instant : Instant} {stage : S}
    (single : sys.workers = [⟨cancelAt, false, status⟩])
    (turn : sys.turn? 0 = some (instant, stage)) (fuel : Nat) :
    run m (fuel + 1) sys = run m fuel (advance m { sys with now := instant } 0 stage) := by
  have going : sys.isSettled = false := by
    cases status <;> simp_all [isSettled, turn?, Status.isOver]
  rw [run, going, step, next?_of_single single, turn]
  rfl

/-- A lone worker that is done has its result from then on. -/
theorem run_of_done {cancelAt : Option Instant} {status : Status S A} {instant : Instant}
    {stage : S} {a : A} (single : sys.workers = [⟨cancelAt, false, status⟩])
    (turn : sys.turn? 0 = some (instant, stage)) (done : m.turn instant stage = .done a)
    (fuel : Nat) :
    run m (fuel + 1) sys =
      { sys with now := instant, workers := [⟨cancelAt, false, .finished instant a⟩] } := by
  rw [run_succ single turn]
  simp only [advance, done, setStatus, single, List.modify_zero_cons]
  exact run_of_settled rfl _

theorem run_add (fuel more : Nat) : run m (fuel + more) sys = run m more (run m fuel sys) := by
  induction fuel generalizing sys with
  | zero => rw [Nat.zero_add, run]
  | succ fuel ih =>
      by_cases settled : sys.isSettled = true
      · rw [run_of_settled settled, run_of_settled settled, run_of_settled settled]
      · rw [Nat.add_right_comm, run, run, if_neg settled, if_neg settled]
        cases hstep : sys.step m with
        | some next => exact ih
        | none =>
            cases more with
            | zero => rfl
            | succ more => simp only [run, if_neg settled, hstep]

/-- A lone worker stays alone. -/
theorem single_of_run {cancelAt : Option Instant} {status : Status S A}
    (single : sys.workers = [⟨cancelAt, false, status⟩]) (fuel : Nat) :
    ∃ status', (run m fuel sys).workers = [⟨cancelAt, false, status'⟩] := by
  induction fuel generalizing sys status with
  | zero => exact ⟨status, single⟩
  | succ fuel ih =>
      cases turn : sys.turn? 0 with
      | none =>
          have hstep : sys.step m = none := by rw [step, next?_of_single single, turn]; rfl
          refine ⟨status, ?_⟩
          rw [run, hstep]
          split <;> exact single
      | some going =>
          obtain ⟨instant, stage⟩ := going
          rw [run_succ single turn]
          have moved : ∃ status', (advance m { sys with now := instant } 0 stage).workers =
              [⟨cancelAt, false, status'⟩] := by
            unfold advance
            split <;> simp [setStatus, single]
          obtain ⟨status', single'⟩ := moved
          exact ih single'

theorem alone_begin (world : W) (first : S) :
    Alone (⟨0, world, [.begin first none], 0, []⟩ : System C R W S A) ⟨0, world, first, []⟩ where
  worker := ⟨_, rfl⟩
  turn := rfl
  world := rfl
  calls := rfl

/-- A worker that waits is at the moment at which its wait ends. -/
theorem alone_waitUntil {wake : Instant} (ticket : Nat) {stage : S} {asked : List (Asked C R)}
    (hworkers : sys.workers = [⟨none, false, .waitUntil sys.now wake ticket stage⟩])
    (hle : sys.now ≤ wake) (hcalls : sys.calls = asked.map (Prod.mk 0)) :
    Alone sys ⟨wake, sys.world, stage, asked⟩ := by
  unfold Status.waitUntil at hworkers
  split at hworkers
  next hnow =>
    have heq : sys.now = wake := Nat.le_antisymm hle hnow
    exact ⟨⟨_, hworkers⟩, by simp [turn?, hworkers, heq], rfl, hcalls⟩
  next => exact ⟨⟨_, hworkers⟩, by simp [turn?, hworkers, hle], rfl, hcalls⟩

/-- A turn of the worker leads it to its next moment. -/
theorem alone_advance (alone : Alone sys x) (h : m.Next x y) :
    Alone (advance m { sys with now := x.instant } 0 x.stage) y := by
  obtain ⟨status, hworkers⟩ := alone.worker
  have hcalls := alone.calls
  cases h with
  | @ask call cut resume wake stage turn hend =>
      have hle := le_endOfWait cut (resume (m.answer x.instant call x.world).reply)
        (Nat.le_add_right x.instant (m.answer x.instant call x.world).delay.nanos)
      rw [hend] at hle
      simp only [advance, turn, alone.world, hend]
      refine alone_waitUntil sys.tickets ?_ hle ?_
      · simp [setStatus, hworkers]
      · simp only [calls] at hcalls ⊢
        simp [hcalls]
  | @pause length cut woken cancelled wake stage turn hend =>
      have hle := le_endOfWait cut woken (Nat.le_add_right x.instant length.nanos)
      rw [hend] at hle
      simp only [advance, turn, endOfPause, hworkers, List.getElem?_cons_zero, Option.bind_some,
        hend, ← alone.world]
      exact alone_waitUntil sys.tickets (by simp [setStatus]) hle hcalls

/-- The clock follows the moments. -/
theorem run_of_next (h : Relation.ReflTransGen m.Next x y) (alone : Alone sys x) :
    ∃ turns sys', Alone sys' y ∧ ∀ fuel, run m (turns + fuel) sys = run m fuel sys' := by
  induction h with
  | refl => exact ⟨0, sys, alone, fun fuel => by rw [Nat.zero_add]⟩
  | tail _ step ih =>
      obtain ⟨turns, sys', alone', hrun⟩ := ih
      obtain ⟨status, single⟩ := alone'.worker
      refine ⟨turns + 1, _, alone_advance alone' step, fun fuel => ?_⟩
      rw [Nat.add_assoc, hrun, Nat.add_comm 1 fuel, run_succ single alone'.turn]

end System

namespace Machine

variable {m : Machine C R W S A} {world : W} {first : S} {x y : Moment C R W S}
  {instant instant' : Instant} {asked asked' : List (Asked C R)} {a a' : A}

/-- An activity that is alone, and that nobody cancels, ends with a result at an instant, having
asked what is listed, latest first: so it is after all numbers of turns that are large enough. -/
def Finishes (m : Machine C R W S A) (world : W) (first : S) (instant : Instant)
    (asked : List (Asked C R)) (a : A) : Prop :=
  ∃ enough, ∀ fuel, enough ≤ fuel →
    (System.run m fuel ⟨0, world, [.begin first none], 0, []⟩).workers =
        [⟨none, false, .finished instant a⟩] ∧
      (System.run m fuel ⟨0, world, [.begin first none], 0, []⟩).askedBy 0 = asked

theorem Finishes.unique (h : m.Finishes world first instant asked a)
    (h' : m.Finishes world first instant' asked' a') :
    instant = instant' ∧ asked = asked' ∧ a = a' := by
  obtain ⟨enough, h⟩ := h
  obtain ⟨enough', h'⟩ := h'
  obtain ⟨hworkers, hasked⟩ := h (max enough enough') (Nat.le_max_left _ _)
  obtain ⟨hworkers', hasked'⟩ := h' (max enough enough') (Nat.le_max_right _ _)
  have heq := hworkers.symm.trans hworkers'
  simp only [List.cons.injEq, Worker.mk.injEq, Status.finished.injEq, true_and, and_true] at heq
  exact ⟨heq.1, hasked.symm.trans hasked', heq.2⟩

theorem finishes_of_next (h : Relation.ReflTransGen m.Next ⟨0, world, first, []⟩ y)
    (done : m.turn y.instant y.stage = .done a) :
    m.Finishes world first y.instant y.asked a := by
  obtain ⟨turns, sys, alone, hrun⟩ := System.run_of_next h (System.alone_begin world first)
  refine ⟨turns + 1, fun fuel hfuel => ?_⟩
  obtain ⟨more, rfl⟩ := Nat.exists_eq_add_of_le hfuel
  obtain ⟨status, single⟩ := alone.worker
  rw [Nat.add_assoc, hrun, Nat.add_comm, System.run_of_done single alone.turn done]
  exact ⟨rfl, System.askedBy_of_single alone.calls⟩

/-- An activity that is seen to end has ended for good. -/
theorem finishes_of_run {fuel : Nat}
    (h : (System.run m fuel ⟨0, world, [.begin first none], 0, []⟩).workers =
      [⟨none, false, .finished instant a⟩]) :
    m.Finishes world first instant
      ((System.run m fuel ⟨0, world, [.begin first none], 0, []⟩).askedBy 0) a := by
  refine ⟨fuel, fun more hmore => ?_⟩
  obtain ⟨rest, rfl⟩ := Nat.exists_eq_add_of_le hmore
  have settled : (System.run m fuel ⟨0, world, [.begin first none], 0, []⟩).isSettled = true := by
    rw [System.isSettled, h]
    rfl
  rw [System.run_add, System.run_of_settled settled]
  exact ⟨h, rfl⟩

/-- An activity that breaks down has no result. -/
theorem not_finishes_of_crash (h : Relation.ReflTransGen m.Next ⟨0, world, first, []⟩ y)
    (crash : m.turn y.instant y.stage = .crash) : ¬m.Finishes world first instant asked a := by
  rintro ⟨enough, hfinishes⟩
  obtain ⟨turns, sys, alone, hrun⟩ := System.run_of_next h (System.alone_begin world first)
  obtain ⟨status, hworkers⟩ := alone.worker
  have hlast : System.run m (enough + 1) sys =
      { sys with now := y.instant, workers := [⟨none, false, .crashed⟩] } := by
    rw [System.run_succ hworkers alone.turn]
    simp only [System.advance, crash, System.setStatus, hworkers, List.modify_zero_cons]
    exact System.run_of_settled rfl _
  have hresult := (hfinishes (turns + (enough + 1)) (by omega)).1
  rw [hrun, hlast] at hresult
  simp at hresult

/-- An activity that goes on and on has no result. -/
theorem not_finishes_of_endless {P : Moment C R W S → Prop} (start : P ⟨0, world, first, []⟩)
    (goes : ∀ x, P x → ∃ y, m.Next x y ∧ P y) : ¬m.Finishes world first instant asked a := by
  have still : ∀ fuel sys x, System.Alone sys x → P x →
      ∃ y, System.Alone (System.run m fuel sys) y := by
    intro fuel
    induction fuel with
    | zero => exact fun sys x alone _ => ⟨x, alone⟩
    | succ fuel ih =>
        intro sys x alone hx
        obtain ⟨y, step, hy⟩ := goes x hx
        obtain ⟨status, single⟩ := alone.worker
        rw [System.run_succ single alone.turn]
        exact ih _ y (System.alone_advance alone step) hy
  rintro ⟨enough, hfinishes⟩
  obtain ⟨y, alone⟩ := still enough _ _ (System.alone_begin world first) start
  have hturn := alone.turn
  simp [System.turn?, (hfinishes enough (Nat.le_refl _)).1] at hturn

/-- The machine whose activity has a deadline and ends with `late` there. -/
def timed (m : Machine C R W S A) (late : A) : Machine C R W (Timed S) A where
  turn := fun now => Timed.turn (m.turn now) late
  answer := m.answer

theorem timed_ask (late : A) (deadline : Instant) {now : Instant} {stage : S} {call : C}
    {resume : R call → S} (turn : m.turn now stage = .ask call none resume) :
    (m.timed late).turn now (.running deadline stage) =
      .ask call (some ⟨deadline, .expired⟩) fun r => .running deadline (resume r) := by
  simp only [timed, Timed.turn, turn]
  rfl

theorem timed_pause (late : A) (deadline : Instant) {now : Instant} {stage woken cancelled : S}
    {length : Duration} (turn : m.turn now stage = .pause length none woken cancelled) :
    (m.timed late).turn now (.running deadline stage) =
      .pause length (some ⟨deadline, .expired⟩) (.running deadline woken)
        (.running deadline cancelled) := by
  simp only [timed, Timed.turn, turn]
  rfl

/-- Under a deadline a turn that is in time is the same. -/
theorem Proceeds.next_timed (late : A) {deadline : Instant} (h : m.Proceeds x y)
    (inTime : y.instant ≤ deadline) :
    (m.timed late).Next (x.map (.running deadline)) (y.map (.running deadline)) := by
  cases h with
  | ask turn =>
      exact .ask (x := x.map _) (timed_ask late deadline turn) (if_pos inTime)
  | pause turn =>
      exact .pause (x := x.map _) (timed_pause late deadline turn) (if_pos inTime)

/-- A turn that would go past the deadline ends there. -/
theorem Proceeds.next_late (late : A) {deadline : Instant} (h : m.Proceeds x y)
    (before : x.instant ≤ deadline) (after : deadline < y.instant) :
    (m.timed late).Next (x.map (.running deadline))
      ⟨deadline, y.world, .expired, y.asked⟩ := by
  have hmax : max x.instant deadline = deadline := Nat.max_eq_right before
  cases h with
  | ask turn =>
      refine .ask (x := x.map _) (timed_ask late deadline turn)
        ((if_neg (Nat.not_le.2 after)).trans ?_)
      exact congrArg (·, Timed.expired) hmax
  | pause turn =>
      refine .pause (x := x.map _) (timed_pause late deadline turn)
        ((if_neg (Nat.not_le.2 after)).trans ?_)
      exact congrArg (·, Timed.expired) hmax

theorem Arrives.next_timed (late : A) {deadline : Instant} (h : m.Arrives x y)
    (inTime : y.instant ≤ deadline) :
    Relation.ReflTransGen (m.timed late).Next (x.map (.running deadline))
      (y.map (.running deadline)) := by
  induction h with
  | refl => exact .refl
  | tail _ step ih =>
      exact (ih (Nat.le_trans step.instant_le inTime)).tail (step.next_timed late inTime)

theorem start_zero (limit : Duration) (first : S) :
    Timed.start 0 limit first = .running limit.nanos first := by
  rw [Timed.start, Nat.zero_add]

/-- An activity that ends by itself not after its deadline ends so. -/
theorem finishes_timed (late : A) {limit : Duration} (h : m.Arrives ⟨0, world, first, []⟩ y)
    (done : m.turn y.instant y.stage = .done a) (inTime : y.instant ≤ limit.nanos) :
    (m.timed late).Finishes world (.start 0 limit first) y.instant y.asked a := by
  rw [start_zero]
  refine finishes_of_next (h.next_timed late inTime) ?_
  simp only [timed, Moment.map, Timed.turn, done]
  rfl

/-- An activity whose next turn would go past the deadline is over time there. -/
theorem finishes_late (late : A) {limit : Duration} (h : m.Arrives ⟨0, world, first, []⟩ x)
    (step : m.Proceeds x y) (before : x.instant ≤ limit.nanos) (after : limit.nanos < y.instant) :
    (m.timed late).Finishes world (.start 0 limit first) limit.nanos y.asked late := by
  rw [start_zero]
  exact finishes_of_next ((h.next_timed late before).tail (step.next_late late before after)) rfl

end Machine

/-- What each call is replied to, time after time, and how long the replies take. -/
structure Replies (C : Type) (R : C → Type) where
  reply : (call : C) → Nat → R call
  delay : C → Nat → Duration

namespace Replies

variable [DecidableEq C]

/-- A world that replies to each call in turn; it knows how often each call has been made. -/
def answer (replies : Replies C R) :
    Instant → (call : C) → (C → Nat) → Answer (C → Nat) (R call) := fun _ call count =>
  ⟨replies.reply call (count call), replies.delay call (count call),
    Function.update count call (count call + 1)⟩

/-- A call for the `n`th time gets the `n`th reply. -/
theorem exists_proceeds {m : Machine C R (C → Nat) S A} {replies : Replies C R}
    {x : Moment C R (C → Nat) S} {call : C} {resume : R call → S} {n : Nat}
    (answer : m.answer = replies.answer)
    (turn : m.turn x.instant x.stage = .ask call none resume) (count : x.world call = n) :
    ∃ y, m.Proceeds x y ∧ y.world = Function.update x.world call (n + 1) ∧
      y.stage = resume (replies.reply call n) ∧
      y.asked = ⟨call, replies.reply call n⟩ :: x.asked := by
  subst count
  exact ⟨_, Machine.proceeds_ask turn (congrFun (congrFun (congrFun answer _) _) _) rfl, rfl, rfl,
    rfl⟩

end Replies

end Settlement
