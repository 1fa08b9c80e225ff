import Settlement.Proofs.Pace

/-!
# A lone activity that may be cancelled

An activity that is alone in its world goes from point to point, and what it does at a point is
settled by the machine and by the instant at which it is cancelled, if at one
(`Machine.after?`). `Machine.Comes` strings such steps together, and `Machine.Halts` says how the
clock's run of the activity ends: with a result, or broken down. The two say the same
(`halts_of_comes`, `comes_of_halts`).
-/

namespace Settlement

variable {C : Type} {R : C → Type} {W S A : Type}

/-- Where a lone activity is: the instant at which it goes on, the world then, its stage, and the
calls that it made, latest first. -/
structure Point (C : Type) (R : C → Type) (W S : Type) where
  instant : Instant
  world : W
  stage : S
  log : List (Entry C R)

/-- What was asked, without the time. -/
def Entry.asked (entry : Entry C R) : Asked C R := ⟨entry.call, entry.reply⟩

def Point.asked (x : Point C R W S) : List (Asked C R) := x.log.map Entry.asked

namespace Status

/-- The end of an activity, with a result or broken down. -/
def ended (instant : Instant) : Option A → Status S A
  | some a => finished instant a
  | none => crashed

end Status

namespace Turn

/-- The activity ends here, with a result or broken down. -/
def Stops : Turn C R S A → Option A → Prop
  | done a, result => result = some a
  | crash, result => result = none
  | _, _ => False

theorem cases_of_stops {t : Turn C R S A} {result : Option A} (h : t.Stops result) :
    (∃ a, t = done a ∧ result = some a) ∨ t = crash ∧ result = none := by
  cases t with
  | done a => exact Or.inl ⟨a, rfl, h⟩
  | crash => exact Or.inr ⟨rfl, h⟩
  | ask call cut resume => exact h.elim
  | pause length cut woken cancelled => exact h.elim

theorem eq_done_of_stops {t : Turn C R S A} {a : A} (h : t.Stops (some a)) : t = done a := by
  rcases cases_of_stops h with ⟨b, rfl, hb⟩ | ⟨-, hnone⟩
  · exact congrArg done (Option.some.inj hb).symm
  · cases hnone

end Turn

namespace Machine

/-- Where a lone activity goes on after a turn; none where it is over. -/
def after? (m : Machine C R W S A) (cancelAt : Option Instant) (x : Point C R W S) :
    Option (Point C R W S) :=
  match m.turn x.instant x.stage with
  | .ask call cut resume =>
    let answer := m.answer x.instant call x.world
    let (wake, stage) :=
      endOfWait x.instant (x.instant + answer.delay.nanos) cut (resume answer.reply)
    some ⟨wake, answer.world, stage, ⟨x.instant, 0, call, answer.reply⟩ :: x.log⟩
  | .pause length cut woken cancelled =>
    let (wake, stage) :=
      endOfPause x.instant (x.instant + length.nanos) cut woken cancelled cancelAt
    some ⟨wake, x.world, stage, x.log⟩
  | _ => none

/-- A row of turns. -/
def Comes (m : Machine C R W S A) (cancelAt : Option Instant) :
    Point C R W S → Point C R W S → Prop :=
  Relation.ReflTransGen fun x y => m.after? cancelAt x = some y

/-- The activity stops at a point, with a result or broken down. -/
def StopsAt (m : Machine C R W S A) (x : Point C R W S) (result : Option A) : Prop :=
  (m.turn x.instant x.stage).Stops result

/-- An activity that is alone ends at an instant, with a result or broken down, having made the
calls that are listed, latest first: so it is after all numbers of turns that are large enough. -/
def Halts (m : Machine C R W S A) (world : W) (first : S) (cancelAt : Option Instant)
    (instant : Instant) (log : List (Entry C R)) (result : Option A) : Prop :=
  ∃ enough, ∀ fuel, enough ≤ fuel →
    let sys := System.run m fuel ⟨0, world, [.begin first cancelAt], 0, []⟩
    sys.workers = [⟨cancelAt, false, .ended instant result⟩] ∧ sys.now = instant ∧ sys.log = log

/-- At each point the activity either goes on or stops. -/
theorem after_or_stops (m : Machine C R W S A) (cancelAt : Option Instant) (x : Point C R W S) :
    (∃ y, m.after? cancelAt x = some y) ∨ ∃ result, m.StopsAt x result := by
  unfold after? StopsAt
  cases m.turn x.instant x.stage with
  | done a => exact Or.inr ⟨_, rfl⟩
  | crash => exact Or.inr ⟨_, rfl⟩
  | ask call cut resume => exact Or.inl ⟨_, rfl⟩
  | pause length cut woken cancelled => exact Or.inl ⟨_, rfl⟩

end Machine

namespace System

/-- The system is one worker at a point of its activity. -/
structure At (cancelAt : Option Instant) (sys : System C R W S A) (x : Point C R W S) : Prop where
  worker : ∃ status, sys.workers = [⟨cancelAt, false, status⟩]
  turn : sys.turn? 0 = some (x.instant, x.stage)
  world : sys.world = x.world
  log : sys.log = x.log

variable {m : Machine C R W S A} {sys : System C R W S A} {x y : Point C R W S}
  {cancelAt : Option Instant} {result : Option A}

theorem at_begin (world : W) (first : S) (cancelAt : Option Instant) :
    At cancelAt (⟨0, world, [.begin first cancelAt], 0, []⟩ : System C R W S A)
      ⟨0, world, first, []⟩ where
  worker := ⟨_, rfl⟩
  turn := rfl
  world := rfl
  log := rfl

/-- A worker that waits is at the point at which its wait ends. -/
theorem at_waitUntil {wake : Instant} (ticket : Nat) {stage : S}
    (hworkers : sys.workers = [⟨cancelAt, false, .waitUntil sys.now wake ticket stage⟩])
    (hle : sys.now ≤ wake) : At cancelAt sys ⟨wake, sys.world, stage, sys.log⟩ := by
  unfold Status.waitUntil at hworkers
  split at hworkers
  next hnow =>
    have heq : sys.now = wake := Nat.le_antisymm hle hnow
    exact ⟨⟨_, hworkers⟩, by simp [turn?, hworkers, heq], rfl, rfl⟩
  next => exact ⟨⟨_, hworkers⟩, by simp [turn?, hworkers, hle], rfl, rfl⟩

/-- A turn of the worker leads it to its next point. -/
theorem at_advance (here : At cancelAt sys x) (h : m.after? cancelAt x = some y) :
    At cancelAt (advance m { sys with now := x.instant } 0 x.stage) y := by
  obtain ⟨status, hworkers⟩ := here.worker
  obtain ⟨now, world, workers, tickets, log⟩ := sys
  obtain ⟨instant, _, stage, _⟩ := x
  obtain ⟨-, -, rfl, rfl⟩ := here
  dsimp only at hworkers
  subst hworkers
  unfold Machine.after? at h
  unfold advance
  cases hturn : m.turn instant stage with
  | done a => simp [hturn] at h
  | crash => simp [hturn] at h
  | ask call cut resume =>
      have hle := le_endOfWait cut (resume (m.answer instant call world).reply)
        (Nat.le_add_right instant (m.answer instant call world).delay.nanos)
      simp only [hturn, Option.some.injEq] at h
      subst h
      exact at_waitUntil tickets rfl hle
  | pause length cut woken cancelled =>
      have hle := le_endOfPause cut woken cancelled cancelAt
        (Nat.le_add_right instant length.nanos)
      simp only [hturn, Option.some.injEq] at h
      subst h
      exact at_waitUntil tickets rfl hle

/-- The worker is over at a point, and the system with it. -/
structure Over (cancelAt : Option Instant) (result : Option A) (sys : System C R W S A)
    (x : Point C R W S) : Prop where
  worker : sys.workers = [⟨cancelAt, false, .ended x.instant result⟩]
  now : sys.now = x.instant
  world : sys.world = x.world
  log : sys.log = x.log

theorem Over.settled (last : Over cancelAt result sys x) : sys.isSettled = true := by
  rw [isSettled, last.worker]
  cases result <;> rfl

theorem over_advance (here : At cancelAt sys x) (stops : m.StopsAt x result) :
    Over cancelAt result (advance m { sys with now := x.instant } 0 x.stage) x := by
  obtain ⟨status, hworkers⟩ := here.worker
  unfold advance
  rcases Turn.cases_of_stops stops with ⟨a, hturn, rfl⟩ | ⟨hturn, rfl⟩
  · rw [hturn]
    exact ⟨by simp [setStatus, hworkers, Status.ended], rfl, here.world, here.log⟩
  · rw [hturn]
    exact ⟨by simp [setStatus, hworkers, Status.ended], rfl, here.world, here.log⟩

theorem run_at (here : At cancelAt sys x) (fuel : Nat) : run m (fuel + 1) sys =
    run m fuel (advance m { sys with now := x.instant } 0 x.stage) := by
  obtain ⟨status, hworkers⟩ := here.worker
  exact run_succ hworkers here.turn fuel

/-- The clock follows the points. -/
theorem run_of_comes (h : m.Comes cancelAt x y) (here : At cancelAt sys x) :
    ∃ turns sys', At cancelAt sys' y ∧ ∀ fuel, run m (turns + fuel) sys = run m fuel sys' := by
  induction h with
  | refl => exact ⟨0, sys, here, fun fuel => by rw [Nat.zero_add]⟩
  | tail _ step ih =>
      obtain ⟨turns, sys', there, hrun⟩ := ih
      refine ⟨turns + 1, _, at_advance there step, fun fuel => ?_⟩
      rw [Nat.add_assoc, hrun, Nat.add_comm 1 fuel, run_at there]

/-- After any number of turns the worker is at a point that it comes to, or over at one. -/
theorem comes_of_run (m : Machine C R W S A) (here : At cancelAt sys x) (fuel : Nat) :
    (∃ y, m.Comes cancelAt x y ∧ At cancelAt (run m fuel sys) y) ∨
      ∃ y result, m.Comes cancelAt x y ∧ m.StopsAt y result ∧
        Over cancelAt result (run m fuel sys) y := by
  induction fuel generalizing sys x with
  | zero => exact Or.inl ⟨x, .refl, here⟩
  | succ fuel ih =>
      rw [run_at here]
      rcases m.after_or_stops cancelAt x with ⟨y, step⟩ | ⟨result, stops⟩
      · rcases ih (at_advance here step) with ⟨z, comes, there⟩ | ⟨z, result, comes, rest⟩
        · exact Or.inl ⟨z, .head step comes, there⟩
        · exact Or.inr ⟨z, result, .head step comes, rest⟩
      · have last := over_advance here stops
        rw [run_of_settled last.settled]
        exact Or.inr ⟨x, result, .refl, stops, last⟩

end System

namespace Machine

variable {m : Machine C R W S A} {world : W} {first : S} {x y z : Point C R W S}
  {cancelAt : Option Instant} {instant : Instant} {log : List (Entry C R)} {result : Option A}

theorem halts_of_comes (comes : m.Comes cancelAt ⟨0, world, first, []⟩ y)
    (stops : m.StopsAt y result) : m.Halts world first cancelAt y.instant y.log result := by
  obtain ⟨turns, sys, here, hrun⟩ := System.run_of_comes comes (System.at_begin world first _)
  have last := System.over_advance here stops
  refine ⟨turns + 1, fun fuel hfuel => ?_⟩
  obtain ⟨more, rfl⟩ := Nat.exists_eq_add_of_le hfuel
  rw [Nat.add_assoc, hrun, Nat.add_comm, System.run_at here, System.run_of_settled last.settled]
  exact ⟨last.worker, last.now, last.log⟩

theorem comes_of_halts (halts : m.Halts world first cancelAt instant log result) :
    ∃ y, m.Comes cancelAt ⟨0, world, first, []⟩ y ∧ m.StopsAt y result ∧ y.instant = instant ∧
      y.log = log := by
  obtain ⟨enough, halts⟩ := halts
  obtain ⟨hworkers, hnow, hlog⟩ := halts enough (Nat.le_refl _)
  rcases System.comes_of_run m (System.at_begin world first cancelAt) enough with
    ⟨y, comes, here⟩ | ⟨y, result', comes, stops, last⟩
  · have hturn := here.turn
    cases result <;> simp [System.turn?, hworkers, Status.ended] at hturn
  · have heq := hworkers.symm.trans last.worker
    obtain rfl : result' = result := by
      cases result <;> cases result' <;> simp_all [Status.ended]
    exact ⟨y, comes, stops, last.now.symm.trans hnow, last.log.symm.trans hlog⟩

theorem after?_ask {call : C} {cut : Option (Cut S)} {resume : R call → S}
    (turn : m.turn x.instant x.stage = .ask call cut resume) :
    m.after? cancelAt x =
      some ⟨(endOfWait x.instant (x.instant + (m.answer x.instant call x.world).delay.nanos) cut
          (resume (m.answer x.instant call x.world).reply)).1,
        (m.answer x.instant call x.world).world,
        (endOfWait x.instant (x.instant + (m.answer x.instant call x.world).delay.nanos) cut
          (resume (m.answer x.instant call x.world).reply)).2,
        ⟨x.instant, 0, call, (m.answer x.instant call x.world).reply⟩ :: x.log⟩ := by
  unfold after?
  rw [turn]

theorem after?_pause {length : Duration} {cut : Option (Cut S)} {woken cancelled : S}
    (turn : m.turn x.instant x.stage = .pause length cut woken cancelled) :
    m.after? cancelAt x =
      some ⟨(endOfPause x.instant (x.instant + length.nanos) cut woken cancelled cancelAt).1,
        x.world,
        (endOfPause x.instant (x.instant + length.nanos) cut woken cancelled cancelAt).2,
        x.log⟩ := by
  unfold after?
  rw [turn]

theorem StopsAt.unique {result' : Option A} (stops : m.StopsAt x result)
    (stops' : m.StopsAt x result') : result = result' := by
  rcases Turn.cases_of_stops stops with ⟨a, hturn, rfl⟩ | ⟨hturn, rfl⟩
  · rw [StopsAt, hturn] at stops'
    exact stops'.symm
  · rw [StopsAt, hturn] at stops'
    exact stops'.symm

theorem Halts.unique {instant' : Instant} {log' : List (Entry C R)} {result' : Option A}
    (h : m.Halts world first cancelAt instant log result)
    (h' : m.Halts world first cancelAt instant' log' result') : result = result' := by
  obtain ⟨enough, h⟩ := h
  obtain ⟨enough', h'⟩ := h'
  have hworkers := (h (max enough enough') (Nat.le_max_left _ _)).1
  have heq := hworkers.symm.trans (h' (max enough enough') (Nat.le_max_right _ _)).1
  cases result <;> cases result' <;> simp_all [Status.ended]

theorem after?_of_stops (stops : m.StopsAt x result) : m.after? cancelAt x = none := by
  unfold after?
  rcases Turn.cases_of_stops stops with ⟨a, hturn, -⟩ | ⟨hturn, -⟩
  · rw [hturn]
  · rw [hturn]

/-- A run that has stopped goes no further. -/
theorem Comes.eq_of_stops (comes : m.Comes cancelAt x y) (stops : m.StopsAt x result) : y = x := by
  rcases Relation.ReflTransGen.cases_head comes with rfl | ⟨z, step, -⟩
  · rfl
  · rw [after?_of_stops stops] at step
    cases step

theorem instant_le_of_after (h : m.after? cancelAt x = some y) : x.instant ≤ y.instant := by
  unfold after? at h
  split at h
  · obtain rfl := Option.some.inj h
    exact le_endOfWait _ _ (Nat.le_add_right _ _)
  · obtain rfl := Option.some.inj h
    exact le_endOfPause _ _ _ _ (Nat.le_add_right _ _)
  · cases h

theorem log_suffix_of_after (h : m.after? cancelAt x = some y) : x.log <:+ y.log := by
  unfold after? at h
  split at h
  · obtain rfl := Option.some.inj h
    exact List.suffix_cons _ _
  · obtain rfl := Option.some.inj h
    exact List.suffix_refl _
  · cases h

theorem Comes.instant_le (comes : m.Comes cancelAt x y) : x.instant ≤ y.instant := by
  induction comes with
  | refl => exact Nat.le_refl _
  | tail _ step ih => exact Nat.le_trans ih (instant_le_of_after step)

theorem Comes.log_suffix (comes : m.Comes cancelAt x y) : x.log <:+ y.log := by
  induction comes with
  | refl => exact List.suffix_refl _
  | tail _ step ih => exact ih.trans (log_suffix_of_after step)

/-- After any number of turns the calls and the world are those of a point that the activity comes
to. -/
theorem comes_of_fuel (m : Machine C R W S A) (world : W) (first : S)
    (cancelAt : Option Instant) (fuel : Nat) : ∃ y, m.Comes cancelAt ⟨0, world, first, []⟩ y ∧
      (System.run m fuel ⟨0, world, [.begin first cancelAt], 0, []⟩).log = y.log ∧
      (System.run m fuel ⟨0, world, [.begin first cancelAt], 0, []⟩).world = y.world := by
  rcases System.comes_of_run m (System.at_begin world first cancelAt) fuel with
    ⟨y, comes, here⟩ | ⟨y, result, comes, -, last⟩
  · exact ⟨y, comes, here.log, here.world⟩
  · exact ⟨y, comes, last.log, last.world⟩

theorem leads_of_after (h : m.after? cancelAt x = some y) : ∃ asked,
    (m.turn x.instant x.stage).Leads asked y.stage ∧ y.asked = asked ++ x.asked := by
  cases hturn : m.turn x.instant x.stage with
  | done a => simp [after?, hturn] at h
  | crash => simp [after?, hturn] at h
  | ask call cut resume =>
      rw [after?_ask hturn, Option.some.injEq] at h
      subst h
      exact ⟨[⟨call, _⟩], ⟨_, rfl, endOfWait_stage _ _ cut _⟩, rfl⟩
  | pause length cut woken cancelled =>
      rw [after?_pause hturn, Option.some.injEq] at h
      subst h
      exact ⟨[], ⟨rfl, endOfPause_stage _ _ cut woken cancelled cancelAt⟩, rfl⟩

/-- What the activity goes through is a course of it. -/
theorem Comes.course (comes : m.Comes cancelAt ⟨0, world, first, []⟩ y) :
    Course m.turn first y.asked y.stage := by
  induction comes with
  | refl => exact .start
  | @tail x y _ step ih =>
      obtain ⟨asked, leads, hasked⟩ := leads_of_after step
      rw [hasked]
      exact ih.next x.instant leads

/-- What the turns of an activity keep holds along its run, until its deadline is over. -/
theorem Comes.keeps_timed {inner : Instant → S → Turn C R S A} {late : A} {limit : Duration}
    {answer : Instant → (call : C) → W → Answer W (R call)}
    (keeps : Instant → List (Asked C R) → S → Prop) (start : keeps 0 [] first)
    (step : ∀ {now asked before stage stage'}, keeps now before stage →
      (inner now stage).Leads asked stage' → keeps now (asked ++ before) stage')
    (mono : ∀ {now later asked stage}, now ≤ later → keeps now asked stage →
      keeps later asked stage)
    {y : Point C R W (Timed S)}
    (comes : (Machine.mk (fun now => Timed.turn (inner now) late) answer).Comes cancelAt
      ⟨0, world, .start 0 limit first, []⟩ y) :
    y.stage = .expired ∨ ∃ stage, y.stage = .running limit.nanos stage ∧
      keeps y.instant y.asked stage := by
  induction comes with
  | refl => exact Or.inr ⟨first, start_zero limit first, start⟩
  | @tail x y _ turn ih =>
      obtain ⟨asked, leads, hasked⟩ := leads_of_after turn
      rcases ih with hexpired | ⟨stage, hstage, kept⟩
      · rw [hexpired] at leads
        exact leads.elim
      · rw [hstage] at leads
        rcases Turn.leads_cutAt leads with hexpired | leads
        · exact Or.inl hexpired
        · rcases Turn.leads_andThen leads with ⟨a, -, hdone⟩ | ⟨next, leads, hnext⟩
          · exact hdone.elim
          · rw [hasked]
            exact Or.inr ⟨next, hnext, mono (instant_le_of_after turn) (step kept leads)⟩

/-- A lone activity makes all calls itself. -/
theorem Comes.worker_eq_zero (comes : m.Comes cancelAt ⟨0, world, first, []⟩ y) :
    ∀ entry ∈ y.log, entry.worker = 0 := by
  induction comes with
  | refl => exact nofun
  | tail _ step ih =>
      unfold after? at step
      split at step
      · obtain rfl := Option.some.inj step
        exact List.forall_mem_cons.2 ⟨rfl, ih⟩
      · obtain rfl := Option.some.inj step
        exact ih
      · cases step

/-- An activity whose run has given a result has stopped with it when the clock of the run says so,
and has asked what the run says. -/
theorem comes_of_result? {fuel : Nat} {a : A}
    (ended : (System.run m fuel ⟨0, world, [.begin first cancelAt], 0, []⟩).result? 0 = some a) :
    ∃ y, m.Comes cancelAt ⟨0, world, first, []⟩ y ∧ m.StopsAt y (some a) ∧
      (System.run m fuel ⟨0, world, [.begin first cancelAt], 0, []⟩).now = y.instant ∧
      (System.run m fuel ⟨0, world, [.begin first cancelAt], 0, []⟩).askedBy 0 = y.asked := by
  rcases System.comes_of_run m (System.at_begin world first cancelAt) fuel with
    ⟨y, -, here⟩ | ⟨y, result, comes, stops, last⟩
  · have turn := here.turn
    unfold System.result? at ended
    split at ended
    next hworker => simp [System.turn?, hworker] at turn
    next => cases ended
  · have hresult : result = some a := by
      cases result with
      | none => simp [System.result?, last.worker, Status.ended] at ended
      | some b => simpa [System.result?, last.worker, Status.ended] using ended
    refine ⟨y, comes, hresult ▸ stops, last.now, System.askedBy_of_single ?_⟩
    rw [System.calls, last.log, Point.asked, List.map_map]
    refine List.map_congr_left fun entry hentry => ?_
    exact congrArg (·, entry.asked) (comes.worker_eq_zero entry hentry)

/-- What has been called stays called. -/
theorem log_of_comes (comes : m.Comes cancelAt ⟨0, world, first, []⟩ y) :
    ∃ enough, ∀ fuel, enough ≤ fuel →
      y.log <:+ (System.run m fuel ⟨0, world, [.begin first cancelAt], 0, []⟩).log := by
  obtain ⟨turns, sys, here, hrun⟩ := System.run_of_comes comes (System.at_begin world first _)
  refine ⟨turns, fun fuel hfuel => ?_⟩
  obtain ⟨more, rfl⟩ := Nat.exists_eq_add_of_le hfuel
  rw [hrun]
  rcases System.comes_of_run m here more with ⟨z, comes, there⟩ | ⟨z, result, comes, -, last⟩
  · exact there.log ▸ comes.log_suffix
  · exact last.log ▸ comes.log_suffix

theorem log_eq_of_comes (comes : m.Comes cancelAt ⟨0, world, first, []⟩ y) :
    ∃ fuel, (System.run m fuel ⟨0, world, [.begin first cancelAt], 0, []⟩).log = y.log := by
  obtain ⟨turns, sys, here, hrun⟩ := System.run_of_comes comes (System.at_begin world first _)
  exact ⟨turns, (congrArg System.log (hrun 0)).trans here.log⟩

/-- What has been called by any time is the first part of what has been called in the end. -/
theorem Halts.log_suffix (halts : m.Halts world first cancelAt instant log result) (fuel : Nat) :
    (System.run m fuel ⟨0, world, [.begin first cancelAt], 0, []⟩).log <:+ log := by
  obtain ⟨y, comes, hlog, -⟩ := comes_of_fuel m world first cancelAt fuel
  obtain ⟨enough, suffix⟩ := log_of_comes comes
  obtain ⟨enough', ends⟩ := halts
  have last := (ends (max enough enough') (Nat.le_max_right _ _)).2.2
  rw [hlog, ← last]
  exact suffix _ (Nat.le_max_left _ _)

/-- Where the activity is after a number of turns, or where it is over before. -/
def follow (m : Machine C R W S A) (cancelAt : Option Instant) :
    Nat → Point C R W S → Point C R W S
  | 0, x => x
  | turns + 1, x =>
    match m.after? cancelAt x with
    | some y => follow m cancelAt turns y
    | none => x

theorem comes_follow (m : Machine C R W S A) (cancelAt : Option Instant) (turns : Nat)
    (x : Point C R W S) : m.Comes cancelAt x (m.follow cancelAt turns x) := by
  induction turns generalizing x with
  | zero => exact .refl
  | succ turns ih =>
      unfold follow
      split
      next y step => exact .head step (ih y)
      next => exact .refl

/-- An activity that is over after a number of turns comes to no other points than on the way. -/
theorem Comes.exists_follow {turns : Nat} (comes : m.Comes cancelAt x y)
    (stops : m.StopsAt (m.follow cancelAt turns x) result) :
    ∃ k ≤ turns, y = m.follow cancelAt k x := by
  induction comes using Relation.ReflTransGen.head_induction_on generalizing turns with
  | refl => exact ⟨0, Nat.zero_le turns, rfl⟩
  | @head x next step _ ih =>
      cases turns with
      | zero =>
          have ended : m.after? cancelAt x = none := after?_of_stops stops
          rw [ended] at step
          cases step
      | succ turns =>
          have onward : ∀ k, m.follow cancelAt (k + 1) x = m.follow cancelAt k next := by
            intro k
            rw [follow, step]
          rw [onward] at stops
          obtain ⟨k, hk, rfl⟩ := ih stops
          exact ⟨k + 1, Nat.succ_le_succ hk, (onward k).symm⟩

/-- The result that the activity ends with at a point, if it does. -/
def result? (m : Machine C R W S A) (x : Point C R W S) : Option A :=
  match m.turn x.instant x.stage with
  | .done a => some a
  | _ => none

theorem stopsAt_of_result? {a : A} (h : m.result? x = some a) : m.StopsAt x (some a) := by
  unfold result? at h
  split at h
  next b hturn =>
    rw [StopsAt, hturn]
    exact h.symm
  next => cases h

/-- The activity comes to a point with the property. -/
def Attains (m : Machine C R W S A) (cancelAt : Option Instant) (P : Point C R W S → Prop)
    (x : Point C R W S) : Prop :=
  ∃ y, m.Comes cancelAt x y ∧ P y

section

variable {P : Point C R W S → Prop}

theorem attains_here (h : P x) : m.Attains cancelAt P x := ⟨x, .refl, h⟩

theorem attains_of_after (step : m.after? cancelAt x = some y) (h : m.Attains cancelAt P y) :
    m.Attains cancelAt P x := by
  obtain ⟨z, comes, hz⟩ := h
  exact ⟨z, .head step comes, hz⟩

/-- A call that nothing cuts short leads to its reply's stage, whatever the reply. -/
theorem attains_of_ask {call : C} {resume : R call → S}
    (turn : m.turn x.instant x.stage = .ask call none resume)
    (h : ∀ r y, y.stage = resume r → y.log = ⟨x.instant, 0, call, r⟩ :: x.log →
      m.Attains cancelAt P y) : m.Attains cancelAt P x :=
  attains_of_after (after?_ask turn) (h _ _ rfl rfl)

end

/-- The calls leave a part of the world as it is. -/
def Spares {T : Type} (m : Machine C R W S A) (quiet : C → Prop) (part : W → T) : Prop :=
  ∀ now call w, quiet call → part (m.answer now call w).world = part w

section

variable {T : Type} {quiet : C → Prop} {part : W → T}

theorem part_of_after (spares : m.Spares quiet part) (step : m.after? cancelAt x = some y)
    (h : ∀ entry ∈ y.log, quiet entry.call) : part y.world = part x.world := by
  unfold after? at step
  split at step
  · obtain rfl := Option.some.inj step
    exact spares _ _ _ (h _ List.mem_cons_self)
  · obtain rfl := Option.some.inj step
    rfl
  · cases step

/-- As long as only such calls have been made, that part of the world is as it was. -/
theorem part_of_comes (spares : m.Spares quiet part) (comes : m.Comes cancelAt x y)
    (h : ∀ entry ∈ y.log, quiet entry.call) : part y.world = part x.world := by
  induction comes with
  | refl => rfl
  | tail _ step ih =>
      have before := ih fun entry hentry => h entry ((log_suffix_of_after step).mem hentry)
      exact (part_of_after spares step h).trans before

/-- As long as only such calls have been made, they have been answered from that part of the world
as it was. -/
theorem told_of_comes {may : T → (call : C) → R call → T → Prop} (spares : m.Spares quiet part)
    (obeys : m.Obeys fun w call r w' => may (part w) call r (part w'))
    (comes : m.Comes cancelAt ⟨0, world, first, []⟩ y) (h : ∀ entry ∈ y.log, quiet entry.call) :
    ∀ entry ∈ y.log, may (part world) entry.call entry.reply (part world) := by
  induction comes with
  | refl => simp
  | @tail y z comes step ih =>
      have quietly : ∀ entry ∈ y.log, quiet entry.call :=
        fun entry hentry => h entry ((log_suffix_of_after step).mem hentry)
      have hy : part y.world = part world := part_of_comes spares comes quietly
      have hz : part z.world = part y.world := part_of_after spares step h
      unfold after? at step
      split at step
      next call cut resume _ =>
        obtain rfl := Option.some.inj step
        intro entry hentry
        rcases List.mem_cons.1 hentry with rfl | hentry
        · have answered := obeys y.instant call y.world
          dsimp only at answered
          rw [hy] at hz answered
          rwa [hz] at answered
        · exact ih quietly entry hentry
      next =>
        obtain rfl := Option.some.inj step
        exact ih quietly
      next => cases step

end

end Machine

end Settlement
