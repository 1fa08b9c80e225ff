import Settlement.Proofs.Pace

/-!
# Workers on the clock

`System.Beats` lets a worker take its turn when no other turn is due earlier; of turns that are due
at once any may come first. The world answers as `may` allows, which settles how long the answers
take as well. `Beats.spec` says what a turn comes to, and `System.Ticks` is a row of such turns. The
order in which the clock takes them is one of these rows (`ticks_run`), and each of them is a row of
turns in any order (`Ticks.reaches`). Each call in the log was made in one of the turns
(`Ticks.exists_beat`).
-/

namespace Settlement

variable {C : Type} {R : C → Type} {W S A : Type}

namespace Status

/-- The instant at which a worker goes on, and its stage then. -/
def due? (now : Instant) : Status S A → Option (Instant × S)
  | ready stage => some (now, stage)
  | waiting wake _ stage => some (max now wake, stage)
  | finished _ _ => none
  | crashed => none

theorem due?_waitUntil {now wake : Instant} (ticket : Nat) (stage : S) (h : now ≤ wake) :
    (waitUntil now wake ticket stage : Status S A).due? now = some (wake, stage) := by
  unfold waitUntil
  split
  next hle => rw [due?, Nat.le_antisymm h hle]
  next => rw [due?, Nat.max_eq_right h]

theorem le_due? {now : Instant} {status : Status S A} {due : Instant × S}
    (h : status.due? now = some due) : now ≤ due.1 := by
  cases status with
  | ready stage => exact Option.some.inj h ▸ Nat.le_refl _
  | waiting wake ticket stage => exact Option.some.inj h ▸ Nat.le_max_left _ _
  | finished instant a => cases h
  | crashed => cases h

/-- While time does not pass the instant at which a worker goes on, this stays the same. -/
theorem due?_of_le {now later : Instant} {status : Status S A} (h : now ≤ later)
    (ahead : ∀ due, status.due? now = some due → later ≤ due.1) :
    status.due? later = status.due? now := by
  cases status with
  | ready stage =>
      have hle : later ≤ now := ahead _ rfl
      rw [Nat.le_antisymm h hle]
  | waiting wake ticket stage =>
      have hle : later ≤ max now wake := ahead _ rfl
      have hmax : max later wake = max now wake := by grind
      rw [due?, due?, hmax]
  | finished instant a => rfl
  | crashed => rfl

end Status

/-- The machine answers as `may` allows, at any instant. -/
def Machine.Keeps (m : Machine C R W S A)
    (may : Instant → W → (call : C) → Answer W (R call) → Prop) : Prop :=
  ∀ now w call, may now w call (m.answer now call w)

namespace System

/-- The next turn may be the one that the worker at `index` takes at `now`: none is due earlier. -/
def Due (sys : System C R W S A) (index : Nat) (now : Instant) (stage : S) : Prop :=
  sys.turn? index = some (now, stage) ∧
    ∀ other instant stage', sys.turn? other = some (instant, stage') → now ≤ instant

/-- The worker at `index` takes the turn that is due. -/
def Beats (turns : Nat → Instant → S → Turn C R S A)
    (may : Instant → W → (call : C) → Answer W (R call) → Prop) (index : Nat)
    (sys sys' : System C R W S A) : Prop :=
  ∃ (m : Machine C R W S A) (now : Instant) (stage : S), m.turn = turns index ∧ m.Keeps may ∧
    sys.Due index now stage ∧ sys' = advance m { sys with now } index stage

/-- Turns that are due, one after the other, lead from a system to a system. -/
def Ticks (turns : Nat → Instant → S → Turn C R S A)
    (may : Instant → W → (call : C) → Answer W (R call) → Prop) :
    System C R W S A → System C R W S A → Prop :=
  Relation.ReflTransGen fun sys sys' => ∃ index, Beats turns may index sys sys'

/-- What becomes of a worker by its turn `t`, and of the world and the calls: it is over, or goes on
at an instant, and has asked for something or not. -/
inductive Stroke (prompt : C → Prop) (may : Instant → W → (call : C) → Answer W (R call) → Prop)
    (index : Nat) (t : Turn C R S A) (sys sys' : System C R W S A) : Prop
  | ends (turn : sys'.turn? index = none) (log : sys'.log = sys.log)
      (world : sys'.world = sys.world)
  | waits {next : S} {wake : Instant} (turn : sys'.turn? index = some (wake, next))
      (goes : t.Goes prompt sys'.now [] next wake) (log : sys'.log = sys.log)
      (world : sys'.world = sys.world)
  | asks {next : S} {wake : Instant} {call : C} {answer : Answer W (R call)}
      (turn : sys'.turn? index = some (wake, next))
      (goes : t.Goes prompt sys'.now [⟨call, answer.reply⟩] next wake)
      (log : sys'.log = ⟨sys'.now, index, call, answer.reply⟩ :: sys.log)
      (allowed : may sys'.now sys.world call answer) (world : sys'.world = answer.world)

section

variable {turns : Nat → Instant → S → Turn C R S A}
  {may : Instant → W → (call : C) → Answer W (R call) → Prop} {prompt : C → Prop}
  {sys sys' : System C R W S A} {index : Nat}

theorem turn?_eq (sys : System C R W S A) (i : Nat) :
    sys.turn? i = (sys.workers[i]?).bind fun worker => worker.status.due? sys.now := by
  unfold turn?
  cases sys.workers[i]? with
  | none => rfl
  | some worker =>
      obtain ⟨cancelAt, background, status⟩ := worker
      cases status <;> rfl

theorem now_le_turn? {i : Nat} {due : Instant × S} (h : sys.turn? i = some due) :
    sys.now ≤ due.1 := by
  rw [turn?_eq] at h
  obtain ⟨worker, -, hdue⟩ := Option.bind_eq_some_iff.1 h
  exact Status.le_due? hdue

/-- A turn that is due leaves the others at the instants at which they go on. -/
theorem turn?_of_due {now : Instant} {stage : S} (due : sys.Due index now stage)
    {status : Status S A} (hnow : sys'.now = now)
    (hworkers : sys'.workers = sys.workers.modify index fun worker => { worker with status }) :
    sys'.turn? index = status.due? now ∧ ∀ i, i ≠ index → sys'.turn? i = sys.turn? i := by
  have hindex := due.1
  rw [turn?_eq] at hindex
  obtain ⟨worker, hworker, -⟩ := Option.bind_eq_some_iff.1 hindex
  constructor
  · rw [turn?_eq, hworkers, hnow, List.getElem?_modify, hworker]
    simp
  · intro i hi
    rw [turn?_eq, turn?_eq, hworkers, hnow, List.getElem?_modify]
    cases hw : sys.workers[i]? with
    | none => rfl
    | some other =>
        simp only [Ne.symm hi, if_false, Option.bind_some]
        refine Status.due?_of_le (now_le_turn? due.1) fun later hlater => ?_
        exact due.2 i later.1 later.2 (by rw [turn?_eq, hw]; exact hlater)

/-- What a turn that is due comes to. -/
theorem Beats.spec (h : Beats turns may index sys sys')
    (instantly : ∀ now w call answer, may now w call answer → prompt call →
      answer.delay.nanos = 0) :
    ∃ now stage, sys.Due index now stage ∧ sys'.now = now ∧
      (∀ i, i ≠ index → sys'.turn? i = sys.turn? i) ∧
      Stroke prompt may index (turns index now stage) sys sys' := by
  obtain ⟨m, now, stage, hm, keeps, due, rfl⟩ := h
  refine ⟨now, stage, due, ?_⟩
  rw [← hm]
  cases hturn : m.turn now stage with
  | done a =>
      simp only [advance, hturn]
      obtain ⟨turn, others⟩ := turn?_of_due due rfl (rfl : (setStatus { sys with now } index
        (.finished now a)).workers = _)
      exact ⟨rfl, others, .ends turn rfl rfl⟩
  | crash =>
      simp only [advance, hturn]
      obtain ⟨turn, others⟩ := turn?_of_due due rfl (rfl : (setStatus { sys with now } index
        .crashed).workers = _)
      exact ⟨rfl, others, .ends turn rfl rfl⟩
  | ask call cut resume =>
      have allowed := keeps now sys.world call
      generalize hanswer : m.answer now call sys.world = answer at allowed
      generalize hend :
        endOfWait now (now + answer.delay.nanos) cut (resume answer.reply) = result
      obtain ⟨wake, next⟩ := result
      have goes : (Turn.ask call cut resume : Turn C R S A).Goes prompt now
          [⟨call, answer.reply⟩] next wake :=
        ⟨answer.reply, answer.delay, rfl, instantly now sys.world call answer allowed, hend⟩
      simp only [advance, hturn, hanswer, hend]
      obtain ⟨turn, others⟩ := turn?_of_due due rfl (rfl : (setStatus { sys with now } index
        (.waitUntil now wake sys.tickets next)).workers = _)
      rw [Status.due?_waitUntil _ _ goes.le] at turn
      exact ⟨rfl, others, .asks turn goes rfl allowed rfl⟩
  | pause length cut woken cancelled =>
      generalize hcancel : (sys.workers[index]?).bind (·.cancelAt) = cancelAt
      generalize hend :
        endOfPause now (now + length.nanos) cut woken cancelled cancelAt = result
      obtain ⟨wake, next⟩ := result
      have goes : (Turn.pause length cut woken cancelled : Turn C R S A).Goes prompt now [] next
          wake := ⟨rfl, cancelAt, hend⟩
      simp only [advance, hturn, hcancel, hend]
      obtain ⟨turn, others⟩ := turn?_of_due due rfl (rfl : (setStatus { sys with now } index
        (.waitUntil now wake sys.tickets next)).workers = _)
      rw [Status.due?_waitUntil _ _ goes.le] at turn
      exact ⟨rfl, others, .waits turn goes rfl rfl⟩

theorem Beats.moves (h : Beats turns may index sys sys') :
    Moves turns (fun _ _ _ _ => True) index sys sys' := by
  obtain ⟨m, now, stage, hm, -, due, rfl⟩ := h
  obtain ⟨worker, hworker, hstage⟩ := turn?_eq_some due.1
  exact ⟨m, worker, stage, now, hm, fun _ _ _ => trivial, hworker, hstage, rfl⟩

theorem Ticks.reaches (h : Ticks turns may sys sys') :
    Reaches turns (fun _ _ _ _ => True) sys sys' := by
  induction h with
  | refl => exact .refl
  | tail _ beat ih =>
      obtain ⟨index, beat⟩ := beat
      exact ih.tail ⟨index, beat.moves⟩

/-- A turn adds at most one call to the log. -/
theorem Beats.log (h : Beats turns may index sys sys') :
    sys'.log = sys.log ∨ ∃ entry : Entry C R, sys'.log = entry :: sys.log := by
  obtain ⟨m, now, stage, -, -, -, rfl⟩ := h
  cases hturn : m.turn now stage with
  | done a =>
      simp only [advance, hturn]
      exact Or.inl rfl
  | crash =>
      simp only [advance, hturn]
      exact Or.inl rfl
  | ask call cut resume =>
      simp only [advance, hturn]
      exact Or.inr ⟨_, rfl⟩
  | pause length cut woken cancelled =>
      simp only [advance, hturn]
      exact Or.inl rfl

theorem Beats.mem_log (h : Beats turns may index sys sys') {entry : Entry C R}
    (hentry : entry ∈ sys.log) : entry ∈ sys'.log := by
  rcases h.log with log | ⟨added, log⟩
  · rwa [log]
  · rw [log]
    exact List.mem_cons_of_mem _ hentry

/-- What was asked stays in the log. -/
theorem Ticks.mem_log (h : Ticks turns may sys sys') {entry : Entry C R}
    (hentry : entry ∈ sys.log) : entry ∈ sys'.log := by
  induction h with
  | refl => exact hentry
  | tail _ beat ih =>
      obtain ⟨index, beat⟩ := beat
      exact beat.mem_log ih

/-- Each call in the log was made in some turn, and what stands behind it in the log was there
before that turn. -/
theorem Ticks.exists_beat (h : Ticks turns may sys sys') (fresh : sys.log = [])
    {entry : Entry C R} {later earlier : List (Entry C R)}
    (log : sys'.log = later ++ entry :: earlier) :
    ∃ index before after, Ticks turns may sys before ∧ Beats turns may index before after ∧
      before.log = earlier ∧ after.log = entry :: earlier := by
  induction h generalizing later with
  | refl => simp [fresh] at log
  | @tail mid last ticks beat ih =>
      obtain ⟨index, beat⟩ := beat
      rcases beat.log with same | ⟨added, grown⟩
      · exact ih (same.symm.trans log)
      · cases later with
        | nil =>
            obtain ⟨rfl, hmid⟩ := List.cons.inj (grown.symm.trans log)
            exact ⟨index, mid, last, ticks, beat, hmid, log⟩
        | cons first later => exact ih (List.cons.inj (grown.symm.trans log)).2

theorem firstReady_eq_none {workers : List (Worker S A)} {index : Nat}
    (h : firstReady index workers = none) :
    ∀ worker ∈ workers, ∀ stage, worker.status ≠ .ready stage := by
  induction workers generalizing index with
  | nil => exact nofun
  | cons worker rest ih =>
      unfold firstReady at h
      split at h
      next => cases h
      next unready =>
        intro w hw
        rcases List.mem_cons.1 hw with rfl | hw
        · exact fun stage hs => unready stage hs
        · exact ih h w hw

/-- No wait ends before the one that is over first. -/
theorem firstWoken_le (index : Nat) {workers : List (Worker S A)} :
    ∀ worker ∈ workers, ∀ wake ticket stage, worker.status = .waiting wake ticket stage →
      ∃ i wake' ticket' stage', firstWoken index workers = some (i, wake', ticket', stage') ∧
        wake' ≤ wake := by
  induction workers generalizing index with
  | nil => exact nofun
  | cons worker rest ih =>
      intro w hw wake ticket stage hs
      unfold firstWoken
      rcases List.mem_cons.1 hw with rfl | hw
      · rw [hs]
        cases firstWoken (index + 1) rest with
        | none => exact ⟨_, _, _, _, rfl, Nat.le_refl _⟩
        | some best =>
            obtain ⟨other, wake', ticket', stage'⟩ := best
            dsimp only
            split
            next => exact ⟨_, _, _, _, rfl, Nat.le_refl _⟩
            next hlater => exact ⟨_, _, _, _, rfl, by grind⟩
      · obtain ⟨i, wake', ticket', stage', hbest, hle⟩ := ih (index + 1) w hw wake ticket stage hs
        rw [hbest]
        cases worker.status with
        | waiting wake'' ticket'' stage'' =>
            dsimp only
            split
            next hearlier => exact ⟨_, _, _, _, rfl, by grind⟩
            next => exact ⟨_, _, _, _, rfl, hle⟩
        | ready stage'' => exact ⟨_, _, _, _, rfl, hle⟩
        | finished instant a => exact ⟨_, _, _, _, rfl, hle⟩
        | crashed => exact ⟨_, _, _, _, rfl, hle⟩

/-- The clock lets a worker go on whose turn is due. -/
theorem due_of_next? {now : Instant} {stage : S} (h : sys.next? = some (index, now, stage)) :
    sys.Due index now stage := by
  unfold next? at h
  split at h
  next i s hready =>
    obtain ⟨rfl, rfl, rfl⟩ := by simpa using h
    obtain ⟨j, worker, hj, hw, hs⟩ := firstReady_eq_some hready
    obtain rfl : i = j := by simpa using hj
    refine ⟨by rw [turn?_eq, hw, Option.bind_some, hs]; rfl, ?_⟩
    exact fun other instant stage' hother => now_le_turn? hother
  next hnone =>
    obtain ⟨⟨i, wake, ticket, s⟩, hwoken, heq⟩ := Option.map_eq_some_iff.1 h
    obtain ⟨rfl, rfl, rfl⟩ := by simpa using heq
    obtain ⟨j, worker, hj, hw, hs⟩ := firstWoken_eq_some hwoken
    obtain rfl : i = j := by simpa using hj
    refine ⟨by rw [turn?_eq, hw, Option.bind_some, hs]; rfl, ?_⟩
    intro other instant stage' hother
    rw [turn?_eq] at hother
    obtain ⟨worker', hworker', hdue⟩ := Option.bind_eq_some_iff.1 hother
    have hmem := List.mem_of_getElem? hworker'
    cases hstatus : worker'.status with
    | ready stage'' => exact absurd hstatus (firstReady_eq_none hnone worker' hmem stage'')
    | waiting wake' ticket' stage'' =>
        obtain ⟨_, _, _, _, hbest, hle⟩ := firstWoken_le 0 worker' hmem _ _ _ hstatus
        obtain ⟨-, rfl, -, -⟩ := by simpa using hwoken.symm.trans hbest
        rw [hstatus] at hdue
        rw [← (Prod.mk.inj (Option.some.inj hdue)).1]
        exact Nat.max_le.2 ⟨Nat.le_max_left _ _, Nat.le_trans hle (Nat.le_max_right _ _)⟩
    | finished instant' a =>
        rw [hstatus] at hdue
        cases hdue
    | crashed =>
        rw [hstatus] at hdue
        cases hdue

/-- What the clock makes of a system is a row of turns that are due. -/
theorem ticks_run {m : Machine C R W S A} (keeps : m.Keeps may) (fuel : Nat)
    (sys : System C R W S A) : Ticks (fun _ => m.turn) may sys (run m fuel sys) := by
  induction fuel generalizing sys with
  | zero => exact .refl
  | succ fuel ih =>
      unfold run
      split
      · exact .refl
      · split
        next next hstep =>
          obtain ⟨⟨index, instant, stage⟩, hnext, rfl⟩ := Option.map_eq_some_iff.1 hstep
          exact .head ⟨index, m, instant, stage, rfl, keeps, due_of_next? hnext, rfl⟩ (ih _)
        next => exact .refl

end

end System

end Settlement
