import Mathlib.Data.List.Basic
import Mathlib.Logic.Relation
import Settlement.Proofs.Course
import Settlement.Schedule

/-!
# Workers in any order

The clock settles which worker goes on next. Many statements do not depend on that, so they are made
about all orders: `System.Moves` lets any worker take a turn at any instant, while the world answers
in any way that `may` allows, and `System.Reaches` is a row of such turns. `Moves.spec` says once
what a turn comes to. What the clock makes of the workers is one of these rows (`reaches_run`), and
in all of them each worker is on a course of its own activity (`stands_of_reaches`).
-/

namespace Settlement

variable {C : Type} {R : C → Type} {W S A : Type}

namespace Status

/-- The stage at which a worker goes on, now or when its wait is over. -/
def stage? : Status S A → Option S
  | ready stage => some stage
  | waiting _ _ stage => some stage
  | finished _ _ => none
  | crashed => none

theorem stage?_waitUntil (now wake : Instant) (ticket : Nat) (stage : S) :
    (waitUntil now wake ticket stage : Status S A).stage? = some stage := by
  unfold waitUntil
  split <;> rfl

/-- The worker is on a course of its activity, or at the end of one. -/
def Stands (turn : Instant → S → Turn C R S A) (first : S) (asked : List (Asked C R)) :
    Status S A → Prop
  | ready stage => Course turn first asked stage
  | waiting _ _ stage => Course turn first asked stage
  | finished _ a => Ends turn first asked a
  | crashed => ∃ stage, Course turn first asked stage

theorem stands_of_stage? {turn : Instant → S → Turn C R S A} {first stage : S}
    {asked : List (Asked C R)} {status : Status S A} (h : status.stage? = some stage) :
    status.Stands turn first asked ↔ Course turn first asked stage := by
  cases status with
  | ready s => rw [← Option.some.inj h]; rfl
  | waiting wake ticket s => rw [← Option.some.inj h]; rfl
  | finished instant a => simp [stage?] at h
  | crashed => simp [stage?] at h

theorem course_of_stands {turn : Instant → S → Turn C R S A} {first : S}
    {asked : List (Asked C R)} {status : Status S A} (h : status.Stands turn first asked) :
    ∃ stage, Course turn first asked stage := by
  cases status with
  | ready stage => exact ⟨stage, h⟩
  | waiting wake ticket stage => exact ⟨stage, h⟩
  | finished instant a =>
      obtain ⟨stage, -, course, -⟩ := h
      exact ⟨stage, course⟩
  | crashed => exact h

end Status

/-- The machine answers as `may` allows, from a world to a world. -/
def Machine.Obeys (m : Machine C R W S A) (may : W → (call : C) → R call → W → Prop) : Prop :=
  ∀ now call w, may w call (m.answer now call w).reply (m.answer now call w).world

/-- What a turn comes to: the status after it, what was asked, and the world after it. -/
inductive Effect (may : W → (call : C) → R call → W → Prop) (t : Turn C R S A) (world : W) :
    Status S A → List (Asked C R) → W → Prop
  | ends (instant : Instant) (a : A) (h : t = .done a) :
      Effect may t world (.finished instant a) [] world
  | breaks (h : t = .crash) : Effect may t world .crashed [] world
  | waits {status : Status S A} (next : S) (h : t.Leads [] next)
      (hs : status.stage? = some next) : Effect may t world status [] world
  | asks {status : Status S A} (next : S) (call : C) (r : R call) (world' : W)
      (h : t.Leads [⟨call, r⟩] next) (hs : status.stage? = some next)
      (hm : may world call r world') : Effect may t world status [⟨call, r⟩] world'

theorem endOfWait_stage (now natural : Instant) (cut : Option (Cut S)) (stage : S) :
    (endOfWait now natural cut stage).2 = stage ∨
      ∃ k, cut = some k ∧ (endOfWait now natural cut stage).2 = k.resume := by
  cases cut with
  | none => exact Or.inl rfl
  | some k =>
      unfold endOfWait
      by_cases h : natural ≤ k.instant
      · exact Or.inl (by simp [h])
      · exact Or.inr ⟨k, rfl, by simp [h]⟩

theorem endOfPause_stage (now natural : Instant) (cut : Option (Cut S)) (woken cancelled : S)
    (cancelAt : Option Instant) :
    (endOfPause now natural cut woken cancelled cancelAt).2 = woken ∨
      (endOfPause now natural cut woken cancelled cancelAt).2 = cancelled ∨
      ∃ k, cut = some k ∧
        (endOfPause now natural cut woken cancelled cancelAt).2 = k.resume := by
  have hwait := endOfWait_stage now natural cut woken
  cases cancelAt with
  | none => exact hwait.imp_right Or.inr
  | some instant =>
      unfold endOfPause
      by_cases h : max now instant ≤ (endOfWait now natural cut woken).1
      · exact Or.inr (Or.inl (by simp [h]))
      · simpa [h] using hwait.imp_right Or.inr

namespace System

def calls (sys : System C R W S A) : List (Nat × Asked C R) :=
  sys.log.map fun entry => (entry.worker, ⟨entry.call, entry.reply⟩)

theorem calls_of_fresh {sys : System C R W S A} (fresh : sys.log = []) : sys.calls = [] := by
  simp [calls, fresh]

/-- The calls that the worker at `index` made, latest first. -/
def askedBy (sys : System C R W S A) (index : Nat) : List (Asked C R) :=
  (sys.calls.filter fun call => call.1 = index).map (·.2)

theorem mem_askedBy {sys : System C R W S A} {index : Nat} {a : Asked C R} :
    a ∈ sys.askedBy index ↔ (index, a) ∈ sys.calls := by
  simp only [askedBy, List.mem_map, List.mem_filter, decide_eq_true_eq]
  constructor
  · rintro ⟨⟨i, b⟩, ⟨hb, rfl⟩, rfl⟩
    exact hb
  · intro h
    exact ⟨(index, a), ⟨h, rfl⟩, rfl⟩

/-- The worker at `index` takes a turn, at any instant and with any answers that `may` allows. -/
def Moves (turns : Nat → Instant → S → Turn C R S A) (may : W → (call : C) → R call → W → Prop)
    (index : Nat) (sys sys' : System C R W S A) : Prop :=
  ∃ (m : Machine C R W S A) (worker : Worker S A) (stage : S) (now : Instant),
    m.turn = turns index ∧ m.Obeys may ∧ sys.workers[index]? = some worker ∧
      worker.status.stage? = some stage ∧ sys' = advance m { sys with now } index stage

/-- Turns of workers, in any order, lead from a system to a system. -/
def Reaches (turns : Nat → Instant → S → Turn C R S A)
    (may : W → (call : C) → R call → W → Prop) : System C R W S A → System C R W S A → Prop :=
  Relation.ReflTransGen fun sys sys' => ∃ index, Moves turns may index sys sys'

section

variable {turns : Nat → Instant → S → Turn C R S A} {may : W → (call : C) → R call → W → Prop}

/-- What a turn of a worker comes to, for the worker and for the world. -/
theorem advance_effect {m : Machine C R W S A} (obeys : m.Obeys may) (sys : System C R W S A)
    (index : Nat) (stage : S) :
    ∃ (status : Status S A) (asked : List (Asked C R)),
      (advance m sys index stage).workers =
          sys.workers.modify index (fun worker => { worker with status }) ∧
        (advance m sys index stage).calls = asked.map (Prod.mk index) ++ sys.calls ∧
        Effect may (m.turn sys.now stage) sys.world status asked
          (advance m sys index stage).world := by
  cases hturn : m.turn sys.now stage with
  | done a =>
      simp only [advance, hturn]
      exact ⟨_, [], rfl, rfl, .ends sys.now a rfl⟩
  | crash =>
      simp only [advance, hturn]
      exact ⟨_, [], rfl, rfl, .breaks rfl⟩
  | ask call cut resume =>
      simp only [advance, hturn]
      refine ⟨_, [⟨call, (m.answer sys.now call sys.world).reply⟩], rfl, rfl, ?_⟩
      refine .asks _ call _ _ ⟨_, rfl, ?_⟩ (Status.stage?_waitUntil _ _ _ _) (obeys _ _ _)
      exact endOfWait_stage _ _ _ _
  | pause length cut woken cancelled =>
      simp only [advance, hturn]
      refine ⟨_, [], rfl, rfl, ?_⟩
      refine .waits _ ⟨rfl, ?_⟩ (Status.stage?_waitUntil _ _ _ _)
      exact endOfPause_stage _ _ _ _ _ _

/-- `advance_effect` for a turn at any instant and with any answers. -/
theorem Moves.spec {index : Nat} {sys sys' : System C R W S A}
    (h : Moves turns may index sys sys') :
    ∃ (worker : Worker S A) (stage : S) (now : Instant) (status : Status S A)
      (asked : List (Asked C R)),
      sys.workers[index]? = some worker ∧ worker.status.stage? = some stage ∧
        sys'.workers = sys.workers.modify index (fun worker => { worker with status }) ∧
        sys'.calls = asked.map (Prod.mk index) ++ sys.calls ∧
        Effect may (turns index now stage) sys.world status asked sys'.world := by
  obtain ⟨m, worker, stage, now, hturn, obeys, hw, hs, rfl⟩ := h
  obtain ⟨status, asked, hworkers, hcalls, effect⟩ :=
    advance_effect obeys { sys with now } index stage
  exact ⟨worker, stage, now, status, asked, hw, hs, hworkers, hcalls, hturn ▸ effect⟩

/-- A turn leaves calls and world as they are, or makes one call, which the world answers. -/
theorem Moves.calls {index : Nat} {sys sys' : System C R W S A}
    (h : Moves turns may index sys sys') :
    (sys'.calls = sys.calls ∧ sys'.world = sys.world) ∨
      ∃ call r, sys'.calls = (index, ⟨call, r⟩) :: sys.calls ∧
        may sys.world call r sys'.world := by
  obtain ⟨worker, stage, now, status, asked, -, -, -, hcalls, effect⟩ := h.spec
  generalize sys'.world = world at effect ⊢
  cases effect with
  | ends instant a hdone => exact Or.inl ⟨hcalls, rfl⟩
  | breaks => exact Or.inl ⟨hcalls, rfl⟩
  | waits next leads hs => exact Or.inl ⟨hcalls, rfl⟩
  | asks next call r world' leads hs hm => exact Or.inr ⟨call, r, hcalls, hm⟩

theorem askedBy_of_calls {sys sys' : System C R W S A} {index : Nat} {asked : List (Asked C R)}
    (h : sys'.calls = asked.map (Prod.mk index) ++ sys.calls) (i : Nat) :
    sys'.askedBy i = (if i = index then asked else []) ++ sys.askedBy i := by
  unfold askedBy
  rw [h, List.filter_append, List.map_append, List.filter_map]
  split
  next hi =>
    subst hi
    simp [Function.comp_def]
  next hi =>
    simp [Function.comp_def, Ne.symm hi]

theorem askedBy_of_call {sys sys' : System C R W S A} {index : Nat} {a : Asked C R}
    (h : sys'.calls = (index, a) :: sys.calls) : sys'.askedBy index = a :: sys.askedBy index := by
  have hasked : sys'.calls = [a].map (Prod.mk index) ++ sys.calls := h
  rw [askedBy_of_calls hasked, if_pos rfl]
  rfl

theorem firstReady_eq_some {workers : List (Worker S A)} {index i : Nat} {stage : S}
    (h : firstReady index workers = some (i, stage)) :
    ∃ j worker, i = index + j ∧ workers[j]? = some worker ∧ worker.status = .ready stage := by
  induction workers generalizing index with
  | nil => simp [firstReady] at h
  | cons worker rest ih =>
      unfold firstReady at h
      split at h
      next s hs =>
        obtain ⟨rfl, rfl⟩ := Prod.mk.inj (Option.some.inj h)
        exact ⟨0, worker, rfl, rfl, hs⟩
      next =>
        obtain ⟨j, w, rfl, hw, hstatus⟩ := ih h
        exact ⟨j + 1, w, by omega, hw, hstatus⟩

theorem firstWoken_eq_some {workers : List (Worker S A)} {index i ticket : Nat} {wake : Instant}
    {stage : S} (h : firstWoken index workers = some (i, wake, ticket, stage)) :
    ∃ j worker, i = index + j ∧ workers[j]? = some worker ∧
      worker.status = .waiting wake ticket stage := by
  induction workers generalizing index with
  | nil => simp [firstWoken] at h
  | cons worker rest ih =>
      have later : firstWoken (index + 1) rest = some (i, wake, ticket, stage) →
          ∃ j w, i = index + j ∧ (worker :: rest)[j]? = some w ∧
            w.status = .waiting wake ticket stage := by
        intro h
        obtain ⟨j, w, rfl, hw, hstatus⟩ := ih h
        exact ⟨j + 1, w, by omega, hw, hstatus⟩
      have here : worker.status = .waiting wake ticket stage → i = index →
          ∃ j w, i = index + j ∧ (worker :: rest)[j]? = some w ∧
            w.status = .waiting wake ticket stage := by
        rintro hs rfl
        exact ⟨0, worker, rfl, rfl, hs⟩
      unfold firstWoken at h
      split at h
      next wake' ticket' s hs hrest =>
        obtain ⟨rfl, rfl, rfl, rfl⟩ := by simpa using h
        exact here hs rfl
      next wake' ticket' s _ _ _ _ hs hrest =>
        split at h
        · obtain ⟨rfl, rfl, rfl, rfl⟩ := by simpa using h
          exact here hs rfl
        · exact later (h ▸ hrest)
      next => exact later h

theorem next?_eq_some {sys : System C R W S A} {index : Nat} {instant : Instant} {stage : S}
    (h : sys.next? = some (index, instant, stage)) :
    ∃ worker, sys.workers[index]? = some worker ∧ worker.status.stage? = some stage := by
  unfold next? at h
  split at h
  next i s hready =>
    obtain ⟨rfl, -, rfl⟩ := by simpa using h
    obtain ⟨j, worker, hj, hw, hs⟩ := firstReady_eq_some hready
    exact ⟨worker, by simpa [hj] using hw, by rw [hs]; rfl⟩
  next =>
    obtain ⟨⟨i, wake, ticket, s⟩, hwoken, heq⟩ := Option.map_eq_some_iff.1 h
    obtain ⟨rfl, -, rfl⟩ := by simpa using heq
    obtain ⟨j, worker, hj, hw, hs⟩ := firstWoken_eq_some hwoken
    exact ⟨worker, by simpa [hj] using hw, by rw [hs]; rfl⟩

/-- What the clock makes of a system is a row of turns. -/
theorem reaches_run {m : Machine C R W S A} (obeys : m.Obeys may) (fuel : Nat)
    (sys : System C R W S A) : Reaches (fun _ => m.turn) may sys (run m fuel sys) := by
  induction fuel generalizing sys with
  | zero => exact .refl
  | succ fuel ih =>
      unfold run
      split
      · exact .refl
      · split
        next next hstep =>
          obtain ⟨⟨index, instant, stage⟩, hnext, rfl⟩ := Option.map_eq_some_iff.1 hstep
          obtain ⟨worker, hw, hs⟩ := next?_eq_some hnext
          exact .head ⟨index, m, worker, stage, instant, rfl, obeys, hw, hs, rfl⟩ (ih _)
        next => exact .refl

/-- The result of the worker at `index`, when it is finished. -/
def result? (sys : System C R W S A) (index : Nat) : Option A :=
  match sys.workers[index]? with
  | some ⟨_, _, .finished _ a⟩ => some a
  | _ => none

def turn? (sys : System C R W S A) (index : Nat) : Option (Instant × S) :=
  match sys.workers[index]? with
  | some ⟨_, _, .ready stage⟩ => some (sys.now, stage)
  | some ⟨_, _, .waiting wake _ stage⟩ => some (max sys.now wake, stage)
  | _ => none

/-- The workers take turns in the order that is given, each on a machine of its own. -/
def play (m : Nat → Machine C R W S A) : List Nat → System C R W S A → System C R W S A
  | [], sys => sys
  | index :: order, sys =>
    match sys.turn? index with
    | some (instant, stage) =>
      play m order (advance (m index) { sys with now := instant } index stage)
    | none => play m order sys

theorem turn?_eq_some {sys : System C R W S A} {index : Nat} {instant : Instant} {stage : S}
    (h : sys.turn? index = some (instant, stage)) :
    ∃ worker, sys.workers[index]? = some worker ∧ worker.status.stage? = some stage := by
  unfold turn? at h
  split at h
  next cancelAt background s hw =>
    obtain ⟨-, rfl⟩ := by simpa using h
    exact ⟨_, hw, rfl⟩
  next cancelAt background wake ticket s hw =>
    obtain ⟨-, rfl⟩ := by simpa using h
    exact ⟨_, hw, rfl⟩
  next => simp at h

theorem reaches_play {m : Nat → Machine C R W S A} (obeys : ∀ i, (m i).Obeys may)
    (order : List Nat) (sys : System C R W S A) :
    Reaches (fun i => (m i).turn) may sys (play m order sys) := by
  induction order generalizing sys with
  | nil => exact .refl
  | cons index order ih =>
      unfold play
      split
      next instant stage hturn =>
        obtain ⟨worker, hw, hs⟩ := turn?_eq_some hturn
        exact .head ⟨index, m index, worker, stage, instant, rfl, obeys index, hw, hs, rfl⟩ (ih _)
      next => exact ih sys

/-- In a row of turns each worker stays on a course of its own activity. -/
theorem stands_of_reaches {start sys : System C R W S A} (h : Reaches turns may start sys)
    (fresh : start.log = []) {i : Nat} {worker : Worker S A} {first : S}
    (hw : start.workers[i]? = some worker) (hf : worker.status.stage? = some first) :
    ∃ worker', sys.workers[i]? = some worker' ∧
      worker'.status.Stands (turns i) first (sys.askedBy i) := by
  -- a turn of another worker leaves `i` where it stands; its own is one more step of its course
  induction h with
  | refl =>
      refine ⟨worker, hw, ?_⟩
      have hnil : start.askedBy i = [] := by simp [askedBy, calls, fresh]
      rw [hnil, Status.stands_of_stage? hf]
      exact .start
  | @tail mid last _ move ih =>
      obtain ⟨index, move⟩ := move
      obtain ⟨mover, stage, now, status, asked, hm, hstage, hworkers, hcalls, effect⟩ := move.spec
      obtain ⟨worker', hw', stands⟩ := ih
      rw [hworkers, askedBy_of_calls hcalls, List.getElem?_modify, hw']
      by_cases hi : i = index
      · subst hi
        obtain rfl : mover = worker' := Option.some.inj (hm.symm.trans hw')
        have course := (Status.stands_of_stage? hstage).1 stands
        refine ⟨{ mover with status }, by simp, ?_⟩
        rw [if_pos rfl]
        generalize last.world = world at effect
        cases effect with
        | ends instant a hdone => exact ⟨stage, now, course, hdone⟩
        | breaks => exact ⟨stage, course⟩
        | waits next leads hs => exact (Status.stands_of_stage? hs).2 (course.next now leads)
        | asks next call r world' leads hs =>
            exact (Status.stands_of_stage? hs).2 (course.next now leads)
      · refine ⟨worker', by simp [Ne.symm hi], ?_⟩
        rw [if_neg hi, List.nil_append]
        exact stands

theorem askedBy_eq_nil {start sys : System C R W S A} (h : Reaches turns may start sys)
    (fresh : start.log = []) {i : Nat} (hw : start.workers[i]? = none) :
    sys.workers[i]? = none ∧ sys.askedBy i = [] := by
  induction h with
  | refl => exact ⟨hw, by simp [askedBy, calls, fresh]⟩
  | @tail mid last _ move ih =>
      obtain ⟨index, move⟩ := move
      obtain ⟨mover, stage, now, status, asked, hm, -, hworkers, hcalls, -⟩ := move.spec
      have hi : i ≠ index := by
        rintro rfl
        rw [hm] at ih
        exact absurd ih.1 (by simp)
      rw [hworkers, askedBy_of_calls hcalls, if_neg hi, List.getElem?_modify, ih.1, ih.2]
      exact ⟨rfl, rfl⟩

/-- In a row of turns of workers that began at `first`, whatever one of them asked lies on a course
of its activity. -/
theorem course_of_reaches {start sys : System C R W S A} (h : Reaches turns may start sys)
    (fresh : start.log = []) {first : S}
    (begins : ∀ worker ∈ start.workers, worker.status = .ready first) (i : Nat) :
    ∃ stage, Course (turns i) first (sys.askedBy i) stage := by
  cases hw : start.workers[i]? with
  | none =>
      rw [(askedBy_eq_nil h fresh hw).2]
      exact ⟨first, .start⟩
  | some worker =>
      have hf := begins worker (List.mem_of_getElem? hw)
      have hstage : worker.status.stage? = some first := by rw [hf]; rfl
      obtain ⟨worker', -, stands⟩ := stands_of_reaches h fresh hw hstage
      exact Status.course_of_stands stands

/-- Each worker stays on a course of its activity, whenever it began. -/
theorem stands_of_begun {start sys : System C R W S A} (h : Reaches turns may start sys)
    (fresh : start.log = []) {first : S}
    (begins : ∀ worker ∈ start.workers, worker.status.stage? = some first) {i : Nat}
    {worker : Worker S A} (hw : sys.workers[i]? = some worker) :
    worker.status.Stands (turns i) first (sys.askedBy i) := by
  cases hw' : start.workers[i]? with
  | none =>
      rw [(askedBy_eq_nil h fresh hw').1] at hw
      cases hw
  | some begun =>
      have hfirst := begins begun (List.mem_of_getElem? hw')
      obtain ⟨last, hlast, stands⟩ := stands_of_reaches h fresh hw' hfirst
      obtain rfl := Option.some.inj (hlast.symm.trans hw)
      exact stands

/-- A worker that goes on has come to its stage on a course of its activity. -/
theorem course_of_begun {start sys : System C R W S A} (h : Reaches turns may start sys)
    (fresh : start.log = []) {first : S}
    (begins : ∀ worker ∈ start.workers, worker.status.stage? = some first) {i : Nat}
    {instant : Instant} {stage : S} (hturn : sys.turn? i = some (instant, stage)) :
    Course (turns i) first (sys.askedBy i) stage := by
  obtain ⟨worker, hw, hstage⟩ := turn?_eq_some hturn
  exact (Status.stands_of_stage? hstage).1 (stands_of_begun h fresh begins hw)

/-- A worker that is finished has taken its activity to the end, whenever it began. -/
theorem ends_of_begun {start sys : System C R W S A} (h : Reaches turns may start sys)
    (fresh : start.log = []) {first : S}
    (begins : ∀ worker ∈ start.workers, worker.status.stage? = some first) {i : Nat} {a : A}
    (ended : sys.result? i = some a) : Ends (turns i) first (sys.askedBy i) a := by
  unfold result? at ended
  split at ended
  next cancelAt background instant b hw =>
    obtain rfl := Option.some.inj ended
    exact stands_of_begun h fresh begins hw
  next => simp at ended

theorem ends_of_reaches {start sys : System C R W S A} (h : Reaches turns may start sys)
    (fresh : start.log = []) {first : S}
    (begins : ∀ worker ∈ start.workers, worker.status = .ready first) {i : Nat} {a : A}
    (ended : sys.result? i = some a) : Ends (turns i) first (sys.askedBy i) a := by
  refine ends_of_begun h fresh ?_ ended
  intro worker hw
  rw [begins worker hw]
  rfl

theorem ends_of_alone {m : Machine C R W S A} {world : W} {first : S} {cancelAt : Option Instant}
    {fuel : Nat} {a : A}
    (ended : (run m fuel ⟨0, world, [.begin first cancelAt], 0, []⟩).result? 0 = some a) :
    Ends m.turn first ((run m fuel ⟨0, world, [.begin first cancelAt], 0, []⟩).askedBy 0) a := by
  have obeys : m.Obeys fun _ _ _ _ => True := fun _ _ _ => trivial
  refine ends_of_reaches (reaches_run obeys fuel _) rfl ?_ ended
  intro worker hw
  rw [List.mem_singleton.1 hw]
  rfl

end

end System

end Settlement
