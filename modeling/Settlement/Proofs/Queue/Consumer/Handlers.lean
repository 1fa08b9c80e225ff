import Mathlib.Data.List.Nodup
import Mathlib.Data.List.Perm.Basic
import Settlement.Proofs.Queue.Consumer.Steps

/-!
# The handlers of a consumer

A task first runs its handler and then acknowledges. Three things are kept by every event: the slots
that are taken for a fetch and the tasks are together no more than there are slots (`Slots`); each
task that was begun has a number of its own, and its handler either runs or has ended, once
(`Handled`); and a consumer that stops has a cause among the events (`Caused`). Where a fetch
returns no more than it was asked for, each delivery has a task (`delivered_of_runs`).
-/

namespace Settlement.Consumer

/-- The tasks whose handlers run. -/
def running (c : Consumer) : List Task := c.tasks.filter fun t => !t.acking

/-- The slots that are taken for a fetch. -/
def taken (c : Consumer) : Nat :=
  match c.phase with
  | .fetching slots => slots
  | _ => 0

/-- The deliveries that an event brings. -/
def Event.deliveries : Event → List Delivery
  | .fetched (.ok deliveries) => deliveries
  | _ => []

/-- The task whose handler ends. -/
def Event.handled? : Event → Option Nat
  | .handled number _ => some number
  | _ => none

/-- The deliveries that completed fetches returned, in their order. -/
def fetched : List Event → List Delivery
  | [] => []
  | event :: before => fetched before ++ event.deliveries

/-- The tasks whose handlers have ended, latest first. -/
def handled (events : List Event) : List Nat := events.filterMap Event.handled?

/-- What a consumer that stops has for a cause. -/
def Cause (events : List Event) : Ending → Prop
  | .shutdown => .shutdown ∈ events
  | .failed e => .declared (.error e) ∈ events ∨ .fetched (.error e) ∈ events ∨
      e = .reconnect ∧ ∃ number, .acked number (.error .reconnect) ∈ events

/-- No more slots are in use than there are. -/
structure Slots (prefetch : Nat) (c : Consumer) : Prop where
  limit : c.limit = max prefetch 1
  room : c.taken + c.tasks.length ≤ c.limit

/-- The tasks are numbered, and the handler of each runs or has ended once. -/
structure Handled (events : List Event) (begun : List Task) (c : Consumer) : Prop where
  numbered : begun.map (·.number) = List.range c.started
  known : ∀ t ∈ c.tasks, { t with acking := false } ∈ begun
  apart : (c.tasks.map (·.number)).Nodup
  once : (handled events ++ c.running.map (·.number)).Perm (begun.map (·.number))

/-- A fault, an end in sight and an end reached have their causes. -/
structure Caused (events : List Event) (c : Consumer) : Prop where
  fresh : c.phase = .declaring → c.tasks = []
  fault : ∀ e, c.fault = some e → Cause events (.failed e)
  stopping : ∀ ending, c.phase = .stopping ending → Cause events ending
  stopped : ∀ ending, c.phase = .stopped ending → Cause events ending ∧ c.tasks = []

section

variable {c c' : Consumer} {event : Event} {events : List Event} {prefetch : Nat}

@[simp] theorem length_tasksFor (first : Nat) (deliveries : List Delivery) :
    (tasksFor first deliveries).length = deliveries.length := by
  induction deliveries generalizing first with
  | nil => rfl
  | cons d rest ih => rw [tasksFor, List.length_cons, List.length_cons, ih]

theorem numbers_tasksFor (first : Nat) (deliveries : List Delivery) :
    (tasksFor first deliveries).map (·.number) = List.range' first deliveries.length := by
  induction deliveries generalizing first with
  | nil => rfl
  | cons d rest ih => rw [tasksFor, List.map_cons, ih, List.length_cons, List.range'_succ]

theorem deliveries_tasksFor (first : Nat) (deliveries : List Delivery) :
    (tasksFor first deliveries).map (·.delivery) = deliveries := by
  induction deliveries generalizing first with
  | nil => rfl
  | cons d rest ih => rw [tasksFor, List.map_cons, ih]

theorem acking_tasksFor {first : Nat} {deliveries : List Delivery} {t : Task}
    (h : t ∈ tasksFor first deliveries) : t.acking = false := by
  induction deliveries generalizing first with
  | nil => cases h
  | cons d rest ih =>
      rcases List.mem_cons.1 h with rfl | h
      · rfl
      · exact ih h

theorem length_drop_le (number : Nat) : (c.drop number).tasks.length ≤ c.tasks.length :=
  List.length_filter_le _ _

theorem Slots.next (slots : Slots prefetch c) (change : Change c event c') :
    Slots prefetch c' := by
  obtain ⟨limit, room⟩ := slots
  cases change with
  | declared now => exact ⟨limit, by simpa [taken, now] using room⟩
  | undeclared now => exact ⟨limit, by simpa [taken, now] using room⟩
  | acquired now =>
      refine ⟨limit, ?_⟩
      simp only [taken, now, free] at room ⊢
      omega
  | @fetched slots deliveries now =>
      refine ⟨limit, ?_⟩
      simp only [taken, now] at room
      simp only [taken, dispatch, List.length_append, length_tasksFor, List.length_take]
      omega
  | unfetched now =>
      refine ⟨limit, ?_⟩
      simp only [taken, now] at room ⊢
      omega
  | accepted mem running =>
      refine ⟨limit, ?_⟩
      simpa [taken] using room
  | abandoned mem running =>
      exact ⟨limit, Nat.le_trans (Nat.add_le_add_left (length_drop_le _) _) room⟩
  | acked mem acking =>
      refine ⟨(note_limit _).trans limit, ?_⟩
      rw [taken, note_phase, note_tasks, note_limit]
      exact Nat.le_trans (Nat.add_le_add_left (length_drop_le _) _) room
  | faulted fault reading =>
      refine ⟨limit, ?_⟩
      simp only [taken]
      omega
  | shutdown reading =>
      refine ⟨limit, ?_⟩
      simp only [taken]
      omega
  | drained now empty => exact ⟨limit, by simpa [taken, now] using room⟩

variable {begun : List Task}

theorem Handled.lt (handled : Handled events begun c) {t : Task} (mem : t ∈ c.tasks) :
    t.number < c.started := by
  rw [← List.mem_range, ← handled.numbered]
  exact List.mem_map.2 ⟨_, handled.known t mem, rfl⟩

theorem task?_isNone {number : Nat} :
    (c.task? number).isNone ↔ number ∉ c.tasks.map (·.number) := by
  simp [task?, List.find?_eq_none]

theorem begins_eq_nil (h : (c'.tasks.map (·.number)).Sublist (c.tasks.map (·.number))) :
    c.begins c' = [] := by
  refine List.filter_eq_nil_iff.2 ?_
  intro t mem hnone
  exact task?_isNone.1 hnone (h.subset (List.mem_map_of_mem mem))

theorem numbers_markAcking (number : Nat) (tasks : List Task) :
    (tasks.map (markAcking number)).map (·.number) = tasks.map (·.number) := by
  rw [List.map_map]
  refine List.map_congr_left fun t _ => ?_
  simp only [Function.comp_apply, markAcking]
  split <;> rfl

/-- Without a fetch no task is added. -/
theorem Change.shrinks (change : Change c event c')
    (unfetched : ∀ deliveries, event ≠ .fetched (.ok deliveries)) :
    (c'.tasks.map (·.number)).Sublist (c.tasks.map (·.number)) := by
  cases change with
  | fetched now => exact absurd rfl (unfetched _)
  | accepted mem running => exact (numbers_markAcking _ _).symm ▸ List.Sublist.refl _
  | abandoned mem running => exact List.filter_sublist.map _
  | acked mem acking => exact (note_tasks _).symm ▸ List.filter_sublist.map _
  | _ => exact List.Sublist.refl _

theorem handled_cons (event : Event) (events : List Event) :
    handled (event :: events) = event.handled?.toList ++ handled events := by
  rw [handled, List.filterMap_cons]
  cases event.handled? <;> rfl

/-- The tasks stay as they are. -/
theorem Handled.idle (handled : Handled events begun c) (tasks : c'.tasks = c.tasks)
    (started : c'.started = c.started) (unhandled : event.handled? = none) :
    Handled (event :: events) (begun ++ c.begins c') c' := by
  rw [begins_eq_nil (tasks ▸ List.Sublist.refl _), List.append_nil]
  constructor
  · rw [started]
    exact handled.numbered
  · rw [tasks]
    exact handled.known
  · rw [tasks]
    exact handled.apart
  · rw [running, tasks, handled_cons, unhandled]
    exact handled.once

theorem begins_dispatch (handled : Handled events begun c) (slots : Nat)
    (deliveries : List Delivery) :
    c.begins (c.dispatch slots deliveries) = tasksFor c.started (deliveries.take slots) := by
  have hold : c.tasks.filter (fun t => (c.task? t.number).isNone) = [] :=
    List.filter_eq_nil_iff.2 fun t mem hnone => task?_isNone.1 hnone (List.mem_map_of_mem mem)
  have hnew : ∀ t ∈ tasksFor c.started (deliveries.take slots), (c.task? t.number).isNone := by
    intro t mem
    refine task?_isNone.2 fun hmem => ?_
    obtain ⟨s, hs, hnumber⟩ := List.mem_map.1 hmem
    have hlt : s.number < c.started := handled.lt hs
    have hle : t.number ∈ List.range' c.started (deliveries.take slots).length := by
      rw [← numbers_tasksFor]
      exact List.mem_map_of_mem mem
    rw [List.mem_range'_1] at hle
    omega
  rw [begins, dispatch, List.filter_append, hold, List.nil_append, List.filter_eq_self.2 hnew]

/-- Each delivery that there is a slot for gets a task. -/
theorem Handled.fetched (handled : Handled events begun c) (slots : Nat)
    (deliveries : List Delivery) : Handled (.fetched (.ok deliveries) :: events)
      (begun ++ c.begins (c.dispatch slots deliveries)) (c.dispatch slots deliveries) := by
  have hnumbers := numbers_tasksFor c.started (deliveries.take slots)
  rw [begins_dispatch handled]
  constructor
  · rw [List.map_append, handled.numbered, hnumbers, dispatch, List.range_add,
      List.range'_eq_map_range]
  · intro t mem
    rcases List.mem_append.1 mem with mem | mem
    · exact List.mem_append_left _ (handled.known t mem)
    · refine List.mem_append_right _ ?_
      rw [← acking_tasksFor mem]
      exact mem
  · rw [dispatch, List.map_append, hnumbers]
    refine List.nodup_append.2 ⟨handled.apart, List.nodup_range', ?_⟩
    intro m hm n hn heq
    obtain ⟨t, mem, rfl⟩ := List.mem_map.1 hm
    have hlt := handled.lt mem
    rw [List.mem_range'_1] at hn
    omega
  · have hnew : (tasksFor c.started (deliveries.take slots)).filter (fun t => !t.acking) =
        tasksFor c.started (deliveries.take slots) := by
      refine List.filter_eq_self.2 fun t mem => ?_
      rw [acking_tasksFor mem, Bool.not_false]
    rw [running, dispatch, List.filter_append, hnew, List.map_append, List.map_append,
      ← List.append_assoc]
    exact handled.once.append_right _

theorem numbers_filter {tasks : List Task} (apart : (tasks.map (·.number)).Nodup) (number : Nat) :
    (tasks.filter (·.number != number)).map (·.number) = (tasks.map (·.number)).erase number := by
  rw [apart.erase_eq_filter, List.filter_map]
  rfl

theorem running_drop (number : Nat) :
    (c.drop number).running = c.running.filter (·.number != number) :=
  List.filter_comm _ _ _

theorem running_markAcking (number : Nat) (tasks : List Task) :
    (tasks.map (markAcking number)).filter (fun t => !t.acking) =
      (tasks.filter fun t => !t.acking).filter (·.number != number) := by
  induction tasks with
  | nil => rfl
  | cons t rest ih =>
      rw [List.map_cons, List.filter_cons, List.filter_cons, ih, markAcking]
      by_cases hnumber : t.number = number
      · cases hacking : t.acking <;> simp [hnumber]
      · cases hacking : t.acking <;> simp [hnumber, hacking]

theorem known_markAcking {number : Nat} (known : ∀ t ∈ c.tasks, { t with acking := false } ∈ begun)
    {t : Task} (mem : t ∈ c.tasks.map (markAcking number)) :
    { t with acking := false } ∈ begun := by
  obtain ⟨s, hs, rfl⟩ := List.mem_map.1 mem
  have hsame : { markAcking number s with acking := false } = { s with acking := false } := by
    unfold markAcking
    split <;> rfl
  rw [hsame]
  exact known s hs

/-- A task takes its number along when it leaves the running ones, and no other does. -/
theorem Handled.once_next (handled : Handled events begun c) {task : Task} (mem : task ∈ c.tasks)
    (running : task.acking = false)
    (rest : c'.running = c.running.filter (·.number != task.number)) :
    (task.number :: Consumer.handled events ++ c'.running.map (·.number)).Perm
      (begun.map (·.number)) := by
  have hmem : task.number ∈ c.running.map (·.number) :=
    List.mem_map_of_mem (List.mem_filter.2 ⟨mem, by rw [running, Bool.not_false]⟩)
  have hapart : (c.running.map (·.number)).Nodup :=
    handled.apart.sublist (List.filter_sublist.map _)
  refine List.Perm.trans ?_ handled.once
  rw [rest, numbers_filter hapart, List.cons_append]
  exact List.perm_middle.symm.trans ((List.perm_cons_erase hmem).symm.append_left _)

/-- An acknowledgement is no matter of the handlers. -/
theorem Handled.running_acked (handled : Handled events begun c) {task : Task}
    (mem : task ∈ c.tasks) (acking : task.acking = true) :
    c.running.filter (·.number != task.number) = c.running := by
  refine List.filter_eq_self.2 ?_
  intro t ht
  obtain ⟨htasks, hrunning⟩ := List.mem_filter.1 ht
  refine bne_iff_ne.2 fun heq => ?_
  have hsame : t = task := List.inj_on_of_nodup_map handled.apart htasks mem heq
  rw [hsame, acking] at hrunning
  cases hrunning

theorem Handled.next (handled : Handled events begun c) (change : Change c event c') :
    Handled (event :: events) (begun ++ c.begins c') c' := by
  cases hchange : change with
  | declared now => exact handled.idle rfl rfl rfl
  | undeclared now => exact handled.idle rfl rfl rfl
  | acquired now => exact handled.idle rfl rfl rfl
  | fetched now => exact handled.fetched _ _
  | unfetched now => exact handled.idle rfl rfl rfl
  | accepted mem running =>
      have shrinks := change.shrinks nofun
      rw [begins_eq_nil shrinks, List.append_nil]
      refine ⟨handled.numbered, ?_, handled.apart.sublist shrinks, ?_⟩
      · exact fun t ht => known_markAcking handled.known ht
      · exact handled.once_next mem running (running_markAcking _ _)
  | abandoned mem running =>
      have shrinks := change.shrinks nofun
      rw [begins_eq_nil shrinks, List.append_nil]
      refine ⟨handled.numbered, ?_, handled.apart.sublist shrinks, ?_⟩
      · exact fun t ht => handled.known t (List.mem_of_mem_filter ht)
      · exact handled.once_next mem running (running_drop _)
  | @acked task r mem acking =>
      have shrinks := change.shrinks nofun
      have hrunning : ((c.drop task.number).note r).running = c.running := by
        rw [Consumer.running, note_tasks, ← handled.running_acked mem acking]
        exact running_drop _
      rw [begins_eq_nil shrinks, List.append_nil]
      refine ⟨(note_started r).symm ▸ handled.numbered, ?_, handled.apart.sublist shrinks, ?_⟩
      · intro t ht
        rw [note_tasks] at ht
        exact handled.known t (List.mem_of_mem_filter ht)
      · rw [hrunning]
        exact handled.once
  | faulted fault reading => exact handled.idle rfl rfl rfl
  | shutdown reading => exact handled.idle rfl rfl rfl
  | drained now empty => exact handled.idle rfl rfl rfl

theorem Cause.later {ending : Ending} (cause : Cause events ending) :
    Cause (event :: events) ending := by
  cases ending with
  | shutdown => exact List.mem_cons_of_mem _ cause
  | failed e =>
      rcases cause with h | h | ⟨he, number, h⟩
      · exact Or.inl (List.mem_cons_of_mem _ h)
      · exact Or.inr (Or.inl (List.mem_cons_of_mem _ h))
      · exact Or.inr (Or.inr ⟨he, number, List.mem_cons_of_mem _ h⟩)

/-- The consumer itself goes on or stops, and no task is touched. -/
theorem Caused.turn (caused : Caused events c) (fault : c'.fault = c.fault)
    (undeclaring : c'.phase ≠ .declaring) (unstopped : ∀ ending, c'.phase ≠ .stopped ending)
    (stopping : ∀ ending, c'.phase = .stopping ending → Cause (event :: events) ending) :
    Caused (event :: events) c' where
  fresh now := absurd now undeclaring
  fault e h := (caused.fault e (fault ▸ h)).later
  stopping := stopping
  stopped ending now := absurd now (unstopped ending)

/-- Something happens to a task, so the consumer has not stopped. -/
theorem Caused.task (caused : Caused events c) {t : Task} (mem : t ∈ c.tasks)
    (phase : c'.phase = c.phase)
    (fault : ∀ e, c'.fault = some e → Cause (event :: events) (.failed e)) :
    Caused (event :: events) c' where
  fresh now := absurd (caused.fresh (phase ▸ now) ▸ mem) List.not_mem_nil
  fault := fault
  stopping ending now := (caused.stopping ending (phase ▸ now)).later
  stopped ending now := absurd ((caused.stopped ending (phase ▸ now)).2 ▸ mem) List.not_mem_nil

theorem Caused.next (caused : Caused events c) (change : Change c event c') :
    Caused (event :: events) c' := by
  have hstop : ∀ ending ending' : Ending, Cause (event :: events) ending →
      Phase.stopping ending = .stopping ending' → Cause (event :: events) ending' := by
    intro ending ending' cause heq
    exact Phase.stopping.inj heq ▸ cause
  cases change with
  | declared now => exact caused.turn rfl nofun nofun nofun
  | undeclared now =>
      refine ⟨nofun, fun e h => (caused.fault e h).later, nofun, ?_⟩
      intro ending heq
      obtain rfl := Phase.stopped.inj heq
      exact ⟨Or.inl List.mem_cons_self, caused.fresh now⟩
  | acquired now => exact caused.turn rfl nofun nofun nofun
  | fetched now => exact caused.turn rfl nofun nofun nofun
  | unfetched now =>
      exact caused.turn rfl nofun nofun fun ending =>
        hstop _ ending (Or.inr (Or.inl List.mem_cons_self))
  | accepted mem running =>
      exact caused.task mem rfl fun e h => (caused.fault e h).later
  | abandoned mem running =>
      exact caused.task mem rfl fun e h => (caused.fault e h).later
  | acked mem acking =>
      refine caused.task mem (note_phase _) ?_
      intro e h
      rcases note_fault h with hbefore | ⟨rfl, rfl⟩
      · exact (caused.fault e hbefore).later
      · exact Or.inr (Or.inr ⟨rfl, _, List.mem_cons_self⟩)
  | faulted fault reading =>
      exact caused.turn rfl nofun nofun fun ending => hstop _ ending (caused.fault _ fault).later
  | shutdown reading =>
      exact caused.turn rfl nofun nofun fun ending => hstop .shutdown ending List.mem_cons_self
  | drained now empty =>
      refine ⟨nofun, fun e h => (caused.fault e h).later, nofun, ?_⟩
      intro ending heq
      obtain rfl := Phase.stopped.inj heq
      exact ⟨(caused.stopping _ now).later, empty⟩

variable {may : Consumer → Event → Prop}

/-- What all the events keep. -/
theorem kept_of_runs (runs : Runs may prefetch events begun c) :
    Slots prefetch c ∧ Handled events begun c ∧ Caused events c := by
  induction runs with
  | start =>
      refine ⟨⟨rfl, Nat.zero_le _⟩, ⟨rfl, nofun, .nil, .nil⟩, ?_⟩
      exact ⟨fun _ => rfl, nofun, nofun, nofun⟩
  | next before allowed h ih =>
      obtain ⟨slots, handled, caused⟩ := ih
      have change := change_of_step h
      exact ⟨slots.next change, handled.next change, caused.next change⟩

/-- Every delivery of a fetch gets a task. -/
theorem delivered_of_runs (runs : Runs Fits prefetch events begun c) :
    begun.map (·.delivery) = fetched events := by
  induction runs with
  | start => rfl
  | @next events begun c c' event before allowed h ih =>
      obtain ⟨-, handled, -⟩ := kept_of_runs before
      rw [List.map_append, ih, fetched]
      refine congrArg _ ?_
      have change := change_of_step h
      cases event with
      | fetched r =>
          cases r with
          | ok deliveries =>
              cases change with
              | @fetched slots _ now =>
                  have fits : deliveries.length ≤ slots := allowed _ now
                  rw [begins_dispatch handled, List.take_of_length_le fits, deliveries_tasksFor]
                  rfl
          | error e =>
              rw [begins_eq_nil (change.shrinks nofun)]
              rfl
      | _ =>
          rw [begins_eq_nil (change.shrinks nofun)]
          rfl

/-- No handler ends twice, and none that runs has ended. -/
theorem nodup_of_runs (runs : Runs may prefetch events begun c) :
    (handled events ++ c.running.map (·.number)).Nodup := by
  obtain ⟨-, handled, -⟩ := kept_of_runs runs
  rw [handled.once.nodup_iff, handled.numbered]
  exact List.nodup_range

/-- The handler of a task that was begun runs or has ended, once. -/
theorem once_of_runs (runs : Runs may prefetch events begun c) {t : Task} (mem : t ∈ begun) :
    (handled events).count t.number + (c.running.map (·.number)).count t.number = 1 := by
  obtain ⟨-, handled, -⟩ := kept_of_runs runs
  rw [← List.count_append]
  refine List.count_eq_one_of_mem (nodup_of_runs runs) ?_
  exact handled.once.mem_iff.2 (List.mem_map_of_mem mem)

theorem running_subset (runs : Runs may prefetch events begun c) : c.running ⊆ begun := by
  obtain ⟨-, handled, -⟩ := kept_of_runs runs
  intro t ht
  obtain ⟨mem, hrunning⟩ := List.mem_filter.1 ht
  obtain ⟨number, delivery, acking⟩ := t
  obtain rfl : acking = false := by simpa using hrunning
  exact handled.known _ mem

end

/-- Whatever happens to a consumer, in whatever order: no more handlers run at any time than the
prefetch, or one, allows; the tasks that were begun are exactly the deliveries that fetches
returned, one for each, and the handler of each runs or has ended, once; and when the consumer has
stopped, no task is left, a shutdown was the cause if it ended well, and if it failed, the error
came from the declaration, from a fetch, or, being the loss of the connection, from an
acknowledgement. -/
theorem handlers_of_runs {prefetch : Nat} {events : List Event} {begun : List Task} {c : Consumer}
    (runs : Runs Fits prefetch events begun c) :
    c.running.length ≤ max prefetch 1 ∧
    begun.map (·.delivery) = fetched events ∧
    (begun.map (·.number)).Nodup ∧ c.running ⊆ begun ∧
    (∀ t ∈ begun,
      (handled events).count t.number + (c.running.map (·.number)).count t.number = 1) ∧
    ∀ ending, c.phase = .stopped ending → c.tasks = [] ∧
      match ending with
      | .shutdown => .shutdown ∈ events
      | .failed e => .declared (.error e) ∈ events ∨ .fetched (.error e) ∈ events ∨
          e = .reconnect ∧ ∃ number, .acked number (.error .reconnect) ∈ events := by
  obtain ⟨slots, handled, caused⟩ := kept_of_runs runs
  refine ⟨?_, delivered_of_runs runs, ?_, running_subset runs, fun t => once_of_runs runs, ?_⟩
  · have hrunning : c.running.length ≤ c.tasks.length := List.length_filter_le _ _
    have hroom := slots.room
    rw [slots.limit] at hroom
    omega
  · exact handled.numbered ▸ List.nodup_range
  · intro ending now
    obtain ⟨cause, empty⟩ := caused.stopped ending now
    refine ⟨empty, ?_⟩
    cases ending with
    | shutdown => exact cause
    | failed e => exact cause

namespace Sample

def first : Delivery := ⟨"1", "payments", .empty, false⟩

def second : Delivery := ⟨"2", "payments", .empty, true⟩

/-- Two deliveries at once, one of them acknowledged and one left when the consumer is shut down. -/
def events : List Event :=
  [.drained, .acked 0 (.ok ()), .handled 1 .abandon, .shutdown, .handled 0 .ack,
    .fetched (.ok [first, second]), .acquired, .declared (.ok ())]

def begun : List Task := [⟨0, first, false⟩, ⟨1, second, false⟩]

def consumer : Consumer := ⟨2, .stopped .shutdown, [], 2, none⟩

end Sample

open Sample in
theorem handlers_of_runs_two_deliveries : Runs Fits 2 events begun consumer ∧
    begun.map (·.delivery) = fetched events ∧ consumer.tasks = [] ∧ .shutdown ∈ events := by
  have declared : Runs Fits 2 [.declared (.ok ())] [] ⟨2, .acquiring, [], 0, none⟩ :=
    @Runs.next Fits 2 [] [] _ _ (.declared (.ok ())) .start trivial rfl
  have fetching : Runs Fits 2 [.acquired, .declared (.ok ())] [] ⟨2, .fetching 2, [], 0, none⟩ :=
    @Runs.next Fits 2 _ [] _ _ .acquired declared trivial rfl
  have dispatched : Runs Fits 2 [.fetched (.ok [first, second]), .acquired, .declared (.ok ())]
      begun ⟨2, .acquiring, begun, 2, none⟩ := by
    refine @Runs.next Fits 2 _ [] _ _ (.fetched (.ok [first, second])) fetching ?_ rfl
    intro slots now
    exact Nat.le_of_eq (Phase.fetching.inj now)
  have handled := @Runs.next Fits 2 _ begun _ _ (.handled 0 .ack) dispatched trivial rfl
  have stopping := @Runs.next Fits 2 _ begun _ _ .shutdown handled trivial rfl
  have abandoned := @Runs.next Fits 2 _ begun _ _ (.handled 1 .abandon) stopping trivial rfl
  have acked := @Runs.next Fits 2 _ begun _ _ (.acked 0 (.ok ())) abandoned trivial rfl
  have runs : Runs Fits 2 events begun consumer :=
    @Runs.next Fits 2 _ begun _ _ .drained acked trivial rfl
  obtain ⟨-, delivered, -, -, -, ended⟩ := handlers_of_runs runs
  exact ⟨runs, delivered, ended .shutdown rfl⟩

end Settlement.Consumer
