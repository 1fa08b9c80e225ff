import Settlement.Queue.Consumer

/-!
# What happens to a consumer

`Change` lists what an event does to a consumer, with what must be so for the event to happen.
`Runs may prefetch events begun c` says that a consumer has come to `c` by the events, latest first,
and has begun the tasks on its way. Nothing is said of the order of the events: fetches, the ends of
tasks, acknowledgements, a fault and a shutdown come as they come, as long as they `may`. `Fits` is
what a broker has to obey, and `Any` asks nothing.
-/

namespace Settlement.Consumer

/-- The consumer still goes on to fetch. -/
def Reading (c : Consumer) : Prop := c.phase = .acquiring ∨ ∃ slots, c.phase = .fetching slots

/-- What an event does. -/
inductive Change (c : Consumer) : Event → Consumer → Prop
  | declared (now : c.phase = .declaring) :
      Change c (.declared (.ok ())) { c with phase := .acquiring }
  | undeclared {e : QueueError} (now : c.phase = .declaring) :
      Change c (.declared (.error e)) { c with phase := .stopped (.failed e) }
  | acquired (now : c.phase = .acquiring) :
      Change c .acquired { c with phase := .fetching c.free }
  | fetched {slots : Nat} {deliveries : List Delivery} (now : c.phase = .fetching slots) :
      Change c (.fetched (.ok deliveries)) (c.dispatch slots deliveries)
  | unfetched {slots : Nat} {e : QueueError} (now : c.phase = .fetching slots) :
      Change c (.fetched (.error e)) { c with phase := .stopping (.failed e) }
  | accepted {task : Task} (mem : task ∈ c.tasks) (running : task.acking = false) :
      Change c (.handled task.number .ack)
        { c with tasks := c.tasks.map (markAcking task.number) }
  | abandoned {task : Task} (mem : task ∈ c.tasks) (running : task.acking = false) :
      Change c (.handled task.number .abandon) (c.drop task.number)
  | acked {task : Task} {r : Except QueueError Unit} (mem : task ∈ c.tasks)
      (acking : task.acking = true) : Change c (.acked task.number r) ((c.drop task.number).note r)
  | faulted {e : QueueError} (fault : c.fault = some e) (reading : c.Reading) :
      Change c .faulted { c with phase := .stopping (.failed e) }
  | shutdown (reading : c.Reading) : Change c .shutdown { c with phase := .stopping .shutdown }
  | drained {ending : Ending} (now : c.phase = .stopping ending) (empty : c.tasks = []) :
      Change c .drained { c with phase := .stopped ending }

section

variable {c c' : Consumer} {event : Event}

theorem mem_of_task? {number : Nat} {task : Task} (h : c.task? number = some task) :
    task ∈ c.tasks ∧ task.number = number :=
  ⟨List.mem_of_find?_eq_some h, by simpa using List.find?_some h⟩

theorem reading_of_stop {ending : Ending} (h : c.stop ending = some c') :
    c.Reading ∧ c' = { c with phase := .stopping ending } := by
  unfold stop at h
  split at h
  next now => exact ⟨Or.inl now, (Option.some.inj h).symm⟩
  next slots now => exact ⟨Or.inr ⟨slots, now⟩, (Option.some.inj h).symm⟩
  next => cases h

theorem change_of_handled {number : Nat} {disposition : Disposition}
    (h : c.step (.handled number disposition) = some c') :
    Change c (.handled number disposition) c' := by
  simp only [step] at h
  split at h
  next task found =>
    obtain ⟨mem, rfl⟩ := mem_of_task? found
    split at h
    next => cases h
    next running =>
      cases disposition with
      | ack => exact Option.some.inj h ▸ .accepted mem (Bool.eq_false_iff.2 running)
      | abandon => exact Option.some.inj h ▸ .abandoned mem (Bool.eq_false_iff.2 running)
  next => cases h

theorem change_of_acked {number : Nat} {r : Except QueueError Unit}
    (h : c.step (.acked number r) = some c') : Change c (.acked number r) c' := by
  simp only [step] at h
  split at h
  next task found =>
    obtain ⟨mem, rfl⟩ := mem_of_task? found
    split at h
    next acking => exact Option.some.inj h ▸ .acked mem acking
    next => cases h
  next => cases h

/-- Whatever happens, it is one of these changes. -/
theorem change_of_step (h : c.step event = some c') : Change c event c' := by
  cases event with
  | declared r =>
      simp only [step] at h
      split at h
      next now => exact Option.some.inj h ▸ .declared now
      next now => exact Option.some.inj h ▸ .undeclared now
      next => cases h
  | acquired =>
      simp only [step] at h
      split at h
      next now =>
        split at h
        next => exact Option.some.inj h ▸ .acquired now
        next => cases h
      next => cases h
  | fetched r =>
      simp only [step] at h
      split at h
      next now => exact Option.some.inj h ▸ .fetched now
      next now => exact Option.some.inj h ▸ .unfetched now
      next => cases h
  | handled number disposition => exact change_of_handled h
  | acked number r => exact change_of_acked h
  | faulted =>
      simp only [step] at h
      split at h
      next fault =>
        obtain ⟨reading, rfl⟩ := reading_of_stop h
        exact .faulted fault reading
      next => cases h
  | shutdown =>
      obtain ⟨reading, rfl⟩ := reading_of_stop h
      exact .shutdown reading
  | drained =>
      simp only [step] at h
      split at h
      next now empty => exact Option.some.inj h ▸ .drained now empty
      next => cases h

@[simp] theorem note_limit (r : Except QueueError Unit) : (c.note r).limit = c.limit := by
  unfold note
  split <;> rfl

@[simp] theorem note_phase (r : Except QueueError Unit) : (c.note r).phase = c.phase := by
  unfold note
  split <;> rfl

@[simp] theorem note_tasks (r : Except QueueError Unit) : (c.note r).tasks = c.tasks := by
  unfold note
  split <;> rfl

@[simp] theorem note_started (r : Except QueueError Unit) : (c.note r).started = c.started := by
  unfold note
  split <;> rfl

theorem note_fault {r : Except QueueError Unit} {e : QueueError} (h : (c.note r).fault = some e) :
    c.fault = some e ∨ e = .reconnect ∧ r = .error .reconnect := by
  unfold note at h
  split at h
  next =>
    cases hfault : c.fault with
    | none => simp_all
    | some e' => simp_all
  next => exact Or.inl h

end

/-- A fetch returns at most as many messages as the consumer has slots for. -/
def Fits (c : Consumer) : Event → Prop
  | .fetched (.ok deliveries) => ∀ slots, c.phase = .fetching slots → deliveries.length ≤ slots
  | _ => True

/-- The tasks of a consumer that it did not have before. -/
def begins (c c' : Consumer) : List Task := c'.tasks.filter fun t => (c.task? t.number).isNone

/-- Nothing is asked of the events. -/
def Any (_ : Consumer) (_ : Event) : Prop := True

/-- How a consumer has come to be what it is: by these events, latest first, and with these tasks
begun. -/
inductive Runs (may : Consumer → Event → Prop) (prefetch : Nat) :
    List Event → List Task → Consumer → Prop
  | start : Runs may prefetch [] [] (start prefetch)
  | next {events : List Event} {begun : List Task} {c c' : Consumer} {event : Event}
      (before : Runs may prefetch events begun c) (allowed : may c event)
      (h : c.step event = some c') : Runs may prefetch (event :: events) (begun ++ c.begins c') c'

end Settlement.Consumer
