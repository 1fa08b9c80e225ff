import Settlement.Proofs.Queue.Stream.Moves

/-!
# The supervisor of a consumer

`Runs reader prefetch delay requested log s` says that a supervisor has come to `s` by what `log`
lists, latest first. Connections are made or fail, the server replies, handlers end, and a shutdown
is asked for, in any order and at any instant. `Change` lists what an event does.

A supervisor that has ended well was asked to shut down (`told_of_runs`, `requested_of_runs`), and
one that failed did so on an error that no new connection clears up (`failed_of_runs`). Between two
connections there is a pause, in which nothing is sent and no task begins (`waits_of_fails`).
-/

namespace Settlement.Supervisor

/-- Something that happened to a supervisor, what was sent for it, and what came of it. Some entries
were pending for the consumer then, and some of their ids were lost before the next thing happened,
by other means than an acknowledgement that was sent. -/
structure Passage where
  before : Supervisor
  now : Instant
  event : Event
  sent : List Dispatch
  after : Supervisor
  pending : List Queue.Stream.Entry
  lost : List String

namespace Passage

/-- The tasks that were begun. -/
def begun (p : Passage) : List Task :=
  match p.before.doing, p.after.doing with
  | .consuming s, .consuming s' => s.consumer.begins s'.consumer
  | _, .consuming s' => s'.consumer.tasks
  | _, _ => []

/-- The ids that were sent to be acknowledged. -/
def acknowledged (p : Passage) : List String := p.sent.flatMap (·.command.acknowledged)

/-- A connection could not be made, or consuming came to its end with a failure. -/
inductive Fails (p : Passage) (e : QueueError) : Prop
  | connecting (event : p.event = .connected (.error e))
  | consuming {s s' : StreamConsumer} {within : StreamConsumer.Event} {sent : List Dispatch}
      (doing : p.before.doing = .consuming s) (event : p.event = .consumer within)
      (h : s.step p.now within = some (s', sent)) (finished : s'.ending? = some (.failed e))

end Passage

/-- How a supervisor has come to be what it is. -/
inductive Runs (reader : StreamReader) (prefetch : Nat) (delay : Duration) (requested : Bool) :
    List Passage → Supervisor → Prop
  | start : Runs reader prefetch delay requested [] (start reader prefetch delay requested)
  | next {log : List Passage} {s s' : Supervisor} {event : Event} {sent : List Dispatch}
      (now : Instant) (before : Runs reader prefetch delay requested log s)
      (h : s.step now event = some (s', sent)) (pending : List Queue.Stream.Entry)
      (lost : List String) :
      Runs reader prefetch delay requested (⟨s, now, event, sent, s', pending, lost⟩ :: log) s'

/-- What an event does. -/
inductive Change (s : Supervisor) (now : Instant) : Event → Supervisor → List Dispatch → Prop
  | connects (doing : s.doing = .connecting) :
      Change s now (.connected (.ok ()))
        { s with doing := .consuming (StreamConsumer.start s.reader s.prefetch).1 }
        (StreamConsumer.start s.reader s.prefetch).2
  | fails {e : QueueError} (doing : s.doing = .connecting) :
      Change s now (.connected (.error e)) (s.after now (.error e)) []
  | consumes {c c' : StreamConsumer} {event : StreamConsumer.Event} {sent : List Dispatch}
      (doing : s.doing = .consuming c) (told : event = .shutdown → s.shutdown = true)
      (h : c.step now event = some (c', sent)) (goes : c'.ending? = none) :
      Change s now (.consumer event) { s with doing := .consuming c' } sent
  | ends {c c' : StreamConsumer} {event : StreamConsumer.Event} {sent : List Dispatch}
      {ending : Consumer.Ending} (doing : s.doing = .consuming c)
      (told : event = .shutdown → s.shutdown = true) (h : c.step now event = some (c', sent))
      (finished : c'.ending? = some ending) :
      Change s now (.consumer event) (s.after now (resultOf ending)) sent
  | told (awake : ∀ instant, s.doing ≠ .pausing instant) :
      Change s now .shutdown { s with shutdown := true } []
  | wakes {instant : Instant} (doing : s.doing = .pausing instant) :
      Change s now .shutdown { s with shutdown := true, doing := .stopped (.ok ()) } []
  | resumes {instant : Instant} (doing : s.doing = .pausing instant) (late : instant ≤ now) :
      Change s now .pauseOver s.connectOrStop []

section

variable {reader : StreamReader} {prefetch : Nat} {delay : Duration} {requested : Bool}
  {log earlier : List Passage} {s s' : Supervisor} {now : Instant} {event : Event}
  {sent : List Dispatch} {p q : Passage} {e : QueueError}

theorem change_of_consume {c : StreamConsumer} {event : StreamConsumer.Event}
    (doing : s.doing = .consuming c) (told : event = .shutdown → s.shutdown = true)
    (h : s.consume now c event = some (s', sent)) : Change s now (.consumer event) s' sent := by
  simp only [consume, Option.bind_eq_bind, Option.bind_eq_some_iff] at h
  obtain ⟨⟨c', sent'⟩, hstep, h⟩ := h
  split at h
  next ending finished =>
    obtain ⟨rfl, rfl⟩ := Prod.mk.inj (Option.some.inj h)
    exact .ends doing told hstep finished
  next goes =>
    obtain ⟨rfl, rfl⟩ := Prod.mk.inj (Option.some.inj h)
    exact .consumes doing told hstep goes

/-- Whatever happens, it is one of these changes. -/
theorem change_of_step (h : s.step now event = some (s', sent)) : Change s now event s' sent := by
  cases event with
  | connected r =>
      simp only [step] at h
      split at h
      next doing =>
        obtain ⟨rfl, rfl⟩ := Prod.mk.inj (Option.some.inj h)
        exact .connects doing
      next doing =>
        obtain ⟨rfl, rfl⟩ := Prod.mk.inj (Option.some.inj h)
        exact .fails doing
      next => cases h
  | consumer event =>
      simp only [step] at h
      split at h
      next doing =>
        split_ifs at h with told
        exact change_of_consume doing (fun _ => told) h
      next doing hne => exact change_of_consume doing (fun heq => (hne heq).elim) h
      next => cases h
  | shutdown =>
      simp only [step] at h
      split at h
      next doing =>
        obtain ⟨rfl, rfl⟩ := Prod.mk.inj (Option.some.inj h)
        exact .wakes doing
      next awake =>
        obtain ⟨rfl, rfl⟩ := Prod.mk.inj (Option.some.inj h)
        exact .told awake
  | pauseOver =>
      simp only [step] at h
      split at h
      next doing =>
        split_ifs at h with late
        obtain ⟨rfl, rfl⟩ := Prod.mk.inj (Option.some.inj h)
        exact .resumes doing late
      next => cases h

/-! ## When consuming is over -/

/-- The loss of a connection is followed by a pause, any other failure by nothing. -/
theorem doing_after_error (e : QueueError) : (s.after now (.error e)).doing =
    if e = .reconnect then
      if s.shutdown then .stopped (.ok ()) else .pausing (now + s.reconnectDelay.nanos)
    else .stopped (.error e) := by
  cases e with
  | reconnect => exact apply_ite doing _ _ _
  | broker reason => rfl

theorem after_eq (r : Except QueueError Unit) :
    s.after now r = { s with doing := (s.after now r).doing } := by
  rcases r with (_ | reason) | ⟨⟩
  · unfold after
    by_cases told : s.shutdown = true <;> simp [told]
  · rfl
  · rfl

theorem after_ne_consuming (r : Except QueueError Unit) (c : StreamConsumer) :
    (s.after now r).doing ≠ .consuming c := by
  cases r with
  | ok => nofun
  | error e =>
      rw [doing_after_error]
      split_ifs <;> nofun

theorem after_error_stopped {e' : QueueError} {r : Except QueueError Unit}
    (h : (s.after now (.error e')).doing = .stopped r) :
    r = .ok () ∧ s.shutdown = true ∨ r = .error e' ∧ e' ≠ .reconnect := by
  rw [doing_after_error] at h
  split_ifs at h with reconnect told
  · exact Or.inl ⟨(Supervision.stopped.inj h).symm, told⟩
  · exact Or.inr ⟨(Supervision.stopped.inj h).symm, reconnect⟩

theorem connectOrStop_stopped {r : Except QueueError Unit}
    (h : s.connectOrStop.doing = .stopped r) : r = .ok () ∧ s.shutdown = true := by
  unfold connectOrStop at h
  dsimp only at h
  split_ifs at h with told
  exact ⟨(Supervision.stopped.inj h).symm, told⟩

theorem connectOrStop_ne_consuming (c : StreamConsumer) : s.connectOrStop.doing ≠ .consuming c := by
  unfold connectOrStop
  split_ifs <;> nofun

/-- Only what is being done changes, and whether a shutdown was asked for. -/
theorem eq_of_change (change : Change s now event s' sent) :
    s' = { s with shutdown := s'.shutdown, doing := s'.doing } ∧
      (s'.shutdown = true → s.shutdown = true ∨ event = .shutdown) := by
  cases change with
  | fails =>
      rw [after_eq]
      exact ⟨rfl, Or.inl⟩
  | ends =>
      rw [after_eq]
      exact ⟨rfl, Or.inl⟩
  | told => exact ⟨rfl, fun _ => Or.inr rfl⟩
  | wakes => exact ⟨rfl, fun _ => Or.inr rfl⟩
  | _ => exact ⟨rfl, Or.inl⟩

theorem settings_of_runs (runs : Runs reader prefetch delay requested log s) :
    s.reader = reader ∧ s.prefetch = prefetch ∧ s.reconnectDelay = delay := by
  induction runs with
  | start => exact ⟨rfl, rfl, rfl⟩
  | next now before h pending lost ih =>
      rw [(eq_of_change (change_of_step h)).1]
      exact ih

/-- A shutdown was asked for before the start or later. -/
theorem requested_of_runs (runs : Runs reader prefetch delay requested log s)
    (told : s.shutdown = true) : requested = true ∨ ∃ p ∈ log, p.event = .shutdown := by
  induction runs with
  | start => exact Or.inl told
  | next now before h pending lost ih =>
      rcases (eq_of_change (change_of_step h)).2 told with earlier | heq
      · refine (ih earlier).imp_right ?_
        rintro ⟨p, mem, hp⟩
        exact ⟨p, List.mem_cons_of_mem _ mem, hp⟩
      · exact Or.inr ⟨_, List.mem_cons_self, heq⟩

/-! ## How it ends -/

/-- A consumer stops on a shutdown only when one was asked for. -/
theorem told_of_stops (runs : Runs reader prefetch delay requested log s) {c : StreamConsumer}
    (doing : s.doing = .consuming c) (stops : c.Stops .shutdown) : s.shutdown = true := by
  induction runs generalizing c with
  | start => exact absurd doing (connectOrStop_ne_consuming c)
  | next now before h pending lost ih =>
      cases change_of_step h with
      | connects =>
          obtain rfl := Supervision.consuming.inj doing
          rcases stops with h | h <;> cases h
      | fails => exact absurd doing (after_ne_consuming _ c)
      | consumes busy told hstep =>
          obtain rfl := Supervision.consuming.inj doing
          exact (StreamConsumer.shutdown_of_step hstep stops).elim told (ih busy)
      | ends => exact absurd doing (after_ne_consuming _ c)
      | told => rfl
      | wakes => cases doing
      | resumes => exact absurd doing (connectOrStop_ne_consuming c)

/-- A supervisor that has ended well was told to shut down. -/
theorem told_of_runs (runs : Runs reader prefetch delay requested log s)
    (doing : s.doing = .stopped (.ok ())) : s.shutdown = true := by
  induction runs with
  | start => exact (connectOrStop_stopped doing).2
  | @next log s s' event sent now before hstep pending lost ih =>
      cases change_of_step hstep with
      | connects => cases doing
      | fails =>
          rcases after_error_stopped doing with ⟨-, told⟩ | ⟨h, -⟩
          · rw [after_eq]
            exact told
          · cases h
      | consumes => cases doing
      | @ends c c' within _ ending busy asked step finished =>
          rw [after_eq]
          cases ending with
          | shutdown =>
              have stops : c'.Stops .shutdown := Or.inr (StreamConsumer.phase_of_ending finished)
              exact (StreamConsumer.shutdown_of_step step stops).elim asked
                (told_of_stops before busy)
          | failed e =>
              rcases after_error_stopped doing with ⟨-, told⟩ | ⟨h, -⟩
              · exact told
              · cases h
      | told => rfl
      | wakes => rfl
      | resumes => exact (connectOrStop_stopped doing).2

/-- A supervisor that failed did so on an error that no new connection clears up. -/
theorem failed_of_runs (runs : Runs reader prefetch delay requested log s)
    (doing : s.doing = .stopped (.error e)) : e ≠ .reconnect ∧ ∃ p ∈ log, p.Fails e := by
  induction runs with
  | start => cases (connectOrStop_stopped doing).1
  | @next log s s' event sent now before hstep pending lost ih =>
      cases change_of_step hstep with
      | connects => cases doing
      | fails =>
          rcases after_error_stopped doing with ⟨h, -⟩ | ⟨h, hne⟩
          · cases h
          · obtain rfl := Except.error.inj h
            exact ⟨hne, _, List.mem_cons_self, .connecting rfl⟩
      | consumes => cases doing
      | @ends c c' within _ ending busy asked step finished =>
          cases ending with
          | shutdown => cases doing
          | failed e' =>
              rcases after_error_stopped doing with ⟨h, -⟩ | ⟨h, hne⟩
              · cases h
              · obtain rfl := Except.error.inj h
                exact ⟨hne, _, List.mem_cons_self, .consuming busy rfl step finished⟩
      | told =>
          obtain ⟨hne, p, mem, fails⟩ := ih doing
          exact ⟨hne, p, List.mem_cons_of_mem _ mem, fails⟩
      | wakes => cases doing
      | resumes => cases (connectOrStop_stopped doing).1

theorem exists_of_suffix (runs : Runs reader prefetch delay requested log s)
    (h : earlier <:+ log) : ∃ s', Runs reader prefetch delay requested earlier s' := by
  induction runs with
  | start =>
      obtain rfl := List.suffix_nil.1 h
      exact ⟨_, .start⟩
  | next now before hstep pending lost ih =>
      rcases List.suffix_cons_iff.1 h with rfl | later
      · exact ⟨_, before.next now hstep pending lost⟩
      · exact ih later

theorem runs_of_suffix (runs : Runs reader prefetch delay requested log s)
    (h : p :: earlier <:+ log) : Runs reader prefetch delay requested earlier p.before ∧
      p.before.step p.now p.event = some (p.after, p.sent) := by
  obtain ⟨s', run⟩ := exists_of_suffix runs h
  cases run with
  | next now before hstep pending lost => exact ⟨before, hstep⟩

/-- The next thing happens to what has come of the one before. -/
theorem before_eq_after (runs : Runs reader prefetch delay requested log s)
    (h : q :: p :: earlier <:+ log) : q.before = p.after := by
  have before := (runs_of_suffix runs h).1
  generalize q.before = s' at before
  cases before
  rfl

theorem after_of_fails (step : p.before.step p.now p.event = some (p.after, p.sent))
    (fails : p.Fails e) : p.after = p.before.after p.now (.error e) := by
  have change := change_of_step step
  generalize p.after = s' at change ⊢
  generalize p.sent = sent at change
  cases fails with
  | connecting event =>
      rw [event] at change
      cases change
      rfl
  | consuming doing event h finished =>
      rw [event] at change
      cases change with
      | consumes busy told h' goes =>
          obtain rfl := Supervision.consuming.inj (doing.symm.trans busy)
          obtain ⟨rfl, -⟩ := Prod.mk.inj (Option.some.inj (h.symm.trans h'))
          rw [goes] at finished
          cases finished
      | ends busy told h' finished' =>
          obtain rfl := Supervision.consuming.inj (doing.symm.trans busy)
          obtain ⟨rfl, -⟩ := Prod.mk.inj (Option.some.inj (h.symm.trans h'))
          obtain rfl := Option.some.inj (finished.symm.trans finished')
          rfl

/-- A lost connection is followed by a pause, or by the end when a shutdown was asked for. -/
theorem pauses_of_fails (runs : Runs reader prefetch delay requested log s)
    (h : p :: earlier <:+ log) (fails : p.Fails .reconnect) :
    p.after.shutdown = p.before.shutdown ∧ p.after.doing =
      if p.before.shutdown then .stopped (.ok ()) else .pausing (p.now + delay.nanos) := by
  obtain ⟨before, step⟩ := runs_of_suffix runs h
  obtain ⟨-, -, rfl⟩ := settings_of_runs before
  rw [after_of_fails step fails]
  refine ⟨by rw [after_eq], ?_⟩
  rw [doing_after_error, if_pos rfl]

theorem Change.of_pausing {instant : Instant} (change : Change s now event s' sent)
    (doing : s.doing = .pausing instant) : sent = [] ∧
      (event = .shutdown ∧ s'.doing = .stopped (.ok ()) ∨
        event = .pauseOver ∧ instant ≤ now ∧ s' = s.connectOrStop) := by
  cases change with
  | connects idle => cases doing.symm.trans idle
  | fails idle => cases doing.symm.trans idle
  | consumes busy => cases doing.symm.trans busy
  | ends busy => cases doing.symm.trans busy
  | told awake => exact absurd doing (awake instant)
  | wakes => exact ⟨rfl, Or.inl ⟨rfl, rfl⟩⟩
  | resumes paused late =>
      obtain rfl := Supervision.pausing.inj (doing.symm.trans paused)
      exact ⟨rfl, Or.inr ⟨rfl, late, rfl⟩⟩

theorem Change.of_stopped {r : Except QueueError Unit} (change : Change s now event s' sent)
    (doing : s.doing = .stopped r) : sent = [] ∧ event = .shutdown ∧ s'.doing = .stopped r := by
  cases change with
  | connects idle => cases doing.symm.trans idle
  | fails idle => cases doing.symm.trans idle
  | consumes busy => cases doing.symm.trans busy
  | ends busy => cases doing.symm.trans busy
  | told awake => exact ⟨rfl, rfl, doing⟩
  | wakes paused => cases doing.symm.trans paused
  | resumes paused => cases doing.symm.trans paused

theorem begun_of_idle (idle : ∀ c, p.after.doing ≠ .consuming c) : p.begun = [] := by
  unfold Passage.begun
  split
  next now => exact absurd now (idle _)
  next now hne => exact absurd now (idle _)
  next => rfl

/-- In a pause nothing happens but that it ends. -/
theorem waits_of_fails (runs : Runs reader prefetch delay requested log s)
    (h : q :: p :: earlier <:+ log) (fails : p.Fails .reconnect) :
    q.sent = [] ∧ q.begun = [] ∧
      (q.event = .shutdown ∧ q.after.doing = .stopped (.ok ()) ∨
        q.event = .pauseOver ∧ p.now + delay.nanos ≤ q.now ∧ q.after.doing = .connecting) := by
  have hp : p :: earlier <:+ log := (List.suffix_cons q _).trans h
  obtain ⟨same, doing⟩ := pauses_of_fails runs hp fails
  have change := change_of_step (runs_of_suffix runs h).2
  rw [← before_eq_after runs h] at same doing
  split_ifs at doing with told
  · obtain ⟨hsent, hevent, hafter⟩ := change.of_stopped doing
    refine ⟨hsent, begun_of_idle ?_, Or.inl ⟨hevent, hafter⟩⟩
    rw [hafter]
    exact nofun
  · obtain ⟨hsent, ⟨hevent, hafter⟩ | ⟨hevent, late, hafter⟩⟩ := change.of_pausing doing
    · refine ⟨hsent, begun_of_idle ?_, Or.inl ⟨hevent, hafter⟩⟩
      rw [hafter]
      exact nofun
    · have connecting : q.after.doing = .connecting := by
        rw [hafter, connectOrStop, same, if_neg told]
      refine ⟨hsent, begun_of_idle ?_, Or.inr ⟨hevent, late, connecting⟩⟩
      rw [connecting]
      exact nofun

end

end Settlement.Supervisor
