import Settlement.Proofs.Queue.Stream.Acknowledged
import Settlement.Proofs.Queue.Stream.Replay

/-!
# What happens to a consumer of a stream

`Move` lists what an event does to a consumer of a stream, with what is sent for it and what may be
acknowledged by it. From this it follows that a consumer that stops on a shutdown was shut down
(`shutdown_of_step`), and that a consumer that starts on a new connection reads what is pending for
it from the start before it reads anything else (`Opens.next`).
-/

namespace Settlement.StreamConsumer

open Queue.Stream
open Queue.Stream.Replay (Sound)
open Redis (Command Reply)

/-- The commands that the fetches have sent, latest first. -/
def fetches (log : List Passage) : List Command :=
  ((log.flatMap (·.sent)).filter (·.errand = .fetch)).map (·.command)

/-- The command reads what has not been pending for the consumer: entries of others, or new ones. -/
def ReadsBeyond : Command → Prop
  | .takeOver _ _ _ _ _ _ => True
  | .readNew _ _ _ _ _ => True
  | _ => False

/-- The fetch fails at its next turn. -/
def Fails (reader : StreamReader) (f : Fetch) : Prop :=
  ∀ max block now, ∃ e position, reader.fetchTurn max block now f = .done ⟨.error e, position⟩

/-- The ids of the entries that have a task. -/
def ids (s : StreamConsumer) : List String := s.consumer.tasks.map (·.delivery.id)

/-- The consumer stops, or has stopped, in this way. -/
def Stops (s : StreamConsumer) (ending : Consumer.Ending) : Prop :=
  s.consumer.phase = .stopping ending ∨ s.consumer.phase = .stopped ending

/-- The first read of the fetches is one of the pending entries from the start. -/
def Opens (log : List Passage) (s : StreamConsumer) : Prop :=
  fetches log = [] ∧ s.pending = none ∧ s.position = .start ∨
    ∃ count, 0 < count ∧ (fetches log).getLast? = some
      (.readPending s.reader.queue s.reader.group s.reader.consumer replayStart count)

/-- What happens to a consumer: its tasks go on while its fetch waits, it declares its queue, it
stops fetching, it comes to its end, or its fetch takes a turn. -/
inductive Move (s : StreamConsumer) (now : Instant) :
    Event → StreamConsumer → List Dispatch → Prop
  | tends {event : Event} {consumer : Consumer} {sent : List Dispatch}
      (phase : consumer.phase = s.consumer.phase)
      (tasks : consumer.tasks.map (·.delivery.id) ⊆ s.ids)
      (idle : ∀ dispatch ∈ sent, dispatch.errand ≠ .fetch ∧ ¬ ReadsBeyond dispatch.command)
      (known : sent.flatMap (·.command.acknowledged) ⊆ s.ids) :
      Move s now event { s with consumer } sent
  | declares {event : Event} (phase : s.consumer.phase = .declaring) :
      Move s now event { s with consumer := { s.consumer with phase := .acquiring } } []
  | stops {event : Event} {ending : Consumer.Ending}
      (told : ending = .shutdown → event = .shutdown) :
      Move s now event
        { s with consumer := { s.consumer with phase := .stopping ending }, pending := none } []
  | ends {event : Event} {ending : Consumer.Ending}
      (phase : s.consumer.phase = .stopping ending ∨
        s.consumer.phase = .declaring ∧ ending ≠ .shutdown) :
      Move s now event { s with consumer := { s.consumer with phase := .stopped ending } } []
  | acquired {s' : StreamConsumer} {sent : List Dispatch} (phase : s.consumer.phase = .acquiring)
      (free : 0 < s.consumer.free)
      (turn : { s with consumer := { s.consumer with phase := .fetching s.consumer.free } }.advance
        now ⟨s.position, .choosing⟩ = some (s', sent)) : Move s now .acquired s' sent
  | answered {r : Redis.Result} {resume : Redis.Result → Fetch} {s' : StreamConsumer}
      {sent : List Dispatch} (waits : s.pending = some resume)
      (turn : s.advance now (resume r) = some (s', sent)) : Move s now (.answered r) s' sent

section

variable {s s' : StreamConsumer} {now : Instant} {event : Event} {sent : List Dispatch} {f : Fetch}
  {log : List Passage} {passage : Passage}

theorem phase_of_slots (positive : 0 < s.slots) : s.consumer.phase = .fetching s.slots := by
  unfold slots at positive ⊢
  split at positive
  next phase => rw [phase]
  next => cases positive

theorem ids_drop_subset (number : Nat) :
    (s.consumer.drop number).tasks.map (·.delivery.id) ⊆ s.ids :=
  (List.filter_sublist.map _).subset

theorem move_of_declared {r : Redis.Result} (h : s.step now (.declared r) = some (s', sent)) :
    Move s now (.declared r) s' sent := by
  obtain ⟨consumer, hstep, rfl, rfl⟩ := quietly_eq_some h
  have change := Consumer.change_of_step hstep
  generalize declared r = reply at change
  cases change with
  | declared phase => exact .declares phase
  | undeclared phase => exact .ends (Or.inr ⟨phase, nofun⟩)

theorem move_of_handled {number : Nat} {outcome : Outcome}
    (h : s.step now (.handled number outcome) = some (s', sent)) :
    Move s now (.handled number outcome) s' sent := by
  simp only [step, Option.bind_eq_bind, Option.bind_eq_some_iff] at h
  obtain ⟨task, found, ⟨next, sent'⟩, hquiet, heq⟩ := h
  obtain ⟨rfl, rfl⟩ := Prod.mk.inj (Option.some.inj heq)
  obtain ⟨consumer, hstep, rfl, -⟩ := quietly_eq_some hquiet
  have known : task.delivery.id ∈ s.ids :=
    List.mem_map.2 ⟨task, (Consumer.mem_of_task? found).1, rfl⟩
  have tasks : consumer.phase = s.consumer.phase ∧
      consumer.tasks.map (·.delivery.id) ⊆ s.ids := by
    have change := Consumer.change_of_step hstep
    generalize outcome.disposition = disposition at change
    cases change with
    | accepted mem running =>
        refine ⟨rfl, fun id hid => ?_⟩
        obtain ⟨_, marked, rfl⟩ := List.mem_map.1 hid
        obtain ⟨t, mem, rfl⟩ := List.mem_map.1 marked
        refine List.mem_map.2 ⟨t, mem, ?_⟩
        unfold Consumer.markAcking
        split <;> rfl
    | abandoned mem running => exact ⟨rfl, ids_drop_subset _⟩
  refine .tends tasks.1 tasks.2 ?_ ?_
  · unfold commandsFor
    cases outcome.disposition with
    | ack =>
        intro dispatch mem
        obtain rfl := List.mem_singleton.1 mem
        exact ⟨fun fetches => (by cases fetches), id⟩
    | abandon => exact List.forall_mem_nil _
  · unfold commandsFor
    cases outcome.disposition with
    | ack => exact fun id mem => List.mem_singleton.1 mem ▸ known
    | abandon => exact List.nil_subset _

theorem move_of_acked {number : Nat} {r : Redis.Result}
    (h : s.step now (.acked number r) = some (s', sent)) :
    Move s now (.acked number r) s' sent := by
  obtain ⟨consumer, hstep, rfl, rfl⟩ := quietly_eq_some h
  cases Consumer.change_of_step hstep with
  | acked mem acking =>
      refine .tends (Consumer.note_phase _) ?_ nofun nofun
      rw [Consumer.note_tasks]
      exact ids_drop_subset _

theorem move_of_stopping {e : Consumer.Event} (h : s.stopping e = some (s', sent))
    (stops : ∀ c, s.consumer.step e = some c → ∃ ending,
      c = { s.consumer with phase := .stopping ending } ∧
        (ending = .shutdown → event = .shutdown)) : Move s now event s' sent := by
  obtain ⟨consumer, hstep, rfl, rfl⟩ := stopping_eq_some h
  obtain ⟨ending, rfl, told⟩ := stops consumer hstep
  exact .stops told

/-- Whatever happens, it is one of these moves. -/
theorem move_of_step (h : s.step now event = some (s', sent)) : Move s now event s' sent := by
  cases event with
  | declared r => exact move_of_declared h
  | acquired =>
      simp only [step, Option.bind_eq_bind, Option.bind_eq_some_iff] at h
      obtain ⟨⟨next, sent'⟩, hquiet, turn⟩ := h
      obtain ⟨consumer, hstep, rfl, -⟩ := quietly_eq_some hquiet
      simp only [Consumer.step] at hstep
      split at hstep
      next phase =>
        split_ifs at hstep with free
        obtain rfl := Option.some.inj hstep
        exact .acquired phase free turn
      next => cases hstep
  | answered r =>
      simp only [step, Option.bind_eq_bind, Option.bind_eq_some_iff] at h
      obtain ⟨resume, waits, turn⟩ := h
      exact .answered waits turn
  | handled number outcome => exact move_of_handled h
  | acked number r => exact move_of_acked h
  | faulted =>
      refine move_of_stopping h fun c hstep => ?_
      cases Consumer.change_of_step hstep with
      | faulted fault reading => exact ⟨_, rfl, fun told => by cases told⟩
  | shutdown =>
      refine move_of_stopping h fun c hstep => ?_
      exact ⟨.shutdown, (Consumer.reading_of_stop hstep).2, fun _ => rfl⟩
  | drained =>
      obtain ⟨consumer, hstep, rfl, rfl⟩ := quietly_eq_some h
      cases Consumer.change_of_step hstep with
      | drained phase empty => exact .ends (Or.inl phase)

/-- A fetch that waits for an acknowledgement fails or goes on. -/
theorem fails_or_sound {reader : StreamReader} {queue group : String} {ids : List String}
    {r : Redis.Result} (holds : Holds (.acknowledge queue group ids) r f.stage)
    (sound : ∀ n, r.bind Reply.int? = .ok n → Sound f) : Fails reader f ∨ Sound f := by
  cases hr : r.bind Reply.int? with
  | ok n => exact Or.inr (sound n hr)
  | error fault =>
      refine Or.inl fun max block now => ⟨fault.toQueue, f.position, ?_⟩
      obtain ⟨position, stage⟩ := f
      cases holds with
      | replaySettled => simp only [StreamReader.fetchTurn, hr, StreamReader.failing]
      | sweepSettled => simp only [StreamReader.fetchTurn, hr, StreamReader.failing]
      | pollSettled => simp only [StreamReader.fetchTurn, hr, StreamReader.failing]

theorem asking_of_advance {command : Command} {cut : Option (Cut Fetch)}
    {resume : Redis.Result → Fetch} (h : s.advance now f = some (s', sent))
    (turn : s.reader.fetchTurn s.slots s.block now f = .ask command cut resume) :
    s' = { s with position := f.position, pending := some resume } ∧
      sent = [⟨.fetch, command⟩] := by
  unfold StreamConsumer.advance at h
  rw [turn] at h
  obtain ⟨rfl, rfl⟩ := Prod.mk.inj (Option.some.inj h)
  exact ⟨rfl, rfl⟩

theorem done_of_advance {fetched : Fetched} (h : s.advance now f = some (s', sent))
    (turn : s.reader.fetchTurn s.slots s.block now f = .done fetched) :
    ∃ consumer, s.consumer.step (.fetched fetched.result) = some consumer ∧
      s' = { s with consumer, position := fetched.position, pending := none } ∧ sent = [] := by
  unfold StreamConsumer.advance at h
  rw [turn] at h
  obtain ⟨consumer, hstep, heq⟩ := Option.map_eq_some_iff.1 h
  obtain ⟨rfl, rfl⟩ := Prod.mk.inj heq
  exact ⟨consumer, hstep, rfl, rfl⟩

theorem reader_of_advance (h : s.advance now f = some (s', sent)) : s'.reader = s.reader := by
  unfold StreamConsumer.advance at h
  split at h
  next =>
    obtain ⟨rfl, -⟩ := Prod.mk.inj (Option.some.inj h)
    rfl
  next =>
    obtain ⟨consumer, -, heq⟩ := Option.map_eq_some_iff.1 h
    obtain ⟨rfl, -⟩ := Prod.mk.inj heq
    rfl
  next => cases h

theorem reader_of_step (h : s.step now event = some (s', sent)) : s'.reader = s.reader := by
  cases move_of_step h with
  | acquired phase free turn => exact (reader_of_advance turn).trans rfl
  | answered waits turn => exact reader_of_advance turn
  | _ => rfl

theorem reader_of_runs {reader : StreamReader} {prefetch : Nat}
    (runs : Runs reader prefetch log s) : s.reader = reader := by
  induction runs with
  | start => rfl
  | next now before h ih => exact (reader_of_step h).trans ih

/-- A fetch does not bring about that a consumer stops on a shutdown. -/
theorem stops_of_advance (h : s.advance now f = some (s', sent)) (stops : s'.Stops .shutdown) :
    s.Stops .shutdown := by
  unfold StreamConsumer.advance at h
  split at h
  next =>
    obtain ⟨rfl, -⟩ := Prod.mk.inj (Option.some.inj h)
    exact stops
  next =>
    obtain ⟨consumer, hstep, heq⟩ := Option.map_eq_some_iff.1 h
    obtain ⟨rfl, -⟩ := Prod.mk.inj heq
    generalize Fetched.result _ = result at hstep
    cases Consumer.change_of_step hstep with
    | fetched => rcases stops with h | h <;> cases h
    | unfetched => rcases stops with h | h <;> cases h
  next => cases h

theorem phase_of_ending {ending : Consumer.Ending} (h : s.ending? = some ending) :
    s.consumer.phase = .stopped ending := by
  unfold ending? at h
  split at h
  next phase => rw [phase, Option.some.inj h]
  next => cases h

/-- A consumer that stops on a shutdown was shut down. -/
theorem shutdown_of_step (h : s.step now event = some (s', sent)) (stops : s'.Stops .shutdown) :
    event = .shutdown ∨ s.Stops .shutdown := by
  cases move_of_step h with
  | tends phase => exact Or.inr (by rwa [Stops, phase] at stops)
  | declares => rcases stops with h | h <;> cases h
  | stops told =>
      rcases stops with h | h
      · exact Or.inl (told (Consumer.Phase.stopping.inj h))
      · cases h
  | ends phase =>
      rcases stops with h | h
      · cases h
      · obtain rfl := Consumer.Phase.stopped.inj h
        rcases phase with hstopping | ⟨-, hne⟩
        · exact Or.inr (Or.inl hstopping)
        · exact absurd rfl hne
  | acquired phase free turn => rcases stops_of_advance turn stops with h | h <;> cases h
  | answered waits turn => exact Or.inr (stops_of_advance turn stops)

theorem asked_eq_head? (log : List Passage) : asked log = (fetches log).head? := by
  rw [fetches, List.head?_map, List.head?_filter, asked]

theorem fetches_cons (passage : Passage) (log : List Passage) :
    fetches (passage :: log) =
      (passage.sent.filter (·.errand = .fetch)).map (·.command) ++ fetches log := by
  rw [fetches, List.flatMap_cons, List.filter_append, List.map_append, fetches]

theorem fetches_of_idle (idle : ∀ dispatch ∈ passage.sent, dispatch.errand ≠ .fetch) :
    fetches (passage :: log) = fetches log := by
  have hnil : passage.sent.filter (·.errand = .fetch) = [] := by simpa using idle
  rw [fetches_cons, hnil, List.map_nil, List.nil_append]

theorem Opens.next (opens : Opens log s)
    (h : s.step now event = some (s', sent)) : Opens (⟨s, event, sent⟩ :: log) s' := by
  rcases opens with ⟨hnil, waits, start⟩ | ⟨count, positive, first⟩
  · cases move_of_step h with
    | tends phase tasks idle acks =>
        have same : fetches (⟨s, event, sent⟩ :: log) = fetches log :=
          fetches_of_idle fun dispatch mem => (idle dispatch mem).1
        exact Or.inl ⟨same.trans hnil, waits, start⟩
    | declares => exact Or.inl ⟨hnil, waits, start⟩
    | stops => exact Or.inl ⟨hnil, rfl, start⟩
    | ends => exact Or.inl ⟨hnil, waits, start⟩
    | acquired phase free turn =>
        rw [start] at turn
        obtain ⟨rfl, rfl⟩ := asking_of_advance turn rfl
        refine Or.inr ⟨s.consumer.free, free, ?_⟩
        rw [fetches_cons, hnil]
        rfl
    | answered pending turn =>
        rw [waits] at pending
        cases pending
  · refine Or.inr ⟨count, positive, ?_⟩
    rw [fetches_cons, List.getLast?_append, first, Option.some_or, reader_of_step h]

end

end Settlement.StreamConsumer
