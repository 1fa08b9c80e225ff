import Mathlib.Data.List.Pairwise
import Settlement.Proofs.Queue.Consumer.Handlers
import Settlement.Proofs.Queue.Stream.Fetching
import Settlement.Queue.Supervisor

/-!
# What a consumer of a stream acknowledges

`Runs reader prefetch log s` says that a consumer of a stream has come to `s`, by the events that
`log` lists, latest first, with what was sent at each. Replies of the server, ends of handlers,
faults and a shutdown come in any order and at any instant, and the replies are whatever they are.

The consumer within takes part in a run of its own (`consumer_of_runs`), so what is known of its
handlers holds here: a handler that runs has not ended, and none ends twice.
-/

namespace Settlement.StreamConsumer

open Queue.Stream
open Redis (Command)

/-- Something that happened to a consumer of a stream, and what was sent for it. -/
structure Passage where
  before : StreamConsumer
  event : Event
  sent : List Dispatch

/-- How a consumer of a stream has come to be what it is, from any place in the stream. -/
inductive Runs (reader : StreamReader) (prefetch : Nat) : List Passage → StreamConsumer → Prop
  | start (block : Duration) (position : Position) :
      Runs reader prefetch [] { (start reader prefetch).1 with block, position }
  | next {log : List Passage} {s s' : StreamConsumer} {event : Event} {sent : List Dispatch}
      (now : Instant) (before : Runs reader prefetch log s)
      (h : s.step now event = some (s', sent)) : Runs reader prefetch (⟨s, event, sent⟩ :: log) s'

/-- The command that the fetch sent last. -/
def asked (log : List Passage) : Option Command :=
  ((log.flatMap (·.sent)).find? (·.errand = .fetch)).map (·.command)

/-- The task whose handler ends. -/
def Event.handled? : Event → Option Nat
  | .handled number _ => some number
  | _ => none

/-- The tasks whose handlers have ended, latest first. -/
def handled (log : List Passage) : List Nat := log.filterMap (·.event.handled?)

/-- What an event does. -/
inductive Change (s : StreamConsumer) (now : Instant) :
    Event → StreamConsumer → List Dispatch → Prop
  | quiet {event : Event} {e : Consumer.Event} {s' : StreamConsumer}
      (h : s.consumer.step e = some s'.consumer) (same : e.handled? = event.handled?)
      (pending : s'.pending = s.pending ∨ s'.pending = none) : Change s now event s' []
  | settled {task : Task} {outcome : Outcome} {s' : StreamConsumer}
      (mem : task ∈ s.consumer.running) (done : outcome ≠ .abandoned)
      (h : s.consumer.step (.handled task.number .ack) = some s'.consumer)
      (pending : s'.pending = s.pending) :
      Change s now (.handled task.number outcome) s'
        [⟨.ack task.number, .acknowledge task.delivery.queue s.reader.group [task.delivery.id]⟩]
  | acquired {consumer : Consumer} {s' : StreamConsumer} {sent : List Dispatch}
      (h : s.consumer.step .acquired = some consumer)
      (turn : { s with consumer }.advance now ⟨s.position, .choosing⟩ = some (s', sent)) :
      Change s now .acquired s' sent
  | answered {r : Redis.Result} {resume : Redis.Result → Fetch} {s' : StreamConsumer}
      {sent : List Dispatch} (waits : s.pending = some resume)
      (turn : s.advance now (resume r) = some (s', sent)) : Change s now (.answered r) s' sent

/-- A fetch that waits goes on with the reply to what it sent last. -/
def Waits (log : List Passage) (s : StreamConsumer) : Prop :=
  ∀ resume, s.pending = some resume →
    ∃ command, asked log = some command ∧ ∀ r, Holds command r (resume r).stage

/-- The consumer within has come to `c` by a run of its own, in which these handlers have ended. -/
def Stands (prefetch : Nat) (ended : List Nat) (c : Consumer) : Prop :=
  ∃ events begun, Consumer.Runs Consumer.Any prefetch events begun c ∧
    Consumer.handled events = ended

/-- Why an id is acknowledged: the reply to the last command of the fetch returned an entry of this
id without a body, or a handler that ran for a delivery of this id has ended and did not abandon it.
-/
inductive Due (last : Option Command) (s : StreamConsumer) : Event → Dispatch → String → Prop
  | bodyless {command sent : Command} {r : Redis.Result} {id : String}
      (asked : last = some command) (returned : Bodyless command r id) :
      Due last s (.answered r) ⟨.fetch, sent⟩ id
  | settled {task : Task} {outcome : Outcome} {sent : Command} (mem : task ∈ s.consumer.running)
      (done : outcome ≠ .abandoned) :
      Due last s (.handled task.number outcome) ⟨.ack task.number, sent⟩ task.delivery.id

section

variable {reader : StreamReader} {prefetch : Nat} {log : List Passage} {s s' : StreamConsumer}
  {now : Instant} {event : Event} {sent : List Dispatch} {P : String → Prop} {ended : List Nat}
  {c c' : Consumer}

/-- A fetch that takes a turn sends one command or none. -/
theorem advance_cases {f : Fetch} (h : s.advance now f = some (s', sent))
    (sends : StreamReader.Sends P (s.reader.fetchTurn s.slots s.block now f)) :
    (∃ command resume, sent = [⟨.fetch, command⟩] ∧ s'.pending = some resume ∧
        s'.consumer = s.consumer ∧ (∀ id ∈ command.acknowledged, P id) ∧
          ∀ r, Holds command r (resume r).stage) ∨
      sent = [] ∧ s'.pending = none ∧
        ∃ result, s.consumer.step (.fetched result) = some s'.consumer := by
  unfold advance at h
  split at h
  next command cut resume hturn =>
    rw [hturn] at sends
    obtain ⟨rfl, rfl⟩ := Prod.mk.inj (Option.some.inj h)
    exact Or.inl ⟨command, resume, rfl, rfl, rfl, sends.1, sends.2⟩
  next fetched hturn =>
    obtain ⟨consumer, hstep, heq⟩ := Option.map_eq_some_iff.1 h
    obtain ⟨rfl, rfl⟩ := Prod.mk.inj heq
    exact Or.inr ⟨rfl, rfl, fetched.result, hstep⟩
  next => cases h

theorem quietly_eq_some {e : Consumer.Event} (h : s.quietly e = some (s', sent)) :
    ∃ consumer, s.consumer.step e = some consumer ∧ s' = { s with consumer } ∧ sent = [] := by
  obtain ⟨consumer, hstep, heq⟩ := Option.map_eq_some_iff.1 h
  obtain ⟨rfl, rfl⟩ := Prod.mk.inj heq
  exact ⟨consumer, hstep, rfl, rfl⟩

theorem stopping_eq_some {e : Consumer.Event} (h : s.stopping e = some (s', sent)) :
    ∃ consumer, s.consumer.step e = some consumer ∧
      s' = { s with consumer, pending := none } ∧ sent = [] := by
  obtain ⟨consumer, hstep, heq⟩ := Option.map_eq_some_iff.1 h
  obtain ⟨rfl, rfl⟩ := Prod.mk.inj heq
  exact ⟨consumer, hstep, rfl, rfl⟩

theorem mem_running {number : Nat} {task : Task} {disposition : Disposition} {c : Consumer}
    (found : s.consumer.task? number = some task)
    (h : s.consumer.step (.handled number disposition) = some c) :
    task ∈ s.consumer.running ∧ task.number = number := by
  obtain ⟨mem, hnumber⟩ := Consumer.mem_of_task? found
  have running : task.acking = false := by
    by_contra hacking
    simp [Consumer.step, found, hacking] at h
  exact ⟨List.mem_filter.2 ⟨mem, by rw [running, Bool.not_false]⟩, hnumber⟩

theorem change_of_handled {number : Nat} {outcome : Outcome}
    (h : s.step now (.handled number outcome) = some (s', sent)) :
    Change s now (.handled number outcome) s' sent := by
  simp only [step, Option.bind_eq_bind, Option.bind_eq_some_iff] at h
  obtain ⟨task, found, ⟨next, sent'⟩, hquiet, heq⟩ := h
  obtain ⟨rfl, rfl⟩ := Prod.mk.inj (Option.some.inj heq)
  obtain ⟨consumer, hstep, rfl, -⟩ := quietly_eq_some hquiet
  obtain ⟨mem, rfl⟩ := mem_running found hstep
  cases outcome with
  | abandoned => exact .quiet hstep rfl (Or.inl rfl)
  | confirmed credits => exact .settled mem nofun hstep rfl
  | rejected reason => exact .settled mem nofun hstep rfl

/-- Whatever happens, it is one of these changes. -/
theorem change_of_step (h : s.step now event = some (s', sent)) : Change s now event s' sent := by
  have quiet : ∀ e : Consumer.Event, e.handled? = event.handled? → s.quietly e = some (s', sent) →
      Change s now event s' sent := by
    intro e same h
    obtain ⟨consumer, hstep, rfl, rfl⟩ := quietly_eq_some h
    exact .quiet hstep same (Or.inl rfl)
  have stops : ∀ e : Consumer.Event, e.handled? = event.handled? →
      s.stopping e = some (s', sent) → Change s now event s' sent := by
    intro e same h
    obtain ⟨consumer, hstep, rfl, rfl⟩ := stopping_eq_some h
    exact .quiet hstep same (Or.inr rfl)
  cases event with
  | declared r => exact quiet _ rfl h
  | acquired =>
      simp only [step, Option.bind_eq_bind, Option.bind_eq_some_iff] at h
      obtain ⟨⟨next, sent'⟩, hquiet, turn⟩ := h
      obtain ⟨consumer, hstep, rfl, -⟩ := quietly_eq_some hquiet
      exact .acquired hstep turn
  | answered r =>
      simp only [step, Option.bind_eq_bind, Option.bind_eq_some_iff] at h
      obtain ⟨resume, waits, turn⟩ := h
      exact .answered waits turn
  | handled number outcome => exact change_of_handled h
  | acked number r => exact quiet _ rfl h
  | faulted => exact stops _ rfl h
  | shutdown => exact stops _ rfl h
  | drained => exact quiet _ rfl h

/-- What a fetch sends, it waits for. -/
theorem waits_of_advance {f : Fetch} (h : s.advance now f = some (s', sent))
    (sends : StreamReader.Sends P (s.reader.fetchTurn s.slots s.block now f))
    (before : StreamConsumer) : Waits (⟨before, event, sent⟩ :: log) s' := by
  rcases advance_cases h sends with ⟨command, resume, rfl, hpending, -, -, holds⟩ | ⟨-, hnone, -⟩
  · intro resume' h'
    obtain rfl := Option.some.inj (hpending.symm.trans h')
    exact ⟨command, rfl, holds⟩
  · intro resume' h'
    rw [hnone] at h'
    cases h'

/-- An event that leaves the fetch alone or ends it. -/
theorem Waits.later (waits : Waits log s) (pending : s'.pending = s.pending ∨ s'.pending = none)
    (passage : Passage) (same : asked (passage :: log) = asked log) :
    Waits (passage :: log) s' := by
  intro resume h
  rcases pending with hsame | hnone
  · rw [same]
    exact waits resume (hsame ▸ h)
  · rw [hnone] at h
    cases h

/-- With a fetch that waits for what it sent last, an event sends no acknowledgement that is not
due, and the fetch goes on waiting for what it sent last. -/
theorem Waits.next (waits : Waits log s) (change : Change s now event s' sent) :
    Waits (⟨s, event, sent⟩ :: log) s' ∧
      ∀ dispatch ∈ sent, ∀ id ∈ dispatch.command.acknowledged,
        Due (asked log) s event dispatch id := by
  cases change with
  | quiet h same pending => exact ⟨waits.later pending _ rfl, nofun⟩
  | settled mem done h pending =>
      refine ⟨waits.later (Or.inl pending) _ rfl, ?_⟩
      intro dispatch hdispatch id hid
      obtain rfl := List.mem_singleton.1 hdispatch
      obtain rfl := List.mem_singleton.1 hid
      exact .settled mem done
  | @acquired consumer s' sent h turn =>
      have sends : StreamReader.Sends (fun _ => False)
          (s.reader.fetchTurn (slots { s with consumer }) s.block now ⟨s.position, .choosing⟩) :=
        StreamReader.sends_choosing rfl
      refine ⟨waits_of_advance turn sends s, ?_⟩
      intro dispatch hdispatch id hid
      rcases advance_cases turn sends with ⟨command, resume, rfl, -, -, hnone, -⟩ | ⟨rfl, -⟩
      · obtain rfl := List.mem_singleton.1 hdispatch
        exact (hnone id hid).elim
      · cases hdispatch
  | @answered r resume s' sent hpending turn =>
      obtain ⟨command, hasked, holds⟩ := waits resume hpending
      have sends : StreamReader.Sends (Bodyless command r)
          (s.reader.fetchTurn s.slots s.block now (resume r)) :=
        StreamReader.sends_fetchTurn (holds r)
      refine ⟨waits_of_advance turn sends s, ?_⟩
      intro dispatch hdispatch id hid
      rcases advance_cases turn sends with ⟨sent, resume, rfl, -, -, returned, -⟩ | ⟨rfl, -⟩
      · obtain rfl := List.mem_singleton.1 hdispatch
        exact .bodyless hasked (returned id hid)
      · cases hdispatch

theorem waits_of_runs (runs : Runs reader prefetch log s) : Waits log s := by
  induction runs with
  | start block position => exact nofun
  | next now before h ih => exact (ih.next (change_of_step h)).1

/-- The consumer within goes on with its own run. -/
theorem Stands.step (stands : Stands prefetch ended c) {e : Consumer.Event}
    (h : c.step e = some c') : Stands prefetch (e.handled?.toList ++ ended) c' := by
  obtain ⟨events, begun, runs, rfl⟩ := stands
  exact ⟨e :: events, _, runs.next trivial h, Consumer.handled_cons e events⟩

theorem Stands.advance {f : Fetch} (stands : Stands prefetch ended s.consumer)
    (turn : s.advance now f = some (s', sent)) : Stands prefetch ended s'.consumer := by
  unfold StreamConsumer.advance at turn
  split at turn
  next =>
    obtain ⟨rfl, -⟩ := Prod.mk.inj (Option.some.inj turn)
    exact stands
  next =>
    obtain ⟨consumer, hstep, heq⟩ := Option.map_eq_some_iff.1 turn
    obtain ⟨rfl, -⟩ := Prod.mk.inj heq
    exact stands.step hstep
  next => cases turn

theorem Stands.next (stands : Stands prefetch ended s.consumer)
    (change : Change s now event s' sent) :
    Stands prefetch (event.handled?.toList ++ ended) s'.consumer := by
  cases change with
  | quiet h same pending => exact same ▸ stands.step h
  | settled mem done h pending => exact stands.step h
  | @acquired consumer s' sent h turn =>
      have acquired : Stands prefetch ended { s with consumer }.consumer := stands.step h
      exact acquired.advance turn
  | answered waits turn => exact stands.advance turn

theorem stands_of_runs (runs : Runs reader prefetch log s) :
    Stands prefetch (handled log) s.consumer := by
  induction runs with
  | start block position => exact ⟨[], [], .start, rfl⟩
  | @next log s s' event sent now before h ih =>
      have hcons : handled (⟨s, event, sent⟩ :: log) = event.handled?.toList ++ handled log := by
        rw [handled, List.filterMap_cons]
        cases event.handled? <;> rfl
      rw [hcons]
      exact ih.next (change_of_step h)

theorem errand_of_advance {f : Fetch} (h : s.advance now f = some (s', sent)) :
    ∀ dispatch ∈ sent, dispatch.errand = .fetch := by
  unfold advance at h
  split at h
  next =>
    obtain ⟨rfl, rfl⟩ := Prod.mk.inj (Option.some.inj h)
    exact fun dispatch mem => List.mem_singleton.1 mem ▸ rfl
  next =>
    obtain ⟨consumer, -, heq⟩ := Option.map_eq_some_iff.1 h
    obtain ⟨rfl, rfl⟩ := Prod.mk.inj heq
    exact nofun
  next => cases h

/-- An acknowledgement for a task is sent when its handler ends. -/
theorem handled_of_errand (change : Change s now event s' sent) {dispatch : Dispatch} {number : Nat}
    (mem : dispatch ∈ sent) (errand : dispatch.errand = .ack number) :
    ∃ outcome, event = .handled number outcome ∧ outcome ≠ .abandoned := by
  cases change with
  | quiet h same pending => cases mem
  | @settled task outcome s' running done h pending =>
      obtain rfl := List.mem_singleton.1 mem
      obtain rfl := Errand.ack.inj errand
      exact ⟨outcome, rfl, done⟩
  | acquired h turn => cases (errand_of_advance turn dispatch mem).symm.trans errand
  | answered waits turn => cases (errand_of_advance turn dispatch mem).symm.trans errand

/-- Every passage of a run is a change of what an earlier run has come to. -/
theorem passage_of_runs (runs : Runs reader prefetch log s) {passage : Passage}
    {earlier : List Passage} (h : passage :: earlier <:+ log) :
    ∃ now s', Runs reader prefetch earlier passage.before ∧
      Change passage.before now passage.event s' passage.sent := by
  induction runs with
  | start block position => cases List.suffix_nil.1 h
  | @next log s s' event sent now before hstep ih =>
      rcases List.suffix_cons_iff.1 h with heq | hlater
      · obtain ⟨rfl, rfl⟩ := List.cons.inj heq
        exact ⟨now, s', before, change_of_step hstep⟩
      · exact ih hlater

theorem due_of_passage (runs : Runs reader prefetch log s) {passage : Passage}
    {earlier : List Passage} (h : passage :: earlier <:+ log) :
    ∀ dispatch ∈ passage.sent, ∀ id ∈ dispatch.command.acknowledged,
      Due (asked earlier) passage.before passage.event dispatch id := by
  obtain ⟨now, s', before, change⟩ := passage_of_runs runs h
  exact ((waits_of_runs before).next change).2

theorem handled_of_sent (runs : Runs reader prefetch log s) {passage : Passage}
    (mem : passage ∈ log) {dispatch : Dispatch} {number : Nat} (sent : dispatch ∈ passage.sent)
    (errand : dispatch.errand = .ack number) :
    ∃ outcome, passage.event = .handled number outcome ∧ outcome ≠ .abandoned := by
  obtain ⟨later, earlier, rfl⟩ := List.append_of_mem mem
  obtain ⟨now, s', -, change⟩ := passage_of_runs runs (List.suffix_append later _)
  exact handled_of_errand change sent errand

theorem mem_handled {passage : Passage} (mem : passage ∈ log) {number : Nat}
    (h : passage.event.handled? = some number) : number ∈ handled log :=
  List.mem_filterMap.2 ⟨passage, mem, h⟩

/-- A handler ends at one passage only. -/
theorem eq_of_handled (nodup : (handled log).Nodup) {p q : Passage} (hp : p ∈ log) (hq : q ∈ log)
    {number : Nat} (h : p.event.handled? = some number) (h' : q.event.handled? = some number) :
    p = q := by
  by_contra hne
  have apart : log.Pairwise fun p q => ∀ m, p.event.handled? = some m →
      ∀ n, q.event.handled? = some n → m ≠ n := List.pairwise_filterMap.1 nodup
  have symm : Std.Symm fun p q : Passage => ∀ m, p.event.handled? = some m →
      ∀ n, q.event.handled? = some n → m ≠ n :=
    ⟨fun p q hpq m hm n hn => (hpq n hn m hm).symm⟩
  exact apart.forall hp hq hne number h number h' rfl

theorem nodup_of_stands (stands : Stands prefetch ended c) :
    (ended ++ c.running.map (·.number)).Nodup := by
  obtain ⟨events, begun, runs, rfl⟩ := stands
  exact Consumer.nodup_of_runs runs

end

/-- Whatever the server replies, in whatever order handlers end, and whenever the consumer is shut
down or told of a fault: an id is acknowledged only with the reply to a read that returned an entry
of this id without a readable body, or at the end of a handler that ran for a delivery of this id
and confirmed or rejected it. No acknowledgement has been sent for a delivery whose handler runs,
and none is sent for a delivery whose handler abandoned it. -/
theorem due_of_runs {reader : StreamReader} {prefetch : Nat} {log : List Passage}
    {s : StreamConsumer} (runs : Runs reader prefetch log s) :
    (∀ passage earlier, passage :: earlier <:+ log →
      ∀ dispatch ∈ passage.sent, ∀ id ∈ dispatch.command.acknowledged,
        (∃ command r, dispatch.errand = .fetch ∧ passage.event = .answered r ∧
          asked earlier = some command ∧ Bodyless command r id) ∨
        ∃ task outcome, dispatch.errand = .ack task.number ∧
          passage.event = .handled task.number outcome ∧
          task ∈ passage.before.consumer.running ∧ task.delivery.id = id ∧
          ((∃ credits, outcome = .confirmed credits) ∨ ∃ reason, outcome = .rejected reason)) ∧
    (∀ t ∈ s.consumer.running, ∀ passage ∈ log, ∀ dispatch ∈ passage.sent,
      dispatch.errand ≠ .ack t.number) ∧
    ∀ number, ∀ passage ∈ log, passage.event = .handled number .abandoned →
      ∀ other ∈ log, ∀ dispatch ∈ other.sent, dispatch.errand ≠ .ack number := by
  have nodup := nodup_of_stands (stands_of_runs runs)
  refine ⟨?_, ?_, ?_⟩
  · intro passage earlier h dispatch hdispatch id hid
    have due := due_of_passage runs h dispatch hdispatch id hid
    generalize passage.event = event at due
    cases due with
    | bodyless hasked returned => exact Or.inl ⟨_, _, rfl, rfl, hasked, returned⟩
    | @settled task outcome sent mem done =>
        refine Or.inr ⟨task, outcome, rfl, rfl, mem, rfl, ?_⟩
        cases outcome with
        | confirmed credits => exact Or.inl ⟨credits, rfl⟩
        | rejected reason => exact Or.inr ⟨reason, rfl⟩
        | abandoned => exact absurd rfl done
  · intro t ht passage hpassage dispatch hdispatch errand
    obtain ⟨outcome, hevent, -⟩ := handled_of_sent runs hpassage hdispatch errand
    have ended : t.number ∈ handled log := mem_handled hpassage (by rw [hevent]; rfl)
    exact (List.nodup_append.1 nodup).2.2 _ ended _ (List.mem_map_of_mem ht) rfl
  · intro number passage hpassage abandoned other hother dispatch hdispatch errand
    obtain ⟨outcome, hevent, done⟩ := handled_of_sent runs hother hdispatch errand
    have same : passage = other := eq_of_handled (List.nodup_append.1 nodup).1 hpassage hother
      (by rw [abandoned]; rfl) (by rw [hevent]; rfl)
    subst same
    exact done (Event.handled.inj (hevent.symm.trans abandoned)).2

/-- A consumer to which events happen one after the other. -/
def play : List Event → List Passage → StreamConsumer → Option (List Passage × StreamConsumer)
  | [], log, s => some (log, s)
  | event :: events, log, s => do
    let (s', sent) ← s.step 0 event
    play events (⟨s, event, sent⟩ :: log) s'

theorem runs_of_play {reader : StreamReader} {prefetch : Nat} {log log' : List Passage}
    {s s' : StreamConsumer} {events : List Event} (runs : Runs reader prefetch log s)
    (h : play events log s = some (log', s')) : Runs reader prefetch log' s' := by
  induction events generalizing log s with
  | nil =>
      obtain ⟨rfl, rfl⟩ := Prod.mk.inj (Option.some.inj h)
      exact runs
  | cons event events ih =>
      simp only [play, Option.bind_eq_bind, Option.bind_eq_some_iff] at h
      obtain ⟨⟨s₁, sent⟩, hstep, hplay⟩ := h
      exact ih (runs.next 0 hstep) hplay

namespace Sample

def reader : StreamReader := ⟨"payments", "verifiers", "verifier-1", .ofSecs 600⟩

/-- The reply to the first read: an entry with a body and one without fields. -/
def page : Redis.Reply :=
  .bulk [.bulk [.status "payments",
    .bulk [.bulk [.status "1-0", .bulk [.status "body", .nil]], .bulk [.status "2-0", .nil]]]]

/-- What happens until the message of the first entry is confirmed. -/
def events : List Event :=
  [.declared (.ok .nil), .acquired, .answered (.ok page), .answered (.ok (.int 1)),
    .handled 0 (.confirmed ⟨1, 0⟩)]

end Sample

theorem due_of_runs_two_entries : ∃ log s, Runs Sample.reader 1 log s ∧
    (log.flatMap (·.sent)).flatMap (·.command.acknowledged) = ["1-0", "2-0"] ∧
    ∀ t ∈ s.consumer.running, ∀ passage ∈ log, ∀ dispatch ∈ passage.sent,
      dispatch.errand ≠ .ack t.number := by
  have hids : (play Sample.events [] (start Sample.reader 1).1).map
      (fun x => (x.1.flatMap (·.sent)).flatMap (·.command.acknowledged)) =
        some ["1-0", "2-0"] := by decide +kernel
  obtain ⟨⟨log, s⟩, hplay, acknowledged⟩ := Option.map_eq_some_iff.1 hids
  have runs : Runs Sample.reader 1 log s := runs_of_play (.start defaultBlock .start) hplay
  exact ⟨log, s, runs, acknowledged, (due_of_runs runs).2.1⟩

end Settlement.StreamConsumer
