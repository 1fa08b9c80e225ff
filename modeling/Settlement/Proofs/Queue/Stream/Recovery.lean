import Settlement.Proofs.Queue.Stream.Moves

/-!
# What a new connection recovers

A `Session` is one connection in use: the entries that were pending for the consumer when it was
made, what has been lost of them since, and what has been handed to handlers. `Known` says how far
the consumer has come with them: an entry before the place where its replay goes on has been handed
over or is in a fetch, and one behind it is still held by the server. What may be acknowledged lies
before that place (`Reached.behind`), which is why nothing behind it goes missing.

`Known.next` is the step: whatever happens, this is kept, as long as the server answers a read of
pending entries with a page of them and keeps what is neither acknowledged nor lost. New entries are
only read when nothing is left.
-/

namespace Settlement.StreamConsumer

open Queue.Stream
open Queue.Stream.Replay (Acts Sound acts_fetchTurn ahead entries entries_eq owed)
open Redis (Command Reply)

/-- A connection in use: the entries that were pending when it was made, the ids that were lost
since by other means than an acknowledgement that was sent, the deliveries that were handed to
handlers, and what has happened to the consumer, latest first. -/
structure Session where
  opening : List Queue.Stream.Entry
  lost : List String
  handed : List Delivery
  log : List Passage

namespace Session

/-- A session at its start. -/
def start (opening : List Queue.Stream.Entry) : Session := ⟨opening, [], [], []⟩

/-- The session when ids were lost. -/
def lose (a : Session) (lost : List String) : Session := { a with lost := lost ++ a.lost }

/-- The session after something happened to the consumer, at which tasks were begun and after which
ids were lost. -/
def next (a : Session) (passage : Passage) (begun : List Task) (lost : List String) : Session :=
  { a.lose lost with
    handed := a.handed ++ begun.map (·.delivery)
    log := passage :: a.log }

/-- Each message that was pending when the connection was made has been handed to a handler, as one
that is delivered again, unless it was lost. -/
def Recovered (queue : String) (a : Session) : Prop :=
  ∀ e ∈ a.opening, ∀ delivery ∈ e.delivery? queue true, delivery ∈ a.handed ∨ e.id ∈ a.lost

end Session

/-- The server holds what it held before, but for what was acknowledged and what was lost. -/
def Kept (acked lost : List String) (held held' : List Queue.Stream.Entry) : Prop :=
  ∀ e ∈ held, e.id ∈ acked ∨ e.id ∈ lost ∨ e ∈ held'

/-- The messages in a fetch that will get a task. -/
def due (s : StreamConsumer) (f : Fetch) : List Delivery :=
  (owed s.reader.queue f.stage).1.take s.slots

/-- The ids that may be acknowledged as long as the fetch reads nothing more. -/
def busy (s : StreamConsumer) (f : Fetch) : List String :=
  s.ids ++ (s.due f).map (·.id) ++ (owed s.reader.queue f.stage).2

section

variable {α : Type} [LinearOrder α] (place : String → α)

/-- How far the replay of a session has come, which goes on behind `after`: what stands before is
handed over, due, or lost; what stands behind is held or lost; and what may be acknowledged stands
before. -/
structure Reached (queue : String) (a : Session) (held : List Queue.Stream.Entry)
    (after : Option String) (due : List Delivery) (busy : List String) : Prop where
  passed : ∀ e ∈ a.opening, (∀ last ∈ after, place e.id ≤ place last) →
    ∀ delivery ∈ e.delivery? queue true, delivery ∈ a.handed ∨ delivery ∈ due ∨ e.id ∈ a.lost
  left : ∀ e ∈ a.opening, ∀ last ∈ after, place last < place e.id → e ∈ held ∨ e.id ∈ a.lost
  behind : ∀ id ∈ busy, ∀ last ∈ after, place id ≤ place last

/-- The replay has come to where the fetch stands. -/
def At (a : Session) (held : List Queue.Stream.Entry) (s : StreamConsumer) (f : Fetch) : Prop :=
  Reached place s.reader.queue a held (ahead f) (s.due f) (s.busy f)

/-- What a fetch waits for: a page of pending entries, or a reply with which it fails or goes on. -/
inductive Waiting (a : Session) (held : List Queue.Stream.Entry) (s : StreamConsumer) :
    (Redis.Result → Fetch) → Prop
  | page (after : String) (position : Position)
      (asked : asked a.log = some
        (.readPending s.reader.queue s.reader.group s.reader.consumer after s.slots))
      (reached : Reached place s.reader.queue a held (some after) [] s.ids) :
      Waiting a held s fun r => ⟨position, .replayed r⟩
  | reply {resume : Redis.Result → Fetch}
      (goes : ∀ r, Fails s.reader (resume r) ∨ Sound (resume r) ∧ At place a held s (resume r)) :
      Waiting a held s resume

/-- What is known of a consumer with its session, of what the server holds as pending for it. -/
structure Known (a : Session) (held : List Queue.Stream.Entry) (s : StreamConsumer) : Prop where
  idle : s.consumer.phase = .declaring ∨ s.consumer.phase = .acquiring →
    Reached place s.reader.queue a held s.position.replay [] s.ids
  waiting : ∀ resume, s.pending = some resume → 0 < s.slots ∧ Waiting place a held s resume

/-- A reply to a read of pending entries is a page of what is held. -/
def Answered (reader : StreamReader) (last : Option Command) (held : List Queue.Stream.Entry)
    (event : Event) : Prop :=
  ∀ r after count, event = .answered r →
    last = some (.readPending reader.queue reader.group reader.consumer after count) →
    ∀ page, r.bind readEntries = .ok page → page = PendingRead.page place ⟨after, count, held⟩

end

section

variable {α : Type} [LinearOrder α] {place : String → α} {queue : String} {a : Session}
  {held held' : List Queue.Stream.Entry} {after : Option String} {due due' : List Delivery}
  {acked lost busy busy' : List String} {passage : Passage} {begun : List Task}

namespace Reached

/-- Nothing that stands behind is acknowledged. -/
theorem lose (reached : Reached place queue a held after due busy)
    (kept : Kept acked lost held held') (acks : acked ⊆ busy) :
    Reached place queue (a.lose lost) held' after due busy where
  passed e mem before delivery some :=
    (reached.passed e mem before delivery some).imp_right (.imp_right (List.mem_append_right _))
  left e mem last hlast hlt := by
    rcases reached.left e mem last hlast hlt with hheld | gone
    · rcases kept e hheld with hacked | hlost | stays
      · exact absurd (reached.behind _ (acks hacked) last hlast) hlt.not_ge
      · exact Or.inr (List.mem_append_left _ hlost)
      · exact Or.inl stays
    · exact Or.inr (List.mem_append_right _ gone)
  behind := reached.behind

/-- When something has happened, what was due is still due or has got its task. -/
theorem later (reached : Reached place queue a held after due busy)
    (kept : Kept acked lost held held') (acks : acked ⊆ busy) (rest : busy' ⊆ busy)
    (goes : ∀ delivery ∈ due, delivery ∈ begun.map (·.delivery) ∨ delivery ∈ due') :
    Reached place queue (a.next passage begun lost) held' after due' busy' where
  passed e mem before delivery some := by
    rcases (reached.lose kept acks).passed e mem before delivery some with handed | hdue | gone
    · exact Or.inl (List.mem_append_left _ handed)
    · rcases goes delivery hdue with begins | stays
      · exact Or.inl (List.mem_append_right _ begins)
      · exact Or.inr (Or.inl stays)
    · exact Or.inr (Or.inr gone)
  left := (reached.lose kept acks).left
  behind id mem := reached.behind id (rest mem)

/-- A replay that is over leaves nothing to find. -/
theorem finish (reached : Reached place queue a held none [] busy) :
    Reached place queue a held' none due busy' where
  passed e mem before delivery some := by
    rcases reached.passed e mem before delivery some with handed | hdue | gone
    · exact Or.inl handed
    · cases hdue
    · exact Or.inr (Or.inr gone)
  left := nofun
  behind := nofun

/-- What a replay that is over has not handed to a handler was lost. -/
theorem recovered (reached : Reached place queue a held none [] busy) : a.Recovered queue := by
  intro e mem delivery some
  rcases reached.passed e mem nofun delivery some with handed | hdue | gone
  · exact Or.inl handed
  · cases hdue
  · exact Or.inr gone

theorem mem_delivery {redelivered : Bool} {e : Queue.Stream.Entry} {delivery : Delivery}
    (h : delivery ∈ e.delivery? queue redelivered) : delivery.id = e.id := by
  obtain ⟨body, -, rfl⟩ := Option.map_eq_some_iff.1 h
  rfl

/-- A page behind the place where the replay goes on takes it to the last entry of the page. -/
theorem page (read : PendingRead) (sorted : InOrder place read.pending)
    (positive : 0 < read.count)
    (reached : Reached place queue a read.pending (some read.after) [] busy) :
    Reached place queue a read.pending (read.last place)
      ((split queue true (read.page place)).1.take read.count)
      (busy ++ ((split queue true (read.page place)).1.take read.count).map (·.id) ++
        (split queue true (read.page place)).2) where
  passed e mem before delivery some := by
    rcases lt_or_ge (place read.after) (place e.id) with hlt | hle
    · rcases reached.left e mem _ rfl hlt with hheld | gone
      · have hpage : e ∈ read.page place :=
          (PendingRead.mem_page_iff sorted positive ⟨hlt, before⟩).2 hheld
        have fits : (split queue true (read.page place)).1.length ≤ read.count :=
          (List.length_filterMap_le _ _).trans (List.length_take_le _ _)
        rw [List.take_of_length_le fits]
        exact Or.inr (Or.inl (List.mem_filterMap.2 ⟨e, hpage, some⟩))
      · exact Or.inr (Or.inr gone)
    · rcases reached.passed e mem (fun last h => Option.mem_some_iff.1 h ▸ hle) delivery some with
        handed | hdue | gone
      · exact Or.inl handed
      · cases hdue
      · exact Or.inr (Or.inr gone)
  left e mem last hlast hlt :=
    reached.left e mem _ rfl ((PendingRead.after_lt sorted hlast).trans hlt)
  behind id mem last hlast := by
    have onPage : ∀ e ∈ read.page place, place e.id ≤ place last :=
      (PendingRead.of_last sorted hlast).2
    rcases List.mem_append.1 mem with mem | unread
    · rcases List.mem_append.1 mem with old | new
      · exact (reached.behind id old _ rfl).trans (PendingRead.after_lt sorted hlast).le
      · obtain ⟨delivery, taken, rfl⟩ := List.mem_map.1 new
        obtain ⟨e, hpage, some⟩ := List.mem_filterMap.1 (List.mem_of_mem_take taken)
        exact mem_delivery some ▸ onPage e hpage
    · obtain ⟨e, hpage, rfl, -⟩ := mem_unreadable.1 unread
      exact onPage e hpage

end Reached

end

section

variable {α : Type} [LinearOrder α] {place : String → α} {a : Session}
  {held held' : List Queue.Stream.Entry}
  {s s' : StreamConsumer} {now : Instant} {event : Event} {sent : List Dispatch} {f : Fetch}
  {acked lost : List String} {passage : Passage} {begun : List Task} {P : String → Prop}

/-- A consumer that waits for a reply to its fetch. -/
theorem known_of_waiting {resume : Redis.Result → Fetch} (pending : s.pending = some resume)
    (positive : 0 < s.slots) (waiting : Waiting place a held s resume) : Known place a held s where
  idle phase := by
    rw [phase_of_slots positive] at phase
    rcases phase with h | h <;> cases h
  waiting resume' h := by
    obtain rfl := Option.some.inj (pending.symm.trans h)
    exact ⟨positive, waiting⟩

/-- A consumer that waits for no reply. -/
theorem known_of_idle (pending : s.pending = none)
    (idle : s.consumer.phase = .declaring ∨ s.consumer.phase = .acquiring →
      Reached place s.reader.queue a held s.position.replay [] s.ids) : Known place a held s where
  idle := idle
  waiting resume h := by
    rw [pending] at h
    cases h

/-- A failure ends the fetches. -/
theorem known_of_error {e : QueueError} {position : Position}
    (turn : s.reader.fetchTurn s.slots s.block now f = .done ⟨.error e, position⟩)
    (h : s.advance now f = some (s', sent)) : Known place a held s' := by
  obtain ⟨consumer, hstep, rfl, rfl⟩ := done_of_advance h turn
  refine known_of_idle rfl fun phase => ?_
  cases Consumer.change_of_step hstep with
  | unfetched now => rcases phase with h | h <;> cases h

/-- A fetch with nothing at hand stands where the replay goes on. -/
theorem at_iff_of_free (free : owed s.reader.queue f.stage = ([], [])) :
    At place a held s f ↔ Reached place s.reader.queue a held (ahead f) [] s.ids := by
  unfold At busy due
  rw [free, List.take_nil, List.map_nil, List.append_nil, List.append_nil]

/-- The fetch stands where it stood while the tasks go on. -/
theorem At.later (reached : At place a held s f) (reader : s'.reader = s.reader)
    (slots : s'.slots = s.slots) (tasks : s'.ids ⊆ s.ids) (kept : Kept acked lost held held')
    (acks : acked ⊆ s.ids) : At place (a.next passage begun lost) held' s' f := by
  unfold At busy due at reached ⊢
  rw [reader, slots]
  rw [List.append_assoc] at reached ⊢
  refine reached.later kept (List.subset_append_of_subset_left _ acks) ?_ fun _ => Or.inr
  exact List.append_subset.2
    ⟨List.subset_append_of_subset_left _ tasks, List.subset_append_right _ _⟩

/-- The fetch waits as it did while the tasks go on. -/
theorem Waiting.later {resume : Redis.Result → Fetch} (waiting : Waiting place a held s resume)
    (reader : s'.reader = s.reader) (slots : s'.slots = s.slots) (tasks : s'.ids ⊆ s.ids)
    (kept : Kept acked lost held held') (acks : acked ⊆ s.ids)
    (idle : ∀ dispatch ∈ passage.sent, dispatch.errand ≠ .fetch) :
    Waiting place (a.next passage begun lost) held' s' resume := by
  cases waiting with
  | page after position asked reached =>
      refine .page after position ?_ ?_
      · rw [reader, slots]
        rw [Session.next, asked_eq_head?, fetches_of_idle idle, ← asked_eq_head?]
        exact asked
      · rw [reader]
        exact reached.later kept acks tasks nofun
  | reply goes =>
      refine .reply fun r => ?_
      rw [reader]
      exact (goes r).imp_right fun ⟨sound, reached⟩ =>
        ⟨sound, reached.later reader slots tasks kept acks⟩

/-- A consumer that does not fetch waits for no reply. -/
theorem Known.pending_eq_none (known : Known place a held s)
    (phase : ∀ slots, s.consumer.phase ≠ .fetching slots) : s.pending = none := by
  cases h : s.pending with
  | none => rfl
  | some resume => exact absurd (phase_of_slots (known.waiting resume h).1) (phase _)

/-- A fetch that hands out messages begins a task for each that is due. -/
theorem At.hands {begun : List Task} {events : List Consumer.Event} {batch : List Delivery}
    {position : Position} (reached : At place a held s f) (positive : 0 < s.slots)
    (handled : Consumer.Handled events begun s.consumer)
    (turn : s.reader.fetchTurn s.slots s.block now f = .done ⟨.ok batch, position⟩)
    (owes : owed s.reader.queue f.stage = (batch, [])) (goes : position.replay = ahead f)
    (h : s.advance now f = some (s', sent)) (kept : Kept [] lost held held') :
    Known place (a.next passage (s.consumer.begins s'.consumer) lost) held' s' := by
  obtain ⟨consumer, hstep, rfl, rfl⟩ := done_of_advance h turn
  cases Consumer.change_of_step hstep with
  | @fetched slots _ now =>
      obtain rfl : s.slots = slots :=
        Consumer.Phase.fetching.inj ((phase_of_slots positive).symm.trans now)
      refine known_of_idle rfl fun _ => ?_
      unfold At busy due at reached
      rw [owes, ← goes, List.append_nil] at reached
      refine reached.later kept (List.nil_subset _) ?_ fun delivery mem => Or.inl ?_
      · refine fun id mem => ?_
        obtain ⟨t, ht, rfl⟩ := List.mem_map.1 mem
        rcases List.mem_append.1 ht with old | new
        · exact List.mem_append_left _ (List.mem_map_of_mem old)
        · refine List.mem_append_right _ (List.mem_map.2 ⟨t.delivery, ?_, rfl⟩)
          rw [← Consumer.deliveries_tasksFor s.consumer.started (batch.take s.slots)]
          exact List.mem_map_of_mem new
      · rw [Consumer.begins_dispatch handled, Consumer.deliveries_tasksFor]
        exact mem

/-- A fetch that reads beyond what was pending has nothing left to recover. -/
theorem At.beyond {command : Command} {cut : Option (Cut Fetch)} {resume : Redis.Result → Fetch}
    {begun : List Task} (reached : At place a held s f) (positive : 0 < s.slots)
    (turn : s.reader.fetchTurn s.slots s.block now f = .ask command cut resume)
    (free : owed s.reader.queue f.stage = ([], [])) (finished : ahead f = none)
    (sound : ∀ r, Sound (resume r) ∧ ahead (resume r) = none)
    (h : s.advance now f = some (s', sent)) (kept : Kept [] lost held held') :
    Known place (a.next passage begun lost) held' s' ∧ a.Recovered s.reader.queue := by
  obtain ⟨rfl, rfl⟩ := asking_of_advance h turn
  have done := (at_iff_of_free free).1 reached
  rw [finished] at done
  refine ⟨known_of_waiting rfl positive (.reply fun r => Or.inr ⟨(sound r).1, ?_⟩), done.recovered⟩
  unfold At
  rw [(sound r).2]
  exact (done.later kept (List.nil_subset _) (List.Subset.refl _) nofun).finish

/-- A turn of a fetch keeps what is known, and a fetch that reads beyond what was pending has
nothing left to recover. -/
theorem At.advance {begun : List Task} {events : List Consumer.Event}
    (reached : At place a held s f) (sound : Sound f) (positive : 0 < s.slots)
    (handled : Consumer.Handled events begun s.consumer)
    (sends : StreamReader.Sends P (s.reader.fetchTurn s.slots s.block now f))
    (h : s.advance now f = some (s', sent)) (same : passage.sent = sent)
    (kept : Kept (sent.flatMap (·.command.acknowledged)) lost held held') :
    Known place (a.next passage (s.consumer.begins s'.consumer) lost) held' s' ∧
      ∀ dispatch ∈ sent, ReadsBeyond dispatch.command → a.Recovered s.reader.queue := by
  have acts : Acts s.reader s.slots now f (s.reader.fetchTurn s.slots s.block now f) :=
    acts_fetchTurn sound
  generalize hturn : s.reader.fetchTurn s.slots s.block now f = turn at acts sends
  cases acts with
  | @settles stage unread goes owes rooms settled =>
      obtain ⟨rfl, rfl⟩ := asking_of_advance h hturn
      refine ⟨known_of_waiting rfl positive (.reply fun r => ?_), ?_⟩
      · refine (fails_or_sound (sends.2 r) (settled r)).imp_right fun next => ⟨next, ?_⟩
        unfold At busy due at reached ⊢
        rw [goes, owes, List.append_nil]
        refine reached.later kept ?_ (List.subset_append_left _ _) fun delivery mem => Or.inr mem
        rw [List.flatMap_singleton]
        exact List.subset_append_right _ _
      · exact fun dispatch mem beyond => (List.mem_singleton.1 mem ▸ beyond).elim
  | @replays after position free goes =>
      obtain ⟨rfl, rfl⟩ := asking_of_advance h hturn
      have onward := (at_iff_of_free free).1 reached
      rw [goes] at onward
      refine ⟨known_of_waiting rfl positive (.page after position ?_ ?_), ?_⟩
      · rw [Session.next, asked_eq_head?, fetches_cons, same]
        rfl
      · exact onward.later kept (List.nil_subset _) (List.Subset.refl _) nofun
      · exact fun dispatch mem beyond => (List.mem_singleton.1 mem ▸ beyond).elim
  | sweeps free finished done =>
      obtain ⟨-, rfl⟩ := asking_of_advance h hturn
      obtain ⟨known, recovered⟩ :=
        reached.beyond positive hturn free finished (fun r => ⟨done, rfl⟩) h kept
      exact ⟨known, fun _ _ _ => recovered⟩
  | polls free finished done =>
      obtain ⟨-, rfl⟩ := asking_of_advance h hturn
      obtain ⟨known, recovered⟩ :=
        reached.beyond positive hturn free finished (fun r => ⟨done, rfl⟩) h kept
      exact ⟨known, fun _ _ _ => recovered⟩
  | hands owes goes =>
      obtain ⟨consumer, -, -, rfl⟩ := done_of_advance h hturn
      exact ⟨reached.hands positive handled hturn owes goes h kept, nofun⟩
  | fails =>
      obtain ⟨consumer, -, -, rfl⟩ := done_of_advance h hturn
      exact ⟨known_of_error hturn h, nofun⟩
  | crashes =>
      unfold StreamConsumer.advance at h
      rw [hturn] at h
      cases h

/-- A reply to a fetch tells that it fails, or takes the replay to where the fetch then stands. -/
theorem Waiting.answered {resume : Redis.Result → Fetch} {r : Redis.Result}
    (waiting : Waiting place a held s resume) (sorted : InOrder place held) (positive : 0 < s.slots)
    (answered : Answered place s.reader (asked a.log) held (.answered r)) :
    Fails s.reader (resume r) ∨ Sound (resume r) ∧ At place a held s (resume r) := by
  cases waiting with
  | page after position asked reached =>
      cases hr : r.bind readEntries with
      | error fault =>
          refine Or.inl fun max block now => ⟨fault.toQueue, position, ?_⟩
          simp only [StreamReader.fetchTurn, hr, StreamReader.failing]
      | ok page =>
          obtain rfl := answered r after s.slots rfl asked page hr
          refine Or.inr ⟨⟨_, hr⟩, ?_⟩
          unfold At busy due
          rw [Replay.ahead_replayed, owed, entries_eq hr]
          exact Reached.page ⟨after, s.slots, held⟩ sorted positive reached
  | reply goes => exact goes r

/-- While ids are lost, what is known of a consumer to which nothing happens is kept. -/
theorem Known.lose (known : Known place a held s) (kept : Kept [] lost held held') :
    Known place (a.lose lost) held' s where
  idle phase := (known.idle phase).lose kept (List.nil_subset _)
  waiting resume waits := by
    obtain ⟨positive, waiting⟩ := known.waiting resume waits
    refine ⟨positive, ?_⟩
    cases waiting with
    | page after position asked reached =>
        exact .page after position asked (reached.lose kept (List.nil_subset _))
    | reply goes =>
        exact .reply fun r => (goes r).imp_right fun ⟨sound, reached⟩ =>
          ⟨sound, Reached.lose reached kept (List.nil_subset _)⟩

/-- A consumer that starts has everything before it. -/
theorem known_of_start {reader : StreamReader} {prefetch : Nat}
    (first : ∀ e ∈ held, place replayStart < place e.id) :
    Known place (.start held) held (start reader prefetch).1 where
  idle _ :=
    { passed := fun e mem before => absurd (before _ rfl) (first e mem).not_ge
      left := fun _ mem _ _ _ => Or.inl mem
      behind := nofun }
  waiting := nofun

/-- Whatever happens to a consumer, what is known of it is kept, and it reads beyond what was
pending only when that has been recovered. -/
theorem Known.next {reader : StreamReader} {prefetch : Nat} (known : Known place a held s)
    (runs : Runs reader prefetch a.log s) (sorted : InOrder place held)
    (answered : Answered place s.reader (asked a.log) held event)
    (h : s.step now event = some (s', sent))
    (kept : Kept (sent.flatMap (·.command.acknowledged)) lost held held') :
    Known place (a.next ⟨s, event, sent⟩ (s.consumer.begins s'.consumer) lost) held' s' ∧
      ∀ dispatch ∈ sent, ReadsBeyond dispatch.command → a.Recovered s.reader.queue := by
  obtain ⟨events, begun, within, -⟩ := stands_of_runs runs
  obtain ⟨-, handled, -⟩ := Consumer.kept_of_runs within
  cases move_of_step h with
  | @tends _ consumer _ phase tasks idle acks =>
      refine ⟨⟨fun now => ?_, fun resume waits => ?_⟩, fun dispatch mem beyond => ?_⟩
      · exact (known.idle (phase ▸ now)).later kept acks tasks nofun
      · obtain ⟨positive, waiting⟩ := known.waiting resume waits
        have same : slots { s with consumer } = s.slots := by
          unfold slots
          rw [phase]
        refine ⟨same ▸ positive, waiting.later rfl same tasks kept acks ?_⟩
        exact fun dispatch mem => (idle dispatch mem).1
      · exact ((idle dispatch mem).2 beyond).elim
  | declares phase =>
      refine ⟨known_of_idle (known.pending_eq_none fun n => ?_) fun _ => ?_, nofun⟩
      · rw [phase]
        nofun
      · exact (known.idle (Or.inl phase)).later kept (List.nil_subset _) (List.Subset.refl _) nofun
  | stops =>
      refine ⟨known_of_idle rfl fun phase => ?_, nofun⟩
      rcases phase with h | h <;> cases h
  | ends phase =>
      refine ⟨known_of_idle (known.pending_eq_none fun n => ?_) fun now => ?_, nofun⟩
      · rcases phase with h | ⟨h, -⟩ <;> rw [h] <;> nofun
      · rcases now with h | h <;> cases h
  | acquired phase free turn =>
      -- The slots are taken before the fetch begins, and no task begins with that.
      have ready : At place a held
          { s with consumer := { s.consumer with phase := .fetching s.consumer.free } }
          ⟨s.position, .choosing⟩ :=
        (at_iff_of_free rfl).2 (known.idle (Or.inr phase))
      have still : Consumer.Handled (.acquired :: events) _
          { s.consumer with phase := .fetching s.consumer.free } := handled.idle rfl rfl rfl
      exact ready.advance trivial free still
        (StreamReader.sends_choosing (P := fun _ => False) rfl) turn rfl kept
  | @answered r resume _ _ waits turn =>
      obtain ⟨positive, waiting⟩ := known.waiting _ waits
      obtain ⟨command, -, holds⟩ := waits_of_runs runs resume waits
      rcases waiting.answered sorted positive answered with fails | ⟨sound, reached⟩
      · obtain ⟨e, position, hturn⟩ := fails s.slots s.block now
        obtain ⟨consumer, -, -, rfl⟩ := done_of_advance turn hturn
        exact ⟨known_of_error hturn turn, nofun⟩
      · exact reached.advance sound positive handled (StreamReader.sends_fetchTurn (holds r)) turn
          rfl kept

end

end Settlement.StreamConsumer
