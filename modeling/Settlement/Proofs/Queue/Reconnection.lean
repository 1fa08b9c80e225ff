import Settlement.Proofs.Queue.Stream.Recovery
import Settlement.Proofs.Queue.Stream.Redelivery
import Settlement.Proofs.Queue.Supervision

/-!
# Connecting anew

A supervisor connects anew when a connection is lost. `account log` is the session of the connection
in use, or of the one used last, and `Serves place reader log` says that the server held entries as
pending for the consumer all the while, and answered the reads of them with pages.

Each connection starts with the entries that are pending for the consumer (`replays_of_runs`), and
when the server serves them, all of them are handed over before anything else is read
(`recovered_of_runs`). With what is known of how a supervisor pauses and ends, this is
`recovers_of_runs`.
-/

namespace Settlement.Supervisor

open Queue.Stream
open StreamConsumer (Answered Kept Known Opens ReadsBeyond Session asked fetches)

/-- The session of the connection in use, or of the one used last. -/
def account : List Passage → Session
  | [] => .start []
  | p :: earlier =>
    match p.before.doing, p.event with
    | .connecting, .connected (.ok ()) => (Session.start p.pending).lose p.lost
    | .consuming s, .consumer event => (account earlier).next ⟨s, event, p.sent⟩ p.begun p.lost
    | _, _ => (account earlier).lose p.lost

section

variable {α : Type} [LinearOrder α] (place : String → α) (reader : StreamReader)

/-- The server holds the pending entries in the order of their ids, keeps them until they are
acknowledged or lost, and answers a read of them with a page. -/
structure Serves (log : List Passage) : Prop where
  sorted : ∀ p ∈ log, InOrder place p.pending
  first : ∀ p ∈ log, ∀ e ∈ p.pending, place replayStart < place e.id
  kept : ∀ q p earlier, q :: p :: earlier <:+ log →
    Kept p.acknowledged p.lost p.pending q.pending
  answers : ∀ p earlier, p :: earlier <:+ log → ∀ event, p.event = .consumer event →
    Answered place reader (asked (account earlier).log) p.pending event

/-- What a supervisor does over its connections. -/
structure Recovers (delay : Duration) (requested : Bool) (log : List Passage) (s : Supervisor) :
    Prop where
  /-- It ends well only when a shutdown was asked for. -/
  ok : s.doing = .stopped (.ok ()) → requested = true ∨ ∃ p ∈ log, p.event = .shutdown
  /-- It fails only on an error other than the loss of a connection. -/
  error : ∀ e, s.doing = .stopped (.error e) → e ≠ .reconnect ∧ ∃ p ∈ log, p.Fails e
  /-- When a connection is lost it pauses, unless a shutdown was asked for. -/
  pauses : ∀ p ∈ log, p.Fails .reconnect → p.after.doing =
    if p.before.shutdown then .stopped (.ok ()) else .pausing (p.now + delay.nanos)
  /-- Nothing is sent and no handler begins until it connects anew, which it does when the pause is
  over, or until a shutdown ends the pause. -/
  waits : ∀ q p earlier, q :: p :: earlier <:+ log → p.Fails .reconnect →
    q.sent = [] ∧ q.begun = [] ∧
      (q.event = .shutdown ∧ q.after.doing = .stopped (.ok ()) ∨
        q.event = .pauseOver ∧ p.now + delay.nanos ≤ q.now ∧ q.after.doing = .connecting)
  /-- On each connection, what is read first is pending for the consumer, from the start. -/
  replays : ∀ earlier, earlier <:+ log → ∀ first,
    (fetches (account earlier).log).getLast? = some first → ∃ count, 0 < count ∧
      first = .readPending reader.queue reader.group reader.consumer replayStart count
  /-- Nothing beyond that is read before each message that was pending when the connection was made
  has been handed to a handler, or was lost. -/
  recovered : Serves place reader log → ∀ p earlier, p :: earlier <:+ log →
    ∀ dispatch ∈ p.sent, ReadsBeyond dispatch.command → (account earlier).Recovered reader.queue

end

section

variable {reader : StreamReader} {prefetch : Nat} {delay : Duration} {requested : Bool}
  {log earlier : List Passage} {s s' : Supervisor} {now : Instant} {event : Event}
  {sent : List Dispatch} {p q : Passage} {e : QueueError}

/-! ## The sessions -/

theorem account_connected (doing : p.before.doing = .connecting)
    (event : p.event = .connected (.ok ())) :
    account (p :: log) = (Session.start p.pending).lose p.lost := by
  rw [account, doing, event]

theorem account_consumer {c : StreamConsumer} {within : StreamConsumer.Event}
    (doing : p.before.doing = .consuming c) (event : p.event = .consumer within) :
    account (p :: log) = (account log).next ⟨c, within, p.sent⟩ p.begun p.lost := by
  rw [account, doing, event]

theorem account_of_no_connection (unconnected : p.event ≠ .connected (.ok ()))
    (quiet : ∀ within, p.event ≠ .consumer within) :
    account (p :: log) = (account log).lose p.lost := by
  rw [account]
  split
  next event => exact absurd event unconnected
  next event => exact absurd event (quiet _)
  next => rfl

/-- A consumer at work has come there by a run of its own on this connection. -/
theorem session_of_runs (runs : Runs reader prefetch delay requested log s) {c : StreamConsumer}
    (doing : s.doing = .consuming c) :
    StreamConsumer.Runs reader prefetch (account log).log c ∧ Opens (account log).log c := by
  induction runs generalizing c with
  | start => exact absurd doing (connectOrStop_ne_consuming c)
  | next now before h pending lost ih =>
      obtain ⟨hreader, hprefetch, -⟩ := settings_of_runs before
      cases change_of_step h with
      | connects idle =>
          obtain rfl := Supervision.consuming.inj doing
          rw [account_connected idle rfl, hreader, hprefetch]
          exact ⟨.start _ _, Or.inl ⟨rfl, rfl, rfl⟩⟩
      | fails => exact absurd doing (after_ne_consuming _ c)
      | consumes busy told hstep =>
          obtain rfl := Supervision.consuming.inj doing
          obtain ⟨within, opens⟩ := ih busy
          rw [account_consumer busy rfl]
          exact ⟨within.next now hstep, opens.next hstep⟩
      | ends => exact absurd doing (after_ne_consuming _ c)
      | told awake =>
          rw [account_of_no_connection]
          · exact ih doing
          · nofun
          · nofun
      | wakes => cases doing
      | resumes => exact absurd doing (connectOrStop_ne_consuming c)

/-- What was read first on a connection stays that, also when the connection is no more. -/
theorem replays_of_runs (runs : Runs reader prefetch delay requested log s) {first : Redis.Command}
    (h : (fetches (account log).log).getLast? = some first) : ∃ count, 0 < count ∧
      first = .readPending reader.queue reader.group reader.consumer replayStart count := by
  induction runs with
  | start => cases h
  | @next log s s' event sent now before hstep pending lost ih =>
      have consumes : ∀ {c c' : StreamConsumer} {within : StreamConsumer.Event},
          s.doing = .consuming c → event = .consumer within → c.step now within = some (c', sent) →
          ∃ count, 0 < count ∧
            first = .readPending reader.queue reader.group reader.consumer replayStart count := by
        rintro c c' within busy rfl step
        obtain ⟨runs, opens⟩ := session_of_runs before busy
        rw [account_consumer busy rfl] at h
        rcases opens.next step with ⟨hnil, -, -⟩ | ⟨count, positive, hfirst⟩
        · rw [Session.next, hnil] at h
          cases h
        · refine ⟨count, positive, Option.some.inj (h.symm.trans (hfirst.trans ?_))⟩
          rw [StreamConsumer.reader_of_step step, StreamConsumer.reader_of_runs runs]
      cases change_of_step hstep with
      | connects idle =>
          rw [account_connected idle rfl] at h
          cases h
      | consumes busy told step => exact consumes busy rfl step
      | ends busy told step => exact consumes busy rfl step
      | _ =>
          rw [account_of_no_connection] at h
          · exact ih h
          · exact fun told => by cases told
          · exact fun _ told => by cases told

/-! ## What is recovered -/

section

variable {α : Type} [LinearOrder α] {place : String → α}

theorem Serves.tail (serves : Serves place reader (p :: log)) : Serves place reader log where
  sorted q mem := serves.sorted q (List.mem_cons_of_mem _ mem)
  first q mem := serves.first q (List.mem_cons_of_mem _ mem)
  kept q r earlier h := serves.kept q r earlier (h.trans (List.suffix_cons p log))
  answers q earlier h := serves.answers q earlier (h.trans (List.suffix_cons p log))

theorem Serves.kept_head (serves : Serves place reader (p :: log)) :
    ∀ q ∈ log.head?, Kept q.acknowledged q.lost q.pending p.pending := by
  intro q' h
  cases log with
  | nil => cases h
  | cons q earlier =>
      obtain rfl := Option.some.inj h
      exact serves.kept p q earlier (List.suffix_refl _)

theorem serves_nil : Serves place reader [] where
  sorted := List.forall_mem_nil _
  first := List.forall_mem_nil _
  kept q p earlier h := by cases List.suffix_nil.1 h
  answers p earlier h := by cases List.suffix_nil.1 h

/-- What is served before goes on being served. -/
theorem Serves.cons (serves : Serves place reader log) (sorted : InOrder place p.pending)
    (first : ∀ e ∈ p.pending, place replayStart < place e.id)
    (kept : ∀ q ∈ log.head?, Kept q.acknowledged q.lost q.pending p.pending)
    (answers : ∀ event, p.event = .consumer event →
      Answered place reader (StreamConsumer.asked (account log).log) p.pending event) :
    Serves place reader (p :: log) where
  sorted := List.forall_mem_cons.2 ⟨sorted, serves.sorted⟩
  first := List.forall_mem_cons.2 ⟨first, serves.first⟩
  kept q r earlier h := by
    rcases List.suffix_cons_iff.1 h with heq | later
    · obtain ⟨rfl, rfl⟩ := List.cons.inj heq
      exact kept r rfl
    · exact serves.kept q r earlier later
  answers q earlier h := by
    rcases List.suffix_cons_iff.1 h with heq | later
    · obtain ⟨rfl, rfl⟩ := List.cons.inj heq
      exact answers
    · exact serves.answers q earlier later

/-- What is known of a consumer at work, of what the server holds as pending then. -/
theorem known_of_runs (runs : Runs reader prefetch delay requested log s)
    (serves : Serves place reader log) {held : List Queue.Stream.Entry}
    (kept : ∀ p ∈ log.head?, Kept p.acknowledged p.lost p.pending held) {c : StreamConsumer}
    (doing : s.doing = .consuming c) : Known place (account log) held c := by
  induction runs generalizing held c with
  | start => exact absurd doing (connectOrStop_ne_consuming c)
  | @next log s s' event sent now before h pending lost ih =>
      have served := serves.tail
      have still := serves.kept_head
      have goes := kept _ rfl
      cases change_of_step h with
      | connects idle =>
          obtain rfl := Supervision.consuming.inj doing
          rw [account_connected idle rfl]
          exact (StreamConsumer.known_of_start (serves.first _ List.mem_cons_self)).lose goes
      | fails => exact absurd doing (after_ne_consuming _ c)
      | consumes busy told hstep =>
          obtain rfl := Supervision.consuming.inj doing
          have within := (session_of_runs before busy).1
          have answered := serves.answers _ log (List.suffix_refl _) _ rfl
          rw [← StreamConsumer.reader_of_runs within] at answered
          rw [account_consumer busy rfl, Passage.begun, busy]
          exact ((ih served still busy).next within (serves.sorted _ List.mem_cons_self) answered
            hstep goes).1
      | ends => exact absurd doing (after_ne_consuming _ c)
      | told awake =>
          rw [account_of_no_connection]
          · exact (ih served still doing).lose goes
          · nofun
          · nofun
      | wakes => cases doing
      | resumes => exact absurd doing (connectOrStop_ne_consuming c)

theorem Serves.of_suffix (serves : Serves place reader log) (h : earlier <:+ log) :
    Serves place reader earlier := by
  induction log with
  | nil => exact List.suffix_nil.1 h ▸ serves
  | cons p log ih =>
      rcases List.suffix_cons_iff.1 h with rfl | later
      · exact serves
      · exact ih serves.tail later

/-- A command that reads beyond what was pending is sent when all of that has been recovered. -/
theorem recovered_of_runs (runs : Runs reader prefetch delay requested log s)
    (serves : Serves place reader log) (h : p :: earlier <:+ log) {dispatch : Dispatch}
    (mem : dispatch ∈ p.sent) (beyond : ReadsBeyond dispatch.command) :
    (account earlier).Recovered reader.queue := by
  obtain ⟨before, step⟩ := runs_of_suffix runs h
  have served := serves.of_suffix h
  have consumes : ∀ {c c' : StreamConsumer} {within : StreamConsumer.Event},
      p.before.doing = .consuming c → p.event = .consumer within →
      c.step p.now within = some (c', p.sent) → (account earlier).Recovered reader.queue := by
    intro c c' within busy hevent hstep
    have run := (session_of_runs before busy).1
    have known := known_of_runs before served.tail served.kept_head busy
    have answered := served.answers p earlier (List.suffix_refl _) within hevent
    rw [← StreamConsumer.reader_of_runs run] at answered ⊢
    -- What is pending afterwards is of no account here.
    have still : Kept p.acknowledged [] p.pending p.pending := fun e he => Or.inr (Or.inr he)
    exact (known.next run (served.sorted p List.mem_cons_self) answered hstep still).2 dispatch mem
      beyond
  have change := change_of_step step
  generalize hsent : p.sent = sent, hevent : p.event = event, p.after = s' at change mem consumes
  cases change with
  | connects => exact (List.mem_singleton.1 mem ▸ beyond).elim
  | consumes busy told hstep => exact consumes busy rfl hstep
  | ends busy told hstep => exact consumes busy rfl hstep
  | _ => cases mem

/-- Whatever comes of the connections, whatever the server replies, in whatever order handlers end,
and whenever a shutdown is asked for: the supervisor ends well only on a shutdown, and fails only
when connecting or consuming failed on an error other than the loss of a connection. When a
connection is lost it pauses, a shutdown cutting the pause short, and begins no handler meanwhile.
Each connection starts with a read of the consumer's own pending entries from the first one on, and
when the server serves these, every message among them is handed to a handler before a new entry is
read. -/
theorem recovers_of_runs (runs : Runs reader prefetch delay requested log s) :
    Recovers place reader delay requested log s where
  ok doing := requested_of_runs runs (told_of_runs runs doing)
  error e doing := failed_of_runs runs doing
  pauses p mem fails := by
    obtain ⟨later, earlier, rfl⟩ := List.append_of_mem mem
    exact (pauses_of_fails runs (List.suffix_append later _) fails).2
  waits q p earlier h fails := waits_of_fails runs h fails
  replays earlier h first hfirst := by
    obtain ⟨s', run⟩ := exists_of_suffix runs h
    exact replays_of_runs run hfirst
  recovered serves p earlier h dispatch mem beyond := recovered_of_runs runs serves h mem beyond

end

end

namespace Sample

open Queue.Stream.Replay.Mixed (place reader first second places)

/-- The reply of a server that holds these entries as pending. -/
def reply (held : List Queue.Stream.Entry) : Option Redis.Command → Redis.Result
  | some (.readPending queue _ _ after count) =>
    .ok (pageReply queue (PendingRead.page place ⟨after, count, held⟩))
  | _ => .ok .nil

/-- A supervisor to which things happen one after the other at these instants, and where nothing is
named, the server replies. -/
def play (held : List Queue.Stream.Entry) :
    List (Instant × Option Event) → List Passage → Supervisor → Option (List Passage × Supervisor)
  | [], log, s => some (log, s)
  | (now, cue) :: cues, log, s => do
    let event := cue.getD (.consumer (.answered (reply held (asked (account log).log))))
    let (s', sent) ← s.step now event
    play held cues (⟨s, now, event, sent, s', held, []⟩ :: log) s'

section

variable {reader : StreamReader} {prefetch : Nat} {delay : Duration} {requested : Bool}
  {log log' : List Passage} {s s' : Supervisor} {held : List Queue.Stream.Entry}
  {cues : List (Instant × Option Event)}

theorem runs_of_play (runs : Runs reader prefetch delay requested log s)
    (h : play held cues log s = some (log', s')) :
    Runs reader prefetch delay requested log' s' := by
  induction cues generalizing log s with
  | nil =>
      obtain ⟨rfl, rfl⟩ := Prod.mk.inj (Option.some.inj h)
      exact runs
  | cons cue cues ih =>
      simp only [play, Option.bind_eq_bind, Option.bind_eq_some_iff] at h
      obtain ⟨⟨s₁, sent⟩, hstep, hplay⟩ := h
      exact ih (runs.next cue.1 hstep held []) hplay

theorem answered_reply (last : Option Redis.Command) :
    Answered place reader last held (.answered (reply held last)) := by
  intro r after count hevent hlast page hpage
  obtain rfl := StreamConsumer.Event.answered.inj hevent
  subst hlast
  exact Except.ok.inj (hpage.symm.trans (readEntries_pageReply _ _))

/-- The server serves what it holds. -/
theorem serves_of_play (sorted : InOrder place held)
    (first : ∀ e ∈ held, place replayStart < place e.id)
    (named : ∀ cue ∈ cues, ∀ r, cue.2 ≠ some (.consumer (.answered r)))
    (serves : Serves place reader log) (same : ∀ p ∈ log, p.pending = held)
    (h : play held cues log s = some (log', s')) : Serves place reader log' := by
  induction cues generalizing log s with
  | nil =>
      obtain ⟨rfl, -⟩ := Prod.mk.inj (Option.some.inj h)
      exact serves
  | cons cue cues ih =>
      simp only [play, Option.bind_eq_bind, Option.bind_eq_some_iff] at h
      obtain ⟨⟨s₁, sent⟩, hstep, hplay⟩ := h
      refine ih (fun cue mem => named cue (List.mem_cons_of_mem _ mem)) ?_ ?_ hplay
      · refine serves.cons sorted first ?_ ?_
        · exact fun q mem e he => Or.inr (Or.inr (same q (List.mem_of_mem_head? mem) ▸ he))
        · intro within hevent
          cases hcue : cue.2 with
          | none =>
              rw [hcue] at hevent
              obtain rfl := Event.consumer.inj hevent
              exact answered_reply _
          | some event =>
              intro r after count answered
              rw [hcue, answered] at hevent
              exact absurd (hcue.trans (congrArg some hevent)) (named cue List.mem_cons_self r)
      · exact List.forall_mem_cons.2 ⟨rfl, same⟩

end

/-- Two messages are pending. -/
def held : List Queue.Stream.Entry := [first, second]

/-- A connection that cannot be made, and after the pause one on which both messages are handed
over, one of them left by its handler. -/
def cues : List (Instant × Option Event) :=
  [(0, some (.connected (.error .reconnect))), (5000000000, some .pauseOver),
    (5000000000, some (.connected (.ok ()))), (5000000000, some (.consumer (.declared (.ok .nil)))),
    (5000000000, some (.consumer .acquired)), (5000000000, none),
    (6000000000, some (.consumer (.handled 0 .abandoned))),
    (6000000000, some (.consumer .acquired)), (6000000000, none)]

theorem sorted : InOrder place held := by
  obtain ⟨-, h, h'⟩ := places
  simp [InOrder, held, first, second, h.trans h']

theorem behind_start : ∀ e ∈ held, place replayStart < place e.id := by
  obtain ⟨h, h', h''⟩ := places
  simp [replayStart, held, first, second, h, (h.trans h').trans h'']

end Sample

open Sample Queue.Stream.Replay in
/-- After a lost connection, both messages are read again before anything is taken over. -/
theorem recovers_of_runs_two_messages : ∃ log s,
    Runs Mixed.reader 2 (.ofSecs 5) false log s ∧ Serves Mixed.place Mixed.reader log ∧
      (log.flatMap (·.sent)).map (·.command) =
        [.takeOver "payments" "settlers" "settler-1" 600000 "0-0" 1,
          .readPending "payments" "settlers" "settler-1" "2-0" 1,
          .readPending "payments" "settlers" "settler-1" "0" 2,
          .createGroup "payments" "settlers"] ∧
      Recovers Mixed.place Mixed.reader (.ofSecs 5) false log s := by
  have hcommands : (play held cues [] (start Mixed.reader 2 (.ofSecs 5) false)).map
      (fun x => (x.1.flatMap (·.sent)).map (·.command)) =
        some [.takeOver "payments" "settlers" "settler-1" 600000 "0-0" 1,
          .readPending "payments" "settlers" "settler-1" "2-0" 1,
          .readPending "payments" "settlers" "settler-1" "0" 2,
          .createGroup "payments" "settlers"] := by decide +kernel
  obtain ⟨⟨log, s⟩, hplay, sent⟩ := Option.map_eq_some_iff.1 hcommands
  have runs : Runs Mixed.reader 2 (.ofSecs 5) false log s := runs_of_play .start hplay
  have serves : Serves Mixed.place Mixed.reader log := by
    refine serves_of_play sorted behind_start ?_ serves_nil (List.forall_mem_nil _) hplay
    simp [cues]
  exact ⟨log, s, runs, serves, sent, recovers_of_runs runs⟩

end Settlement.Supervisor
