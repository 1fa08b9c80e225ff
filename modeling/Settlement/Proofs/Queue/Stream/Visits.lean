import Settlement.Proofs.Queue.Stream.Replay

/-!
# Fetches that come to their end

A `Visit` is a fetch from its beginning to its end, with everything that it sent, the replies, and
the instants. `Visits s visits position now` says that fetches, one after the other, have all ended
without a failure and have come to `position` at `now`. The clock never goes back; the replies of
the server are whatever they are.

`Does` says what such a fetch reads, in its order: pages of the replay while there are any, and
after them what `Onward` says, which is new entries or a part of a sweep. Acknowledgements are left
out of it (`reads`).
-/

namespace Settlement

open Redis (Command Reply Fault)

namespace Queue.Stream

open Replay (entries entries_eq taken)

/-- A command that was sent at an instant, with the reply to it. -/
structure Sent where
  instant : Instant
  command : Command
  reply : Redis.Result

namespace Sent

/-- It is no acknowledgement. -/
def isRead (x : Sent) : Bool :=
  match x.command with
  | .acknowledge _ _ _ => false
  | _ => true

end Sent

/-- A fetch of at most `max` messages that ended with some, or with none. -/
structure Visit where
  max : Nat
  block : Duration
  began : Instant
  sent : List Sent
  ended : Instant
  batch : List Delivery

/-- All that was sent but acknowledgements. -/
def reads (sent : List Sent) : List Sent := sent.filter Sent.isRead

/-- When a fetch went on: with the next thing that it read, else with its end. -/
def resumed (ended : Instant) (later : List Sent) : Instant :=
  (later.head?.map (·.instant)).getD ended

/-- The messages in entries that were read. -/
def messages (queue : String) (page : List Entry) : List Delivery := (split queue true page).1

/-- The id behind which a replay goes on after a page. -/
def lastId (page : List Entry) : Option String := page.getLast?.map (·.id)

section

variable (s : StreamReader) (max : Nat) (block : Duration)

/-- A fetch that takes a turn at an instant comes to its end by what it sends from then on. -/
inductive Proceeds : Instant → Fetch → List Sent → Instant → Fetched → Prop
  | ends {now : Instant} {f : Fetch} {fetched : Fetched}
      (turn : s.fetchTurn max block now f = .done fetched) : Proceeds now f [] now fetched
  | asks {now next ended : Instant} {f : Fetch} {command : Command} {cut : Option (Cut Fetch)}
      {resume : Redis.Result → Fetch} {r : Redis.Result} {sent : List Sent} {fetched : Fetched}
      (turn : s.fetchTurn max block now f = .ask command cut resume) (later : now ≤ next)
      (rest : Proceeds next (resume r) sent ended fetched) :
      Proceeds now f (⟨now, command, r⟩ :: sent) ended fetched

/-- The command that reads new entries. -/
def newEntries : Command :=
  .readNew s.queue s.group s.consumer max (StreamReader.blockMillis block)

/-- The command that reads a page of the replay. -/
def pageBehind (after : String) : Command := .readPending s.queue s.group s.consumer after max

/-- The command that asks for a part of a sweep. -/
def partFrom (start : String) : Command :=
  .takeOver s.queue s.group s.consumer s.idleMillis start max

/-- What a fetch reads from an instant on when the replay is over. Before the next sweep is due it
reads new entries. Else it goes on with the sweep where the last one stopped, and reads new entries
only if nothing came of that. -/
inductive Onward (p : Position) (now ended : Instant) : List Sent → Position → Prop
  | polls {due : Instant} {r : Redis.Result} (known : p.nextSweep = some due) (early : now < due) :
      Onward p now ended [⟨now, newEntries s max block, r⟩] p
  | sweeps {r : Redis.Result} {next : String} {page : List Entry} {later : List Sent}
      {p' : Position} (due : ∀ due, p.nextSweep = some due → due ≤ now)
      (took : r.bind readTakeOver = .ok (next, page))
      (swept : p.swept? next (resumed ended later) s.claimIdle = some p')
      (fruitless : messages s.queue page = [] →
        ∃ instant r', later = [⟨instant, newEntries s max block, r'⟩])
      (fruitful : messages s.queue page ≠ [] → later = []) :
      Onward p now ended (⟨now, partFrom s max p.cursor, r⟩ :: later) p'

/-- What a fetch reads from an instant on. A page of the replay without a message is followed by the
next one, or by what comes after the replay. -/
inductive Does : Position → Instant → Instant → List Sent → Position → Prop
  | goesOn {p p' : Position} {now ended : Instant} {read : List Sent} (done : p.replay = none)
      (onward : Onward s max block p now ended read p') : Does p now ended read p'
  | hands {p : Position} {now ended : Instant} {after : String} {r : Redis.Result}
      (replaying : p.replay = some after) (full : messages s.queue (entries r) ≠ []) :
      Does p now ended [⟨now, pageBehind s max after, r⟩] (p.replayed (lastId (entries r)))
  | turns {p p' : Position} {now next ended : Instant} {after : String} {r : Redis.Result}
      {read : List Sent} (replaying : p.replay = some after)
      (free : messages s.queue (entries r) = []) (later : now ≤ next)
      (rest : Does (p.replayed (lastId (entries r))) next ended read p') :
      Does p now ended (⟨now, pageBehind s max after, r⟩ :: read) p'

end

/-- Fetches have come to their end one after the other, none with a failure. -/
inductive Visits (s : StreamReader) : List Visit → Position → Instant → Prop
  | start (now : Instant) : Visits s [] .start now
  | next {visits : List Visit} {p p' : Position} {now : Instant} {v : Visit}
      (before : Visits s visits p now) (later : now ≤ v.began)
      (proceeds : Proceeds s v.max v.block v.began ⟨p, .choosing⟩ v.sent v.ended
        ⟨.ok v.batch, p'⟩) :
      Visits s (visits ++ [v]) p' v.ended

section

variable {s : StreamReader} {max : Nat} {block : Duration} {now ended : Instant} {f : Fetch}
  {sent : List Sent} {fetched : Fetched} {p p' : Position} {batch : List Delivery}

namespace Proceeds

theorem le_ended (h : Proceeds s max block now f sent ended fetched) : now ≤ ended := by
  induction h with
  | ends turn => exact Nat.le_refl _
  | asks turn later rest ih => exact Nat.le_trans later ih

theorem of_done {fetched' : Fetched} (h : Proceeds s max block now f sent ended fetched)
    (turn : s.fetchTurn max block now f = .done fetched') :
    sent = [] ∧ ended = now ∧ fetched = fetched' := by
  cases h with
  | ends turn' => exact ⟨rfl, rfl, Turn.done.inj (turn'.symm.trans turn)⟩
  | asks turn' later rest => cases turn'.symm.trans turn

theorem of_ask {command : Command} {cut : Option (Cut Fetch)} {resume : Redis.Result → Fetch}
    (h : Proceeds s max block now f sent ended fetched)
    (turn : s.fetchTurn max block now f = .ask command cut resume) :
    ∃ r next rest, sent = ⟨now, command, r⟩ :: rest ∧ now ≤ next ∧
      Proceeds s max block next (resume r) rest ended fetched := by
  cases h with
  | ends turn' => cases turn'.symm.trans turn
  | asks turn' later rest =>
      obtain ⟨rfl, -, hresume⟩ := Turn.ask.inj (turn'.symm.trans turn)
      exact ⟨_, _, _, rfl, later, eq_of_heq hresume ▸ rest⟩

/-- A fetch that does not fail has not come to a failure. -/
theorem not_failing (position : Position) (fault : Fault)
    (h : Proceeds s max block now f sent ended ⟨.ok batch, p'⟩)
    (turn : s.fetchTurn max block now f = StreamReader.failing position fault) : False := by
  obtain ⟨-, -, heq⟩ := h.of_done turn
  cases heq

/-- Acknowledging what holds no message comes before what is done then, and is no read. -/
theorem of_settle (position : Position) {unreadable : List String}
    (stage : Redis.Result → FetchStage) (next : Instant → FetchTurn)
    (h : Proceeds s max block now f sent ended ⟨.ok batch, p'⟩)
    (turn : s.fetchTurn max block now f = s.settle position unreadable stage (next now))
    (settled : ∀ now r n, r.bind Reply.int? = .ok n →
      s.fetchTurn max block now ⟨position, stage r⟩ = next now)
    (fails : ∀ now r fault, r.bind Reply.int? = .error fault →
      s.fetchTurn max block now ⟨position, stage r⟩ = StreamReader.failing position fault) :
    ∃ instant f' rest, now ≤ instant ∧ reads sent = reads rest ∧ rest.length ≤ sent.length ∧
      s.fetchTurn max block instant f' = next instant ∧
      Proceeds s max block instant f' rest ended ⟨.ok batch, p'⟩ := by
  unfold StreamReader.settle at turn
  split at turn
  · exact ⟨now, f, sent, Nat.le_refl _, rfl, Nat.le_refl _, turn, h⟩
  · obtain ⟨r, instant, rest, rfl, later, hrest⟩ := h.of_ask turn
    cases hr : r.bind Reply.int? with
    | error fault => exact (hrest.not_failing position fault (fails instant r fault hr)).elim
    | ok n =>
        refine ⟨instant, _, rest, later, ?_, Nat.le_succ _, settled instant r n hr, hrest⟩
        exact List.filter_cons_of_neg (by simp [Sent.isRead])

theorem polled {r : Redis.Result}
    (h : Proceeds s max block now ⟨p, .polled r⟩ sent ended ⟨.ok batch, p'⟩) :
    reads sent = [] ∧ p' = p := by
  cases hr : r.bind readEntries with
  | error fault => exact (h.not_failing p fault (by simp only [StreamReader.fetchTurn, hr])).elim
  | ok page =>
      obtain ⟨instant, f', rest, -, hreads, -, turn, hrest⟩ := h.of_settle p
        (.pollSettled (split s.queue false page).1)
        (fun _ => .done ⟨.ok (split s.queue false page).1, p⟩)
        (by simp only [StreamReader.fetchTurn, hr]; rfl)
        (fun now r n hn => by simp only [StreamReader.fetchTurn, hn])
        (fun now r fault hn => by simp only [StreamReader.fetchTurn, hn])
      obtain ⟨rfl, -, heq⟩ := hrest.of_done turn
      exact ⟨hreads, (Fetched.mk.inj heq).2⟩

theorem poll (h : Proceeds s max block now f sent ended ⟨.ok batch, p'⟩)
    (turn : s.fetchTurn max block now f = s.poll max block p) :
    (∃ r, reads sent = [⟨now, newEntries s max block, r⟩]) ∧ p' = p := by
  obtain ⟨r, instant, rest, rfl, -, hrest⟩ := h.of_ask turn
  obtain ⟨hreads, heq⟩ := hrest.polled
  refine ⟨⟨r, ?_⟩, heq⟩
  rw [reads, List.filter_cons_of_pos rfl, ← reads, hreads]
  rfl

/-- A part of a sweep is noted at the instant at which the fetch goes on. -/
theorem afterSweep {next : String} {claimed : List Delivery}
    (h : Proceeds s max block now f sent ended ⟨.ok batch, p'⟩)
    (turn : s.fetchTurn max block now f = s.afterSweep max block now p next claimed) :
    p.swept? next (resumed ended (reads sent)) s.claimIdle = some p' ∧
      (claimed = [] → ∃ instant r, reads sent = [⟨instant, newEntries s max block, r⟩]) ∧
      (claimed ≠ [] → reads sent = []) := by
  unfold StreamReader.afterSweep at turn
  split at turn
  next =>
    cases h with
    | ends turn' => cases turn'.symm.trans turn
    | asks turn' later rest => cases turn'.symm.trans turn
  next position hswept =>
    split at turn
    next hempty =>
      obtain ⟨⟨r, hreads⟩, rfl⟩ := h.poll turn
      rw [hreads]
      exact ⟨hswept, fun _ => ⟨now, r, rfl⟩, fun hne => absurd (List.isEmpty_iff.1 hempty) hne⟩
    next hne =>
      obtain ⟨rfl, rfl, heq⟩ := h.of_done turn
      obtain ⟨-, rfl⟩ := Fetched.mk.inj heq
      exact ⟨hswept, fun hempty => absurd (List.isEmpty_iff.2 hempty) hne, fun _ => rfl⟩

theorem swept {r : Redis.Result}
    (h : Proceeds s max block now ⟨p, .swept r⟩ sent ended ⟨.ok batch, p'⟩) :
    ∃ next page, r.bind readTakeOver = .ok (next, page) ∧
      p.swept? next (resumed ended (reads sent)) s.claimIdle = some p' ∧
      (messages s.queue page = [] →
        ∃ instant r', reads sent = [⟨instant, newEntries s max block, r'⟩]) ∧
      (messages s.queue page ≠ [] → reads sent = []) := by
  cases hr : r.bind readTakeOver with
  | error fault => exact (h.not_failing p fault (by simp only [StreamReader.fetchTurn, hr])).elim
  | ok answer =>
      obtain ⟨next, page⟩ := answer
      obtain ⟨instant, f', rest, -, hreads, -, turn, hrest⟩ := h.of_settle p
        (.sweepSettled next (messages s.queue page))
        (fun now => s.afterSweep max block now p next (messages s.queue page))
        (by simp only [StreamReader.fetchTurn, hr]; rfl)
        (fun now r n hn => by simp only [StreamReader.fetchTurn, hn])
        (fun now r fault hn => by simp only [StreamReader.fetchTurn, hn])
      rw [hreads]
      exact ⟨next, page, rfl, hrest.afterSweep turn⟩

/-- What a fetch reads when the replay is over. -/
theorem onward (h : Proceeds s max block now f sent ended ⟨.ok batch, p'⟩)
    (turn : s.fetchTurn max block now f = s.choose max block now p) (done : p.replay = none) :
    Onward s max block p now ended (reads sent) p' := by
  have sweeps (due : ∀ due, p.nextSweep = some due → due ≤ now)
      (step : p.step now = .sweep p.cursor) : Onward s max block p now ended (reads sent) p' := by
    rw [StreamReader.choose, step] at turn
    obtain ⟨r, instant, rest, rfl, -, hrest⟩ := h.of_ask turn
    obtain ⟨next, page, took, swept, fruitless, fruitful⟩ := hrest.swept
    rw [reads, List.filter_cons_of_pos rfl]
    exact .sweeps due took swept fruitless fruitful
  cases hdue : p.nextSweep with
  | none => exact sweeps (by simp [hdue]) (by simp [Position.step, done, hdue])
  | some due =>
      by_cases early : now < due
      · have step : p.step now = .fresh := by simp [Position.step, done, hdue, early]
        rw [StreamReader.choose, step] at turn
        obtain ⟨⟨r, hreads⟩, rfl⟩ := h.poll turn
        rw [hreads]
        exact .polls hdue early
      · refine sweeps ?_ (by simp [Position.step, done, hdue, early])
        rintro due' hdue'
        exact Option.some.inj (hdue.symm.trans hdue') ▸ Nat.le_of_not_lt early

theorem replayed {r : Redis.Result}
    (h : Proceeds s max block now ⟨p, .replayed r⟩ sent ended ⟨.ok batch, p'⟩) :
    ∃ instant f' rest, now ≤ instant ∧ reads sent = reads rest ∧ rest.length ≤ sent.length ∧
      s.fetchTurn max block instant f' = s.afterReplay max block instant p (lastId (entries r))
        (messages s.queue (entries r)) ∧
      Proceeds s max block instant f' rest ended ⟨.ok batch, p'⟩ := by
  cases hr : r.bind readEntries with
  | error fault => exact (h.not_failing p fault (by simp only [StreamReader.fetchTurn, hr])).elim
  | ok page =>
      rw [entries_eq hr]
      exact h.of_settle p (.replaySettled (lastId page) (messages s.queue page))
        (fun now => s.afterReplay max block now p (lastId page) (messages s.queue page))
        (by simp only [StreamReader.fetchTurn, hr]; rfl)
        (fun now r n hn => by simp only [StreamReader.fetchTurn, hn])
        (fun now r fault hn => by simp only [StreamReader.fetchTurn, hn])

/-- What a fetch reads. The induction is on the number of commands that it sends. -/
theorem does (h : Proceeds s max block now f sent ended ⟨.ok batch, p'⟩)
    (turn : s.fetchTurn max block now f = s.choose max block now p) :
    Does s max block p now ended (reads sent) p' := by
  generalize hn : sent.length = n
  induction n using Nat.strongRecOn generalizing now f sent p with
  | ind n ih =>
      cases hreplay : p.replay with
      | none => exact .goesOn hreplay (h.onward turn hreplay)
      | some after =>
          have step : p.step now = .replay after := by simp [Position.step, hreplay]
          rw [StreamReader.choose, step] at turn
          obtain ⟨r, next, rest, rfl, hnext, hrest⟩ := h.of_ask turn
          obtain ⟨instant, f', rest', hinstant, hreads, hshort, turn', hrest'⟩ := hrest.replayed
          rw [reads, List.filter_cons_of_pos rfl, ← reads, hreads]
          unfold StreamReader.afterReplay at turn'
          dsimp only at turn'
          split at turn'
          next hempty =>
            have hless : rest'.length < n := hn ▸ Nat.lt_succ_of_le hshort
            exact .turns hreplay (List.isEmpty_iff.1 hempty) (Nat.le_trans hnext hinstant)
              (ih rest'.length hless hrest' turn' rfl)
          next hne =>
            obtain ⟨rfl, -, heq⟩ := hrest'.of_done turn'
            obtain ⟨-, rfl⟩ := Fetched.mk.inj heq
            exact .hands hreplay (by simpa using hne)

end Proceeds

end

end Queue.Stream

end Settlement
