import Mathlib.Order.Nat
import Settlement.Proofs.Queue.Stream.Bookkeeping
import Settlement.Proofs.Queue.Stream.Pages

/-!
# What is delivered again

The fetches of a broker that has just connected first hand out what was left pending
(`redelivered_of_runs`): every entry with a message that is still pending when its page is read,
once and in the order of the ids; and they acknowledge the entries without one. Only behind an empty
page does a fetch take over, read new entries, or come back with nothing. A fetch comes to its end
after a bounded number of commands, each of which the server can answer.
-/

namespace Settlement.Queue.Stream.Replay

open Redis (Command)

section

variable {α : Type} [LinearOrder α] (place : String → α) (s : StreamReader)

/-- A fetch goes on: it asks something that the server can answer, or it ends, or it breaks down
when the replay is over and the next sweep would be past the end of the clock. -/
inductive Goes (pending : List Entry) (max : Nat) (block : Duration) (f : Fetch) (now : Instant) :
    Prop
  | asks {command : Command} {cut : Option (Cut Fetch)} {resume : Redis.Result → Fetch}
      {r : Redis.Result} {pending' : List Entry}
      (turn : s.fetchTurn max block now f = .ask command cut resume)
      (answers : Answers place s pending command r pending')
  | ends {fetched : Fetched} (turn : s.fetchTurn max block now f = .done fetched)
  | breaks (turn : s.fetchTurn max block now f = .crash) (finished : ahead f = none)
      (late : Instant.after? now s.claimIdle = none)

/-- What the fetches do with a backlog. -/
structure Redelivers (initial : List Entry) (log : List Event) (pending : List Entry)
    (activity : Activity) : Prop where
  /-- Each read goes on where the one before came to. -/
  trail : Trail place initial (reads log) activity.ahead
  /-- What is read is in order, no entry twice. -/
  inOrder : InOrder place (returned place (reads log))
  /-- An entry is read if and only if it is pending at the read that covers it. -/
  read_iff : ∀ e, ∀ read ∈ reads log, read.Covers place e →
    (e ∈ returned place (reads log) ↔ e ∈ read.pending)
  /-- What the replay has come past is covered. -/
  covered : ∀ e ∈ initial, (∀ after ∈ activity.ahead, place e.id ≤ place after) →
    ∃ read ∈ reads log, read.Covers place e
  /-- Between the fetches, they have handed out the messages that they read, marked as redelivered
  and in their order, and behind them what was not of the backlog. -/
  delivered : ∀ position, activity = .idle position → delivered log =
    (returned place (reads log)).filterMap (Entry.delivery? s.queue true) ++
      log.flatMap fun event => (event.beyond s.queue).1
  /-- They have acknowledged the entries without a message that they read, and no other. -/
  acknowledged : ∀ position, activity = .idle position → acknowledged log =
    ((returned place (reads log)).filter fun e => e.body?.isNone).map (·.id) ++
      log.flatMap fun event => (event.beyond s.queue).2
  /-- Before anything is taken over or newly read, and before a fetch ends without a message, a page
  was empty and all entries were covered. -/
  guarded : ∀ before event after, log = before ++ event :: after → event.Beyond →
    (∃ read ∈ reads before, read.page place = []) ∧
      ∀ e ∈ initial, ∃ read ∈ reads before, read.Covers place e
  /-- A fetch sends so many commands and no more. -/
  brief : sent log ≤ 2 * initial.length + 5
  /-- A fetch that has not ended goes on. -/
  goes : ∀ max block f, activity = .fetching max block f → ∀ now,
    Goes place s pending max block f now

end

section

variable {α : Type} [LinearOrder α] {place : String → α} {s : StreamReader} {initial : List Entry}
  {log : List Event} {pending : List Entry} {activity : Activity}

theorem goes_of_sound {max : Nat} {block : Duration} {f : Fetch} (sound : Sound f) (now : Instant) :
    Goes place s pending max block f now := by
  have acts : Acts s max now f (s.fetchTurn max block now f) := acts_fetchTurn sound
  generalize hturn : s.fetchTurn max block now f = turn at acts
  cases acts with
  | settles => exact .asks hturn (.acknowledged (r := .ok (.int 0)) rfl)
  | replays => exact .asks hturn (.page (r := .ok _) (readEntries_pageReply s.queue _))
  | sweeps => exact .asks hturn (.tookOver _ _ _ (.ok .nil) pending)
  | polls => exact .asks hturn (.readNew _ _ (.ok .nil) pending)
  | hands => exact .ends hturn
  | fails => exact .ends hturn
  | crashes finished late => exact .breaks hturn finished late

/-- Whatever was pending when a broker connects and whatever is acknowledged meanwhile, its fetches
hand out the backlog before anything else. -/
theorem redelivered_of_runs (sorted : InOrder place initial)
    (first : ∀ e ∈ initial, place replayStart < place e.id)
    (runs : Runs place s initial log pending activity) :
    Redelivers place s initial log pending activity := by
  have known := Known.of_runs sorted runs
  exact {
    trail := known.trail
    inOrder := known.trail.inOrder_returned sorted
    read_iff := fun e read mem covers => known.trail.mem_returned_iff sorted mem covers
    covered := fun e he past => known.trail.exists_covers (first e he) past
    delivered := by
      rintro position rfl
      have handed := known.books.handed
      rwa [Activity.owed, List.append_nil] at handed
    acknowledged := by
      rintro position rfl
      have settled := known.books.settled
      rwa [Activity.owed, List.append_nil] at settled
    guarded := fun before event after heq beyond =>
      have finished := known.guarded before event after heq beyond
      ⟨finished.exists_empty, fun e he => finished.exists_covers (first e he) nofun⟩
    brief := Nat.le_trans (Nat.le_add_right _ _) known.brief
    goes := by
      rintro max block f rfl
      exact goes_of_sound known.sound.2 }

end

namespace Mixed

/-- The place of an id: its milliseconds, and the number behind the hyphen. -/
def place (id : String) : Nat :=
  let digits := id.toList.span (· ≠ '-')
  Nat.ofDigitChars 10 digits.1 0 * twoPow 64 + Nat.ofDigitChars 10 digits.2.tail 0

def reader : StreamReader := ⟨"payments", "settlers", "settler-1", ⟨600000000000⟩⟩

def first : Entry := ⟨"1-0", [("body", .data "one".toUTF8)]⟩

def bare : Entry := ⟨"1-1", [("note", .data "no message".toUTF8)]⟩

def second : Entry := ⟨"2-0", [("body", .data "two".toUTF8)]⟩

def initial : List Entry := [first, bare, second]

def page (entries : List Entry) : Redis.Result := .ok (pageReply "payments" entries)

theorem bind_page (entries : List Entry) : (page entries).bind readEntries = .ok entries :=
  readEntries_pageReply _ _

def block : Duration := ⟨1000000000⟩

def log : List Event :=
  [.begun, .asked initial (.readPending "payments" "settlers" "settler-1" "0" 2)
      (page [first, bare]),
    .asked initial (.acknowledge "payments" "settlers" ["1-1"]) (.ok (.int 1)),
    .ended (.ok [⟨"1-0", "payments", "one".toUTF8, true⟩]), .acked ["1-0"], .begun,
    .asked [second] (.readPending "payments" "settlers" "settler-1" "1-1" 2) (page [second]),
    .ended (.ok [⟨"2-0", "payments", "two".toUTF8, true⟩])]

def position : Position := ⟨some "2-0", "0-0", none⟩

theorem places : place "0" < place "1-0" ∧ place "1-0" < place "1-1" ∧
    place "1-1" < place "2-0" := by
  decide +kernel

theorem sorted : InOrder place initial := by
  obtain ⟨-, h, h'⟩ := places
  simp [InOrder, initial, first, bare, second, h, h', h.trans h']

theorem behind_start : ∀ e ∈ initial, place replayStart < place e.id := by
  obtain ⟨h, h', h''⟩ := places
  simp [replayStart, initial, first, bare, second, h, h.trans h', (h.trans h').trans h'']

theorem firstPage : PendingRead.page place ⟨"0", 2, initial⟩ = [first, bare] := by
  obtain ⟨h, h', -⟩ := places
  simp [PendingRead.page, initial, first, bare, h, h.trans h']

theorem secondPage : PendingRead.page place ⟨"1-1", 2, [second]⟩ = [second] := by
  simp [PendingRead.page, second, places.2.2]

/-- The position behind the first page. -/
def halfway : Position := ⟨some "1-1", "0-0", none⟩

theorem settles_first : reader.fetchTurn 2 block 0 ⟨.start, .replayed (page [first, bare])⟩ =
    .ask (.acknowledge "payments" "settlers" ["1-1"]) none fun r =>
      ⟨.start, .replaySettled (some "1-1") [⟨"1-0", "payments", "one".toUTF8, true⟩] r⟩ := by
  simp only [StreamReader.fetchTurn, bind_page]
  rfl

theorem hands_second : reader.fetchTurn 2 block 0 ⟨halfway, .replayed (page [second])⟩ =
    .done ⟨.ok [⟨"2-0", "payments", "two".toUTF8, true⟩], position⟩ := by
  simp only [StreamReader.fetchTurn, bind_page]
  rfl

theorem runs : Runs place reader initial log [second] (.idle position) := by
  have fresh : Runs place reader initial [] initial (.idle .start) := .start
  have read : Runs place reader initial (log.take 2) initial
      (.fetching 2 block ⟨.start, .replayed (page [first, bare])⟩) :=
    (fresh.begins Nat.zero_lt_two block).asks 0 rfl
      (.page ((bind_page _).trans (congrArg Except.ok firstPage.symm)))
  have settled : Runs place reader initial (log.take 3) [first, second]
      (.fetching 2 block ⟨.start, .replaySettled (some "1-1")
        [⟨"1-0", "payments", "one".toUTF8, true⟩] (.ok (.int 1))⟩) :=
    read.asks 0 settles_first (.acknowledged rfl)
  have handed : Runs place reader initial (log.take 4) [first, second] (.idle halfway) :=
    settled.ends 0 rfl
  have again : Runs place reader initial (log.take 7) [second]
      (.fetching 2 block ⟨halfway, .replayed (page [second])⟩) :=
    ((handed.acked ["1-0"]).begins Nat.zero_lt_two block).asks 0 rfl
      (.page ((bind_page _).trans (congrArg Except.ok secondPage.symm)))
  exact again.ends 0 hands_second

end Mixed

/-- An entry without a message between two messages, the first of them acknowledged meanwhile. -/
theorem redelivered_of_runs_mixed :
    InOrder Mixed.place Mixed.initial ∧
      (∀ e ∈ Mixed.initial, Mixed.place replayStart < Mixed.place e.id) ∧
      Runs Mixed.place Mixed.reader Mixed.initial Mixed.log [Mixed.second]
        (.idle Mixed.position) ∧
      Redelivers Mixed.place Mixed.reader Mixed.initial Mixed.log [Mixed.second]
        (.idle Mixed.position) :=
  ⟨Mixed.sorted, Mixed.behind_start, Mixed.runs,
    redelivered_of_runs Mixed.sorted Mixed.behind_start Mixed.runs⟩

end Settlement.Queue.Stream.Replay
