import Settlement.Proofs.Config.Range
import Settlement.Proofs.Course
import Settlement.Proofs.Queue.Stream.Pages
import Settlement.Proofs.Queue.Stream.Replay

/-!
# How long an entry is left alone

The server hands an entry over only when it has been idle for as many milliseconds as it is told
(`Served.Faithful`). Every part of a sweep tells it the same (`tells_fetchTurn`), the idle time cut
to a word of 64 bits. So entries are left alone for as long as is configured exactly if that many
milliseconds fit the word (`spares_iff`).
-/

namespace Settlement

open Redis (Command Reply Fault)

/-- The consumer as which a worker reads a queue. -/
def Config.reader (c : Config) (queue consumer : String) : StreamReader :=
  ⟨queue, c.queue.group, consumer, c.queue.claimIdle⟩

namespace Queue.Stream

open Replay (Activity)

/-- An entry that is pending, and for how long it has been idle. -/
structure Pending where
  entry : Entry
  idle : Duration

/-- A command with the reply to it, the entries that were pending then, and those of them that the
server handed over. -/
structure Served where
  command : Command
  reply : Redis.Result
  pending : List Pending
  handed : List Pending

/-- Where the server looks at pending entries to hand some over, it hands over those that have been
idle for at least the time that it is told, and no others. It looks at a part of them, and the reply
may be lost. -/
def Served.Faithful (x : Served) : Prop :=
  match x.command with
  | .takeOver _ _ _ least _ count => x.handed.length ≤ count ∧
    (∃ examined, examined <:+: x.pending ∧
      x.handed = examined.filter fun p => least ≤ p.idle.millis) ∧
    ∀ next page, x.reply.bind readTakeOver = .ok (next, page) → page = x.handed.map (·.entry)
  | _ => x.handed = []

/-- How a consumer that has just connected has come to what it does, by the commands that it has
sent since, in their order. Fetches may fail, and nothing is said about when they are made. -/
inductive Serves (s : StreamReader) : List Served → Activity → Prop
  | start : Serves s [] (.idle .start)
  | begins {log : List Served} {position : Position} (before : Serves s log (.idle position))
      (max : Nat) (block : Duration) : Serves s log (.fetching max block ⟨position, .choosing⟩)
  | asks {log : List Served} {max : Nat} {block : Duration} {f : Fetch} {x : Served}
      {cut : Option (Cut Fetch)} {resume : Redis.Result → Fetch}
      (before : Serves s log (.fetching max block f)) (now : Instant)
      (turn : s.fetchTurn max block now f = .ask x.command cut resume) (faithful : x.Faithful) :
      Serves s (log ++ [x]) (.fetching max block (resume x.reply))
  | ends {log : List Served} {max : Nat} {block : Duration} {f : Fetch} {fetched : Fetched}
      (before : Serves s log (.fetching max block f)) (now : Instant)
      (turn : s.fetchTurn max block now f = .done fetched) : Serves s log (.idle fetched.position)

/-- No entry is taken over that has been idle for less than the consumer's idle time. -/
def Spares (s : StreamReader) : Prop :=
  ∀ log activity, Serves s log activity →
    ∀ x ∈ log, ∀ p ∈ x.handed, s.claimIdle.nanos ≤ p.idle.nanos

/-- What the server is told when it is to hand entries over. -/
def Tells (s : StreamReader) : Command → Prop
  | .takeOver _ _ _ least _ _ => least = s.idleMillis
  | _ => True

end Queue.Stream

namespace StreamReader

open Queue.Stream

section

variable (s : StreamReader) (max : Nat) (block : Duration) (now : Instant) (position : Position)

theorem tells_choose : (s.choose max block now position).Asks (Tells s) := by
  unfold choose
  split
  · trivial
  · exact rfl
  · trivial

theorem tells_settle {unreadable : List String} {stage : Redis.Result → FetchStage}
    {next : FetchTurn} (h : next.Asks (Tells s)) :
    (s.settle position unreadable stage next).Asks (Tells s) := by
  unfold settle
  split
  · exact h
  · trivial

theorem tells_afterReplay (last : Option String) (batch : List Delivery) :
    (s.afterReplay max block now position last batch).Asks (Tells s) := by
  unfold afterReplay
  dsimp only
  split
  · exact s.tells_choose max block now _
  · trivial

theorem tells_afterSweep (next : String) (batch : List Delivery) :
    (s.afterSweep max block now position next batch).Asks (Tells s) := by
  unfold afterSweep
  split
  · trivial
  · split <;> trivial

/-- Every part of a sweep tells the server the same. -/
theorem tells_fetchTurn (f : Fetch) : (s.fetchTurn max block now f).Asks (Tells s) := by
  obtain ⟨position, stage⟩ := f
  cases stage with
  | choosing => exact s.tells_choose max block now position
  | replayed r =>
      simp only [fetchTurn]
      split
      · trivial
      · exact s.tells_settle position (s.tells_afterReplay max block now position _ _)
  | replaySettled last batch r =>
      simp only [fetchTurn]
      split
      · trivial
      · exact s.tells_afterReplay max block now position last batch
  | swept r =>
      simp only [fetchTurn]
      split
      · trivial
      · exact s.tells_settle position (s.tells_afterSweep max block now position _ _)
  | sweepSettled next batch r =>
      simp only [fetchTurn]
      split
      · trivial
      · exact s.tells_afterSweep max block now position next batch
  | polled r =>
      simp only [fetchTurn]
      split
      · trivial
      · exact s.tells_settle position trivial
  | pollSettled batch r =>
      simp only [fetchTurn]
      split <;> trivial

end

end StreamReader

/-- Seconds are thousands of milliseconds. -/
theorem Duration.millis_ofSecs (secs : Nat) : (ofSecs secs).millis = secs * 1000 := by
  change secs * 1000000000 / 1000000 = secs * 1000
  omega

theorem Duration.millis_ofMillis (millis : Nat) : (ofMillis millis).millis = millis :=
  Nat.mul_div_cancel millis (by decide)

namespace Queue.Stream

section

variable {s : StreamReader} {log : List Served} {activity : Replay.Activity}

theorem Served.Faithful.least_le {x : Served} (faithful : x.Faithful) (tells : Tells s x.command) :
    ∀ p ∈ x.handed, s.idleMillis ≤ p.idle.millis := by
  obtain ⟨command, reply, pending, handed⟩ := x
  intro p hp
  cases command with
  | takeOver queue group consumer least start count =>
      obtain ⟨-, ⟨examined, -, rfl⟩, -⟩ := faithful
      obtain rfl : least = s.idleMillis := tells
      exact of_decide_eq_true (List.mem_filter.1 hp).2
  | _ =>
      obtain rfl : handed = [] := faithful
      cases hp

/-- What is taken over has been idle for as long as the server is told. -/
theorem least_le_of_serves (h : Serves s log activity) :
    ∀ x ∈ log, ∀ p ∈ x.handed, s.idleMillis ≤ p.idle.millis := by
  induction h with
  | start => nofun
  | begins before max block ih => exact ih
  | @asks log max block f x cut resume before now turn faithful ih =>
      have tells : Tells s x.command := by
        have asks := s.tells_fetchTurn max block now f
        rwa [turn] at asks
      exact List.forall_mem_append.2 ⟨ih, List.forall_mem_singleton.2 (faithful.least_le tells)⟩
  | ends before now turn ih => exact ih

/-- An entry that has been idle for just as long as the server is told may be taken over at once. -/
theorem taken_of_idleMillis (s : StreamReader) {p : Pending} (idle : p.idle.millis = s.idleMillis) :
    ∃ log activity, Serves s log activity ∧ ∃ x ∈ log, p ∈ x.handed := by
  have begun : Serves s [] (.fetching 1 ⟨1⟩ ⟨.start, .choosing⟩) := .begins .start 1 ⟨1⟩
  have replayed : Serves s [⟨.readPending s.queue s.group s.consumer "0" 1, .ok .nil, [p], []⟩]
      (.fetching 1 ⟨1⟩ ⟨.start, .replayed (.ok .nil)⟩) :=
    begun.asks (x := ⟨.readPending s.queue s.group s.consumer "0" 1, .ok .nil, [p], []⟩) 0 rfl rfl
  have faithful : Served.Faithful ⟨.takeOver s.queue s.group s.consumer s.idleMillis "0-0" 1,
      .ok (takeOverReply "1-0" [p.entry]), [p], [p]⟩ := by
    refine ⟨Nat.le_refl _, ⟨[p], List.infix_refl _, by simp [idle]⟩, fun next page h => ?_⟩
    exact (Prod.mk.inj (Except.ok.inj (h.symm.trans (readTakeOver_takeOverReply _ _)))).2
  exact ⟨_, _, replayed.asks 0 rfl faithful, _, List.mem_append_right _ (List.mem_singleton_self _),
    List.mem_singleton_self _⟩

end

/-- **What is left alone.** A consumer leaves all entries alone for the idle time that is configured
exactly if its milliseconds are counted by a word of 64 bits. -/
theorem spares_iff {env : Variables} {config : Config}
    (accepted : Config.ofVariables env = .ok config) (queue consumer : String) :
    Spares (config.reader queue consumer) ↔ config.queue.claimIdle.millis < twoPow 64 := by
  obtain ⟨secs, -, hidle⟩ := (Config.inRange_of_ofVariables accepted).claimIdle
  have hmillis : config.queue.claimIdle.millis = secs * 1000 := by
    rw [hidle, Duration.millis_ofSecs]
  have htold : (config.reader queue consumer).idleMillis = secs * 1000 % twoPow 64 := by
    rw [StreamReader.idleMillis, Config.reader, hmillis]
  have hnanos : (config.reader queue consumer).claimIdle.nanos = secs * 1000000000 :=
    congrArg Duration.nanos hidle
  rw [hmillis]
  constructor
  · intro spares
    by_contra wide
    -- The server is told less than the word holds, and that is less than what is configured.
    have less : secs * 1000 % twoPow 64 < secs * 1000 :=
      Nat.lt_of_lt_of_le (Nat.mod_lt _ (twoPow_pos 64)) (Nat.le_of_not_lt wide)
    obtain ⟨log, activity, serves, x, hx, hp⟩ := taken_of_idleMillis (config.reader queue consumer)
      (p := ⟨⟨"1-0", [("body", .data "message".toUTF8)]⟩, .ofMillis (secs * 1000 % twoPow 64)⟩)
      ((Duration.millis_ofMillis _).trans htold.symm)
    have early := spares log activity serves x hx _ hp
    rw [hnanos] at early
    change secs * 1000000000 ≤ secs * 1000 % twoPow 64 * 1000000 at early
    omega
  · intro fits log activity serves x hx p hp
    have idle := least_le_of_serves serves x hx p hp
    rw [htold, Nat.mod_eq_of_lt fits] at idle
    calc (config.reader queue consumer).claimIdle.nanos
      _ = secs * 1000 * Duration.nanosPerMilli := by rw [hnanos, Nat.mul_assoc]; rfl
      _ ≤ p.idle.nanos := (Nat.le_div_iff_mul_le (by decide)).1 idle

namespace Wrapped

/-- The least idle time of which the milliseconds are too many for the word. -/
def env : Variables :=
  [("DATABASE_URL", "postgres://payments"), ("HOSTNAME", "worker-1"),
    ("QUEUE_CLAIM_IDLE_SECS", "18446744073709552")]

def config : Config where
  environment := .development
  databaseUrl := "postgres://payments"
  rpcTimeout := .ofSecs 30
  queue := ⟨"redis://localhost:6379", 10, "pay-confirm", some "worker-1", .ofSecs 5,
    .ofSecs 18446744073709552⟩
  ethereum := none
  dash := none
  bitcoinCash := none

theorem accepted : Config.ofVariables env = .ok config := by decide +kernel

end Wrapped

/-- Entries are taken over from the consumers at work on them after 384 milliseconds. -/
theorem spares_iff_wrapped : Config.ofVariables Wrapped.env = .ok Wrapped.config ∧
    (Wrapped.config.reader "payments" "worker-1").idleMillis = 384 ∧
    ¬ Spares (Wrapped.config.reader "payments" "worker-1") := by
  refine ⟨Wrapped.accepted, by decide +kernel, fun spares => ?_⟩
  exact absurd ((spares_iff Wrapped.accepted "payments" "worker-1").1 spares) (by decide +kernel)

end Queue.Stream

end Settlement
