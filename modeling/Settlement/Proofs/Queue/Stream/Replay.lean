import Settlement.Proofs.Queue.Stream.Backlog

/-!
# The replay of a stream

A consumer that connects reads its backlog first. `Runs place s initial log pending activity` says
that fetches, one after the other, have come to where they are, by the events that `log` lists in
their order, when the entries of `initial` were pending at first. The server answers a read of
pending entries with a page of what is pending (`Answers`), and what has been acknowledged is
pending no more; entries may be acknowledged at any time. What the server answers to a take-over or
to a read of new entries is left open, and so is what is pending after it.

`Acts` says what a fetch can do at a stage, and all that is known of a run comes from it.
-/

namespace Settlement.Queue.Stream.Replay

open Redis (Command Reply)

/-- The pending entries that are left when ids are acknowledged. -/
def without (ids : List String) (pending : List Entry) : List Entry :=
  pending.filter fun e => e.id ∉ ids

/-- What a broker does: nothing, or a fetch of at most `max` messages. -/
inductive Activity where
  | idle (position : Position)
  | fetching (max : Nat) (block : Duration) (f : Fetch)

/-- Something that happened: ids were acknowledged between the commands of the fetches, a fetch
began, it asked the server something while some entries were pending, or it ended. -/
inductive Event where
  | acked (ids : List String)
  | begun
  | asked (pending : List Entry) (command : Command) (r : Redis.Result)
  | ended (result : Except QueueError (List Delivery))

section

variable {α : Type} [LinearOrder α] (place : String → α) (s : StreamReader)

/-- What the server answers to a command of the consumer, and what is pending then. -/
inductive Answers (pending : List Entry) : Command → Redis.Result → List Entry → Prop
  | page {after : String} {count : Nat} {r : Redis.Result}
      (h : r.bind readEntries = .ok (PendingRead.page place ⟨after, count, pending⟩)) :
      Answers pending (.readPending s.queue s.group s.consumer after count) r pending
  | acknowledged {ids : List String} {r : Redis.Result} {n : Int} (h : r.bind Reply.int? = .ok n) :
      Answers pending (.acknowledge s.queue s.group ids) r (without ids pending)
  | tookOver (idle : Nat) (start : String) (count : Nat) (r : Redis.Result) (now : List Entry) :
      Answers pending (.takeOver s.queue s.group s.consumer idle start count) r now
  | readNew (count block : Nat) (r : Redis.Result) (now : List Entry) :
      Answers pending (.readNew s.queue s.group s.consumer count block) r now

/-- How a broker that has just connected and its server have come to be what they are. -/
inductive Runs (initial : List Entry) : List Event → List Entry → Activity → Prop
  | start : Runs initial [] initial (.idle .start)
  | acked {log : List Event} {pending : List Entry} {activity : Activity}
      (before : Runs initial log pending activity) (ids : List String) :
      Runs initial (log ++ [.acked ids]) (without ids pending) activity
  | begins {log : List Event} {pending : List Entry} {position : Position}
      (before : Runs initial log pending (.idle position)) {max : Nat} (positive : 0 < max)
      (block : Duration) :
      Runs initial (log ++ [.begun]) pending (.fetching max block ⟨position, .choosing⟩)
  | asks {log : List Event} {pending pending' : List Entry} {max : Nat} {block : Duration}
      {f : Fetch} {command : Command} {cut : Option (Cut Fetch)} {resume : Redis.Result → Fetch}
      {r : Redis.Result} (before : Runs initial log pending (.fetching max block f)) (now : Instant)
      (turn : s.fetchTurn max block now f = .ask command cut resume)
      (answers : Answers place s pending command r pending') :
      Runs initial (log ++ [.asked pending command r]) pending' (.fetching max block (resume r))
  | ends {log : List Event} {pending : List Entry} {max : Nat} {block : Duration} {f : Fetch}
      {fetched : Fetched} (before : Runs initial log pending (.fetching max block f))
      (now : Instant) (turn : s.fetchTurn max block now f = .done fetched) :
      Runs initial (log ++ [.ended fetched.result]) pending (.idle fetched.position)

end

/-! ## What a fetch holds -/

/-- The entries that a reply to a read returns. -/
def entries (r : Redis.Result) : List Entry := (r.bind readEntries).toOption.getD []

/-- The entries that a reply to a take-over returns. -/
def taken (r : Redis.Result) : List Entry := ((r.bind readTakeOver).toOption.map Prod.snd).getD []

/-- Behind which entry the replay goes on after the stage; none when it is over. -/
def ahead (f : Fetch) : Option String :=
  match f.stage with
  | .choosing => f.position.replay
  | .replayed r => (entries r).getLast?.map (·.id)
  | .replaySettled last _ _ => last
  | _ => none

/-- The messages that a stage has still to hand out, and the ids it has still to acknowledge. -/
def owed (queue : String) : FetchStage → List Delivery × List String
  | .choosing => ([], [])
  | .replayed r => split queue true (entries r)
  | .replaySettled _ batch _ => (batch, [])
  | .swept r => split queue true (taken r)
  | .sweepSettled _ batch _ => (batch, [])
  | .polled r => split queue false (entries r)
  | .pollSettled batch _ => (batch, [])

/-- The commands that may still be sent when the replay is over, acknowledging aside. -/
def room : FetchStage → Nat
  | .choosing | .replayed _ | .replaySettled _ _ _ => 4
  | .swept _ | .sweepSettled _ _ _ => 2
  | .polled _ | .pollSettled _ _ => 0

/-- The replies at hand are what the server answers, and a stage behind the replay is only reached
when the replay is over. -/
def Sound (f : Fetch) : Prop :=
  match f.stage with
  | .choosing => True
  | .replayed r => ∃ page, r.bind readEntries = .ok page
  | .replaySettled _ _ r => ∃ n, r.bind Reply.int? = .ok n
  | .swept _ => f.position.replay = none
  | .sweepSettled _ _ r => f.position.replay = none ∧ ∃ n, r.bind Reply.int? = .ok n
  | .polled _ => f.position.replay = none
  | .pollSettled _ r => f.position.replay = none ∧ ∃ n, r.bind Reply.int? = .ok n

/-- What a fetch of at most `max` messages does at a stage. It acknowledges what it has to, and
hands out what it holds. With nothing at hand it reads on where the replay goes on; when the replay
is over it takes over, reads new entries, or fails. -/
inductive Acts (s : StreamReader) (max : Nat) (now : Instant) (f : Fetch) :
    FetchTurn → Prop
  | settles {stage : Redis.Result → FetchStage} (unread : (owed s.queue f.stage).2 ≠ [])
      (goes : ∀ r, ahead ⟨f.position, stage r⟩ = ahead f)
      (owes : ∀ r, owed s.queue (stage r) = ((owed s.queue f.stage).1, []))
      (rooms : ∀ r, room (stage r) = room f.stage)
      (sound : ∀ r n, r.bind Reply.int? = .ok n → Sound ⟨f.position, stage r⟩) :
      Acts s max now f (.ask (.acknowledge s.queue s.group (owed s.queue f.stage).2) none
        fun r => ⟨f.position, stage r⟩)
  | replays {after : String} {position : Position} (free : owed s.queue f.stage = ([], []))
      (goes : ahead f = some after) :
      Acts s max now f (.ask (.readPending s.queue s.group s.consumer after max) none
        fun r => ⟨position, .replayed r⟩)
  | sweeps {start : String} {position : Position} (free : owed s.queue f.stage = ([], []))
      (finished : ahead f = none) (done : position.replay = none) (rooms : room f.stage = 4) :
      Acts s max now f (.ask (.takeOver s.queue s.group s.consumer s.idleMillis start max) none
        fun r => ⟨position, .swept r⟩)
  | polls {wait : Nat} {position : Position} (free : owed s.queue f.stage = ([], []))
      (finished : ahead f = none) (done : position.replay = none) (rooms : 2 ≤ room f.stage) :
      Acts s max now f (.ask (.readNew s.queue s.group s.consumer max wait) none
        fun r => ⟨position, .polled r⟩)
  | hands {batch : List Delivery} {position : Position} (owes : owed s.queue f.stage = (batch, []))
      (goes : position.replay = ahead f) (filled : ahead f ≠ none → batch ≠ []) :
      Acts s max now f (.done ⟨.ok batch, position⟩)
  | fails {e : QueueError} {position : Position} (free : owed s.queue f.stage = ([], []))
      (finished : ahead f = none) (done : position.replay = none) :
      Acts s max now f (.done ⟨.error e, position⟩)
  | crashes (finished : ahead f = none) (late : Instant.after? now s.claimIdle = none) :
      Acts s max now f .crash

section

variable {s : StreamReader} {max : Nat} {block : Duration} {now : Instant} {f : Fetch}

theorem entries_eq {r : Redis.Result} {page : List Entry} (h : r.bind readEntries = .ok page) :
    entries r = page := by
  rw [entries, h]
  rfl

theorem ahead_replayed (position : Position) (r : Redis.Result) :
    ahead ⟨position, .replayed r⟩ = (entries r).getLast?.map (·.id) := rfl

theorem acts_poll {position : Position} (free : owed s.queue f.stage = ([], []))
    (finished : ahead f = none) (done : position.replay = none) (rooms : 2 ≤ room f.stage) :
    Acts s max now f (s.poll max block position) :=
  .polls free finished done rooms

theorem acts_choose {position : Position} (free : owed s.queue f.stage = ([], []))
    (goes : position.replay = ahead f) (rooms : room f.stage = 4) :
    Acts s max now f (s.choose max block now position) := by
  unfold StreamReader.choose
  cases hreplay : position.replay with
  | some after =>
      have hstep : position.step now = .replay after := by simp [Position.step, hreplay]
      rw [hstep]
      exact .replays free (goes.symm.trans hreplay)
  | none =>
      have finished := goes.symm.trans hreplay
      cases hdue : position.nextSweep with
      | none =>
          have hstep : position.step now = .sweep position.cursor := by
            simp [Position.step, hreplay, hdue]
          rw [hstep]
          exact .sweeps free finished hreplay rooms
      | some due =>
          by_cases hlt : now < due
          · have hstep : position.step now = .fresh := by
              simp [Position.step, hreplay, hdue, hlt]
            rw [hstep]
            exact acts_poll free finished hreplay (by omega)
          · have hstep : position.step now = .sweep position.cursor := by
              simp [Position.step, hreplay, hdue, hlt]
            rw [hstep]
            exact .sweeps free finished hreplay rooms

theorem acts_afterReplay {last : Option String} {batch : List Delivery}
    (owes : owed s.queue f.stage = (batch, [])) (goes : ahead f = last)
    (rooms : room f.stage = 4) :
    Acts s max now f (s.afterReplay max block now f.position last batch) := by
  unfold StreamReader.afterReplay
  dsimp only
  split_ifs with hempty
  · rw [List.isEmpty_iff.1 hempty] at owes
    exact acts_choose owes goes.symm rooms
  · refine .hands owes goes.symm fun _ => ?_
    simpa using hempty

theorem acts_afterSweep {next : String} {batch : List Delivery}
    (owes : owed s.queue f.stage = (batch, [])) (finished : ahead f = none)
    (done : f.position.replay = none) (rooms : room f.stage = 2) :
    Acts s max now f (s.afterSweep max block now f.position next batch) := by
  unfold StreamReader.afterSweep
  split
  next hswept =>
    unfold Position.swept? at hswept
    split_ifs at hswept
    exact .crashes finished (by simpa using hswept)
  next position hswept =>
    have hreplay : position.replay = none := by
      unfold Position.swept? at hswept
      split_ifs at hswept
      · obtain ⟨due, -, rfl⟩ := Option.map_eq_some_iff.1 hswept
        exact done
      · obtain rfl := Option.some.inj hswept
        exact done
    split_ifs with hempty
    · rw [List.isEmpty_iff.1 hempty] at owes
      exact acts_poll owes finished hreplay (Nat.le_of_eq rooms.symm)
    · exact .hands owes (hreplay.trans finished.symm) fun h => absurd finished h

theorem acts_settle {unreadable : List String} {stage : Redis.Result → FetchStage}
    {next : FetchTurn} (unread : (owed s.queue f.stage).2 = unreadable)
    (goes : ∀ r, ahead ⟨f.position, stage r⟩ = ahead f)
    (owes : ∀ r, owed s.queue (stage r) = ((owed s.queue f.stage).1, []))
    (rooms : ∀ r, room (stage r) = room f.stage)
    (sound : ∀ r n, r.bind Reply.int? = .ok n → Sound ⟨f.position, stage r⟩)
    (acts : owed s.queue f.stage = ((owed s.queue f.stage).1, []) → Acts s max now f next) :
    Acts s max now f (s.settle f.position unreadable stage next) := by
  unfold StreamReader.settle
  subst unread
  split_ifs with hempty
  · exact acts (Prod.ext rfl (List.isEmpty_iff.1 hempty))
  · exact .settles (by simpa using hempty) goes owes rooms sound

/-- Whatever a fetch does at a stage, it is one of these acts. -/
theorem acts_fetchTurn (sound : Sound f) : Acts s max now f (s.fetchTurn max block now f) := by
  obtain ⟨position, stage⟩ := f
  cases stage with
  | choosing => exact acts_choose rfl rfl rfl
  | replayed r =>
      obtain ⟨page, hpage⟩ := sound
      simp only [StreamReader.fetchTurn, hpage, ← entries_eq hpage]
      exact acts_settle rfl (fun _ => rfl) (fun _ => rfl) (fun _ => rfl) (fun _ n h => ⟨n, h⟩)
        fun owes => acts_afterReplay owes rfl rfl
  | replaySettled last batch r =>
      obtain ⟨n, hn⟩ := sound
      simp only [StreamReader.fetchTurn, hn]
      exact acts_afterReplay rfl rfl rfl
  | swept r =>
      simp only [StreamReader.fetchTurn]
      split
      next fault hfault =>
        exact .fails (by simp [owed, taken, hfault, Except.toOption, split]) rfl sound
      next next page hpage =>
        have htaken : taken r = page := by
          rw [taken, hpage]
          rfl
        subst htaken
        exact acts_settle rfl (fun _ => rfl) (fun _ => rfl) (fun _ => rfl)
          (fun _ n h => ⟨sound, n, h⟩) fun owes => acts_afterSweep owes rfl sound rfl
  | sweepSettled next batch r =>
      obtain ⟨done, n, hn⟩ := sound
      simp only [StreamReader.fetchTurn, hn]
      exact acts_afterSweep rfl rfl done rfl
  | polled r =>
      simp only [StreamReader.fetchTurn]
      split
      next fault hfault =>
        exact .fails (by simp [owed, entries, hfault, Except.toOption, split]) rfl sound
      next page hpage =>
        rw [← entries_eq hpage]
        exact acts_settle rfl (fun _ => rfl) (fun _ => rfl) (fun _ => rfl)
          (fun _ n h => ⟨sound, n, h⟩) fun owes => .hands owes sound fun h => absurd rfl h
  | pollSettled batch r =>
      obtain ⟨done, n, hn⟩ := sound
      simp only [StreamReader.fetchTurn, hn]
      exact .hands rfl done fun h => absurd rfl h

end

end Settlement.Queue.Stream.Replay
