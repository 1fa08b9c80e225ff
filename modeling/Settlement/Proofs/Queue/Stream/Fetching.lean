import Settlement.Queue.Stream

/-!
# What a fetch sends

A fetch sends commands one after the other and goes on with the reply to each. `Holds` ties a stage
of the fetch to the command whose reply it holds, so that the reply to a read is known to be one.
Whatever is to be done at a stage, only entries of that very reply are acknowledged, and only those
that hold no message (`sends_fetchTurn`).
-/

namespace Settlement

open Redis (Command Reply Fault)

namespace Queue.Stream

/-- The entries that the server returned in the reply to a command that reads the stream. -/
def Returned (command : Command) (r : Redis.Result) (entries : List Entry) : Prop :=
  match command with
  | .readPending _ _ _ _ _ => r.bind readEntries = .ok entries
  | .readNew _ _ _ _ _ => r.bind readEntries = .ok entries
  | .takeOver _ _ _ _ _ _ => ∃ next, r.bind readTakeOver = .ok (next, entries)
  | _ => False

/-- The id is one of an entry without a readable body, which the reply returned. -/
def Bodyless (command : Command) (r : Redis.Result) (id : String) : Prop :=
  ∃ entries, Returned command r entries ∧ ∃ e ∈ entries, e.id = id ∧ e.body? = none

/-- The stage holds the reply to the command. -/
inductive Holds : Command → Redis.Result → FetchStage → Prop
  | replayed (queue group consumer after : String) (count : Nat) (r : Redis.Result) :
      Holds (.readPending queue group consumer after count) r (.replayed r)
  | swept (queue group consumer : String) (idle : Nat) (start : String) (count : Nat)
      (r : Redis.Result) : Holds (.takeOver queue group consumer idle start count) r (.swept r)
  | polled (queue group consumer : String) (count block : Nat) (r : Redis.Result) :
      Holds (.readNew queue group consumer count block) r (.polled r)
  | replaySettled (queue group : String) (ids : List String) (last : Option String)
      (batch : List Delivery) (r : Redis.Result) :
      Holds (.acknowledge queue group ids) r (.replaySettled last batch r)
  | sweepSettled (queue group : String) (ids : List String) (next : String)
      (batch : List Delivery) (r : Redis.Result) :
      Holds (.acknowledge queue group ids) r (.sweepSettled next batch r)
  | pollSettled (queue group : String) (ids : List String) (batch : List Delivery)
      (r : Redis.Result) : Holds (.acknowledge queue group ids) r (.pollSettled batch r)

theorem mem_unreadable {queue : String} {redelivered : Bool} {entries : List Entry} {id : String} :
    id ∈ (split queue redelivered entries).2 ↔ ∃ e ∈ entries, e.id = id ∧ e.body? = none := by
  simp only [split, List.mem_map, List.mem_filter, Option.isNone_iff_eq_none]
  constructor
  · rintro ⟨e, ⟨mem, hnone⟩, hid⟩
    exact ⟨e, mem, hid, hnone⟩
  · rintro ⟨e, mem, hid, hnone⟩
    exact ⟨e, ⟨mem, hnone⟩, hid⟩

end Queue.Stream

namespace StreamReader

open Queue.Stream

/-- What the turn sends acknowledges only ids that fulfil `P`, and the fetch goes on with the reply
to it. -/
def Sends (P : String → Prop) : FetchTurn → Prop
  | .ask command _ resume =>
    (∀ id ∈ command.acknowledged, P id) ∧ ∀ r, Holds command r (resume r).stage
  | _ => True

section

variable {s : StreamReader} {max : Nat} {block : Duration} {now : Instant} {position : Position}
  {P : String → Prop} {last : Option String} {next : String} {batch : List Delivery}

theorem sends_poll : Sends P (s.poll max block position) :=
  ⟨nofun, fun r => .polled _ _ _ _ _ r⟩

theorem sends_choose : Sends P (s.choose max block now position) := by
  unfold choose
  split
  · exact ⟨nofun, fun r => .replayed _ _ _ _ _ r⟩
  · exact ⟨nofun, fun r => .swept _ _ _ _ _ _ r⟩
  · exact sends_poll

theorem sends_afterReplay : Sends P (s.afterReplay max block now position last batch) := by
  unfold afterReplay
  dsimp only
  split
  · exact sends_choose
  · trivial

theorem sends_afterSweep : Sends P (s.afterSweep max block now position next batch) := by
  unfold afterSweep
  split
  · trivial
  · split
    · exact sends_poll
    · trivial

theorem sends_settle {unreadable : List String} {stage : Redis.Result → FetchStage}
    {turn : FetchTurn} (mem : ∀ id ∈ unreadable, P id)
    (holds : ∀ queue group ids r, Holds (.acknowledge queue group ids) r (stage r))
    (sends : Sends P turn) : Sends P (s.settle position unreadable stage turn) := by
  unfold settle
  split
  · exact sends
  · exact ⟨mem, holds _ _ _⟩

theorem sends_choosing {f : Fetch} (choosing : f.stage = .choosing) :
    Sends P (s.fetchTurn max block now f) := by
  rw [fetchTurn, choosing]
  exact sends_choose

/-- With the reply to a command, only entries without a message are acknowledged that this reply
returned. -/
theorem sends_fetchTurn {f : Fetch} {asked : Command} {r : Redis.Result}
    (holds : Holds asked r f.stage) : Sends (Bodyless asked r) (s.fetchTurn max block now f) := by
  obtain ⟨position, stage⟩ := f
  cases holds with
  | replayed queue group consumer after count r =>
      simp only [fetchTurn]
      split
      next => trivial
      next entries hread =>
        refine sends_settle ?_ (fun _ _ _ => .replaySettled _ _ _ _ _) sends_afterReplay
        exact fun id mem => ⟨entries, hread, mem_unreadable.1 mem⟩
  | swept queue group consumer idle start count r =>
      simp only [fetchTurn]
      split
      next => trivial
      next next entries hread =>
        refine sends_settle ?_ (fun _ _ _ => .sweepSettled _ _ _ _ _) sends_afterSweep
        exact fun id mem => ⟨entries, ⟨next, hread⟩, mem_unreadable.1 mem⟩
  | polled queue group consumer count wait r =>
      simp only [fetchTurn]
      split
      next => trivial
      next entries hread =>
        refine sends_settle ?_ (fun _ _ _ => .pollSettled _ _ _ _) trivial
        exact fun id mem => ⟨entries, hread, mem_unreadable.1 mem⟩
  | replaySettled queue group ids last batch r =>
      simp only [fetchTurn]
      split
      next => trivial
      next => exact sends_afterReplay
  | sweepSettled queue group ids next batch r =>
      simp only [fetchTurn]
      split
      next => trivial
      next => exact sends_afterSweep
  | pollSettled queue group ids batch r =>
      simp only [fetchTurn]
      split
      next => trivial
      next => trivial

end

end StreamReader

end Settlement
